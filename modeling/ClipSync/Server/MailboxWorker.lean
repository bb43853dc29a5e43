import ClipSync.Server.MailboxLoad

/-!
# The contract of the publication worker

`clip_pending` leaves a snapshot in `dirty` and signals the worker only if the room is
not queued yet; the worker clears the mark before it takes the snapshot, puts the
snapshot of a failed write back unless a newer one has come, and retries the room
later. Two things follow for any interleaving of the calls with the worker. The
snapshots renamed to the file of a room never go back to an older one, and a room with
a snapshot in `dirty` is always on its way to the worker or in its hands.
-/

namespace ClipSync

open Lib Program

/-! ## The order of publication -/

theorem inserts_append_self (roomId : String) (pended : List (String × Snapshot))
    (x : Snapshot) : inserts roomId (pended ++ [(roomId, x)]) = inserts roomId pended ++ [x] := by
  simp [inserts]

theorem inserts_append_of_ne {roomId other : String} (h : other ≠ roomId)
    (pended : List (String × Snapshot)) (x : Snapshot) :
    inserts roomId (pended ++ [(other, x)]) = inserts roomId pended := by
  simp [inserts, h]

/-- A sequence of elements of a list, each with its position, that never goes back. -/
structure InOrder {α : Type} (list : List α) (sequence : List (ℕ × α)) : Prop where
  listed : ∀ e ∈ sequence, list[e.1]? = some e.2
  ordered : sequence.Pairwise fun e e' => e.1 ≤ e'.1

namespace InOrder

variable {α : Type} {list : List α} {sequence : List (ℕ × α)}

theorem lt_length (h : InOrder list sequence) {e : ℕ × α} (he : e ∈ sequence) : e.1 < list.length :=
  (List.getElem?_eq_some_iff.1 (h.listed e he)).1

theorem append (h : InOrder list sequence) (more : List α) : InOrder (list ++ more) sequence := by
  refine ⟨fun e he => ?_, h.ordered⟩
  rw [List.getElem?_append_left (h.lt_length he)]
  exact h.listed e he

theorem concat (h : InOrder list sequence) {i : ℕ} {a : α} (ha : list[i]? = some a)
    (hlast : ∀ e ∈ sequence, e.1 ≤ i) : InOrder list (sequence ++ [(i, a)]) := by
  refine ⟨?_, ?_⟩
  · intro e he
    rcases List.mem_append.1 he with he | he
    · exact h.listed e he
    · rw [List.mem_singleton.1 he]
      exact ha
  · refine List.pairwise_append.2 ⟨h.ordered, List.pairwise_singleton _ _, ?_⟩
    intro e he e' he'
    rw [List.mem_singleton.1 he']
    exact hlast e he

end InOrder

namespace PersistentMailbox

open MailboxState WorkerPhase

variable (codec : MailboxCodec) (options : MailboxOptions)

/-- The worker renames only a file with the snapshot it holds. -/
def Prepared (s : MailboxState) (op : MailboxOp) : Prop :=
  ∀ source target, op = .files (.rename source target) → ∃ roomId x,
    s.taken = some (roomId, x) ∧ target = path roomId ∧
      s.fs.files source = some (encoded codec roomId x)

/-- What has been published of a room, and where the snapshot in the hands of the worker
stands in the order. -/
structure Publishes (base : List Bytes) (roomId : String) (published : List (ℕ × Snapshot))
    (s : MailboxState) : Prop where
  order : InOrder (inserts roomId s.pended) published
  versions : s.fs.versions (path roomId) =
    base ++ published.map fun e => encoded codec roomId e.2
  taken : ∀ {x}, s.taken = some (roomId, x) → ∃ i, (inserts roomId s.pended)[i]? = some x ∧
    ∀ e ∈ published, e.1 ≤ i

structure Monotonic (base : Fs Unit) (s : MailboxState) : Prop where
  unpublished : Unpublished ∅ s
  rooms : ∀ roomId, ∃ published,
    Publishes codec (base.versions (path roomId)) roomId published s

variable {codec} {base : Fs Unit} {s s' : MailboxState} {room : String}
  {published : List (ℕ × Snapshot)} {versions : List Bytes}

theorem Publishes.of_eq (h : Publishes codec versions room published s)
    (htaken : s'.taken = s.taken) (hpended : s'.pended = s.pended)
    (hversions : s'.fs.versions = s.fs.versions) : Publishes codec versions room published s' := by
  constructor
  · rw [hpended]
    exact h.order
  · rw [hversions]
    exact h.versions
  · rw [hpended, htaken]
    exact h.taken

theorem Publishes.dirtyInsert (h : Publishes codec versions room published s) (roomId : String)
    (x : Snapshot) :
    Publishes codec versions room published { s with
      dirty := s.dirty.insert roomId x
      pended := s.pended ++ [(roomId, x)] } := by
  by_cases hroom : room = roomId
  · subst hroom
    refine ⟨?_, h.versions, fun hy => ?_⟩
    · rw [inserts_append_self]
      exact h.order.append _
    · obtain ⟨i, hi, hlast⟩ := h.taken hy
      refine ⟨i, ?_, hlast⟩
      rw [inserts_append_self, List.getElem?_append_left (List.getElem?_eq_some_iff.1 hi).1]
      exact hi
  · refine ⟨?_, h.versions, ?_⟩
    · rw [inserts_append_of_ne (Ne.symm hroom)]
      exact h.order
    · rw [inserts_append_of_ne (Ne.symm hroom)]
      exact h.taken

theorem Publishes.dirtyRemove (h : Publishes codec versions room published s)
    (hunpublished : Unpublished ∅ s) (roomId : String) :
    Publishes codec versions room published { s with
      dirty := s.dirty.erase roomId
      taken := (s.dirty.lookup roomId).map fun x => (roomId, x) } := by
  refine ⟨h.order, h.versions, fun {y} hy => ?_⟩
  obtain ⟨z, hz, heq⟩ := Option.map_eq_some_iff.1 hy
  obtain ⟨rfl, rfl⟩ := Prod.mk.inj heq
  have hlast : (inserts roomId s.pended).getLast? = some z := by
    have hnewest := hunpublished.dirty hz
    rw [newest_eq] at hnewest
    simpa using hnewest
  refine ⟨(inserts roomId s.pended).length - 1, ?_, fun e he => ?_⟩
  · rw [← List.getLast?_eq_getElem?]
    exact hlast
  · have := h.order.lt_length he
    omega

theorem Publishes.rename {source : MailboxPath} {roomId : String} {x : Snapshot}
    (h : Publishes codec versions room published s) (hheld : s.taken = some (roomId, x)) :
    ∃ published, Publishes codec versions room published { s with
      fs := s.fs.replace source (path roomId) (encoded codec roomId x) } := by
  by_cases hroom : room = roomId
  · subst hroom
    obtain ⟨i, hi, hlast⟩ := h.taken hheld
    refine ⟨published ++ [(i, x)], h.order.concat hi hlast, ?_, fun hy => ?_⟩
    · change (s.fs.replace source (path room) _).versions (path room) = _
      rw [Fs.replace_versions_target, h.versions]
      simp
    · cases hheld.symm.trans hy
      refine ⟨i, hi, fun e he => ?_⟩
      rcases List.mem_append.1 he with he | he
      · exact hlast e he
      · rw [List.mem_singleton.1 he]
  · refine ⟨published, h.order, ?_, h.taken⟩
    change (s.fs.replace source (path roomId) _).versions (path room) = _
    rw [Fs.replace_versions_of_ne fun heq => hroom (path_injective heq)]
    exact h.versions

variable {retry : Finset String} {f : Finset String → MailboxProgram (Finset String)}
  {op : MailboxOp} {t : MailboxThread} {r : op.Res} {phase phase' : WorkerPhase}

theorem Monotonic.exec (h : Monotonic codec base s) (horderly : Orderly s.taken op)
    (hprepared : Prepared codec s op) (hexec : exec op s r s') : Monotonic codec base s' := by
  refine ⟨h.unpublished.exec horderly hexec, fun room => ?_⟩
  obtain ⟨published, hroom⟩ := h.rooms room
  cases op with
  | files op =>
    obtain ⟨fs, hfs, rfl⟩ := hexec
    rcases Fs.exec_cases hfs with rfl | ⟨_, _, rfl, -⟩ |
      ⟨source, target, contents, rfl, hfile, rfl⟩
    · exact ⟨published, hroom⟩
    · exact ⟨published, hroom.of_eq rfl rfl rfl⟩
    · obtain ⟨roomId, x, hheld, rfl, hsource⟩ := hprepared source target rfl
      cases hfile.symm.trans hsource
      exact hroom.rename hheld
  | dirtyInsert roomId x =>
    cases hexec
    exact ⟨published, hroom.dirtyInsert roomId x⟩
  | dirtyRemove roomId =>
    obtain ⟨rfl, rfl⟩ := hexec
    exact ⟨published, hroom.dirtyRemove h.unpublished roomId⟩
  | dirtyOrInsert roomId x | indexInsert roomId x =>
    cases hexec
    exact ⟨published, hroom.order, hroom.versions, fun hy => nomatch hy⟩
  | _ =>
    refine ⟨published, hroom.of_eq (same_of_exec hexec .taken (by simp [MailboxOp.changes]))
      (same_of_exec hexec .pended (by simp [MailboxOp.changes])) ?_⟩
    rw [same_of_exec hexec .files (by simp [MailboxOp.changes])]

/-! ## The worker renames what it has taken -/

theorem prepared_of_flow (hheld : s.taken = phase.held) (hdrafted : phase.Drafted codec s)
    (hflow : Flow codec options phase op r phase') : Prepared codec s op := by
  rintro source target rfl
  cases hflow with
  | rest hop => cases hop
  | rename => exact ⟨_, _, hheld, rfl, hdrafted⟩

theorem prepared_of_isClip (h : IsClip op) : Prepared codec s op := by
  rintro source target rfl
  cases h

variable (codec)

/-! ## Rooms the worker attends to -/

def Admits : (op : MailboxOp) → op.Res → Prop
  | .drain rooms, r => r.toFinset = rooms
  | _, _ => True

theorem admits_of_exec (h : exec op s r s') : Admits op r := by
  cases op with
  | drain rooms => exact h.2.1
  | _ => trivial

/-- The room is to be retried or among those the worker is processing: however the turn
goes on, the worker takes a snapshot of the room or ends with the room in the retry
set. -/
def Attends (roomId : String) : MailboxProgram (Finset String) → Prop
  | done retry => roomId ∈ retry
  | call op k => op = .dirtyRemove roomId ∨ ∀ r, Admits op r → Attends roomId (k r)

theorem Attends.bind {roomId : String} {p : MailboxProgram (Finset String)}
    (hp : Attends roomId p) (hf : ∀ retry, roomId ∈ retry → Attends roomId (f retry)) :
    Attends roomId (p >>= f) := by
  induction p with
  | done retry => exact hf retry hp
  | call o k ih =>
    rcases hp with hp | hp
    · exact .inl hp
    · exact .inr fun r hr => ih r (hp r hr)

theorem attends_bind_of_forall {α : Type} {roomId : String} (p : MailboxProgram α)
    {f : α → MailboxProgram (Finset String)} (hf : ∀ a, Attends roomId (f a)) :
    Attends roomId (p >>= f) := by
  induction p with
  | done a => exact hf a
  | call o k ih => exact .inr fun r _ => ih r

theorem publish_attends {roomId room : String} (h : roomId = room ∨ roomId ∈ retry) :
    Attends roomId (publish codec options room retry) := by
  rcases h with rfl | h
  · exact .inl rfl
  · refine .inr fun snapshot _ => ?_
    cases snapshot with
    | none => exact h
    | some snapshot =>
      refine attends_bind_of_forall (writeSnapshot codec options room snapshot) ?_
      rintro (e | size)
      · refine attends_bind_of_forall (HealthProbe.markDegraded (errorText e)) fun _ => ?_
        exact .inr fun _ _ => Finset.mem_insert_of_mem h
      · exact .inr fun _ _ => .inr fun _ _ =>
          attends_bind_of_forall HealthProbe.markHealthy fun _ => h

theorem publishQueued_attends {roomId room : String} (h : roomId = room ∨ roomId ∈ retry) :
    Attends roomId (publishQueued codec options retry room) :=
  .inr fun _ _ => publish_attends codec options h

theorem foldlM_attends {roomId : String} {rooms : List String}
    (h : roomId ∈ rooms ∨ roomId ∈ retry) :
    Attends roomId (rooms.foldlM (publishQueued codec options) retry) := by
  induction rooms generalizing retry with
  | nil => exact h.resolve_left List.not_mem_nil
  | cons room rooms ih =>
    have hlater : roomId ∈ rooms → Attends roomId
        (publishQueued codec options retry room >>=
          rooms.foldlM (publishQueued codec options)) :=
      fun hmem => attends_bind_of_forall _ fun _ => ih (.inl hmem)
    have hnow : roomId = room ∨ roomId ∈ retry → Attends roomId
        (publishQueued codec options retry room >>=
          rooms.foldlM (publishQueued codec options)) :=
      fun hmem => (publishQueued_attends codec options hmem).bind fun _ hretry =>
        ih (.inr hretry)
    rcases h with hmem | hmem
    · rcases List.mem_cons.1 hmem with heq | hmem
      · exact hnow (.inl heq)
      · exact hlater hmem
    · exact hnow (.inr hmem)

theorem runWorker_attends {roomId : String} (h : roomId ∈ retry) :
    Attends roomId (runWorker codec options retry) := by
  refine .inr fun signal _ => ?_
  cases signal with
  | some room => exact publishQueued_attends codec options (.inr h)
  | none =>
    refine .inr fun rooms hrooms => foldlM_attends codec options (.inl ?_)
    rw [← List.mem_toFinset, hrooms]
    exact h

def signalled : (op : MailboxOp) → op.Res → Option String
  | .select _, r => r
  | _, _ => none

def Clears (roomId : String) (p : MailboxProgram (Finset String)) : Prop :=
  (∃ k, p = call (.queuedRemove roomId) k) ∧ Attends roomId p

/-- The worker attends to the room of every signal it receives and to every room whose
snapshot it puts back. -/
def Serves : MailboxProgram (Finset String) → Prop
  | done _ => True
  | call op k => ¬ IsClip op ∧ ∀ r, (∀ room, signalled op r = some room → Clears room (k r)) ∧
      (∀ room x, op = .dirtyOrInsert room x → Attends room (k r)) ∧ Serves (k r)

theorem Clears.bind {roomId : String} {p : MailboxProgram (Finset String)} (hp : Clears roomId p)
    (hf : ∀ retry, roomId ∈ retry → Attends roomId (f retry)) : Clears roomId (p >>= f) := by
  obtain ⟨⟨k, rfl⟩, hattends⟩ := hp
  exact ⟨⟨_, rfl⟩, hattends.bind hf⟩

theorem Serves.bind {p : MailboxProgram (Finset String)} (hp : Serves p)
    (hf : ∀ retry, Serves (f retry))
    (hattends : ∀ roomId retry, roomId ∈ retry → Attends roomId (f retry)) : Serves (p >>= f) := by
  induction p with
  | done retry => exact hf retry
  | call o k ih =>
    refine ⟨hp.1, fun r => ?_⟩
    obtain ⟨hsignal, hback, hrest⟩ := hp.2 r
    exact ⟨fun room hroom => (hsignal room hroom).bind (hattends room),
      fun room x hop => (hback room x hop).bind (hattends room), ih r hrest⟩

def Plain (op : MailboxOp) : Prop :=
  ¬ IsClip op ∧ (∀ retry, op ≠ .select retry) ∧ ∀ room x, op ≠ .dirtyOrInsert room x

theorem serves_bind_of_plain {α : Type} (p : MailboxProgram α)
    {f : α → MailboxProgram (Finset String)} (hp : AllOps Plain p) (hf : ∀ a, Serves (f a)) :
    Serves (p >>= f) := by
  induction p with
  | done a => exact hf a
  | call o k ih =>
    obtain ⟨⟨hclip, hselect, hback⟩, hrest⟩ := hp
    refine ⟨hclip, fun r => ⟨?_, fun room x hop => absurd hop (hback room x),
      ih r (hrest r)⟩⟩
    intro room hroom
    cases o with
    | select retry => exact absurd rfl (hselect retry)
    | _ => cases hroom

theorem files_plain {α : Type} (p : FsProgram Unit α) : AllOps Plain (MailboxProgram.files p) := by
  induction p with
  | done a => trivial
  | call o k ih => exact ⟨⟨id, nofun, nofun⟩, ih⟩

theorem writeSnapshot_plain (roomId : String) (snapshot : Snapshot) :
    AllOps Plain (writeSnapshot codec options roomId snapshot) := by
  refine ⟨⟨id, nofun, nofun⟩, fun sizes => ?_⟩
  change AllOps Plain (if _ then _ else _)
  split
  · trivial
  · refine allOps_bind (files_plain _) ?_
    rintro (e | u) <;> trivial

theorem publish_serves (roomId : String) (retry : Finset String) :
    Serves (publish codec options roomId retry) := by
  refine ⟨id, fun snapshot => ⟨nofun, nofun, ?_⟩⟩
  cases snapshot with
  | none => trivial
  | some snapshot =>
    refine serves_bind_of_plain (writeSnapshot codec options roomId snapshot)
      (writeSnapshot_plain codec options roomId snapshot) ?_
    rintro (e | size)
    · have hmark : AllOps Plain (HealthProbe.markDegraded (errorText e)) :=
        ⟨⟨id, nofun, nofun⟩, fun _ => ⟨⟨id, nofun, nofun⟩, fun _ => trivial⟩⟩
      refine serves_bind_of_plain _ hmark fun _ => ⟨id, fun _ => ⟨nofun, ?_, trivial⟩⟩
      rintro room x ⟨⟩
      exact Finset.mem_insert_self _ _
    · exact ⟨id, fun _ => ⟨nofun, nofun, ⟨id, fun _ => ⟨nofun, nofun,
        ⟨id, fun _ => ⟨nofun, nofun, ⟨id, fun _ => ⟨nofun, nofun, trivial⟩⟩⟩⟩⟩⟩⟩⟩

theorem publishQueued_serves (retry : Finset String) (roomId : String) :
    Serves (publishQueued codec options retry roomId) :=
  ⟨id, fun _ => ⟨nofun, nofun, publish_serves codec options roomId retry⟩⟩

theorem foldlM_serves (rooms : List String) (retry : Finset String) :
    Serves (rooms.foldlM (publishQueued codec options) retry) := by
  induction rooms generalizing retry with
  | nil => trivial
  | cons roomId rooms ih =>
    exact (publishQueued_serves codec options retry roomId).bind ih
      fun _ _ hmem => foldlM_attends codec options (.inr hmem)

theorem runWorker_serves (retry : Finset String) : Serves (runWorker codec options retry) := by
  refine ⟨id, fun signal => ⟨?_, nofun, ?_⟩⟩
  · rintro room rfl
    exact ⟨⟨_, rfl⟩, publishQueued_attends codec options (.inl rfl)⟩
  · cases signal with
    | some roomId => exact publishQueued_serves codec options retry roomId
    | none => exact ⟨id, fun rooms => ⟨nofun, nofun, foldlM_serves codec options rooms ∅⟩⟩

/-! ## Where a call stands -/

/-- The end of `clip_pending`, from the moment the snapshot is in `dirty`. -/
def announce (roomId : String) : MailboxProgram Unit := do
  if ← MailboxProgram.queuedInsert roomId then
    MailboxProgram.send roomId

theorem clipPending_of_valid {roomId : String} (h : Mailbox.validateRoomId roomId = .ok ())
    (recipientFp : String) (clip : PendingClip) :
    clipPending roomId recipientFp clip = (do
      let tsMs ← MailboxProgram.unixTimeMs
      MailboxProgram.dirtyInsert roomId ⟨recipientFp, clip.originDevice, clip.ciphertextB64, tsMs⟩
      announce roomId) := by
  unfold clipPending
  rw [h]
  rfl

/-- The call is between its insertion into `dirty` and its signal. -/
def Announcing (roomId : String) (p : MailboxProgram Unit) : Prop :=
  p = announce roomId ∨ p = MailboxProgram.send roomId

/-- What can be left of a call of `clip_pending`. -/
def Stands (roomId : String) (p : MailboxProgram Unit) : Prop :=
  (∃ recipientFp clip, p = clipPending roomId recipientFp clip) ∨
    (∃ x, p = (MailboxProgram.dirtyInsert roomId x >>= fun _ => announce roomId)) ∨
      Announcing roomId p ∨ p = done ()

/-- What a step of a call does. -/
theorem stands_access {roomId : String} {k : op.Res → MailboxProgram Unit}
    (h : Stands roomId (call op k)) (hexec : exec op s r s') :
    (s' = s ∧ ¬ Announcing roomId (call op k) ∧ Stands roomId (k r)) ∨
    (∃ x, s' = { s with dirty := s.dirty.insert roomId x
                        pended := s.pended ++ [(roomId, x)] } ∧
      ¬ Announcing roomId (call op k) ∧ k r = announce roomId) ∨
    (call op k = announce roomId ∧ s' = { s with queued := insert roomId s.queued } ∧
      k r = MailboxProgram.send roomId) ∨
    (call op k = announce roomId ∧ roomId ∈ s.queued ∧ s' = s ∧ k r = done ()) ∨
    (call op k = MailboxProgram.send roomId ∧ s' = { s with signals := s.signals ++ [roomId] } ∧
      k r = done ()) := by
  rcases h with ⟨recipientFp, clip, h⟩ | ⟨x, h⟩ | (h | h) | h
  · cases hvalid : Mailbox.validateRoomId roomId with
    | error e =>
      unfold clipPending at h
      rw [hvalid] at h
      cases h
    | ok u =>
      rw [clipPending_of_valid hvalid] at h
      cases h
      cases hexec
      refine .inl ⟨rfl, ?_, .inr (.inl ⟨_, rfl⟩)⟩
      rintro (h | h) <;> cases h
  · cases h
    cases hexec
    refine .inr (.inl ⟨x, rfl, ?_, rfl⟩)
    rintro (h | h) <;> cases h
  · cases h
    obtain ⟨rfl, rfl⟩ := hexec
    by_cases hmem : roomId ∈ s.queued
    · refine .inr (.inr (.inr (.inl ⟨rfl, hmem, ?_, ?_⟩)))
      · rw [Finset.insert_eq_of_mem hmem]
      · simp only [hmem, not_true_eq_false, decide_false]
        rfl
    · refine .inr (.inr (.inl ⟨rfl, rfl, ?_⟩))
      simp only [hmem, not_false_eq_true, decide_true]
      rfl
  · cases h
    cases hexec
    exact .inr (.inr (.inr (.inr ⟨rfl, rfl, rfl⟩)))
  · cases h

theorem stands_isClip {roomId : String} {k : op.Res → MailboxProgram Unit}
    (h : Stands roomId (call op k)) : IsClip op := by
  rcases h with ⟨recipientFp, clip, h⟩ | ⟨x, h⟩ | (h | h) | h
  · have hclip := clipPending_isClip roomId recipientFp clip
    rw [← h] at hclip
    exact hclip.1
  · cases h
    trivial
  · cases h
    trivial
  · cases h
    trivial
  · cases h

/-- The operations of `load_pending`. -/
def IsLoad : MailboxOp → Prop
  | .dirtyGet _ | .indexGet _ => True
  | _ => False

theorem loadPendingAt_isLoad (roomId : String) (nowMs : Int64) :
    AllOps IsLoad (loadPendingAt options roomId nowMs) := by
  refine ⟨trivial, fun snapshot => ?_⟩
  cases snapshot with
  | some snapshot => trivial
  | none => exact ⟨trivial, fun _ => trivial⟩

theorem isLoad_exec (h : IsLoad op) (hexec : exec op s r s') : s' = s := by
  cases op with
  | dirtyGet _ | indexGet _ => exact hexec.2
  | _ => cases h

/-! ## What is known about each thread -/

/-- The worker is in one of its phases and serves the rooms; the calls stand at one of
their accesses. -/
def Duty : (t : MailboxThread) → MailboxProgram t.Value → MailboxState → Prop
  | .worker, p, s => (∃ phase, Runs codec options phase p ∧ s.taken = phase.held ∧
      phase.Drafted codec s) ∧ Serves p
  | .clip _ roomId _ _, p, _ => Stands roomId p
  | .load .., p, _ => AllOps IsLoad p

variable {codec options}

theorem Duty.of_eq {p : MailboxProgram t.Value} (htaken : s'.taken = s.taken)
    (hfs : s'.fs = s.fs) (h : Duty codec options t p s) : Duty codec options t p s' := by
  cases t with
  | worker =>
    obtain ⟨⟨phase, hruns, hheld, hdrafted⟩, hserves⟩ := h
    exact ⟨⟨phase, hruns, htaken.trans hheld, hdrafted.of_temp fun _ => by rw [hfs]⟩, hserves⟩
  | clip n roomId recipientFp clip => exact h
  | load n roomId since nowMs => exact h

/-- Only the worker looks at the desk. -/
theorem Duty.of_worker {u : MailboxThread} (hu : u ≠ .worker) {q : MailboxProgram u.Value}
    (h : Duty codec options u q s) : Duty codec options u q s' := by
  cases u with
  | worker => exact absurd rfl hu
  | clip n roomId recipientFp clip => exact h
  | load n roomId since nowMs => exact h

variable (codec options)

theorem duty_invariant :
    Threads.Invariant (system codec options) (Monotonic codec base) (Duty codec options) where
  enter {t a s p s'} hmono hlast henter := by
    cases t with
    | worker =>
      cases a with
      | none => cases henter
      | some retry =>
        obtain ⟨rfl, rfl⟩ := henter
        obtain ⟨⟨phase, rfl, hheld, -⟩, -⟩ := hlast retry rfl
        exact ⟨hmono, ⟨⟨.idle, runWorker_runs codec options retry, hheld, trivial⟩,
          runWorker_serves codec options retry⟩, fun _ _ _ => id⟩
    | clip n roomId recipientFp clip =>
      cases a with
      | none =>
        obtain ⟨rfl, rfl⟩ := henter
        exact ⟨hmono, .inl ⟨_, _, rfl⟩, fun _ _ _ => id⟩
      | some _ => cases henter
    | load n roomId since nowMs =>
      cases a with
      | none =>
        obtain ⟨rfl, -, rfl⟩ := henter
        exact ⟨hmono, loadPendingAt_isLoad options roomId nowMs, fun _ _ _ => id⟩
      | some _ => cases henter
  access {t op k s r s'} hmono hduty hexec := by
    cases t with
    | worker =>
      obtain ⟨⟨phase, hruns, hheld, hdrafted⟩, hserves⟩ := hduty
      obtain ⟨phase', hflow, hrest⟩ := hruns r
      have horderly := orderly_of_flow hflow
      rw [← hheld] at horderly
      refine ⟨hmono.exec horderly (prepared_of_flow options hheld hdrafted hflow) hexec,
        ⟨⟨phase', hrest, taken_of_flow hheld hflow hexec, drafted_of_flow hdrafted hflow hexec⟩,
          (hserves.2 r).2.2⟩, fun u hu q hq => hq.of_worker hu⟩
    | clip n roomId recipientFp clip =>
      have hclip := stands_isClip hduty
      have htaken := same_of_exec hexec .taken (hclip.notMem_changes (by decide))
      have hfs := same_of_exec hexec .files (hclip.notMem_changes (by decide))
      refine ⟨hmono.exec (orderly_of_isClip _ hclip) (prepared_of_isClip hclip) hexec, ?_,
        fun u _ q hq => hq.of_eq htaken hfs⟩
      rcases stands_access hduty hexec with ⟨-, -, h⟩ | ⟨_, -, -, h⟩ | ⟨-, -, h⟩ |
        ⟨-, -, -, h⟩ | ⟨-, -, h⟩
      · exact h
      · exact .inr (.inr (.inl (.inl h)))
      · exact .inr (.inr (.inl (.inr h)))
      · exact .inr (.inr (.inr h))
      · exact .inr (.inr (.inr h))
    | load n roomId since nowMs =>
      cases isLoad_exec hduty.1 hexec
      exact ⟨hmono, hduty.2 r, fun _ _ _ => id⟩

theorem opened_duty (fs : Fs Unit) (scan : Scan) :
    Threads.Holds (Monotonic codec fs) (Duty codec options) (opened codec options fs scan) := by
  refine ⟨⟨⟨fun h => ?_, fun _ h => ?_⟩, fun roomId => ⟨[], ⟨nofun, List.Pairwise.nil⟩,
    (List.append_nil _).symm, fun h => ?_⟩⟩, fun t p hp => ?_⟩
  · cases h
  · cases h
  · cases h
  · cases t with
    | worker =>
      cases hp
      exact ⟨⟨.idle, runWorker_runs codec options ∅, rfl, trivial⟩,
        runWorker_serves codec options ∅⟩
    | clip n roomId recipientFp clip => cases hp
    | load n roomId since nowMs => cases hp

/-! ## No pending clip is stranded -/

/-- Some call of `clip_pending` for the room stands as described. -/
def Calling (C : MailboxProgram Unit → Prop) (roomId : String) (x : MailboxThreads) : Prop :=
  ∃ n recipientFp clip p, x.threads (.clip n roomId recipientFp clip) = some p ∧ C p

def Working (W : MailboxProgram (Finset String) → Prop) (x : MailboxThreads) : Prop :=
  ∃ p, x.threads .worker = some p ∧ W p

/-- The room has a signal in the channel, or the worker attends to it, or a call is about
to signal it. -/
def Awaited (roomId : String) (x : MailboxThreads) : Prop :=
  roomId ∈ x.shared.signals ∨ Working (Attends roomId) x ∨ Calling (Announcing roomId) roomId x

/-- The mark of a queued room stands for a signal that is in the channel, has just been
received, or is about to be sent. -/
def Marked (roomId : String) (x : MailboxThreads) : Prop :=
  roomId ∈ x.shared.signals ∨ Working (Clears roomId) x ∨
    Calling (· = MailboxProgram.send roomId) roomId x

structure NotStranded (x : MailboxThreads) : Prop where
  dirty : ∀ roomId, roomId ∈ x.shared.dirty → Awaited roomId x
  queued : ∀ roomId, roomId ∈ x.shared.queued → Marked roomId x

variable {x : MailboxThreads} {roomId : String} {C : MailboxProgram Unit → Prop}
  {W : MailboxProgram (Finset String) → Prop}

theorem Marked.awaited (h : Marked roomId x) : Awaited roomId x := by
  rcases h with h | ⟨p, hp, hclears⟩ | ⟨n, recipientFp, clip, p, hp, hsend⟩
  · exact .inl h
  · exact .inr (.inl ⟨p, hp, hclears.2⟩)
  · exact .inr (.inr ⟨n, recipientFp, clip, p, hp, .inr hsend⟩)

theorem Calling.set (h : Calling C roomId x) {q : MailboxProgram t.Value}
    (hother : ∀ {n recipientFp clip p}, t = .clip n roomId recipientFp clip →
      x.threads (.clip n roomId recipientFp clip) = some p → ¬ C p) :
    Calling C roomId (x.set t q s) := by
  obtain ⟨n, recipientFp, clip, p, hp, hC⟩ := h
  refine ⟨n, recipientFp, clip, p, ?_, hC⟩
  rw [Threads.set_threads_of_ne]
  · exact hp
  · intro heq
    exact hother heq.symm hp hC

theorem Working.set (h : Working W x) (ht : t ≠ .worker) {q : MailboxProgram t.Value} :
    Working W (x.set t q s) := by
  obtain ⟨p, hp, hW⟩ := h
  exact ⟨p, by rw [Threads.set_threads_of_ne _ ht.symm, hp], hW⟩

theorem signals_exec (h : exec op s r s') (hmem : roomId ∈ s.signals) :
    roomId ∈ s'.signals ∨ signalled op r = some roomId := by
  cases op with
  | select retry =>
    cases r with
    | none =>
      rw [h.2]
      exact .inl hmem
    | some room =>
      obtain ⟨rest, hrest, rfl⟩ := h
      rw [hrest] at hmem
      rcases List.mem_cons.1 hmem with rfl | hmem
      · exact .inr rfl
      · exact .inl hmem
  | send room =>
    cases h
    exact .inl (List.mem_append_left _ hmem)
  | _ =>
    rw [same_of_exec h .signals (by simp [MailboxOp.changes])]
    exact .inl hmem

theorem dirty_exec (hclip : ¬ IsClip op) (h : exec op s r s') (hmem : roomId ∈ s'.dirty) :
    (roomId ∈ s.dirty ∧ op ≠ .dirtyRemove roomId) ∨ ∃ x, op = .dirtyOrInsert roomId x := by
  cases op with
  | dirtyInsert _ _ => exact absurd trivial hclip
  | dirtyRemove room =>
    obtain ⟨-, rfl⟩ := h
    obtain ⟨hne, hmem⟩ := Finmap.mem_erase.1 hmem
    refine .inl ⟨hmem, ?_⟩
    rintro ⟨⟩
    exact hne rfl
  | dirtyOrInsert room x =>
    cases h
    by_cases hroom : roomId = room
    · exact .inr ⟨x, by rw [hroom]⟩
    · refine .inl ⟨?_, by rintro ⟨⟩⟩
      change roomId ∈ (if _ then _ else _) at hmem
      split at hmem
      · exact hmem
      · exact (Finmap.mem_insert.1 hmem).resolve_left hroom
  | _ =>
    rw [same_of_exec h .dirty (by simp [MailboxOp.changes])] at hmem
    exact .inl ⟨hmem, by rintro ⟨⟩⟩

theorem queued_exec (hclip : ¬ IsClip op) (h : exec op s r s') (hmem : roomId ∈ s'.queued) :
    roomId ∈ s.queued ∧ op ≠ .queuedRemove roomId := by
  cases op with
  | queuedInsert _ => exact absurd trivial hclip
  | queuedRemove room =>
    cases h
    obtain ⟨hne, hmem⟩ := Finset.mem_erase.1 hmem
    refine ⟨hmem, ?_⟩
    rintro ⟨⟩
    exact hne rfl
  | _ =>
    rw [same_of_exec h .queued (by simp [MailboxOp.changes])] at hmem
    exact ⟨hmem, by rintro ⟨⟩⟩

/-- A step of the worker leaves no room behind. -/
theorem NotStranded.worker_step {k : op.Res → MailboxProgram (Finset String)} (h : NotStranded x)
    (hserves : Serves (call op k)) (hrunning : x.threads .worker = some (call op k))
    (hexec : exec op x.shared r s') : NotStranded (x.set .worker (k r) s') := by
  obtain ⟨hclip, hnext⟩ := hserves
  obtain ⟨hsignal, hback, -⟩ := hnext r
  have hworking : ∀ {W : MailboxProgram (Finset String) → Prop}, W (k r) →
      Working W (x.set .worker (k r) s') := fun hW => ⟨k r, Threads.set_threads_self _ _ _ _, hW⟩
  have hcurrent : ∀ {W : MailboxProgram (Finset String) → Prop}, Working W x → W (call op k) := by
    rintro W ⟨p, hp, hW⟩
    cases hrunning.symm.trans hp
    exact hW
  constructor
  · intro roomId hmem
    rcases dirty_exec hclip hexec hmem with ⟨hmem, hop⟩ | ⟨y, hop⟩
    · rcases h.dirty roomId hmem with hin | hattends | hcalling
      · rcases signals_exec hexec hin with hin | hreceived
        · exact .inl hin
        · exact .inr (.inl (hworking (hsignal roomId hreceived).2))
      · have hrest := (hcurrent hattends).resolve_left hop r (admits_of_exec hexec)
        exact .inr (.inl (hworking hrest))
      · exact .inr (.inr (hcalling.set nofun))
    · exact .inr (.inl (hworking (hback roomId y hop)))
  · intro roomId hmem
    obtain ⟨hmem, hop⟩ := queued_exec hclip hexec hmem
    rcases h.queued roomId hmem with hin | hclears | hcalling
    · rcases signals_exec hexec hin with hin | hreceived
      · exact .inl hin
      · exact .inr (.inl (hworking (hsignal roomId hreceived)))
    · obtain ⟨k', hk'⟩ := (hcurrent hclears).1
      cases hk'
      exact absurd rfl hop
    · exact .inr (.inr (hcalling.set nofun))

section Call

variable {n : ℕ} {room recipientFp : String} {clip : PendingClip} {p q : MailboxProgram Unit}

theorem Calling.set_clip (h : Calling C roomId x)
    (hrunning : x.threads (.clip n room recipientFp clip) = some p)
    (hother : roomId = room → ¬ C p) :
    Calling C roomId (x.set (.clip n room recipientFp clip) q s') := by
  refine h.set ?_
  rintro n recipientFp clip p ⟨⟩ hp
  cases hrunning.symm.trans hp
  exact hother rfl

theorem Awaited.set_clip (h : Awaited roomId x) (hsignals : x.shared.signals ⊆ s'.signals)
    (hrunning : x.threads (.clip n room recipientFp clip) = some p)
    (hother : roomId = room → ¬ Announcing roomId p) :
    Awaited roomId (x.set (.clip n room recipientFp clip) q s') := by
  have hne : MailboxThread.clip n room recipientFp clip ≠ .worker := nofun
  rcases h with h | h | h
  · exact .inl (hsignals h)
  · exact .inr (.inl (h.set hne))
  · exact .inr (.inr (h.set_clip hrunning hother))

theorem Marked.set_clip (h : Marked roomId x) (hsignals : x.shared.signals ⊆ s'.signals)
    (hrunning : x.threads (.clip n room recipientFp clip) = some p)
    (hother : roomId = room → p ≠ MailboxProgram.send roomId) :
    Marked roomId (x.set (.clip n room recipientFp clip) q s') := by
  have hne : MailboxThread.clip n room recipientFp clip ≠ .worker := nofun
  rcases h with h | h | h
  · exact .inl (hsignals h)
  · exact .inr (.inl (h.set hne))
  · exact .inr (.inr (h.set_clip hrunning hother))

/-- A call concerns its own room only. -/
theorem NotStranded.set_clip (h : NotStranded x) (hsignals : x.shared.signals ⊆ s'.signals)
    (hrunning : x.threads (.clip n room recipientFp clip) = some p)
    (hdirty : ∀ roomId, roomId ≠ room → roomId ∈ s'.dirty → roomId ∈ x.shared.dirty)
    (hqueued : ∀ roomId, roomId ≠ room → roomId ∈ s'.queued → roomId ∈ x.shared.queued)
    (hawaited : room ∈ s'.dirty → Awaited room (x.set (.clip n room recipientFp clip) q s'))
    (hmarked : room ∈ s'.queued → Marked room (x.set (.clip n room recipientFp clip) q s')) :
    NotStranded (x.set (.clip n room recipientFp clip) q s') := by
  refine ⟨fun roomId hmem => ?_, fun roomId hmem => ?_⟩
  · by_cases hroom : roomId = room
    · subst hroom
      exact hawaited hmem
    · exact (h.dirty roomId (hdirty roomId hroom hmem)).set_clip hsignals hrunning
        fun heq => absurd heq hroom
  · by_cases hroom : roomId = room
    · subst hroom
      exact hmarked hmem
    · exact (h.queued roomId (hqueued roomId hroom hmem)).set_clip hsignals hrunning
        fun heq => absurd heq hroom

/-- A step of a call leaves no room behind. -/
theorem NotStranded.call_step {op : MailboxOp} {k : op.Res → MailboxProgram Unit} {r : op.Res}
    (h : NotStranded x) (hstands : Stands room (call op k))
    (hrunning : x.threads (.clip n room recipientFp clip) = some (call op k))
    (hexec : exec op x.shared r s') :
    NotStranded (x.set (.clip n room recipientFp clip) (k r) s') := by
  have hnow : ∀ {C : MailboxProgram Unit → Prop}, C (k r) →
      Calling C room (x.set (.clip n room recipientFp clip) (k r) s') :=
    fun hC => ⟨n, recipientFp, clip, k r, Threads.set_threads_self _ _ _ _, hC⟩
  -- A mark of the room that this call has not set.
  have hmark : x.shared.signals ⊆ s'.signals → call op k ≠ MailboxProgram.send room →
      room ∈ x.shared.queued →
      Marked room (x.set (.clip n room recipientFp clip) (k r) s') :=
    fun hsignals hsend hmem => (h.queued room hmem).set_clip hsignals hrunning fun _ => hsend
  rcases stands_access hstands hexec with ⟨rfl, hquiet, -⟩ | ⟨y, rfl, hquiet, hk⟩ |
    ⟨hat, rfl, hk⟩ | ⟨hat, hqueued, rfl, hk⟩ | ⟨hat, rfl, hk⟩
  · refine h.set_clip (fun _ => id) hrunning (fun _ _ => id) (fun _ _ => id) ?_
      (hmark (fun _ => id) fun heq => hquiet (.inr heq))
    exact fun hmem => (h.dirty room hmem).set_clip (fun _ => id) hrunning fun _ => hquiet
  · refine h.set_clip (fun _ => id) hrunning (fun roomId hroom hmem => ?_) (fun _ _ => id)
      (fun _ => .inr (.inr (hnow (.inl hk)))) (hmark (fun _ => id) fun heq => hquiet (.inr heq))
    exact (Finmap.mem_insert.1 hmem).resolve_left hroom
  · refine h.set_clip (fun _ => id) hrunning (fun _ _ => id) (fun roomId hroom hmem => ?_)
      (fun _ => .inr (.inr (hnow (.inr hk)))) fun _ => .inr (.inr (hnow hk))
    exact (Finset.mem_insert.1 hmem).resolve_left hroom
  · -- The mark of the queued room stands for another signal.
    have hsend : call op k ≠ MailboxProgram.send room := by
      rw [hat]
      nofun
    refine h.set_clip (fun _ => id) hrunning (fun _ _ => id) (fun _ _ => id) ?_
      (hmark (fun _ => id) hsend)
    exact fun _ => (hmark (fun _ => id) hsend hqueued).awaited
  · have hsent : room ∈ x.shared.signals ++ [room] :=
      List.mem_append_right _ (List.mem_singleton_self _)
    exact h.set_clip (List.subset_append_left _ _) hrunning (fun _ _ => id) (fun _ _ => id)
      (fun _ => .inl hsent) fun _ => .inl hsent

end Call

theorem NotStranded.set_other {t : MailboxThread} (ht : t ≠ .worker) {p : MailboxProgram t.Value}
    (h : NotStranded x)
    (hother : ∀ {n roomId recipientFp clip}, t = .clip n roomId recipientFp clip →
      x.threads t = none) :
    NotStranded (x.set t p x.shared) := by
  have hcalling : ∀ {C : MailboxProgram Unit → Prop} {roomId : String}, Calling C roomId x →
      Calling C roomId (x.set t p x.shared) := by
    intro C roomId hcalling
    refine hcalling.set ?_
    rintro n recipientFp clip q rfl hq
    cases (hother rfl).symm.trans hq
  constructor
  · intro roomId hmem
    rcases h.dirty roomId hmem with h | h | h
    · exact .inl h
    · exact .inr (.inl (h.set ht))
    · exact .inr (.inr (hcalling h))
  · intro roomId hmem
    rcases h.queued roomId hmem with h | h | h
    · exact .inl h
    · exact .inr (.inl (h.set ht))
    · exact .inr (.inr (hcalling h))

theorem NotStranded.turn {retry : Finset String} (h : NotStranded x)
    (hdone : x.threads .worker = some (done retry)) :
    NotStranded (x.set .worker (runWorker codec options retry) x.shared) := by
  constructor
  · intro roomId hmem
    rcases h.dirty roomId hmem with h | ⟨p, hp, hattends⟩ | h
    · exact .inl h
    · cases hdone.symm.trans hp
      exact .inr (.inl ⟨_, Threads.set_threads_self _ _ _ _,
        runWorker_attends codec options hattends⟩)
    · exact .inr (.inr (h.set nofun))
  · intro roomId hmem
    rcases h.queued roomId hmem with h | ⟨p, hp, ⟨k, hk⟩, -⟩ | h
    · exact .inl h
    · cases hdone.symm.trans (hp.trans (congrArg some hk))
    · exact .inr (.inr (h.set nofun))

theorem NotStranded.step {y : MailboxThreads} (h : NotStranded x)
    (hduty : Threads.Holds (Monotonic codec base) (Duty codec options) x)
    (hstep : Threads.Step (system codec options) x y) : NotStranded y := by
  cases hstep with
  | @begin t p s idle enter =>
    cases t with
    | worker => cases enter
    | clip n roomId recipientFp clip =>
      obtain ⟨-, rfl⟩ := enter
      have hne : MailboxThread.clip n roomId recipientFp clip ≠ .worker := nofun
      exact h.set_other hne fun _ => idle
    | load n roomId since nowMs =>
      obtain ⟨-, -, rfl⟩ := enter
      have hne : MailboxThread.load n roomId since nowMs ≠ .worker := nofun
      exact h.set_other hne nofun
  | @again t a p s finished enter =>
    cases t with
    | worker =>
      obtain ⟨rfl, rfl⟩ := enter
      exact h.turn codec options finished
    | clip n roomId recipientFp clip => cases enter
    | load n roomId since nowMs => cases enter
  | @access t op k r s running exec =>
    have hown := hduty.2 t _ running
    cases t with
    | worker => exact h.worker_step hown.2 running exec
    | clip n roomId recipientFp clip => exact h.call_step hown running exec
    | load n roomId since nowMs =>
      cases isLoad_exec hown.1 exec
      have hne : MailboxThread.load n roomId since nowMs ≠ .worker := nofun
      exact h.set_other hne nofun

/-- Whatever interleaving of calls and worker: the snapshots renamed to the file of a room
follow the order in which they were put into `dirty`, and no room with a snapshot in
`dirty` is left without a signal, the worker or a call that sees to it. -/
theorem runWorker_publishes (fs : Fs Unit) (scan : Scan)
    (hrun : Threads.Reaches (system codec options) (opened codec options fs scan) x)
    (roomId : String) :
    (∃ published, InOrder (inserts roomId x.shared.pended) published ∧
      x.shared.fs.versions (path roomId) =
        fs.versions (path roomId) ++ published.map fun e => encoded codec roomId e.2) ∧
      (roomId ∈ x.shared.dirty → roomId ∈ x.shared.signals ∨ Working (Attends roomId) x ∨
        Calling (Announcing roomId) roomId x) := by
  have hboth : Threads.Holds (Monotonic codec fs) (Duty codec options) x ∧ NotStranded x := by
    induction hrun with
    | refl => exact ⟨opened_duty codec options fs scan, nofun, nofun⟩
    | tail _ hstep ih =>
      exact ⟨(duty_invariant codec options).step ih.1 hstep, ih.2.step codec options ih.1 hstep⟩
  obtain ⟨published, hpublishes⟩ := hboth.1.1.rooms roomId
  exact ⟨⟨published, hpublishes.order, hpublishes.versions⟩, hboth.2.dirty roomId⟩

/-- Two clips are put into `dirty` and the second one is published; a third one has come
meanwhile. -/
def overlapping : MailboxThreads :=
  (replay sampleMailboxCodec {}).final [⟨sampleCall 0, 4, { nowMs := 1 }⟩,
    ⟨sampleCall 1, 4, { nowMs := 2 }⟩, ⟨.worker, 8, {}⟩, ⟨sampleCall 2, 4, { nowMs := 3 }⟩,
    ⟨.worker, 20, {}⟩] sampleStart

theorem runWorker_publishes_sample :
    sampleRoomId ∈ overlapping.shared.dirty ∧
    (inserts sampleRoomId overlapping.shared.pended).length = 3 ∧
    (overlapping.shared.fs.versions (path sampleRoomId)).length = 1 ∧
    (∃ sequence, InOrder (inserts sampleRoomId overlapping.shared.pended) sequence ∧
      overlapping.shared.fs.versions (path sampleRoomId) =
        [] ++ sequence.map fun e => encoded sampleMailboxCodec sampleRoomId e.2) ∧
    (sampleRoomId ∈ overlapping.shared.dirty → sampleRoomId ∈ overlapping.shared.signals ∨
      Working (Attends sampleRoomId) overlapping ∨
        Calling (Announcing sampleRoomId) sampleRoomId overlapping) := by
  have hrun : Threads.Reaches (system sampleMailboxCodec {}) sampleStart overlapping :=
    Threads.Replay.reaches_final
  have hpublishes := runWorker_publishes sampleMailboxCodec {} ⟨fun _ => none, fun _ => []⟩
    ⟨∅, ∅⟩ hrun sampleRoomId
  exact ⟨by decide +kernel, by decide +kernel, by decide +kernel, hpublishes⟩

end PersistentMailbox

end ClipSync
