import ClipSync.Server.MailboxRun

/-!
# Refused publications

A publication that the quota refuses ends like any failed one: the health is marked and the
snapshot is put back, unless a newer one has come. So it leaves the files, the sizes and
`index` alone, and the newest clip of its room stays pending until the room is tried again,
whatever the other threads do meanwhile.
-/

namespace ClipSync

open Lib Program Threads PersistentMailbox

namespace MailboxRun

/-! ## What is pending -/

/-- The newest clip of a room that was refused is in `dirty`, or else in the hands of the
worker. -/
structure Pending (base : HashMap String Snapshot) (s : MailboxRun) : Prop
    extends MailboxState.Unpublished base s.mailbox where
  refused : ∀ {roomId}, roomId ∈ s.refused →
    s.mailbox.dirty.lookup roomId ≠ none ∨ s.mailbox.InFlight roomId

/-- A room is refused only by a publication that fails. -/
def Unrefused : WorkerPhase → MailboxRun → Prop
  | .holding roomId _, s | .checked roomId _, s | .written roomId _, s | .renamed roomId _, s
  | .sized roomId _, s => roomId ∉ s.refused
  | _, _ => True

def Hands (phase : WorkerPhase) (s : MailboxRun) : Prop :=
  s.mailbox.taken = phase.held ∧ Unrefused phase s

variable {codec : MailboxCodec} {options : MailboxOptions} {base : HashMap String Snapshot}
  {s s' : MailboxRun} {t : StoreThread} {phase phase' : WorkerPhase} {m : MailboxState}
  {op : MailboxOp} {r : op.Res} {roomId : String} {x : Snapshot}

theorem Unrefused.of_eq (h : Unrefused phase s) (hrefused : s'.refused = s.refused) :
    Unrefused phase s' := by
  cases phase <;> first | trivial | simpa only [Unrefused, hrefused] using h

theorem refusedAfter_of_taken (h : .taken ∉ op.changes) (hop : op ≠ .sizesGet)
    (taken : Option (String × Snapshot)) (refused : Finset String) (r : op.Res) :
    refusedAfter codec options taken refused op r = refused := by
  cases op with
  | dirtyRemove _ => simp [MailboxOp.changes] at h
  | sizesGet => exact absurd rfl hop
  | _ => rfl

/-- An access that takes no snapshot, gives none back and is not the check of the quota. -/
theorem Pending.refused_aside (h : Pending base s) (htaken : .taken ∉ op.changes)
    (hop : op ≠ .sizesGet)
    (hexec : MailboxState.exec op s.mailbox r m) :
    (s.after codec options t op r m).refused = s.refused ∧ ∀ {roomId}, roomId ∈ s.refused →
      m.dirty.lookup roomId ≠ none ∨ m.InFlight roomId := by
  refine ⟨refusedAfter_of_taken htaken hop _ _ r, fun {roomId} hmem => ?_⟩
  rw [MailboxState.InFlight, MailboxState.same_of_exec hexec .taken htaken]
  refine (h.refused hmem).imp_left fun hdirty => ?_
  cases op with
  | dirtyInsert room x =>
    cases hexec
    by_cases hroom : roomId = room
    · rw [hroom, Finmap.lookup_insert]
      rintro ⟨⟩
    · rw [Finmap.lookup_insert_of_ne _ hroom]
      exact hdirty
  | dirtyRemove _ | dirtyOrInsert _ _ => simp [MailboxOp.changes] at htaken
  | _ =>
    rw [MailboxState.same_of_exec hexec .dirty (by simp [MailboxOp.changes])]
    exact hdirty

/-- Most operations of the worker and of sweeps. -/
theorem Pending.aside (h : Pending base s) (htaken : .taken ∉ op.changes) (hop : op ≠ .sizesGet)
    (hexec : MailboxState.exec op s.mailbox r m) :
    Pending base (s.after codec options t op r m) ∧
      ∀ phase, Unrefused phase s → Unrefused phase (s.after codec options t op r m) := by
  have horderly : WorkerPhase.Orderly s.mailbox.taken op := by
    cases op <;> first | trivial | simp [MailboxOp.changes] at htaken
  obtain ⟨hrefused, hkept⟩ := h.refused_aside htaken hop hexec
  exact ⟨⟨h.toUnpublished.exec horderly hexec, fun hmem => hkept (hrefused ▸ hmem)⟩,
    fun _ hphase => hphase.of_eq hrefused⟩

/-- The room of the snapshot that the worker gives back is not refused, or has a clip in
`dirty`. -/
theorem Pending.refused_release (h : Pending base s) (hheld : s.mailbox.taken = some (roomId, x))
    {dirty : HashMap String Snapshot}
    (hother : ∀ {room}, room ≠ roomId → dirty.lookup room = s.mailbox.dirty.lookup room)
    (hown : roomId ∉ s.refused ∨ dirty.lookup roomId ≠ none) {room : String}
    (hmem : room ∈ s.refused) : dirty.lookup room ≠ none := by
  by_cases hroom : room = roomId
  · subst hroom
    exact hown.resolve_left (not_not_intro hmem)
  · rw [hother hroom]
    exact (h.refused hmem).resolve_right fun hin =>
      hroom (MailboxState.inFlight_of_taken hheld hin)

/-- Every step of the worker leads to the next phase. -/
theorem Hands.step (h : Hands phase s) (hpending : Pending base s)
    (hflow : WorkerPhase.Flow codec options phase op r phase')
    (hexec : MailboxState.exec op s.mailbox r m) :
    Pending base (s.after codec options .worker op r m) ∧
      Unrefused phase' (s.after codec options .worker op r m) := by
  obtain ⟨hheld, hunrefused⟩ := h
  have horderly := WorkerPhase.orderly_of_flow hflow
  rw [← hheld] at horderly
  have hunpublished := hpending.toUnpublished.exec horderly hexec
  have haside : .taken ∉ op.changes → op ≠ .sizesGet →
      Pending base (s.after codec options .worker op r m) ∧
      ∀ phase, Unrefused phase s → Unrefused phase (s.after codec options .worker op r m) :=
    fun htaken hop => hpending.aside htaken hop hexec
  cases hflow with
  | rest hop =>
    exact ⟨(haside (hop.notMem_changes (by decide)) (by rintro rfl; cases hop)).1, trivial⟩
  | @take roomId r =>
    obtain ⟨rfl, rfl⟩ := hexec
    refine ⟨⟨hunpublished, fun {room} hmem => ?_⟩, ?_⟩
    · obtain ⟨hne, hmem⟩ := Finset.mem_erase.1 hmem
      refine .inl ?_
      change (s.mailbox.dirty.erase roomId).lookup room ≠ none
      rw [Finmap.lookup_erase_ne hne]
      exact (hpending.refused hmem).resolve_right (MailboxState.not_inFlight hheld)
    · cases hlookup : s.mailbox.dirty.lookup roomId with
      | none => trivial
      | some x => exact Finset.notMem_erase _ _
  | @check roomId x sizes =>
    obtain ⟨rfl, hm⟩ := hexec
    have hrefused : (s.after codec options .worker .sizesGet s.mailbox.sizes m).refused =
        if prospective codec s.mailbox.sizes roomId x > options.maxBytes then
          insert roomId s.refused else s.refused := by
      simp only [after, refusedAfter, hheld, WorkerPhase.held]
    refine ⟨⟨hunpublished, fun {room} hmem => ?_⟩, ?_⟩
    · rw [hrefused] at hmem
      change m.dirty.lookup room ≠ none ∨ m.InFlight room
      rw [hm]
      split at hmem
      · rcases Finset.mem_insert.1 hmem with rfl | hmem
        · exact .inr ⟨x, hheld⟩
        · exact hpending.refused hmem
      · exact hpending.refused hmem
    · split
      · trivial
      · rename_i hfits
        rw [if_neg hfits] at hrefused
        rw [Unrefused, hrefused]
        exact hunrefused
  | create r | write r | sync r | rename r | syncDir r =>
    obtain ⟨hpending', hphase⟩ := haside (by simp [MailboxOp.changes]) (by rintro ⟨⟩)
    have hbefore := hphase _ hunrefused
    cases r with
    | error e => exact ⟨hpending', trivial⟩
    | ok u => exact ⟨hpending', hbefore⟩
  | size =>
    obtain ⟨hpending', hphase⟩ := haside (by simp [MailboxOp.changes]) (by rintro ⟨⟩)
    exact ⟨hpending', hphase _ hunrefused⟩
  | healthy | note | mark =>
    exact ⟨(haside (by simp [MailboxOp.changes]) (by rintro ⟨⟩)).1, trivial⟩
  | enter =>
    cases hexec
    exact ⟨⟨hunpublished, fun hmem => .inl
      (hpending.refused_release hheld (fun _ => rfl) (.inl hunrefused) hmem)⟩, trivial⟩
  | @putBack roomId x =>
    cases hexec
    refine ⟨⟨hunpublished, fun hmem => .inl (hpending.refused_release hheld
      (fun hne => MailboxState.lookup_dirtyOrInsert_of_ne _ _ hne) (.inr ?_) hmem)⟩, trivial⟩
    rw [MailboxState.lookup_dirtyOrInsert]
    rintro ⟨⟩

/-! ## All runs -/

variable (codec options) in
theorem carries_invariant (allow : StoreThread → (op : MailboxOp) → MailboxRun → op.Res → Prop) :
    Invariant (system codec options allow) (Pending base)
      (Stage codec options Hands fun _ _ _ => True) := by
  have hforeign : ∀ {t op r s m}, Pending base s → Foreign op → op ≠ .sizesGet →
      MailboxState.exec op s.mailbox r m → Pending base (s.after codec options t op r m) ∧
        ∀ phase, Hands phase s → Hands phase (s.after codec options t op r m) := by
    intro t op r s m hpending hop hsizes hexec
    obtain ⟨hpending', hunrefused⟩ := hpending.aside hop.1 hsizes hexec
    exact ⟨hpending', fun phase hhands => ⟨(MailboxState.same_of_exec hexec .taken hop.1).trans
      hhands.1, hunrefused phase hhands.2⟩⟩
  refine stage_invariant (fun _ => trivial) (fun hpending hhands hflow hexec _ => ?_)
    (fun hpending hclip hexec => ?_) fun hpending _ hflow hexec _ => ?_
  · obtain ⟨hpending', hunrefused⟩ := hhands.step hpending hflow hexec
    exact ⟨hpending', ⟨WorkerPhase.taken_of_flow hhands.1 hflow hexec, hunrefused⟩, absurd rfl,
      fun _ _ _ => id⟩
  · obtain ⟨hpending', hhands⟩ := hforeign hpending (foreign_of_isClip hclip)
      (by rintro rfl; cases hclip) hexec
    exact ⟨hpending', fun _ => hhands, fun _ _ _ => id⟩
  · obtain ⟨hpending', hhands⟩ := hforeign hpending (foreign_of_flow hflow)
      (by rintro rfl; cases hflow) hexec
    exact ⟨hpending', trivial, fun _ => hhands, fun _ _ _ => id⟩

theorem carries_start (fs : Fs Unit) (scan : Scan) :
    Holds (Pending scan.index) (Stage codec options Hands fun _ _ _ => True)
      (start codec options fs scan) := by
  refine stage_start ⟨⟨fun h => ?_, fun _ h => ?_⟩, fun h => absurd h (Finset.notMem_empty _)⟩
    ⟨rfl, trivial⟩ fun _ => trivial
  · cases h
  · cases h

def KeepsPublished : MailboxOp → Prop
  | .files _ | .indexInsert .. | .indexRemove _ | .sizesInsert .. | .sizesRemove _ => False
  | _ => True

theorem Hands.keepsPublished (h : Hands phase s) (htaken : s.mailbox.taken = some (roomId, x))
    (hrefused : roomId ∈ s.refused) (hflow : WorkerPhase.Flow codec options phase op r phase') :
    KeepsPublished op := by
  have hheld := htaken.symm.trans h.1
  cases hflow with
  | take | check | healthy | note | mark | putBack => trivial
  | rest => cases hheld
  | _ =>
    cases hheld
    exact absurd hrefused h.2

end MailboxRun

end ClipSync
