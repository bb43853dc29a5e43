import ClipSync.Server.MailboxRun

/-!
# The health of the mailbox

The probe is one flag for all rooms. It is set when a publication fails and cleared when
one succeeds, so it tells how the last publication has ended, whichever room that was
for: a room whose publication failed stays unpublished behind a healthy probe once
another room has been published.
-/

namespace ClipSync

open Lib Program Threads PersistentMailbox

namespace MailboxRun

variable {codec : MailboxCodec} {options : MailboxOptions}

def LastFailed (attempts : List (String × Bool)) : Prop :=
  ∃ roomId, attempts.getLast? = some (roomId, false)

def Failed (attempts : List (String × Bool)) (roomId : String) : Prop :=
  (attempts.filter fun e => e.1 = roomId).getLast? = some (roomId, false)

variable {attempts : List (String × Bool)} {roomId : String}

theorem failed_of_lastFailed (h : attempts.getLast? = some (roomId, false)) :
    Failed attempts roomId := by
  obtain ⟨before, rfl⟩ := List.getLast?_eq_some_iff.1 h
  simp [Failed]

theorem not_lastFailed_nil : ¬ LastFailed [] := by
  rintro ⟨roomId, h⟩
  cases h

theorem lastFailed_concat {published : Bool} :
    LastFailed (attempts ++ [(roomId, published)]) ↔ published = false := by
  simp [LastFailed]

/-- The flag, in the phases of the worker: between two publications it tells how the last
one has ended. -/
def Reports : WorkerPhase → MailboxRun → Prop
  | .idle, s => s.mailbox.degraded = true ↔ LastFailed s.attempts
  | .indexed, s => ¬ LastFailed s.attempts
  | .degraded .., s => s.mailbox.degraded = true
  | .holding .., s | .checked .., s | .written .., s | .renamed .., s | .sized .., s
  | .failed .., s => LastFailed s.attempts → s.mailbox.degraded = true

/-! ## Steps -/

variable {m : MailboxState} {s s' : MailboxRun} {op : MailboxOp} {r : op.Res}
  {t : StoreThread} {phase phase' : WorkerPhase}

theorem attemptsAfter_of_taken (h : .taken ∉ op.changes) (attempts : List (String × Bool)) :
    attemptsAfter attempts op = attempts := by
  cases op with
  | indexInsert _ _ | dirtyOrInsert _ _ => simp [MailboxOp.changes] at h
  | _ => rfl

theorem Reports.of_eq (h : Reports phase s)
    (hdegraded : s'.mailbox.degraded = s.mailbox.degraded) (hattempts : s'.attempts = s.attempts) :
    Reports phase s' := by
  cases phase <;> simpa only [Reports, hdegraded, hattempts] using h

/-- Every step of the worker leads to the next phase. -/
theorem Reports.step (h : Reports phase s)
    (hflow : WorkerPhase.Flow codec options phase op r phase')
    (hexec : MailboxState.exec op s.mailbox r m) :
    Reports phase' (s.after codec options t op r m) := by
  have hsame : .degraded ∉ op.changes → attemptsAfter s.attempts op = s.attempts →
      Reports phase (s.after codec options t op r m) := fun hdegraded hattempts =>
    h.of_eq (MailboxState.same_of_exec hexec .degraded hdegraded) hattempts
  cases hflow with
  | rest hop =>
    exact hsame (hop.notMem_changes (by decide))
      (attemptsAfter_of_taken (hop.notMem_changes (by decide)) _)
  | take r =>
    have hidle := hsame (by simp [MailboxOp.changes]) rfl
    cases r with
    | none => exact hidle
    | some x => exact hidle.2
  | check sizes =>
    have hholding := hsame (by simp [MailboxOp.changes]) rfl
    split <;> exact hholding
  | create r | write r | sync r | rename r | syncDir r =>
    have hbefore := hsame (by simp [MailboxOp.changes]) rfl
    cases r <;> exact hbefore
  | size | note => exact hsame (by simp [MailboxOp.changes]) rfl
  | enter =>
    cases hexec
    intro hlast
    cases lastFailed_concat.1 hlast
  | healthy =>
    cases hexec
    exact ⟨by rintro ⟨⟩, fun hlast => absurd hlast h⟩
  | mark =>
    cases hexec
    rfl
  | putBack =>
    cases hexec
    exact ⟨fun _ => lastFailed_concat.2 rfl, fun _ => h⟩

/-! ## Runs -/

def Tells (phase : WorkerPhase) (s : MailboxRun) : Prop :=
  s.mailbox.taken = phase.held ∧ Reports phase s

theorem Tells.foreign (h : Tells phase s) (hop : Foreign op)
    (hexec : MailboxState.exec op s.mailbox r m) : Tells phase (s.after codec options t op r m) :=
  ⟨(MailboxState.same_of_exec hexec .taken hop.1).trans h.1,
    h.2.of_eq (MailboxState.same_of_exec hexec .degraded hop.2) (attemptsAfter_of_taken hop.1 _)⟩

variable (codec options) in
theorem tells_invariant : Invariant (system codec options fun _ _ _ _ => True)
    (fun _ => True) (Stage codec options Tells fun _ _ _ => True) := by
  refine stage_invariant (fun _ => trivial) (fun _ htells hflow hexec _ => ?_)
    (fun _ hclip hexec => ?_) fun _ _ hflow hexec _ => ?_
  · exact ⟨trivial, ⟨WorkerPhase.taken_of_flow htells.1 hflow hexec, htells.2.step hflow hexec⟩,
      absurd rfl, fun _ _ _ => id⟩
  · exact ⟨trivial, fun _ _ htells => htells.foreign (foreign_of_isClip hclip) hexec,
      fun _ _ _ => id⟩
  · exact ⟨trivial, trivial, fun _ _ htells => htells.foreign (foreign_of_flow hflow) hexec,
      fun _ _ _ => id⟩

def Settled (x : Threads MailboxOp MailboxOp.Res StoreThread.Value MailboxRun) : Prop :=
  x.shared.mailbox.taken = none ∧
    ∀ op k, x.threads .worker = some (call op k) → ∀ flag, op ≠ .storeDegraded flag

theorem Reports.degraded (h : Reports phase s) (hlast : LastFailed s.attempts) :
    s.mailbox.degraded = true := by
  cases phase with
  | idle => exact h.2 hlast
  | indexed => exact absurd hlast h
  | degraded roomId x => exact h
  | _ => exact h hlast

theorem idle_of_runs {p : MailboxProgram (Finset String)}
    (hruns : WorkerPhase.Runs codec options phase p) (hheld : phase.held = none)
    (hmark : ∀ op k, p = call op k → ∀ flag, op ≠ .storeDegraded flag) : phase = .idle := by
  cases phase with
  | idle => rfl
  | indexed =>
    cases p with
    | done retry => cases hruns
    | call op k =>
      obtain ⟨r⟩ := op.nonempty_res
      obtain ⟨phase', hflow, -⟩ := hruns r
      cases hflow
      exact absurd rfl (hmark _ k rfl false)
  | _ => cases hheld

/-- In every state of every run the probe is degraded if the last publication that has
ended, of whichever room, has failed. While no publication is in progress it is degraded
only then, so it is healthy if the last publication of every room has succeeded. -/
theorem degraded_of_last_attempt (fs : Fs Unit) (scan : Scan)
    {x : Threads MailboxOp MailboxOp.Res StoreThread.Value MailboxRun}
    (hrun : Reaches (system codec options fun _ _ _ _ => True) (start codec options fs scan) x) :
    (LastFailed x.shared.attempts → x.shared.mailbox.degraded = true) ∧
    (Settled x → (x.shared.mailbox.degraded = true ↔ LastFailed x.shared.attempts)) ∧
    (Settled x → (∀ roomId, ¬ Failed x.shared.attempts roomId) →
      x.shared.mailbox.degraded = false) := by
  have hstart : Reports .idle (start codec options fs scan).shared :=
    ⟨nofun, fun hlast => absurd hlast not_lastFailed_nil⟩
  have hlocal := ((tells_invariant codec options).reaches
    (stage_start trivial ⟨rfl, hstart⟩ fun _ => trivial) hrun).2
  obtain ⟨p, hp⟩ := Option.isSome_iff_exists.1 (hrun.threads_isSome (t := .worker) rfl)
  obtain ⟨phase, hruns, hheld, hreports⟩ := hlocal .worker p hp
  have hsettled : Settled x →
      (x.shared.mailbox.degraded = true ↔ LastFailed x.shared.attempts) := by
    rintro ⟨htaken, hmark⟩
    have hidle := idle_of_runs hruns (hheld.symm.trans htaken) fun op k hop =>
      hmark op k (hp.trans (congrArg _ hop))
    subst hidle
    exact hreports
  refine ⟨hreports.degraded, hsettled, fun hrest hnone => ?_⟩
  rw [← Bool.not_eq_true, hsettled hrest]
  rintro ⟨roomId, hlast⟩
  exact hnone roomId (failed_of_lastFailed hlast)

/-! ## A healthy probe over an unpublished room -/

def sampleStart : Threads MailboxOp MailboxOp.Res StoreThread.Value MailboxRun :=
  start sampleMailboxCodec {} ⟨fun _ => none, fun _ => []⟩ ⟨∅, ∅⟩

def sampleOutage : List (Move StoreThread MailboxChoice) :=
  [⟨.clip 0 sampleRoomId "recipient" sampleClip, 4, {}⟩,
    ⟨.clip 0 sampleOther "recipient" sampleClip, 4, {}⟩,
    ⟨.worker, 20, { fails := fun _ => true }⟩]

def resting (x : Threads MailboxOp MailboxOp.Res StoreThread.Value MailboxRun) : Bool :=
  match x.threads .worker with
  | some (done _) => true
  | _ => false

theorem settled_of_resting {x : Threads MailboxOp MailboxOp.Res StoreThread.Value MailboxRun}
    (h : resting x = true) (htaken : x.shared.mailbox.taken = none) : Settled x := by
  refine ⟨htaken, fun op k hcall => ?_⟩
  rw [resting, hcall] at h
  cases h

theorem sampleOutage_attempts :
    (((replay sampleMailboxCodec {} fun _ _ _ _ => True).play sampleOutage sampleStart).any
      fun x => x.shared.attempts == [(sampleRoomId, false)]) = true := by
  decide +kernel

/-- The probe is degraded after the first room has failed. -/
theorem degraded_of_last_attempt_sample : ∃ x,
    Reaches (system sampleMailboxCodec {} fun _ _ _ _ => True) sampleStart x ∧
      x.shared.attempts = [(sampleRoomId, false)] ∧ x.shared.mailbox.degraded = true := by
  obtain ⟨x, hrun, htest⟩ := Replay.exists_reaches sampleOutage_attempts
  have hattempts : x.shared.attempts = [(sampleRoomId, false)] := by simpa using htest
  refine ⟨x, hrun, hattempts, (degraded_of_last_attempt _ _ hrun).1 ⟨sampleRoomId, ?_⟩⟩
  rw [hattempts]
  rfl

theorem sampleOutage_healthy :
    (((replay sampleMailboxCodec {} fun _ _ _ _ => True).play
      (sampleOutage ++ [⟨.worker, 20, {}⟩]) sampleStart).any fun x =>
        resting x && x.shared.mailbox.taken.isNone && !x.shared.mailbox.degraded &&
          (x.shared.mailbox.dirty.lookup sampleRoomId).isSome &&
            x.shared.attempts == [(sampleRoomId, false), (sampleOther, true)]) = true := by
  decide +kernel

/-- The second room is published: the probe is healthy, and the clip of the first room is
still unpublished. -/
theorem healthy_over_failed_room : ∃ x,
    Reaches (system sampleMailboxCodec {} fun _ _ _ _ => True) sampleStart x ∧ Settled x ∧
      Failed x.shared.attempts sampleRoomId ∧
      (x.shared.mailbox.dirty.lookup sampleRoomId).isSome ∧
      x.shared.mailbox.degraded = false := by
  obtain ⟨x, hrun, htest⟩ := Replay.exists_reaches sampleOutage_healthy
  simp only [Bool.and_eq_true, Bool.not_eq_true', Option.isNone_iff_eq_none, beq_iff_eq] at htest
  obtain ⟨⟨⟨⟨hrest, htaken⟩, hhealthy⟩, hdirty⟩, hattempts⟩ := htest
  refine ⟨x, hrun, settled_of_resting hrest htaken, ?_, hdirty, hhealthy⟩
  rw [Failed, hattempts]
  decide +kernel

end MailboxRun

end ClipSync
