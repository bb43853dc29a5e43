import ClipSync.Lib.Outline
import ClipSync.Server.MailboxSweep

/-!
# Runs of the mailbox with failures

The worker, the calls of `clip_pending` and any number of sweeps take turns, and an
access to the files may fail. Of every run the mailbox remembers how its publications
have ended, which rooms the quota has refused and not been asked for again, and which
rooms the sweeps have taken out of the sizes while their files are still there.
-/

namespace ClipSync

open Lib Program

/-- The mailbox, with what is remembered: the ends of all publications in order, true if
the snapshot was published, the rooms whose last publication the quota has refused, and
the rooms that sweeps have taken out of the sizes and not yet deleted. -/
structure MailboxRun where
  mailbox : MailboxState
  attempts : List (String × Bool)
  refused : Finset String
  unsized : Finset (ℕ × String)

inductive StoreThread where
  | worker
  | clip (n : ℕ) (roomId recipientFp : String) (clip : PendingClip)
  | sweeper (n : ℕ)
deriving DecidableEq

abbrev StoreThread.Value : StoreThread → Type
  | .worker => Finset String
  | .clip .. => Unit
  | .sweeper _ => ℕ

namespace MailboxRun

open PersistentMailbox

variable (codec : MailboxCodec) (options : MailboxOptions)

def attemptsAfter (attempts : List (String × Bool)) : MailboxOp → List (String × Bool)
  | .indexInsert roomId _ => attempts ++ [(roomId, true)]
  | .dirtyOrInsert roomId _ => attempts ++ [(roomId, false)]
  | _ => attempts

def refusedAfter (taken : Option (String × Snapshot)) (refused : Finset String) :
    (op : MailboxOp) → op.Res → Finset String
  | .dirtyRemove roomId, _ => refused.erase roomId
  | .sizesGet, sizes =>
    match taken with
    | some (roomId, x) =>
      if prospective codec sizes roomId x > options.maxBytes then insert roomId refused
      else refused
    | none => refused
  | _, _ => refused

def unsizedAfter (unsized : Finset (ℕ × String)) :
    StoreThread → MailboxOp → Finset (ℕ × String)
  | .sweeper n, .sizesRemove roomId => insert (n, roomId) unsized
  | .sweeper n, .files (.remove _) => unsized.filter fun e => e.1 ≠ n
  | _, _ => unsized

def after (s : MailboxRun) (t : StoreThread) (op : MailboxOp) (r : op.Res) (m : MailboxState) :
    MailboxRun where
  mailbox := m
  attempts := attemptsAfter s.attempts op
  refused := refusedAfter codec options s.mailbox.taken s.refused op r
  unsized := unsizedAfter s.unsized t op

/-- The runs whose accesses all have an allowed result. The worker goes from turn to
turn; calls and sweeps can begin at any time. -/
def system (allow : StoreThread → (op : MailboxOp) → MailboxRun → op.Res → Prop) :
    Threads.System MailboxOp MailboxOp.Res StoreThread.Value MailboxRun where
  exec t op s r s' :=
    ∃ m, MailboxState.exec op s.mailbox r m ∧ allow t op s r ∧ s' = s.after codec options t op r m
  enter
    | .worker, some retry, s, p, s' => p = runWorker codec options retry ∧ s' = s
    | .worker, none, _, _, _ => False
    | .clip _ roomId recipientFp clip, none, s, p, s' =>
      p = clipPending roomId recipientFp clip ∧ s' = s
    | .clip .., some _, _, _, _ => False
    | .sweeper _, some _, s, p, s' => ∃ nowMs, p = sweepExpired options nowMs ∧ s' = s
    | .sweeper _, none, _, _, _ => False

/-- Nothing has happened yet in a mailbox that was opened with the given maps; its worker
and its sweepers have been spawned. -/
def start (fs : Fs Unit) (scan : Scan) :
    Threads MailboxOp MailboxOp.Res StoreThread.Value MailboxRun where
  shared := ⟨(opened codec options fs scan).shared, [], ∅, ∅⟩
  threads
    | .worker => some (done ∅)
    | .clip .. => none
    | .sweeper _ => some (done 0)

/-! ## What is known of the threads -/

open PersistentMailbox Threads

section Stages

variable (codec : MailboxCodec) (options : MailboxOptions)
  (K : WorkerPhase → MailboxRun → Prop) (E : ℕ → SweepPhase → MailboxRun → Prop)

/-- What the worker knows in its phases, and a sweep in its own. -/
def Stage : (t : StoreThread) → MailboxProgram t.Value → MailboxRun → Prop
  | .worker, p, s => ∃ phase, WorkerPhase.Runs codec options phase p ∧ K phase s
  | .clip .., p, _ => AllOps IsClip p
  | .sweeper n, p, s => ∃ nowMs phase,
      SweepPhase.Runs options nowMs phase (.clearing []) p ∧ E n phase s

/-- What the other threads know is still so. -/
def Spares (t : StoreThread) (s s' : MailboxRun) : Prop :=
  (t ≠ .worker → ∀ phase, K phase s → K phase s') ∧
    ∀ n, t ≠ .sweeper n → ∀ phase, E n phase s → E n phase s'

variable {codec options K E}

theorem Stage.of_spares {t u : StoreThread} {s s' : MailboxRun} (hspares : Spares K E t s s')
    (hu : u ≠ t) {q : MailboxProgram u.Value} (h : Stage codec options K E u q s) :
    Stage codec options K E u q s' := by
  cases u with
  | worker =>
    obtain ⟨phase, hruns, hknown⟩ := h
    exact ⟨phase, hruns, hspares.1 hu.symm phase hknown⟩
  | clip n roomId recipientFp clip => exact h
  | sweeper n =>
    obtain ⟨nowMs, phase, hruns, hknown⟩ := h
    exact ⟨nowMs, phase, hruns, hspares.2 n hu.symm phase hknown⟩

/-- What is known in the phases is shown access by access. -/
theorem stage_invariant {allow : StoreThread → (op : MailboxOp) → MailboxRun → op.Res → Prop}
    {I : MailboxRun → Prop} (hrest : ∀ {n s}, E n (.clearing []) s → E n .starting s)
    (hworker : ∀ {phase phase' op r s m}, I s → K phase s →
      WorkerPhase.Flow codec options phase op r phase' → MailboxState.exec op s.mailbox r m →
      allow .worker op s r → I (s.after codec options .worker op r m) ∧
        K phase' (s.after codec options .worker op r m) ∧
          Spares K E .worker s (s.after codec options .worker op r m))
    (hclip : ∀ {n roomId recipientFp clip op r s m}, I s → IsClip op →
      MailboxState.exec op s.mailbox r m →
      I (s.after codec options (.clip n roomId recipientFp clip) op r m) ∧
        Spares K E (.clip n roomId recipientFp clip) s
          (s.after codec options (.clip n roomId recipientFp clip) op r m))
    (hsweeper : ∀ {n nowMs phase phase' op r s m}, I s → E n phase s →
      SweepPhase.Flow options nowMs phase op r phase' → MailboxState.exec op s.mailbox r m →
      allow (.sweeper n) op s r → I (s.after codec options (.sweeper n) op r m) ∧
        E n phase' (s.after codec options (.sweeper n) op r m) ∧
          Spares K E (.sweeper n) s (s.after codec options (.sweeper n) op r m)) :
    Invariant (system codec options allow) I (Stage codec options K E) where
  enter {t a s p s'} hI hlast henter := by
    cases t with
    | worker =>
      cases a with
      | none => cases henter
      | some retry =>
        obtain ⟨rfl, rfl⟩ := henter
        obtain ⟨phase, rfl, hknown⟩ := hlast retry rfl
        exact ⟨hI, ⟨.idle, WorkerPhase.runWorker_runs codec options retry, hknown⟩,
          fun _ _ _ => id⟩
    | clip n roomId recipientFp clip =>
      cases a with
      | none =>
        obtain ⟨rfl, rfl⟩ := henter
        exact ⟨hI, clipPending_isClip roomId recipientFp clip, fun _ _ _ => id⟩
      | some u => cases henter
    | sweeper n =>
      cases a with
      | none => cases henter
      | some removed =>
        obtain ⟨nowMs, rfl, rfl⟩ := henter
        obtain ⟨_, phase, hends, hknown⟩ := hlast removed rfl
        rw [show phase = .clearing [] from hends] at hknown
        exact ⟨hI, ⟨nowMs, .starting, SweepPhase.sweepExpired_runs options nowMs, hrest hknown⟩,
          fun _ _ _ => id⟩
  access {t op k s r s'} hI hlocal hexec := by
    obtain ⟨m, hexec, hallow, rfl⟩ := hexec
    cases t with
    | worker =>
      obtain ⟨phase, hruns, hknown⟩ := hlocal
      obtain ⟨phase', hflow, hnext⟩ := hruns r
      obtain ⟨hI', hknown', hspares⟩ := hworker hI hknown hflow hexec hallow
      exact ⟨hI', ⟨phase', hnext, hknown'⟩, fun u hu q hq => hq.of_spares hspares hu⟩
    | clip n roomId recipientFp clip =>
      obtain ⟨hI', hspares⟩ := hclip hI hlocal.1 hexec
      exact ⟨hI', hlocal.2 r, fun u hu q hq => hq.of_spares hspares hu⟩
    | sweeper n =>
      obtain ⟨nowMs, phase, hruns, hknown⟩ := hlocal
      obtain ⟨phase', hflow, hnext⟩ := hruns r
      obtain ⟨hI', hknown', hspares⟩ := hsweeper hI hknown hflow hexec hallow
      exact ⟨hI', ⟨nowMs, phase', hnext, hknown'⟩, fun u hu q hq => hq.of_spares hspares hu⟩

theorem stage_start {I : MailboxRun → Prop} {fs : Fs Unit} {scan : Scan}
    (hI : I (start codec options fs scan).shared)
    (hK : K .idle (start codec options fs scan).shared)
    (hE : ∀ n, E n (.clearing []) (start codec options fs scan).shared) :
    Threads.Holds I (Stage codec options K E) (start codec options fs scan) := by
  refine ⟨hI, fun t p hp => ?_⟩
  cases t with
  | worker =>
    cases hp
    exact ⟨.idle, rfl, hK⟩
  | clip n roomId recipientFp clip => cases hp
  | sweeper n =>
    cases hp
    exact ⟨0, .clearing [], rfl, hE n⟩

end Stages

end MailboxRun

/-- An access of a call or a sweep leaves these parts to the worker. -/
def Foreign (op : MailboxOp) : Prop := .taken ∉ op.changes ∧ .degraded ∉ op.changes

theorem foreign_of_isClip {op : MailboxOp} (h : PersistentMailbox.IsClip op) : Foreign op :=
  ⟨h.notMem_changes (by decide), h.notMem_changes (by decide)⟩

theorem foreign_of_flow {options : MailboxOptions} {nowMs : Int64}
    {phase phase' : PersistentMailbox.SweepPhase} {op : MailboxOp} {r : op.Res}
    (h : phase.Flow options nowMs op r phase') : Foreign op := by
  cases h <;> exact ⟨by simp [MailboxOp.changes], by simp [MailboxOp.changes]⟩

/-! ## Schedules -/

namespace MailboxRun

open PersistentMailbox Threads

section Schedules

variable (codec : MailboxCodec) (options : MailboxOptions)

def launch (choice : MailboxChoice) : (t : StoreThread) → Option t.Value → MailboxRun →
    Option (MailboxProgram t.Value × MailboxRun)
  | .worker, some retry, s => some (runWorker codec options retry, s)
  | .worker, none, _ => none
  | .clip _ roomId recipientFp clip, none, s => some (clipPending roomId recipientFp clip, s)
  | .clip .., some _, _ => none
  | .sweeper _, some _, s => some (sweepExpired options choice.nowMs, s)
  | .sweeper _, none, _ => none

variable (allow : StoreThread → (op : MailboxOp) → MailboxRun → op.Res → Prop)

variable {choice : MailboxChoice} {s s' : MailboxRun} {t : StoreThread}

theorem enter_of_launch {a : Option t.Value} {p : MailboxProgram t.Value}
    (h : launch codec options choice t a s = some (p, s')) :
    (system codec options allow).enter t a s p s' := by
  cases t with
  | worker =>
    cases a with
    | some retry =>
      cases h
      exact ⟨rfl, rfl⟩
    | none => cases h
  | clip n roomId recipientFp clip =>
    cases a with
    | none =>
      cases h
      exact ⟨rfl, rfl⟩
    | some u => cases h
  | sweeper n =>
    cases a with
    | some removed =>
      cases h
      exact ⟨choice.nowMs, rfl, rfl⟩
    | none => cases h

variable [∀ t op s r, Decidable (allow t op s r)]

def attempt (choice : MailboxChoice) (t : StoreThread) (op : MailboxOp) (s : MailboxRun) :
    Option (op.Res × MailboxRun) :=
  (MailboxState.tried choice op s.mailbox).bind fun (r, m) =>
    if allow t op s r then some (r, s.after codec options t op r m) else none

theorem exec_of_attempt {op : MailboxOp} {r : op.Res}
    (h : attempt codec options allow choice t op s = some (r, s')) :
    (system codec options allow).exec t op s r s' := by
  obtain ⟨⟨r₁, m⟩, htried, hallow⟩ := Option.bind_eq_some_iff.1 h
  dsimp only at hallow
  split at hallow
  · rename_i hallowed
    cases hallow
    exact ⟨m, MailboxState.exec_of_tried htried, hallowed, rfl⟩
  · cases hallow

def replay : Replay (system codec options allow) MailboxChoice where
  access := attempt codec options allow
  enter := launch codec options
  exec_of_access := exec_of_attempt codec options allow
  enter_of_enter := enter_of_launch codec options allow

end Schedules

def sampleOther : String := "bbbbbbbbbbbbbbbbbbbbbbbbbbbbbbbb"

end MailboxRun

end ClipSync
