import ClipSync.Lib.Threads
import Mathlib.Data.Nat.Notation

/-!
# Schedules

A system of threads leaves open which thread moves next, which of its results an
operation has and which program a thread starts. A schedule settles all of this, so
that a run can be computed. `Replay` says how the choices of a schedule are carried out;
whatever state is computed is reached by the system.
-/

namespace Lib

namespace Threads

open Program

variable {Op : Type} {Res : Op → Type} {ι σ C : Type} {α : ι → Type}

/-- Functions that do what the operations and threads of a system may do, told by a choice
what is to happen where the system leaves it open. -/
structure Replay (sys : System Op Res α σ) (C : Type) where
  access : C → (t : ι) → (o : Op) → σ → Option (Res o × σ)
  enter : C → (t : ι) → Option (α t) → σ → Option (Program Op Res (α t) × σ)
  exec_of_access : ∀ {c t o s r s'}, access c t o s = some (r, s') → sys.exec t o s r s'
  enter_of_enter : ∀ {c t a s p s'}, enter c t a s = some (p, s') → sys.enter t a s p s'

/-- A thread starts its next program, unless it is in one, and performs at most `count`
operations. -/
structure Move (ι C : Type) where
  thread : ι
  count : ℕ
  choice : C

/-- The value of a thread that has finished. -/
def value (x : Threads Op Res α σ) (t : ι) : Option (α t) :=
  match x.threads t with
  | some (done v) => some v
  | _ => none

theorem threads_of_value {x : Threads Op Res α σ} {t : ι} {v : α t} (h : x.value t = some v) :
    x.threads t = some (done v) := by
  unfold value at h
  split at h
  · rename_i hdone
    rw [hdone, Option.some.inj h]
  · cases h

/-- The operation that a thread is going to perform. -/
def next (x : Threads Op Res α σ) (t : ι) : Option Op :=
  match x.threads t with
  | some (call o _) => some o
  | _ => none

theorem threads_of_next {x : Threads Op Res α σ} {t : ι} {o : Op} (h : x.next t = some o) :
    ∃ k, x.threads t = some (call o k) := by
  unfold next at h
  split at h
  · rename_i k hcall
    cases h
    exact ⟨k, hcall⟩
  · cases h

namespace Replay

variable {sys : System Op Res α σ} (replay : Replay sys C)

def perform (c : C) (t : ι) :
    ℕ → Program Op Res (α t) → σ → Option (Program Op Res (α t) × σ)
  | 0, p, s => some (p, s)
  | _ + 1, done v, s => some (done v, s)
  | n + 1, call o k, s =>
    match replay.access c t o s with
    | none => none
    | some (r, s') => perform c t n (k r) s'

/-- The program a thread goes on with. -/
def resume (c : C) (t : ι) (x : Threads Op Res α σ) : Option (Program Op Res (α t) × σ) :=
  match x.threads t with
  | none => replay.enter c t none x.shared
  | some (done v) => replay.enter c t (some v) x.shared
  | some p => some (p, x.shared)

variable [DecidableEq ι]

def move (m : Move ι C) (x : Threads Op Res α σ) : Option (Threads Op Res α σ) :=
  match replay.resume m.choice m.thread x with
  | none => none
  | some (p, s) =>
    match replay.perform m.choice m.thread m.count p s with
    | none => none
    | some (q, s') => some (x.set m.thread q s')

def play : List (Move ι C) → Threads Op Res α σ → Option (Threads Op Res α σ)
  | [], x => some x
  | m :: moves, x =>
    match replay.move m x with
    | none => none
    | some y => play moves y

variable {replay} {c : C} {t : ι} {x y : Threads Op Res α σ}

omit [DecidableEq ι] in
theorem steps_of_perform {n : ℕ} {p q : Program Op Res (α t)} {s s' : σ}
    (h : replay.perform c t n p s = some (q, s')) : Steps (sys.exec t) p s q s' := by
  induction n generalizing p s with
  | zero =>
    cases h
    exact .refl _ _
  | succ n ih =>
    cases p with
    | done v =>
      cases h
      exact .refl _ _
    | call o k =>
      rw [perform] at h
      split at h
      · cases h
      · rename_i r s₁ haccess
        exact .call r (replay.exec_of_access haccess) (ih h)

/-- Every state a schedule leads to is reached. -/
theorem reaches_of_move {m : Move ι C} (h : replay.move m x = some y) : Reaches sys x y := by
  unfold move at h
  split at h
  · cases h
  · rename_i p s hresume
    split at h
    · cases h
    · rename_i q s' hperform
      cases h
      have hsteps := steps_of_perform hperform
      unfold resume at hresume
      split at hresume
      · rename_i hidle
        exact reaches_begin hidle (replay.enter_of_enter hresume) hsteps
      · rename_i v hdone
        exact reaches_again hdone (replay.enter_of_enter hresume) hsteps
      · rename_i p' hrunning
        cases hresume
        exact reaches_resume hrunning hsteps

variable {moves : List (Move ι C)}

theorem reaches_of_play (h : replay.play moves x = some y) : Reaches sys x y := by
  induction moves generalizing x with
  | nil =>
    cases h
    exact .refl
  | cons m moves ih =>
    rw [play] at h
    split at h
    · cases h
    · rename_i x₁ hmove
      exact (reaches_of_move hmove).trans (ih h)

theorem threads_of_play (h : replay.play moves x = some y) (ht : ∀ m ∈ moves, m.thread ≠ t) :
    y.threads t = x.threads t := by
  induction moves generalizing x with
  | nil =>
    cases h
    rfl
  | cons m moves ih =>
    rw [play] at h
    split at h
    · cases h
    · rename_i x₁ hmove
      rw [ih h fun m' hm' => ht m' (List.mem_cons_of_mem m hm')]
      unfold move at hmove
      split at hmove
      · cases hmove
      split at hmove
      · cases hmove
      · cases hmove
        exact set_threads_of_ne x (ht m List.mem_cons_self).symm _ _

variable (replay) in
/-- Where a schedule leads; if it cannot be carried out, where it began. -/
def final (moves : List (Move ι C)) (x : Threads Op Res α σ) : Threads Op Res α σ :=
  (replay.play moves x).getD x

theorem reaches_final : Reaches sys x (replay.final moves x) := by
  rw [final]
  cases h : replay.play moves x with
  | none => exact .refl
  | some y => exact reaches_of_play h

theorem threads_final (ht : ∀ m ∈ moves, m.thread ≠ t) :
    (replay.final moves x).threads t = x.threads t := by
  rw [final]
  cases h : replay.play moves x with
  | none => rfl
  | some y => exact threads_of_play h ht

variable (replay) in
/-- The schedules whose operations pass a check. -/
def guarded {test : ι → Op → σ → Prop} (check : ι → Op → σ → Bool)
    (hcheck : ∀ {t o s}, check t o s = true → test t o s) : Replay (sys.guarded test) C where
  access c t o s := if check t o s = true then replay.access c t o s else none
  enter := replay.enter
  exec_of_access h := by
    obtain ⟨htest, haccess⟩ := Option.ite_none_right_eq_some.1 h
    exact ⟨hcheck htest, replay.exec_of_access haccess⟩
  enter_of_enter := replay.enter_of_enter

theorem exists_reaches {test : Threads Op Res α σ → Bool}
    (h : (replay.play moves x).any test = true) : ∃ y, Reaches sys x y ∧ test y = true := by
  obtain ⟨y, hplay, htest⟩ := (Option.any_eq_true _ _).1 h
  exact ⟨y, reaches_of_play hplay, htest⟩

end Replay

end Threads

end Lib
