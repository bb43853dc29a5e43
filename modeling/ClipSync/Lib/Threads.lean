import ClipSync.Lib.Program
import Mathlib.Logic.Function.Basic
import Mathlib.Logic.Relation

/-!
# Threads over shared state

A system of threads, each running a program over operations on one shared state. A
step lets one thread perform its next operation, or lets a thread that is idle or
whose program has finished start the next one. Any interleaving of such steps is a
run.

`Invariant` is the rule of local assertions: what is said about a thread and the
shared state must be kept by the thread's own steps and must not be disturbed by
the steps of the others. `Staging` is the rule for assertions that relate the threads
to each other, through a stage of each.
-/

namespace Lib

open Program Function

variable {Op : Type} {Res : Op → Type} {ι σ : Type} {α : ι → Type}

/-- The shared state and the rest of each thread's program; `none` is a thread that
has not started. -/
structure Threads (Op : Type) (Res : Op → Type) {ι : Type} (α : ι → Type) (σ : Type) where
  shared : σ
  threads : (t : ι) → Option (Program Op Res (α t))

namespace Threads

/-- What an operation of a thread does, and which program a thread can start, given
the value of its previous one. -/
structure System (Op : Type) (Res : Op → Type) {ι : Type} (α : ι → Type) (σ : Type) where
  exec : ι → (o : Op) → σ → Res o → σ → Prop
  enter : (t : ι) → Option (α t) → σ → Program Op Res (α t) → σ → Prop

variable [DecidableEq ι]

def set (x : Threads Op Res α σ) (t : ι) (p : Program Op Res (α t)) (s : σ) :
    Threads Op Res α σ where
  shared := s
  threads := update x.threads t (some p)

@[simp] theorem set_shared (x : Threads Op Res α σ) (t : ι) (p : Program Op Res (α t))
    (s : σ) : (x.set t p s).shared = s := rfl

@[simp] theorem set_threads_self (x : Threads Op Res α σ) (t : ι)
    (p : Program Op Res (α t)) (s : σ) : (x.set t p s).threads t = some p :=
  update_self _ _ _

theorem set_threads_of_ne (x : Threads Op Res α σ) {t u : ι} (h : u ≠ t)
    (p : Program Op Res (α t)) (s : σ) : (x.set t p s).threads u = x.threads u :=
  update_of_ne h _ _

variable (sys : System Op Res α σ)

inductive Step (x : Threads Op Res α σ) : Threads Op Res α σ → Prop where
  | begin {t : ι} {p : Program Op Res (α t)} {s : σ} (idle : x.threads t = none)
      (enter : sys.enter t none x.shared p s) : Step x (x.set t p s)
  | again {t : ι} {a : α t} {p : Program Op Res (α t)} {s : σ}
      (finished : x.threads t = some (done a)) (enter : sys.enter t (some a) x.shared p s) :
      Step x (x.set t p s)
  | access {t : ι} {o : Op} {k : Res o → Program Op Res (α t)} {r : Res o} {s : σ}
      (running : x.threads t = some (call o k)) (exec : sys.exec t o x.shared r s) :
      Step x (x.set t (k r) s)

abbrev Reaches : Threads Op Res α σ → Threads Op Res α σ → Prop :=
  Relation.ReflTransGen (Step sys)

/-- The runs in which every operation meets a condition on the state it is performed
in. -/
def System.guarded (test : ι → Op → σ → Prop) : System Op Res α σ where
  exec t o s r s' := test t o s ∧ sys.exec t o s r s'
  enter := sys.enter

/-- The runs in which every operation has a result that is accepted. -/
def System.accepting (accept : ι → (o : Op) → Res o → Prop) : System Op Res α σ where
  exec t o s r s' := accept t o r ∧ sys.exec t o s r s'
  enter := sys.enter

/-- An assertion about the shared state together with one about each thread, kept by
the thread itself and not disturbed by the others. -/
structure Invariant (I : σ → Prop) (L : (t : ι) → Program Op Res (α t) → σ → Prop) :
    Prop where
  enter : ∀ {t a s p s'}, I s → (∀ x, a = some x → L t (done x) s) → sys.enter t a s p s' →
    I s' ∧ L t p s' ∧ ∀ u, u ≠ t → ∀ q, L u q s → L u q s'
  access : ∀ {t o k s r s'}, I s → L t (call o k) s → sys.exec t o s r s' →
    I s' ∧ L t (k r) s' ∧ ∀ u, u ≠ t → ∀ q, L u q s → L u q s'

/-- The assertions of an invariant in a state of the system. -/
def Holds (I : σ → Prop) (L : (t : ι) → Program Op Res (α t) → σ → Prop)
    (x : Threads Op Res α σ) : Prop :=
  I x.shared ∧ ∀ t p, x.threads t = some p → L t p x.shared

variable {sys} {I : σ → Prop} {L : (t : ι) → Program Op Res (α t) → σ → Prop}

theorem Holds.set {x : Threads Op Res α σ} {t : ι} {p : Program Op Res (α t)} {s : σ}
    (h : Holds I L x) (hnew : I s ∧ L t p s ∧ ∀ u, u ≠ t → ∀ q, L u q x.shared → L u q s) :
    Holds I L (x.set t p s) := by
  obtain ⟨hI, hown, hothers⟩ := hnew
  refine ⟨hI, fun u q hq => ?_⟩
  by_cases hu : u = t
  · subst hu
    rw [set_threads_self] at hq
    cases hq
    exact hown
  · rw [set_threads_of_ne x hu] at hq
    exact hothers u hu q (h.2 u q hq)

theorem Invariant.step (hinv : Invariant sys I L) {x y : Threads Op Res α σ}
    (h : Holds I L x) (hstep : Step sys x y) : Holds I L y := by
  cases hstep with
  | begin idle enter => exact h.set (hinv.enter h.1 (by rintro _ ⟨⟩) enter)
  | again finished enter =>
    refine h.set (hinv.enter h.1 ?_ enter)
    rintro _ ⟨⟩
    exact h.2 _ _ finished
  | access running exec => exact h.set (hinv.access h.1 (h.2 _ _ running) exec)

/-- The assertions hold in every state of every run. -/
theorem Invariant.reaches (hinv : Invariant sys I L) {x y : Threads Op Res α σ}
    (h : Holds I L x) (hrun : Reaches sys x y) : Holds I L y := by
  induction hrun with
  | refl => exact h
  | tail _ hstep ih => exact hinv.step ih hstep

/-! ## Stages -/

section Stages

variable {A : Type} (Obeys : (t : ι) → A → Program Op Res (α t) → Prop)
  (J : (ι → Option A) → σ → Prop)

variable (sys) in
/-- Every thread that has started is given a stage, which its program obeys and its steps
change; what is asserted of the shared state and all stages is kept by the steps. -/
structure Staging : Prop where
  enter : ∀ {stages t s p s'}, J stages s → stages t = none → sys.enter t none s p s' →
    ∃ a, Obeys t a p ∧ J (update stages t (some a)) s'
  again : ∀ {stages t a v s p s'}, J stages s → stages t = some a → Obeys t a (done v) →
    sys.enter t (some v) s p s' →
    ∃ a', Obeys t a' p ∧ J (update stages t (some a')) s'
  access : ∀ {stages t a o k s r s'}, J stages s → stages t = some a → Obeys t a (call o k) →
    sys.exec t o s r s' → ∃ a', Obeys t a' (k r) ∧ J (update stages t (some a')) s'

/-- The threads can be given stages. -/
def Staged (x : Threads Op Res α σ) : Prop :=
  ∃ stages, J stages x.shared ∧ (∀ t, x.threads t = none → stages t = none) ∧
    ∀ t p, x.threads t = some p → ∃ a, stages t = some a ∧ Obeys t a p

variable {Obeys J}

theorem Staged.set {x : Threads Op Res α σ} {stages : ι → Option A} {t : ι} {a : A}
    {p : Program Op Res (α t)} {s : σ} (hnone : ∀ u, x.threads u = none → stages u = none)
    (hsome : ∀ u q, x.threads u = some q → ∃ b, stages u = some b ∧ Obeys u b q)
    (hp : Obeys t a p) (hJ : J (update stages t (some a)) s) :
    Staged Obeys J (x.set t p s) := by
  refine ⟨_, hJ, fun u hu => ?_, fun u q hq => ?_⟩
  · by_cases hut : u = t
    · subst hut
      rw [set_threads_self] at hu
      cases hu
    · rw [set_threads_of_ne x hut] at hu
      rw [update_of_ne hut]
      exact hnone u hu
  · by_cases hut : u = t
    · subst hut
      rw [set_threads_self] at hq
      cases hq
      exact ⟨a, update_self _ _ _, hp⟩
    · rw [set_threads_of_ne x hut] at hq
      rw [update_of_ne hut]
      exact hsome u q hq

theorem Staging.step (hstaging : Staging sys Obeys J) {x y : Threads Op Res α σ}
    (h : Staged Obeys J x) (hstep : Step sys x y) : Staged Obeys J y := by
  obtain ⟨stages, hJ, hnone, hsome⟩ := h
  cases hstep with
  | begin idle enter =>
    obtain ⟨a, hp, hJ'⟩ := hstaging.enter hJ (hnone _ idle) enter
    exact .set hnone hsome hp hJ'
  | again finished enter =>
    obtain ⟨a, ha, hobeys⟩ := hsome _ _ finished
    obtain ⟨a', hp, hJ'⟩ := hstaging.again hJ ha hobeys enter
    exact .set hnone hsome hp hJ'
  | access running exec =>
    obtain ⟨a, ha, hobeys⟩ := hsome _ _ running
    obtain ⟨a', hp, hJ'⟩ := hstaging.access hJ ha hobeys exec
    exact .set hnone hsome hp hJ'

theorem Staging.reaches (hstaging : Staging sys Obeys J) {x y : Threads Op Res α σ}
    (h : Staged Obeys J x) (hrun : Reaches sys x y) : Staged Obeys J y := by
  induction hrun with
  | refl => exact h
  | tail _ hstep ih => exact hstaging.step ih hstep

end Stages

/-! ## Building runs -/

@[simp] theorem set_set (x : Threads Op Res α σ) (t : ι) (p q : Program Op Res (α t))
    (s s' : σ) : (x.set t p s).set t q s' = x.set t q s' := by
  simp only [set, update_idem]

variable {t : ι} {p q : Program Op Res (α t)} {x y : Threads Op Res α σ} {s s' : σ}

variable {test : ι → Op → σ → Prop}

/-- A system that allows more has more runs. -/
theorem Reaches.mono {sys' : System Op Res α σ} (h : Reaches sys x y)
    (henter : sys.enter = sys'.enter)
    (hexec : ∀ {t o s r s'}, sys.exec t o s r s' → sys'.exec t o s r s') : Reaches sys' x y := by
  refine Relation.ReflTransGen.mono (fun x y hstep => ?_) _ _ h
  cases hstep with
  | begin idle enter => exact .begin idle (henter ▸ enter)
  | again finished enter => exact .again finished (henter ▸ enter)
  | access running exec => exact .access running (hexec exec)

theorem Reaches.of_guarded (h : Reaches (sys.guarded test) x y) : Reaches sys x y :=
  h.mono rfl And.right

theorem Reaches.guarded (h : Reaches sys x y) (htest : ∀ t o s, test t o s) :
    Reaches (sys.guarded test) x y :=
  h.mono rfl fun hexec => ⟨htest _ _ _, hexec⟩

theorem Reaches.of_accepting {accept : ι → (o : Op) → Res o → Prop}
    (h : Reaches (sys.accepting accept) x y) : Reaches sys x y :=
  h.mono rfl And.right

/-- A thread that has started stays. -/
theorem Reaches.threads_isSome (h : Reaches sys x y) (hx : (x.threads t).isSome) :
    (y.threads t).isSome := by
  have hset : ∀ (z : Threads Op Res α σ) (u : ι) (p : Program Op Res (α u)) (s : σ),
      (z.threads t).isSome → ((z.set u p s).threads t).isSome := by
    intro z u p s hz
    by_cases hu : t = u
    · subst hu
      rw [set_threads_self]
      rfl
    · rw [set_threads_of_ne z hu]
      exact hz
  induction h with
  | refl => exact hx
  | tail _ hstep ih => cases hstep <;> exact hset _ _ _ _ ih

/-- A thread goes on with its program while the others rest. -/
theorem reaches_steps (hsteps : Steps (sys.exec t) p s q s') :
    Reaches sys (x.set t p s) (x.set t q s') := by
  induction hsteps with
  | refl p s => exact .refl
  | call r head tail ih =>
    refine .head (.access (set_threads_self x t _ _) head) ?_
    rw [set_set]
    exact ih

theorem reaches_resume (hp : x.threads t = some p) (hsteps : Steps (sys.exec t) p x.shared q s) :
    Reaches sys x (x.set t q s) := by
  have hx : x = x.set t p x.shared := by
    rw [set, ← hp, update_eq_self]
  rw [hx, set_set]
  exact reaches_steps hsteps

theorem reaches_begin (idle : x.threads t = none) (enter : sys.enter t none x.shared p s)
    (hsteps : Steps (sys.exec t) p s q s') : Reaches sys x (x.set t q s') :=
  .head (.begin idle enter) (reaches_steps hsteps)

theorem reaches_again {a : α t} (finished : x.threads t = some (done a))
    (enter : sys.enter t (some a) x.shared p s) (hsteps : Steps (sys.exec t) p s q s') :
    Reaches sys x (x.set t q s') :=
  .head (.again finished enter) (reaches_steps hsteps)

theorem reaches_exec {last : Option (α t)} {a : α t} (hlast : x.threads t = last.map done)
    (enter : sys.enter t last x.shared p s) (hexec : Exec (sys.exec t) p s a s') :
    Reaches sys x (x.set t (done a) s') := by
  cases last with
  | none => exact reaches_begin hlast enter hexec.steps
  | some b => exact reaches_again hlast enter hexec.steps

end Threads

end Lib
