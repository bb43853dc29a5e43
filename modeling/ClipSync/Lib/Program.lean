import Mathlib.Data.Option.Basic
import Mathlib.Logic.Relation

/-!
# Programs as trees of atomic operations

A program either has finished with a value or performs one operation and goes on
with its result. Between two operations anything else in the system may happen,
and a crash can cut a program off there; within one operation nothing can. What
an operation does is given separately by a relation `exec o s r s'`: in state `s`
it may return `r` and leave the state `s'`.

`Exec` is a complete, uninterrupted execution. `Safe` is the triple for programs
that may be cut off: an invariant holds before every operation, and a
postcondition at the end. `Total` is the triple for programs that are not cut off and
must not get stuck. `Conforms` constrains a program by an automaton that
reads its operations and their results, independently of any state.
-/

namespace Lib

/-- A program over the operations `Op`, each with its type of results. -/
inductive Program (Op : Type) (Res : Op → Type) (α : Type) where
  | done (a : α)
  | call (o : Op) (k : Res o → Program Op Res α)

namespace Program

variable {Op : Type} {Res : Op → Type} {α β : Type}

protected def bind : Program Op Res α → (α → Program Op Res β) → Program Op Res β
  | done a, f => f a
  | call o k, f => call o fun r => (k r).bind f

instance : Monad (Program Op Res) where
  pure := done
  bind := Program.bind

/-- The program that performs one operation. -/
def perform (o : Op) : Program Op Res (Res o) := call o done

@[simp] theorem pure_eq (a : α) : (pure a : Program Op Res α) = done a := rfl

@[simp] theorem done_bind (a : α) (f : α → Program Op Res β) :
    (done a : Program Op Res α) >>= f = f a := rfl

@[simp] theorem call_bind (o : Op) (k : Res o → Program Op Res α)
    (f : α → Program Op Res β) : call o k >>= f = call o fun r => k r >>= f := rfl

@[simp] theorem perform_bind (o : Op) (f : Res o → Program Op Res β) :
    (perform o : Program Op Res (Res o)) >>= f = call o f := rfl

@[simp] theorem bind_done (p : Program Op Res α) : p >>= done = p := by
  induction p with
  | done a => rfl
  | call o k ih =>
    rw [call_bind]
    exact congrArg (call o) (funext ih)

/-- Each operation replaced by a program over other operations. -/
def lift {Op' : Type} {Res' : Op' → Type} (h : (o : Op) → Program Op' Res' (Res o)) :
    Program Op Res α → Program Op' Res' α
  | done a => done a
  | call o k => h o >>= fun r => (k r).lift h

theorem bind_assoc {γ : Type} (p : Program Op Res α) (f : α → Program Op Res β)
    (g : β → Program Op Res γ) : p >>= f >>= g = p >>= fun a => f a >>= g := by
  induction p with
  | done a => rfl
  | call o k ih => exact congrArg (call o) (funext ih)

variable {A : Type} {test : A → Op → Prop} {final : A → α → Prop} {P : Op → Prop} {Op' : Type}
  {Res' : Op' → Type} {p : Program Op Res α} {f : α → Program Op Res β}

theorem lift_bind (h : (o : Op) → Program Op' Res' (Res o)) (p : Program Op Res α)
    (f : α → Program Op Res β) : (p >>= f).lift h = p.lift h >>= fun a => (f a).lift h := by
  induction p with
  | done a => rfl
  | call o k ih =>
    rw [call_bind, lift, lift, bind_assoc]
    exact congrArg _ (funext ih)

/-- The program up to the first operation that ends its task, if there is one. -/
def halting (stop : Op → Bool) : Program Op Res α → Program Op Res (Option α)
  | done a => done (some a)
  | call o k => if stop o then done none else call o fun r => (k r).halting stop

/-- Every operation that the program can come to perform passes the test. -/
def AllOps (P : Op → Prop) : Program Op Res α → Prop
  | done _ => True
  | call o k => P o ∧ ∀ r, AllOps P (k r)

theorem allOps_bind (hp : AllOps P p) (hf : ∀ a, AllOps P (f a)) : AllOps P (p >>= f) := by
  induction p with
  | done a => exact hf a
  | call o k ih => exact ⟨hp.1, fun r => ih r (hp.2 r)⟩

theorem allOps_of_bind (h : AllOps P (p >>= f)) : AllOps P p := by
  induction p with
  | done a => trivial
  | call o k ih => exact ⟨h.1, fun r => ih r (h.2 r)⟩

theorem allOps_perform {o : Op} (h : P o) :
    AllOps P (perform o : Program Op Res (Res o)) := ⟨h, fun _ => trivial⟩

theorem allOps_lift {Q : Op' → Prop} {h : (o : Op) → Program Op' Res' (Res o)}
    (hop : ∀ o, P o → AllOps Q (h o)) (hp : AllOps P p) : AllOps Q (p.lift h) := by
  induction p with
  | done a => trivial
  | call o k ih => exact allOps_bind (hop o hp.1) fun r => ih r (hp.2 r)

theorem allOps_mono {Q : Op → Prop} (h : ∀ o, P o → Q o) (hp : AllOps P p) : AllOps Q p := by
  induction p with
  | done a => trivial
  | call o k ih => exact ⟨h o hp.1, fun r => ih r (hp.2 r)⟩

theorem allOps_true (p : Program Op Res α) : AllOps (fun _ => True) p := by
  induction p with
  | done a => trivial
  | call o k ih => exact ⟨trivial, ih⟩

/-- The program is driven by an automaton that reads its operations and their results:
each operation passes the test in the state it is performed in. -/
def Conforms {A : Type} (test : A → Op → Prop) (next : A → (o : Op) → Res o → A)
    (final : A → α → Prop) : A → Program Op Res α → Prop
  | a, done x => final a x
  | a, call o k => test a o ∧ ∀ r, Conforms test next final (next a o r) (k r)

theorem conforms_bind {next : A → (o : Op) → Res o → A} {mid : A → α → Prop}
    {final : A → β → Prop} {a : A} (hp : Conforms test next mid a p)
    (hf : ∀ b x, mid b x → Conforms test next final b (f x)) :
    Conforms test next final a (p >>= f) := by
  induction p generalizing a with
  | done x => exact hf a x hp
  | call o k ih => exact ⟨hp.1, fun r => ih r (hp.2 r)⟩

theorem conforms_perform_bind {next : A → (o : Op) → Res o → A} {final : A → β → Prop} {o : Op}
    {f : Res o → Program Op Res β} {a : A} (ho : test a o)
    (hf : ∀ r, Conforms test next final (next a o r) (f r)) :
    Conforms test next final a (perform o >>= f) :=
  ⟨ho, hf⟩

/-- The automaton lets an operation pass without leaving its state. -/
def Skips {A : Type} (test : A → Op → Prop) (next : A → (o : Op) → Res o → A) (a : A) (o : Op) :
    Prop :=
  test a o ∧ ∀ r, next a o r = a

theorem conforms_of_skips {next : A → (o : Op) → Res o → A} {a : A}
    (hp : AllOps (Skips test next a) p) : Conforms test next (fun b _ => b = a) a p := by
  induction p with
  | done x => rfl
  | call o k ih =>
    refine ⟨hp.1.1, fun r => ?_⟩
    rw [hp.1.2 r]
    exact ih r (hp.2 r)

theorem conforms_of_allOps {next : A → (o : Op) → Res o → A} (htest : ∀ a o, P o → test a o)
    (hnext : ∀ a o r, P o → next a o r = a) (hp : AllOps P p) (a : A) :
    Conforms test next (fun b _ => b = a) a p :=
  conforms_of_skips (allOps_mono (fun o ho => ⟨htest a o ho, fun r => hnext a o r ho⟩) hp)

/-- An automaton that reads the operations of a lifted program, from one that reads the
operations of the program itself. -/
theorem conforms_lift {next : A → (o : Op) → Res o → A} {test' : A → Op' → Prop}
    {next' : A → (o : Op') → Res' o → A} {h : (o : Op') → Program Op Res (Res' o)}
    (hop : ∀ a o, test' a o → Conforms test next (fun b r => b = next' a o r) a (h o))
    {p : Program Op' Res' α} {a : A} (hp : Conforms test' next' final a p) :
    Conforms test next final a (p.lift h) := by
  induction p generalizing a with
  | done x => exact hp
  | call o k ih =>
    refine conforms_bind (hop a o hp.1) fun b r hb => ?_
    rw [hb]
    exact ih r (hp.2 r)

theorem conforms_mono {test' : A → Op → Prop} {next : A → (o : Op) → Res o → A}
    {final' : A → α → Prop} (htest : ∀ a o, test a o → test' a o)
    (hfinal : ∀ a x, final a x → final' a x) {a : A} (hp : Conforms test next final a p) :
    Conforms test' next final' a p := by
  induction p generalizing a with
  | done x => exact hfinal a x hp
  | call o k ih => exact ⟨htest a o hp.1, fun r => ih r (hp.2 r)⟩

/-- Whatever results its operations have, a program goes along a relation on stages. -/
def Traces {A : Type} (flow : A → (o : Op) → Res o → A → Prop) (final : A → α → Prop) :
    A → Program Op Res α → Prop
  | a, done x => final a x
  | a, call o k => ∀ r, ∃ b, flow a o r b ∧ Traces flow final b (k r)

theorem traces_bind {flow : A → (o : Op) → Res o → A → Prop} (mid : A → α → Prop)
    {final : A → β → Prop} {a : A} (hp : Traces flow mid a p)
    (hf : ∀ b x, mid b x → Traces flow final b (f x)) : Traces flow final a (p >>= f) := by
  induction p generalizing a with
  | done x => exact hf a x hp
  | call o k ih =>
    intro r
    obtain ⟨b, hflow, hk⟩ := hp r
    exact ⟨b, hflow, ih r hk⟩

theorem Traces.mono {flow : A → (o : Op) → Res o → A → Prop} {final' : A → α → Prop} {a : A}
    (hp : Traces flow final a p) (hfinal : ∀ {b x}, final b x → final' b x) :
    Traces flow final' a p := by
  rw [← bind_done p]
  exact traces_bind final hp fun _ _ h => hfinal h

/-- An automaton that reads the operations of a program, from the stages the program goes
through. -/
theorem Traces.conforms {flow : A → (o : Op) → Res o → A → Prop} {B : Type}
    {test : B → Op → Prop} {next : B → (o : Op) → Res o → B} {final' : B → α → Prop}
    (R : A → B → Prop) {a : A} {b : B} (hp : Traces flow final a p) (hab : R a b)
    (htest : ∀ {a b o}, R a b → (∀ r, ∃ a', flow a o r a') → test b o)
    (hnext : ∀ {a b o r a'}, R a b → flow a o r a' → R a' (next b o r))
    (hfinal : ∀ {a b x}, R a b → final a x → final' b x) : Conforms test next final' b p := by
  induction p generalizing a b with
  | done x => exact hfinal hab hp
  | call o k ih =>
    refine ⟨htest hab fun r => (hp r).imp fun _ h => h.1, fun r => ?_⟩
    obtain ⟨a', hflow, hk⟩ := hp r
    exact ih r hk (hnext hab hflow)

/-- The result and the last state of a program whose operations are functions.
An operation without a result ends the program. -/
def run {σ : Type} (access : (o : Op) → σ → Option (Res o × σ)) :
    Program Op Res α → σ → Option (α × σ)
  | done a, s => some (a, s)
  | call o k, s => (access o s).bind fun (r, s') => (k r).run access s'

theorem run_bind {σ : Type} {access : (o : Op) → σ → Option (Res o × σ)}
    (p : Program Op Res α) (f : α → Program Op Res β) (s : σ) :
    (p >>= f).run access s = (p.run access s).bind fun (a, s') => (f a).run access s' := by
  induction p generalizing s with
  | done a => rfl
  | call o k ih =>
    simp only [call_bind, run, ih, Option.bind_assoc]

theorem run_bind_of_run {σ : Type} {access : (o : Op) → σ → Option (Res o × σ)} {s s' : σ} {a : α}
    (h : p.run access s = some (a, s')) (f : α → Program Op Res β) :
    (p >>= f).run access s = (f a).run access s' := by
  rw [run_bind, h]
  rfl

theorem run_lift {σ ρ : Type} {h : (o : Op') → Program Op Res (Res' o)}
    {access : (o : Op) → σ → Option (Res o × σ)} {access' : (o : Op') → ρ → Option (Res' o × ρ)}
    (get : σ → ρ) (set : σ → ρ → σ) (get_set : ∀ s x, get (set s x) = x)
    (set_set : ∀ s x y, set (set s x) y = set s y) (set_get : ∀ s, set s (get s) = s)
    (hop : ∀ o s, (h o).run access s = (access' o (get s)).map fun (r, x) => (r, set s x))
    (p : Program Op' Res' α) (s : σ) :
    (p.lift h).run access s = (p.run access' (get s)).map fun (a, x) => (a, set s x) := by
  induction p generalizing s with
  | done a => simp [lift, run, set_get]
  | call o k ih =>
    rw [lift, run_bind, hop, run]
    cases access' o (get s) with
    | none => rfl
    | some rx =>
      simp only [Option.map_some, Option.bind_some, ih, get_set]
      congr 1
      funext ay
      rw [set_set]

/-! ## Executions -/

section Semantics

variable {σ : Type} (exec : (o : Op) → σ → Res o → σ → Prop)

/-- A complete execution of a program. -/
inductive Exec : Program Op Res α → σ → α → σ → Prop where
  | done (a : α) (s : σ) : Exec (done a) s a s
  | call {o : Op} {k : Res o → Program Op Res α} {s s' s'' : σ} {r : Res o} {a : α}
      (head : exec o s r s') (tail : Exec (k r) s' a s'') : Exec (call o k) s a s''

variable {exec}

variable {p q : Program Op Res α} {f : α → Program Op Res β} {s s' s'' : σ} {J : σ → Prop}

@[simp] theorem exec_done {a b : α} : Exec exec (done a) s b s' ↔ b = a ∧ s' = s := by
  constructor
  · rintro ⟨⟩
    exact ⟨rfl, rfl⟩
  · rintro ⟨rfl, rfl⟩
    exact .done _ _

@[simp] theorem exec_call {o : Op} {k : Res o → Program Op Res α} {a : α} :
    Exec exec (call o k) s a s'' ↔ ∃ r s', exec o s r s' ∧ Exec exec (k r) s' a s'' := by
  constructor
  · rintro ⟨⟩
    exact ⟨_, _, ‹_›, ‹_›⟩
  · rintro ⟨r, s', head, tail⟩
    exact .call head tail

theorem exec_perform {o : Op} {r : Res o} (h : exec o s r s') :
    Exec exec (perform o : Program Op Res (Res o)) s r s' :=
  .call h (.done r s')

theorem exec_bind {b : β} :
    Exec exec (p >>= f) s b s'' ↔ ∃ a s', Exec exec p s a s' ∧ Exec exec (f a) s' b s'' := by
  induction p generalizing s with
  | done a =>
    simp only [done_bind, exec_done]
    constructor
    · exact fun h => ⟨a, s, ⟨rfl, rfl⟩, h⟩
    · rintro ⟨_, _, ⟨rfl, rfl⟩, h⟩
      exact h
  | call o k ih =>
    simp only [call_bind, exec_call, ih]
    constructor
    · rintro ⟨r, s₁, head, a, s', hk, hf⟩
      exact ⟨a, s', ⟨r, s₁, head, hk⟩, hf⟩
    · rintro ⟨a, s', ⟨r, s₁, head, hk⟩, hf⟩
      exact ⟨r, s₁, head, a, s', hk, hf⟩

theorem Exec.bind {a : α} {b : β} (hp : Exec exec p s a s') (hf : Exec exec (f a) s' b s'') :
    Exec exec (p >>= f) s b s'' :=
  exec_bind.2 ⟨a, s', hp, hf⟩

theorem Exec.mono {exec' : (o : Op) → σ → Res o → σ → Prop}
    (hexec : ∀ o s r s', exec o s r s' → exec' o s r s') {a : α} (h : Exec exec p s a s') :
    Exec exec' p s a s' := by
  induction h with
  | done a s => exact .done _ _
  | call head tail ih => exact .call (hexec _ _ _ _ head) ih

theorem Exec.restrict {P : Op → Prop} {a : α} (h : Exec exec p s a s') (hp : AllOps P p) :
    Exec (fun o s r s' => exec o s r s' ∧ P o) p s a s' := by
  induction h with
  | done a s => exact .done _ _
  | call head tail ih => exact .call ⟨head, hp.1⟩ (ih (hp.2 _))

/-- An execution is a path of whatever makes its steps. -/
theorem Exec.reaches {γ : Type} {R : γ → γ → Prop} {f : Program Op Res α → σ → γ}
    (hstep : ∀ {o k s r s'}, exec o s r s' → R (f (.call o k) s) (f (k r) s')) {a : α}
    (h : Exec exec p s a s') : Relation.ReflTransGen R (f p s) (f (.done a) s') := by
  induction h with
  | done a s => exact .refl
  | call head tail ih => exact .head (hstep head) ih

theorem exec_of_run {access : (o : Op) → σ → Option (Res o × σ)}
    (haccess : ∀ o s r s', access o s = some (r, s') → exec o s r s') {a : α}
    (hrun : p.run access s = some (a, s')) : Exec exec p s a s' := by
  induction p generalizing s with
  | done b =>
    cases hrun
    exact .done _ _
  | call o k ih =>
    obtain ⟨⟨r, s₁⟩, hhead, htail⟩ := Option.bind_eq_some_iff.1 hrun
    exact .call (haccess o s r s₁ hhead) (ih r htail)

variable (exec)

/-- An execution up to the point where `q` is left to be performed. -/
inductive Steps : Program Op Res α → σ → Program Op Res α → σ → Prop where
  | refl (p : Program Op Res α) (s : σ) : Steps p s p s
  | call {o : Op} {k : Res o → Program Op Res α} {q : Program Op Res α} {s s' s'' : σ}
      (r : Res o) (head : exec o s r s') (tail : Steps (k r) s' q s'') :
      Steps (call o k) s q s''

variable {exec}

theorem Steps.bind (hp : Steps exec p s q s') : Steps exec (p >>= f) s (q >>= f) s' := by
  induction hp with
  | refl p s => exact .refl _ s
  | call r head tail ih => exact .call r head ih

theorem Exec.steps_bind {a : α} (h : Exec exec p s a s') : Steps exec (p >>= f) s (f a) s' := by
  induction h with
  | done a s => exact .refl _ s
  | call head tail ih => exact .call _ head ih

theorem Exec.steps {a : α} (h : Exec exec p s a s') : Steps exec p s (.done a) s' := by
  rw [← bind_done p]
  exact h.steps_bind

variable (exec)

/-- The invariant `I` holds whenever the program can be cut off, and `Q` when it
has finished. -/
def Safe (I : σ → Prop) (Q : α → σ → Prop) : Program Op Res α → σ → Prop
  | done a, s => I s ∧ Q a s
  | call o k, s => I s ∧ ∀ r s', exec o s r s' → Safe I Q (k r) s'

variable {exec} {I : σ → Prop} {Q : α → σ → Prop}

theorem Safe.inv (h : Safe exec I Q p s) : I s := by
  cases p with
  | done a => exact h.1
  | call o k => exact h.1

/-- The postcondition holds after every complete execution. -/
theorem Safe.post {a : α} (hp : Safe exec I Q p s) (h : Exec exec p s a s') : Q a s' := by
  induction h with
  | done a s => exact hp.2
  | call head tail ih => exact ih (hp.2 _ _ head)

theorem Safe.last {a : α} (hp : Safe exec I Q p s) (h : Exec exec p s a s') : I s' := by
  induction h with
  | done a s => exact hp.1
  | call head tail ih => exact ih (hp.2 _ _ head)

/-- A program that is cut off leaves the rest safe. -/
theorem Safe.steps (hp : Safe exec I Q p s) (h : Steps exec p s q s') : Safe exec I Q q s' := by
  induction h with
  | refl p s => exact hp
  | call r head tail ih => exact ih (hp.2 r _ head)

/-- The first part keeps more than the whole. -/
theorem Safe.bind_of_imp {R : β → σ → Prop} (hp : Safe exec I Q p s) (hI : ∀ s, I s → J s)
    (hf : ∀ a s, I s → Q a s → Safe exec J R (f a) s) : Safe exec J R (p >>= f) s := by
  induction p generalizing s with
  | done a => exact hf a s hp.1 hp.2
  | call o k ih => exact ⟨hI s hp.1, fun r s' hexec => ih r (hp.2 r s' hexec)⟩

theorem Safe.bind {R : β → σ → Prop} (hp : Safe exec I Q p s)
    (hf : ∀ a s, I s → Q a s → Safe exec I R (f a) s) : Safe exec I R (p >>= f) s :=
  hp.bind_of_imp (fun _ h => h) hf

theorem Safe.mono {R : α → σ → Prop} (hp : Safe exec I Q p s) (hI : ∀ s, I s → J s)
    (hQ : ∀ a s, I s → Q a s → R a s) : Safe exec J R p s := by
  rw [← bind_done p]
  exact hp.bind_of_imp hI fun a s hs h => ⟨hI s hs, hQ a s hs h⟩

theorem Safe.imp {R : α → σ → Prop} (hp : Safe exec I Q p s)
    (hQ : ∀ a s, I s → Q a s → R a s) : Safe exec I R p s :=
  hp.mono (fun _ h => h) hQ

theorem Safe.inter {R : α → σ → Prop} (hp : Safe exec I Q p s) (hp' : Safe exec J R p s) :
    Safe exec (fun s => I s ∧ J s) (fun a s => Q a s ∧ R a s) p s := by
  induction p generalizing s with
  | done a => exact ⟨⟨hp.1, hp'.1⟩, hp.2, hp'.2⟩
  | call o k ih =>
    exact ⟨⟨hp.1, hp'.1⟩, fun r s' hexec => ih r (hp.2 r s' hexec) (hp'.2 r s' hexec)⟩

theorem Safe.and {K : σ → Prop} {P : Op → Prop}
    (hK : ∀ o s r s', P o → exec o s r s' → K s → K s') (hp : Safe exec I Q p s)
    (hops : AllOps P p) (hs : K s) :
    Safe exec (fun s => I s ∧ K s) (fun a s => Q a s ∧ K s) p s := by
  induction p generalizing s with
  | done a => exact ⟨⟨hp.1, hs⟩, hp.2, hs⟩
  | call o k ih =>
    exact ⟨⟨hp.1, hs⟩, fun r s' hexec =>
      ih r (hp.2 r s' hexec) (hops.2 r) (hK o s r s' hops.1 hexec hs)⟩

theorem Safe.track {T : σ → Prop} (hT : ∀ o s r s', exec o s r s' → I s' → T s → T s')
    (hp : Safe exec I Q p s) (hs : T s) :
    Safe exec (fun s => I s ∧ T s) (fun a s => Q a s ∧ T s) p s := by
  induction p generalizing s with
  | done a => exact ⟨⟨hp.1, hs⟩, hp.2, hs⟩
  | call o k ih =>
    refine ⟨⟨hp.1, hs⟩, fun r s' hexec => ?_⟩
    have hrest := hp.2 r s' hexec
    exact ih r hrest (hT o s r s' hexec hrest.inv hs)

theorem Safe.comap {τ : Type} {exec' : (o : Op) → τ → Res o → τ → Prop} (f : τ → σ)
    (hexec : ∀ o t r t', exec' o t r t' → exec o (f t) r (f t')) {t : τ}
    (hp : Safe exec I Q p (f t)) : Safe exec' (fun t => I (f t)) (fun a t => Q a (f t)) p t := by
  induction p generalizing t with
  | done a => exact hp
  | call o k ih => exact ⟨hp.1, fun r t' h => ih r (hp.2 r _ (hexec o t r t' h))⟩

variable (exec)

/-- The operations, with their results recorded. -/
def logged (o : Op) (s : σ × List ((o : Op) × Res o)) (r : Res o)
    (s' : σ × List ((o : Op) × Res o)) : Prop :=
  exec o s.1 r s'.1 ∧ s'.2 = s.2 ++ [⟨o, r⟩]

variable {exec}

theorem Exec.logged {a : α} (h : Exec exec p s a s') (log : List ((o : Op) × Res o)) :
    ∃ log', Exec (logged exec) p (s, log) a (s', log') := by
  induction h generalizing log with
  | done a s => exact ⟨log, .done a _⟩
  | call head tail ih =>
    obtain ⟨log', htail⟩ := ih (log ++ [⟨_, _⟩])
    exact ⟨log', .call ⟨head, rfl⟩ htail⟩

theorem Safe.logged (hp : Safe exec I Q p s) (log : List ((o : Op) × Res o)) :
    Safe (logged exec) (fun t => I t.1) (fun a t => Q a t.1) p (s, log) :=
  hp.comap Prod.fst fun _ _ _ _ h => h.1

variable {p : Program Op Res α} {s : σ}

variable (exec)

/-- The program cannot get stuck, and `Q` holds when it has finished. -/
def Total (Q : α → σ → Prop) : Program Op Res α → σ → Prop
  | done a, s => Q a s
  | call o k, s => (∃ r s', exec o s r s') ∧ ∀ r s', exec o s r s' → Total Q (k r) s'

variable {exec}

theorem Total.bind {f : α → Program Op Res β} {R : β → σ → Prop} (hp : Total exec Q p s)
    (hf : ∀ a s, Q a s → Total exec R (f a) s) : Total exec R (p >>= f) s := by
  induction p generalizing s with
  | done a => exact hf a s hp
  | call o k ih => exact ⟨hp.1, fun r s' hexec => ih r (hp.2 r s' hexec)⟩

theorem Total.mono {R : α → σ → Prop} (hp : Total exec Q p s) (hQ : ∀ a s, Q a s → R a s) :
    Total exec R p s := by
  rw [← bind_done p]
  exact hp.bind hQ

/-- Such a program has an execution. -/
theorem Total.exists_exec (hp : Total exec Q p s) : ∃ a s', Exec exec p s a s' ∧ Q a s' := by
  induction p generalizing s with
  | done a => exact ⟨a, s, .done a s, hp⟩
  | call o k ih =>
    obtain ⟨⟨r, s', head⟩, hrest⟩ := hp
    obtain ⟨a, s'', tail, hQ⟩ := ih r (hrest r s' head)
    exact ⟨a, s'', .call head tail, hQ⟩

theorem safe_true (p : Program Op Res α) (s : σ) :
    Safe exec (fun _ => True) (fun _ _ => True) p s := by
  induction p generalizing s with
  | done a => exact ⟨trivial, trivial⟩
  | call o k ih => exact ⟨trivial, fun r s' _ => ih r s'⟩

theorem safe_of_forall (hQ : ∀ a s, Q a s) (p : Program Op Res α) (s : σ) :
    Safe exec (fun _ => True) Q p s :=
  (safe_true p s).imp fun a s _ _ => hQ a s

theorem Safe.lift {Op' : Type} {Res' : Op' → Type} {ρ : Type}
    {exec' : (o : Op') → ρ → Res' o → ρ → Prop} {h : (o : Op') → Program Op Res (Res' o)}
    (get : σ → ρ) (set : σ → ρ → σ) (get_set : ∀ s x, get (set s x) = x)
    (set_set : ∀ s x y, set (set s x) y = set s y) (set_get : ∀ s, set s (get s) = s)
    (hop : ∀ o s {R : Res' o → σ → Prop}, I s → (∀ r x, exec' o (get s) r x → I (set s x) ∧
      R r (set s x)) → Safe exec I R (h o) s)
    {J : ρ → Prop} {R : α → ρ → Prop} {p : Program Op' Res' α} (hp : Safe exec' J R p (get s))
    (hI : ∀ x, J x → I (set s x)) (hQ : ∀ a x, J x → R a x → Q a (set s x)) :
    Safe exec I Q (p.lift h) s := by
  have hmain : ∀ (p : Program Op' Res' α) x, Safe exec' J R p x →
      Safe exec I Q (p.lift h) (set s x) := by
    intro p
    induction p with
    | done a => exact fun x hx => ⟨hI x hx.1, hQ a x hx.1 hx.2⟩
    | call o k ih =>
      intro x hx
      have hhead : Safe exec I (fun r t => ∃ y, t = set s y ∧ Safe exec' J R (k r) y)
          (h o) (set s x) := by
        refine hop o _ (hI x hx.1) fun r y hexec => ?_
        rw [get_set] at hexec
        have hy := hx.2 r y hexec
        rw [set_set]
        exact ⟨hI y hy.inv, y, rfl, hy⟩
      refine hhead.bind ?_
      rintro r _ - ⟨y, rfl, hy⟩
      exact ih r y hy
  have := hmain p (get s) hp
  rwa [set_get] at this

end Semantics

end Program

end Lib
