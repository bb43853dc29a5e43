import ClipSync.Lib.Program

/-!
# Clients

A client holds an object and makes calls on it, one at a time. A call is a program over
some state; it returns a result and the object that is held from then on. Between any two
operations the client can be cut off.
-/

namespace Lib

open Program

/-- `object` is what the client held before the running call, if there is one. -/
structure Client (Op : Type) (Res : Op → Type) (C M R σ γ : Type) where
  state : σ
  object : M
  running : Option (C × Program Op Res (R × M))
  record : γ

/-- The programs of the calls, what an operation does, and what is recorded when a call
begins and when it returns. `cut` says what may be left of the state, the object and the
record when a client is cut off. -/
structure Service (Op : Type) (Res : Op → Type) (C M R σ γ : Type) where
  program : C → M → Option (Program Op Res (R × M))
  exec : (o : Op) → σ → Res o → σ → Prop
  begins : C → M → σ → γ → γ
  returns : R × M → γ → γ
  cut : Client Op Res C M R σ γ → σ → M → γ → Prop

variable {Op : Type} {Res : Op → Type} {C M R σ γ : Type} {x y : Client Op Res C M R σ γ}
  {c : C} {p : Program Op Res (R × M)} {r : R × M} {s : σ}

namespace Client

/-- The steps of a client. -/
inductive Step (service : Service Op Res C M R σ γ) (x : Client Op Res C M R σ γ) :
    Client Op Res C M R σ γ → Prop where
  | begin {c : C} {p : Program Op Res (R × M)} (hidle : x.running = none)
      (hcall : service.program c x.object = some p) :
      Step service x { x with
        running := some (c, p)
        record := service.begins c x.object x.state x.record }
  | access {c : C} {o : Op} {k : Res o → Program Op Res (R × M)} {r : Res o} {s : σ}
      (hrunning : x.running = some (c, .call o k)) (hexec : service.exec o x.state r s) :
      Step service x { x with state := s, running := some (c, k r) }
  | finish {c : C} {r : R × M} (hrunning : x.running = some (c, .done r)) :
      Step service x { x with
        object := r.2
        running := none
        record := service.returns r x.record }
  | cut {s : σ} {m : M} {g : γ} (hcut : service.cut x s m g) : Step service x ⟨s, m, none, g⟩

abbrev Reaches (service : Service Op Res C M R σ γ) :
    Client Op Res C M R σ γ → Client Op Res C M R σ γ → Prop :=
  Relation.ReflTransGen (Step service)

variable {service : Service Op Res C M R σ γ}

theorem reaches_return (hidle : x.running = none) (hcall : service.program c x.object = some p)
    (hexec : Exec service.exec p x.state r s) :
    x.Reaches service { x with
      state := s
      running := some (c, .done r)
      record := service.begins c x.object x.state x.record } := by
  have hrest := hexec.reaches (R := Step service) (f := fun q s => { x with
    state := s
    running := some (c, q)
    record := service.begins c x.object x.state x.record }) fun hexec => .access rfl hexec
  exact .head (.begin hidle hcall) hrest

/-- A call that is not cut off. -/
theorem reaches_call (hidle : x.running = none) (hcall : service.program c x.object = some p)
    (hexec : Exec service.exec p x.state r s) :
    x.Reaches service
      ⟨s, r.2, none, service.returns r (service.begins c x.object x.state x.record)⟩ :=
  (reaches_return hidle hcall hexec).tail (.finish rfl)

/-- `Idle` between calls, and during one a triple for the rest of its program. -/
def Consistent (service : Service Op Res C M R σ γ) (Idle : M → σ → γ → Prop)
    (I : C → M → γ → σ → Prop) (Q : C → M → γ → R × M → σ → Prop)
    (x : Client Op Res C M R σ γ) : Prop :=
  match x.running with
  | none => Idle x.object x.state x.record
  | some (c, p) => Safe service.exec (I c x.object x.record) (Q c x.object x.record) p x.state

end Client

/-- What has to be shown for an invariant of a client. -/
structure Service.Keeps (service : Service Op Res C M R σ γ) (Idle : M → σ → γ → Prop)
    (I : C → M → γ → σ → Prop) (Q : C → M → γ → R × M → σ → Prop) : Prop where
  call : ∀ {c m p s g}, service.program c m = some p → Idle m s g →
    Safe service.exec (I c m (service.begins c m s g)) (Q c m (service.begins c m s g)) p s
  finish : ∀ {c m r s g}, I c m g s → Q c m g r s → Idle r.2 s (service.returns r g)
  cutIdle : ∀ {x s m g}, service.cut x s m g → Idle x.object x.state x.record → Idle m s g
  cutBusy : ∀ {x s m g c}, service.cut x s m g → I c x.object x.record x.state → Idle m s g

namespace Client

variable {service : Service Op Res C M R σ γ} {Idle : M → σ → γ → Prop}
  {I : C → M → γ → σ → Prop} {Q : C → M → γ → R × M → σ → Prop}

theorem Consistent.step (hkeeps : service.Keeps Idle I Q) (h : x.Consistent service Idle I Q)
    (hstep : x.Step service y) : y.Consistent service Idle I Q := by
  unfold Consistent at h
  cases hstep with
  | begin hidle hcall =>
    rw [hidle] at h
    exact hkeeps.call hcall h
  | access hrunning hexec =>
    rw [hrunning] at h
    exact h.2 _ _ hexec
  | finish hrunning =>
    rw [hrunning] at h
    exact hkeeps.finish h.1 h.2
  | cut hcut =>
    split at h
    · exact hkeeps.cutIdle hcut h
    · exact hkeeps.cutBusy hcut h.inv

/-- What is kept holds in every run. -/
theorem Reaches.consistent (hrun : x.Reaches service y) (hkeeps : service.Keeps Idle I Q)
    (h : x.Consistent service Idle I Q) : y.Consistent service Idle I Q := by
  induction hrun with
  | refl => exact h
  | tail _ hstep ih => exact ih.step hkeeps hstep

end Client

end Lib
