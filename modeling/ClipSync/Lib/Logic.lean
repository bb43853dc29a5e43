import ClipSync.Lib.Outline

/-!
# Triples that compose

The operations of a program may be the points at which it is cut off (`Safe`), or may come
under the interference of other threads (`Outline`). What the arguments about such programs
have in common is the rule for what follows a program, so that a proof that goes along the
text of a program and uses this rule only is a proof for all of them.
-/

namespace Lib.Program

variable {Op : Type} {Res : Op → Type} {σ : Type}

/-- A kind of triple. The invariant holds wherever a program goes on. -/
structure Logic (Op : Type) (Res : Op → Type) (σ : Type) where
  Inv : σ → Prop
  Triple : {α : Type} → (α → σ → Prop) → Program Op Res α → σ → Prop
  bind : ∀ {α β : Type} {Q : α → σ → Prop} {R : β → σ → Prop} {p : Program Op Res α}
    {f : α → Program Op Res β} {s : σ}, Inv s → Triple Q p s →
    (∀ a s', Inv s' → Q a s' → Triple R (f a) s') → Triple R (p >>= f) s

namespace Logic

abbrev safe (exec : (o : Op) → σ → Res o → σ → Prop) (I : σ → Prop) : Logic Op Res σ where
  Inv := I
  Triple := Safe exec I
  bind _ hp hf := Safe.bind hp hf

abbrev outline (exec : (o : Op) → σ → Res o → σ → Prop) (I : σ → Prop)
    (rely : σ → σ → Prop) (hrefl : ∀ s, rely s s) (test : Op → σ → Prop) : Logic Op Res σ where
  Inv := I
  Triple := Outline exec I rely test
  bind hs hp hf := Outline.bind hrefl hs hp hf

end Logic

/-- What follows a fallible program. -/
def After {ε : Type} (ok : Prop) (failed : ε → Prop) : Except ε Unit → Prop
  | .ok () => ok
  | .error e => failed e

theorem After.intro {ε : Type} {ok : Prop} {failed : ε → Prop} {r : Except ε Unit}
    (hok : r = .ok () → ok) (hfailed : ∀ e, failed e) : After ok failed r := by
  cases r with
  | ok u => exact hok rfl
  | error e => exact hfailed e

end Lib.Program
