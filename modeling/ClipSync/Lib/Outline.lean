import ClipSync.Lib.Threads

/-!
# Proof outlines under interference

A thread cannot know what the others have done between two of its operations, only
that they have kept the invariant of the shared state and what it may rely on. An
outline of a program is a proof that every operation passes its test in whatever state
it comes to be performed in. `RelyGuarantee` is the rule that composes the outlines of
all threads: an operation that passes its test must keep the invariant and give the
other threads what they rely on.
-/

namespace Lib

namespace Program

variable {Op : Type} {Res : Op → Type} {α β σ : Type}
  (exec : (o : Op) → σ → Res o → σ → Prop) (I : σ → Prop) (rely : σ → σ → Prop)
  (test : Op → σ → Prop)

/-- Every operation passes its test after any interference, and so does the
postcondition. -/
def Outline (Q : α → σ → Prop) : Program Op Res α → σ → Prop
  | done a, s => ∀ s₁, I s₁ → rely s s₁ → Q a s₁
  | call o k, s => ∀ s₁, I s₁ → rely s s₁ →
      test o s₁ ∧ ∀ r s', exec o s₁ r s' → I s' → Outline Q (k r) s'

variable {exec I rely test} {Q : α → σ → Prop} {p : Program Op Res α} {s : σ}

/-- Interference leaves an outline as it is. -/
theorem Outline.stable (htrans : ∀ a b c, rely a b → rely b c → rely a c)
    (h : Outline exec I rely test Q p s) {s' : σ} (hs : rely s s') :
    Outline exec I rely test Q p s' := by
  cases p with
  | done a | call o k => exact fun s₁ hI hrely => h s₁ hI (htrans s s' s₁ hs hrely)

/-- What the other threads cannot make false. -/
def Stable (I : σ → Prop) (rely : σ → σ → Prop) (P : σ → Prop) : Prop :=
  ∀ s s', I s' → P s → rely s s' → P s'

theorem Outline.mono {R : α → σ → Prop} (h : Outline exec I rely test Q p s)
    (hQ : ∀ a s, Q a s → R a s) : Outline exec I rely test R p s := by
  induction p generalizing s with
  | done a => exact fun s₁ hI hrely => hQ a s₁ (h s₁ hI hrely)
  | call o k ih =>
    intro s₁ hI hrely
    obtain ⟨htest, hrest⟩ := h s₁ hI hrely
    exact ⟨htest, fun r s' hexec hI' => ih r (hrest r s' hexec hI')⟩

theorem Outline.bind (hrefl : ∀ s, rely s s) {f : α → Program Op Res β} {R : β → σ → Prop}
    (hs : I s) (hp : Outline exec I rely test Q p s)
    (hf : ∀ a s, I s → Q a s → Outline exec I rely test R (f a) s) :
    Outline exec I rely test R (p >>= f) s := by
  induction p generalizing s with
  | done a => exact hf a s hs (hp s hs (hrefl s))
  | call o k ih =>
    intro s₁ hI hrely
    obtain ⟨htest, hrest⟩ := hp s₁ hI hrely
    exact ⟨htest, fun r s' hexec hI' => ih r hI' (hrest r s' hexec hI')⟩

end Program

namespace Threads

open Program

variable {Op : Type} {Res : Op → Type} {ι σ : Type} {α : ι → Type}

/-- The threads have outlines, and operations that pass their tests keep the invariant
and what the other threads rely on. -/
structure RelyGuarantee (sys : System Op Res α σ) (I : σ → Prop) (rely : ι → σ → σ → Prop)
    (test : ι → Op → σ → Prop) (post : (t : ι) → α t → σ → Prop) : Prop where
  refl : ∀ t s, rely t s s
  trans : ∀ t a b c, rely t a b → rely t b c → rely t a c
  access : ∀ {t o s r s'}, I s → test t o s → sys.exec t o s r s' →
    I s' ∧ ∀ u, u ≠ t → rely u s s'
  enter : ∀ {t a s p s'}, I s → (∀ v, a = some v → post t v s) → sys.enter t a s p s' →
    I s' ∧ (∀ u, u ≠ t → rely u s s') ∧
      Outline (sys.exec t) I (rely t) (test t) (post t) p s'

namespace RelyGuarantee

variable {sys : System Op Res α σ} {I : σ → Prop} {rely : ι → σ → σ → Prop}
  {test : ι → Op → σ → Prop} {post : (t : ι) → α t → σ → Prop}

theorem invariant (h : RelyGuarantee sys I rely test post) :
    Invariant sys I fun t p s => Outline (sys.exec t) I (rely t) (test t) (post t) p s where
  enter {t a s p s'} hI hlast henter := by
    have hpost : ∀ v, a = some v → post t v s := fun v hv => hlast v hv s hI (h.refl t s)
    obtain ⟨hI', hothers, hp⟩ := h.enter hI hpost henter
    exact ⟨hI', hp, fun u hu q hq => hq.stable (h.trans u) (hothers u hu)⟩
  access {t o k s r s'} hI hcall hexec := by
    obtain ⟨htest, hrest⟩ := hcall s hI (h.refl t s)
    obtain ⟨hI', hothers⟩ := h.access hI htest hexec
    exact ⟨hI', hrest r s' hexec hI', fun u hu q hq => hq.stable (h.trans u) (hothers u hu)⟩

variable {x y : Threads Op Res α σ}

theorem holds_idle (hI : I x.shared) (hidle : ∀ t, x.threads t = none) :
    Holds I (fun t p s => Outline (sys.exec t) I (rely t) (test t) (post t) p s) x := by
  refine ⟨hI, fun t p hp => ?_⟩
  rw [hidle t] at hp
  cases hp

/-- In every state of every run the invariant holds and the operation a thread comes to
next passes its test. -/
theorem reaches [DecidableEq ι] (h : RelyGuarantee sys I rely test post) (hI : I x.shared)
    (hidle : ∀ t, x.threads t = none) (hrun : Reaches sys x y) :
    I y.shared ∧
      (∀ t o k, y.threads t = some (call o k) → test t o y.shared) ∧
      ∀ t v, y.threads t = some (done v) → post t v y.shared := by
  obtain ⟨hI', hlocal⟩ := h.invariant.reaches (holds_idle hI hidle) hrun
  refine ⟨hI', fun t o k hcall => ?_, fun t v hdone => ?_⟩
  · exact (hlocal t _ hcall y.shared hI' (h.refl t _)).1
  · exact hlocal t _ hdone y.shared hI' (h.refl t _)

end RelyGuarantee

end Threads

end Lib
