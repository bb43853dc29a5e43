import Mathlib.Data.List.Nodup
import Mathlib.Data.List.Perm.Basic

/-!
# Custody

Items that are handed from place to place. Each place has a list of the items that are
there; an item is at one place only, and there once. Handing a part of the items of one
place to another keeps this, and keeps which items there are.
-/

namespace Lib

variable {P α : Type}

/-- No item is at two places or twice at one. -/
structure Custody (lists : P → List α) : Prop where
  nodup : ∀ p, (lists p).Nodup
  unique : ∀ p q a, a ∈ lists p → a ∈ lists q → p = q

/-- A part of the items at `p` has been handed to `q`. -/
structure Handed (lists lists' : P → List α) (p q : P) (part : List α) : Prop where
  ne : p ≠ q
  taken : (lists p).Perm (lists' p ++ part)
  given : (lists' q).Perm (lists q ++ part)
  others : ∀ r, r ≠ p → r ≠ q → lists' r = lists r

variable {lists lists' : P → List α} {p q : P} {part : List α} {a : α}

theorem Handed.mem_of_mem_part (h : Handed lists lists' p q part) (ha : a ∈ part) : a ∈ lists p :=
  h.taken.mem_iff.2 (List.mem_append_right _ ha)

theorem Custody.mem_handed (h : Custody lists) (hhanded : Handed lists lists' p q part) {r : P}
    (ha : a ∈ lists' r) : a ∈ part ∧ r = q ∨ a ∉ part ∧ a ∈ lists r := by
  by_cases hpart : a ∈ part
  · refine .inl ⟨hpart, ?_⟩
    by_contra hrq
    by_cases hrp : r = p
    · subst hrp
      have hnodup := hhanded.taken.nodup_iff.1 (h.nodup r)
      exact List.disjoint_of_nodup_append hnodup ha hpart
    · rw [hhanded.others r hrp hrq] at ha
      exact hrp (h.unique r p a ha (hhanded.mem_of_mem_part hpart))
  · refine .inr ⟨hpart, ?_⟩
    by_cases hrp : r = p
    · subst hrp
      exact hhanded.taken.mem_iff.2 (List.mem_append_left _ ha)
    by_cases hrq : r = q
    · subst hrq
      exact (List.mem_append.1 (hhanded.given.mem_iff.1 ha)).resolve_right hpart
    · rwa [hhanded.others r hrp hrq] at ha

theorem Custody.hand (h : Custody lists) (hhanded : Handed lists lists' p q part) :
    Custody lists' where
  nodup r := by
    have htaken := hhanded.taken.nodup_iff.1 (h.nodup p)
    by_cases hrp : r = p
    · subst hrp
      exact htaken.of_append_left
    by_cases hrq : r = q
    · subst hrq
      rw [hhanded.given.nodup_iff, List.nodup_append']
      refine ⟨h.nodup r, htaken.of_append_right, fun a ha hpart => ?_⟩
      exact hrp (h.unique r p a ha (hhanded.mem_of_mem_part hpart))
    · rw [hhanded.others r hrp hrq]
      exact h.nodup r
  unique r s a hr hs := by
    rcases h.mem_handed hhanded hr with ⟨hpart, rfl⟩ | ⟨hpart, hold⟩
    · rcases h.mem_handed hhanded hs with ⟨-, rfl⟩ | ⟨hnot, -⟩
      · rfl
      · exact absurd hpart hnot
    · rcases h.mem_handed hhanded hs with ⟨hnot, -⟩ | ⟨-, hold'⟩
      · exact absurd hnot hpart
      · exact h.unique r s a hold hold'

theorem Handed.exists_mem (h : Handed lists lists' p q part) {r : P} (ha : a ∈ lists r) :
    ∃ r, a ∈ lists' r := by
  by_cases hrp : r = p
  · subst hrp
    rcases List.mem_append.1 (h.taken.mem_iff.1 ha) with hrest | hpart
    · exact ⟨r, hrest⟩
    · exact ⟨q, h.given.mem_iff.2 (List.mem_append_right _ hpart)⟩
  by_cases hrq : r = q
  · subst hrq
    exact ⟨r, h.given.mem_iff.2 (List.mem_append_left _ ha)⟩
  · exact ⟨r, by rwa [h.others r hrp hrq]⟩

theorem Handed.exists_mem_of_mem (h : Handed lists lists' p q part) {r : P}
    (ha : a ∈ lists' r) : ∃ r, a ∈ lists r := by
  by_cases hrp : r = p
  · subst hrp
    exact ⟨r, h.taken.mem_iff.2 (List.mem_append_left _ ha)⟩
  by_cases hrq : r = q
  · subst hrq
    rcases List.mem_append.1 (h.given.mem_iff.1 ha) with hold | hpart
    · exact ⟨r, hold⟩
    · exact ⟨p, h.mem_of_mem_part hpart⟩
  · exact ⟨r, by rwa [h.others r hrp hrq] at ha⟩

/-- A new item arrives. -/
theorem Custody.insert (h : Custody lists) (hfresh : ∀ r, a ∉ lists r)
    (hgiven : (lists' q).Perm (a :: lists q)) (hothers : ∀ r, r ≠ q → lists' r = lists r) :
    Custody lists' := by
  have hmem : ∀ {r b}, b ∈ lists' r → b = a ∧ r = q ∨ b ≠ a ∧ b ∈ lists r := by
    intro r b hb
    by_cases hrq : r = q
    · subst hrq
      rcases List.mem_cons.1 (hgiven.mem_iff.1 hb) with rfl | hold
      · exact .inl ⟨rfl, rfl⟩
      · exact .inr ⟨fun heq => hfresh r (heq ▸ hold), hold⟩
    · rw [hothers r hrq] at hb
      exact .inr ⟨fun heq => hfresh r (heq ▸ hb), hb⟩
  refine ⟨fun r => ?_, fun r s b hr hs => ?_⟩
  · by_cases hrq : r = q
    · subst hrq
      exact hgiven.nodup_iff.2 (List.nodup_cons.2 ⟨hfresh r, h.nodup r⟩)
    · rw [hothers r hrq]
      exact h.nodup r
  · rcases hmem hr with ⟨rfl, rfl⟩ | ⟨hne, hold⟩
    · rcases hmem hs with ⟨-, rfl⟩ | ⟨hnot, -⟩
      · rfl
      · exact absurd rfl hnot
    · rcases hmem hs with ⟨heq, -⟩ | ⟨-, hold'⟩
      · exact absurd heq hne
      · exact h.unique r s b hold hold'

end Lib
