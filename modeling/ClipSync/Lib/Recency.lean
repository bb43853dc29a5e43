import Mathlib.Data.Finset.Card
import Mathlib.Data.Finset.Dedup
import Mathlib.Data.List.DropRight

/-!
# Values in the order of their latest use

A value is recent if few others have been used since. A ring of bounded length that lets
new values in at the back, and keeps the values it knows where they are, has the recent
values as long as a value leaves it only when all the others have been used since.
-/

namespace Lib.Recency

variable {α β : Type} [DecidableEq α] [DecidableEq β] {uses : List α} {x y : α} {n : ℕ}

/-- The value has been used, and fewer than `n` distinct values since. -/
def Recent (n : ℕ) (uses : List α) (x : α) : Prop :=
  ∃ older newer, uses = older ++ x :: newer ∧ newer.toFinset.card < n

theorem Recent.map (h : Recent n uses x) (f : α → β) : Recent n (uses.map f) (f x) := by
  obtain ⟨older, newer, rfl, hcard⟩ := h
  refine ⟨older.map f, newer.map f, by simp, lt_of_le_of_lt ?_ hcard⟩
  have himage : (newer.map f).toFinset = newer.toFinset.image f := by
    ext y
    simp
  rw [himage]
  exact Finset.card_image_le

/-! ## The ring -/

/-- A new value enters at the back; a known one stays where it is. -/
def register (n : ℕ) (ring : List α) (x : α) : List α :=
  if x ∈ ring then ring else (ring ++ [x]).rtake n

def ring (n : ℕ) (uses : List α) : List α := uses.foldl (register n) []

theorem ring_concat (n : ℕ) (uses : List α) (x : α) :
    ring n (uses ++ [x]) = register n (ring n uses) x := by
  simp [ring]

theorem register_eq (n : ℕ) (ring : List α) (x : α) :
    register n ring x = ring ∨ ∃ k, register n ring x = (ring ++ [x]).drop k ∧
      (register n ring x).length ≤ n := by
  rw [register]
  split
  · exact .inl rfl
  · refine .inr ⟨_, rfl, ?_⟩
    rw [List.rtake, List.length_drop]
    omega

theorem length_ring_le (n : ℕ) (uses : List α) : (ring n uses).length ≤ n := by
  induction uses using List.reverseRecOn with
  | nil => exact Nat.zero_le n
  | append_singleton uses x ih =>
    rw [ring_concat]
    rcases register_eq n (ring n uses) x with heq | ⟨k, -, hlength⟩
    · rw [heq]
      exact ih
    · exact hlength

theorem ring_sublist (n : ℕ) (uses : List α) : (ring n uses).Sublist uses := by
  induction uses using List.reverseRecOn with
  | nil => exact List.Sublist.refl []
  | append_singleton uses x ih =>
    rw [ring_concat]
    rcases register_eq n (ring n uses) x with heq | ⟨k, heq, -⟩
    · rw [heq]
      exact ih.trans (List.sublist_append_left uses [x])
    · rw [heq]
      exact (List.drop_sublist k _).trans (ih.append_right [x])

theorem nodup_ring (n : ℕ) (uses : List α) : (ring n uses).Nodup := by
  induction uses using List.reverseRecOn with
  | nil => exact List.nodup_nil
  | append_singleton uses x ih =>
    rw [ring_concat, register]
    split
    · exact ih
    · rename_i hnew
      have hnodup : (ring n uses ++ [x]).Nodup :=
        List.nodup_append_comm.2 (List.nodup_cons.2 ⟨hnew, ih⟩)
      exact hnodup.sublist (List.drop_sublist _ _)

/-- Names for the values change nothing. -/
theorem ring_map {f : α → β} (hf : Function.Injective f) (n : ℕ) (uses : List α) :
    ring n (uses.map f) = (ring n uses).map f := by
  induction uses using List.reverseRecOn with
  | nil => rfl
  | append_singleton uses x ih =>
    rw [List.map_append, List.map_singleton, ring_concat, ring_concat, ih, register, register]
    by_cases hmem : x ∈ ring n uses
    · rw [if_pos hmem, if_pos (List.mem_map_of_mem hmem)]
    · rw [if_neg hmem, if_neg (by simpa [hf.eq_iff] using hmem)]
      simp [List.rtake, List.map_drop]

/-! ## What leaves the ring -/

/-- If the value drives the oldest one out of the ring, the rest of the ring has been used
since that one was. -/
def Timely (n : ℕ) (uses ring : List α) (x : α) : Prop :=
  x ∉ ring → ring.length = n → ∀ oldest rest, ring = oldest :: rest →
    ∃ newer, newer <:+ uses ∧ oldest ∉ newer ∧ rest ⊆ newer

theorem Recent.exists_since (h : Recent n (uses ++ [x]) y) (hne : y ≠ x) :
    ∃ older newer, uses = older ++ y :: newer ∧ (newer ++ [x]).toFinset.card < n := by
  obtain ⟨older, newer, huses, hcard⟩ := h
  rcases List.eq_nil_or_concat' newer with rfl | ⟨front, last, rfl⟩
  · exact absurd (List.singleton_inj.1 (List.append_inj_right' huses rfl)).symm hne
  · have hsplit : uses ++ [x] = (older ++ y :: front) ++ [last] := by simpa using huses
    obtain rfl := List.singleton_inj.1 (List.append_inj_right' hsplit rfl)
    exact ⟨older, front, List.append_inj_left' hsplit rfl, hcard⟩

theorem Recent.of_concat (h : Recent n (uses ++ [x]) y) (hne : y ≠ x) : Recent n uses y := by
  obtain ⟨older, newer, huses, hcard⟩ := h.exists_since hne
  refine ⟨older, newer, huses, lt_of_le_of_lt (Finset.card_le_card fun z hz => ?_) hcard⟩
  simp [List.mem_toFinset.1 hz]

/-- A value that leaves the ring in time is no longer recent. -/
theorem not_recent_of_used {rest newer : List α} (hnodup : rest.Nodup) (hx : x ∉ y :: rest)
    (hnewer : newer <:+ uses) (hy : y ∉ newer) (hrest : rest ⊆ newer) :
    ¬ Recent (rest.length + 1) (uses ++ [x]) y := by
  intro hrecent
  rw [List.mem_cons, not_or] at hx
  obtain ⟨hne, hx⟩ := hx
  obtain ⟨older, since, huses, hcard⟩ := hrecent.exists_since (Ne.symm hne)
  have hsuffix : newer <:+ since := by
    have hlater : y :: since <:+ uses := ⟨older, huses.symm⟩
    rcases List.suffix_or_suffix_of_suffix hnewer hlater with h | h
    · rcases List.suffix_cons_iff.1 h with rfl | h
      · exact absurd List.mem_cons_self hy
      · exact h
    · exact absurd (h.subset List.mem_cons_self) hy
  -- the rest of the ring and the new value have been used since
  have hsubset : (x :: rest).toFinset ⊆ (since ++ [x]).toFinset := by
    intro z hz
    rcases List.mem_cons.1 (List.mem_toFinset.1 hz) with rfl | hz
    · simp
    · simp [hsuffix.subset (hrest hz)]
  have hle := Finset.card_le_card hsubset
  rw [List.toFinset_card_of_nodup (List.nodup_cons.2 ⟨hx, hnodup⟩), List.length_cons] at hle
  omega

/-- A timely use leaves every recent value in the ring. -/
theorem mem_ring_concat (hrecent : ∀ y, Recent n uses y → y ∈ ring n uses)
    (htimely : Timely n uses (ring n uses) x) (h : Recent n (uses ++ [x]) y) :
    y ∈ ring n (uses ++ [x]) := by
  have hlength := length_ring_le n uses
  have hnodup := nodup_ring n uses
  have hmem : y ∈ ring n uses ∨ y = x := by
    by_cases hne : y = x
    · exact .inr hne
    · exact .inl (hrecent y (h.of_concat hne))
  rw [ring_concat, register]
  generalize ring n uses = l at *
  split
  · rename_i hx
    exact hmem.elim id fun hne => hne ▸ hx
  rename_i hx
  rw [List.rtake, List.length_append, List.length_singleton]
  rcases hlength.lt_or_eq with hroom | hfull
  · rw [Nat.sub_eq_zero_of_le hroom]
    simpa using hmem
  obtain ⟨oldest, rest, rfl⟩ : ∃ oldest rest, l = oldest :: rest := by
    obtain ⟨_, _, _, hcard⟩ := h
    refine List.exists_cons_of_length_pos ?_
    omega
  rw [hfull, Nat.add_sub_cancel_left, List.cons_append, List.drop_one, List.tail_cons]
  obtain ⟨newer, hnewer, holdest, hrest⟩ := htimely hx hfull oldest rest rfl
  rcases hmem with hold | rfl
  · rcases List.mem_cons.1 hold with rfl | hold
    · rw [← hfull] at h
      exact absurd h (not_recent_of_used (List.nodup_cons.1 hnodup).2 hx hnewer holdest hrest)
    · exact List.mem_append_left _ hold
  · simp

end Lib.Recency
