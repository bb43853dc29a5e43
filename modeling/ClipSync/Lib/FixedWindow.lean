import Mathlib.Algebra.Order.BigOperators.Group.List
import Mathlib.Algebra.Order.Group.Nat
import Mathlib.Algebra.Ring.Nat
import Mathlib.Data.List.Induction
import Mathlib.Data.List.Pairwise

/-!
# Counters with fixed windows

A counter that starts again from zero once its window has passed, but only when it is used
next: a window starts with the first use after the last one has passed. Every use is an
entry of a log, with the time it was made at and the start of the window it was counted in.

Windows do not overlap, but an interval that is shorter than a window can meet two of them,
so what is admitted in it is at most twice what is admitted in one window.
-/

namespace Lib

namespace FixedWindow

variable {α : Type}

/-! ## Totals -/

/-- The total weight of the entries that pass the test. -/
def total (p : α → Prop) [DecidablePred p] (weight : α → ℕ) (xs : List α) : ℕ :=
  (xs.map fun x => if p x then weight x else 0).sum

section Total

variable {p q : α → Prop} [DecidablePred p] [DecidablePred q] {weight : α → ℕ}

theorem total_append (xs ys : List α) :
    total p weight (xs ++ ys) = total p weight xs + total p weight ys := by
  simp [total]

theorem total_snoc (xs : List α) (x : α) :
    total p weight (xs ++ [x]) = total p weight xs + if p x then weight x else 0 := by
  simp [total]

theorem total_mono {weight' : α → ℕ} {xs : List α}
    (h : ∀ x ∈ xs, p x → q x ∧ weight x ≤ weight' x) : total p weight xs ≤ total q weight' xs := by
  refine List.sum_le_sum fun x hx => ?_
  split
  · rename_i hp
    rw [if_pos (h x hx hp).1]
    exact (h x hx hp).2
  · exact Nat.zero_le _

theorem total_eq_zero {xs : List α} (h : ∀ x ∈ xs, ¬ p x) : total p weight xs = 0 := by
  refine List.sum_eq_zero fun n hn => ?_
  obtain ⟨x, hx, rfl⟩ := List.mem_map.1 hn
  exact if_neg (h x hx)

/-- Entries that do not count can be left out. -/
theorem total_filter {test : α → Bool} {xs : List α}
    (h : ∀ x ∈ xs, p x → test x = false → weight x = 0) :
    total p weight (xs.filter test) = total p weight xs := by
  induction xs with
  | nil => rfl
  | cons x xs ih =>
    have htail := ih fun y hy => h y (List.mem_cons_of_mem x hy)
    cases htest : test x with
    | true =>
      rw [List.filter_cons_of_pos htest]
      simp only [total, List.map_cons, List.sum_cons] at htail ⊢
      rw [htail]
    | false =>
      have hzero : (if p x then weight x else 0) = 0 := by
        split
        · exact h x List.mem_cons_self ‹_› htest
        · rfl
      rw [List.filter_cons_of_neg (by simp [htest]), htail]
      simp only [total, List.map_cons, List.sum_cons, hzero, Nat.zero_add]

theorem total_filter_le (test : α → Bool) (xs : List α) :
    total p weight (xs.filter test) ≤ total p weight xs := by
  induction xs with
  | nil => exact le_refl _
  | cons x xs ih =>
    have hcons : total p weight (x :: xs) = (if p x then weight x else 0) + total p weight xs :=
      List.sum_cons
    rw [hcons, List.filter_cons]
    split
    · exact Nat.add_le_add_left ih _
    · exact ih.trans (Nat.le_add_left _ _)

theorem total_map {β : Type} (f : β → α) (xs : List β) :
    total p weight (xs.map f) = total (fun x => p (f x)) (fun x => weight (f x)) xs := by
  rw [total, List.map_map]
  rfl

end Total

/-! ## Windows -/

section Windows

variable (time started : α → ℕ) (width : ℕ)

/-- The start of the window that a use falls into, the last one having started at `last`. -/
def nextStart (last : Option ℕ) (now : ℕ) : ℕ :=
  match last with
  | none => now
  | some start => if now - start ≥ width then now else start

/-- Two uses, one after the other: they fall into the same window, or the second one's
window starts after the first use and when the first one's window has passed. -/
def Follows (x y : α) : Prop :=
  started y ≤ time y ∧
    (started x = started y ∨ time x ≤ started y ∧ started x + width ≤ started y)

/-- The log of a counter whose last window started at `last`, up to the time `now`. -/
structure Timeline (xs : List α) (last : Option ℕ) (now : ℕ) : Prop where
  pairwise : xs.Pairwise (Follows time started width)
  time_le : ∀ x ∈ xs, time x ≤ now
  started_le : ∀ x ∈ xs, started x ≤ time x
  last_le : ∀ start, last = some start → start ≤ now
  last : ∀ x ∈ xs, ∃ start, last = some start ∧
    (started x = start ∨ time x ≤ start ∧ started x + width ≤ start)

variable {time started width} {xs : List α} {x : α} {last : Option ℕ} {now : ℕ}

theorem Timeline.nil : Timeline time started width [] none now where
  pairwise := .nil
  time_le := by simp
  started_le := by simp
  last_le := by simp
  last := by simp

theorem Timeline.mono (h : Timeline time started width xs last now) {later : ℕ}
    (hlater : now ≤ later) : Timeline time started width xs last later where
  pairwise := h.pairwise
  time_le x hx := (h.time_le x hx).trans hlater
  started_le := h.started_le
  last_le start hstart := (h.last_le start hstart).trans hlater
  last := h.last

theorem nextStart_le (h : ∀ start, last = some start → start ≤ now) :
    nextStart width last now ≤ now := by
  cases last with
  | none => exact le_refl now
  | some start =>
    rw [nextStart]
    split
    · exact le_refl now
    · exact h start rfl

theorem lt_nextStart_add (hwidth : 0 < width) : now < nextStart width last now + width := by
  cases last with
  | none => exact Nat.lt_add_of_pos_right hwidth
  | some start =>
    rw [nextStart]
    split
    · exact Nat.lt_add_of_pos_right hwidth
    · omega

theorem Timeline.started_cases (h : Timeline time started width xs last now) (hx : x ∈ xs) :
    started x = nextStart width last now ∨
      time x ≤ nextStart width last now ∧ started x + width ≤ nextStart width last now := by
  obtain ⟨start, rfl, hcases⟩ := h.last x hx
  have htime := h.time_le x hx
  have hstart := h.last_le start rfl
  rw [nextStart]
  split
  · right
    rcases hcases with heq | ⟨hbefore, hpassed⟩ <;> omega
  · exact hcases

theorem Timeline.snoc (h : Timeline time started width xs last now) (htime : time x = now)
    (hstarted : started x = nextStart width last now) :
    Timeline time started width (xs ++ [x]) (some (started x)) now := by
  have hle : started x ≤ now := hstarted ▸ nextStart_le h.last_le
  have hcases : ∀ y ∈ xs, started y = started x ∨
      time y ≤ started x ∧ started y + width ≤ started x :=
    fun y hy => hstarted ▸ h.started_cases hy
  refine ⟨?_, ?_, ?_, ?_, ?_⟩
  · refine List.pairwise_append.2 ⟨h.pairwise, List.pairwise_singleton _ _, ?_⟩
    intro y hy z hz
    rw [List.mem_singleton.1 hz]
    exact ⟨htime ▸ hle, hcases y hy⟩
  · intro y hy
    rcases List.mem_append.1 hy with hold | hnew
    · exact h.time_le y hold
    · rw [List.mem_singleton.1 hnew, htime]
  · intro y hy
    rcases List.mem_append.1 hy with hold | hnew
    · exact h.started_le y hold
    · rw [List.mem_singleton.1 hnew, htime]
      exact hle
  · rintro _ ⟨⟩
    exact hle
  · intro y hy
    refine ⟨started x, rfl, ?_⟩
    rcases List.mem_append.1 hy with hold | hnew
    · exact hcases y hold
    · exact .inl (by rw [List.mem_singleton.1 hnew])

theorem Timeline.total_of_restart (h : Timeline time started width xs last now)
    (hwidth : 0 < width) (weight : α → ℕ) (hrestart : last ≠ some (nextStart width last now)) :
    total (started · = nextStart width last now) weight xs = 0 := by
  refine total_eq_zero fun x hx heq => ?_
  obtain ⟨start, rfl, hcases⟩ := h.last x hx
  have hstarted := h.started_le x hx
  rcases hcases with hsame | ⟨-, hpassed⟩
  · exact hrestart (by rw [← heq, hsame])
  · have hle : start ≤ nextStart width (some start) now := by
      rw [nextStart]
      split
      · exact h.last_le start rfl
      · exact le_refl start
    omega

/-! ## The counter -/

section Counter

variable {ε : Type} (start : ε → ℕ) (width : ℕ)

/-- The counter of a use: the last one, or a fresh one if there is none or its window has
passed. -/
def current (fresh : ε) (last : Option ε) (now : ℕ) : ε :=
  if now - start (last.getD fresh) ≥ width then fresh else last.getD fresh

variable (time started : α → ℕ) (K : List α → ε → Prop)

/-- The log of a counter, of which something is known as long as its window lasts. -/
structure Tracked (xs : List α) (last : Option ε) (now : ℕ) : Prop where
  timeline : Timeline time started width xs (last.map start) now
  known : ∀ e, last = some e → K xs e

variable {start time started width K} {fresh e : ε} {last : Option ε} {xs : List α} {x : α}
  {now : ℕ}

theorem current_cases (hfresh : start fresh = now) :
    last = some (current start width fresh last now) ∧
      start (current start width fresh last now) = nextStart width (last.map start) now ∨
    current start width fresh last now = fresh ∧ nextStart width (last.map start) now = now ∧
      (0 < width → last.map start ≠ some now) := by
  subst hfresh
  cases last with
  | none => exact .inr ⟨ite_self _, rfl, fun _ => nofun⟩
  | some e =>
    rw [current, Option.getD_some, Option.map_some, nextStart]
    by_cases hpassed : start fresh - start e ≥ width
    · rw [if_pos hpassed, if_pos hpassed]
      refine .inr ⟨rfl, rfl, fun hwidth heq => ?_⟩
      have := Option.some.inj heq
      omega
    · rw [if_neg hpassed, if_neg hpassed]
      exact .inl ⟨rfl, rfl⟩

theorem Tracked.current (fresh : ε) (h : Tracked start width time started K xs last now)
    (hfresh : start fresh = now)
    (hzero : (0 < width → ∀ weight, total (started · = now) weight xs = 0) → K xs fresh) :
    K xs (current start width fresh last now) ∧
      start (current start width fresh last now) = nextStart width (last.map start) now := by
  rcases current_cases hfresh with ⟨hlast, hnext⟩ | ⟨heq, hnext, hrestart⟩
  · exact ⟨h.known _ hlast, hnext⟩
  · rw [heq, hnext]
    refine ⟨hzero fun hwidth weight => ?_, hfresh⟩
    have htotal := h.timeline.total_of_restart hwidth weight (by rw [hnext]; exact hrestart hwidth)
    rwa [hnext] at htotal

theorem Tracked.snoc (h : Tracked start width time started K xs last now) (htime : time x = now)
    (hstarted : started x = nextStart width (last.map start) now) (he : start e = started x)
    (hknown : K (xs ++ [x]) e) : Tracked start width time started K (xs ++ [x]) (some e) now := by
  refine ⟨?_, ?_⟩
  · rw [Option.map_some, he]
    exact h.timeline.snoc htime hstarted
  · rintro _ ⟨⟩
    exact hknown

theorem Tracked.mono (h : Tracked start width time started K xs last now) {later : ℕ}
    (hlater : now ≤ later) : Tracked start width time started K xs last later :=
  ⟨h.timeline.mono hlater, h.known⟩

end Counter

/-! ## Intervals -/

theorem exists_two_windows (hpairwise : xs.Pairwise (Follows time started width)) {a b : ℕ}
    (hab : b < a + width) (hxs : ∀ x ∈ xs, a ≤ time x ∧ time x ≤ b) :
    ∃ s s', ∀ x ∈ xs, started x = s ∨ started x = s' := by
  cases xs with
  | nil => exact ⟨0, 0, by simp⟩
  | cons x xs =>
    rw [List.pairwise_cons] at hpairwise
    obtain ⟨hfirst, hrest⟩ := hpairwise
    by_cases hone : ∀ y ∈ xs, started y = started x
    · exact ⟨started x, started x, fun y hy => .inl <| by
        rcases List.mem_cons.1 hy with rfl | hy
        · rfl
        · exact hone y hy⟩
    · push Not at hone
      obtain ⟨y, hy, hne⟩ := hone
      -- a third window would start when a whole one has passed since the first use
      have hthird : ∀ u ∈ xs, ∀ v ∈ xs, started u ≠ started x →
          Follows time started width u v → started u = started v := by
        intro u hu v hv hux huv
        by_contra hdiff
        obtain ⟨-, hnext⟩ := hfirst u hu
        have hu' := hnext.resolve_left fun heq => hux heq.symm
        have hv' := huv.2.resolve_left hdiff
        have hxa := (hxs x List.mem_cons_self).1
        have hvb := (hxs v (List.mem_cons_of_mem x hv)).2
        have hvt := huv.1
        omega
      have hsym : ∀ u ∈ xs, ∀ v ∈ xs, u ≠ v →
          Follows time started width u v ∨ Follows time started width v u := by
        have : Std.Symm fun u v : α =>
            Follows time started width u v ∨ Follows time started width v u :=
          ⟨fun _ _ h => h.symm⟩
        have hboth : xs.Pairwise fun u v =>
            Follows time started width u v ∨ Follows time started width v u := hrest.imp Or.inl
        exact fun u hu v hv huv => hboth.forall hu hv huv
      refine ⟨started x, started y, fun z hz => ?_⟩
      rcases List.mem_cons.1 hz with rfl | hz
      · exact .inl rfl
      by_cases hzx : started z = started x
      · exact .inl hzx
      by_cases hzy : z = y
      · exact .inr (by rw [hzy])
      rcases hsym z hz y hy hzy with hzy' | hyz'
      · exact .inr (hthird z hz y hy hzx hzy')
      · exact .inr (hthird y hy z hz hne hyz').symm

theorem total_interval_le (hpairwise : xs.Pairwise (Follows time started width)) {weight : α → ℕ}
    {max : ℕ} (hmax : ∀ s, total (started · = s) weight xs ≤ max) {a b : ℕ} (hab : b < a + width) :
    total (fun x => a ≤ time x ∧ time x ≤ b) weight xs ≤ 2 * max := by
  obtain ⟨s, s', hwindows⟩ := exists_two_windows
    (hpairwise.filter fun x => decide (a ≤ time x ∧ time x ≤ b)) hab
    fun x hx => of_decide_eq_true (List.mem_filter.1 hx).2
  have hsplit : total (fun x => a ≤ time x ∧ time x ≤ b) weight xs ≤
      total (started · = s) weight xs + total (started · = s') weight xs := by
    rw [total, total, total, ← List.sum_map_add]
    refine List.sum_le_sum fun x hx => ?_
    split
    · rename_i hinside
      rcases hwindows x (List.mem_filter.2 ⟨hx, decide_eq_true hinside⟩) with heq | heq
      · rw [if_pos heq]
        exact Nat.le_add_right _ _
      · rw [if_pos heq]
        exact Nat.le_add_left _ _
    · exact Nat.zero_le _
  have hs := hmax s
  have hs' := hmax s'
  omega

end Windows

/-! ## Admission -/

/-- Every entry of a log is as it has to be, given what comes before it. -/
def Splits (P : List α → α → Prop) (xs : List α) : Prop :=
  ∀ before x after, xs = before ++ x :: after → P before x

variable {P : List α → α → Prop}

theorem Splits.nil : Splits P [] := by
  intro before x after h
  cases before <;> cases h

theorem Splits.snoc {xs : List α} {x : α} (h : Splits P xs) (hx : P xs x) :
    Splits P (xs ++ [x]) := by
  intro before y after heq
  rcases List.eq_nil_or_concat after with rfl | ⟨after, z, rfl⟩
  · obtain ⟨rfl, hlast⟩ := List.append_inj' heq rfl
    cases hlast
    exact hx
  · rw [List.concat_eq_append, ← List.cons_append, ← List.append_assoc] at heq
    exact h before y after (List.append_inj' heq rfl).1

theorem Splits.of_snoc {xs : List α} {x : α} (h : Splits P (xs ++ [x])) : Splits P xs ∧ P xs x :=
  ⟨fun before y after heq => h before y (after ++ [x]) (by rw [heq]; simp), h xs x [] rfl⟩

section Metered

variable (started weight : α → ℕ) (accepted : α → Bool) (max : ℕ)

/-- A use is accepted only if what has been counted in its window is within the budget
together with it. -/
def Metered (xs : List α) : Prop :=
  Splits (fun before x => accepted x = true →
    total (started · = started x) weight before + weight x ≤ max) xs

variable {started weight accepted max} {xs : List α}

/-- What is accepted in one window is within the budget. -/
theorem Metered.total_le (h : Metered started weight accepted max xs) (s : ℕ) :
    total (started · = s) (fun x => if accepted x then weight x else 0) xs ≤ max := by
  induction xs using List.reverseRecOn with
  | nil => exact Nat.zero_le _
  | append_singleton xs x ih =>
    obtain ⟨hinit, hlast⟩ := h.of_snoc
    rw [total_snoc]
    by_cases hcount : started x = s ∧ accepted x = true
    · obtain ⟨rfl, haccepted⟩ := hcount
      have hsum := hlast haccepted
      have hle : total (started · = started x) (fun y => if accepted y then weight y else 0) xs ≤
          total (started · = started x) weight xs := by
        refine total_mono fun y _ hy => ⟨hy, ?_⟩
        split
        · exact le_refl _
        · exact Nat.zero_le _
      rw [if_pos rfl, if_pos haccepted]
      omega
    · have hnone :
          (if started x = s then if accepted x = true then weight x else 0 else 0) = 0 := by
        by_cases hs : started x = s
        · rw [if_pos hs, if_neg fun haccepted => hcount ⟨hs, haccepted⟩]
        · rw [if_neg hs]
      rw [hnone]
      exact ih hinit

theorem Metered.interval_le (h : Metered started weight accepted max xs) {time : α → ℕ}
    {width : ℕ} (hpairwise : xs.Pairwise (Follows time started width)) {a b : ℕ}
    (hab : b < a + width) :
    total (fun x => a ≤ time x ∧ time x ≤ b) (fun x => if accepted x then weight x else 0) xs ≤
      2 * max :=
  total_interval_le hpairwise h.total_le hab

end Metered

end FixedWindow

end Lib
