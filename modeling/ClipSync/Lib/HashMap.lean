import Mathlib.Data.Finmap
import Mathlib.Data.Finset.Sort

/-!
# Hash maps

The hash maps of a program are finite maps; iteration order is not observable.
Beside the operations of `Finmap` they can drop the entries that fail a test and
change all values in place.
-/

namespace Lib

abbrev HashMap (κ υ : Type) := Finmap fun _ : κ => υ

namespace HashMap

variable {κ υ : Type}

def size (m : HashMap κ υ) : ℕ := m.keys.card

/-- Keeps the entries that pass the test. -/
def retain (test : κ → υ → Bool) (m : HashMap κ υ) : HashMap κ υ where
  entries := m.entries.filter fun e => test e.1 e.2
  nodupKeys := Multiset.nodup_keys.1 <| Multiset.nodup_of_le
    (Multiset.map_le_map (Multiset.filter_le _ _)) (Multiset.nodup_keys.2 m.nodupKeys)

/-- Changes every value. -/
def mapValues (f : υ → υ) (m : HashMap κ υ) : HashMap κ υ where
  entries := m.entries.map fun e => ⟨e.1, f e.2⟩
  nodupKeys := Multiset.nodup_keys.1 <| by
    have hkeys : (m.entries.map fun e => (⟨e.1, f e.2⟩ : (_ : κ) × υ)).keys = m.entries.keys := by
      simp [Multiset.keys]
    rw [hkeys]
    exact Multiset.nodup_keys.2 m.nodupKeys

theorem keys_mapValues (f : υ → υ) (m : HashMap κ υ) : (m.mapValues f).keys = m.keys := by
  ext k
  simp [Finmap.mem_keys, Finmap.mem_def, mapValues, Multiset.keys]

theorem keys_retain_subset (test : κ → υ → Bool) (m : HashMap κ υ) :
    (m.retain test).keys ⊆ m.keys := by
  intro k
  simp only [Finmap.mem_keys, Finmap.mem_def, retain, Multiset.keys, Multiset.mem_map,
    Multiset.mem_filter]
  rintro ⟨e, ⟨he, -⟩, rfl⟩
  exact ⟨e, he, rfl⟩

theorem size_mapValues (f : υ → υ) (m : HashMap κ υ) : (m.mapValues f).size = m.size := by
  rw [size, keys_mapValues, size]

theorem size_retain_le (test : κ → υ → Bool) (m : HashMap κ υ) : (m.retain test).size ≤ m.size :=
  Finset.card_le_card (keys_retain_subset test m)

variable [DecidableEq κ]

theorem lookup_retain (test : κ → υ → Bool) (m : HashMap κ υ) (k : κ) :
    (m.retain test).lookup k = (m.lookup k).filter (test k) := by
  ext v
  rw [Option.filter_eq_some_iff, Finmap.lookup_eq_some_iff, Finmap.lookup_eq_some_iff]
  simp [retain]

variable {m : HashMap κ υ}

variable {entries : List (κ × υ)} {k : κ} {test : κ → υ → Bool}

/-- Nothing was dropped if the size is the same. -/
theorem retain_eq_self (h : m.size ≤ (m.retain test).size) : m.retain test = m := by
  have hkeys := Finset.eq_of_subset_of_card_le (keys_retain_subset test m) h
  refine Finmap.ext_lookup fun k => ?_
  cases hlookup : m.lookup k with
  | none => rw [lookup_retain, hlookup, Option.filter_none]
  | some v =>
    have hmem : k ∈ (m.retain test).keys := by
      rw [hkeys, Finmap.mem_keys]
      exact Finmap.mem_of_lookup_eq_some hlookup
    obtain ⟨w, hw⟩ := Finmap.mem_iff.1 (Finmap.mem_keys.1 hmem)
    rw [lookup_retain, hlookup] at hw
    rw [lookup_retain, hlookup, hw]
    exact (Option.filter_eq_some_iff.1 hw).1.symm

theorem lookup_mapValues (f : υ → υ) (m : HashMap κ υ) (k : κ) :
    (m.mapValues f).lookup k = (m.lookup k).map f := by
  ext v
  simp only [← Option.mem_def, Finmap.mem_lookup_iff, mapValues, Multiset.mem_map, Option.mem_map]
  constructor
  · rintro ⟨⟨k', u⟩, he, heq⟩
    cases heq
    exact ⟨u, he, rfl⟩
  · rintro ⟨u, hu, rfl⟩
    exact ⟨⟨k, u⟩, hu, rfl⟩

theorem mapValues_insert (f : υ → υ) (m : HashMap κ υ) (k : κ) (v : υ) :
    mapValues f (m.insert k v) = (mapValues f m).insert k (f v) := by
  refine Finmap.ext_lookup fun other => ?_
  rw [lookup_mapValues]
  by_cases hk : other = k
  · rw [hk, Finmap.lookup_insert, Finmap.lookup_insert, Option.map_some]
  · rw [Finmap.lookup_insert_of_ne _ hk, Finmap.lookup_insert_of_ne _ hk, lookup_mapValues]

theorem mapValues_retain {f : υ → υ} (h : ∀ k v, test k (f v) = test k v) (m : HashMap κ υ) :
    mapValues f (m.retain test) = (mapValues f m).retain test := by
  refine Finmap.ext_lookup fun k => ?_
  rw [lookup_mapValues, lookup_retain, lookup_retain, lookup_mapValues]
  cases m.lookup k with
  | none => rfl
  | some v => simp only [Option.map_some, Option.filter_some, h]; split <;> rfl

theorem mapValues_mapValues (f g : υ → υ) (m : HashMap κ υ) :
    (m.mapValues f).mapValues g = m.mapValues (g ∘ f) := by
  refine Finmap.ext_lookup fun k => ?_
  rw [lookup_mapValues, lookup_mapValues, lookup_mapValues, Option.map_map]

theorem insert_of_lookup {v : υ} (h : m.lookup k = some v) : m.insert k v = m := by
  refine Finmap.ext_lookup fun other => ?_
  by_cases hk : other = k
  · rw [hk, Finmap.lookup_insert, h]
  · rw [Finmap.lookup_insert_of_ne _ hk]

theorem size_insert_of_mem (h : k ∈ m) (v : υ) : size (m.insert k v) = m.size := by
  have hkeys : (m.insert k v).keys = m.keys := by
    ext other
    rw [Finmap.mem_keys, Finmap.mem_keys, Finmap.mem_insert]
    exact ⟨fun hother => hother.elim (fun heq => heq ▸ h) id, .inr⟩
  rw [size, hkeys, size]

theorem size_insert_le (m : HashMap κ υ) (k : κ) (v : υ) : size (m.insert k v) ≤ m.size + 1 := by
  have hkeys : (m.insert k v).keys ⊆ insert k m.keys := by
    intro other hother
    rw [Finmap.mem_keys, Finmap.mem_insert] at hother
    rw [Finset.mem_insert, Finmap.mem_keys]
    exact hother
  exact (Finset.card_le_card hkeys).trans (Finset.card_insert_le _ _)

/-- The map of a list of entries, where later ones replace earlier ones. -/
def ofList (entries : List (κ × υ)) : HashMap κ υ :=
  entries.foldl (fun m e => m.insert e.1 e.2) ∅

/-- The entries in the order of their keys. -/
def sorted [LinearOrder κ] (m : HashMap κ υ) : List (κ × υ) :=
  (m.keys.sort (· ≤ ·)).filterMap fun k => (m.lookup k).map fun v => (k, v)

theorem mem_sorted [LinearOrder κ] {e : κ × υ} : e ∈ m.sorted ↔ m.lookup e.1 = some e.2 := by
  obtain ⟨k, v⟩ := e
  simp only [sorted, List.mem_filterMap, Finset.mem_sort, Option.map_eq_some_iff, Prod.mk.injEq]
  constructor
  · rintro ⟨_, -, _, hlookup, rfl, rfl⟩
    exact hlookup
  · intro hlookup
    have hmem : k ∈ m.keys := Finmap.mem_keys.2 (Finmap.mem_of_lookup_eq_some hlookup)
    exact ⟨k, hmem, v, hlookup, rfl, rfl⟩

theorem map_fst_sorted [LinearOrder κ] (m : HashMap κ υ) :
    m.sorted.map Prod.fst = m.keys.sort (· ≤ ·) := by
  have hall : ∀ ks : List κ, (∀ k ∈ ks, k ∈ m) →
      (ks.filterMap fun k => (m.lookup k).map fun v => (k, v)).map Prod.fst = ks := by
    intro ks hks
    induction ks with
    | nil => rfl
    | cons k ks ih =>
      obtain ⟨v, hv⟩ := Finmap.mem_iff.1 (hks k List.mem_cons_self)
      rw [List.filterMap_cons, hv, Option.map_some, List.map_cons,
        ih fun k' hk' => hks k' (List.mem_cons_of_mem k hk')]
  exact hall _ fun k hk => Finmap.mem_keys.1 ((Finset.mem_sort _).1 hk)

theorem sorted_mapValues [LinearOrder κ] (f : υ → υ) (m : HashMap κ υ) :
    (m.mapValues f).sorted = m.sorted.map fun e => (e.1, f e.2) := by
  rw [sorted, sorted, keys_mapValues, List.map_filterMap]
  congr 1
  funext k
  rw [lookup_mapValues]
  cases m.lookup k <;> rfl

theorem foldl_insert_new (hkeys : (entries.map Prod.fst).Nodup)
    (hnew : ∀ k ∈ entries.map Prod.fst, k ∉ m) :
    entries.foldl (fun m e => if e.1 ∈ m then m else m.insert e.1 e.2) m =
      entries.foldl (fun m e => m.insert e.1 e.2) m := by
  induction entries generalizing m with
  | nil => rfl
  | cons e entries ih =>
    rw [List.map_cons, List.nodup_cons] at hkeys
    rw [List.foldl_cons, List.foldl_cons, if_neg (hnew e.1 List.mem_cons_self)]
    refine ih hkeys.2 fun k hk => ?_
    rw [Finmap.mem_insert, not_or]
    exact ⟨fun heq => hkeys.1 (heq ▸ hk), hnew k (List.mem_cons_of_mem _ hk)⟩

theorem lookup_ofList (h : ∀ e ∈ entries, m.lookup e.1 = some e.2) (k : κ) :
    (ofList entries).lookup k = if k ∈ entries.map Prod.fst then m.lookup k else none := by
  induction entries using List.reverseRecOn with
  | nil => simp [ofList]
  | append_singleton entries e ih =>
    have ih := ih fun e' he' => h e' (List.mem_append_left _ he')
    rw [ofList, List.foldl_append, List.foldl_cons, List.foldl_nil]
    by_cases hk : k = e.1
    · rw [hk, Finmap.lookup_insert, h e (by simp)]
      simp
    · rw [Finmap.lookup_insert_of_ne _ hk]
      simp only [List.map_append, List.map_cons, List.map_nil, List.mem_append,
        List.mem_singleton, hk, or_false]
      exact ih

/-- A map is read back from its sorted entries. -/
theorem ofList_sorted [LinearOrder κ] (m : HashMap κ υ) : ofList m.sorted = m := by
  refine Finmap.ext_lookup fun k => ?_
  rw [lookup_ofList (fun e he => mem_sorted.1 he)]
  split
  · rfl
  · rename_i hk
    cases hlookup : m.lookup k with
    | none => rfl
    | some v => exact absurd (List.mem_map.2 ⟨(k, v), mem_sorted.2 hlookup, rfl⟩) hk

end HashMap

end Lib
