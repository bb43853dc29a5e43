import ClipSync.Lib.Json.RoundTrip

/-!
# Records and tagged records in JSON

`record names` reads an object that has exactly the named members, in any order
and each once, or an array with one item a name; it returns the members in the
order of the names. `tagged tag` splits an object into the text of its tag and
the object of its other members.
-/

namespace Lib.Json

/-- The values of the named members. Unknown, repeated and missing members are
refused. -/
def record (names : List String) : Value → Option (List Value)
  | .obj ms =>
    if (ms.map Prod.fst).Nodup ∧ ∀ key ∈ ms.map Prod.fst, key ∈ names then
      names.mapM fun name => ms.lookup name
    else none
  | .arr vs => if vs.length = names.length then some vs else none
  | _ => none

/-- The named members alone, for records that ignore the others. -/
def known (names : List String) : Value → Value
  | .obj ms => .obj (ms.filter fun m => m.1 ∈ names)
  | value => value

/-- The tag of an object and the object without it. -/
def tagged (tag : String) : Value → Option (String × Value)
  | .obj ms =>
    match ms.filter fun m => m.1 = tag with
    | [(_, .str name)] => some (name, .obj (ms.filter fun m => m.1 ≠ tag))
    | _ => none
  | .arr (.str name :: rest) => some (name, .arr rest)
  | _ => none

variable {ms : List (String × Value)} {α : Type} {item : Value → Option α} {f : α → Value}

theorem tagged_obj {tag name : String} (h : ∀ m ∈ ms, m.1 ≠ tag) :
    tagged tag (.obj ((tag, .str name) :: ms)) = some (name, .obj ms) := by
  have hnone : ms.filter (fun m => m.1 = tag) = [] := by
    rw [List.filter_eq_nil_iff]
    intro m hm
    simpa using h m hm
  have hall : ms.filter (fun m => m.1 ≠ tag) = ms := by
    rw [List.filter_eq_self]
    intro m hm
    simpa using h m hm
  have hhead : ((tag, Value.str name) :: ms).filter (fun m => m.1 = tag) =
      [(tag, .str name)] := by
    simp [hnone]
  have htail : ((tag, Value.str name) :: ms).filter (fun m => m.1 ≠ tag) = ms := by
    rw [List.filter_cons_of_neg (by simp), hall]
  rw [tagged, hhead, htail]

/-- A text value. -/
def asStr : Value → Option String
  | .str s => some s
  | _ => none

def asBool : Value → Option Bool
  | .bool b => some b
  | _ => none

/-- A natural number below the bound. -/
def asNat (bound : ℕ) : Value → Option ℕ
  | .int (.ofNat n) => if n < bound then some n else none
  | _ => none

def asInt : Value → Option ℤ
  | .int n => some n
  | _ => none

/-- The items of an array. -/
def asList {α : Type} (item : Value → Option α) : Value → Option (List α)
  | .arr vs => vs.mapM item
  | _ => none

theorem asList_map (h : ∀ a, item (f a) = some a) (as : List α) :
    asList item (.arr (as.map f)) = some as := by
  induction as with
  | nil => rfl
  | cons a as ih =>
    rw [asList] at ih
    rw [List.map_cons, asList, List.mapM_cons, h, ih]
    rfl

@[simp]
theorem asList_str (texts : List String) : asList asStr (.arr (texts.map .str)) = some texts :=
  asList_map (f := .str) (fun _ => rfl) texts

theorem integralItems_map (h : ∀ a, Integral (f a)) (as : List α) :
    IntegralItems (as.map f) := by
  induction as with
  | nil => trivial
  | cons a as ih => exact ⟨h a, ih⟩

@[simp]
theorem integralItems_str (texts : List String) : IntegralItems (texts.map .str) :=
  integralItems_map (f := .str) (fun _ => by simp) texts

/-- The members of an object, whatever their names. -/
def asMembers {α : Type} (item : Value → Option α) : Value → Option (List (String × α))
  | .obj ms => ms.mapM fun m => (item m.2).map fun a => (m.1, a)
  | _ => none

theorem asMembers_map (h : ∀ a, item (f a) = some a) (ms : List (String × α)) :
    asMembers item (.obj (ms.map fun m => (m.1, f m.2))) = some ms := by
  induction ms with
  | nil => rfl
  | cons m ms ih =>
    rw [asMembers] at ih
    rw [List.map_cons, asMembers, List.mapM_cons, h, ih]
    rfl

theorem integralMembers_map (h : ∀ a, Integral (f a)) (ms : List (String × α)) :
    IntegralMembers (ms.map fun m => (m.1, f m.2)) := by
  induction ms with
  | nil => trivial
  | cons m ms ih => exact ⟨h m.2, ih⟩

theorem asNat_int {bound n : ℕ} (h : n < bound) : asNat bound (.int n) = some n :=
  if_pos h

end Lib.Json
