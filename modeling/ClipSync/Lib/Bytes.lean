import Mathlib.Algebra.GroupWithZero.Nat
import Mathlib.Data.List.Basic

/-!
# Byte strings and UTF-8 text

Byte buffers are lists of octets. A text of the programming language is a Lean
`String`, whose octets are read off by `utf8Bytes`; `fromUtf8` is the checked
conversion in the other direction and refuses ill-formed input. The size of a
text in octets is additive over its characters, which is how every length
computation on encoded text is carried out.
-/

namespace Lib

/-- A byte buffer. -/
abbrev Bytes := List UInt8

variable {c : Char} {cs : List Char} {b : UInt8}

theorem append_separator_inj {x x' y y' : Bytes} (hx : b ∉ x) (hx' : b ∉ x')
    (h : x ++ b :: y = x' ++ b :: y') : x = x' ∧ y = y' := by
  induction x generalizing x' with
  | nil =>
    cases x' with
    | nil => exact ⟨rfl, (List.cons.inj h).2⟩
    | cons c x' => exact absurd (List.cons.inj h).1 (List.ne_of_not_mem_cons hx')
  | cons c x ih =>
    cases x' with
    | nil => exact absurd (List.cons.inj h).1.symm (List.ne_of_not_mem_cons hx)
    | cons c' x' =>
      obtain ⟨hc, htail⟩ := List.cons.inj h
      obtain ⟨hxx, hyy⟩ := ih (List.not_mem_of_not_mem_cons hx)
        (List.not_mem_of_not_mem_cons hx') htail
      exact ⟨by rw [hc, hxx], hyy⟩

/-- The octets of a text. -/
def utf8Bytes (s : String) : Bytes := s.toByteArray.data.toList

/-- The text with the given octets, if they are well-formed UTF-8. -/
def fromUtf8 (b : Bytes) : Option String := String.fromUTF8? ⟨b.toArray⟩

theorem length_utf8Bytes (s : String) : (utf8Bytes s).length = s.utf8ByteSize := rfl

@[simp] theorem fromUtf8_utf8Bytes (s : String) : fromUtf8 (utf8Bytes s) = some s := by
  have hbytes : (⟨(utf8Bytes s).toArray⟩ : ByteArray) = s.toByteArray := by
    simp [utf8Bytes]
  rw [fromUtf8, hbytes, String.fromUTF8?]
  simp [s.isValidUTF8, String.fromUTF8]

theorem utf8Bytes_injective : Function.Injective utf8Bytes := by
  intro s t h
  have hs := fromUtf8_utf8Bytes s
  rw [h, fromUtf8_utf8Bytes] at hs
  exact (Option.some.inj hs).symm

/-- The number of octets of a list of characters. -/
def utf8Length (cs : List Char) : ℕ := (cs.map Char.utf8Size).sum

@[simp] theorem utf8Length_nil : utf8Length [] = 0 := rfl

@[simp] theorem utf8Length_cons (c : Char) (cs : List Char) :
    utf8Length (c :: cs) = c.utf8Size + utf8Length cs := by
  simp [utf8Length]

@[simp] theorem utf8Length_append (cs ds : List Char) :
    utf8Length (cs ++ ds) = utf8Length cs + utf8Length ds := by
  simp [utf8Length]

theorem length_utf8Bytes_ofList (cs : List Char) :
    (utf8Bytes (String.ofList cs)).length = utf8Length cs := by
  have henc : ∀ ds : List Char, ds.utf8Encode.size = utf8Length ds := by
    intro ds
    induction ds with
    | nil => simp
    | cons c ds ih =>
      rw [List.utf8Encode_cons, ByteArray.size_append, ih, List.utf8Encode_singleton,
        List.size_toByteArray, String.length_utf8EncodeChar, utf8Length_cons]
  rw [length_utf8Bytes, ← String.size_toByteArray, String.toByteArray_ofList, henc]

theorem utf8Size_eq_one (h : c.toNat < 128) : c.utf8Size = 1 := by
  have hval : c.val ≤ 0x7f := by
    have : c.val.toNat < 128 := h
    exact UInt32.le_iff_toNat_le.2 (by simpa using Nat.le_of_lt_succ this)
  simp [Char.utf8Size, hval]

/-- Printable ASCII, without the two characters a quoted text escapes. -/
def Plain (c : Char) : Prop := 32 ≤ c.toNat ∧ c.toNat < 127 ∧ c ≠ '"' ∧ c ≠ '\\'

instance (c : Char) : Decidable (Plain c) :=
  inferInstanceAs (Decidable (_ ∧ _ ∧ _ ∧ _))

theorem Plain.ascii (h : Plain c) : c.toNat < 128 := by
  have := h.2.1
  omega

theorem utf8Length_of_ascii (h : ∀ c ∈ cs, c.toNat < 128) : utf8Length cs = cs.length := by
  induction cs with
  | nil => rfl
  | cons c cs ih =>
    have hc := utf8Size_eq_one (h c List.mem_cons_self)
    have hcs := ih fun d hd => h d (List.mem_cons_of_mem c hd)
    rw [utf8Length_cons, hc, hcs, List.length_cons, Nat.add_comm]

theorem utf8Bytes_ofList (cs : List Char) :
    utf8Bytes (String.ofList cs) = cs.flatMap String.utf8EncodeChar := by
  simp [utf8Bytes, String.toByteArray_ofList, List.utf8Encode]

theorem utf8Bytes_of_ascii (h : ∀ c ∈ cs, c.toNat < 128) :
    utf8Bytes (String.ofList cs) = cs.map fun c => UInt8.ofNat c.toNat := by
  rw [utf8Bytes_ofList]
  induction cs with
  | nil => rfl
  | cons c cs ih =>
    have hc : c.val.toNat ≤ 127 := Nat.le_of_lt_succ (h c List.mem_cons_self)
    have hhead : String.utf8EncodeChar c = [UInt8.ofNat c.toNat] := if_pos hc
    rw [List.flatMap_cons, ih fun d hd => h d (List.mem_cons_of_mem c hd), hhead]
    rfl

theorem ascii_of_mem_utf8EncodeChar (hb : b ∈ String.utf8EncodeChar c) (hlt : b.toNat < 128) :
    c.toNat = b.toNat := by
  have hhigh : ∀ n, 128 ≤ n → n < 256 → b ≠ UInt8.ofNat n := by
    rintro n hlow hup rfl
    rw [UInt8.toNat_ofNat', Nat.mod_eq_of_lt hup] at hlt
    omega
  by_cases h1 : c.val.toNat ≤ 127
  · have hone : String.utf8EncodeChar c = [UInt8.ofNat c.toNat] := if_pos h1
    rw [hone, List.mem_singleton] at hb
    have hmod : c.toNat % 2 ^ 8 = c.toNat :=
      Nat.mod_eq_of_lt (Nat.lt_of_le_of_lt h1 (by decide))
    rw [hb, UInt8.toNat_ofNat', hmod]
  · exfalso
    simp only [String.utf8EncodeChar, if_neg h1] at hb
    split at hb
    · simp only [List.mem_cons, List.not_mem_nil, or_false] at hb
      rcases hb with hb | hb <;> exact hhigh _ (by omega) (by omega) hb
    · split at hb
      · simp only [List.mem_cons, List.not_mem_nil, or_false] at hb
        rcases hb with hb | hb | hb <;> exact hhigh _ (by omega) (by omega) hb
      · simp only [List.mem_cons, List.not_mem_nil, or_false] at hb
        rcases hb with hb | hb | hb | hb <;> exact hhigh _ (by omega) (by omega) hb

end Lib
