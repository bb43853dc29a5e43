import ClipSync.Lib.Bytes
import Mathlib.Data.List.Basic

/-!
# Lower-case hexadecimal

Two digits per octet, high digit first. The text is plain, so that its size in octets
is twice the number of encoded octets. Digits of both cases are read back.
`LowerHex` says that a text is made of the digits an encoding uses.
-/

namespace Lib

namespace Hex

def digits : List Char :=
  ['0', '1', '2', '3', '4', '5', '6', '7', '8', '9', 'a', 'b', 'c', 'd', 'e', 'f']

def digit (n : ℕ) : Char := digits.getD n '0'

theorem digit_mem (n : ℕ) : digit n ∈ digits := by
  rw [digit, List.getD_eq_getElem?_getD]
  rcases Nat.lt_or_ge n digits.length with hn | hn
  · rw [List.getElem?_eq_getElem hn]
    exact List.getElem_mem hn
  · rw [List.getElem?_eq_none hn]
    decide

/-- The digits of a byte string. -/
def encodeChars : Bytes → List Char
  | [] => []
  | b :: bytes => digit (b.toNat / 16) :: digit (b.toNat % 16) :: encodeChars bytes

def encode (bytes : Bytes) : String := String.ofList (encodeChars bytes)

theorem length_encodeChars (bytes : Bytes) : (encodeChars bytes).length = 2 * bytes.length := by
  induction bytes with
  | nil => rfl
  | cons b bytes ih =>
    rw [encodeChars, List.length_cons, List.length_cons, ih, List.length_cons]
    omega

/-- The value of a digit of either case. -/
def value (c : Char) : Option ℕ :=
  if 48 ≤ c.toNat ∧ c.toNat ≤ 57 then some (c.toNat - 48)
  else if 97 ≤ c.toNat ∧ c.toNat ≤ 102 then some (c.toNat - 87)
  else if 65 ≤ c.toNat ∧ c.toNat ≤ 70 then some (c.toNat - 55)
  else none

/-- The octets with the given digits. -/
def decodeChars : List Char → Option Bytes
  | [] => some []
  | [_] => none
  | a :: b :: rest => do
    let x ← value a
    let y ← value b
    let bytes ← decodeChars rest
    some (UInt8.ofNat (16 * x + y) :: bytes)

theorem value_digit {n : ℕ} (h : n < 16) : value (digit n) = some n := by
  have hall : ∀ n < 16, value (digit n) = some n := by decide
  exact hall n h

theorem decodeChars_encodeChars (bytes : Bytes) : decodeChars (encodeChars bytes) = some bytes := by
  induction bytes with
  | nil => rfl
  | cons b bytes ih =>
    have hb := b.toNat_lt
    have hsum : 16 * (b.toNat / 16) + b.toNat % 16 = b.toNat := Nat.div_add_mod b.toNat 16
    rw [encodeChars, decodeChars, value_digit (by omega), value_digit (by omega), ih]
    simp only [Option.bind_eq_bind, Option.bind_some, hsum, UInt8.ofNat_toNat]

/-- A text of lower-case hexadecimal digits. -/
def LowerHex (text : String) : Prop := ∀ c ∈ text.toList, c ∈ digits

theorem lowerHex_encode (bytes : Bytes) : LowerHex (encode bytes) := by
  intro c hc
  rw [encode, String.toList_ofList] at hc
  induction bytes with
  | nil => simp [encodeChars] at hc
  | cons b bytes ih =>
    rw [encodeChars, List.mem_cons, List.mem_cons] at hc
    rcases hc with rfl | rfl | hc
    · exact digit_mem _
    · exact digit_mem _
    · exact ih hc

theorem LowerHex.plain {text : String} (h : LowerHex text) : ∀ c ∈ text.toList, Plain c := by
  have hdigits : digits.all (fun c => decide (Plain c)) = true := by decide
  intro c hc
  exact of_decide_eq_true (List.all_eq_true.mp hdigits c (h c hc))

theorem lowerHex_of_utf8Bytes {text : String}
    (h : ∀ b ∈ utf8Bytes text, (48 ≤ b.toNat ∧ b.toNat ≤ 57) ∨ (97 ≤ b.toNat ∧ b.toNat ≤ 102)) :
    LowerHex text := by
  intro c hc
  have hbytes : utf8Bytes text = text.toList.flatMap String.utf8EncodeChar := by
    rw [← utf8Bytes_ofList, String.ofList_toList]
  obtain ⟨b, hb⟩ := List.exists_mem_of_ne_nil _ (String.utf8EncodeChar_ne_nil (c := c))
  have hrange := h b (by rw [hbytes]; exact List.mem_flatMap.2 ⟨c, hc, hb⟩)
  have hcode : c.toNat = b.toNat := ascii_of_mem_utf8EncodeChar hb (by omega)
  have hdigits : ∀ n < 103, (48 ≤ n ∧ n ≤ 57) ∨ (97 ≤ n ∧ n ≤ 102) → Char.ofNat n ∈ digits := by
    decide
  rw [← Char.ofNat_toNat c]
  exact hdigits _ (by omega) (by omega)

end Hex

end Lib
