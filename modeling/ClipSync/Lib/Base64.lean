import ClipSync.Lib.Bytes
import Mathlib.Tactic.IntervalCases

/-!
# Padded base64 with the standard alphabet

`encode` is the base64 of RFC 4648 with the standard alphabet and padding, read
three octets at a time; `decode` reads four characters at a time and refuses a
missing padding character, a foreign character and nonzero trailing bits. Both
are inverse to each other, so a text that decodes is the encoding of what it
decodes to, and every encoded text consists of one-octet characters that need
no escaping anywhere.
-/

namespace Lib.Base64

/-- The character of a six-bit group. -/
def sextetChar (n : ℕ) : Char :=
  if n < 26 then Char.ofNat (n + 65)
  else if n < 52 then Char.ofNat (n + 71)
  else if n < 62 then Char.ofNat (n - 4)
  else if n = 62 then '+' else '/'

/-- The six-bit group of a character of the alphabet. -/
def charSextet (c : Char) : Option ℕ :=
  if 65 ≤ c.toNat ∧ c.toNat ≤ 90 then some (c.toNat - 65)
  else if 97 ≤ c.toNat ∧ c.toNat ≤ 122 then some (c.toNat - 71)
  else if 48 ≤ c.toNat ∧ c.toNat ≤ 57 then some (c.toNat + 4)
  else if c = '+' then some 62
  else if c = '/' then some 63
  else none

variable {bytes : Bytes} {d : Char} {n : ℕ}

theorem charSextet_sextetChar (h : n < 64) : charSextet (sextetChar n) = some n := by
  revert n
  decide

theorem sextetChar_of_charSextet {c : Char} (h : charSextet c = some n) :
    n < 64 ∧ sextetChar n = c := by
  have hchar : ∀ m, m = c.toNat → Char.ofNat m = c := by
    rintro m rfl
    exact Char.ofNat_toNat c
  unfold charSextet at h
  split_ifs at h with h1 h2 h3 h4 h5
  all_goals
    obtain rfl := Option.some.inj h
    refine ⟨by omega, ?_⟩
  · rw [sextetChar, if_pos (by omega)]
    exact hchar _ (by omega)
  · rw [sextetChar, if_neg (by omega), if_pos (by omega)]
    exact hchar _ (by omega)
  · rw [sextetChar, if_neg (by omega), if_neg (by omega), if_pos (by omega)]
    exact hchar _ (by omega)
  · simp [sextetChar, h4]
  · simp [sextetChar, h5]

theorem plain_sextetChar (h : n < 64) : Plain (sextetChar n) := by
  revert n
  decide

theorem sextetChar_ne_pad (h : n < 64) : sextetChar n ≠ '=' := by
  revert n
  decide

/-- The base64 of a byte string, as a list of characters. -/
def encodeChars : Bytes → List Char
  | a :: b :: c :: rest =>
    sextetChar (a.toNat / 4) :: sextetChar (a.toNat % 4 * 16 + b.toNat / 16) ::
      sextetChar (b.toNat % 16 * 4 + c.toNat / 64) :: sextetChar (c.toNat % 64) ::
        encodeChars rest
  | [a, b] =>
    [sextetChar (a.toNat / 4), sextetChar (a.toNat % 4 * 16 + b.toNat / 16),
      sextetChar (b.toNat % 16 * 4), '=']
  | [a] => [sextetChar (a.toNat / 4), sextetChar (a.toNat % 4 * 16), '=', '=']
  | [] => []

/-- Two sextets ending a text: one octet, with four zero bits left over. -/
def decodeOne (c d : Char) : Option Bytes := do
  let x ← charSextet c
  let y ← charSextet d
  if y % 16 = 0 then some [UInt8.ofNat (x * 4 + y / 16)] else none

/-- Three sextets ending a text: two octets, with two zero bits left over. -/
def decodeTwo (c d e : Char) : Option Bytes := do
  let x ← charSextet c
  let y ← charSextet d
  let z ← charSextet e
  if z % 4 = 0 then
    some [UInt8.ofNat (x * 4 + y / 16), UInt8.ofNat (y % 16 * 16 + z / 4)]
  else none

/-- Four sextets: three octets. -/
def decodeThree (c d e f : Char) : Option Bytes := do
  let x ← charSextet c
  let y ← charSextet d
  let z ← charSextet e
  let w ← charSextet f
  some [UInt8.ofNat (x * 4 + y / 16), UInt8.ofNat (y % 16 * 16 + z / 4),
    UInt8.ofNat (z % 4 * 64 + w)]

/-- The byte string a padded base64 text stands for. Padding is accepted only
in the last group. -/
def decodeChars : List Char → Option Bytes
  | [] => some []
  | c :: d :: e :: f :: rest =>
    if rest = [] ∧ f = '=' then
      if e = '=' then decodeOne c d else decodeTwo c d e
    else do
      let head ← decodeThree c d e f
      let tail ← decodeChars rest
      some (head ++ tail)
  | _ => none

theorem toNat_ofNat (h : n < 256) : (UInt8.ofNat n).toNat = n := by
  rw [UInt8.toNat_ofNat', Nat.mod_eq_of_lt h]

theorem decodeThree_encode (a b c : UInt8) :
    decodeThree (sextetChar (a.toNat / 4)) (sextetChar (a.toNat % 4 * 16 + b.toNat / 16))
        (sextetChar (b.toNat % 16 * 4 + c.toNat / 64)) (sextetChar (c.toNat % 64)) =
      some [a, b, c] := by
  have ha := a.toNat_lt
  have hb := b.toNat_lt
  have hc := c.toNat_lt
  rw [decodeThree, charSextet_sextetChar (by omega), charSextet_sextetChar (by omega),
    charSextet_sextetChar (by omega), charSextet_sextetChar (by omega)]
  have h1 : a.toNat / 4 * 4 + (a.toNat % 4 * 16 + b.toNat / 16) / 16 = a.toNat := by omega
  have h2 : (a.toNat % 4 * 16 + b.toNat / 16) % 16 * 16 +
      (b.toNat % 16 * 4 + c.toNat / 64) / 4 = b.toNat := by omega
  have h3 : (b.toNat % 16 * 4 + c.toNat / 64) % 4 * 64 + c.toNat % 64 = c.toNat := by omega
  simp only [Option.bind_eq_bind, Option.bind_some, h1, h2, h3, UInt8.ofNat_toNat]

theorem decodeChars_encodeChars (bytes : Bytes) : decodeChars (encodeChars bytes) = some bytes := by
  induction bytes using encodeChars.induct with
  | case1 a b c rest ih =>
    have hc : sextetChar (c.toNat % 64) ≠ '=' := sextetChar_ne_pad (by omega)
    rw [encodeChars, decodeChars, if_neg (fun h => hc h.2), decodeThree_encode, ih]
    rfl
  | case2 a b =>
    have ha := a.toNat_lt
    have hb := b.toNat_lt
    have hpad : sextetChar (b.toNat % 16 * 4) ≠ '=' := sextetChar_ne_pad (by omega)
    have h1 : a.toNat / 4 * 4 + (a.toNat % 4 * 16 + b.toNat / 16) / 16 = a.toNat := by
      omega
    have h2 : (a.toNat % 4 * 16 + b.toNat / 16) % 16 * 16 +
        b.toNat % 16 * 4 / 4 = b.toNat := by omega
    rw [encodeChars, decodeChars, if_pos ⟨rfl, rfl⟩, if_neg hpad, decodeTwo,
      charSextet_sextetChar (by omega), charSextet_sextetChar (by omega),
      charSextet_sextetChar (by omega)]
    have h3 : b.toNat % 16 * 4 % 4 = 0 := by omega
    simp only [Option.bind_eq_bind, Option.bind_some, h1, h2, h3, UInt8.ofNat_toNat,
      if_true]
  | case3 a =>
    have ha := a.toNat_lt
    have h1 : a.toNat / 4 * 4 + a.toNat % 4 * 16 / 16 = a.toNat := by omega
    rw [encodeChars, decodeChars, if_pos ⟨rfl, rfl⟩, if_pos rfl, decodeOne,
      charSextet_sextetChar (by omega), charSextet_sextetChar (by omega)]
    have h2 : a.toNat % 4 * 16 % 16 = 0 := by omega
    simp only [Option.bind_eq_bind, Option.bind_some, h1, h2, UInt8.ofNat_toNat, if_true]
  | case4 => rfl

theorem encodeChars_decodeOne {c : Char} (h : decodeOne c d = some bytes) :
    encodeChars bytes = [c, d, '=', '='] := by
  simp only [decodeOne, Option.bind_eq_bind, Option.bind_eq_some_iff] at h
  obtain ⟨x, hx, y, hy, h⟩ := h
  obtain ⟨hx', rfl⟩ := sextetChar_of_charSextet hx
  obtain ⟨hy', rfl⟩ := sextetChar_of_charSextet hy
  split_ifs at h with hz
  obtain rfl := Option.some.inj h
  have hn := toNat_ofNat (show x * 4 + y / 16 < 256 by omega)
  have h1 : (x * 4 + y / 16) / 4 = x := by omega
  have h2 : (x * 4 + y / 16) % 4 * 16 = y := by omega
  simp only [encodeChars, hn, h1, h2]

theorem encodeChars_decodeTwo {c e : Char} (h : decodeTwo c d e = some bytes) :
    encodeChars bytes = [c, d, e, '='] := by
  simp only [decodeTwo, Option.bind_eq_bind, Option.bind_eq_some_iff] at h
  obtain ⟨x, hx, y, hy, z, hz, h⟩ := h
  obtain ⟨hx', rfl⟩ := sextetChar_of_charSextet hx
  obtain ⟨hy', rfl⟩ := sextetChar_of_charSextet hy
  obtain ⟨hz', rfl⟩ := sextetChar_of_charSextet hz
  split_ifs at h with hz0
  obtain rfl := Option.some.inj h
  have hn := toNat_ofNat (show x * 4 + y / 16 < 256 by omega)
  have hm := toNat_ofNat (show y % 16 * 16 + z / 4 < 256 by omega)
  have h1 : (x * 4 + y / 16) / 4 = x := by omega
  have h2 : (x * 4 + y / 16) % 4 * 16 + (y % 16 * 16 + z / 4) / 16 = y := by omega
  have h3 : (y % 16 * 16 + z / 4) % 16 * 4 = z := by omega
  simp only [encodeChars, hn, hm, h1, h2, h3]

theorem encodeChars_decodeThree {c e f : Char} (h : decodeThree c d e f = some bytes)
    (rest : Bytes) : encodeChars (bytes ++ rest) = c :: d :: e :: f :: encodeChars rest := by
  simp only [decodeThree, Option.bind_eq_bind, Option.bind_eq_some_iff] at h
  obtain ⟨x, hx, y, hy, z, hz, w, hw, h⟩ := h
  obtain ⟨hx', rfl⟩ := sextetChar_of_charSextet hx
  obtain ⟨hy', rfl⟩ := sextetChar_of_charSextet hy
  obtain ⟨hz', rfl⟩ := sextetChar_of_charSextet hz
  obtain ⟨hw', rfl⟩ := sextetChar_of_charSextet hw
  obtain rfl := Option.some.inj h
  have hn := toNat_ofNat (show x * 4 + y / 16 < 256 by omega)
  have hm := toNat_ofNat (show y % 16 * 16 + z / 4 < 256 by omega)
  have hl := toNat_ofNat (show z % 4 * 64 + w < 256 by omega)
  have h1 : (x * 4 + y / 16) / 4 = x := by omega
  have h2 : (x * 4 + y / 16) % 4 * 16 + (y % 16 * 16 + z / 4) / 16 = y := by omega
  have h3 : (y % 16 * 16 + z / 4) % 16 * 4 + (z % 4 * 64 + w) / 64 = z := by omega
  have h4 : (z % 4 * 64 + w) % 64 = w := by omega
  simp only [List.cons_append, List.nil_append, encodeChars, hn, hm, hl, h1, h2, h3, h4]

/-- A text that decodes is the encoding of its value: there is one text for
every byte string. -/
theorem encodeChars_of_decodeChars :
    ∀ {cs : List Char} {bytes : Bytes}, decodeChars cs = some bytes → encodeChars bytes = cs
  | [], bytes, h => by
    obtain rfl := Option.some.inj h
    rfl
  | [_], _, h => by cases h
  | [_, _], _, h => by cases h
  | [_, _, _], _, h => by cases h
  | c :: d :: e :: f :: rest, bytes, h => by
    rw [decodeChars] at h
    split_ifs at h with hlast hpad
    · obtain ⟨rfl, rfl⟩ := hlast
      subst hpad
      exact encodeChars_decodeOne h
    · obtain ⟨rfl, rfl⟩ := hlast
      exact encodeChars_decodeTwo h
    · simp only [Option.bind_eq_bind, Option.bind_eq_some_iff] at h
      obtain ⟨head, hhead, tail, htail, h⟩ := h
      obtain rfl := Option.some.inj h
      rw [encodeChars_decodeThree hhead, encodeChars_of_decodeChars htail]

theorem plain_of_mem_encodeChars (bytes : Bytes) : ∀ c ∈ encodeChars bytes, Plain c := by
  induction bytes using encodeChars.induct with
  | case1 a b c rest ih =>
    have ha := a.toNat_lt
    have hb := b.toNat_lt
    have hc := c.toNat_lt
    simp only [encodeChars, List.forall_mem_cons]
    exact ⟨plain_sextetChar (by omega), plain_sextetChar (by omega), plain_sextetChar (by omega),
      plain_sextetChar (by omega), ih⟩
  | case2 a b =>
    have ha := a.toNat_lt
    have hb := b.toNat_lt
    simp only [encodeChars, List.forall_mem_cons]
    exact ⟨plain_sextetChar (by omega), plain_sextetChar (by omega), plain_sextetChar (by omega),
      by decide, by simp⟩
  | case3 a =>
    have ha := a.toNat_lt
    simp only [encodeChars, List.forall_mem_cons]
    exact ⟨plain_sextetChar (by omega), plain_sextetChar (by omega), by decide, by decide, by simp⟩
  | case4 => simp [encodeChars]

/-- The base64 text of a byte string. -/
def encode (bytes : Bytes) : String := String.ofList (encodeChars bytes)

/-- The byte string of a base64 text. -/
def decode (text : String) : Option Bytes := decodeChars text.toList

@[simp] theorem decode_encode (bytes : Bytes) : decode (encode bytes) = some bytes := by
  rw [decode, encode, String.toList_ofList, decodeChars_encodeChars]

theorem encode_of_decode {text : String} (h : decode text = some bytes) : encode bytes = text := by
  rw [encode, encodeChars_of_decodeChars h, String.ofList_toList]

theorem plain_of_decode {text : String} (h : decode text = some bytes) :
    ∀ c ∈ text.toList, Plain c := by
  rw [← encode_of_decode h, encode, String.toList_ofList]
  exact plain_of_mem_encodeChars bytes

theorem plain_encode (bytes : Bytes) : ∀ c ∈ (encode bytes).toList, Plain c :=
  plain_of_decode (decode_encode bytes)

theorem length_encodeChars (bytes : Bytes) :
    (encodeChars bytes).length = 4 * ((bytes.length + 2) / 3) := by
  induction bytes using encodeChars.induct with
  | case1 a b c rest ih =>
    simp only [encodeChars, List.length_cons, ih]
    omega
  | case2 a b => simp [encodeChars]
  | case3 a => simp [encodeChars]
  | case4 => rfl

theorem length_encode (bytes : Bytes) :
    (encode bytes).toList.length = 4 * ((bytes.length + 2) / 3) := by
  rw [encode, String.toList_ofList, length_encodeChars]

end Lib.Base64
