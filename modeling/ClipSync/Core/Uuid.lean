import ClipSync.Lib.Hex
import Mathlib.Data.Vector.Basic

/-!
# Item identifiers

Sixteen octets, written as five groups of hexadecimal digits. `parseStr` reads the
hyphenated form, the only one that passes the validation of an envelope.
-/

namespace ClipSync

open Lib

structure Uuid where
  bytes : List.Vector UInt8 16
deriving DecidableEq

namespace Uuid

/-- Groups of 8, 4, 4, 4 and 12 digits. -/
def hyphenate (digits : List Char) : List Char :=
  digits.take 8 ++ '-' :: (digits.drop 8).take 4 ++ '-' :: (digits.drop 12).take 4 ++
    '-' :: (digits.drop 16).take 4 ++ '-' :: digits.drop 20

def toText (id : Uuid) : String := String.ofList (hyphenate (Hex.encodeChars id.bytes.toList))

/-- The digits between the hyphens. -/
def groups (text : List Char) : Option (List Char) :=
  if text.length = 36 ∧ text[8]? = some '-' ∧ text[13]? = some '-' ∧ text[18]? = some '-' ∧
      text[23]? = some '-' then
    some (text.take 8 ++ (text.drop 9).take 4 ++ (text.drop 14).take 4 ++
      (text.drop 19).take 4 ++ text.drop 24)
  else none

def parseStr (text : String) : Option Uuid := do
  let bytes ← Hex.decodeChars (← groups text.toList)
  if h : bytes.length = 16 then some ⟨⟨bytes, h⟩⟩ else none

theorem groups_append {a b c d e : List Char} (ha : a.length = 8) (hb : b.length = 4)
    (hc : c.length = 4) (hd : d.length = 4) (he : e.length = 12) :
    groups (a ++ '-' :: b ++ '-' :: c ++ '-' :: d ++ '-' :: e) =
      some (a ++ b ++ c ++ d ++ e) := by
  simp [groups, ha, hb, hc, hd, he, List.drop_append, List.drop_of_length_le]

theorem groups_hyphenate {digits : List Char} (h : digits.length = 32) :
    groups (hyphenate digits) = some digits := by
  have hsplit : digits.take 8 ++ (digits.drop 8).take 4 ++ (digits.drop 12).take 4 ++
      (digits.drop 16).take 4 ++ digits.drop 20 = digits := by
    simp [← List.take_add, List.take_append_drop]
  rw [hyphenate, groups_append (by simp [h]) (by simp [h]) (by simp [h]) (by simp [h])
    (by simp [h]), hsplit]

theorem parseStr_toText (id : Uuid) : parseStr id.toText = some id := by
  have hlength : (Hex.encodeChars id.bytes.toList).length = 32 := by
    simp [Hex.length_encodeChars]
  simp [parseStr, toText, groups_hyphenate hlength, Hex.decodeChars_encodeChars]

theorem toText_injective : Function.Injective toText := by
  intro a b h
  have ha := parseStr_toText a
  rw [h, parseStr_toText] at ha
  exact (Option.some.inj ha).symm

end Uuid

end ClipSync
