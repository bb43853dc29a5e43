import ClipSync.Lib.Bytes
import Mathlib.Algebra.Order.Ring.Nat
import Mathlib.Tactic.Ring

/-!
# Numbers in network order

The number that a string of octets spells when the first octet is the highest. Octets
are the digits of base 256, so a string of known length is determined by its number, and
a shift to the right drops octets from the end and bits from the last octet that is left.
-/

namespace Lib

/-- The number spelled by octets, the highest first. -/
def ofBigEndian (bytes : Bytes) : ℕ := bytes.foldl (fun n octet => n * 256 + octet.toNat) 0

theorem foldl_bigEndian (n : ℕ) (bytes : Bytes) :
    bytes.foldl (fun n octet => n * 256 + octet.toNat) n =
      n * 256 ^ bytes.length + ofBigEndian bytes := by
  induction bytes generalizing n with
  | nil => simp [ofBigEndian]
  | cons octet bytes ih =>
    rw [ofBigEndian, List.foldl_cons, List.foldl_cons, ih, ih (0 * 256 + octet.toNat),
      List.length_cons, pow_succ]
    ring

theorem ofBigEndian_append (xs ys : Bytes) :
    ofBigEndian (xs ++ ys) = ofBigEndian xs * 256 ^ ys.length + ofBigEndian ys := by
  rw [ofBigEndian, List.foldl_append, foldl_bigEndian]
  rfl

theorem ofBigEndian_cons (octet : UInt8) (bytes : Bytes) :
    ofBigEndian (octet :: bytes) = octet.toNat * 256 ^ bytes.length + ofBigEndian bytes := by
  rw [ofBigEndian, List.foldl_cons, foldl_bigEndian, Nat.zero_mul, Nat.zero_add]

theorem ofBigEndian_lt (bytes : Bytes) : ofBigEndian bytes < 256 ^ bytes.length := by
  induction bytes with
  | nil => decide
  | cons octet bytes ih =>
    have hoctet : octet.toNat + 1 ≤ 256 := octet.toNat_lt
    calc ofBigEndian (octet :: bytes)
        = octet.toNat * 256 ^ bytes.length + ofBigEndian bytes := ofBigEndian_cons octet bytes
      _ < octet.toNat * 256 ^ bytes.length + 256 ^ bytes.length := Nat.add_lt_add_left ih _
      _ = (octet.toNat + 1) * 256 ^ bytes.length := by ring
      _ ≤ 256 * 256 ^ bytes.length := Nat.mul_le_mul_right _ hoctet
      _ = 256 ^ (octet :: bytes).length := by rw [List.length_cons, pow_succ']

theorem mul_add_inj {m a b c d : ℕ} (hc : c < m) (hd : d < m) :
    a * m + c = b * m + d ↔ a = b ∧ c = d := by
  have hm : 0 < m := Nat.zero_lt_of_lt hc
  constructor
  · intro h
    have hdiv := congrArg (· / m) h
    simp only [Nat.add_comm (_ * m), Nat.add_mul_div_right _ _ hm, Nat.div_eq_of_lt hc,
      Nat.div_eq_of_lt hd, Nat.zero_add] at hdiv
    subst hdiv
    exact ⟨rfl, Nat.add_left_cancel h⟩
  · rintro ⟨rfl, rfl⟩
    rfl

theorem ofBigEndian_inj {xs ys : Bytes} (hlength : xs.length = ys.length) :
    ofBigEndian xs = ofBigEndian ys ↔ xs = ys := by
  refine ⟨fun h => ?_, congrArg _⟩
  induction xs generalizing ys with
  | nil =>
    cases ys with
    | nil => rfl
    | cons y ys => cases hlength
  | cons x xs ih =>
    cases ys with
    | nil => cases hlength
    | cons y ys =>
      have htails : xs.length = ys.length := Nat.succ.inj hlength
      rw [ofBigEndian_cons, ofBigEndian_cons, htails,
        mul_add_inj (htails ▸ ofBigEndian_lt xs) (ofBigEndian_lt ys)] at h
      rw [UInt8.toNat_inj.1 h.1, ih htails h.2]

theorem ofBigEndian_shiftRight_append (xs ys : Bytes) :
    ofBigEndian (xs ++ ys) >>> (8 * ys.length) = ofBigEndian xs := by
  have hpow : 2 ^ (8 * ys.length) = 256 ^ ys.length := by rw [pow_mul]; rfl
  rw [Nat.shiftRight_eq_div_pow, hpow, ofBigEndian_append, Nat.add_comm,
    Nat.add_mul_div_right _ _ (Nat.pow_pos (by decide)), Nat.div_eq_of_lt (ofBigEndian_lt ys),
    Nat.zero_add]

theorem ofBigEndian_shiftRight_cons (xs ys : Bytes) (octet : UInt8) {bits : ℕ} (h : bits ≤ 8) :
    ofBigEndian (xs ++ octet :: ys) >>> (8 * ys.length + (8 - bits)) =
      ofBigEndian xs * 2 ^ bits + octet.toNat / 2 ^ (8 - bits) := by
  have hsplit : xs ++ octet :: ys = (xs ++ [octet]) ++ ys := by simp
  have hbits : (256 : ℕ) = 2 ^ bits * 2 ^ (8 - bits) := by
    rw [← pow_add, Nat.add_sub_cancel' h]
    rfl
  have hhead : ofBigEndian (xs ++ [octet]) =
      octet.toNat + ofBigEndian xs * 2 ^ bits * 2 ^ (8 - bits) := by
    rw [ofBigEndian_append, List.length_singleton, pow_one, Nat.mul_assoc, ← hbits, Nat.add_comm]
    simp [ofBigEndian]
  rw [Nat.shiftRight_add, hsplit, ofBigEndian_shiftRight_append, hhead,
    Nat.shiftRight_eq_div_pow, Nat.add_mul_div_right _ _ (Nat.two_pow_pos _), Nat.add_comm]

section Prefixes

variable {xs ys : Bytes}

/-- Numbers that agree in the highest octets. -/
theorem shiftRight_eq_iff_take (hlength : xs.length = ys.length) (count : ℕ) :
    ofBigEndian xs >>> (8 * ys.length - 8 * count) =
        ofBigEndian ys >>> (8 * ys.length - 8 * count) ↔ xs.take count = ys.take count := by
  have hshift : ∀ {bytes : Bytes}, bytes.length = ys.length →
      ofBigEndian bytes >>> (8 * ys.length - 8 * count) = ofBigEndian (bytes.take count) := by
    intro bytes hbytes
    have hdrop : 8 * (bytes.drop count).length = 8 * ys.length - 8 * count := by
      rw [List.length_drop, hbytes, Nat.mul_sub]
    rw [← hdrop, ← ofBigEndian_shiftRight_append (bytes.take count) (bytes.drop count),
      List.take_append_drop]
  rw [hshift hlength, hshift rfl, ofBigEndian_inj]
  rw [List.length_take, List.length_take, hlength]

theorem shiftRight_eq_iff_take_bits (hlength : xs.length = ys.length) {count bits : ℕ}
    (hbits : bits ≤ 8) {x y : UInt8} (hx : xs[count]? = some x) (hy : ys[count]? = some y) :
    ofBigEndian xs >>> (8 * ys.length - (8 * count + bits)) =
        ofBigEndian ys >>> (8 * ys.length - (8 * count + bits)) ↔
      xs.take count = ys.take count ∧ x.toNat / 2 ^ (8 - bits) = y.toNat / 2 ^ (8 - bits) := by
  have hshift : ∀ {bytes : Bytes} {octet : UInt8}, bytes.length = ys.length →
      bytes[count]? = some octet →
      ofBigEndian bytes >>> (8 * ys.length - (8 * count + bits)) =
        ofBigEndian (bytes.take count) * 2 ^ bits + octet.toNat / 2 ^ (8 - bits) := by
    intro bytes octet hbytes hoctet
    obtain ⟨hinside, rfl⟩ := List.getElem?_eq_some_iff.1 hoctet
    have hdrop : 8 * (bytes.drop (count + 1)).length + (8 - bits) =
        8 * ys.length - (8 * count + bits) := by
      rw [List.length_drop, hbytes]
      omega
    rw [← hdrop, ← ofBigEndian_shiftRight_cons _ _ _ hbits, ← List.drop_eq_getElem_cons hinside,
      List.take_append_drop]
  have hlow : ∀ octet : UInt8, octet.toNat / 2 ^ (8 - bits) < 2 ^ bits := by
    intro octet
    rw [Nat.div_lt_iff_lt_mul (Nat.two_pow_pos _), ← pow_add, Nat.add_sub_cancel' hbits]
    exact octet.toNat_lt
  rw [hshift hlength hx, hshift rfl hy, mul_add_inj (hlow x) (hlow y), ofBigEndian_inj]
  rw [List.length_take, List.length_take, hlength]

end Prefixes

end Lib
