import ClipSync.Lib.BigEndian
import Mathlib.Data.Vector.Basic

/-!
# Trusted proxies

`crates/server/src/config.rs`: the network of the trusted proxy. A network is written as an
address with the length of the prefix that its members share. The octets of the two
addresses are compared one by one up to the last whole octet of the prefix and under a mask
in the next one. Slices, indices and shifts that are out of range panic, which is `none` here.
-/

namespace ClipSync

open Lib

abbrev Ipv4Addr := List.Vector UInt8 4

abbrev Ipv6Addr := List.Vector UInt8 16

inductive IpAddr where
  | v4 (addr : Ipv4Addr)
  | v6 (addr : Ipv6Addr)
deriving DecidableEq

def IpAddr.unspecified : IpAddr := .v4 (.replicate 4 0)

/-- An exact address or a range. -/
inductive IpNet where
  | v4 (network : Ipv4Addr) (prefixBits : UInt8)
  | v6 (network : Ipv6Addr) (prefixBits : UInt8)
deriving DecidableEq

/-! ## Text -/

/-- `str::split_once`: the text before and after the first separator. -/
def splitOnce (separator : Char) (text : List Char) : Option (List Char × List Char) :=
  match text.span (· ≠ separator) with
  | (before, _ :: after) => some (before, after)
  | (_, []) => none

/-- `str::parse::<u8>`: decimal digits, after an optional plus sign. -/
def parseU8 (text : List Char) : Option UInt8 :=
  let digits := match text with
    | '+' :: digits => digits
    | digits => digits
  let value := digits.foldl (fun n digit => n * 10 + (digit.toNat - '0'.toNat)) 0
  if digits.isEmpty || !digits.all Char.isDigit || value ≥ 256 then none
  else some (UInt8.ofNat value)

/-- The address of a network and the length of its prefix, if it is given. -/
def IpNet.splitValue (debug : String → String) (value : String) :
    Except String (String × Option UInt8) :=
  match splitOnce '/' value.toList with
  | some (address, bits) =>
    match parseU8 bits with
    | some bits => .ok (String.ofList address, some bits)
    | none => .error ("invalid CIDR prefix in " ++ debug value)
  | none => .ok (value, none)

/-- Reads an address or a range. How the standard library reads an address and how it quotes
text in a message are parameters. -/
def IpNet.parse (fromStr : String → Option IpAddr) (debug : String → String) (value : String) :
    Except String IpNet := do
  let (address, prefixBits) ← splitValue debug value
  match fromStr address with
  | none => .error ("invalid IP address in " ++ debug value)
  | some (.v4 addr) =>
    let bits := prefixBits.getD 32
    if bits > 32 then .error ("IPv4 prefix /" ++ toString bits.toNat ++ " exceeds /32")
    else .ok (.v4 addr bits)
  | some (.v6 addr) =>
    let bits := prefixBits.getD 128
    if bits > 128 then .error ("IPv6 prefix /" ++ toString bits.toNat ++ " exceeds /128")
    else .ok (.v6 addr bits)

/-! ## Membership -/

/-- `&bytes[..n]`. -/
def sliceTo (bytes : Bytes) (n : ℕ) : Option Bytes :=
  if n ≤ bytes.length then some (bytes.take n) else none

/-- The shift of an octet to the left, which must be by less than its width. -/
def checkedShl (octet bits : UInt8) : Option UInt8 :=
  if bits < 8 then some (octet <<< bits) else none

def prefixMatches (network address : Bytes) (prefixBits : UInt8) : Option Bool := do
  let fullBytes := (prefixBits / 8).toNat
  let remainingBits := prefixBits % 8
  if (← sliceTo network fullBytes) ≠ (← sliceTo address fullBytes) then
    return false
  if remainingBits = 0 then
    return true
  let mask ← checkedShl 0xff (8 - remainingBits)
  return (← network[fullBytes]?) &&& mask = (← address[fullBytes]?) &&& mask

namespace IpNet

/-- Whether an address falls inside the network. -/
def contains : IpNet → IpAddr → Option Bool
  | v4 network prefixBits, .v4 addr => prefixMatches network.toList addr.toList prefixBits
  | v6 network prefixBits, .v6 addr => prefixMatches network.toList addr.toList prefixBits
  | v4 .., .v6 _ | v6 .., .v4 _ => some false

/-- What a network is for: the addresses of its family whose numbers agree with its own in
the first bits. -/
def Covers : IpNet → IpAddr → Prop
  | v4 network prefixBits, .v4 addr =>
    ofBigEndian network.toList >>> (32 - prefixBits.toNat) =
      ofBigEndian addr.toList >>> (32 - prefixBits.toNat)
  | v6 network prefixBits, .v6 addr =>
    ofBigEndian network.toList >>> (128 - prefixBits.toNat) =
      ofBigEndian addr.toList >>> (128 - prefixBits.toNat)
  | v4 .., .v6 _ | v6 .., .v4 _ => False

instance : (net : IpNet) → (ip : IpAddr) → Decidable (net.Covers ip)
  | v4 .., .v4 _ | v6 .., .v6 _ => inferInstanceAs (Decidable (_ = _))
  | v4 .., .v6 _ | v6 .., .v4 _ => inferInstanceAs (Decidable False)

/-- The prefix is no longer than the addresses of the family. -/
def WellFormed : IpNet → Prop
  | v4 _ prefixBits => prefixBits.toNat ≤ 32
  | v6 _ prefixBits => prefixBits.toNat ≤ 128

theorem wellFormed_of_parse {fromStr : String → Option IpAddr} {debug : String → String}
    {value : String} {net : IpNet} (h : parse fromStr debug value = .ok net) : net.WellFormed := by
  unfold parse at h
  cases hparts : splitValue debug value with
  | error e => rw [hparts] at h; cases h
  | ok parts =>
    rw [hparts] at h
    dsimp only [bind, Except.bind] at h
    split at h
    · cases h
    · split at h
      · cases h
      · rename_i hbits
        cases h
        exact UInt8.le_iff_toNat_le.1 (UInt8.not_lt.1 hbits)
    · split at h
      · cases h
      · rename_i hbits
        cases h
        exact UInt8.le_iff_toNat_le.1 (UInt8.not_lt.1 hbits)

end IpNet

theorem toNat_and_mask (octet : UInt8) {bits : UInt8} (h : bits < 8) :
    (octet &&& 0xff <<< bits).toNat = octet.toNat / 2 ^ bits.toNat * 2 ^ bits.toNat := by
  have hbits : bits.toNat < 8 := UInt8.lt_iff_toNat_lt.1 h
  have hoctet : ∀ {i}, 8 ≤ i → octet.toNat.testBit i = false := fun hi =>
    Nat.testBit_lt_two_pow (octet.toNat_lt.trans_le (Nat.pow_le_pow_right (by decide) hi))
  have hall : ∀ i, (0xff : UInt8).toNat.testBit i = decide (i < 8) :=
    Nat.testBit_two_pow_sub_one 8
  apply Nat.eq_of_testBit_eq
  intro i
  rw [UInt8.toNat_and, UInt8.toNat_shiftLeft, Nat.mod_eq_of_lt hbits, Nat.testBit_and,
    Nat.testBit_mod_two_pow, Nat.testBit_shiftLeft, Nat.testBit_mul_two_pow,
    Nat.testBit_div_two_pow, hall]
  by_cases hwithin : i < 8
  · by_cases hhigh : bits.toNat ≤ i
    · have hmask : i - bits.toNat < 8 := by omega
      simp [hwithin, hhigh, hmask]
    · simp [hhigh]
  · rw [hoctet (Nat.le_of_not_lt hwithin)]
    by_cases hhigh : bits.toNat ≤ i
    · simp [hhigh, hoctet (Nat.le_of_not_lt hwithin)]
    · simp [hhigh]

theorem and_mask_eq_iff (x y : UInt8) {bits : UInt8} (h : bits < 8) :
    x &&& 0xff <<< bits = y &&& 0xff <<< bits ↔
      x.toNat / 2 ^ bits.toNat = y.toNat / 2 ^ bits.toNat := by
  rw [← UInt8.toNat_inj, toNat_and_mask x h, toNat_and_mask y h]
  exact Nat.mul_left_inj (Nat.two_pow_pos _).ne'

/-- The comparison is the one of the numbers, and nothing is out of range. -/
theorem prefixMatches_eq {network address : Bytes} {prefixBits : UInt8}
    (hlength : network.length = address.length) (hbits : prefixBits.toNat ≤ 8 * address.length) :
    prefixMatches network address prefixBits =
      some (decide (ofBigEndian network >>> (8 * address.length - prefixBits.toNat) =
        ofBigEndian address >>> (8 * address.length - prefixBits.toNat))) := by
  have hfull : (prefixBits / 8).toNat = prefixBits.toNat / 8 := UInt8.toNat_div _ _
  have hremaining : (prefixBits % 8).toNat = prefixBits.toNat % 8 := UInt8.toNat_mod _ _
  have hinside : prefixBits.toNat / 8 ≤ address.length := by omega
  have htake : ∀ {bytes : Bytes}, bytes.length = address.length →
      sliceTo bytes (prefixBits.toNat / 8) = some (bytes.take (prefixBits.toNat / 8)) :=
    fun hbytes => if_pos (hbytes ▸ hinside)
  simp only [prefixMatches, hfull, htake hlength, htake rfl, Option.bind_eq_bind, Option.bind_some]
  by_cases haligned : prefixBits.toNat % 8 = 0
  · have hzero : prefixBits % 8 = 0 := UInt8.toNat_inj.1 (hremaining.trans haligned)
    have hsum : prefixBits.toNat = 8 * (prefixBits.toNat / 8) := by omega
    have hiff := shiftRight_eq_iff_take hlength (prefixBits.toNat / 8)
    rw [← hsum] at hiff
    simp only [hiff, hzero]
    by_cases heq : network.take (prefixBits.toNat / 8) = address.take (prefixBits.toNat / 8)
    · simp [heq]
    · simp [heq]
  · have hnonzero : prefixBits % 8 ≠ 0 := fun heq => haligned (by rw [← hremaining, heq]; rfl)
    have hnext : prefixBits.toNat / 8 < address.length := by omega
    have hsum : prefixBits.toNat = 8 * (prefixBits.toNat / 8) + prefixBits.toNat % 8 := by omega
    have hless : prefixBits % 8 ≤ 8 := UInt8.le_iff_toNat_le.2 (by rw [hremaining]; simp; omega)
    have hshift : (8 - prefixBits % 8).toNat = 8 - prefixBits.toNat % 8 := by
      rw [UInt8.toNat_sub_of_le _ _ hless, hremaining]
      rfl
    have hlt : 8 - prefixBits % 8 < 8 := UInt8.lt_iff_toNat_lt.2 (by rw [hshift]; simp; omega)
    have hmask : checkedShl 0xff (8 - prefixBits % 8) = some (0xff <<< (8 - prefixBits % 8)) :=
      if_pos hlt
    have hx : network[prefixBits.toNat / 8]? = some network[prefixBits.toNat / 8] := by simp
    have hy : address[prefixBits.toNat / 8]? = some address[prefixBits.toNat / 8] := by simp
    have hmod : prefixBits.toNat % 8 ≤ 8 := by omega
    have hiff := shiftRight_eq_iff_take_bits hlength hmod hx hy
    rw [← hsum, ← hshift, ← and_mask_eq_iff _ _ hlt] at hiff
    simp only [hiff, hnonzero, hmask, hx, hy, Option.bind_some, if_false]
    by_cases heq : network.take (prefixBits.toNat / 8) = address.take (prefixBits.toNat / 8)
    · simp [heq]
    · simp [heq]

namespace IpNet

variable {fromStr : String → Option IpAddr} {debug : String → String} {net : IpNet}

theorem WellFormed.contains_eq (h : net.WellFormed) (ip : IpAddr) :
    net.contains ip = some (decide (net.Covers ip)) := by
  match net, ip with
  | .v4 network prefixBits, .v4 addr =>
    have hwidth : 8 * addr.toList.length = 32 := by rw [addr.toList_length]
    rw [contains, prefixMatches_eq (by simp) (hwidth.symm ▸ h), hwidth]
    rfl
  | .v6 network prefixBits, .v6 addr =>
    have hwidth : 8 * addr.toList.length = 128 := by rw [addr.toList_length]
    rw [contains, prefixMatches_eq (by simp) (hwidth.symm ▸ h), hwidth]
    rfl
  | .v4 .., .v6 _ => rfl
  | .v6 .., .v4 _ => rfl

/-- A network that has been read contains the addresses it covers, and nothing is out of
range in the comparison. -/
theorem contains_of_parse {value : String} (h : parse fromStr debug value = .ok net)
    (ip : IpAddr) : net.WellFormed ∧ net.contains ip = some (decide (net.Covers ip)) :=
  ⟨wellFormed_of_parse h, (wellFormed_of_parse h).contains_eq ip⟩

/-- Of an address with host bits, the first twenty bits count. -/
theorem contains_of_parse_sample :
    (v4 ⟨[10, 1, 18, 3], rfl⟩ 20).contains (.v4 ⟨[10, 1, 31, 9], rfl⟩) = some true ∧
      (v4 ⟨[10, 1, 18, 3], rfl⟩ 20).contains (.v4 ⟨[10, 1, 32, 9], rfl⟩) = some false := by
  have hparse : parse (fun _ => some (.v4 ⟨[10, 1, 18, 3], rfl⟩)) id
      (String.ofList "10.1.18.3/20".toList) = .ok (v4 ⟨[10, 1, 18, 3], rfl⟩ 20) := by
    rw [parse, splitValue, String.toList_ofList]
    decide
  refine ⟨?_, ?_⟩
  · rw [(contains_of_parse hparse _).2]
    decide +kernel
  · rw [(contains_of_parse hparse _).2]
    decide +kernel

end IpNet

end ClipSync
