import ClipSync.Core.Crypto
import ClipSync.Lib.BigEndian

/-!
# Binding encodings

What is signed for a join, what a message is sealed under, and what is hashed for a room
and for a short authentication string are strings of octets put together from several
values. A signature, a sealed message, a room or a string is bound to these values only if
no others are put together to the same octets: the length before each field of a join, the
separators of associated data and the order of two bundles see to that.
-/

namespace ClipSync

open Lib

/-! ## The signature of a join -/

/-- `u32::to_be_bytes`. -/
def beBytes (n : ℕ) : Bytes :=
  [UInt8.ofNat (n / 2 ^ 24), UInt8.ofNat (n / 2 ^ 16), UInt8.ofNat (n / 2 ^ 8), UInt8.ofNat n]

/-- A field behind its length, if that fits into 32 bits. -/
def lengthPrefixed (field : Bytes) : Option Bytes :=
  if field.length < 2 ^ 32 then some (beBytes field.length ++ field) else none

def joinDomain : Bytes := utf8Bytes "clipboard-sync-join-v1"

/-- The input of a join signature; a field that is too long is an error. -/
def joinSigMsg (nonce : Bytes) (roomId deviceId : String) (bundle : Bytes) : Option Bytes := do
  let nonce ← lengthPrefixed nonce
  let roomId ← lengthPrefixed (utf8Bytes roomId)
  let deviceId ← lengthPrefixed (utf8Bytes deviceId)
  let bundle ← lengthPrefixed bundle
  return joinDomain ++ nonce ++ roomId ++ deviceId ++ bundle

theorem ofBigEndian_beBytes {n : ℕ} (h : n < 2 ^ 32) : ofBigEndian (beBytes n) = n := by
  simp only [beBytes, ofBigEndian, List.foldl_cons, List.foldl_nil, UInt8.toNat_ofNat']
  omega

/-- A field and what comes after it can be told apart. -/
theorem lengthPrefixed_append_inj {field field' encoded encoded' rest rest' : Bytes}
    (hfield : lengthPrefixed field = some encoded)
    (hfield' : lengthPrefixed field' = some encoded')
    (h : encoded ++ rest = encoded' ++ rest') : field = field' ∧ rest = rest' := by
  obtain ⟨hlength, heq⟩ := Option.ite_none_right_eq_some.1 hfield
  obtain ⟨hlength', heq'⟩ := Option.ite_none_right_eq_some.1 hfield'
  cases heq
  cases heq'
  rw [List.append_assoc, List.append_assoc] at h
  obtain ⟨hprefixes, htails⟩ := List.append_inj h rfl
  have hlengths : field.length = field'.length := by
    rw [← ofBigEndian_beBytes hlength, hprefixes, ofBigEndian_beBytes hlength']
  exact List.append_inj htails hlengths

theorem joinSigMsg_eq_some {nonce bundle message : Bytes} {roomId deviceId : String}
    (h : joinSigMsg nonce roomId deviceId bundle = some message) :
    ∃ n r d b, lengthPrefixed nonce = some n ∧ lengthPrefixed (utf8Bytes roomId) = some r ∧
      lengthPrefixed (utf8Bytes deviceId) = some d ∧ lengthPrefixed bundle = some b ∧
      message = joinDomain ++ (n ++ (r ++ (d ++ (b ++ [])))) := by
  simp only [joinSigMsg, Option.bind_eq_bind, Option.bind_eq_some_iff] at h
  obtain ⟨n, hn, r, hr, d, hd, b, hb, hmessage⟩ := h
  cases hmessage
  exact ⟨n, r, d, b, hn, hr, hd, hb, by simp⟩

/-- No two joins are signed alike. -/
theorem joinSigMsg_inj {nonce bundle nonce' bundle' message : Bytes}
    {roomId deviceId roomId' deviceId' : String}
    (h : joinSigMsg nonce roomId deviceId bundle = some message)
    (h' : joinSigMsg nonce' roomId' deviceId' bundle' = some message) :
    nonce = nonce' ∧ roomId = roomId' ∧ deviceId = deviceId' ∧ bundle = bundle' := by
  obtain ⟨n, r, d, b, hn, hr, hd, hb, rfl⟩ := joinSigMsg_eq_some h
  obtain ⟨n', r', d', b', hn', hr', hd', hb', heq⟩ := joinSigMsg_eq_some h'
  obtain ⟨hnonce, heq⟩ := lengthPrefixed_append_inj hn hn' (List.append_cancel_left heq)
  obtain ⟨hroom, heq⟩ := lengthPrefixed_append_inj hr hr' heq
  obtain ⟨hdevice, heq⟩ := lengthPrefixed_append_inj hd hd' heq
  obtain ⟨hbundle, -⟩ := lengthPrefixed_append_inj hb hb' heq
  exact ⟨hnonce, utf8Bytes_injective hroom, utf8Bytes_injective hdevice, hbundle⟩

/-- Fields that fit can be signed. -/
theorem joinSigMsg_isSome {nonce bundle : Bytes} {roomId deviceId : String}
    (hnonce : nonce.length < 2 ^ 32) (hroom : (utf8Bytes roomId).length < 2 ^ 32)
    (hdevice : (utf8Bytes deviceId).length < 2 ^ 32) (hbundle : bundle.length < 2 ^ 32) :
    ∃ message, joinSigMsg nonce roomId deviceId bundle = some message := by
  simp only [joinSigMsg, lengthPrefixed, if_pos hnonce, if_pos hroom, if_pos hdevice,
    if_pos hbundle]
  exact ⟨_, rfl⟩

/-! ## All encodings -/

theorem sasInput_eq_iff {nonceA nonceA' : Bytes} (hlength : nonceA.length = nonceA'.length)
    {a b c d : PubBundle} :
    sasInput nonceA a b = sasInput nonceA' c d ↔
      nonceA = nonceA' ∧ (a = c ∧ b = d ∨ a = d ∧ b = c) := by
  rw [sasInput_eq, sasInput_eq, List.append_assoc, List.append_assoc, List.append_cancel_left_eq,
    ← sortedBundles_eq_iff]
  constructor
  · exact fun h => List.append_inj h hlength
  · rintro ⟨rfl, h⟩
    rw [h]

/-- The values that are signed, sealed under or hashed can be read off the octets. -/
theorem encodings_injective (prim : Primitives) :
    (∀ nonce roomId deviceId bundle nonce' roomId' deviceId' bundle',
      nonce.length < 2 ^ 32 → (utf8Bytes roomId).length < 2 ^ 32 →
      (utf8Bytes deviceId).length < 2 ^ 32 → bundle.length < 2 ^ 32 →
      joinSigMsg nonce roomId deviceId bundle = joinSigMsg nonce' roomId' deviceId' bundle' →
      nonce = nonce' ∧ roomId = roomId' ∧ deviceId = deviceId' ∧ bundle = bundle') ∧
    (∀ roomId senderFp receiverFp roomId' senderFp' receiverFp',
      NulFree roomId → NulFree senderFp → NulFree roomId' → NulFree senderFp' →
      aad roomId senderFp receiverFp = aad roomId' senderFp' receiverFp' →
      roomId = roomId' ∧ senderFp = senderFp' ∧ receiverFp = receiverFp') ∧
    (∀ a b, roomId prim a b = hexLower ((prim.sha256 (sortedBundles a b)).toList.take 16)) ∧
    (∀ a b c d, sortedBundles a b = sortedBundles c d ↔ a = c ∧ b = d ∨ a = d ∧ b = c) ∧
    (∀ nonceA a b, sasCode prim nonceA a b = sixDigits (prim.sha256 (sasInput nonceA a b))) ∧
    ∀ nonceA nonceA' a b c d, nonceA.length = nonceA'.length →
      (sasInput nonceA a b = sasInput nonceA' c d ↔
        nonceA = nonceA' ∧ (a = c ∧ b = d ∨ a = d ∧ b = c)) := by
  refine ⟨?_, ?_, roomId_eq prim, fun _ _ _ _ => sortedBundles_eq_iff, fun _ _ _ => rfl,
    fun _ _ _ _ _ _ hlength => sasInput_eq_iff hlength⟩
  · intro nonce roomId deviceId bundle nonce' roomId' deviceId' bundle' hnonce hroom hdevice
      hbundle heq
    obtain ⟨message, hmessage⟩ := joinSigMsg_isSome hnonce hroom hdevice hbundle
    exact joinSigMsg_inj hmessage (heq.symm.trans hmessage)
  · intro roomId senderFp receiverFp roomId' senderFp' receiverFp' hroom hsender hroom' hsender'
    exact aad_injective hroom hroom' hsender hsender'

/-- Characters that move from one field to the next change what is signed and sealed under. -/
theorem encodings_injective_sample :
    joinSigMsg [] "ab" "c" [] ≠ joinSigMsg [] "a" "bc" [] ∧
      aad "ab" "c" "d" ≠ aad "a" "bc" "d" := by
  obtain ⟨hjoin, haad, -⟩ := encodings_injective .sample
  constructor
  · intro heq
    have hfields := hjoin _ _ _ _ _ _ _ _ (by decide) (by decide) (by decide) (by decide) heq
    exact absurd hfields.2.1 (by decide)
  · intro heq
    have hfields := haad _ _ _ _ _ _ (by decide) (by decide) (by decide) (by decide) heq
    exact absurd hfields.1 (by decide)

end ClipSync
