import ClipSync.Core.Protocol
import ClipSync.Lib.FileSystem
import ClipSync.Lib.Hex
import Mathlib.Data.String.Basic
import Mathlib.Data.List.Lex

/-!
# Identities, session keys and sealed messages

`crates/core/src/crypto.rs` without the identity file: fingerprints and room
identifiers, short authentication strings, the derivation of the two directional
keys of a pair, and the sealing of a message under associated data. The algorithms
themselves are third-party code and enter as `Primitives`.
-/

namespace ClipSync

open Lib

abbrev Key := List.Vector UInt8 32

abbrev Nonce := List.Vector UInt8 24

/-- The algorithms of the cryptographic crates. `signPublic` and `dhPublic` give
the public key of a secret; `encrypt` and `decrypt` take the key, the nonce, the
associated data and the message. -/
structure Primitives where
  sha256 : Bytes → List.Vector UInt8 32
  signPublic : Key → Key
  verifyStrict : Key → Bytes → List.Vector UInt8 64 → Bool
  dhPublic : Key → Key
  diffieHellman : Key → Key → Key
  wasContributory : Key → Bool
  hkdfExpand : Key → Bytes → Option Key
  encrypt : Key → Nonce → Bytes → Bytes → Option Bytes
  decrypt : Key → Nonce → Bytes → Bytes → Option Bytes

inductive CryptoError where
  | sameIdentity
  | nonContributoryDh
  | kdfExpand
  | encryption
  | decryption
  | sealedTooShort
  | invalidGeneration (generation : UInt64)
  | invalidSecretLength
  | io (error : IoError)
  | json
  | base64
deriving DecidableEq

def hexLower (bytes : Bytes) : String := Hex.encode bytes

/-! ## Fingerprints and room identifiers -/

variable (prim : Primitives)

/-- The canonical fingerprint of a public bundle. -/
def bundleFp (bundle : PubBundle) : String :=
  hexLower (prim.sha256 (bundleBytes bundle)).toList

def deviceId (signPk : Key) : String :=
  hexLower ((prim.sha256 signPk.toList).toList.take 8)

/-- Byte strings in the order of Rust slices. -/
def bytesLe (first second : Bytes) : Bool :=
  first.map UInt8.toNat ≤ second.map UInt8.toNat

/-- The order-independent room identifier of two bundles. -/
def roomId (first second : PubBundle) : String :=
  let firstBytes := bundleBytes first
  let secondBytes := bundleBytes second
  let input :=
    if bytesLe firstBytes secondBytes then firstBytes ++ secondBytes
    else secondBytes ++ firstBytes
  hexLower ((prim.sha256 input).toList.take 16)

/-- What is hashed of two bundles, the smaller one first. -/
def sortedBundles (first second : PubBundle) : Bytes :=
  let firstBytes := bundleBytes first
  let secondBytes := bundleBytes second
  if bytesLe firstBytes secondBytes then firstBytes ++ secondBytes
  else secondBytes ++ firstBytes

theorem roomId_eq (first second : PubBundle) : roomId prim first second =
    hexLower ((prim.sha256 (sortedBundles first second)).toList.take 16) := rfl

theorem sortedBundles_comm (first second : PubBundle) :
    sortedBundles first second = sortedBundles second first := by
  have hinj : Function.Injective (List.map UInt8.toNat) :=
    List.map_injective_iff.2 fun _ _ => UInt8.toNat_inj.1
  simp only [sortedBundles, bytesLe, decide_eq_true_eq]
  rcases lt_trichotomy ((bundleBytes first).map UInt8.toNat)
    ((bundleBytes second).map UInt8.toNat) with h | h | h
  · rw [if_pos h.le, if_neg h.not_ge]
  · rw [hinj h]
  · rw [if_neg h.not_ge, if_pos h.le]

theorem length_bundleBytes (bundle : PubBundle) : (bundleBytes bundle).length = 64 := by
  rw [bundleBytes, List.length_append, List.Vector.toList_length, List.Vector.toList_length]
  rfl

theorem bundleBytes_injective : Function.Injective bundleBytes := by
  rintro ⟨sign, dh⟩ ⟨sign', dh'⟩ h
  obtain ⟨hsign, hdh⟩ := List.append_inj h (by simp)
  cases List.Vector.eq sign sign' hsign
  cases List.Vector.eq dh dh' hdh
  rfl

variable {a b c d : PubBundle}

theorem bundleBytes_append_inj
    (h : bundleBytes a ++ bundleBytes b = bundleBytes c ++ bundleBytes d) : a = c ∧ b = d := by
  obtain ⟨hleft, hright⟩ := List.append_inj h (by simp only [length_bundleBytes])
  exact ⟨bundleBytes_injective hleft, bundleBytes_injective hright⟩

/-- The pair can be read off, up to its order. -/
theorem sortedBundles_eq_iff :
    sortedBundles a b = sortedBundles c d ↔ a = c ∧ b = d ∨ a = d ∧ b = c := by
  constructor
  · intro h
    simp only [sortedBundles] at h
    split at h <;> split at h
    · exact .inl (bundleBytes_append_inj h)
    · exact .inr (bundleBytes_append_inj h)
    · exact .inr (bundleBytes_append_inj h).symm
    · exact .inl (bundleBytes_append_inj h).symm
  · rintro (⟨rfl, rfl⟩ | ⟨rfl, rfl⟩)
    · rfl
    · exact sortedBundles_comm a b

theorem roomId_comm (first second : PubBundle) :
    roomId prim first second = roomId prim second first := by
  rw [roomId_eq, roomId_eq, sortedBundles_comm]

theorem lowerHex_bundleFp (bundle : PubBundle) : Hex.LowerHex (bundleFp prim bundle) :=
  Hex.lowerHex_encode _

theorem length_bundleFp (bundle : PubBundle) : (bundleFp prim bundle).toList.length = 64 := by
  simp [bundleFp, hexLower, Hex.encode, Hex.length_encodeChars]

theorem lowerHex_roomId (first second : PubBundle) : Hex.LowerHex (roomId prim first second) :=
  Hex.lowerHex_encode _

theorem length_roomId (first second : PubBundle) :
    (roomId prim first second).toList.length = 32 := by
  simp [roomId, hexLower, Hex.encode, Hex.length_encodeChars]

/-! ## Short authentication strings -/

def sasDomain : Bytes := utf8Bytes "clipboard-sync-sas-v1"

/-- What is hashed for the string: the domain, the nonce of the QR payload and the
bundles in order. -/
def sasInput (nonceA : Bytes) (first second : PubBundle) : Bytes :=
  let firstBytes := bundleBytes first
  let secondBytes := bundleBytes second
  sasDomain ++ nonceA ++
    if bytesLe firstBytes secondBytes then firstBytes ++ secondBytes
    else secondBytes ++ firstBytes

/-- The first four octets of a digest as six decimal digits. -/
@[irreducible] def sixDigits (digest : List.Vector UInt8 32) : String :=
  let value := ((digest.toList.take 4).foldl (fun n octet => n * 256 + octet.toNat) 0) % 1000000
  let digits := (Nat.repr value).toList
  String.ofList (List.replicate (6 - digits.length) '0' ++ digits)

def sasCode (nonceA : Bytes) (first second : PubBundle) : String :=
  sixDigits (prim.sha256 (sasInput nonceA first second))

theorem sasInput_eq (nonceA : Bytes) (first second : PubBundle) :
    sasInput nonceA first second = sasDomain ++ nonceA ++ sortedBundles first second := rfl

theorem sasInput_inj {nonceA : Bytes} {pinned first second : PubBundle}
    (h : sasInput nonceA pinned first = sasInput nonceA second pinned) : first = second := by
  rw [sasInput_eq, sasInput_eq] at h
  rcases sortedBundles_eq_iff.1 (List.append_cancel_left h) with ⟨rfl, rfl⟩ | ⟨-, rfl⟩
  · rfl
  · rfl

/-! ## Identities and session keys -/

/-- The secrets of an endpoint. -/
structure Identity where
  signSecret : Key
  dhSecret : Key
  generation : UInt64
deriving DecidableEq

namespace Identity

def publicBundle (self : Identity) : PubBundle :=
  ⟨prim.signPublic self.signSecret, prim.dhPublic self.dhSecret⟩

def bundleFp (self : Identity) : String := ClipSync.bundleFp prim (self.publicBundle prim)

def fromSecretBytes (signSecret dhSecret : Key) (generation : UInt64) :
    Except CryptoError Identity :=
  if generation = 0 then .error (.invalidGeneration generation)
  else .ok ⟨signSecret, dhSecret, generation⟩

end Identity

/-- Directional keys from the local endpoint's perspective. -/
structure SessionKeys where
  send : Key
  recv : Key
deriving DecidableEq

def hkdfDomain : Bytes := utf8Bytes "clipboard-sync-v1"

def deriveSessionKey (shared : Key) (baseInfo : Bytes) (direction : String) :
    Except CryptoError Key :=
  match prim.hkdfExpand shared (baseInfo ++ utf8Bytes direction) with
  | some key => .ok key
  | none => .error .kdfExpand

/-- The keys of a session with a distinct contributory peer. The endpoint with the
smaller fingerprint is `a`. -/
def Identity.sessionKeys (self : Identity) (peer : PubBundle) :
    Except CryptoError SessionKeys := do
  let selfFp := self.bundleFp prim
  let peerFp := ClipSync.bundleFp prim peer
  if selfFp = peerFp then
    throw .sameIdentity
  let shared := prim.diffieHellman self.dhSecret peer.dhPk
  if !prim.wasContributory shared then
    throw .nonContributoryDh
  let (fpMin, fpMax, selfIsA) :=
    if selfFp < peerFp then (selfFp, peerFp, true) else (peerFp, selfFp, false)
  let info := hkdfDomain ++ utf8Bytes fpMin ++ utf8Bytes fpMax
  let a2b ← deriveSessionKey prim shared info "a2b"
  let b2a ← deriveSessionKey prim shared info "b2a"
  return if selfIsA then ⟨a2b, b2a⟩ else ⟨b2a, a2b⟩

def SessionKeys.swap (keys : SessionKeys) : SessionKeys := ⟨keys.recv, keys.send⟩

/-- What is documented of the algorithms: X25519 is commutative, HKDF expands to a key,
and a sealed text opens under the key and the associated data it was sealed under and
no others. -/
structure Primitives.Lawful (prim : Primitives) : Prop where
  diffieHellman_comm : ∀ a b, prim.diffieHellman a (prim.dhPublic b) =
    prim.diffieHellman b (prim.dhPublic a)
  hkdfExpand_isSome : ∀ secret info, (prim.hkdfExpand secret info).isSome
  decrypt_encrypt : ∀ {key nonce aad message ciphertext},
    prim.encrypt key nonce aad message = some ciphertext →
      prim.decrypt key nonce aad ciphertext = some message
  decrypt_other : ∀ {key nonce aad message ciphertext key' aad'},
    prim.encrypt key nonce aad message = some ciphertext →
      (key', aad') ≠ (key, aad) → prim.decrypt key' nonce aad' ciphertext = none

theorem SessionKeys.map_swap_swap (keys : Except CryptoError SessionKeys) :
    (keys.map swap).map swap = keys := by
  cases keys <;> rfl

theorem sessionKeys_swap_of_lt (hprim : prim.Lawful) {a b : Identity}
    (hlt : a.bundleFp prim < b.bundleFp prim) :
    a.sessionKeys prim (b.publicBundle prim) =
      (b.sessionKeys prim (a.publicBundle prim)).map SessionKeys.swap := by
  have hshared : prim.diffieHellman a.dhSecret (b.publicBundle prim).dhPk =
      prim.diffieHellman b.dhSecret (a.publicBundle prim).dhPk :=
    hprim.diffieHellman_comm a.dhSecret b.dhSecret
  have hfa : bundleFp prim (a.publicBundle prim) = a.bundleFp prim := rfl
  have hfb : bundleFp prim (b.publicBundle prim) = b.bundleFp prim := rfl
  simp only [Identity.sessionKeys, hshared, hfa, hfb]
  rw [if_neg hlt.ne, if_neg hlt.ne', if_pos hlt, if_neg hlt.not_gt]
  generalize prim.diffieHellman b.dhSecret (a.publicBundle prim).dhPk = shared
  cases prim.wasContributory shared with
  | false => rfl
  | true =>
    dsimp only
    generalize hkdfDomain ++ utf8Bytes (a.bundleFp prim) ++ utf8Bytes (b.bundleFp prim) = info
    cases deriveSessionKey prim shared info "a2b" with
    | error e => rfl
    | ok a2b => cases deriveSessionKey prim shared info "b2a" <;> rfl

theorem sessionKeys_swap (hprim : prim.Lawful) (a b : Identity) :
    a.sessionKeys prim (b.publicBundle prim) =
      (b.sessionKeys prim (a.publicBundle prim)).map SessionKeys.swap := by
  rcases lt_trichotomy (a.bundleFp prim) (b.bundleFp prim) with hlt | heq | hgt
  · exact sessionKeys_swap_of_lt prim hprim hlt
  · have hfa : bundleFp prim (a.publicBundle prim) = a.bundleFp prim := rfl
    have hfb : bundleFp prim (b.publicBundle prim) = b.bundleFp prim := rfl
    simp only [Identity.sessionKeys, hfa, hfb]
    rw [if_pos heq, if_pos heq.symm]
    rfl
  · rw [sessionKeys_swap_of_lt prim hprim hgt, SessionKeys.map_swap_swap]

theorem sessionKeys_isOk (hprim : prim.Lawful) {self : Identity} {peer : PubBundle}
    (hne : self.bundleFp prim ≠ bundleFp prim peer)
    (hcontributory : prim.wasContributory (prim.diffieHellman self.dhSecret peer.dhPk)) :
    ∃ keys, self.sessionKeys prim peer = .ok keys := by
  have hderive : ∀ shared info direction, ∃ key,
      deriveSessionKey prim shared info direction = .ok key := by
    intro shared info direction
    obtain ⟨key, hkey⟩ := Option.isSome_iff_exists.1
      (hprim.hkdfExpand_isSome shared (info ++ utf8Bytes direction))
    exact ⟨key, by rw [deriveSessionKey, hkey]⟩
  simp only [Identity.sessionKeys, if_neg hne, hcontributory, Bool.not_true, Bool.false_eq_true,
    if_false]
  generalize (if self.bundleFp prim < bundleFp prim peer then
    (self.bundleFp prim, bundleFp prim peer, true)
    else (bundleFp prim peer, self.bundleFp prim, false)) = roles
  obtain ⟨fpMin, fpMax, selfIsA⟩ := roles
  obtain ⟨a2b, ha2b⟩ := hderive (prim.diffieHellman self.dhSecret peer.dhPk)
    (hkdfDomain ++ utf8Bytes fpMin ++ utf8Bytes fpMax) "a2b"
  obtain ⟨b2a, hb2a⟩ := hderive (prim.diffieHellman self.dhSecret peer.dhPk)
    (hkdfDomain ++ utf8Bytes fpMin ++ utf8Bytes fpMax) "b2a"
  simp only [ha2b, hb2a]
  exact ⟨_, rfl⟩

/-! ## Sealed messages -/

/-- Canonical sender-to-receiver associated data. -/
def aad (roomId senderFp receiverFp : String) : Bytes :=
  utf8Bytes roomId ++ 0 :: utf8Bytes senderFp ++ 0 :: utf8Bytes receiverFp

/-- `seal`: `nonce24 || ciphertext || tag`, under the nonce drawn for it. -/
def sealWith (key : Key) (aad plaintext : Bytes) (nonce : Nonce) : Except CryptoError Bytes :=
  match prim.encrypt key nonce aad plaintext with
  | some ciphertext => .ok (nonce.toList ++ ciphertext)
  | none => .error .encryption

/-- `open`: authenticates and decrypts a sealed value. -/
def openSealed (key : Key) (aad sealed : Bytes) : Except CryptoError Bytes :=
  if h : 24 ≤ sealed.length then
    let nonce : Nonce := ⟨sealed.take 24, by simp [h]⟩
    match prim.decrypt key nonce aad (sealed.drop 24) with
    | some plaintext => .ok plaintext
    | none => .error .decryption
  else .error .sealedTooShort

section Sealed

variable {prim} {key : Key} {associated plaintext sealed : Bytes} {nonce : Nonce}

theorem sealWith_eq_ok (h : sealWith prim key associated plaintext nonce = .ok sealed) :
    ∃ ciphertext, prim.encrypt key nonce associated plaintext = some ciphertext ∧
      sealed = nonce.toList ++ ciphertext := by
  unfold sealWith at h
  split at h
  · rename_i ciphertext hencrypt
    cases h
    exact ⟨ciphertext, hencrypt, rfl⟩
  · cases h

theorem openSealed_append (key : Key) (associated ciphertext : Bytes) (nonce : Nonce) :
    openSealed prim key associated (nonce.toList ++ ciphertext) =
      match prim.decrypt key nonce associated ciphertext with
      | some plaintext => .ok plaintext
      | none => .error .decryption := by
  have hlength : nonce.toList.length = 24 := nonce.toList_length
  have hnonce : ∀ h, (⟨(nonce.toList ++ ciphertext).take 24, h⟩ : Nonce) = nonce := by
    intro h
    apply List.Vector.eq
    simp [hlength]
  have hdrop : (nonce.toList ++ ciphertext).drop 24 = ciphertext := by
    simp [hlength]
  rw [openSealed, dif_pos (by simp [hlength])]
  simp only [hnonce, hdrop]

theorem openSealed_sealWith (hprim : prim.Lawful)
    (h : sealWith prim key associated plaintext nonce = .ok sealed) :
    openSealed prim key associated sealed = .ok plaintext := by
  obtain ⟨ciphertext, hencrypt, rfl⟩ := sealWith_eq_ok h
  rw [openSealed_append, hprim.decrypt_encrypt hencrypt]

theorem openSealed_other (hprim : prim.Lawful)
    (h : sealWith prim key associated plaintext nonce = .ok sealed) {key' : Key}
    {associated' : Bytes} (hne : (key', associated') ≠ (key, associated)) :
    openSealed prim key' associated' sealed = .error .decryption := by
  obtain ⟨ciphertext, hencrypt, rfl⟩ := sealWith_eq_ok h
  rw [openSealed_append, hprim.decrypt_other hencrypt hne]

end Sealed

/-- The text has no NUL character. -/
def NulFree (text : String) : Prop := '\x00' ∉ text.toList

instance (text : String) : Decidable (NulFree text) := inferInstanceAs (Decidable (¬ _))

theorem nulFree_of_lowerHex {text : String} (h : Hex.LowerHex text) : NulFree text := by
  intro hmem
  exact absurd (h.plain _ hmem).1 (by decide)

theorem NulFree.nul_notMem {text : String} (h : NulFree text) : (0 : UInt8) ∉ utf8Bytes text := by
  intro hmem
  have hbytes : utf8Bytes text = text.toList.flatMap String.utf8EncodeChar := by
    rw [← utf8Bytes_ofList, String.ofList_toList]
  rw [hbytes] at hmem
  obtain ⟨c, hc, hb⟩ := List.mem_flatMap.1 hmem
  have hcode : c = '\x00' := Char.toNat_inj.1 (ascii_of_mem_utf8EncodeChar hb (by decide))
  exact h (hcode ▸ hc)

/-- The separators of associated data can be found again. -/
theorem aad_injective {roomId senderFp receiverFp roomId' senderFp' receiverFp' : String}
    (hroom : NulFree roomId) (hroom' : NulFree roomId') (hsender : NulFree senderFp)
    (hsender' : NulFree senderFp')
    (h : aad roomId senderFp receiverFp = aad roomId' senderFp' receiverFp') :
    roomId = roomId' ∧ senderFp = senderFp' ∧ receiverFp = receiverFp' := by
  simp only [aad, List.append_assoc, List.cons_append] at h
  obtain ⟨hrooms, htail⟩ := append_separator_inj hroom.nul_notMem hroom'.nul_notMem h
  obtain ⟨hsenders, hreceivers⟩ := append_separator_inj hsender.nul_notMem
    hsender'.nul_notMem htail
  exact ⟨utf8Bytes_injective hrooms, utf8Bytes_injective hsenders,
    utf8Bytes_injective hreceivers⟩

/-! ## A sample instance -/

namespace Primitives

/-- What a sealed text of the sample starts with. The length of the associated data is
written in unary before it. -/
def sampleHeader (key : Key) (nonce : Nonce) (associated : Bytes) : Bytes :=
  key.toList ++ (nonce.toList ++ (List.replicate associated.length 1 ++ 0 :: associated))

/-- An instance to evaluate the model with, of no cryptographic strength: hashes keep
the first octets, a shared key is a sum, and a sealed text carries what it was sealed
under. -/
def sample : Primitives where
  sha256 input := .ofFn fun i => input.getD i 0
  signPublic := id
  verifyStrict _ _ _ := true
  dhPublic := id
  diffieHellman secret peer := .ofFn fun i => secret.get i + peer.get i
  wasContributory _ := true
  hkdfExpand secret info := some (.ofFn fun i => secret.get i + info.reverse.getD i 0)
  encrypt key nonce associated message := some (sampleHeader key nonce associated ++ message)
  decrypt key nonce associated message :=
    if sampleHeader key nonce associated <+: message then
      some (message.drop (sampleHeader key nonce associated).length)
    else none

theorem unary_inj {m n : ℕ} {xs ys : Bytes}
    (h : List.replicate m (1 : UInt8) ++ 0 :: xs = List.replicate n 1 ++ 0 :: ys) :
    m = n ∧ xs = ys := by
  induction m generalizing n with
  | zero =>
    cases n with
    | zero => simpa using h
    | succ n => simp [List.replicate_succ] at h
  | succ m ih =>
    cases n with
    | zero => simp [List.replicate_succ] at h
    | succ n =>
      rw [List.replicate_succ, List.replicate_succ, List.cons_append, List.cons_append] at h
      obtain ⟨hm, hxs⟩ := ih (List.cons.inj h).2
      exact ⟨by rw [hm], hxs⟩

theorem sampleHeader_inj {key key' : Key} {nonce : Nonce}
    {associated associated' rest rest' : Bytes}
    (h : sampleHeader key nonce associated ++ rest = sampleHeader key' nonce associated' ++ rest') :
    (key, associated) = (key', associated') := by
  simp only [sampleHeader, List.append_assoc, List.cons_append] at h
  obtain ⟨hkey, htail⟩ := List.append_inj h (by simp)
  obtain ⟨hlength, hassociated⟩ := unary_inj (List.append_cancel_left htail)
  rw [List.Vector.eq _ _ hkey, (List.append_inj hassociated hlength).1]

theorem sample_lawful : sample.Lawful where
  diffieHellman_comm a b := by
    simp [sample, UInt8.add_comm]
  hkdfExpand_isSome _ _ := rfl
  decrypt_encrypt h := by
    cases h
    simp [sample]
  decrypt_other := by
    intro key nonce associated message ciphertext key' associated' h hne
    cases h
    refine if_neg ?_
    rintro ⟨rest, hrest⟩
    exact hne (sampleHeader_inj hrest)

end Primitives

end ClipSync
