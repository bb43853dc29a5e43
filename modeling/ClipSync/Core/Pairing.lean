import ClipSync.Core.Crypto

/-!
# Pairing

The two roles of a pairing and its durable record in `crates/core/src/pairing.rs`. Both
roles start from the payload of one QR code and go on with what the relay delivers,
up to a `PendingConfirmation` that only the short authentication string completes.
A record is loaded and stored only after `validate_record`.
-/

namespace ClipSync

open Lib

structure PairingRecord where
  identityGeneration : UInt64
  server : String
  roomId : String
  localBundleFp : String
  peerBundle : PubBundle
  peerBundleFp : String
deriving DecidableEq

/-- The address of a relay, `wss://` and in debug builds also `ws://`. -/
def validateServer (debugAssertions : Bool) (server : String) : Bool :=
  let authorityAndPath :=
    if "wss://".toList.isPrefixOf server.toList then some (server.toList.drop 6)
    else if debugAssertions && "ws://".toList.isPrefixOf server.toList then
      some (server.toList.drop 5)
    else none
  match authorityAndPath with
  | none => false
  | some rest =>
    let authority := rest.takeWhile fun c => !(['/', '?', '#'].contains c)
    !authority.isEmpty && !authority.contains '@' && !server.toList.contains '#' &&
      (utf8Bytes server).all fun byte => 32 < byte && byte ≠ 127

def validateRecord (prim : Primitives) (debugAssertions : Bool) (record : PairingRecord)
    (identity : Identity) : Bool :=
  let localBundle := identity.publicBundle prim
  decide (0 < record.identityGeneration) &&
    record.identityGeneration == identity.generation &&
    record.localBundleFp == bundleFp prim localBundle &&
    record.peerBundleFp == bundleFp prim record.peerBundle &&
    record.localBundleFp != record.peerBundleFp &&
    record.roomId == roomId prim localBundle record.peerBundle &&
    validateServer debugAssertions record.server

/-- An identity with a record of a pairing it takes part in. -/
structure Pairing (prim : Primitives) where
  identity : Identity
  record : PairingRecord
  debugAssertions : Bool
  valid : validateRecord prim debugAssertions record identity = true

namespace Pairing

variable {prim : Primitives} (pairing : Pairing prim)

theorem record_eq : pairing.record.identityGeneration = pairing.identity.generation ∧
    pairing.record.localBundleFp = pairing.identity.bundleFp prim ∧
    pairing.record.peerBundleFp = bundleFp prim pairing.record.peerBundle ∧
    pairing.record.localBundleFp ≠ pairing.record.peerBundleFp ∧
    pairing.record.roomId =
      roomId prim (pairing.identity.publicBundle prim) pairing.record.peerBundle := by
  have hvalid := pairing.valid
  simp only [validateRecord, Bool.and_eq_true, beq_iff_eq, bne_iff_ne] at hvalid
  obtain ⟨⟨⟨⟨⟨⟨-, hgeneration⟩, hlocal⟩, hpeer⟩, hne⟩, hroom⟩, -⟩ := hvalid
  exact ⟨hgeneration, hlocal, hpeer, hne, hroom⟩

end Pairing

/-! ## The two roles -/

inductive PairingError where
  | invalidServer
  | invalidCode
  | sameIdentity
  | serverMismatch
  | bundleMismatch
  | sasMismatch
  | staleIdentity
  | invalidRecord
  | generationOverflow
  | io (error : IoError)
  | crypto (error : CryptoError)
  | json
deriving DecidableEq

def qrNonceBytes : ℕ := 16

/-- The content of the QR code shown by the offerer. -/
structure QrPayload where
  server : String
  code : String
  bundle : PubBundle
  nonceA : List.Vector UInt8 qrNonceBytes
deriving DecidableEq

def validateCode (code : String) : Bool :=
  (utf8Bytes code).length = 6 &&
    (utf8Bytes code).all fun byte => (65 ≤ byte && byte ≤ 90) || (48 ≤ byte && byte ≤ 57)

/-- The checks both roles start with. -/
def QrPayload.validate (debugAssertions : Bool) (qr : QrPayload) : Except PairingError Unit :=
  if !validateServer debugAssertions qr.server then .error .invalidServer
  else if !validateCode qr.code then .error .invalidCode
  else .ok ()

structure PairingCandidate where
  identityGeneration : UInt64
  server : String
  localBundle : PubBundle
  peerBundle : PubBundle

/-- A pairing that waits for its short authentication string. -/
structure PendingConfirmation where
  candidate : PairingCandidate
  nonceA : List.Vector UInt8 qrNonceBytes

structure Offerer where
  identityGeneration : UInt64
  server : String
  localBundle : PubBundle
  nonceA : List.Vector UInt8 qrNonceBytes

structure Claimer where
  identityGeneration : UInt64
  pinnedServer : String
  localBundle : PubBundle
  pinnedBundle : PubBundle
  nonceA : List.Vector UInt8 qrNonceBytes

section Roles

variable (prim : Primitives) (debugAssertions : Bool)

def Offerer.start (identity : Identity) (qr : QrPayload) : Except PairingError Offerer :=
  (qr.validate debugAssertions).bind fun () =>
    if qr.bundle ≠ identity.publicBundle prim then .error .bundleMismatch
    else .ok ⟨identity.generation, qr.server, identity.publicBundle prim, qr.nonceA⟩

/-- Takes whatever bundle the relay delivers, the local one excepted. -/
def Offerer.receivePeer (self : Offerer) (peerBundle : PubBundle) :
    Except PairingError PendingConfirmation :=
  if bundleFp prim self.localBundle = bundleFp prim peerBundle then .error .sameIdentity
  else .ok
    ⟨⟨self.identityGeneration, self.server, self.localBundle, peerBundle⟩, self.nonceA⟩

def Claimer.start (identity : Identity) (qr : QrPayload) : Except PairingError Claimer :=
  (qr.validate debugAssertions).bind fun () =>
    if bundleFp prim (identity.publicBundle prim) = bundleFp prim qr.bundle then
      .error .sameIdentity
    else .ok
      ⟨identity.generation, qr.server, identity.publicBundle prim, qr.bundle, qr.nonceA⟩

/-- Takes only what the QR code has pinned. -/
def Claimer.receivePeer (self : Claimer) (server : String) (peerBundle : PubBundle) :
    Except PairingError PendingConfirmation :=
  if server ≠ self.pinnedServer then .error .serverMismatch
  else if peerBundle ≠ self.pinnedBundle then .error .bundleMismatch
  else .ok
    ⟨⟨self.identityGeneration, self.pinnedServer, self.localBundle, self.pinnedBundle⟩,
      self.nonceA⟩

def PendingConfirmation.sas (self : PendingConfirmation) : String :=
  sasCode prim self.nonceA.toList self.candidate.localBundle self.candidate.peerBundle

def PairingRecord.fromCandidate (candidate : PairingCandidate) : PairingRecord where
  identityGeneration := candidate.identityGeneration
  server := candidate.server
  roomId := ClipSync.roomId prim candidate.localBundle candidate.peerBundle
  localBundleFp := bundleFp prim candidate.localBundle
  peerBundle := candidate.peerBundle
  peerBundleFp := bundleFp prim candidate.peerBundle

variable {prim debugAssertions}

theorem exists_of_bind_eq_ok {ε α β : Type} {x : Except ε α} {f : α → Except ε β} {b : β}
    (h : x.bind f = .ok b) : ∃ a, x = .ok a ∧ f a = .ok b := by
  cases x with
  | error e => cases h
  | ok a => exact ⟨a, rfl, h⟩

variable {identity : Identity} {pending : PendingConfirmation} {peerBundle : PubBundle}
  {qr : QrPayload}

theorem pending_of_offerer {offerer : Offerer}
    (hstart : Offerer.start prim debugAssertions identity qr = .ok offerer)
    (hpeer : offerer.receivePeer prim peerBundle = .ok pending) :
    qr.bundle = identity.publicBundle prim ∧
      pending = ⟨⟨identity.generation, qr.server, qr.bundle, peerBundle⟩, qr.nonceA⟩ := by
  obtain ⟨-, -, hstart⟩ := exists_of_bind_eq_ok hstart
  split at hstart
  · cases hstart
  rename_i hbundle
  rw [not_not] at hbundle
  cases hstart
  unfold Offerer.receivePeer at hpeer
  split at hpeer
  · cases hpeer
  · cases hpeer
    exact ⟨hbundle, by rw [hbundle]⟩

theorem pending_of_claimer {claimer : Claimer} {server : String}
    (hstart : Claimer.start prim debugAssertions identity qr = .ok claimer)
    (hpeer : claimer.receivePeer server peerBundle = .ok pending) :
    identity.bundleFp prim ≠ bundleFp prim qr.bundle ∧
      pending = ⟨⟨identity.generation, qr.server, identity.publicBundle prim, qr.bundle⟩,
        qr.nonceA⟩ := by
  obtain ⟨-, -, hstart⟩ := exists_of_bind_eq_ok hstart
  split at hstart
  · cases hstart
  rename_i hdistinct
  cases hstart
  unfold Claimer.receivePeer at hpeer
  split at hpeer
  · cases hpeer
  split at hpeer
  · cases hpeer
  · cases hpeer
    exact ⟨hdistinct, rfl⟩

end Roles

end ClipSync
