import ClipSync.Core.Pairing
import ClipSync.Core.Serde

/-!
# The identity and the pairing record on disk

`Identity::load_or_create` of `crates/core/src/crypto.rs`, `PairingStore` and
`PendingConfirmation::confirm` of `crates/core/src/pairing.rs`. The two files are
replaced atomically, each through a temporary file of a random name.
-/

namespace ClipSync

open Lib Lib.Json Program

/-! ## The documents -/

namespace PairingRecord

def toJson (self : PairingRecord) : Value :=
  .obj [("identity_generation", .int self.identityGeneration.toNat),
    ("server", .str self.server), ("room_id", .str self.roomId),
    ("local_bundle_fp", .str self.localBundleFp), ("peer_bundle", self.peerBundle.toJson),
    ("peer_bundle_fp", .str self.peerBundleFp)]

def fromJson (value : Value) : Option PairingRecord := do
  match ← record ["identity_generation", "server", "room_id", "local_bundle_fp", "peer_bundle",
      "peer_bundle_fp"] value with
  | [generation, server, roomId, localBundleFp, peerBundle, peerBundleFp] =>
    some ⟨← asU64 generation, ← asStr server, ← asStr roomId, ← asStr localBundleFp,
      ← PubBundle.fromJson peerBundle, ← asStr peerBundleFp⟩
  | _ => none

theorem fromJson_toJson (self : PairingRecord) : fromJson self.toJson = some self := by
  simp [fromJson, toJson, record, List.lookup_cons, asStr]

theorem integral_toJson (self : PairingRecord) : Integral self.toJson := by
  simp [toJson]

def toVec (self : PairingRecord) : Bytes := toBytes .compact self.toJson

def fromSlice (bytes : Bytes) : Option PairingRecord := (fromBytes bytes).bind fromJson

theorem fromSlice_toVec (self : PairingRecord) : fromSlice self.toVec = some self := by
  rw [fromSlice, toVec, fromBytes_printed _ self.integral_toJson, Option.bind_some,
    self.fromJson_toJson]

end PairingRecord

namespace Identity

/-- The document has the secrets in base 64; unknown members are skipped. -/
def toVec (self : Identity) : Bytes :=
  toBytes .compact (.obj [("generation", .int self.generation.toNat),
    ("sign_sk", .str (Base64.encode self.signSecret.toList)),
    ("dh_sk", .str (Base64.encode self.dhSecret.toList))])

def decodeSecret (encoded : String) : Except CryptoError Key :=
  match Base64.decode encoded with
  | none => .error .base64
  | some decoded =>
    if h : decoded.length = 32 then .ok ⟨decoded, h⟩ else .error .invalidSecretLength

def readDocument (bytes : Bytes) : Option (UInt64 × String × String) := do
  match ← record ["generation", "sign_sk", "dh_sk"]
      (known ["generation", "sign_sk", "dh_sk"] (← fromBytes bytes)) with
  | [generation, signSk, dhSk] => some (← asU64 generation, ← asStr signSk, ← asStr dhSk)
  | _ => none

def fromSlice (bytes : Bytes) : Except CryptoError Identity :=
  match readDocument bytes with
  | none => .error .json
  | some (generation, signSk, dhSk) => do
    fromSecretBytes (← decodeSecret signSk) (← decodeSecret dhSk) generation

theorem decodeSecret_encode (key : Key) : decodeSecret (Base64.encode key.toList) = .ok key := by
  rw [decodeSecret, Base64.decode_encode]
  exact dif_pos key.2

theorem readDocument_toVec (self : Identity) : readDocument self.toVec =
    some (self.generation, Base64.encode self.signSecret.toList,
      Base64.encode self.dhSecret.toList) := by
  rw [readDocument, toVec, fromBytes_printed _ (by simp)]
  simp [record, known, List.lookup_cons, asStr]

theorem fromSlice_toVec (self : Identity) (h : self.generation ≠ 0) :
    fromSlice self.toVec = .ok self := by
  rw [fromSlice, readDocument_toVec]
  simp only [decodeSecret_encode]
  exact if_neg h

/-! ## The files -/

variable {D : Type}

/-- A write through an exclusive temporary file that is removed on failure, with a sync
of the directory. -/
def writeMode : WriteMode := ⟨true, true, true⟩

/-- Reads an identity, or creates one of generation 1 from fresh secrets. -/
def loadOrCreate (fresh : Key × Key) (path : Path D) :
    FsProgram D (Except CryptoError Identity) := do
  match ← FsProgram.access (.read path) with
  | .ok bytes => return fromSlice bytes
  | .error .notFound =>
    let identity : Identity := ⟨fresh.1, fresh.2, 1⟩
    let suffix ← FsProgram.access .uniqueName
    match ← FsProgram.atomicWrite writeMode ⟨path.dir, ".identity.json." ++ suffix ++ ".tmp"⟩
        path identity.toVec with
    | .ok () => return .ok identity
    | .error (_, error) => return .error (.io error)
  | .error error => return .error (.io error)

end Identity

/-- The directory of an identity and its pairing record. -/
structure PairingStore (D : Type) where
  root : D

namespace PairingStore

variable {D : Type} (self : PairingStore D)

def identityPath : Path D := ⟨self.root, "identity.json"⟩

def pairingPath : Path D := ⟨self.root, "pairing.json"⟩

theorem pairingPath_ne_temp (start suffix : String) (h : start.toList.head? = some '.') :
    self.pairingPath ≠ ⟨self.root, start ++ suffix ++ ".tmp"⟩ := by
  intro heq
  have hname := congrArg (fun path => path.name.toList.head?) heq
  simp [pairingPath, h] at hname

/-- The identity on disk. -/
def identity (s : Fs D) : Option Identity :=
  (s.files self.identityPath).bind fun bytes => (Identity.fromSlice bytes).toOption

theorem identityPath_ne_temp (start suffix : String) (h : start.toList.head? = some '.') :
    self.identityPath ≠ ⟨self.root, start ++ suffix ++ ".tmp"⟩ := by
  intro heq
  have hname := congrArg (fun path => path.name.toList.head?) heq
  simp [identityPath, h] at hname

theorem identityPath_ne_pairingPath : self.identityPath ≠ self.pairingPath := by
  simp [identityPath, pairingPath]

theorem identity_congr {s s' : Fs D} (h : s'.files self.identityPath = s.files self.identityPath) :
    self.identity s' = self.identity s := by
  rw [identity, h, identity]

theorem identity_of_toVec {s : Fs D} {identity : Identity} (hgeneration : identity.generation ≠ 0)
    (h : s.files self.identityPath = some identity.toVec) : self.identity s = some identity := by
  rw [PairingStore.identity, h, Option.bind_some, Identity.fromSlice_toVec _ hgeneration]
  rfl

/-- The record on disk. -/
def stored (s : Fs D) : Option PairingRecord :=
  (s.files self.pairingPath).bind PairingRecord.fromSlice

variable (prim : Primitives) (debugAssertions : Bool) (fresh : Key × Key)

def loadIdentity : FsProgram D (Except PairingError Identity) := do
  return (← Identity.loadOrCreate fresh self.identityPath).mapError .crypto

/-- The record, if it belongs to the generation of the identity on disk. -/
def loadPairing : FsProgram D (Except PairingError (Option PairingRecord)) := do
  match ← self.loadIdentity fresh with
  | .error error => return .error error
  | .ok identity =>
  match ← FsProgram.access (.read self.pairingPath) with
  | .error .notFound => return .ok none
  | .error error => return .error (.io error)
  | .ok encoded =>
  match PairingRecord.fromSlice encoded with
  | none => return .error .json
  | some record =>
    if record.identityGeneration ≠ identity.generation then return .ok none
    else if validateRecord prim debugAssertions record identity then return .ok (some record)
    else return .error .invalidRecord

def persistPairing (record : PairingRecord) : FsProgram D (Except PairingError Unit) := do
  match ← self.loadIdentity fresh with
  | .error error => return .error error
  | .ok identity =>
  if record.identityGeneration ≠ identity.generation ∨
      record.localBundleFp ≠ identity.bundleFp prim then
    return .error .staleIdentity
  if !validateRecord prim debugAssertions record identity then
    return .error .invalidRecord
  let suffix ← FsProgram.access .uniqueName
  match ← FsProgram.atomicWrite Identity.writeMode
      ⟨self.root, ".pairing.json." ++ suffix ++ ".tmp"⟩ self.pairingPath record.toVec with
  | .ok () => return .ok ()
  | .error (_, error) => return .error (.io error)

end PairingStore

/-- Completes a pairing with the string the user has read off the other device. -/
def PendingConfirmation.confirm {D : Type} (prim : Primitives) (debugAssertions : Bool)
    (fresh : Key × Key) (self : PendingConfirmation) (sas : String) (store : PairingStore D) :
    FsProgram D (Except PairingError PairingRecord) := do
  if sas ≠ self.sas prim then
    return .error .sasMismatch
  let record := PairingRecord.fromCandidate prim self.candidate
  match ← store.persistPairing prim debugAssertions fresh record with
  | .error error => return .error error
  | .ok () => return .ok record

/-! ## What a confirmation leaves on disk -/

section Confirm

variable {D : Type} {s s' : Fs D} {store : PairingStore D} {prim : Primitives}
  {debugAssertions : Bool} {fresh : Key × Key}

/-- The file holds what it held before. -/
def SameFile (path : Path D) (s s' : Fs D) : Prop :=
  s'.files path = s.files path ∧ s'.versions path = s.versions path

/-- The record is as it was; so is the identity, unless there was none and it was created. -/
def Loaded (store : PairingStore D) (fresh : Key × Key) (s s' : Fs D) : Prop :=
  SameFile store.pairingPath s s' ∧
    (store.identity s' = store.identity s ∨
      store.identity s = none ∧ store.identity s' = some ⟨fresh.1, fresh.2, 1⟩)

theorem Loaded.refl : Loaded store fresh s s := ⟨⟨rfl, rfl⟩, .inl rfl⟩

/-- The record is in place, and it fits the identity on disk. -/
structure Persisted (prim : Primitives) (debugAssertions : Bool) (store : PairingStore D)
    (fresh : Key × Key) (record : PairingRecord) (identity : Identity) (s s' : Fs D) : Prop where
  loaded : ∃ s₁, Loaded store fresh s s₁ ∧ store.identity s' = store.identity s₁
  current : store.identity s' = some identity
  generation : record.identityGeneration = identity.generation
  fingerprint : record.localBundleFp = identity.bundleFp prim
  valid : validateRecord prim debugAssertions record identity = true
  file : s'.files store.pairingPath = some record.toVec
  versions : s'.versions store.pairingPath = s.versions store.pairingPath ++ [record.toVec]

theorem Persisted.stored {record : PairingRecord} {identity : Identity}
    (h : Persisted prim debugAssertions store fresh record identity s s') :
    store.stored s' = some record := by
  rw [PairingStore.stored, h.file, Option.bind_some, PairingRecord.fromSlice_toVec]

variable [DecidableEq D]

/-- A temporary file makes no difference. -/
theorem Loaded.set {temp : Path D} (h : Loaded store fresh s s')
    (hidentity : store.identityPath ≠ temp) (hpairing : store.pairingPath ≠ temp)
    (t : Option Bytes) : Loaded store fresh s (s'.set temp t) := by
  refine ⟨⟨(Fs.set_files_of_ne hpairing.symm t).trans h.1.1, h.1.2⟩, ?_⟩
  rw [store.identity_congr (Fs.set_files_of_ne hidentity.symm t)]
  exact h.2

theorem loaded_of_between {suffix : String} (hnone : s.files store.identityPath = none)
    (h : FsProgram.Between s ⟨store.root, ".identity.json." ++ suffix ++ ".tmp"⟩ store.identityPath
      (Identity.toVec ⟨fresh.1, fresh.2, 1⟩) s') :
    Loaded store fresh s s' := by
  have hpairing := store.pairingPath_ne_temp ".identity.json." suffix (by decide)
  have hidentity := store.identityPath_ne_temp ".identity.json." suffix (by decide)
  have hne := store.identityPath_ne_pairingPath.symm
  obtain ⟨t, rfl⟩ | rfl := h
  · exact Loaded.refl.set hidentity hpairing t
  · refine ⟨⟨Fs.replace_files_of_ne hpairing hne, Fs.replace_versions_of_ne hne⟩, .inr ⟨?_, ?_⟩⟩
    · rw [PairingStore.identity, hnone]
      rfl
    · exact store.identity_of_toVec (by simp) Fs.replace_files_target

theorem safe_loadOrCreate : Safe Fs.exec (Loaded store fresh s)
    (fun r s' => ∀ identity, r = .ok identity → store.identity s' = some identity)
    (Identity.loadOrCreate fresh store.identityPath) s := by
  have hstart : Loaded store fresh s s := .refl
  refine ⟨hstart, fun r s₁ hread => ?_⟩
  match r, hread with
  | .ok bytes, ⟨hs, hfile⟩ =>
    cases hs
    refine ⟨hstart, fun identity hidentity => ?_⟩
    rw [PairingStore.identity, hfile, Option.bind_some, hidentity]
    rfl
  | .error (.other message), hs =>
    cases hs
    exact ⟨hstart, by rintro _ ⟨⟩⟩
  | .error .notFound, ⟨hs, hnone⟩ =>
    cases hs
    refine ⟨hstart, fun suffix s₂ hname => ?_⟩
    cases hname
    change Safe _ _ _ (FsProgram.atomicWrite _ _ _ _ >>= _) s
    refine (FsProgram.safe_atomicWrite s).bind_of_imp (fun _ => loaded_of_between hnone) ?_
    rintro (⟨place, error⟩ | u) s₃ hbetween hok
    · exact ⟨loaded_of_between hnone hbetween, by rintro _ ⟨⟩⟩
    · refine ⟨loaded_of_between hnone hbetween, ?_⟩
      rintro _ ⟨⟩
      rw [hok rfl]
      exact store.identity_of_toVec (by simp) Fs.replace_files_target

/-- An identity that is loaded is the one on disk. -/
theorem safe_loadIdentity : Safe Fs.exec (Loaded store fresh s)
    (fun r s' => ∀ identity, r = .ok identity → store.identity s' = some identity)
    (store.loadIdentity fresh) s := by
  refine safe_loadOrCreate.bind ?_
  rintro (error | found) s' hloaded hidentity
  · exact ⟨hloaded, by rintro _ ⟨⟩⟩
  · refine ⟨hloaded, ?_⟩
    rintro _ ⟨⟩
    exact hidentity found rfl

/-- The record is in place only if nothing has failed, or an access to the disk has. -/
theorem safe_persistPairing (record : PairingRecord) :
    Safe Fs.exec
      (fun s' => Loaded store fresh s s' ∨
        ∃ identity, Persisted prim debugAssertions store fresh record identity s s')
      (fun r s' => match r with
        | .ok () => ∃ identity, Persisted prim debugAssertions store fresh record identity s s'
        | .error error => Loaded store fresh s s' ∨ ∃ io, error = .io io)
      (store.persistPairing prim debugAssertions fresh record) s := by
  refine safe_loadIdentity.bind_of_imp (fun _ => .inl) ?_
  rintro (error | identity) s₁ hloaded hidentity
  · exact ⟨.inl hloaded, .inl hloaded⟩
  change Safe _ _ _ (if _ then _ else _) s₁
  split_ifs with hstale hinvalid
  · exact ⟨.inl hloaded, .inl hloaded⟩
  · exact ⟨.inl hloaded, .inl hloaded⟩
  rw [not_or, not_not, not_not] at hstale
  refine ⟨.inl hloaded, fun suffix s₂ hname => ?_⟩
  cases hname
  have hpairing := store.pairingPath_ne_temp ".pairing.json." suffix (by decide)
  have htemp := store.identityPath_ne_temp ".pairing.json." suffix (by decide)
  have hreplaced : Persisted prim debugAssertions store fresh record identity s
      (s₁.replace ⟨store.root, ".pairing.json." ++ suffix ++ ".tmp"⟩ store.pairingPath
        record.toVec) := by
    have hsame : store.identity (s₁.replace _ _ record.toVec) = store.identity s₁ :=
      store.identity_congr (Fs.replace_files_of_ne htemp store.identityPath_ne_pairingPath)
    exact ⟨⟨s₁, hloaded, hsame⟩, hsame.trans (hidentity identity rfl), hstale.1, hstale.2,
      by simpa using hinvalid, Fs.replace_files_target,
      by rw [Fs.replace_versions_target, hloaded.1.2]⟩
  have hbetween : ∀ s', FsProgram.Between s₁ ⟨store.root, ".pairing.json." ++ suffix ++ ".tmp"⟩
      store.pairingPath record.toVec s' → Loaded store fresh s s' ∨
        ∃ identity, Persisted prim debugAssertions store fresh record identity s s' := by
    rintro s' (⟨t, rfl⟩ | rfl)
    · exact .inl (hloaded.set htemp hpairing t)
    · exact .inr ⟨identity, hreplaced⟩
  change Safe _ _ _ (FsProgram.atomicWrite _ _ _ _ >>= _) s₁
  refine (FsProgram.safe_atomicWrite s₁).bind_of_imp hbetween ?_
  rintro (⟨place, error⟩ | u) s₃ hs₃ hok
  · exact ⟨hbetween s₃ hs₃, .inr ⟨error, rfl⟩⟩
  · rw [hok rfl]
    exact ⟨.inr ⟨identity, hreplaced⟩, identity, hreplaced⟩

/-- What a confirmation can leave: the record if it succeeds, and if it fails the file as
it was, unless the failure came after the record was put in place. -/
theorem safe_confirm (pending : PendingConfirmation) (sas : String) :
    Safe Fs.exec
      (fun s' => Loaded store fresh s s' ∨ sas = pending.sas prim ∧ ∃ identity,
        Persisted prim debugAssertions store fresh (.fromCandidate prim pending.candidate) identity
          s s')
      (fun r s' => match r with
        | .ok record => sas = pending.sas prim ∧ record = .fromCandidate prim pending.candidate ∧
            ∃ identity, Persisted prim debugAssertions store fresh record identity s s'
        | .error error => Loaded store fresh s s' ∨ ∃ io, error = .io io)
      (pending.confirm prim debugAssertions fresh sas store) s := by
  by_cases hsas : sas = pending.sas prim
  · rw [PendingConfirmation.confirm, if_neg (not_not.2 hsas)]
    refine (safe_persistPairing _).bind_of_imp (fun _ => Or.imp_right (And.intro hsas)) ?_
    rintro (error | u) s₁ hs₁ hpost
    · exact ⟨hs₁.imp_right (And.intro hsas), hpost⟩
    · exact ⟨hs₁.imp_right (And.intro hsas), hsas, rfl, hpost⟩
  · rw [PendingConfirmation.confirm, if_pos hsas]
    exact ⟨.inl .refl, .inl .refl⟩

end Confirm

/-! ## Agreement -/

/-- The records of two identities that have paired with each other. -/
structure PairingRecord.Agree (prim : Primitives) (a b : Identity)
    (record record' : PairingRecord) : Prop where
  server : record.server = record'.server
  roomId : record.roomId = record'.roomId
  peer : record.peerBundle = b.publicBundle prim
  peer' : record'.peerBundle = a.publicBundle prim
  localFp : record.localBundleFp = record'.peerBundleFp
  peerFp : record.peerBundleFp = record'.localBundleFp
  distinct : record.localBundleFp ≠ record.peerBundleFp

/-- Two inputs that are hashed to the same string. -/
def SasCollision (prim : Primitives) (input input' : Bytes) : Prop :=
  input ≠ input' ∧ sixDigits (prim.sha256 input) = sixDigits (prim.sha256 input')

section Agreement

variable {prim : Primitives} {debugAssertions debugAssertions' : Bool} {a b : Identity}
  {qr : QrPayload} {offerer : Offerer} {claimer : Claimer} {server : String}
  {delivered delivered' : PubBundle} {pending pending' : PendingConfirmation}

theorem agree_or_collision (hoffer : Offerer.start prim debugAssertions a qr = .ok offerer)
    (hclaim : Claimer.start prim debugAssertions' b qr = .ok claimer)
    (hpending : offerer.receivePeer prim delivered = .ok pending)
    (hpending' : claimer.receivePeer server delivered' = .ok pending')
    (hsas : pending.sas prim = pending'.sas prim) :
    PairingRecord.Agree prim a b (.fromCandidate prim pending.candidate)
        (.fromCandidate prim pending'.candidate) ∨
      SasCollision prim (sasInput qr.nonceA.toList (a.publicBundle prim) delivered)
        (sasInput qr.nonceA.toList (b.publicBundle prim) (a.publicBundle prim)) := by
  obtain ⟨hbundle, rfl⟩ := pending_of_offerer hoffer hpending
  obtain ⟨hdistinct, rfl⟩ := pending_of_claimer hclaim hpending'
  rw [hbundle] at hsas hdistinct ⊢
  by_cases hinput : sasInput qr.nonceA.toList (a.publicBundle prim) delivered =
      sasInput qr.nonceA.toList (b.publicBundle prim) (a.publicBundle prim)
  · cases sasInput_inj hinput
    exact .inl ⟨rfl, roomId_comm prim _ _, rfl, rfl, rfl, rfl, hdistinct.symm⟩
  · exact .inr ⟨hinput, hsas⟩

end Agreement

/-- Whatever the relay delivers, two confirmations with the same string leave records
that agree, or the string was hashed from different inputs. A confirmation that fails
before the record is put in place changes nothing. -/
theorem confirm_agreement {D E : Type} [DecidableEq D] [DecidableEq E] (prim : Primitives)
    (debugAssertions debugAssertions' : Bool) :
    (∀ {a b : Identity} {qr : QrPayload} {offerer : Offerer} {claimer : Claimer}
        {server : String} {delivered delivered' : PubBundle}
        {pending pending' : PendingConfirmation} {sas : String} {store : PairingStore D}
        {store' : PairingStore E} {fresh fresh' : Key × Key} {s t : Fs D} {s' t' : Fs E}
        {record record' : PairingRecord},
      Offerer.start prim debugAssertions a qr = .ok offerer →
      Claimer.start prim debugAssertions' b qr = .ok claimer →
      offerer.receivePeer prim delivered = .ok pending →
      claimer.receivePeer server delivered' = .ok pending' →
      Exec Fs.exec (pending.confirm prim debugAssertions fresh sas store) s (.ok record) t →
      Exec Fs.exec (pending'.confirm prim debugAssertions' fresh' sas store') s'
        (.ok record') t' →
      store.stored t = some record ∧ store'.stored t' = some record' ∧
        (record.Agree prim a b record' ∨
          SasCollision prim (sasInput qr.nonceA.toList (a.publicBundle prim) delivered)
            (sasInput qr.nonceA.toList (b.publicBundle prim) (a.publicBundle prim)))) ∧
    ∀ {pending : PendingConfirmation} {sas : String} {store : PairingStore D}
        {fresh : Key × Key} {s t : Fs D} {error : PairingError},
      Exec Fs.exec (pending.confirm prim debugAssertions fresh sas store) s (.error error) t →
      SameFile store.pairingPath s t ∨ ∃ io, error = .io io ∧ sas = pending.sas prim ∧
        t.versions store.pairingPath = s.versions store.pairingPath ++
          [(PairingRecord.fromCandidate prim pending.candidate).toVec] := by
  constructor
  · intro a b qr offerer claimer server delivered delivered' pending pending' sas store store'
      fresh fresh' s t s' t' record record' hoffer hclaim hpending hpending' hexec hexec'
    obtain ⟨hsas, rfl, _, hpersisted⟩ := (safe_confirm pending sas).post hexec
    obtain ⟨hsas', rfl, _, hpersisted'⟩ := (safe_confirm pending' sas).post hexec'
    exact ⟨hpersisted.stored, hpersisted'.stored,
      agree_or_collision hoffer hclaim hpending hpending' (hsas ▸ hsas')⟩
  · intro pending sas store fresh s t error hexec
    obtain hloaded | ⟨hsas, _, hpersisted⟩ := (safe_confirm pending sas).last hexec
    · exact .inl hloaded.1
    obtain hloaded | ⟨io, hio⟩ := (safe_confirm pending sas).post hexec
    · exact .inl hloaded.1
    · exact .inr ⟨io, hio, hsas, hpersisted.versions⟩

/-- The identities of two devices, and the payload the first of them shows. -/
def sampleIdentity (n : UInt8) : Identity := ⟨.replicate 32 n, .replicate 32 n, 1⟩

def sampleBundle (n : UInt8) : PubBundle := (sampleIdentity n).publicBundle .sample

def sampleQr : QrPayload := ⟨"wss://relay", "234567", sampleBundle 1, .replicate qrNonceBytes 0⟩

def sampleOfferer : Offerer := ⟨1, sampleQr.server, sampleBundle 1, sampleQr.nonceA⟩

def sampleClaimer : Claimer :=
  ⟨1, sampleQr.server, sampleBundle 2, sampleBundle 1, sampleQr.nonceA⟩

/-- What a device of the sample waits with. -/
def samplePending (n peer : UInt8) : PendingConfirmation :=
  ⟨⟨1, sampleQr.server, sampleBundle n, sampleBundle peer⟩, sampleQr.nonceA⟩

def emptyFs : Fs Unit := ⟨fun _ => none, fun _ => []⟩

/-- The secrets that `sampleIdentity` has. -/
def sampleSecrets (n : UInt8) : Key × Key := (.replicate 32 n, .replicate 32 n)

/-- A confirmation on a disk that works. -/
theorem exec_of_confirms (pending : PendingConfirmation) (n : UInt8) (s : Fs Unit)
    (h : ((pending.confirm .sample false (sampleSecrets n) (pending.sas .sample) ⟨()⟩).run
      Fs.undisturbed s).any (fun r => r.1.isOk) = true) :
    ∃ record t, Exec Fs.exec (pending.confirm .sample false (sampleSecrets n)
      (pending.sas .sample) ⟨()⟩) s (.ok record) t := by
  obtain ⟨⟨_ | record, t⟩, hrun, hok⟩ := (Option.any_eq_true _ _).1 h
  · cases hok
  · exact ⟨record, t, exec_of_run Fs.exec_of_undisturbed hrun⟩

theorem sas_samplePending : (samplePending 2 1).sas .sample = (samplePending 1 2).sas .sample := by
  have hinput : sasInput sampleQr.nonceA.toList (sampleBundle 2) (sampleBundle 1) =
      sasInput sampleQr.nonceA.toList (sampleBundle 1) (sampleBundle 2) := by
    decide +kernel
  exact congrArg (fun input => sixDigits (Primitives.sample.sha256 input)) hinput

theorem confirm_agreement_sample :
    ∃ (store : PairingStore Unit) (t t' : Fs Unit) (record record' : PairingRecord),
      store.stored t = some record ∧ store.stored t' = some record' ∧
        (record.Agree .sample (sampleIdentity 1) (sampleIdentity 2) record' ∨
          SasCollision .sample
            (sasInput sampleQr.nonceA.toList (sampleBundle 1) (sampleBundle 2))
            (sasInput sampleQr.nonceA.toList (sampleBundle 2) (sampleBundle 1))) := by
  have hoffer : Offerer.start .sample false (sampleIdentity 1) sampleQr = .ok sampleOfferer := rfl
  have hclaim : Claimer.start .sample false (sampleIdentity 2) sampleQr = .ok sampleClaimer := rfl
  have hpending : sampleOfferer.receivePeer .sample (sampleBundle 2) =
      .ok (samplePending 1 2) := rfl
  have hpending' : sampleClaimer.receivePeer sampleQr.server (sampleBundle 1) =
      .ok (samplePending 2 1) := rfl
  obtain ⟨record, t, ht⟩ := exec_of_confirms (samplePending 1 2) 1 emptyFs (by decide +kernel)
  obtain ⟨record', t', ht'⟩ := exec_of_confirms (samplePending 2 1) 2 emptyFs (by decide +kernel)
  rw [sas_samplePending] at ht'
  exact ⟨⟨()⟩, t, t', _, _,
    (confirm_agreement .sample false false).1 hoffer hclaim hpending hpending' ht ht'⟩

end ClipSync
