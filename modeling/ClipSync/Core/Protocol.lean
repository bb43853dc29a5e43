import ClipSync.Lib.Base64
import ClipSync.Lib.Hex
import ClipSync.Lib.Json.Text
import Mathlib.Data.Vector.Basic

/-!
# Frames, envelopes and the connection-order table

The wire types of `crates/core/src/protocol.rs` with their validators, the
bounded encoders and decoders, and the table of legal frame orders. An encoded
value is its two-space pretty-printed JSON with a newline after it, refused past
24 MiB; a decoded value has passed the same validation as an encoded one.

What `serde_json::from_slice` accepts, and how it and the base64 crate word
their errors, belongs to those crates. It enters as a `Codec`.
-/

namespace ClipSync

open Lib

def protocolVersion : UInt32 := 1

def maxFrameBytes : ℕ := 24 * 1024 * 1024

def maxMessageBytes : ℕ := 24 * 1024 * 1024

def publicKeyLength : ℕ := 32

/-- The pair of public keys of an identity. -/
structure PubBundle where
  signPk : List.Vector UInt8 publicKeyLength
  dhPk : List.Vector UInt8 publicKeyLength
deriving DecidableEq

/-- A network frame. -/
inductive Frame where
  | hello (deviceId : String) (pubBundle : PubBundle) (version : UInt32)
  | helloOk (serverVersion : UInt32) (nonceB64 : String)
  | pairOffer (code : String) (pubBundle : PubBundle)
  | pairOfferOk
  | pairClaim (code : String) (pubBundle : PubBundle)
  | pairPeer (peerPubBundle : PubBundle)
  | join (roomId deviceId : String) (pubBundle : PubBundle) (sigB64 : String)
  | joinOk
  | clip (roomId ciphertextB64 originDevice : String) (mailbox : Bool)
  | mailboxEmpty
  | error (code message : String)
deriving DecidableEq

inductive ContentKind where
  | text
  | image
deriving DecidableEq

/-- The plaintext of one encrypted clipboard message. -/
structure Envelope where
  v : UInt32
  kind : ContentKind
  itemId : String
  seq : UInt64
  tsMs : Int64
  contentB64 : String
deriving DecidableEq

inductive ConnectionState where
  | connected
  | awaitingHelloOk
  | ready
  | awaitingPairOfferOk
  | awaitingPairPeer
  | readyToJoin
  | awaitingJoinOk
  | bootstrap
  | live
  | closed
deriving DecidableEq

inductive ProtocolError where
  | badFrame (message : String)
  | oversize (size limit : ℕ)
  | versionMismatch (received supported : UInt32)
deriving DecidableEq

/-- The behaviour of the JSON and base64 crates that the decoders depend on:
`from_slice` for the two wire types, and the texts of their errors. -/
structure Codec where
  frameFromSlice : Bytes → Except String Frame
  envelopeFromSlice : Bytes → Except String Envelope
  base64Error : String → String

namespace ProtocolError

/-- The `Display` text of the error. -/
def toText : ProtocolError → String
  | .badFrame message => "bad_frame: " ++ message
  | .oversize size limit =>
    "payload is " ++ toString size ++ " bytes; limit is " ++ toString limit ++ " bytes"
  | .versionMismatch received supported =>
    "unsupported protocol version " ++ toString received ++ "; expected " ++
      toString supported

def toErrorFrame : ProtocolError → Frame
  | .badFrame message => .error "bad_frame" message
  | .oversize size limit => .error "bad_frame" (toText (.oversize size limit))
  | .versionMismatch received supported =>
    .error "version_mismatch" (toText (.versionMismatch received supported))

end ProtocolError

/-- Signing key then DH key, 64 bytes in all. -/
def bundleBytes (bundle : PubBundle) : Bytes :=
  bundle.signPk.toList ++ bundle.dhPk.toList

/-! ## Serialization -/

namespace PubBundle

def toJson (bundle : PubBundle) : Json.Value :=
  .obj [("sign_pk_b64", .str (Base64.encode bundle.signPk.toList)),
    ("dh_pk_b64", .str (Base64.encode bundle.dhPk.toList))]

end PubBundle

namespace Frame

/-- The `type` tag of a frame. -/
def typeName : Frame → String
  | .hello .. => "hello"
  | .helloOk .. => "hello_ok"
  | .pairOffer .. => "pair_offer"
  | .pairOfferOk => "pair_offer_ok"
  | .pairClaim .. => "pair_claim"
  | .pairPeer .. => "pair_peer"
  | .join .. => "join"
  | .joinOk => "join_ok"
  | .clip .. => "clip"
  | .mailboxEmpty => "mailbox_empty"
  | .error .. => "error"

/-- The fields of a frame in declaration order. -/
def fields : Frame → List (String × Json.Value)
  | .hello deviceId pubBundle version =>
    [("device_id", .str deviceId), ("pub_bundle", pubBundle.toJson),
      ("version", .int version.toNat)]
  | .helloOk serverVersion nonceB64 =>
    [("server_version", .int serverVersion.toNat), ("nonce_b64", .str nonceB64)]
  | .pairOffer code pubBundle => [("code", .str code), ("pub_bundle", pubBundle.toJson)]
  | .pairClaim code pubBundle => [("code", .str code), ("pub_bundle", pubBundle.toJson)]
  | .pairPeer peerPubBundle => [("peer_pub_bundle", peerPubBundle.toJson)]
  | .join roomId deviceId pubBundle sigB64 =>
    [("room_id", .str roomId), ("device_id", .str deviceId),
      ("pub_bundle", pubBundle.toJson), ("sig_b64", .str sigB64)]
  | .clip roomId ciphertextB64 originDevice mailbox =>
    [("room_id", .str roomId), ("ciphertext_b64", .str ciphertextB64),
      ("origin_device", .str originDevice), ("mailbox", .bool mailbox)]
  | .error code message => [("code", .str code), ("message", .str message)]
  | .pairOfferOk | .joinOk | .mailboxEmpty => []

/-- A frame is an object tagged with its type. -/
def toJson (frame : Frame) : Json.Value :=
  .obj (("type", .str frame.typeName) :: frame.fields)

end Frame

namespace ContentKind

def name : ContentKind → String
  | .text => "text"
  | .image => "image"

end ContentKind

namespace Envelope

def toJson (envelope : Envelope) : Json.Value :=
  .obj [("v", .int envelope.v.toNat), ("kind", .str envelope.kind.name),
    ("item_id", .str envelope.itemId), ("seq", .int envelope.seq.toNat),
    ("ts_ms", .int envelope.tsMs.toInt), ("content_b64", .str envelope.contentB64)]

end Envelope

/-! ## Validation -/

def isLowerHex (byte : UInt8) : Bool :=
  (48 ≤ byte && byte ≤ 57) || (97 ≤ byte && byte ≤ 102)

def validateLowerHex (value : String) (length : ℕ) (name : String) :
    Except ProtocolError Unit :=
  if (utf8Bytes value).length = length ∧ (utf8Bytes value).all isLowerHex then .ok ()
  else .error (.badFrame
    (name ++ " must be " ++ toString length ++ " lowercase hex characters"))

def validateDeviceId (deviceId : String) : Except ProtocolError Unit :=
  validateLowerHex deviceId 16 "device_id"

def validateRoomId (roomId : String) : Except ProtocolError Unit :=
  validateLowerHex roomId 32 "room_id"

def validateVersion (version : UInt32) : Except ProtocolError Unit :=
  if version = protocolVersion then .ok ()
  else .error (.versionMismatch version protocolVersion)

def validateBase64 (codec : Codec) (name value : String) : Except ProtocolError Unit :=
  match Base64.decode value with
  | none => .error (.badFrame
      (name ++ " must be padded STANDARD base64: " ++ codec.base64Error value))
  | some decoded =>
    if Base64.encode decoded = value then .ok ()
    else .error (.badFrame (name ++ " must be canonical padded STANDARD base64"))

def isHexDigit (byte : UInt8) : Bool :=
  isLowerHex byte || (65 ≤ byte && byte ≤ 70)

def isUuidV4 (value : String) : Bool :=
  let bytes := utf8Bytes value
  bytes.length == 36 && bytes[8]? == some 45 && bytes[13]? == some 45 &&
    bytes[14]? == some 52 && bytes[18]? == some 45 && bytes[23]? == some 45 &&
    (bytes[19]?.any fun byte => [56, 57, 97, 98, 65, 66].contains byte) &&
    bytes.zipIdx.all fun (byte, index) => [8, 13, 18, 23].contains index || isHexDigit byte

def validateFrame (codec : Codec) : Frame → Except ProtocolError Unit
  | .hello deviceId _ version => do
    validateDeviceId deviceId
    validateVersion version
  | .helloOk serverVersion nonceB64 => do
    validateVersion serverVersion
    validateBase64 codec "nonce_b64" nonceB64
  | .join roomId deviceId _ sigB64 => do
    validateRoomId roomId
    validateDeviceId deviceId
    validateBase64 codec "sig_b64" sigB64
  | .clip roomId ciphertextB64 _ _ => do
    validateRoomId roomId
    validateBase64 codec "ciphertext_b64" ciphertextB64
  | .pairOffer .. | .pairOfferOk | .pairClaim .. | .pairPeer .. | .joinOk
  | .mailboxEmpty | .error .. => .ok ()

def validateEnvelope (codec : Codec) (envelope : Envelope) : Except ProtocolError Unit := do
  validateVersion envelope.v
  if isUuidV4 envelope.itemId then validateBase64 codec "content_b64" envelope.contentB64
  else .error (.badFrame "item_id must be a UUID v4")

variable {codec : Codec} {frame : Frame} {value : String}

theorem lowerHex_of_validateLowerHex {name : String} {length : ℕ}
    (h : validateLowerHex value length name = .ok ()) :
    Hex.LowerHex value ∧ value.toList.length = length := by
  unfold validateLowerHex at h
  split at h
  · rename_i hvalid
    have hhex : Hex.LowerHex value := by
      refine Hex.lowerHex_of_utf8Bytes fun b hb => ?_
      have := List.all_eq_true.1 hvalid.2 b hb
      simpa [isLowerHex, UInt8.le_iff_toNat_le] using this
    have hlength := hvalid.1
    rw [← String.ofList_toList (s := value), length_utf8Bytes_ofList,
      utf8Length_of_ascii fun c hc => (hhex.plain c hc).ascii] at hlength
    exact ⟨hhex, hlength⟩
  · cases h

theorem validateLowerHex_of_lowerHex (h : Hex.LowerHex value) (name : String) :
    validateLowerHex value value.toList.length name = .ok () := by
  have hascii : ∀ c ∈ value.toList, c.toNat < 128 := fun c hc => (h.plain c hc).ascii
  have hdigits : (Hex.digits.all fun c => isLowerHex (UInt8.ofNat c.toNat)) = true := by decide
  have hbytes := utf8Bytes_of_ascii hascii
  rw [String.ofList_toList] at hbytes
  refine if_pos ⟨by rw [hbytes, List.length_map], ?_⟩
  rw [hbytes, List.all_map, List.all_eq_true]
  exact fun c hc => List.all_eq_true.1 hdigits c (h c hc)

theorem decode_of_validateBase64 {name : String} (h : validateBase64 codec name value = .ok ()) :
    ∃ decoded, Base64.decode value = some decoded := by
  unfold validateBase64 at h
  split at h
  · cases h
  · exact ⟨_, ‹_›⟩

theorem validateFrame_clip {roomId ciphertextB64 originDevice : String} {mailbox : Bool} :
    validateFrame codec (.clip roomId ciphertextB64 originDevice mailbox) = .ok () ↔
      validateRoomId roomId = .ok () ∧
        validateBase64 codec "ciphertext_b64" ciphertextB64 = .ok () := by
  cases hroom : validateRoomId roomId with
  | error e | ok u => simp [validateFrame, hroom, bind, Except.bind]

/-! ## Bounded codecs -/

def ensureSize (size limit : ℕ) : Except ProtocolError Unit :=
  if size ≤ limit then .ok () else .error (.oversize size limit)

def badJson (error : String) : ProtocolError := .badFrame ("invalid JSON: " ++ error)

/-- Pretty-printed JSON and a newline. -/
def jsonText (value : Json.Value) : Bytes := Json.toBytes .pretty value ++ [10]

/-- The text of a value, within the limit. -/
def encodeJson (value : Json.Value) (limit : ℕ) : Except ProtocolError Bytes := do
  let encoded := jsonText value
  ensureSize encoded.length limit
  return encoded

def encodeFrame (codec : Codec) (frame : Frame) : Except ProtocolError Bytes := do
  validateFrame codec frame
  encodeJson frame.toJson maxFrameBytes

def decodeFrame (codec : Codec) (encoded : Bytes) : Except ProtocolError Frame := do
  ensureSize encoded.length maxFrameBytes
  let frame ← (codec.frameFromSlice encoded).mapError badJson
  validateFrame codec frame
  return frame

def encodeEnvelope (codec : Codec) (envelope : Envelope) : Except ProtocolError Bytes := do
  validateEnvelope codec envelope
  encodeJson envelope.toJson maxMessageBytes

def decodeEnvelope (codec : Codec) (encoded : Bytes) : Except ProtocolError Envelope := do
  ensureSize encoded.length maxMessageBytes
  let envelope ← (codec.envelopeFromSlice encoded).mapError badJson
  validateEnvelope codec envelope
  return envelope

/-- The octets of a frame that can be encoded. -/
@[irreducible] def Frame.encoded (frame : Frame) : Bytes := jsonText frame.toJson

variable {envelope : Envelope} {limit : ℕ}

theorem encodeJson_eq_ok {value : Json.Value} {encoded : Bytes} :
    encodeJson value limit = .ok encoded ↔
      (jsonText value).length ≤ limit ∧ encoded = jsonText value := by
  by_cases hsize : (jsonText value).length ≤ limit
  · simp [encodeJson, ensureSize, hsize, bind, Except.bind, pure, Except.pure, eq_comm]
  · simp [encodeJson, ensureSize, hsize, bind, Except.bind]

theorem encodeFrame_eq_ok {encoded : Bytes} :
    encodeFrame codec frame = .ok encoded ↔ validateFrame codec frame = .ok () ∧
      frame.encoded.length ≤ maxFrameBytes ∧ encoded = frame.encoded := by
  cases hvalid : validateFrame codec frame with
  | error e => simp [encodeFrame, hvalid, bind, Except.bind]
  | ok u =>
    simp only [encodeFrame, hvalid, bind, Except.bind, encodeJson_eq_ok, true_and,
      Frame.encoded]

theorem encodeFrame_isOk_iff :
    (encodeFrame codec frame).isOk = true ↔
      validateFrame codec frame = .ok () ∧ frame.encoded.length ≤ maxFrameBytes := by
  have hok : (encodeFrame codec frame).isOk = true ↔ ∃ b, encodeFrame codec frame = .ok b := by
    cases encodeFrame codec frame <;> simp [Except.isOk, Except.toBool]
  simp [hok, encodeFrame_eq_ok]

theorem bounded_eq_ok {α : Type} {size : ℕ} {parsed : Except String α}
    {validate : α → Except ProtocolError Unit} {value : α} :
    (do
      ensureSize size limit
      let read ← parsed.mapError badJson
      validate read
      return read) = Except.ok value ↔
      size ≤ limit ∧ parsed = .ok value ∧ validate value = .ok () := by
  by_cases hsize : size ≤ limit
  · cases parsed with
    | error e => simp [ensureSize, hsize, bind, Except.bind, Except.mapError]
    | ok read =>
      simp only [ensureSize, hsize, bind, Except.bind, Except.mapError, if_true, true_and,
        Except.ok.injEq]
      cases hvalid : validate read with
      | error e =>
        refine ⟨fun h => ?_, ?_⟩
        · cases h
        · rintro ⟨rfl, hok⟩
          cases hvalid.symm.trans hok
      | ok u =>
        refine ⟨fun h => ?_, ?_⟩
        · cases h
          exact ⟨rfl, hvalid⟩
        · rintro ⟨rfl, -⟩
          rfl
  · simp [ensureSize, hsize, bind, Except.bind]

theorem decodeFrame_eq_ok {encoded : Bytes} :
    decodeFrame codec encoded = .ok frame ↔ encoded.length ≤ maxFrameBytes ∧
      codec.frameFromSlice encoded = .ok frame ∧ validateFrame codec frame = .ok () :=
  bounded_eq_ok

theorem decodeEnvelope_eq_ok {encoded : Bytes} :
    decodeEnvelope codec encoded = .ok envelope ↔ encoded.length ≤ maxMessageBytes ∧
      codec.envelopeFromSlice encoded = .ok envelope ∧
      validateEnvelope codec envelope = .ok () :=
  bounded_eq_ok

theorem encodeEnvelope_eq_ok {encoded : Bytes} :
    encodeEnvelope codec envelope = .ok encoded ↔ validateEnvelope codec envelope = .ok () ∧
      (jsonText envelope.toJson).length ≤ maxMessageBytes ∧
      encoded = jsonText envelope.toJson := by
  cases hvalid : validateEnvelope codec envelope with
  | error e => simp [encodeEnvelope, hvalid, bind, Except.bind]
  | ok u => simp only [encodeEnvelope, hvalid, bind, Except.bind, encodeJson_eq_ok, true_and]

/-! ## Frame order -/

/-- A frame as the order validator sees it: a clip is told apart by its mailbox
flag. -/
inductive FrameEvent where
  | hello
  | helloOk
  | pairOffer
  | pairOfferOk
  | pairClaim
  | pairPeer
  | join
  | joinOk
  | mailboxClip
  | liveClip
  | mailboxEmpty
  | error
deriving DecidableEq

def FrameEvent.fromFrame : Frame → FrameEvent
  | .hello .. => .hello
  | .helloOk .. => .helloOk
  | .pairOffer .. => .pairOffer
  | .pairOfferOk => .pairOfferOk
  | .pairClaim .. => .pairClaim
  | .pairPeer .. => .pairPeer
  | .join .. => .join
  | .joinOk => .joinOk
  | .clip _ _ _ true => .mailboxClip
  | .clip _ _ _ false => .liveClip
  | .mailboxEmpty => .mailboxEmpty
  | .error .. => .error

/-- The table of legal frame orders. An error closes every state but the closed
one. -/
def transitions : ConnectionState → FrameEvent → Option ConnectionState
  | .connected, .hello => some .awaitingHelloOk
  | .awaitingHelloOk, .helloOk => some .ready
  | .ready, .pairOffer => some .awaitingPairOfferOk
  | .ready, .pairClaim => some .awaitingPairPeer
  | .ready, .join => some .awaitingJoinOk
  | .awaitingPairOfferOk, .pairOfferOk => some .awaitingPairPeer
  | .awaitingPairPeer, .pairPeer => some .readyToJoin
  | .readyToJoin, .join => some .awaitingJoinOk
  | .awaitingJoinOk, .joinOk => some .bootstrap
  | .bootstrap, .mailboxClip => some .live
  | .bootstrap, .mailboxEmpty => some .live
  | .live, .liveClip => some .live
  | .closed, .error => none
  | _, .error => some .closed
  | _, _ => none

end ClipSync
