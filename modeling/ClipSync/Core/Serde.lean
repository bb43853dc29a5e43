import ClipSync.Core.Protocol
import ClipSync.Lib.Json.Record

/-!
# Reading frames and envelopes from JSON

The derived deserializers of the wire types: a frame is an object tagged by
`type`, a bundle and an envelope are plain records, and unknown, repeated or
missing members are refused except on the frames that carry none. Reading the
printed form of a frame or an envelope, in either layout and with white space
after it, gives it back.
-/

namespace ClipSync

open Lib Lib.Json

def decodePublicKey (value : String) : Option (List.Vector UInt8 publicKeyLength) := do
  let decoded ← Base64.decode value
  if Base64.encode decoded ≠ value then none
  else if h : decoded.length = publicKeyLength then some ⟨decoded, h⟩
  else none

@[simp]
theorem decodePublicKey_encode (key : List.Vector UInt8 publicKeyLength) :
    decodePublicKey (Base64.encode key.toList) = some key := by
  simp [decodePublicKey]

namespace PubBundle

def fromJson (value : Value) : Option PubBundle := do
  match ← record ["sign_pk_b64", "dh_pk_b64"] value with
  | [sign, dh] => some ⟨← decodePublicKey (← asStr sign), ← decodePublicKey (← asStr dh)⟩
  | _ => none

@[simp]
theorem fromJson_toJson (bundle : PubBundle) : fromJson bundle.toJson = some bundle := by
  simp [fromJson, toJson, record, List.lookup_cons, asStr]

@[simp]
theorem integral_toJson (bundle : PubBundle) : Integral bundle.toJson := by
  simp [toJson]

end PubBundle

def asU32 (value : Value) : Option UInt32 := (asNat UInt32.size value).map UInt32.ofNat

def asU64 (value : Value) : Option UInt64 := (asNat UInt64.size value).map UInt64.ofNat

/-- The integers that keep their value as a signed 64-bit word. -/
def asI64 (value : Value) : Option Int64 := do
  let n ← asInt value
  if (Int64.ofInt n).toInt = n then some (Int64.ofInt n) else none

@[simp]
theorem asU32_int (n : UInt32) : asU32 (.int n.toNat) = some n := by
  rw [asU32, asNat_int n.toNat_lt_size]
  simp

@[simp]
theorem asU64_int (n : UInt64) : asU64 (.int n.toNat) = some n := by
  rw [asU64, asNat_int n.toNat_lt_size]
  simp

@[simp]
theorem asI64_int (n : Int64) : asI64 (.int n.toInt) = some n := by
  simp [asI64, asInt]

namespace Frame

/-- The frame with the given tag and members. -/
def fromFields (name : String) (value : Value) : Option Frame := do
  match name with
  | "hello" =>
    match ← record ["device_id", "pub_bundle", "version"] value with
    | [deviceId, pubBundle, version] =>
      some (.hello (← asStr deviceId) (← PubBundle.fromJson pubBundle) (← asU32 version))
    | _ => none
  | "hello_ok" =>
    match ← record ["server_version", "nonce_b64"] value with
    | [serverVersion, nonceB64] =>
      some (.helloOk (← asU32 serverVersion) (← asStr nonceB64))
    | _ => none
  | "pair_offer" =>
    match ← record ["code", "pub_bundle"] value with
    | [code, pubBundle] =>
      some (.pairOffer (← asStr code) (← PubBundle.fromJson pubBundle))
    | _ => none
  | "pair_offer_ok" => some .pairOfferOk
  | "pair_claim" =>
    match ← record ["code", "pub_bundle"] value with
    | [code, pubBundle] =>
      some (.pairClaim (← asStr code) (← PubBundle.fromJson pubBundle))
    | _ => none
  | "pair_peer" =>
    match ← record ["peer_pub_bundle"] value with
    | [peerPubBundle] => some (.pairPeer (← PubBundle.fromJson peerPubBundle))
    | _ => none
  | "join" =>
    match ← record ["room_id", "device_id", "pub_bundle", "sig_b64"] value with
    | [roomId, deviceId, pubBundle, sigB64] =>
      some (.join (← asStr roomId) (← asStr deviceId)
        (← PubBundle.fromJson pubBundle) (← asStr sigB64))
    | _ => none
  | "join_ok" => some .joinOk
  | "clip" =>
    match ← record ["room_id", "ciphertext_b64", "origin_device", "mailbox"] value with
    | [roomId, ciphertextB64, originDevice, mailbox] =>
      some (.clip (← asStr roomId) (← asStr ciphertextB64) (← asStr originDevice)
        (← asBool mailbox))
    | _ => none
  | "mailbox_empty" => some .mailboxEmpty
  | "error" =>
    match ← record ["code", "message"] value with
    | [code, message] => some (.error (← asStr code) (← asStr message))
    | _ => none
  | _ => none

def fromJson (value : Value) : Option Frame := do
  let (name, value) ← tagged "type" value
  fromFields name value

theorem fields_ne_type (frame : Frame) : ∀ m ∈ frame.fields, m.1 ≠ "type" := by
  cases frame <;> simp [fields]

theorem fromFields_fields (frame : Frame) :
    fromFields frame.typeName (.obj frame.fields) = some frame := by
  cases frame <;> simp [fromFields, typeName, fields, record, List.lookup_cons, asStr, asBool]

theorem fromJson_toJson (frame : Frame) : fromJson frame.toJson = some frame := by
  rw [fromJson, toJson, tagged_obj frame.fields_ne_type]
  exact frame.fromFields_fields

theorem integral_toJson (frame : Frame) : Integral frame.toJson := by
  cases frame <;> simp [toJson, fields]

end Frame

namespace Envelope

def kindFromName : String → Option ContentKind
  | "text" => some .text
  | "image" => some .image
  | _ => none

def fromJson (value : Value) : Option Envelope := do
  match ← record ["v", "kind", "item_id", "seq", "ts_ms", "content_b64"] value with
  | [v, kind, itemId, seq, tsMs, contentB64] =>
    some ⟨← asU32 v, ← kindFromName (← asStr kind), ← asStr itemId, ← asU64 seq,
      ← asI64 tsMs, ← asStr contentB64⟩
  | _ => none

theorem kindFromName_name (kind : ContentKind) : kindFromName kind.name = some kind := by
  cases kind <;> rfl

theorem fromJson_toJson (envelope : Envelope) : fromJson envelope.toJson = some envelope := by
  simp [fromJson, toJson, record, List.lookup_cons, asStr, kindFromName_name]

theorem integral_toJson (envelope : Envelope) : Integral envelope.toJson := by
  simp [toJson]

end Envelope

theorem fromBytes_toBytes (layout : Layout) {value : Value} (h : Integral value)
    (ws : List Char) (hws : ∀ c ∈ ws, isSpace c = true) :
    fromBytes (utf8Bytes (String.ofList (print layout 0 value ++ ws))) = some value := by
  simp [fromBytes, parse_print layout h hws]

theorem fromBytes_printed (layout : Layout) {value : Value} (h : Integral value) :
    fromBytes (toBytes layout value) = some value := by
  have hread := fromBytes_toBytes layout h [] (by simp)
  rwa [List.append_nil] at hread

/-- The standard reading of the two wire types. The wording of errors is left
open. -/
def Codec.standard (jsonError : Bytes → String) (base64Error : String → String) : Codec where
  frameFromSlice b := ((fromBytes b).bind Frame.fromJson).elim (.error (jsonError b)) .ok
  envelopeFromSlice b :=
    ((fromBytes b).bind Envelope.fromJson).elim (.error (jsonError b)) .ok
  base64Error := base64Error

theorem Codec.standard_frameFromSlice (jsonError : Bytes → String) (base64Error : String → String)
    (layout : Layout) (frame : Frame) (ws : List Char) (hws : ∀ c ∈ ws, isSpace c = true) :
    (Codec.standard jsonError base64Error).frameFromSlice
        (utf8Bytes (String.ofList (print layout 0 frame.toJson ++ ws))) = .ok frame := by
  simp only [Codec.standard]
  rw [fromBytes_toBytes layout frame.integral_toJson ws hws, Option.bind_some,
    Frame.fromJson_toJson]
  rfl

theorem Codec.standard_envelopeFromSlice (jsonError : Bytes → String)
    (base64Error : String → String) (layout : Layout) (envelope : Envelope) (ws : List Char)
    (hws : ∀ c ∈ ws, isSpace c = true) :
    (Codec.standard jsonError base64Error).envelopeFromSlice
        (utf8Bytes (String.ofList (print layout 0 envelope.toJson ++ ws))) =
      .ok envelope := by
  simp only [Codec.standard]
  rw [fromBytes_toBytes layout envelope.integral_toJson ws hws, Option.bind_some,
    Envelope.fromJson_toJson]
  rfl

theorem jsonText_eq (value : Value) :
    jsonText value = utf8Bytes (String.ofList (print .pretty 0 value ++ ['\n'])) := by
  rw [utf8Bytes_ofList, List.flatMap_append, ← utf8Bytes_ofList]
  rfl

/-- Frames are read as they are written. -/
theorem Codec.standard_reads_frame (jsonError : Bytes → String) (base64Error : String → String)
    (frame : Frame) :
    (Codec.standard jsonError base64Error).frameFromSlice frame.encoded = .ok frame := by
  rw [Frame.encoded, jsonText_eq]
  exact Codec.standard_frameFromSlice _ _ .pretty frame ['\n'] (by simp [Json.isSpace])

theorem Codec.standard_reads_envelope (jsonError : Bytes → String)
    (base64Error : String → String) (envelope : Envelope) :
    (Codec.standard jsonError base64Error).envelopeFromSlice (jsonText envelope.toJson) =
      .ok envelope := by
  rw [jsonText_eq]
  exact Codec.standard_envelopeFromSlice _ _ .pretty envelope ['\n'] (by simp [Json.isSpace])

end ClipSync
