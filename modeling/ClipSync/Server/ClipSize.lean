import ClipSync.Core.WireSize
import ClipSync.Server.Room

/-!
# The size of relayed clips

A client's clip is bounded by the size of the text it arrives in, which the client
lays out as it likes. The relay writes the clip anew, pretty-printed and with the
sender's fingerprint for its origin, and that text is bounded by the same number.
-/

namespace ClipSync

open Lib Program

/-! ## What the relay can encode -/

open RoomActor

variable {codec : Codec} {roomId ciphertextB64 : String}

theorem encodeFrame_clip_isOk_iff (prim : Primitives) (sender : PubBundle) (mailbox : Bool)
    (hroom : validateRoomId roomId = .ok ())
    (hcipher : validateBase64 codec "ciphertext_b64" ciphertextB64 = .ok ()) :
    (encodeFrame codec
        (.clip roomId ciphertextB64 (bundleFp prim sender) mailbox)).isOk = true ↔
      ciphertextB64.toList.length + (if mailbox then 200 else 201) ≤ maxFrameBytes := by
  obtain ⟨hhex, hlength⟩ := lowerHex_of_validateLowerHex hroom
  have hsize := length_encoded_clip hhex.plain (plain_of_validateBase64 hcipher)
    (lowerHex_bundleFp prim sender).plain mailbox
  simp only [encodeFrame_isOk_iff, validateFrame_clip, hroom, hcipher, true_and, hsize,
    hlength, length_bundleFp]
  cases mailbox <;> simp [clipOverhead] <;> omega

/-- Both copies of an accepted clip that the relay makes can be encoded, and neither
`send_frame` nor `try_reserve_frame` panics on them, exactly if the ciphertext leaves
201 octets of the frame limit. -/
theorem relayed_clip_encodable_iff (prim : Primitives) (sender : PubBundle) {text : Bytes}
    {originDevice : String} {mailbox : Bool}
    (h : decodeFrame codec text = .ok (.clip roomId ciphertextB64 originDevice mailbox)) :
    ((encodeFrame codec
          (liveFrame roomId (bundleFp prim sender) ciphertextB64)).isOk = true ∧
        (encodeFrame codec
          (bootstrapFrame roomId ⟨bundleFp prim sender, ciphertextB64⟩)).isOk = true ∧
        (∀ outbox : OutboxHandle, (outbox.sendFrame codec
          (liveFrame roomId (bundleFp prim sender) ciphertextB64)).AllOps (· ≠ .panic)) ∧
        ∀ outbox : OutboxHandle, (outbox.tryReserveFrame codec (bootstrapFrame roomId
          ⟨bundleFp prim sender, ciphertextB64⟩)).AllOps (· ≠ .panic)) ↔
      ciphertextB64.toList.length + 201 ≤ maxFrameBytes := by
  obtain ⟨-, -, hvalid⟩ := decodeFrame_eq_ok.1 h
  obtain ⟨hroom, hcipher⟩ := validateFrame_clip.1 hvalid
  have hlive := encodeFrame_clip_isOk_iff prim sender false hroom hcipher
  have hbootstrap := encodeFrame_clip_isOk_iff prim sender true hroom hcipher
  simp only [OutboxHandle.sendFrame_allOps_iff, OutboxHandle.tryReserveFrame_allOps_iff,
    liveFrame, bootstrapFrame, hlive, hbootstrap]
  constructor
  · exact fun h => h.1
  · intro h
    exact ⟨h, Nat.le_of_succ_le h, fun _ => h, fun _ => Nat.le_of_succ_le h⟩

/-! ## Texts of clients -/

theorem decodeFrame_compact_clip (jsonError : Bytes → String) (base64Error : String → String)
    (payload : Bytes) (hroom : validateRoomId roomId = .ok ())
    (hsize : (Base64.encode payload).toList.length + 115 ≤ maxFrameBytes) :
    decodeFrame (Codec.standard jsonError base64Error) (Json.toBytes .compact
        (Frame.clip roomId (Base64.encode payload) "" false).toJson) =
      .ok (.clip roomId (Base64.encode payload) "" false) := by
  obtain ⟨hhex, hlength⟩ := lowerHex_of_validateLowerHex hroom
  have hcipher := validateBase64_encode (Codec.standard jsonError base64Error)
    "ciphertext_b64" payload
  refine decodeFrame_eq_ok.2 ⟨?_, ?_, validateFrame_clip.2 ⟨hroom, hcipher⟩⟩
  · rw [Json.toBytes, length_utf8Bytes_ofList, utf8Length_print_clip .compact hhex.plain
      (plain_of_validateBase64 hcipher) (by simp), hlength]
    simpa [clipOverhead] using hsize
  · have hslice := Codec.standard_frameFromSlice jsonError base64Error .compact
      (.clip roomId (Base64.encode payload) "" false) [] (by simp)
    rwa [List.append_nil] at hslice

def sampleRoom : String := "00000000000000000000000000000000"

def sampleCodec : Codec := .standard (fun _ => "") id

def sampleSender : PubBundle := ⟨.replicate 32 0, .replicate 32 0⟩

theorem validateRoomId_sampleRoom : validateRoomId sampleRoom = .ok () := by
  decide

theorem relayed_clip_encodable_small :
    (encodeFrame sampleCodec (liveFrame sampleRoom (bundleFp .sample sampleSender)
      (Base64.encode [0]))).isOk = true := by
  have hdecode := decodeFrame_compact_clip (fun _ => "") id [0] validateRoomId_sampleRoom
    (by decide)
  exact ((relayed_clip_encodable_iff .sample sampleSender hdecode).2 (by decide)).1

/-- A client can send a clip that the relay cannot fit into a frame, neither live nor
from the mailbox. -/
theorem relayed_clip_too_long :
    ∃ text roomId ciphertextB64, text.length ≤ maxFrameBytes ∧
      decodeFrame sampleCodec text = .ok (.clip roomId ciphertextB64 "" false) ∧
      (encodeFrame sampleCodec
        (liveFrame roomId (bundleFp .sample sampleSender) ciphertextB64)).isOk = false ∧
      (encodeFrame sampleCodec (bootstrapFrame roomId
        ⟨bundleFp .sample sampleSender, ciphertextB64⟩)).isOk = false := by
  set payload : Bytes := List.replicate (3 * 6291407) 0 with hpayload
  have hlength : (Base64.encode payload).toList.length = 25165628 := by
    rw [Base64.length_encode, hpayload, List.length_replicate]
  have hdecode := decodeFrame_compact_clip (fun _ => "") id payload
    validateRoomId_sampleRoom (by rw [hlength]; decide)
  have hcipher := validateBase64_encode sampleCodec "ciphertext_b64" payload
  have hcopy : ∀ mailbox, (encodeFrame sampleCodec (.clip sampleRoom (Base64.encode payload)
      (bundleFp .sample sampleSender) mailbox)).isOk = false := by
    intro mailbox
    rw [← Bool.not_eq_true, encodeFrame_clip_isOk_iff .sample sampleSender mailbox
      validateRoomId_sampleRoom hcipher, hlength]
    cases mailbox <;> decide
  exact ⟨_, sampleRoom, Base64.encode payload, (decodeFrame_eq_ok.1 hdecode).1, hdecode,
    hcopy false, hcopy true⟩

end ClipSync
