import ClipSync.Core.Session
import ClipSync.Core.Serde

/-!
# The size of encoded clips, envelopes and errors

Both layers of a clip are JSON texts under one limit, with base64 inside. The texts of
a clip frame and of an envelope are plain, so that the size of either is the sum of
the sizes of its texts and a constant; the message of an error frame may have anything
in it, and counts as it is escaped.
-/

namespace ClipSync

open Lib

theorem plain_of_all {text : String} (h : (text.toList.all fun c => decide (Plain c)) = true) :
    ∀ c ∈ text.toList, Plain c :=
  fun c hc => of_decide_eq_true (List.all_eq_true.mp h c hc)

theorem utf8Length_name (name : String) (h : (name.toList.all fun c => decide (Plain c)) = true) :
    utf8Length (Json.quote name) = name.toList.length + 2 :=
  Json.utf8Length_quote (plain_of_all h)

theorem plain_of_validateBase64 {codec : Codec} {name value : String}
    (h : validateBase64 codec name value = .ok ()) : ∀ c ∈ value.toList, Plain c := by
  obtain ⟨decoded, hdecoded⟩ := decode_of_validateBase64 h
  exact Base64.plain_of_decode hdecoded

theorem validateBase64_encode (codec : Codec) (name : String) (payload : Bytes) :
    validateBase64 codec name (Base64.encode payload) = .ok () := by
  simp [validateBase64]

theorem length_jsonText (value : Json.Value) :
    (jsonText value).length = utf8Length (Json.print .pretty 0 value) + 1 := by
  rw [jsonText, Json.toBytes, List.length_append, length_utf8Bytes_ofList]
  rfl

/-! ## Clips -/

section Clips

variable {roomId ciphertextB64 originDevice : String}

def clipOverhead : Json.Layout → Bool → ℕ
  | .compact, mailbox => if mailbox then 82 else 83
  | .pretty, mailbox => if mailbox then 103 else 104

theorem utf8Length_print_clip (layout : Json.Layout) (hroom : ∀ c ∈ roomId.toList, Plain c)
    (hcipher : ∀ c ∈ ciphertextB64.toList, Plain c)
    (horigin : ∀ c ∈ originDevice.toList, Plain c) (mailbox : Bool) :
    utf8Length (Json.print layout 0
        (Frame.clip roomId ciphertextB64 originDevice mailbox).toJson) =
      ciphertextB64.toList.length + roomId.toList.length + originDevice.toList.length +
        clipOverhead layout mailbox := by
  have hbool : utf8Length (Json.print layout 1 (.bool mailbox)) = if mailbox then 4 else 5 := by
    cases mailbox <;> rfl
  simp only [Frame.toJson, Frame.typeName, Frame.fields, Json.utf8Length_print_obj_cons,
    Json.utf8Length_printMembers_cons, hbool]
  simp only [Json.print, Json.printMembers, Json.utf8Length_quote hroom,
    Json.utf8Length_quote hcipher, Json.utf8Length_quote horigin, utf8Length_nil]
  rw [utf8Length_name "type" (by decide), utf8Length_name "clip" (by decide),
    utf8Length_name "room_id" (by decide),
    utf8Length_name "ciphertext_b64" (by decide),
    utf8Length_name "origin_device" (by decide),
    utf8Length_name "mailbox" (by decide)]
  cases layout <;> cases mailbox <;>
    simp [Json.newlineSize, Json.colonSize, clipOverhead] <;> omega

theorem length_encoded_clip (hroom : ∀ c ∈ roomId.toList, Plain c)
    (hcipher : ∀ c ∈ ciphertextB64.toList, Plain c)
    (horigin : ∀ c ∈ originDevice.toList, Plain c) (mailbox : Bool) :
    (Frame.clip roomId ciphertextB64 originDevice mailbox).encoded.length =
      ciphertextB64.toList.length + roomId.toList.length + originDevice.toList.length +
        clipOverhead .pretty mailbox + 1 := by
  rw [Frame.encoded, length_jsonText, utf8Length_print_clip .pretty hroom hcipher horigin]

end Clips

/-! ## Envelopes -/

theorem Uuid.length_toText (id : Uuid) : id.toText.toList.length = 36 := by
  rw [Uuid.toText, String.toList_ofList, Uuid.hyphenate]
  simp [Hex.length_encodeChars]

theorem Uuid.plain_toText (id : Uuid) : ∀ c ∈ id.toText.toList, Plain c := by
  have hdigits : ∀ c ∈ Hex.encodeChars id.bytes.toList, Plain c := by
    have hplain := (Hex.lowerHex_encode id.bytes.toList).plain
    rwa [Hex.encode, String.toList_ofList] at hplain
  have hhyphen : Plain '-' := by decide
  intro c hc
  rw [Uuid.toText, String.toList_ofList, Uuid.hyphenate] at hc
  simp only [List.mem_append, List.mem_cons] at hc
  rcases hc with (((hc | rfl | hc) | rfl | hc) | rfl | hc) | rfl | hc
  · exact hdigits c (List.mem_of_mem_take hc)
  · exact hhyphen
  · exact hdigits c (List.mem_of_mem_drop (List.mem_of_mem_take hc))
  · exact hhyphen
  · exact hdigits c (List.mem_of_mem_drop (List.mem_of_mem_take hc))
  · exact hhyphen
  · exact hdigits c (List.mem_of_mem_drop (List.mem_of_mem_take hc))
  · exact hhyphen
  · exact hdigits c (List.mem_of_mem_drop hc)

def ClipContent.raw : ClipContent → Bytes
  | .text content => utf8Bytes content
  | .image bytes => bytes

def ClipContent.kind : ClipContent → ContentKind
  | .text _ => ContentKind.text
  | .image _ => ContentKind.image

theorem Session.envelope_eq (content : ClipContent) (id : Uuid) (seq : UInt64) (tsMs : Int64) :
    Session.envelope content id seq tsMs =
      ⟨protocolVersion, content.kind, id.toText, seq, tsMs, Base64.encode content.raw⟩ := by
  cases content <;> rfl

def envelopeSize (content : ClipContent) (seq : UInt64) (tsMs : Int64) : ℕ :=
  4 * ((content.raw.length + 2) / 3) + content.kind.name.toList.length +
    (Json.printInt seq.toNat).length + (Json.printInt tsMs.toInt).length + 125

theorem utf8Length_kind (kind : ContentKind) :
    utf8Length (Json.quote kind.name) = kind.name.toList.length + 2 := by
  cases kind with
  | text => exact utf8Length_name "text" (by decide)
  | image => exact utf8Length_name "image" (by decide)

theorem length_kind_le (kind : ContentKind) : kind.name.toList.length ≤ 5 := by
  cases kind <;> decide

theorem length_jsonText_envelope (content : ClipContent) (id : Uuid) (seq : UInt64) (tsMs : Int64) :
    (jsonText (Session.envelope content id seq tsMs).toJson).length =
      envelopeSize content seq tsMs := by
  have hversion : utf8Length (Json.printInt protocolVersion.toNat) = 1 := by decide
  rw [length_jsonText, Session.envelope_eq]
  simp only [Envelope.toJson, Json.utf8Length_print_obj_cons, Json.utf8Length_printMembers_cons]
  simp only [Json.print, Json.printMembers, utf8Length_kind, hversion,
    Json.utf8Length_quote id.plain_toText, Json.utf8Length_quote (Base64.plain_encode _),
    Json.utf8Length_printInt, Base64.length_encode, Uuid.length_toText, utf8Length_nil]
  rw [utf8Length_name "v" (by decide), utf8Length_name "kind" (by decide),
    utf8Length_name "item_id" (by decide), utf8Length_name "seq" (by decide),
    utf8Length_name "ts_ms" (by decide), utf8Length_name "content_b64" (by decide)]
  simp [Json.newlineSize, Json.colonSize, envelopeSize]
  omega

theorem encodeEnvelope_envelope {codec : Codec} {content : ClipContent} {id : Uuid}
    {seq : UInt64} {tsMs : Int64} {encoded : Bytes} (hid : isUuidV4 id.toText = true) :
    encodeEnvelope codec (Session.envelope content id seq tsMs) = .ok encoded ↔
      envelopeSize content seq tsMs ≤ maxMessageBytes ∧
        encoded = jsonText (Session.envelope content id seq tsMs).toJson := by
  have hvalid : validateEnvelope codec (Session.envelope content id seq tsMs) = .ok () := by
    rw [Session.envelope_eq]
    simp only [validateEnvelope, validateVersion, if_true, hid]
    exact validateBase64_encode codec _ _
  rw [encodeEnvelope_eq_ok, length_jsonText_envelope]
  simp only [hvalid, true_and]

theorem envelopeSize_le (content : ClipContent) (seq : UInt64) (tsMs : Int64) :
    envelopeSize content seq tsMs ≤ 4 * ((content.raw.length + 2) / 3) + 172 := by
  have hname := length_kind_le content.kind
  have hseq : (Json.printInt seq.toNat).length ≤ 20 + 1 :=
    Json.length_printInt_le (by decide) (by have := seq.toNat_lt; simp; omega)
  have hts : (Json.printInt tsMs.toInt).length ≤ 20 + 1 :=
    Json.length_printInt_le (by decide)
      (by have := tsMs.toInt_lt; have := tsMs.le_toInt; omega)
  rw [envelopeSize]
  omega

/-! ## Errors -/

def errorFrameSize (code message : String) : ℕ :=
  code.toList.length + utf8Length (Json.quote message) + 51

theorem encodeFrame_error_isOk_iff (codec : Codec) {code : String}
    (hcode : ∀ c ∈ code.toList, Plain c) (message : String) :
    (encodeFrame codec (.error code message)).isOk = true ↔
      errorFrameSize code message ≤ maxFrameBytes := by
  have hsize : (Frame.error code message).encoded.length = errorFrameSize code message := by
    rw [Frame.encoded, length_jsonText]
    simp only [Frame.toJson, Frame.typeName, Frame.fields, Json.utf8Length_print_obj_cons,
      Json.utf8Length_printMembers_cons]
    simp only [Json.print, Json.printMembers, Json.utf8Length_quote hcode, utf8Length_nil]
    rw [utf8Length_name "type" (by decide), utf8Length_name "error" (by decide),
      utf8Length_name "code" (by decide), utf8Length_name "message" (by decide)]
    simp [Json.newlineSize, Json.colonSize, errorFrameSize]
    omega
  simp [encodeFrame_isOk_iff, validateFrame, hsize]

end ClipSync
