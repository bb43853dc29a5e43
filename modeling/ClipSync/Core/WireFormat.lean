import ClipSync.Core.Serde

/-!
# The wire format

What the validators of `crates/core/src/protocol.rs` accept, said without them: the
identifiers are lower-case hexadecimal of a fixed length, versions are the supported one,
binary fields are canonical base64 and items are named by version 4 UUIDs. Every frame and
every envelope that is valid and fits is read back as it was written, and a decoder returns
nothing else than valid values.
-/

namespace ClipSync

open Lib

def HexId (length : ℕ) (value : String) : Prop :=
  Hex.LowerHex value ∧ value.toList.length = length

def CanonicalBase64 (value : String) : Prop :=
  ∃ payload, value = Base64.encode payload

/-- Five groups of hexadecimal digits joined by hyphens, of version 4 and of the variant
that is in use. -/
def UuidV4 (value : String) : Prop :=
  ∃ (a b c d e : Bytes) (variant : UInt8),
    utf8Bytes value = a ++ 45 :: (b ++ 45 :: 52 :: (c ++ 45 :: variant :: (d ++ 45 :: e))) ∧
      (a.length = 8 ∧ b.length = 4 ∧ c.length = 3 ∧ d.length = 3 ∧ e.length = 12) ∧
      variant ∈ [56, 57, 97, 98, 65, 66] ∧
      ∀ byte ∈ a ++ b ++ c ++ d ++ e, isHexDigit byte = true

def Frame.WellFormed : Frame → Prop
  | .hello deviceId _ version => HexId 16 deviceId ∧ version = protocolVersion
  | .helloOk serverVersion nonceB64 =>
    serverVersion = protocolVersion ∧ CanonicalBase64 nonceB64
  | .join roomId deviceId _ sigB64 =>
    HexId 32 roomId ∧ HexId 16 deviceId ∧ CanonicalBase64 sigB64
  | .clip roomId ciphertextB64 _ _ => HexId 32 roomId ∧ CanonicalBase64 ciphertextB64
  | .pairOffer .. | .pairOfferOk | .pairClaim .. | .pairPeer .. | .joinOk
  | .mailboxEmpty | .error .. => True

structure Envelope.WellFormed (envelope : Envelope) : Prop where
  version : envelope.v = protocolVersion
  itemId : UuidV4 envelope.itemId
  content : CanonicalBase64 envelope.contentB64

/-! ## What the validators accept -/

theorem validateVersion_eq_ok {version : UInt32} :
    validateVersion version = .ok () ↔ version = protocolVersion := by
  unfold validateVersion
  split
  · simp [*]
  · simp [*]

theorem canonical_of_validateBase64 {codec : Codec} {name value : String}
    (h : validateBase64 codec name value = .ok ()) : CanonicalBase64 value := by
  unfold validateBase64 at h
  split at h
  · cases h
  · split at h
    · rename_i decoded _ hencode
      exact ⟨decoded, hencode.symm⟩
    · cases h

theorem decodePublicKey_eq_some {value : String} {key : List.Vector UInt8 publicKeyLength} :
    decodePublicKey value = some key ↔ value = Base64.encode key.toList := by
  constructor
  · intro h
    rw [decodePublicKey, Option.bind_eq_bind, Option.bind_eq_some_iff] at h
    obtain ⟨decoded, -, hkey⟩ := h
    split at hkey
    · cases hkey
    · rename_i hencode
      split at hkey
      · cases hkey
        exact (not_not.1 hencode).symm
      · cases hkey
  · rintro rfl
    exact decodePublicKey_encode key

section Uuid

variable {bytes : Bytes}

theorem drop_eq_slice_append {x : UInt8} (i n : ℕ) (h : bytes[i + n]? = some x) :
    bytes.drop i = (bytes.drop i).take n ++ x :: bytes.drop (i + n + 1) := by
  obtain ⟨hi, rfl⟩ := List.getElem?_eq_some_iff.1 h
  rw [List.getElem_cons_drop, ← List.drop_drop, List.take_append_drop]

theorem getElem?_of_mem_slice {i n : ℕ} {x : UInt8} (h : x ∈ (bytes.drop i).take n) :
    ∃ j, i ≤ j ∧ j < i + n ∧ bytes[j]? = some x := by
  obtain ⟨k, hk, rfl⟩ := List.mem_iff_getElem.1 h
  rw [List.length_take, List.length_drop] at hk
  refine ⟨i + k, by omega, by omega, ?_⟩
  rw [List.getElem_take, List.getElem_drop]
  exact List.getElem?_eq_getElem _

theorem uuidV4_of_isUuidV4 {value : String} (h : isUuidV4 value = true) : UuidV4 value := by
  simp only [isUuidV4, Bool.and_eq_true, beq_iff_eq] at h
  obtain ⟨⟨⟨⟨⟨⟨⟨hlength, h8⟩, h13⟩, h14⟩, h18⟩, h23⟩, h19⟩, hall⟩ := h
  unfold UuidV4
  generalize utf8Bytes value = bytes at *
  obtain ⟨variant, h19, hvariant⟩ := (Option.any_eq_true _ _).1 h19
  -- a byte that is not at the place of a hyphen is a digit
  have hdigit : ∀ j byte, j ∉ [8, 13, 18, 23] → bytes[j]? = some byte →
      isHexDigit byte = true := by
    intro j byte hj hbyte
    have hmem : (byte, j) ∈ bytes.zipIdx := List.mem_zipIdx_iff_getElem?.2 hbyte
    have := List.all_eq_true.1 hall _ hmem
    simpa [List.contains_iff_mem, hj] using this
  have hslice : ∀ i n byte, (∀ j ∈ [8, 13, 18, 23], j < i ∨ i + n ≤ j) →
      byte ∈ (bytes.drop i).take n → isHexDigit byte = true := by
    intro i n byte hfree hbyte
    obtain ⟨j, hij, hjn, hj⟩ := getElem?_of_mem_slice hbyte
    refine hdigit j byte (fun hmem => ?_) hj
    have := hfree j hmem
    omega
  refine ⟨(bytes.drop 0).take 8, (bytes.drop 9).take 4, (bytes.drop 15).take 3,
    (bytes.drop 20).take 3, (bytes.drop 24).take 12, variant, ?_, ?_, ?_, ?_⟩
  · have hb : bytes.drop 9 = (bytes.drop 9).take 4 ++ 45 :: bytes.drop 14 :=
      drop_eq_slice_append 9 4 h13
    have hversion : bytes.drop 14 = 52 :: bytes.drop 15 := drop_eq_slice_append 14 0 h14
    have hc : bytes.drop 15 = (bytes.drop 15).take 3 ++ 45 :: bytes.drop 19 :=
      drop_eq_slice_append 15 3 h18
    have hvariant' : bytes.drop 19 = variant :: bytes.drop 20 := drop_eq_slice_append 19 0 h19
    have hd : bytes.drop 20 = (bytes.drop 20).take 3 ++ 45 :: bytes.drop 24 :=
      drop_eq_slice_append 20 3 h23
    have he : (bytes.drop 24).take 12 = bytes.drop 24 := by
      rw [List.take_of_length_le]
      rw [List.length_drop, hlength]
    rw [he, ← hd, ← hvariant', ← hc, ← hversion, ← hb]
    exact drop_eq_slice_append 0 8 h8
  · simp [hlength]
  · simpa [List.contains_iff_mem] using hvariant
  · intro byte hbyte
    simp only [List.mem_append] at hbyte
    rcases hbyte with (((ha | hb) | hc) | hd) | he
    · exact hslice 0 8 byte (by decide) ha
    · exact hslice 9 4 byte (by decide) hb
    · exact hslice 15 3 byte (by decide) hc
    · exact hslice 20 3 byte (by decide) hd
    · exact hslice 24 12 byte (by decide) he

end Uuid

theorem Frame.wellFormed_of_validateFrame {codec : Codec} {frame : Frame}
    (h : validateFrame codec frame = .ok ()) : frame.WellFormed := by
  cases frame with
  | hello deviceId bundle version =>
    cases hdevice : validateDeviceId deviceId with
    | error e => simp [validateFrame, hdevice, bind, Except.bind] at h
    | ok u =>
      simp only [validateFrame, hdevice, bind, Except.bind] at h
      exact ⟨lowerHex_of_validateLowerHex hdevice, validateVersion_eq_ok.1 h⟩
  | helloOk version nonceB64 =>
    cases hversion : validateVersion version with
    | error e => simp [validateFrame, hversion, bind, Except.bind] at h
    | ok u =>
      simp only [validateFrame, hversion, bind, Except.bind] at h
      exact ⟨validateVersion_eq_ok.1 hversion, canonical_of_validateBase64 h⟩
  | join roomId deviceId bundle sigB64 =>
    cases hroom : validateRoomId roomId with
    | error e => simp [validateFrame, hroom, bind, Except.bind] at h
    | ok u =>
      cases hdevice : validateDeviceId deviceId with
      | error e => simp [validateFrame, hroom, hdevice, bind, Except.bind] at h
      | ok u =>
        simp only [validateFrame, hroom, hdevice, bind, Except.bind] at h
        exact ⟨lowerHex_of_validateLowerHex hroom, lowerHex_of_validateLowerHex hdevice,
          canonical_of_validateBase64 h⟩
  | clip roomId ciphertextB64 originDevice mailbox =>
    obtain ⟨hroom, hcipher⟩ := validateFrame_clip.1 h
    exact ⟨lowerHex_of_validateLowerHex hroom, canonical_of_validateBase64 hcipher⟩
  | pairOffer | pairOfferOk | pairClaim | pairPeer | joinOk | mailboxEmpty | error => trivial

theorem Envelope.wellFormed_of_validateEnvelope {codec : Codec} {envelope : Envelope}
    (h : validateEnvelope codec envelope = .ok ()) : envelope.WellFormed := by
  cases hversion : validateVersion envelope.v with
  | error e => simp [validateEnvelope, hversion, bind, Except.bind] at h
  | ok u =>
    simp only [validateEnvelope, hversion, bind, Except.bind] at h
    split at h
    · rename_i huuid
      exact ⟨validateVersion_eq_ok.1 hversion, uuidV4_of_isUuidV4 huuid,
        canonical_of_validateBase64 h⟩
    · cases h

/-! ## Reading what was written -/

section RoundTrip

variable (jsonError : Bytes → String) (base64Error : String → String)

theorem decodeFrame_encodeFrame {frame : Frame} {encoded : Bytes}
    (h : encodeFrame (.standard jsonError base64Error) frame = .ok encoded) :
    decodeFrame (.standard jsonError base64Error) encoded = .ok frame := by
  obtain ⟨hvalid, hsize, rfl⟩ := encodeFrame_eq_ok.1 h
  exact decodeFrame_eq_ok.2 ⟨hsize, Codec.standard_reads_frame _ _ frame, hvalid⟩

/-- Valid frames and envelopes that fit are read back; a decoder returns valid values only,
whose restricted fields have their form; no two frames are written alike. -/
theorem wire_round_trip :
    (∀ frame, validateFrame (.standard jsonError base64Error) frame = .ok () →
      frame.encoded.length ≤ maxFrameBytes →
      (encodeFrame (.standard jsonError base64Error) frame).bind
        (decodeFrame (.standard jsonError base64Error)) = .ok frame) ∧
    (∀ envelope, validateEnvelope (.standard jsonError base64Error) envelope = .ok () →
      (jsonText envelope.toJson).length ≤ maxMessageBytes →
      (encodeEnvelope (.standard jsonError base64Error) envelope).bind
        (decodeEnvelope (.standard jsonError base64Error)) = .ok envelope) ∧
    (∀ encoded frame, decodeFrame (.standard jsonError base64Error) encoded = .ok frame →
      validateFrame (.standard jsonError base64Error) frame = .ok () ∧ frame.WellFormed) ∧
    (∀ encoded envelope,
      decodeEnvelope (.standard jsonError base64Error) encoded = .ok envelope →
      validateEnvelope (.standard jsonError base64Error) envelope = .ok () ∧
        envelope.WellFormed) ∧
    (∀ value key, decodePublicKey value = some key ↔ value = Base64.encode key.toList) ∧
    ∀ frame frame' encoded, encodeFrame (.standard jsonError base64Error) frame = .ok encoded →
      encodeFrame (.standard jsonError base64Error) frame' = .ok encoded → frame = frame' := by
  refine ⟨fun frame hvalid hsize => ?_, fun envelope hvalid hsize => ?_,
    fun encoded frame h => ?_, fun encoded envelope h => ?_,
    fun value key => decodePublicKey_eq_some, fun frame frame' encoded h h' => ?_⟩
  · have hencode := encodeFrame_eq_ok.2 ⟨hvalid, hsize, rfl⟩
    rw [hencode, Except.bind]
    exact decodeFrame_encodeFrame _ _ hencode
  · rw [encodeEnvelope_eq_ok.2 ⟨hvalid, hsize, rfl⟩, Except.bind]
    exact decodeEnvelope_eq_ok.2 ⟨hsize, Codec.standard_reads_envelope _ _ envelope, hvalid⟩
  · obtain ⟨-, -, hvalid⟩ := decodeFrame_eq_ok.1 h
    exact ⟨hvalid, Frame.wellFormed_of_validateFrame hvalid⟩
  · obtain ⟨-, -, hvalid⟩ := decodeEnvelope_eq_ok.1 h
    exact ⟨hvalid, Envelope.wellFormed_of_validateEnvelope hvalid⟩
  · have hread := decodeFrame_encodeFrame _ _ h
    rw [decodeFrame_encodeFrame _ _ h'] at hread
    exact (Except.ok.inj hread).symm

/-- A greeting is read back. -/
theorem wire_round_trip_hello :
    (encodeFrame (.standard (fun _ => "") id)
        (.hello "0123456789abcdef" ⟨.replicate 32 1, .replicate 32 2⟩ 1)).bind
      (decodeFrame (.standard (fun _ => "") id)) =
      .ok (.hello "0123456789abcdef" ⟨.replicate 32 1, .replicate 32 2⟩ 1) := by
  refine (wire_round_trip (fun _ => "") id).1 _ (by decide) ?_
  decide +kernel

end RoundTrip

end ClipSync
