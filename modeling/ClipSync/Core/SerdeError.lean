import ClipSync.Core.WireSize

/-!
# What a text that is no frame is refused for

A frame is read in one pass: the members stand in any order, and the tag is looked up as
soon as it is met, so that an unknown tag is refused before the rest of the text is
looked at. The members of a known tag are checked after the closing bracket, in the
order of the text. Three kinds of errors quote a part of the text in full: an unknown
tag, an unknown member, and a text in the place of something else; the length of all
others is bounded. The size of the answer to a refused text follows from the text alone.
-/

namespace ClipSync

open Lib Lib.Json

/-- The first thing in a text that keeps it from being a frame, as far as the error
quotes it. -/
inductive Offence where
  | unknownVariant (name position : String)
  | unknownField (name : String) (expected : List String)
  | invalidType (value expected position : String)
  | other
deriving DecidableEq

/-- The place up to which a text was read. -/
def position (text rest : List Char) : String :=
  let done := text.take (text.length - rest.length)
  let column := utf8Length (done.reverse.takeWhile (· ≠ '\n'))
  " at line " ++ (toString (1 + done.count '\n') ++ (" column " ++ toString column))

/-! ## Members -/

/-- A member by its name, with what a value of it is refused for. -/
abbrev Field := String × (Value → Option Offence)

def unread {α : Type} (read : Value → Option α) (expected : String) (value : Value) :
    Option Offence :=
  if (read value).isSome then none
  else
    match value with
    | .str s => some (.invalidType s expected "")
    | _ => some .other

def textField (name : String) : Field := (name, unread asStr "a string")

/-- Members are checked in their order. A repeated one is refused before its value is
looked at. -/
def memberOffence (fields : List Field) (seen : List String) :
    List (String × Value) → Option Offence
  | [] => none
  | (key, value) :: ms =>
    match fields.lookup key with
    | none => some (.unknownField key (fields.map Prod.fst))
    | some field =>
      if key ∈ seen then some .other
      else (field value).or (memberOffence fields (key :: seen) ms)

def bundleFields : List Field := [textField "sign_pk_b64", textField "dh_pk_b64"]

def bundleOffence (value : Value) : Option Offence :=
  match value with
  | .obj ms =>
    if (PubBundle.fromJson value).isSome then none
    else some ((memberOffence bundleFields [] ms).getD .other)
  | _ => unread PubBundle.fromJson "struct PubBundleJson" value

def bundleField (name : String) : Field := (name, bundleOffence)

def u32Field (name : String) : Field := (name, unread asU32 "u32")

def frameTags : List String :=
  ["hello", "hello_ok", "pair_offer", "pair_offer_ok", "pair_claim", "pair_peer", "join",
    "join_ok", "clip", "mailbox_empty", "error"]

/-- The members of the frames that have any. The others ignore what comes with them. -/
def frameFields : String → Option (List Field)
  | "hello" => some [textField "device_id", bundleField "pub_bundle", u32Field "version"]
  | "hello_ok" => some [u32Field "server_version", textField "nonce_b64"]
  | "pair_offer" => some [textField "code", bundleField "pub_bundle"]
  | "pair_claim" => some [textField "code", bundleField "pub_bundle"]
  | "pair_peer" => some [bundleField "peer_pub_bundle"]
  | "join" =>
    some [textField "room_id", textField "device_id", bundleField "pub_bundle",
      textField "sig_b64"]
  | "clip" =>
    some [textField "room_id", textField "ciphertext_b64", textField "origin_device",
      ("mailbox", unread asBool "a boolean")]
  | "error" => some [textField "code", textField "message"]
  | _ => none

def fieldOffence (name : String) (value : Value) : Offence :=
  let found := match frameFields name, value with
    | some fields, .obj ms => memberOffence fields [] ms
    | some fields, .arr vs => (fields.zip vs).findSome? fun (item : Field × Value) =>
      item.1.2 item.2
    | _, _ => none
  found.getD .other

/-! ## The text -/

section Text

variable (limited : Value → Bool) (text : List Char)

def readTag (cs : List Char) : Except Offence (String × List Char) :=
  match skipSpace cs with
  | '"' :: rest =>
    match parseString (rest.length + 1) rest with
    | some (name, rest) =>
      if String.ofList name ∈ frameTags then .ok (String.ofList name, rest)
      else .error (.unknownVariant (String.ofList name) (position text rest))
    | none => .error .other
  | _ => .error .other

/-- One member, added to the tag and the members that were read before it. -/
def readMember (tag : Option String) (ms : List (String × Value)) (cs : List Char) :
    Except Offence (Option String × List (String × Value) × List Char) :=
  match parseKey cs with
  | none => .error .other
  | some (key, rest) =>
    if key = "type" then
      if tag.isSome then .error .other
      else (readTag text rest).map fun (name, rest) => (some name, ms, rest)
    else
      match parseValue (rest.length + 1) rest with
      | some (value, rest) =>
        if limited value then .ok (tag, ms ++ [(key, value)], rest) else .error .other
      | none => .error .other

def objectOffence : ℕ → Option String → List (String × Value) → List Char → Offence
  | 0, _, _, _ => .other
  | fuel + 1, tag, ms, cs =>
    match readMember limited text tag ms cs with
    | .error offence => offence
    | .ok (tag, ms, rest) =>
      match skipSpace rest with
      | ',' :: rest => objectOffence fuel tag ms rest
      | '}' :: _ => (tag.map fun name => fieldOffence name (.obj ms)).getD .other
      | _ => .other

def arrayOffence (cs : List Char) : Offence :=
  match readTag text cs with
  | .error offence => offence
  | .ok (name, rest) =>
    match parseItems (rest.length + 1) rest with
    | some (values, _) => if values.all limited then fieldOffence name (.arr values) else .other
    | none => .other

def offence : Offence :=
  match skipSpace text with
  | '{' :: rest => objectOffence limited text rest.length none [] rest
  | '[' :: rest => arrayOffence limited text rest
  | '"' :: rest =>
    match parseString (rest.length + 1) rest with
    | some (s, rest) =>
      .invalidType (String.ofList s) "internally tagged enum Frame" (position text rest)
    | none => .other
  | _ => .other

end Text

/-! ## The error -/

def oneOf (names : List String) : String :=
  match names.map fun name => "`" ++ name ++ "`" with
  | [first] => first
  | [first, second] => first ++ " or " ++ second
  | quoted => "one of " ++ ", ".intercalate quoted

/-- The text of the error, for the errors that quote. -/
def Offence.message (debug : String → String) : Offence → Option String
  | .unknownVariant name position =>
    some ("unknown variant `" ++ (name ++ ("`, expected " ++ (oneOf frameTags ++ position))))
  | .unknownField name expected =>
    some ("unknown field `" ++ (name ++ ("`, expected " ++ oneOf expected)))
  | .invalidType value expected position =>
    some ("invalid type: string " ++ (debug value ++ (", expected " ++ (expected ++ position))))
  | .other => none

def escapedSize (text : String) : ℕ := utf8Length (text.toList.flatMap escape)

/-- The octets of the answer, for the errors that quote. -/
def Offence.answerSize (debug : String → String) : Offence → ℕ
  | .unknownVariant name position => escapedSize name + escapedSize position + 242
  | .unknownField name expected => escapedSize name + escapedSize (oneOf expected) + 103
  | .invalidType value expected position =>
    escapedSize (debug value) + escapedSize expected + escapedSize position + 108
  | .other => 0

def errorBound : ℕ := 1024

/-- What is assumed of the JSON and base64 crates: a text with an offence that is quoted is
refused with it, and the errors that quote nothing are short. The limits on nesting and
on numbers, and the `Debug` form of a text, are left open. -/
structure Serde where
  codec : Codec
  limited : Value → Bool
  debug : String → String
  refuses : ∀ (text : String) (message : String),
    (offence limited text.toList).message debug = some message →
      codec.frameFromSlice (utf8Bytes text) = .error message
  short : ∀ (text : String) (message : String), offence limited text.toList = .other →
    codec.frameFromSlice (utf8Bytes text) = .error message → escapedSize message ≤ errorBound
  base64Error_short : ∀ value : String, escapedSize (codec.base64Error value) ≤ errorBound

/-- What a text is refused for leaves room for the rest of the answer. -/
def Serde.Fits (serde : Serde) (text : String) : Prop :=
  (offence serde.limited text.toList).answerSize serde.debug ≤ maxFrameBytes

/-! ## The size of the answer -/

theorem escapedSize_append (s t : String) :
    escapedSize (s ++ t) = escapedSize s + escapedSize t := by
  simp [escapedSize]

theorem errorFrameSize_eq (code message : String) :
    errorFrameSize code message = code.toList.length + escapedSize message + 53 := by
  have hmark : Char.utf8Size '"' = 1 := by decide
  rw [errorFrameSize, quote, utf8Length_cons, utf8Length_append, utf8Length_cons, hmark,
    utf8Length_nil, escapedSize]
  omega

theorem utf8Length_escape_le (c : Char) : utf8Length (escape c) ≤ 6 := by
  unfold escape
  split_ifs
  case neg => exact (Nat.add_le_add_right c.utf8Size_le_four 0).trans (by decide)
  all_goals first | decide | skip
  have hdigit : ∀ d < 16, (Nat.digitChar d).utf8Size = 1 := by decide
  simp only [utf8Length_cons, utf8Length_nil]
  rw [hdigit _ (by omega), hdigit _ (by omega)]
  decide

theorem escapedSize_le (s : String) : escapedSize s ≤ 6 * s.toList.length := by
  have hchars : ∀ cs : List Char, utf8Length (cs.flatMap escape) ≤ 6 * cs.length := by
    intro cs
    induction cs with
    | nil => exact le_rfl
    | cons c cs ih =>
      have hc := utf8Length_escape_le c
      rw [List.flatMap_cons, utf8Length_append, List.length_cons]
      omega
  exact hchars s.toList

namespace ProtocolError

def frameSize : ProtocolError → ℕ
  | .badFrame message => errorFrameSize "bad_frame" message
  | .oversize size limit => errorFrameSize "bad_frame" (toText (.oversize size limit))
  | .versionMismatch received supported =>
    errorFrameSize "version_mismatch" (toText (.versionMismatch received supported))

theorem encode_toErrorFrame_isOk_iff (codec : Codec) (error : ProtocolError) :
    (encodeFrame codec error.toErrorFrame).isOk = true ↔ error.frameSize ≤ maxFrameBytes := by
  cases error with
  | badFrame message | oversize size limit | versionMismatch received supported =>
    exact encodeFrame_error_isOk_iff codec (plain_of_all (by decide)) _

theorem frameSize_badFrame (message : String) :
    (badFrame message).frameSize = escapedSize message + 62 := by
  have hcode : "bad_frame".toList.length = 9 := by decide
  rw [frameSize, errorFrameSize_eq, hcode]
  omega

end ProtocolError

theorem frameSize_message {debug : String → String} {found : Offence} {message : String}
    (h : found.message debug = some message) :
    (badJson message).frameSize = found.answerSize debug := by
  have hjson : escapedSize "invalid JSON: " = 14 := by decide
  have hexpected : escapedSize "`, expected " = 12 := by decide
  cases found with
  | unknownVariant name position =>
    cases h
    have htext : escapedSize "unknown variant `" = 17 := by decide
    have htags : escapedSize (oneOf frameTags) = 137 := by decide +kernel
    rw [badJson, ProtocolError.frameSize_badFrame, Offence.answerSize]
    simp only [escapedSize_append, hjson, hexpected, htext, htags]
    omega
  | unknownField name expected =>
    cases h
    have htext : escapedSize "unknown field `" = 15 := by decide
    rw [badJson, ProtocolError.frameSize_badFrame, Offence.answerSize]
    simp only [escapedSize_append, hjson, hexpected, htext]
    omega
  | invalidType value expected position =>
    cases h
    have htext : escapedSize "invalid type: string " = 21 := by decide
    have hcomma : escapedSize ", expected " = 11 := by decide
    rw [badJson, ProtocolError.frameSize_badFrame, Offence.answerSize]
    simp only [escapedSize_append, hjson, hcomma, htext]
    omega
  | other => cases h

/-! ## Texts that are read and fail validation -/

section Validation

variable {serde : Serde} {error : ProtocolError}

theorem frameSize_validateLowerHex {value name : String} {length : ℕ}
    (h : validateLowerHex value length name = .error error)
    (hname : escapedSize (name ++ " must be " ++ toString length ++
      " lowercase hex characters") ≤ errorBound) : error.frameSize ≤ maxFrameBytes := by
  unfold validateLowerHex at h
  split at h
  · cases h
  · cases h
    rw [ProtocolError.frameSize_badFrame]
    exact (Nat.add_le_add_right hname 62).trans (by decide)

theorem escapedSize_toString_le (n : UInt32) : escapedSize (toString n) ≤ 60 := by
  have hlength : (toString n).toList.length ≤ 10 := by
    rw [String.length_toList]
    exact Nat.repr_length n.toNat 10 (by decide) (n.toNat_lt.trans (by norm_num))
  have hsize := escapedSize_le (toString n)
  omega

theorem frameSize_versionMismatch (received supported : UInt32) :
    (ProtocolError.versionMismatch received supported).frameSize ≤ maxFrameBytes := by
  have hmessage : ∀ s t : String, errorFrameSize "version_mismatch"
      ("unsupported protocol version " ++ s ++ "; expected " ++ t) =
        escapedSize s + escapedSize t + 109 := by
    intro s t
    have htext : escapedSize "unsupported protocol version " = 29 := by decide
    have hexpected : escapedSize "; expected " = 11 := by decide
    have hcode : "version_mismatch".toList.length = 16 := by decide
    simp only [errorFrameSize_eq, escapedSize_append, htext, hexpected, hcode]
    omega
  have hreceived := escapedSize_toString_le received
  have hsupported := escapedSize_toString_le supported
  have hlimit : 60 + 60 + 109 ≤ maxFrameBytes := by decide
  refine (hmessage _ _).le.trans (le_trans ?_ hlimit)
  omega

theorem frameSize_validateVersion {version : UInt32} (h : validateVersion version = .error error) :
    error.frameSize ≤ maxFrameBytes := by
  unfold validateVersion at h
  split at h
  · cases h
  · cases h
    exact frameSize_versionMismatch version protocolVersion

theorem frameSize_validateBase64 {name value : String}
    (h : validateBase64 serde.codec name value = .error error)
    (hname : escapedSize name ≤ errorBound) : error.frameSize ≤ maxFrameBytes := by
  have hpadded : escapedSize " must be padded STANDARD base64: " = 33 := by decide
  have hcanonical : escapedSize " must be canonical padded STANDARD base64" = 41 := by decide
  have hshort := serde.base64Error_short value
  unfold validateBase64 at h
  rw [errorBound] at hname hshort
  split at h
  · cases h
    rw [ProtocolError.frameSize_badFrame, maxFrameBytes]
    simp only [escapedSize_append, hpadded]
    omega
  · split at h
    · cases h
    · cases h
      rw [ProtocolError.frameSize_badFrame, maxFrameBytes]
      simp only [escapedSize_append, hcanonical]
      omega

theorem error_of_bind {first second : Except ProtocolError Unit}
    (h : (do first; second) = .error error) : first = .error error ∨ second = .error error := by
  cases first with
  | error e => exact .inl h
  | ok u => exact .inr h

theorem frameSize_validateDeviceId {value : String} (h : validateDeviceId value = .error error) :
    error.frameSize ≤ maxFrameBytes :=
  frameSize_validateLowerHex h (by decide +kernel)

theorem frameSize_validateRoomId {value : String} (h : validateRoomId value = .error error) :
    error.frameSize ≤ maxFrameBytes :=
  frameSize_validateLowerHex h (by decide +kernel)

/-- The answer to a frame that is read and fails validation can always be encoded. -/
theorem frameSize_validateFrame {frame : Frame}
    (h : validateFrame serde.codec frame = .error error) : error.frameSize ≤ maxFrameBytes := by
  cases frame with
  | hello deviceId pubBundle version =>
    rcases error_of_bind h with h | h
    · exact frameSize_validateDeviceId h
    · exact frameSize_validateVersion h
  | helloOk serverVersion nonceB64 =>
    rcases error_of_bind h with h | h
    · exact frameSize_validateVersion h
    · exact frameSize_validateBase64 h (by decide)
  | join roomId deviceId pubBundle sigB64 =>
    rcases error_of_bind h with h | h
    · exact frameSize_validateRoomId h
    · rcases error_of_bind h with h | h
      · exact frameSize_validateDeviceId h
      · exact frameSize_validateBase64 h (by decide)
  | clip roomId ciphertextB64 originDevice mailbox =>
    rcases error_of_bind h with h | h
    · exact frameSize_validateRoomId h
    · exact frameSize_validateBase64 h (by decide)
  | pairOffer | pairOfferOk | pairClaim | pairPeer | joinOk | mailboxEmpty | error => cases h

end Validation

theorem decodeFrame_error_cases {codec : Codec} {encoded : Bytes} {error : ProtocolError}
    (hsize : encoded.length ≤ maxFrameBytes) (h : decodeFrame codec encoded = .error error) :
    (∃ message, codec.frameFromSlice encoded = .error message ∧ error = badJson message) ∨
      ∃ frame, codec.frameFromSlice encoded = .ok frame ∧
        validateFrame codec frame = .error error := by
  simp only [decodeFrame, ensureSize, if_pos hsize] at h
  cases hread : codec.frameFromSlice encoded with
  | error message =>
    rw [hread] at h
    cases h
    exact .inl ⟨message, rfl, rfl⟩
  | ok frame =>
    refine .inr ⟨frame, rfl, ?_⟩
    rw [hread] at h
    change (validateFrame codec frame >>= fun _ => _) = _ at h
    cases hvalid : validateFrame codec frame with
    | error e =>
      rw [hvalid] at h
      cases h
      rfl
    | ok u =>
      rw [hvalid] at h
      cases h

/-- The answer to a refused text can be encoded exactly if what it is refused for leaves
room for the rest of the answer. -/
theorem Serde.frameSize_le_iff (serde : Serde) {text : String} {error : ProtocolError}
    (hsize : (utf8Bytes text).length ≤ maxFrameBytes)
    (hrejected : decodeFrame serde.codec (utf8Bytes text) = .error error) :
    error.frameSize ≤ maxFrameBytes ↔ serde.Fits text := by
  rw [Serde.Fits]
  cases hmessage : (offence serde.limited text.toList).message serde.debug with
  | some message =>
    have hrefused := serde.refuses text message hmessage
    obtain ⟨message', hread, rfl⟩ | ⟨frame, hread, -⟩ := decodeFrame_error_cases hsize hrejected
    · cases hrefused.symm.trans hread
      rw [frameSize_message hmessage]
    · cases hrefused.symm.trans hread
  | none =>
    have hother : offence serde.limited text.toList = .other := by
      cases hfound : offence serde.limited text.toList with
      | other => rfl
      | unknownVariant | unknownField | invalidType =>
        rw [hfound] at hmessage
        cases hmessage
    rw [hother]
    refine iff_of_true ?_ (Nat.zero_le _)
    obtain ⟨message, hread, rfl⟩ | ⟨frame, -, hvalid⟩ := decodeFrame_error_cases hsize hrejected
    · have hshort := serde.short text message hother hread
      have hjson : escapedSize "invalid JSON: " = 14 := by decide
      rw [badJson, ProtocolError.frameSize_badFrame, escapedSize_append, hjson, maxFrameBytes]
      rw [errorBound] at hshort
      omega
    · exact frameSize_validateFrame hvalid

end ClipSync
