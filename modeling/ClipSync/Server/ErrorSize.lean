import ClipSync.Core.SerdeError
import ClipSync.Server.Connection
import ClipSync.Server.RegistryRun

/-!
# Answers to texts that are no frames

A text that cannot be decoded is answered by an error frame, and the connection ends.
The message of the frame is the error of the decoder, which may quote a name or a text
of it in full; the frame is under the limit that the text was under, and if it is over
the limit the reader panics before it has told the room and the pairing relay.
-/

namespace ClipSync

open Lib Program

def RelayOp.NoPanic (op : RelayOp) : Prop := ∀ outbox, op ≠ .outbox outbox .panic

theorem onOutbox_noPanic_iff {α : Type} (outbox : OutboxHandle) (p : OutboxProgram α) :
    (RelayProgram.onOutbox outbox p).AllOps RelayOp.NoPanic ↔ p.AllOps (· ≠ .panic) := by
  have hop : ∀ op : OutboxOp, RelayOp.NoPanic (.outbox outbox op) ↔ op ≠ .panic := by
    intro op
    refine ⟨fun h hpanic => h outbox (by rw [hpanic]), fun h outbox' hpanic => h ?_⟩
    cases hpanic
    rfl
  induction p with
  | done a => exact Iff.rfl
  | call op k ih => exact and_congr (hop op) (forall_congr' ih)

namespace Connection

open RelayProgram

variable (config : RelayConfig) (self : Connection)

def reject (error : ProtocolError) (rawLen : ℕ) : RelayProgram Unit := do
  if (← addBytes self.clientIp rawLen) = false then
    self.errorAndClose config "rate_limited" "per-IP byte budget exceeded"
  else
    self.refuse config error.toErrorFrame

variable {config self}

theorem close_noPanic : OutboxHandle.close.AllOps (· ≠ .panic) := by
  refine ⟨nofun, fun sent => ?_⟩
  cases sent
  · exact ⟨nofun, fun _ => trivial⟩
  · trivial

theorem refuse_noPanic_iff (frame : Frame) :
    (self.refuse config frame).AllOps RelayOp.NoPanic ↔
      (encodeFrame config.codec frame).isOk = true := by
  rw [← OutboxHandle.sendFrame_allOps_iff self.outbox, ← onOutbox_noPanic_iff self.outbox]
  refine ⟨allOps_of_bind, fun h => allOps_bind h fun _ => ?_⟩
  exact (onOutbox_noPanic_iff _ _).2 close_noPanic

theorem errorAndClose_noPanic {code message : String} (hcode : ∀ c ∈ code.toList, Plain c)
    (hsize : errorFrameSize code message ≤ maxFrameBytes) :
    (self.errorAndClose config code message).AllOps RelayOp.NoPanic := by
  refine (onOutbox_noPanic_iff _ _).2 (allOps_bind ?_ fun _ => close_noPanic)
  exact (self.outbox.sendFrame_allOps_iff).2 ((encodeFrame_error_isOk_iff _ hcode _).2 hsize)

theorem reject_noPanic_iff (error : ProtocolError) (rawLen : ℕ) :
    (self.reject config error rawLen).AllOps RelayOp.NoPanic ↔
      (encodeFrame config.codec error.toErrorFrame).isOk = true := by
  have hrefuse : (self.refuse config error.toErrorFrame).AllOps RelayOp.NoPanic ↔ _ :=
    refuse_noPanic_iff _
  rw [← hrefuse]
  refine ⟨fun h => h.2 true, fun h => ⟨by rintro _ ⟨⟩, fun within => ?_⟩⟩
  cases within with
  | false => exact errorAndClose_noPanic (plain_of_all (by decide)) (by decide +kernel)
  | true => exact h

theorem onText_rejected {text : String} {error : ProtocolError}
    (hrejected : decodeFrame config.codec (utf8Bytes text) = .error error) :
    self.onText config text = (do
      self.reject config error (utf8Bytes text).length
      return (Step.close, self)) := by
  unfold onText reject
  rw [hrejected]
  refine congrArg (call _) (funext fun within => ?_)
  cases within <;> rfl

/-- A text within the limit that cannot be decoded ends the connection: the reader answers
and cleans up. The answer can be encoded and does not panic, so that the cleanup is always
reached, exactly if the tag, the name or the text that the error quotes, as it is escaped,
leaves room for the rest of the answer. -/
theorem reject_reaches_cleanup_iff (serde : Serde) (hcodec : config.codec = serde.codec)
    {text : String} {error : ProtocolError} (hsize : (utf8Bytes text).length ≤ maxFrameBytes)
    (hrejected : decodeFrame config.codec (utf8Bytes text) = .error error) :
    (∃ k, self.readTurn config = .call (.next self.connectionId) k ∧
      k (some (.text text)) = (do
        self.reject config error (utf8Bytes text).length
        self.finish config
        return none)) ∧
    ((encodeFrame config.codec error.toErrorFrame).isOk = true ∧
        (self.reject config error (utf8Bytes text).length).AllOps RelayOp.NoPanic ↔
      serde.Fits text) := by
  refine ⟨⟨_, rfl, ?_⟩, ?_⟩
  · change self.onText config text >>= _ = _
    rw [onText_rejected hrejected, bind_assoc]
    rfl
  · rw [hcodec] at hrejected
    rw [reject_noPanic_iff, and_self, error.encode_toErrorFrame_isOk_iff,
      serde.frameSize_le_iff hsize hrejected]

end Connection

/-! ## A text that is quoted -/

def quotingDebug (text : String) : String := String.ofList (Json.quote text)

def plainCodec : Codec := .standard (fun _ => "expected value") fun _ => "Invalid padding"

/-- Refuses offences as the JSON crate does, with one text for the errors that quote
nothing. -/
def quotingSlice (b : Bytes) : Except String Frame :=
  let quoted := (fromUtf8 b).bind fun text =>
    (offence (fun _ => true) text.toList).message quotingDebug
  match quoted with
  | some message => .error message
  | none => plainCodec.frameFromSlice b

def quotingSerde : Serde where
  codec := { plainCodec with frameFromSlice := quotingSlice }
  limited _ := true
  debug := quotingDebug
  refuses text message h := by simp [quotingSlice, h]
  short text message hother h := by
    simp only [quotingSlice, fromUtf8_utf8Bytes, Option.bind_some, hother, Offence.message,
      plainCodec, Codec.standard] at h
    cases hread : (Json.fromBytes (utf8Bytes text)).bind Frame.fromJson with
    | none =>
      rw [hread] at h
      cases h
      decide
    | some frame =>
      rw [hread] at h
      cases h
  base64Error_short _ := by
    have hpadding : escapedSize "Invalid padding" ≤ errorBound := by decide
    exact hpadding

def quotingConfig : RelayConfig where
  prim := .sample
  codec := quotingSerde.codec
  registryCodec := .standard fun _ => "expected value"
  mailboxCodec := .standard (fun _ => "expected value") id
  limits := {}
  pairing := {}
  mailbox := {}

def sampleConnection : Connection :=
  ⟨0, .v4 ⟨[127, 0, 0, 1], rfl⟩, ⟨0, 48 * 1024 * 1024⟩, .preHello, none⟩

def taggedText (name : String) : String :=
  String.ofList (Json.print .compact 0 (.obj [("type", .str name)]))

def taggedOffence (name : String) : Offence :=
  .unknownVariant name (position (taggedText name).toList ['}'])

variable {name : String}

theorem length_taggedText (h : ∀ c ∈ name.toList, Plain c) :
    (utf8Bytes (taggedText name)).length = name.toList.length + 11 := by
  rw [taggedText, length_utf8Bytes_ofList, Json.utf8Length_print_obj_cons]
  simp only [Json.print, Json.printMembers, Json.utf8Length_quote h, utf8Length_nil]
  rw [utf8Length_name "type" (by decide)]
  simp [Json.newlineSize, Json.colonSize]
  omega

theorem offence_of_readMember {limited : Json.Value → Bool} {text rest : List Char}
    {found : Offence} (htext : Json.skipSpace text = '{' :: rest) (hrest : rest ≠ [])
    (hmember : readMember limited text none [] rest = .error found) :
    offence limited text = found := by
  obtain ⟨fuel, hfuel⟩ := Nat.exists_eq_succ_of_ne_zero (mt List.length_eq_zero_iff.1 hrest)
  rw [offence, htext]
  simp only [hfuel, objectOffence, hmember]

theorem offence_taggedText (hunknown : name ∉ frameTags) (limited : Json.Value → Bool) :
    offence limited (taggedText name).toList = taggedOffence name := by
  have htext : (taggedText name).toList = '{' :: (Json.quote "type" ++
      (Json.colon .compact ++ (Json.quote name ++ ['}']))) := by
    simp [taggedText, Json.print, Json.printMembers, Json.newline]
  have hname : Json.quote name ++ ['}'] =
      '"' :: (name.toList.flatMap Json.escape ++ '"' :: ['}']) := by
    simp [Json.quote]
  obtain ⟨rest, hkey, hskip⟩ := Json.parseKey_quote .compact "type" (Json.quote name ++ ['}'])
  rw [hname, Json.skipSpace_cons (by rfl)] at hskip
  have htag : readTag (taggedText name).toList rest = .error (taggedOffence name) := by
    rw [readTag, hskip]
    simp only [Json.parseString_quote name _ (Nat.lt_succ_self _), String.ofList_toList,
      if_neg hunknown, taggedOffence]
  refine offence_of_readMember (by rw [htext, Json.skipSpace_cons (by rfl)])
    (by simp [Json.quote]) ?_
  simp only [readMember, hkey, htag, if_true]
  rfl

theorem decodeFrame_taggedText (hunknown : name ∉ frameTags)
    (hsize : (utf8Bytes (taggedText name)).length ≤ maxFrameBytes) :
    ∃ message, decodeFrame quotingSerde.codec (utf8Bytes (taggedText name)) =
      .error (badJson message) := by
  have hrefused := quotingSerde.refuses (taggedText name) _
    (by rw [offence_taggedText hunknown]; rfl)
  exact ⟨_, by rw [decodeFrame, ensureSize, if_pos hsize, hrefused]; rfl⟩

theorem fits_taggedText_iff (hunknown : name ∉ frameTags) (hplain : ∀ c ∈ name.toList, Plain c) :
    quotingSerde.Fits (taggedText name) ↔ name.toList.length +
      escapedSize (position (taggedText name).toList ['}']) + 242 ≤ maxFrameBytes := by
  have hname : escapedSize name = name.toList.length := by
    rw [escapedSize, Json.flatMap_escape hplain,
      utf8Length_of_ascii fun c hc => (hplain c hc).ascii]
  rw [Serde.Fits, offence_taggedText hunknown, taggedOffence, Offence.answerSize, hname]

/-- The answer to the tag `aaa` has 265 octets. -/
theorem reject_reaches_cleanup_small : ∃ message,
    decodeFrame quotingSerde.codec (utf8Bytes (taggedText "aaa")) = .error (badJson message) ∧
      (offence quotingSerde.limited (taggedText "aaa").toList).answerSize quotingDebug = 265 ∧
      (encodeFrame quotingSerde.codec (badJson message).toErrorFrame).isOk = true := by
  have hunknown : "aaa" ∉ frameTags := by decide
  have hplain : ∀ c ∈ "aaa".toList, Plain c := plain_of_all (by decide)
  have hsize : (utf8Bytes (taggedText "aaa")).length ≤ maxFrameBytes := by
    rw [length_taggedText hplain]
    decide
  have hanswer : (taggedOffence "aaa").answerSize quotingDebug = 265 := by decide +kernel
  obtain ⟨message, hrejected⟩ := decodeFrame_taggedText hunknown hsize
  have hcleanup : _ ∧ (_ ∧ (sampleConnection.reject quotingConfig _ _).AllOps _ ↔ _) :=
    Connection.reject_reaches_cleanup_iff quotingSerde rfl hsize hrejected
  rw [offence_taggedText hunknown]
  refine ⟨message, hrejected, hanswer, (hcleanup.2.2 ?_).1⟩
  rw [Serde.Fits, offence_taggedText hunknown]
  exact hanswer.le.trans (by decide)

theorem reject_panics_of_length (hplain : ∀ c ∈ name.toList, Plain c)
    (hlength : name.toList.length = 25165813) :
    (utf8Bytes (taggedText name)).length ≤ maxFrameBytes ∧
      ∃ error, decodeFrame quotingSerde.codec (utf8Bytes (taggedText name)) = .error error ∧
        ¬ error.frameSize ≤ maxFrameBytes := by
  have hsize : (utf8Bytes (taggedText name)).length ≤ maxFrameBytes := by
    rw [length_taggedText hplain, hlength]
    decide
  have hunknown : name ∉ frameTags := by
    have hshort : ∀ tag ∈ frameTags, tag.toList.length ≤ 13 := by decide
    intro hmem
    have hle := hshort name hmem
    omega
  obtain ⟨message, hrejected⟩ := decodeFrame_taggedText hunknown hsize
  refine ⟨hsize, _, hrejected, fun hle => ?_⟩
  rw [quotingSerde.frameSize_le_iff hsize hrejected, fits_taggedText_iff hunknown hplain, hlength,
    maxFrameBytes] at hle
  omega

/-- A text within the limit is answered by a panic instead of the cleanup. -/
theorem reject_panics :
    ∃ (text : String) (error : ProtocolError), (utf8Bytes text).length ≤ maxFrameBytes ∧
      decodeFrame quotingSerde.codec (utf8Bytes text) = .error error ∧
      (encodeFrame quotingSerde.codec error.toErrorFrame).isOk = false ∧
      ¬ (sampleConnection.reject quotingConfig error
        (utf8Bytes text).length).AllOps RelayOp.NoPanic := by
  obtain ⟨name, hplain, hlength⟩ : ∃ name : String,
      (∀ c ∈ name.toList, Plain c) ∧ name.toList.length = 25165813 := by
    refine ⟨String.ofList (List.replicate 25165813 'a'), fun c hc => ?_, ?_⟩
    · rw [String.toList_ofList] at hc
      rw [List.eq_of_mem_replicate hc]
      decide
    · rw [String.toList_ofList, List.length_replicate]
  obtain ⟨hsize, error, hrejected, hover⟩ := reject_panics_of_length hplain hlength
  have hencode : ¬ (encodeFrame quotingSerde.codec error.toErrorFrame).isOk = true :=
    fun hok => hover ((error.encode_toErrorFrame_isOk_iff _).1 hok)
  refine ⟨taggedText name, error, hsize, hrejected, Bool.eq_false_iff.2 hencode, fun hall => ?_⟩
  have hok := (Connection.reject_noPanic_iff _ _).1 hall
  exact hencode hok

end ClipSync
