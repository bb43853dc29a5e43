import ClipSync.Core.EndToEnd
import ClipSync.Core.WireSize

/-!
# What is recorded as sent

A clip goes into the history and the echo ring once its envelope is encoded and sealed,
before anything has looked at the size of the frame. The envelope and the frame are
under one limit, and the frame holds the base64 of the sealed envelope: an image that
may be sent always fits, and a text of three quarters of the limit does not.
-/

namespace ClipSync

open Lib Program FsProgram SessionProgram SessionStore HistoryStore

def Primitives.TagLength (prim : Primitives) : Prop :=
  ∀ key nonce associated message ciphertext,
    prim.encrypt key nonce associated message = some ciphertext →
      ciphertext.length = message.length + 16

def frameSize (content : ClipContent) (seq : UInt64) (tsMs : Int64) : ℕ :=
  4 * ((envelopeSize content seq tsMs + 40 + 2) / 3) + 137

/-- Two layers of base64 leave room for every image. -/
theorem frameSize_image_le {bytes : Bytes} (h : bytes.length ≤ maxImageBytes) (seq : UInt64)
    (tsMs : Int64) : frameSize (.image bytes) seq tsMs ≤ maxFrameBytes := by
  have henvelope := envelopeSize_le (.image bytes) seq tsMs
  have hraw : (ClipContent.image bytes).raw.length = bytes.length := rfl
  simp only [frameSize, maxImageBytes, maxFrameBytes] at *
  omega

section Sent

variable {crates : Crates}

variable {bytes : Bytes} {content : ClipContent} {tsMs : Int64} {id : Uuid}

theorem length_sealWith {prim : Primitives} (htag : prim.TagLength) {key : Key}
    {associated encoded : Bytes} {nonce : Nonce}
    (h : sealWith prim key associated encoded nonce = .ok bytes) :
    bytes.length = encoded.length + 40 := by
  unfold sealWith at h
  split at h
  · rename_i ciphertext hciphertext
    cases h
    rw [List.length_append, List.Vector.toList_length, htag _ _ _ _ _ hciphertext]
    omega
  · cases h

variable {self : Session}

theorem SealedFrame.encode_isOk_iff (htag : crates.prim.TagLength)
    (hroom : validateRoomId self.roomId = .ok ()) {seq : UInt64} {frame : Frame}
    (h : SealedFrame crates self content tsMs seq frame id bytes) :
    (encodeFrame crates.wire frame).isOk = true ↔ frameSize content seq tsMs ≤ maxFrameBytes := by
  obtain ⟨rfl, encoded, nonce, hencoded, hbytes⟩ := h
  obtain ⟨-, -, rfl⟩ := encodeEnvelope_eq_ok.1 hencoded
  have hlength := length_sealWith htag hbytes
  rw [length_jsonText_envelope] at hlength
  have hcipher := validateBase64_encode crates.wire "ciphertext_b64" bytes
  obtain ⟨hhex, hroomLength⟩ := lowerHex_of_validateLowerHex hroom
  have horigin : ∀ c ∈ "".toList, Plain c := by simp
  have hsize : (Frame.clip self.roomId (Base64.encode bytes) "" false).encoded.length =
      frameSize content seq tsMs := by
    rw [length_encoded_clip hhex.plain (Base64.plain_encode bytes) horigin, Base64.length_encode,
      hlength, hroomLength]
    rfl
  simp [encodeFrame_isOk_iff, validateFrame_clip, hroom, hcipher, hsize]

theorem Session.Opened.validateRoomId {pairing : Pairing crates.prim} (h : self.Opened pairing) :
    ClipSync.validateRoomId self.roomId = .ok () := by
  obtain ⟨-, -, -, -, hroom⟩ := pairing.record_eq
  have hvalid := validateLowerHex_of_lowerHex (lowerHex_roomId crates.prim
    (pairing.identity.publicBundle crates.prim) pairing.record.peerBundle) "room_id"
  rw [length_roomId] at hvalid
  rw [h.roomId, hroom]
  exact hvalid

/-! ## Recording -/

def Session.Records (self self' : Session) : Prop :=
  self'.history.items ≠ self.history.items ∨ self'.echoHashes ≠ self.echoHashes

/-- The image that has to go when an entry is added. -/
def HistoryStore.evictedImage (self : HistoryStore) : Option String :=
  if historyCap ≤ self.items.length then self.items.head?.bind (·.kind.imageFileName) else none

/-- The last access of a call is the removal of the image that has to go, and it fails. -/
def HistoryStore.RemovalFails (self : HistoryStore) (log : List ((op : SessionOp) × op.Res)) :
    Prop :=
  ∃ fileName message, self.evictedImage = some fileName ∧
    log.getLast? = some ⟨.fs (.remove (imagePath fileName)), .error (.other message)⟩

theorem HistoryStore.evictedImage_eq (self : HistoryStore) (entry : HistoryItem) :
    (if (self.items ++ [entry]).length > historyCap then (self.items ++ [entry]).head?
      else none).bind (·.kind.imageFileName) = self.evictedImage := by
  unfold evictedImage
  cases hitems : self.items with
  | nil => simp [historyCap]
  | cons oldest rest =>
    by_cases hfull : historyCap ≤ (oldest :: rest).length
    · rw [if_pos hfull, if_pos (by simp at hfull ⊢; omega)]
      rfl
    · rw [if_neg hfull, if_neg (by simp at hfull ⊢; omega)]
      rfl

/-- The log of a call on a session. -/
abbrev CallLog : Type := List ((op : SessionOp) × op.Res)

theorem safe_add_result {self : HistoryStore} (item : NewHistoryItem) {t : World × CallLog}
    (ht : ¬ self.RemovalFails t.2) :
    Safe (logged (SessionOp.exec crates)) (fun _ => True)
      (fun x t' => (x.1 = .ok () → ¬ self.RemovalFails t'.2) ∧
        (x.1 ≠ .ok () → x.2.items = self.items ∨ self.RemovalFails t'.2))
      (files (self.add crates.lines item)) t := by
  refine Session.safe_files_of ?_
  unfold HistoryStore.add
  split
  · exact ⟨trivial, fun _ => ht, fun h => absurd rfl h⟩
  refine Safe.bind (safe_true _ t) fun r t₁ _ _ => ?_
  cases r with
  | error e => exact ⟨trivial, nofun, fun _ => .inl rfl⟩
  | ok kind =>
  dsimp only
  refine Safe.bind (safe_true _ t₁) fun r t₂ _ _ => ?_
  cases r with
  | error e =>
    dsimp only
    split
    · exact ⟨trivial, fun _ _ _ => ⟨trivial, nofun, fun _ => .inl rfl⟩⟩
    · exact ⟨trivial, nofun, fun _ => .inl rfl⟩
  | ok u =>
    dsimp only
    rw [self.evictedImage_eq]
    cases hevicted : self.evictedImage with
    | none =>
      refine ⟨trivial, fun _ => ?_, fun h => absurd rfl h⟩
      rintro ⟨_, _, hsome, -⟩
      cases hevicted.symm.trans hsome
    | some fileName =>
      refine ⟨trivial, fun r t₃ hremove => ?_⟩
      have hlast : t₃.2.getLast? = some ⟨.fs (.remove (imagePath fileName)), r⟩ := by
        rw [hremove.2, List.getLast?_concat]
      have hfails : self.RemovalFails t₃.2 → ∃ message, r = .error (.other message) := by
        rintro ⟨other, message, hother, hfails⟩
        cases hevicted.symm.trans hother
        rw [hlast] at hfails
        cases hfails
        exact ⟨message, rfl⟩
      match r with
      | .ok () | .error .notFound =>
        refine ⟨trivial, fun _ h => ?_, fun h => absurd rfl h⟩
        obtain ⟨_, ⟨⟩⟩ := hfails h
      | .error (.other message) =>
        exact ⟨trivial, nofun, fun _ => .inr ⟨fileName, message, hevicted, hlast⟩⟩

/-- What is recorded of a clip is not too large, and sent unless the removal fails. -/
def RecordsSent (self : Session) (content : ClipContent) (result : Except SessionError Frame)
    (self' : Session) (t : World × CallLog) : Prop :=
  self.Records self' → Session.oversizeImage content = none ∧
    ((∃ frame, result = .ok frame) ↔ ¬ self.history.RemovalFails t.2)

theorem recordsSent_of_eq {self' : Session} {result : Except SessionError Frame}
    {t : World × CallLog}
    (hhistory : self'.history.items = self.history.items)
    (hechoes : self'.echoHashes = self.echoHashes) : RecordsSent self content result self' t := by
  rintro (h | h)
  · exact absurd hhistory h
  · exact absurd hechoes h

theorem safe_sendClip_records (self : Session) (content : ClipContent) (tsMs : Int64)
    (t : World × CallLog) :
    Safe (logged (SessionOp.exec crates)) (fun _ => True)
      (fun x t' => RecordsSent self content x.1 x.2 t') (self.sendClip crates content tsMs) t := by
  have hsends : Session.Sends (.safe (logged (SessionOp.exec crates)) fun _ => True) crates self
      content tsMs (fun _ => True) (fun _ => Session.oversizeImage content = none)
      (fun _ _ t => Session.oversizeImage content = none ∧ ¬ self.history.RemovalFails t.2)
      (RecordsSent self content) :=
    { finish := fun hw h => ⟨hw, h⟩
      reject := fun _ _ => recordsSent_of_eq rfl rfl
      reserve := fun _ _ hsize _ => safe_of_forall (fun _ _ => .intro (fun _ => hsize)
        fun _ => recordsSent_of_eq rfl rfl) _ _
      refuse := fun _ _ => recordsSent_of_eq rfl rfl
      draw := fun _ h => safe_of_forall (fun _ _ => h) _ _
      encrypt := fun _ hsize _ => ⟨trivial, fun r t' hseal => ⟨trivial, by
        cases r with
        | error e => exact hsize
        | ok bytes =>
          refine ⟨hsize, ?_⟩
          rintro ⟨_, _, -, hlast⟩
          rw [hseal.2, List.getLast?_concat] at hlast
          cases hlast⟩⟩
      add := fun _ h => (safe_add_result _ h.2).imp fun x t' _ hadded => by
        obtain ⟨r, history⟩ := x
        cases r with
        | error e =>
          rcases hadded.2 nofun with hsame | hfails
          · exact recordsSent_of_eq hsame rfl
          · exact fun _ => ⟨h.1, (by rintro ⟨_, ⟨⟩⟩), fun hok => absurd hfails hok⟩
        | ok u => exact fun _ => ⟨h.1, fun _ => hadded.1 rfl, fun _ => ⟨_, rfl⟩⟩ }
  exact hsends.sendClip none trivial trivial

/-- A clip that is recorded is sent exactly if its frame fits and the image that had to go
for it could be removed; every image fits. -/
theorem recorded_clip_sent_iff (htag : crates.prim.TagLength) {pairing : Pairing crates.prim}
    {self self' : Session} (hself : self.Opened pairing) {content : ClipContent} {tsMs : Int64}
    {w w' : World} {log : CallLog} {result : Except SessionError Frame}
    (hexec : Exec (logged (SessionOp.exec crates)) (self.sendClip crates content tsMs) (w, [])
      (result, self') (w', log))
    (hrecords : self.Records self') :
    ((∃ frame, result = .ok frame ∧ (encodeFrame crates.wire frame).isOk = true) ↔
        frameSize content self.sendState.nextSeq tsMs ≤ maxFrameBytes ∧
          ¬ self.history.RemovalFails log) ∧
      ∀ bytes, content = .image bytes →
        frameSize content self.sendState.nextSeq tsMs ≤ maxFrameBytes := by
  obtain ⟨hsize, hremoves⟩ := (safe_sendClip_records self content tsMs _).post hexec hrecords
  have hframes := ((safe_sendClip_frame self content tsMs w).logged []).post hexec
  have hiff : ∀ frame, result = .ok frame → ((encodeFrame crates.wire frame).isOk = true ↔
      frameSize content self.sendState.nextSeq tsMs ≤ maxFrameBytes) := by
    intro frame hframe
    obtain ⟨id, bytes, -, hsealed⟩ := hframes frame hframe
    exact hsealed.encode_isOk_iff htag hself.validateRoomId
  refine ⟨⟨?_, ?_⟩, ?_⟩
  · rintro ⟨frame, hframe, hok⟩
    exact ⟨(hiff frame hframe).1 hok, hremoves.1 ⟨frame, hframe⟩⟩
  · rintro ⟨hfits, hremoved⟩
    obtain ⟨frame, hframe⟩ := hremoves.2 hremoved
    exact ⟨frame, hframe, (hiff frame hframe).2 hfits⟩
  · rintro image rfl
    refine frameSize_image_le ?_ _ _
    by_contra hlong
    rw [Session.oversizeImage, if_pos (Nat.lt_of_not_le hlong)] at hsize
    cases hsize

end Sent

/-! ## A text that is recorded and not sent -/

def Primitives.tagged : Primitives where
  __ := Primitives.sample
  encrypt _ _ _ message := some (message ++ List.replicate 16 0)
  decrypt _ _ _ bytes := some (bytes.take (bytes.length - 16))

theorem Primitives.tagLength_tagged : Primitives.tagged.TagLength := by
  rintro key nonce associated message _ ⟨⟩
  simp

def Crates.tagged : Crates := { Crates.sample with prim := .tagged }

def Pairing.tagged : Pairing Crates.tagged.prim where
  identity := .sample 1
  record := .sample (.sample 1) (.sample 2)
  debugAssertions := false
  valid := Pairing.sample.valid

/-- A text is an echo as soon as it is registered. -/
theorem Session.isEcho_registerEcho (self : Session) (hash : String) :
    (self.registerEcho hash).isEcho hash = true := by
  unfold Session.registerEcho
  split
  · assumption
  · have hdrop : (self.echoHashes ++ [hash]).length - echoRing ≤ self.echoHashes.length := by
      simp [echoRing]
    dsimp only [Session.isEcho]
    rw [List.drop_append_of_le_length hdrop]
    simp

theorem exists_sent_text (text : String) (hfits : envelopeSize (.text text) 1 0 ≤ maxMessageBytes) :
    ∃ (self self' : Session) (w w' : World) (frame : Frame), self.Opened Pairing.tagged ∧
      self.history.evictedImage = none ∧ self.sendState.nextSeq = 1 ∧
      Exec (SessionOp.exec Crates.tagged) (self.sendClip Crates.tagged (.text text) 0) w
        (.ok frame, self') w' ∧ self.Records self' ∧
      (∃ item ∈ self'.history.items, item.source = .local') ∧
      self'.isEcho (textHash Crates.tagged.prim text) = true := by
  let w : World := ⟨⟨fun _ => none, fun _ => []⟩, [], [], []⟩
  obtain ⟨keys, hkeys⟩ := exists_session_sample .sample
  have hself : (Session.opened Pairing.tagged.record keys (.new 1) (.new 1) ⟨[]⟩).Current
      Pairing.tagged w.fs :=
    Session.current_opened (hkeys w.fs fun _ => rfl).opened.keys fun _ => rfl
  have hid : isUuidV4 (Uuid.sample 0).toText = true := by decide
  obtain ⟨bytes, fs', hexec, -⟩ := hself.sendClip (fun _ _ _ _ => rfl)
    (by decide : (1 : UInt64).toNat + 1 ≠ UInt64.size) hid hfits nofun (by decide : 0 < historyCap)
  refine ⟨_, _, w, _, _, hself.opened, rfl, rfl, exec_of_quietly hexec, .inl ?_, ?_,
    Session.isEcho_registerEcho _ _⟩
  · simp [Session.sent, Session.opened]
  · simp [Session.sent, Session.opened, entryOf]

theorem recorded_small_text_sent :
    ∃ (self self' : Session) (w w' : World) (frame : Frame),
      Exec (SessionOp.exec Crates.tagged) (self.sendClip Crates.tagged (.text "a") 0) w
        (.ok frame, self') w' ∧ self.Records self' ∧
      (encodeFrame Crates.tagged.wire frame).isOk = true := by
  have hraw : (ClipContent.text "a").raw.length = 1 := by decide
  have hsize := envelopeSize_le (.text "a") 1 0
  rw [hraw] at hsize
  obtain ⟨self, self', w, w', frame, hself, hevict, hseq, hexec, hrecords, -⟩ :=
    exists_sent_text "a" (hsize.trans (by decide))
  obtain ⟨log, hlogged⟩ := hexec.logged []
  have hiff := (recorded_clip_sent_iff Primitives.tagLength_tagged hself hlogged hrecords).1
  have hremoved : ¬ self.history.RemovalFails log := by
    rintro ⟨_, _, hsome, -⟩
    cases hevict.symm.trans hsome
  have hfits : frameSize (.text "a") self.sendState.nextSeq 0 ≤ maxFrameBytes := by
    rw [hseq, frameSize, maxFrameBytes]
    omega
  obtain ⟨_, ⟨⟩, hok⟩ := hiff.2 ⟨hfits, hremoved⟩
  exact ⟨self, self', w, w', frame, hexec, hrecords, hok⟩

/-- Fifteen megabytes of text are recorded as sent, and their frame is refused. -/
theorem recorded_text_not_sent :
    ∃ (self self' : Session) (w w' : World) (text : String) (frame : Frame),
      Crates.tagged.prim.TagLength ∧ self.Opened Pairing.tagged ∧
      Exec (SessionOp.exec Crates.tagged) (self.sendClip Crates.tagged (.text text) 0) w
        (.ok frame, self') w' ∧
      (∃ item ∈ self'.history.items, item.source = .local') ∧
      self'.isEcho (textHash Crates.tagged.prim text) = true ∧
      (encodeFrame Crates.tagged.wire frame).isOk = false := by
  set text := String.ofList (List.replicate (15 * 1024 * 1024) 'a') with htext
  have hraw : (ClipContent.text text).raw.length = 15 * 1024 * 1024 := by
    rw [ClipContent.raw, htext, length_utf8Bytes_ofList, utf8Length_of_ascii,
      List.length_replicate]
    intro c hc
    rw [List.eq_of_mem_replicate hc]
    decide
  have hupper := envelopeSize_le (.text text) 1 0
  have hlower : 4 * ((15 * 1024 * 1024 + 2) / 3) ≤ envelopeSize (.text text) 1 0 := by
    rw [envelopeSize, hraw]
    omega
  rw [hraw] at hupper
  obtain ⟨self, self', w, w', frame, hself, -, hseq, hexec, hrecords, hitem, hecho⟩ :=
    exists_sent_text text (hupper.trans (by decide))
  obtain ⟨id, bytes, -, hframe⟩ :=
    (safe_sendClip_frame self (.text text) 0 w).post hexec frame rfl
  have hiff := hframe.encode_isOk_iff Primitives.tagLength_tagged hself.validateRoomId
  refine ⟨self, self', w, w', text, frame, Primitives.tagLength_tagged, hself, hexec, hitem, hecho,
    ?_⟩
  rw [← Bool.not_eq_true, hiff, hseq, frameSize, maxFrameBytes]
  omega

end ClipSync
