import ClipSync.Core.Documents
import ClipSync.Core.SessionOutline
import ClipSync.Core.SessionProgress

/-!
# From one end of a session to the other

The frame of a sent clip is read by the peer's session, and by no other, as the content
that was sent, under the number that was reserved for it.
-/

namespace ClipSync

open Lib Program SessionProgram

def Codec.ReadsEnvelopes (wire : Codec) : Prop :=
  ∀ envelope : Envelope, wire.envelopeFromSlice (jsonText envelope.toJson) = .ok envelope

variable {bytes encoded : Bytes} {nonce : Nonce} {self : Session}

theorem decodeEnvelope_encodeEnvelope {wire : Codec} (hwire : wire.ReadsEnvelopes)
    {envelope : Envelope} (h : encodeEnvelope wire envelope = .ok encoded) :
    decodeEnvelope wire encoded = .ok envelope := by
  obtain ⟨hvalid, hsize, rfl⟩ := encodeEnvelope_eq_ok.1 h
  exact decodeEnvelope_eq_ok.2 ⟨hsize, hwire envelope, hvalid⟩

theorem contentOf_envelope (content : ClipContent) (itemId : Uuid) (seq : UInt64) (tsMs : Int64) :
    Session.contentOf (Session.envelope content itemId seq tsMs) = some content := by
  cases content with
  | text text | image bytes => simp [Session.contentOf, Session.envelope]

variable {crates : Crates}

/-- A message sealed for a session is the item it was made of. -/
theorem authenticate_sealed (hprim : crates.prim.Lawful) (hwire : crates.wire.ReadsEnvelopes)
    (self : Session) {content : ClipContent} {itemId : Uuid} {seq : UInt64} {tsMs : Int64}
    (hencoded : encodeEnvelope crates.wire (Session.envelope content itemId seq tsMs) = .ok encoded)
    (hbytes : sealWith crates.prim self.keys.recv (aad self.roomId self.peerFp self.selfFp) encoded
      nonce = .ok bytes) :
    self.authenticate crates self.roomId (Base64.encode bytes) =
      some ⟨itemId, tsMs, seq, content⟩ := by
  have hopen := openSealed_sealWith hprim hbytes
  have hdecode := decodeEnvelope_encodeEnvelope hwire hencoded
  have hid : Uuid.parseStr (Session.envelope content itemId seq tsMs).itemId = some itemId :=
    Uuid.parseStr_toText itemId
  simp only [Session.authenticate, ne_eq, not_true_eq_false, if_false, Base64.decode_encode,
    hopen, hdecode, Except.toOption, hid, contentOf_envelope, Option.bind_eq_bind,
    Option.bind_some]
  rfl

/-- A message sealed otherwise is not read. -/
theorem authenticate_other (hprim : crates.prim.Lawful) (self : Session) {key : Key}
    {associated : Bytes} (hbytes : sealWith crates.prim key associated encoded nonce = .ok bytes)
    (hne : (self.keys.recv, aad self.roomId self.peerFp self.selfFp) ≠ (key, associated))
    (roomId : String) : self.authenticate crates roomId (Base64.encode bytes) = none := by
  have hopen := openSealed_other hprim hbytes hne
  unfold Session.authenticate
  split
  · rfl
  · simp [Base64.decode_encode, hopen, Except.toOption]

theorem handleClip_of_none {roomId ciphertextB64 : String}
    (h : self.authenticate crates roomId ciphertextB64 = none) (mailbox : Bool) (nowMs : Int64) :
    self.handleClip crates roomId ciphertextB64 mailbox nowMs =
      pure (.ok .unauthenticated, self) := by
  rw [Session.handleClip, Session.handleClipWithFault, h]

/-! ## The frame of a sent clip -/

/-- The frame carries one message, sealed under the number that was next. -/
structure SealedFrame (crates : Crates) (self : Session) (content : ClipContent) (tsMs : Int64)
    (seq : UInt64) (frame : Frame) (id : Uuid) (bytes : Bytes) : Prop where
  frame_eq : frame = .clip self.roomId (Base64.encode bytes) "" false
  bytes_eq : ∃ encoded nonce,
    encodeEnvelope crates.wire (Session.envelope content id seq tsMs) = .ok encoded ∧
    sealWith crates.prim self.keys.send (aad self.roomId self.selfFp self.peerFp) encoded nonce =
      .ok bytes

theorem safe_filesOnly {α : Type} (p : FsProgram Dir α) (w : World) :
    Safe (SessionOp.exec crates) (fun _ => True) (fun _ w' => ∃ fs', w' = { w with fs := fs' })
      (files p) w :=
  safe_files (safe_true p w.fs) (fun _ _ => trivial) fun _ fs' _ _ => ⟨fs', rfl⟩

def Frames (crates : Crates) (self : Session) (content : ClipContent) (tsMs : Int64)
    (seq : UInt64) (w : World) (result : Except SessionError Frame × Session) (w' : World) :
    Prop :=
  ∀ frame, result.1 = .ok frame → ∃ id bytes,
    w'.sealedClips = w.sealedClips ++ [(Session.envelope content id seq tsMs, bytes)] ∧
      SealedFrame crates self content tsMs seq frame id bytes

theorem safe_sendClip_frame (self : Session) (content : ClipContent) (tsMs : Int64) (w : World) :
    Safe (SessionOp.exec crates) (fun _ => True)
      (Frames crates self content tsMs self.sendState.nextSeq w)
      (self.sendClip crates content tsMs) w := by
  have hsends : Session.Sends (.safe (SessionOp.exec crates) fun _ => True) crates self content tsMs
      (fun w' => w'.sealedClips = w.sealedClips) (fun w' => w'.sealedClips = w.sealedClips)
      (fun id bytes w' => w'.sealedClips = w.sealedClips ++
          [(Session.envelope content id self.sendState.nextSeq tsMs, bytes)] ∧
        SealedFrame crates self content tsMs self.sendState.nextSeq
          (.clip self.roomId (Base64.encode bytes) "" false) id bytes)
      (fun r self' => Frames crates self content tsMs self.sendState.nextSeq w (r, self')) :=
    { finish := fun hw h => ⟨hw, h⟩
      reject := fun _ _ => nofun
      reserve := fun _ h _ _ => (safe_filesOnly _ _).imp fun _ _ _ hfs =>
        .intro (fun _ => hfs.choose_spec ▸ h) fun _ => nofun
      refuse := fun _ _ => nofun
      draw := fun _ h => ⟨trivial, fun _ _ hexec => ⟨trivial, hexec.2 ▸ h⟩⟩
      encrypt := fun _ h hencoded => ⟨trivial, fun r _ hexec => ⟨trivial, by
        cases r with
        | error e => exact hexec ▸ h
        | ok bytes =>
          obtain ⟨⟨nonce, hbytes⟩, rfl⟩ := hexec
          exact ⟨by rw [h], rfl, _, nonce, hencoded, hbytes⟩⟩⟩
      add := fun _ h => (safe_filesOnly _ _).imp fun _ _ _ hfs => by
        obtain ⟨fs', rfl⟩ := hfs
        refine .intro (fun _ => ?_) fun _ => nofun
        rintro _ ⟨⟩
        exact ⟨_, _, h⟩ }
  exact hsends.sendClip none trivial rfl

/-! ## Sample endpoints -/

theorem Codec.readsEnvelopes_standard (jsonError : Bytes → String)
    (base64Error : String → String) : (Codec.standard jsonError base64Error).ReadsEnvelopes :=
  Codec.standard_reads_envelope jsonError base64Error

def Crates.sample : Crates where
  prim := .sample
  wire := .standard (fun _ => "expected value") fun _ => "Invalid padding"
  lines := .standard
  documents := .standard fun _ => "expected value"

def Identity.sample (n : UInt8) : Identity where
  signSecret := .replicate 32 n
  dhSecret := .replicate 32 n
  generation := 1

def PairingRecord.sample (self peer : Identity) : PairingRecord where
  identityGeneration := self.generation
  server := "wss://relay.example"
  roomId := ClipSync.roomId .sample (self.publicBundle .sample) (peer.publicBundle .sample)
  localBundleFp := self.bundleFp .sample
  peerBundle := peer.publicBundle .sample
  peerBundleFp := peer.bundleFp .sample

def Pairing.sample : Pairing Crates.sample.prim where
  identity := .sample 1
  record := .sample (.sample 1) (.sample 2)
  debugAssertions := false
  valid := by decide

def Pairing.samplePeer : Pairing Crates.sample.prim where
  identity := .sample 2
  record := .sample (.sample 2) (.sample 1)
  debugAssertions := false
  valid := by decide

def Uuid.sample (n : UInt8) : Uuid :=
  ⟨⟨[0, 0, 0, 0, 0, 0, 64, 0, 128, 0, 0, 0, 0, 0, 0, n], rfl⟩⟩

def sampleText (n : UInt8) (seq : UInt64) : ClipItem := ⟨.sample n, 0, seq, .text "a"⟩

/-- The first session of a pairing, with its keys. -/
def Session.sample (pairing : Pairing Crates.sample.prim) (keys : SessionKeys) : Session :=
  .opened pairing.record keys (.new pairing.identity.generation) (.new pairing.identity.generation)
    ⟨[]⟩

@[simp] theorem Session.sample_recvState (pairing : Pairing Crates.sample.prim)
    (keys : SessionKeys) :
    (Session.sample pairing keys).recvState = .new pairing.identity.generation := rfl

@[simp] theorem Session.sample_sendState (pairing : Pairing Crates.sample.prim)
    (keys : SessionKeys) :
    (Session.sample pairing keys).sendState = .new pairing.identity.generation := rfl

@[simp] theorem Session.sample_history (pairing : Pairing Crates.sample.prim) (keys : SessionKeys) :
    (Session.sample pairing keys).history = ⟨[]⟩ := rfl

theorem exists_session_sample (pairing : Pairing Crates.sample.prim) :
    ∃ keys, ∀ s : Fs Dir, (∀ path, s.files path = none) →
      (Session.sample pairing keys).Current pairing s := by
  obtain ⟨-, hlocal, hpeer, hne, -⟩ := pairing.record_eq
  rw [hlocal, hpeer] at hne
  obtain ⟨keys, hkeys⟩ := sessionKeys_isOk _ Primitives.sample_lawful hne rfl
  exact ⟨keys, fun s hempty => Session.current_opened hkeys hempty⟩

theorem envelopeSize_short {text : String} (h : (utf8Bytes text).length ≤ 1000) (seq : UInt64) :
    envelopeSize (.text text) seq 0 ≤ maxMessageBytes := by
  have hsize := envelopeSize_le (.text text) seq 0
  have hraw : (ClipContent.text text).raw.length ≤ 1000 := h
  simp only [maxMessageBytes]
  omega

/-- There is a message with a sample clip in it. -/
theorem exists_taken_sample (self : Session) (n : UInt8) (seq : UInt64)
    (hid : isUuidV4 (Uuid.sample n).toText = true)
    (hunseen : (Uuid.sample n).toText ∉ self.recvState.seenIds)
    (hlater : self.recvState.lastSeq < seq)
    (hunknown : ∀ known ∈ self.history.items, known.id ≠ .sample n)
    (hshort : self.history.items.length < historyCap) :
    ∃ ciphertextB64,
      self.Takes Crates.sample self.roomId ciphertextB64 0 (sampleText n seq) "a" := by
  have hencoded : encodeEnvelope Crates.sample.wire
      (Session.envelope (.text "a") (.sample n) seq 0) = .ok _ :=
    (encodeEnvelope_envelope hid).2 ⟨envelopeSize_short (by decide) seq, rfl⟩
  obtain ⟨bytes, hbytes⟩ : ∃ bytes, sealWith Crates.sample.prim self.keys.recv
      (aad self.roomId self.peerFp self.selfFp)
      (jsonText (Session.envelope (.text "a") (.sample n) seq 0).toJson) (.replicate 24 0) =
        .ok bytes := ⟨_, rfl⟩
  exact ⟨_, authenticate_sealed Primitives.sample_lawful (Codec.readsEnvelopes_standard _ _) self
    hencoded hbytes, rfl, hunseen, hlater, rfl, hunknown, hshort⟩

/-- A sample session can send a short text. -/
theorem Session.Current.sendShort {pairing : Pairing Crates.sample.prim} {w : World}
    (h : self.Current pairing w.fs) (n : UInt8) (hid : isUuidV4 (Uuid.sample n).toText = true)
    {text : String} (hshort : (utf8Bytes text).length ≤ 1000)
    (hseq : self.sendState.nextSeq.toNat + 1 ≠ UInt64.size)
    (hnew : ∀ known ∈ self.history.items, known.id ≠ .sample n)
    (hcap : self.history.items.length < historyCap) :
    ∃ bytes fs', Exec (SessionOp.quiet Crates.sample)
        (self.sendClipWithFault Crates.sample (.text text) 0 none) w
        (.ok (.clip self.roomId (Base64.encode bytes) "" false),
          self.sent Crates.sample (.text text) 0 (.sample n))
        { w with
          fs := fs'
          sealedClips := w.sealedClips ++
            [(Session.envelope (.text text) (.sample n) self.sendState.nextSeq 0, bytes)] } ∧
      (self.sent Crates.sample (.text text) 0 (.sample n)).Current pairing fs' :=
  h.sendClip (fun _ _ _ _ => rfl) hseq hid (envelopeSize_short hshort _) hnew hcap

/-! ## The two ends -/

section Ends

variable {a b : Pairing crates.prim}

theorem Pairing.keys_eq (hprim : crates.prim.Lawful)
    (hab : a.record.peerBundle = b.identity.publicBundle crates.prim)
    (hba : b.record.peerBundle = a.identity.publicBundle crates.prim) {self peer : Session}
    (hself : self.Opened a) (hpeer : peer.Opened b) : peer.keys.recv = self.keys.send := by
  have hswap := sessionKeys_swap crates.prim hprim a.identity b.identity
  rw [← hab, ← hba, hself.keys, hpeer.keys] at hswap
  exact (congrArg SessionKeys.send (Except.ok.inj hswap)).symm

theorem Pairing.names_eq (hab : a.record.peerBundle = b.identity.publicBundle crates.prim)
    (hba : b.record.peerBundle = a.identity.publicBundle crates.prim) :
    b.record.roomId = a.record.roomId ∧ b.record.peerBundleFp = a.record.localBundleFp ∧
      b.record.localBundleFp = a.record.peerBundleFp := by
  obtain ⟨-, hlocalA, hpeerA, -, hroomA⟩ := a.record_eq
  obtain ⟨-, hlocalB, hpeerB, -, hroomB⟩ := b.record_eq
  refine ⟨?_, ?_, ?_⟩
  · rw [hroomA, hroomB, hab, hba, roomId_comm]
  · rw [hpeerB, hlocalA, hba, Identity.bundleFp]
  · rw [hlocalB, hpeerA, hab, Identity.bundleFp]

theorem Session.Opened.aad_ne {c : Pairing crates.prim} {self other : Session}
    (hself : self.Opened a) (hother : other.Opened c)
    (hne : (c.record.roomId, c.record.peerBundleFp, c.record.localBundleFp) ≠
      (a.record.roomId, a.record.localBundleFp, a.record.peerBundleFp)) :
    aad other.roomId other.peerFp other.selfFp ≠ aad self.roomId self.selfFp self.peerFp := by
  obtain ⟨-, hlocalA, -, -, hroomA⟩ := a.record_eq
  obtain ⟨-, -, hpeerC, -, hroomC⟩ := c.record_eq
  rw [hother.roomId, hother.peerFp, hother.selfFp, hself.roomId, hself.selfFp, hself.peerFp]
  have hsender : Hex.LowerHex a.record.localBundleFp := by
    rw [hlocalA]
    exact lowerHex_bundleFp _ _
  have hsender' : Hex.LowerHex c.record.peerBundleFp := by
    rw [hpeerC]
    exact lowerHex_bundleFp _ _
  intro haad
  have hparts := aad_injective (nulFree_of_lowerHex (hroomC ▸ lowerHex_roomId _ _ _))
    (nulFree_of_lowerHex (hroomA ▸ lowerHex_roomId _ _ _)) (nulFree_of_lowerHex hsender')
    (nulFree_of_lowerHex hsender) haad
  exact hne (by rw [hparts.1, hparts.2.1, hparts.2.2])

/-- The two ends of a pairing derive each other's keys, the peer reads a sent clip as it
was sent, and no other session reads it. -/
theorem sent_clip_read_by_peer_only (hprim : crates.prim.Lawful)
    (hwire : crates.wire.ReadsEnvelopes)
    (hab : a.record.peerBundle = b.identity.publicBundle crates.prim)
    (hba : b.record.peerBundle = a.identity.publicBundle crates.prim)
    (hcontributory : crates.prim.wasContributory (crates.prim.diffieHellman
      a.identity.dhSecret (b.identity.publicBundle crates.prim).dhPk)) :
    (∃ keysA keysB,
      a.identity.sessionKeys crates.prim (b.identity.publicBundle crates.prim) = .ok keysA ∧
      b.identity.sessionKeys crates.prim (a.identity.publicBundle crates.prim) = .ok keysB ∧
      keysA.send = keysB.recv ∧ keysA.recv = keysB.send) ∧
    ∀ (self self' : Session) (content : ClipContent) (tsMs : Int64) (w w' : World)
      (roomId ciphertextB64 originDevice : String) (mailbox : Bool), self.Opened a →
      Exec (SessionOp.exec crates) (self.sendClip crates content tsMs) w
        (.ok (.clip roomId ciphertextB64 originDevice mailbox), self') w' →
      (∃ id bytes, w'.sealedClips = w.sealedClips ++
          [(Session.envelope content id self.sendState.nextSeq tsMs, bytes)] ∧
        ∀ peer : Session, peer.Opened b → peer.authenticate crates roomId ciphertextB64 =
          some ⟨id, tsMs, self.sendState.nextSeq, content⟩) ∧
      (∀ reflected : Session, reflected.Opened a → ∀ mailbox nowMs,
        reflected.handleClip crates roomId ciphertextB64 mailbox nowMs =
          pure (.ok .unauthenticated, reflected)) ∧
      ∀ (c : Pairing crates.prim) (other : Session), other.Opened c →
        (c.record.roomId, c.record.peerBundleFp, c.record.localBundleFp) ≠
          (a.record.roomId, a.record.localBundleFp, a.record.peerBundleFp) →
        ∀ mailbox nowMs, other.handleClip crates roomId ciphertextB64 mailbox nowMs =
          pure (.ok .unauthenticated, other) := by
  obtain ⟨-, hlocal, hpeerFp, hdistinct, -⟩ := a.record_eq
  constructor
  · have hne : a.identity.bundleFp crates.prim ≠
        bundleFp crates.prim (b.identity.publicBundle crates.prim) := by
      rw [← hlocal, ← hab, ← hpeerFp]
      exact hdistinct
    obtain ⟨keysA, hkeysA⟩ := sessionKeys_isOk crates.prim hprim hne hcontributory
    have hswap := sessionKeys_swap crates.prim hprim b.identity a.identity
    rw [hkeysA] at hswap
    exact ⟨keysA, keysA.swap, hkeysA, hswap, rfl, rfl⟩
  · intro self self' content tsMs w w' roomId ciphertextB64 originDevice mailbox hself hexec
    obtain ⟨id, bytes, hclips, hframe, encoded, nonce, hencoded, hbytes⟩ :=
      (safe_sendClip_frame self content tsMs w).post hexec _ rfl
    cases hframe
    have hothers : ∀ (c : Pairing crates.prim) (other : Session), other.Opened c →
        (c.record.roomId, c.record.peerBundleFp, c.record.localBundleFp) ≠
          (a.record.roomId, a.record.localBundleFp, a.record.peerBundleFp) →
        ∀ mailbox nowMs, other.handleClip crates self.roomId (Base64.encode bytes) mailbox nowMs =
          pure (.ok .unauthenticated, other) := by
      intro c other hother hne mailbox nowMs
      refine handleClip_of_none (authenticate_other hprim other hbytes ?_ _) mailbox nowMs
      exact fun h => hself.aad_ne hother hne (Prod.mk.inj h).2
    refine ⟨⟨id, bytes, hclips, fun peer hpeer => ?_⟩, ?_, hothers⟩
    · obtain ⟨hroom, hsender, hreceiver⟩ := Pairing.names_eq hab hba
      have hroomId : peer.roomId = self.roomId := by
        rw [hpeer.roomId, hself.roomId, hroom]
      have hpeerName : peer.peerFp = self.selfFp := by
        rw [hpeer.peerFp, hself.selfFp, hsender]
      have hselfName : peer.selfFp = self.peerFp := by
        rw [hpeer.selfFp, hself.peerFp, hreceiver]
      have hbytes' : sealWith crates.prim peer.keys.recv (aad peer.roomId peer.peerFp peer.selfFp)
          encoded nonce = .ok bytes := by
        rw [Pairing.keys_eq hprim hab hba hself hpeer, hroomId, hpeerName, hselfName]
        exact hbytes
      rw [← hroomId]
      exact authenticate_sealed hprim hwire peer hencoded hbytes'
    · intro reflected hreflected
      refine hothers a reflected hreflected fun h => ?_
      exact hdistinct (Prod.mk.inj (Prod.mk.inj h).2).2

/-- A sample session sends a text and its peer reads it. -/
theorem sent_clip_read_by_sample_peer :
    ∃ (self peer : Session) (w w' : World) (roomId ciphertextB64 : String) (self' : Session)
      (id : Uuid), self.Opened Pairing.sample ∧ peer.Opened Pairing.samplePeer ∧
      Exec (SessionOp.exec Crates.sample) (self.sendClip Crates.sample (.text "a") 0) w
        (.ok (.clip roomId ciphertextB64 "" false), self') w' ∧
      peer.authenticate Crates.sample roomId ciphertextB64 = some ⟨id, 0, 1, .text "a"⟩ := by
  let w : World := ⟨⟨fun _ => none, fun _ => []⟩, [], [], []⟩
  obtain ⟨keys, hself⟩ := exists_session_sample .sample
  obtain ⟨peerKeys, hpeer⟩ := exists_session_sample .samplePeer
  have hself := hself w.fs fun _ => rfl
  have hpeer := hpeer w.fs fun _ => rfl
  obtain ⟨bytes, fs', hexec, -⟩ := hself.sendShort 0 (by decide)
    (by decide : (utf8Bytes "a").length ≤ 1000)
    (by decide : (1 : UInt64).toNat + 1 ≠ UInt64.size) nofun (by decide : 0 < historyCap)
  obtain ⟨id, bytes', -, hread⟩ := ((sent_clip_read_by_peer_only (a := .sample) (b := .samplePeer)
    Primitives.sample_lawful (Codec.readsEnvelopes_standard _ _) rfl rfl rfl).2 _ _ _ _ _ _ _ _ _ _
      hself.opened (exec_of_quietly hexec)).1
  exact ⟨_, _, _, _, _, _, _, id, hself.opened, hpeer.opened, exec_of_quietly hexec,
    hread _ hpeer.opened⟩

end Ends

end ClipSync
