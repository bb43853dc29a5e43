import ClipSync.Core.SessionInvariant
import ClipSync.Core.SessionOutline

/-!
# The calls of a session

Each call keeps the invariant of the endpoint at every access, and leaves a session
that its state on disk and in memory bound.
-/

namespace ClipSync

open Lib Program FsProgram SessionProgram SessionStore HistoryStore

section Specs

variable {crates : Crates} (pairing : Pairing crates.prim)

def Within (D : Option DirectionState → Prop) (w : World) : Prop :=
  Durable pairing w ∧ D (onDisk crates w.fs pairing.sendKey)

variable {pairing} {D : Option DirectionState → Prop} {w : World}

/-! ## Steps of a call -/

variable {fresh : Bool} {item : ClipItem} {fs : Fs Dir} {α : Type} {p : FsProgram Dir α}
  {failAt : Option ReceiveStage} {self : Session}

variable {state : DirectionState} {history : HistoryStore} {key : String} {Q : α → Fs Dir → Prop}

theorem fs_history (hw : Within pairing D { w with fs }) (hp : Keeps fs p Q) :
    Safe Fs.exec (fun fs' => Within pairing D { w with fs := fs' })
      (fun a fs' => Kept fs fs' ∧ Q a fs') p fs := by
  refine Safe.mono hp (fun fs' hkept => ⟨hw.1.kept hkept, ?_⟩) fun _ _ _ h => h
  rw [onDisk_of_kept hkept]
  exact hw.2

theorem fs_commitRecv (hkey : key = pairing.recvKey) (hw : Within pairing D { w with fs })
    (hcovers : Covers crates { w with fs } state)
    (hgeneration : state.identityGeneration = pairing.identity.generation) :
    Safe Fs.exec (fun fs' => Within pairing D { w with fs := fs' })
      (fun r fs' => Commits crates pairing.recvKey state fs fs' ∧
        (r = .ok () → onDisk crates fs' pairing.recvKey = some state))
      (commitDirection crates key state none) fs := by
  rw [hkey]
  refine (safe_commitDirection pairing.recvKey state fs).mono (fun fs' hcommits => ⟨?_, ?_⟩)
    fun _ _ hcommits h => ⟨hcommits, h⟩
  · exact hw.1.commitRecv hcommits hgeneration hcovers
  · rw [hcommits.others _ pairing.sendKey_ne_recvKey]
    exact hw.2

theorem safe_onFiles {R : α → Fs Dir → Prop}
    (hp : Safe Fs.exec (fun fs' => Within pairing D { w with fs := fs' }) R p w.fs) :
    Safe (SessionOp.exec crates) (Within pairing D)
      (fun a w' => ∃ fs', w' = { w with fs := fs' } ∧ R a fs') (files p) w :=
  safe_files hp (fun _ h => h) fun _ fs' _ h => ⟨fs', rfl, h⟩

theorem safe_history (hw : Within pairing D w) (hp : Keeps w.fs p Q) :
    Safe (SessionOp.exec crates) (Within pairing D)
      (fun a w' => ∃ fs', w' = { w with fs := fs' } ∧ Kept w.fs fs' ∧ Q a fs') (files p) w :=
  safe_onFiles (fs_history hw hp)

/-! ## Opening -/

def AllRecorded (crates : Crates) (w : World) : Prop :=
  ∀ id, w.Delivered id → InHistory crates.lines w.fs id

/-- A session may start from these parts once the rest of the pending entries is in the
history. -/
structure Recovers (pairing : Pairing crates.prim) (w : World)
    (sendState recvState : DirectionState)
    (history : HistoryStore) (rest : List PendingItem) : Prop where
  recorded : Recorded crates.lines w.fs history
  reserves : Reserves w sendState
  covers : Covers crates w { recvState with pendingHistory := rest }
  sendGeneration : sendState.identityGeneration = pairing.identity.generation
  recvGeneration : recvState.identityGeneration = pairing.identity.generation

variable {sendState recvState : DirectionState}

theorem Recovers.added {pending : PendingItem} {rest : List PendingItem} {store : HistoryStore}
    (h : Recovers pairing w sendState recvState store (pending :: rest))
    (hkept : Kept w.fs fs) (hrecorded : Recorded crates.lines fs history)
    (hadded : InHistory crates.lines fs pending.id) :
    Recovers pairing { w with fs } sendState recvState history rest := by
  refine { h with recorded := hrecorded, covers := ⟨h.covers.callbacks, fun id hid => ?_⟩ }
  rcases h.covers.delivered id hid with hin | ⟨other, hother, rfl⟩
  · exact .inl (hin.kept hkept)
  · rcases List.mem_cons.1 hother with rfl | hrest
    · exact .inl hadded
    · exact .inr ⟨other, hrest, rfl⟩

theorem Recovers.allRecorded (h : Recovers pairing w sendState recvState history []) :
    AllRecorded crates w := fun id hid => by
  rcases h.covers.delivered id hid with hin | ⟨pending, hpending, -⟩
  · exact hin
  · cases hpending

theorem Recovers.live (h : Recovers pairing w sendState recvState history []) {keys : SessionKeys}
    (hkeys : pairing.identity.sessionKeys crates.prim pairing.record.peerBundle = .ok keys) :
    (Session.opened pairing.record keys sendState { recvState with pendingHistory := [] }
      history).Live pairing w :=
  ⟨⟨rfl, rfl, rfl, hkeys, rfl, rfl, h.sendGeneration, h.recvGeneration⟩, h.recorded, h.covers,
    h.reserves⟩

/-- What holds of a session that is opened. -/
def OpenedLive (pairing : Pairing crates.prim) (r : Except SessionError Session) (w : World) :
    Prop :=
  ∀ session, r = .ok session → session.Live pairing w ∧ AllRecorded crates w

theorem openedLive_error (error : SessionError) : OpenedLive pairing (.error error) w := nofun

theorem openedLive_ok {session : Session} (hlive : session.Live pairing w)
    (hall : AllRecorded crates w) : OpenedLive pairing (.ok session) w := by
  rintro _ ⟨⟩
  exact ⟨hlive, hall⟩

theorem opens_live (pairing : Pairing crates.prim) (D : Option DirectionState → Prop) (w : World) :
    Session.Opens (.safe Fs.exec fun fs => Within pairing D { w with fs }) crates pairing.identity
      pairing.record (fun _ => True) (fun history fs => Recorded crates.lines fs history)
      (fun history state fs => Recorded crates.lines fs history ∧
        state = stored pairing fs pairing.sendKey)
      (fun sendState recvState history rest fs =>
        Recovers pairing { w with fs } sendState recvState history rest)
      (fun r fs => OpenedLive pairing r { w with fs }) where
  finish hw h := ⟨hw, h⟩
  create hw _ := by
    have hown : AllOps Own SessionStore.new := ⟨⟨trivial, trivial⟩, fun _ => trivial⟩
    exact (fs_history hw (Keeps.of_own hown _)).imp fun _ _ _ _ =>
      .intro (fun _ => trivial) openedLive_error
  list hw _ := (fs_history hw (keeps_new hw.1.isVersion)).imp fun r _ _ h => by
    cases r with
    | error e => exact openedLive_error _
    | ok history => exact h.2 history rfl
  refuse error _ := openedLive_error error
  loadSend {_ fs} hw hrecorded := by
    refine (safe_loadDirection _ _ fs).mono (fun _ h => h.symm ▸ hw) ?_
    rintro r _ rfl hsend
    cases r with
    | error e => exact openedLive_error _
    | ok sendState => exact ⟨hrecorded, hsend _ rfl⟩
  loadRecv {_ _ fs} hw := by
    rintro ⟨hrecorded, rfl⟩
    refine (safe_loadDirection _ _ fs).mono (fun _ h => h.symm ▸ hw) ?_
    rintro r _ rfl hrecv
    cases r with
    | error e => exact openedLive_error _
    | ok recvState =>
      cases hrecv _ rfl
      exact ⟨hrecorded, hw.1.reserves, hw.1.covers, generation_stored _ _ _,
        generation_stored _ _ _⟩
  add hw h := by
    refine (fs_history hw (keeps_add h.recorded hw.1.isVersion _)).imp ?_
    rintro ⟨r, history⟩ fs' - ⟨hkept, hrecorded, hadded⟩
    exact .intro (fun hok => h.added hkept hrecorded (hadded hok)) fun _ => openedLive_error _
  clear hw hkeys h := by
    refine (fs_commitRecv rfl hw h.covers h.recvGeneration).imp ?_
    rintro r fs' - ⟨hcommits, -⟩
    exact .intro (fun _ => openedLive_ok ((h.live hkeys).fs hcommits.grown)
      fun id hid => (h.allRecorded id hid).mono hcommits.grown) openedLive_error
  keep {_ recvState _ _ _} hkeys hempty h := by
    have hsame : { recvState with pendingHistory := [] } = recvState := by rw [← hempty]
    exact openedLive_ok (hsame ▸ h.live hkeys) h.allRecorded

theorem safe_openSession (hw : Within pairing D w) :
    Safe Fs.exec (fun fs => Within pairing D { w with fs })
      (fun r fs => OpenedLive pairing r { w with fs })
      (Session.openSession crates pairing.identity pairing.record) w.fs :=
  (opens_live pairing D w).openSession hw trivial

/-! ## Receiving -/

theorem Session.Live.registerText (h : self.Live pairing w) (content : ClipContent) :
    (self.registerText crates content).Live pairing w := by
  obtain ⟨hashes, heq⟩ := self.registerText_eq crates content
  rw [heq]
  exact ⟨{ h.opened with }, h.recorded, h.covers, h.reserves⟩

theorem Session.sendState_registerText (self : Session) (content : ClipContent) :
    (self.registerText crates content).sendState = self.sendState := by
  obtain ⟨hashes, heq⟩ := self.registerText_eq crates content
  rw [heq]

def Received (pairing : Pairing crates.prim) (self self' : Session) (w : World) : Prop :=
  self'.Live pairing w ∧ self'.sendState = self.sendState

theorem Received.registerText {self' : Session} (h : Received pairing self self' w)
    (content : ClipContent) : Received pairing self (self'.registerText crates content) w :=
  ⟨h.1.registerText content, (self'.sendState_registerText content).trans h.2⟩

theorem Received.withHistory {self' : Session} (h : Received pairing self self' w)
    (hkept : Kept w.fs fs) (hrecorded : Recorded crates.lines fs history) :
    Received pairing self { self' with history } { w with fs } :=
  ⟨h.1.withHistory hkept hrecorded, h.2⟩

/-- The callback of an item is still to come. -/
def Uncalled (item : ClipItem) (self : Session) (w : World) : Prop :=
  item.seq ≤ self.recvState.lastSeq ∧ ∀ event ∈ w.callbacks, event.item.seq < item.seq

/-- What holds at the stages of a delivery. -/
def Passed (pairing : Pairing crates.prim) (item : ClipItem) (self : Session) :
    ReceiveStage → World → Prop
  | .deliveryCommitted, w => Uncalled item self w ∧
    onDisk crates w.fs pairing.recvKey = some self.recvState ∧
    ∃ pending ∈ self.recvState.pendingHistory, pending.id = item.id
  | .historyAdded, w => Uncalled item self w ∧ InHistory crates.lines w.fs item.id
  | .pendingCleared, w => Uncalled item self w ∧
    onDisk crates w.fs pairing.recvKey = some self.recvState
  | .mailboxApplied, _ | .sourcePromoted, _ => True

theorem Passed.pending (h : Passed pairing item self .deliveryCommitted w)
    (hself : self.Live pairing w) :
    (∃ pending ∈ (stored pairing w.fs pairing.recvKey).pendingHistory, pending.id = item.id) ∧
      ∃ pending ∈ self.recvState.pendingHistory, pending.id = item.id := by
  obtain ⟨-, hdisk, hpending⟩ := h
  have hstored : stored pairing w.fs pairing.recvKey = self.recvState := by
    rw [stored, hdisk]
    exact if_pos hself.opened.recvGeneration
  rw [hstored]
  exact ⟨hpending, hpending⟩

theorem safe_reached {self' : Session} {stage : ReceiveStage} (hw : Within pairing D w)
    (h : Received pairing self self' w) (hpassed : Passed pairing item self' stage w) :
    Safe (SessionOp.exec crates) (Within pairing D)
      (fun _ w' => Received pairing self self' w' ∧ Passed pairing item self' stage w')
      (perform (.reached stage item.id : SessionOp)) w := by
  refine ⟨hw, ?_⟩
  rintro _ _ rfl
  refine ⟨⟨hw.1.stage stage item.id ?_, hw.2⟩, ⟨h.1.stage stage item.id ?_, h.2⟩, ?_⟩
  · rintro rfl
    exact .inr (hpassed.pending h.1).1
  · rintro rfl
    exact .inr (hpassed.pending h.1).2
  · cases stage <;> exact hpassed

theorem safe_callback {self' : Session} (mailbox : Bool) (hw : Within pairing D w)
    (h : Received pairing self self' w) (hpassed : Passed pairing item self' .pendingCleared w) :
    Safe (SessionOp.exec crates) (Within pairing D) (fun _ w' => Received pairing self self' w')
      (perform (.callback item mailbox : SessionOp)) w := by
  obtain ⟨⟨hlast, hnew⟩, hdisk⟩ := hpassed
  refine ⟨hw, ?_⟩
  rintro r _ rfl
  refine ⟨⟨hw.1.callback mailbox hdisk h.1.opened.recvGeneration hlast hnew, hw.2⟩,
    ⟨h.1.opened, h.1.recorded, ⟨?_, h.1.covers.delivered⟩, h.1.reserves⟩, h.2⟩
  intro event hevent
  rcases List.mem_append.1 hevent with hold | hcalled
  · exact h.1.covers.callbacks event hold
  · rw [List.mem_singleton.1 hcalled]
    exact hlast

theorem receives_live (D : Option DirectionState → Prop) (self : Session) (item : ClipItem)
    (fresh : Bool) (failAt : Option ReceiveStage) :
    Session.Receives (.safe (SessionOp.exec crates) (Within pairing D)) crates item fresh failAt
      (fun stage self' w => Received pairing self self' w ∧ Passed pairing item self' stage w)
      (fun _ self' w => Received pairing self self' w) where
  finish hw h := ⟨hw, h⟩
  mark hw h := safe_reached hw h.1 h.2
  fault _ h := h.1
  add hw h := by
    refine (safe_history hw (keeps_add h.1.1.recorded hw.1.isVersion _)).imp ?_
    rintro ⟨r, history⟩ _ - ⟨fs₁, rfl, hkept, hrecorded, hadded⟩
    have hself := h.1.withHistory hkept hrecorded
    exact .intro (fun hok => ⟨hself, h.2.1, hadded hok⟩) fun _ => hself
  clear hw h := by
    obtain ⟨hself, huncalled, hin⟩ := h
    have hcleared := hself.1.covers.cleared hin
    refine (safe_onFiles (fs_commitRecv hself.1.opened.recvKey hw hcleared
      hself.1.opened.recvGeneration)).imp ?_
    rintro r _ - ⟨fs₁, rfl, hcommits, hdisk⟩
    have hself₁ := hself.1.fs hcommits.grown
    refine .intro (fun hok => ⟨⟨?_, hself.2⟩, huncalled, hdisk hok⟩) fun _ => ⟨hself₁, hself.2⟩
    exact ⟨{ hself.1.opened with }, hself₁.recorded, hcleared.fs hcommits.grown, hself₁.reserves⟩
  callback hw h := (safe_callback _ hw h.1 h.2).imp fun r _ _ hself =>
    .intro crates ⟨hself, trivial⟩ hself (fun _ => hself) (hself.registerText _) r
  promote hw h := by
    refine (safe_history hw (keeps_setSource h.1.1.recorded hw.1.isVersion _ _)).imp ?_
    rintro ⟨r, history⟩ _ - ⟨fs₁, rfl, hkept, hrecorded⟩
    have hself := h.1.withHistory hkept hrecorded
    exact .intro (fun _ => ⟨hself, trivial⟩) fun _ => hself
  applied h := h.1.registerText _

theorem safe_deliverClip (hw : Within pairing D w) (hself : self.Live pairing w)
    (hnew : self.recvState.lastSeq < item.seq) :
    Safe (SessionOp.exec crates) (Within pairing D)
      (fun (_, self') w' => Received pairing self self' w')
      (self.deliverClip crates item fresh failAt) w := by
  have hcovers := hself.covers.delivered_item item (Session.sourceOf fresh)
  refine (receives_live D self item fresh failAt).deliverClip hw ((safe_onFiles (fs_commitRecv
    hself.opened.recvKey hw hcovers hself.opened.recvGeneration)).imp ?_)
  rintro r _ - ⟨fs₁, rfl, hcommits, hdisk⟩
  have hself₁ := hself.fs hcommits.grown
  refine .intro (fun hok => ⟨⟨?_, rfl⟩, ⟨(lastSeq_delivered _ _ _).2, fun event hevent => ?_⟩,
    hdisk hok, ⟨item.id, item.tsMs, Session.sourceOf fresh, item.content⟩, ?_, rfl⟩)
    fun _ => ⟨hself₁, rfl⟩
  · exact ⟨{ hself.opened with }, hself₁.recorded, hcovers.fs hcommits.grown, hself₁.reserves⟩
  · exact UInt64.lt_of_le_of_lt (hself.covers.callbacks event hevent) hnew
  · simp [Session.delivered]

theorem safe_handleClip (roomId ciphertextB64 : String) (mailbox : Bool) (nowMs : Int64)
    (failAt : Option ReceiveStage) (hw : Within pairing D w) (hself : self.Live pairing w) :
    Safe (SessionOp.exec crates) (Within pairing D)
      (fun (_, self') w' => Received pairing self self' w')
      (self.handleClipWithFault crates roomId ciphertextB64 mailbox nowMs failAt) w := by
  rcases self.handleClip_cases crates roomId ciphertextB64 mailbox nowMs failAt with
    ⟨_, hrefused, -⟩ | ⟨item, -, hnew, -, hdelivered⟩
  · rw [hrefused]
    exact ⟨hw, hself, rfl⟩
  · rw [hdelivered]
    exact safe_deliverClip hw hself hnew

/-! ## Sending -/

def frameOf (pairing : Pairing crates.prim) (clip : Envelope × Bytes) : Frame :=
  .clip pairing.record.roomId (Base64.encode clip.2) "" false

def Sent (pairing : Pairing crates.prim) (w : World) (r : Except SessionError Frame)
    (self' : Session) (w' : World) : Prop :=
  self'.Live pairing w' ∧ ∀ frame, r = .ok frame →
    ∃ clip, w'.sealedClips = w.sealedClips ++ [clip] ∧ frame = frameOf pairing clip

theorem safe_commitSend (hkey : key = pairing.sendKey) (hw : Durable pairing w)
    (hreserves : Reserves w state)
    (hgeneration : state.identityGeneration = pairing.identity.generation) :
    Safe (SessionOp.exec crates) (Durable pairing)
      (fun r w' => ∃ fs', w' = { w with fs := fs' } ∧
        Commits crates pairing.sendKey state w.fs fs' ∧
        (r = .ok () → onDisk crates fs' pairing.sendKey = some state))
      (files (commitDirection crates key state none)) w := by
  rw [hkey]
  exact safe_files (safe_commitDirection pairing.sendKey state w.fs)
    (fun _ hcommits => hw.commitSend hcommits hgeneration hreserves)
    fun _ fs' hcommits h => ⟨fs', rfl, hcommits, h⟩

theorem nextSeq_lt (hsize : state.nextSeq.toNat + 1 ≠ UInt64.size) :
    state.nextSeq < state.nextSeq + 1 := by
  have hbound := state.nextSeq.toNat_lt_size
  have hsum : (state.nextSeq + 1).toNat = state.nextSeq.toNat + 1 := by
    rw [UInt64.toNat_add]
    exact Nat.mod_eq_of_lt (lt_of_le_of_ne hbound hsize)
  rw [UInt64.lt_iff_toNat_lt, hsum]
  exact Nat.lt_succ_self _

/-- The number of a clip is reserved in memory and on disk, and not used. -/
structure Reserved (pairing : Pairing crates.prim) (before : World) (session : Session)
    (w : World) :
    Prop where
  live : session.reserved.Live pairing w
  clips : w.sealedClips = before.sealedClips
  unused : Reserves w session.sendState
  next : session.sendState.nextSeq < session.reserved.sendState.nextSeq
  onDisk : session.sendState.nextSeq < (stored pairing w.fs pairing.sendKey).nextSeq

/-- The clip is sealed. -/
def SealedClip (pairing : Pairing crates.prim) (before : World) (self : Session)
    (content : ClipContent) (tsMs : Int64) (id : Uuid) (bytes : Bytes) (w : World) : Prop :=
  Durable pairing w ∧ self.reserved.Live pairing w ∧ w.sealedClips = before.sealedClips ++
    [(Session.envelope content id self.sendState.nextSeq tsMs, bytes)]

theorem safe_reserve {before : World} (hw : Durable pairing w) (hself : self.Live pairing w)
    (hclips : w.sealedClips = before.sealedClips)
    (hsize : self.sendState.nextSeq.toNat + 1 ≠ UInt64.size) :
    Safe (SessionOp.exec crates) (Durable pairing)
      (fun r w' => After (Reserved pairing before self w')
        (fun error => Sent pairing before (.error error) self w') r)
      (files (commitDirection crates self.sendKey self.reserved.sendState none)) w := by
  have hnext := nextSeq_lt hsize
  have hreserves : Reserves w self.reserved.sendState :=
    fun old hold => UInt64.lt_trans (hself.reserves old hold) hnext
  refine (safe_commitSend hself.opened.sendKey hw hreserves hself.opened.sendGeneration).imp ?_
  rintro r _ - ⟨fs₁, rfl, hcommits, hdisk⟩
  have hself₁ := hself.fs hcommits.grown
  refine .intro (fun hok => ⟨⟨{ hself.opened with }, hself₁.recorded, hself₁.covers, hreserves⟩,
    hclips, hself.reserves, hnext, ?_⟩) fun error => ⟨hself₁, nofun⟩
  have hstored : stored pairing fs₁ pairing.sendKey = self.reserved.sendState := by
    rw [stored, hdisk hok]
    exact if_pos hself.opened.sendGeneration
  rw [hstored]
  exact hnext

theorem safe_encrypt {before : World} {content : ClipContent} {tsMs : Int64} {id : Uuid}
    {encoded : Bytes} (hw : Durable pairing w) (h : Reserved pairing before self w)
    (hencoded : encodeEnvelope crates.wire
      (Session.envelope content id self.sendState.nextSeq tsMs) = .ok encoded) :
    Safe (SessionOp.exec crates) (Durable pairing)
      (fun r w' => match r with
        | .ok bytes => SealedClip pairing before self content tsMs id bytes w'
        | .error _ => Reserved pairing before self w')
      (perform (.sealMessage (Session.envelope content id self.sendState.nextSeq tsMs)
        self.keys.send (aad self.roomId self.selfFp self.peerFp) encoded : SessionOp)) w := by
  refine ⟨hw, fun r w₁ hseal => ?_⟩
  cases r with
  | error e =>
    cases hseal
    exact ⟨hw, h⟩
  | ok bytes =>
    obtain ⟨⟨nonce, hbytes⟩, rfl⟩ := hseal
    have hclip : IsSealed pairing
        (Session.envelope content id self.sendState.nextSeq tsMs, bytes) := by
      refine ⟨self.keys, encoded, nonce, h.live.opened.keys, hencoded, ?_⟩
      rw [← h.live.opened.roomId, ← h.live.opened.selfFp, ← h.live.opened.peerFp]
      exact hbytes
    have hw₁ := hw.sealed hclip h.unused h.onDisk
    exact ⟨hw₁, hw₁, h.live.sealed h.next, by rw [← h.clips]⟩

theorem sends_live (before : World) (self : Session) (content : ClipContent) (tsMs : Int64) :
    Session.Sends (.safe (SessionOp.exec crates) (Durable pairing)) crates self content tsMs
      (fun w => self.Live pairing w ∧ w.sealedClips = before.sealedClips)
      (Reserved pairing before self) (SealedClip pairing before self content tsMs)
      (Sent pairing before) where
  finish hw h := ⟨hw, h⟩
  reject h error := ⟨h.1, nofun⟩
  reserve hw h _ hsize := safe_reserve hw h.1 h.2 hsize
  refuse _ h := ⟨h.live, nofun⟩
  draw hw h := ⟨hw, fun _ _ hexec => ⟨hexec.2 ▸ hw, hexec.2 ▸ h⟩⟩
  encrypt hw h hencoded := safe_encrypt hw h hencoded
  add hw h := by
    obtain ⟨-, hself, hclips⟩ := h
    have hwithin : Within pairing (fun _ => True) _ := ⟨hw, trivial⟩
    refine (safe_history hwithin (keeps_add hself.recorded hwithin.1.isVersion _)).mono (fun _ h =>
      h.1) ?_
    rintro ⟨r, history⟩ _ - ⟨fs₂, rfl, hkept, hrecorded, -⟩
    have hself₂ := hself.withHistory hkept hrecorded
    refine .intro (fun _ => ⟨hself₂.registerText content, ?_⟩) fun _ => ⟨hself₂, nofun⟩
    rintro frame ⟨⟩
    exact ⟨_, hclips, by rw [frameOf, ← hself.opened.roomId]; rfl⟩

theorem safe_sendClip (content : ClipContent) (tsMs : Int64) (failAt : Option SendStage)
    (hw : Durable pairing w) (hself : self.Live pairing w) :
    Safe (SessionOp.exec crates) (Durable pairing) (fun (r, self') w' => Sent pairing w r self' w')
      (self.sendClipWithFault crates content tsMs failAt) w :=
  (sends_live w self content tsMs).sendClip failAt hw ⟨hself, rfl⟩

/-! ## The other calls -/

theorem safe_applyDeferred (id : Uuid) (hw : Within pairing D w) (hself : self.Live pairing w) :
    Safe (SessionOp.exec crates) (Within pairing D) (fun (_, self') w' => self'.Live pairing w')
      (self.applyDeferred crates id) w := by
  refine Safe.bind (safe_history hw (keeps_setSource hself.recorded hw.1.isVersion _ _)) ?_
  rintro ⟨r, history⟩ _ hw₁ ⟨fs₁, rfl, hkept, hrecorded⟩
  have hself₁ := hself.withHistory hkept hrecorded
  cases r with
  | error e => exact ⟨hw₁, hself₁⟩
  | ok u =>
  dsimp only
  split
  · exact ⟨hw₁, hself₁.registerText (.text _)⟩
  · exact ⟨hw₁, hself₁⟩

theorem safe_clearHistory (hw : Within pairing D w) (hself : self.Live pairing w) :
    Safe (SessionOp.exec crates) (Within pairing D) (fun (_, self') w' => self'.Live pairing w')
      (self.clearHistory crates) w := by
  refine Safe.bind (safe_history hw (keeps_clear hself.recorded hw.1.isVersion)) ?_
  rintro ⟨r, history⟩ _ hw₁ ⟨fs₁, rfl, hkept, hrecorded⟩
  exact ⟨hw₁, hself.withHistory hkept hrecorded⟩

end Specs

end ClipSync
