import ClipSync.Core.Session
import ClipSync.Lib.Logic

/-!
# The calls of a session, step by step

What a call does to its session and to the world depends on its accesses alone, and on
where it may end. For each call of a session the accesses are listed once, with what is to
be shown of each; what is true at the end of the call then follows in any logic.
-/

namespace ClipSync

open Lib Program SessionProgram SessionStore

variable {σ : Type}

namespace Session

section Calls

variable (L : Logic SessionOp SessionOp.Res σ) (crates : Crates)

/-! ## Receiving -/

/-- Where a clip goes on after its callback. -/
def Called (item : ClipItem) (fresh : Bool) (At : ReceiveStage → Session → σ → Prop)
    (End : Except SessionError InboundOutcome → Session → σ → Prop) (self : Session)
    (r : Except CallbackError MailboxDisposition) (s : σ) : Prop :=
  match r, fresh with
  | .error error, _ => End (.error (.callback error)) self s
  | .ok _, true => End (.ok .liveApplied) (self.registerText crates item.content) s
  | .ok .deferred, false => End (.ok .mailboxDeferred) self s
  | .ok .applied, false => At .mailboxApplied self s

theorem Called.intro {item : ClipItem} {fresh : Bool} {At : ReceiveStage → Session → σ → Prop}
    {End : Except SessionError InboundOutcome → Session → σ → Prop} {self : Session} {s : σ}
    (hat : At .mailboxApplied self s) (hdeferred : End (.ok .mailboxDeferred) self s)
    (herror : ∀ error, End (.error error) self s)
    (hlive : End (.ok .liveApplied) (self.registerText crates item.content) s)
    (r : Except CallbackError MailboxDisposition) : Called crates item fresh At End self r s := by
  unfold Called
  split
  · exact herror _
  · exact hlive
  · exact hdeferred
  · exact hat

/-- A delivered clip passes its stages at sessions and states for which `At` holds, and
ends with `End`. -/
structure Receives (item : ClipItem) (fresh : Bool) (failAt : Option ReceiveStage)
    (At : ReceiveStage → Session → σ → Prop)
    (End : Except SessionError InboundOutcome → Session → σ → Prop) : Prop where
  finish : ∀ {r self s}, L.Inv s → End r self s →
    L.Triple (fun x s' => End x.1 x.2 s') (.done (r, self)) s
  mark : ∀ {stage self s}, L.Inv s → At stage self s →
    L.Triple (fun _ s' => At stage self s') (perform (.reached stage item.id : SessionOp)) s
  fault : ∀ {stage self s}, failAt = some stage → At stage self s →
    End (.error .injectedFault) self s
  add : ∀ {self s}, L.Inv s → At .deliveryCommitted self s →
    L.Triple (fun r s' => After (At .historyAdded { self with history := r.2 } s')
        (fun error => End (.error (.history error)) { self with history := r.2 } s') r.1)
      (files (self.history.add crates.lines
        ⟨item.id, item.tsMs, sourceOf fresh, historyContent item.content⟩)) s
  clear : ∀ {self s}, L.Inv s → At .historyAdded self s →
    L.Triple (fun r s' => After
        (At .pendingCleared { self with recvState := cleared self.recvState item.id } s')
        (fun error => End (.error error) self s') r)
      (files (commitDirection crates self.recvKey (cleared self.recvState item.id) none)) s
  callback : ∀ {self s}, L.Inv s → At .pendingCleared self s →
    L.Triple (Called crates item fresh At End self)
      (perform (.callback item (!fresh) : SessionOp)) s
  promote : ∀ {self s}, L.Inv s → At .mailboxApplied self s →
    L.Triple (fun r s' => After (At .sourcePromoted { self with history := r.2 } s')
        (fun error => End (.error (.history error)) { self with history := r.2 } s') r.1)
      (files (self.history.setSource crates.lines item.id .remote)) s
  applied : ∀ {self s}, At .sourcePromoted self s →
    End (.ok .mailboxApplied) (self.registerText crates item.content) s

variable {L crates} {item : ClipItem} {fresh : Bool} {failAt : Option ReceiveStage}
  {At : ReceiveStage → Session → σ → Prop}
  {End : Except SessionError InboundOutcome → Session → σ → Prop} {self : Session} {s : σ}

namespace Receives

/-- A stage is passed, or the call ends there. -/
theorem checkpoint (h : Receives L crates item fresh failAt At End) {stage : ReceiveStage}
    {rest : SessionProgram (Except SessionError InboundOutcome × Session)}
    (hs : L.Inv s) (hat : At stage self s)
    (hrest : ∀ s', L.Inv s' → At stage self s' →
      L.Triple (fun x s'' => End x.1 x.2 s'') rest s') :
    L.Triple (fun x s' => End x.1 x.2 s') (do
      if ← checkpoint failAt stage item.id then return (.error .injectedFault, self)
      else rest) s := by
  change L.Triple _ (perform (.reached stage item.id : SessionOp) >>= fun _ =>
    if decide (failAt = some stage) = true then _ else _) s
  refine L.bind hs (h.mark hs hat) fun _ s₁ hs₁ hat₁ => ?_
  split
  · rename_i hfault
    exact h.finish hs₁ (h.fault (of_decide_eq_true hfault) hat₁)
  · exact hrest s₁ hs₁ hat₁

theorem applyClip (h : Receives L crates item fresh failAt At End) (hs : L.Inv s)
    (hat : At .pendingCleared self s) :
    L.Triple (fun x s' => End x.1 x.2 s') (self.applyClip crates item fresh failAt) s := by
  have hcallback := h.callback hs hat
  unfold Session.applyClip
  cases fresh with
  | true =>
    refine L.bind hs hcallback fun r s₁ hs₁ hcalled => ?_
    cases r with
    | error e | ok d => exact h.finish hs₁ hcalled
  | false =>
    refine L.bind hs hcallback fun r s₁ hs₁ hcalled => ?_
    match r with
    | .error e => exact h.finish hs₁ hcalled
    | .ok .deferred => exact h.finish hs₁ hcalled
    | .ok .applied =>
      refine h.checkpoint hs₁ hcalled fun s₂ hs₂ hat₂ => ?_
      refine L.bind hs₂ (h.promote hs₂ hat₂) ?_
      rintro ⟨r, history⟩ s₃ hs₃ hafter
      cases r with
      | error e => exact h.finish hs₃ hafter
      | ok u => exact h.checkpoint hs₃ hafter fun s₄ hs₄ hat₄ => h.finish hs₄ (h.applied hat₄)

theorem recordClip (h : Receives L crates item fresh failAt At End) (hs : L.Inv s)
    (hat : At .deliveryCommitted self s) :
    L.Triple (fun x s' => End x.1 x.2 s') (self.recordClip crates item fresh failAt) s := by
  refine L.bind hs (h.add hs hat) ?_
  rintro ⟨r, history⟩ s₁ hs₁ hafter
  cases r with
  | error e => exact h.finish hs₁ hafter
  | ok u =>
  refine h.checkpoint hs₁ hafter fun s₂ hs₂ hat₂ => ?_
  refine L.bind hs₂ (h.clear hs₂ hat₂) fun r s₃ hs₃ hafter₃ => ?_
  cases r with
  | error e => exact h.finish hs₃ hafter₃
  | ok u => exact h.checkpoint hs₃ hafter₃ fun s₄ hs₄ hat₄ => h.applyClip hs₄ hat₄

theorem deliverClip (h : Receives L crates item fresh failAt At End) (hs : L.Inv s)
    (hcommit : L.Triple (fun r s' => After
        (At .deliveryCommitted { self with
          recvState := delivered self.recvState item (sourceOf fresh) } s')
        (fun error => End (.error error) self s') r)
      (files (commitDirection crates self.recvKey
        (delivered self.recvState item (sourceOf fresh)) none)) s) :
    L.Triple (fun x s' => End x.1 x.2 s') (self.deliverClip crates item fresh failAt) s := by
  refine L.bind hs hcommit fun r s₁ hs₁ hafter => ?_
  cases r with
  | error e => exact h.finish hs₁ hafter
  | ok u => exact h.checkpoint hs₁ hafter fun s₂ hs₂ hat₂ => h.recordClip hs₂ hat₂

end Receives

/-- A clip that is handled is refused or delivered. -/
theorem handleClip_cases (crates : Crates) (self : Session) (roomId ciphertextB64 : String)
    (mailbox : Bool) (nowMs : Int64) (failAt : Option ReceiveStage) :
    (∃ outcome, self.handleClipWithFault crates roomId ciphertextB64 mailbox nowMs failAt =
        .done (.ok outcome, self) ∧ outcome ∈ [.unauthenticated, .duplicate, .replay]) ∨
      ∃ item, self.authenticate crates roomId ciphertextB64 = some item ∧
        self.recvState.lastSeq < item.seq ∧ ¬ self.recvState.seenIds.contains item.id.toText ∧
        self.handleClipWithFault crates roomId ciphertextB64 mailbox nowMs failAt =
          self.deliverClip crates item (isFresh item mailbox nowMs) failAt := by
  unfold handleClipWithFault
  split
  · exact .inl ⟨_, rfl, by simp⟩
  rename_i item hauthentic
  split
  · exact .inl ⟨_, rfl, by simp⟩
  split
  · exact .inl ⟨_, rfl, by simp⟩
  · exact .inr ⟨item, hauthentic, UInt64.not_le.1 ‹_›, ‹_›, rfl⟩

/-! ## Sending -/

/-- The session once the number of a clip is reserved. -/
def reserved (self : Session) : Session :=
  { self with sendState := { self.sendState with nextSeq := self.sendState.nextSeq + 1 } }

variable (L crates)

/-- A clip is sent from a state for which `Start` holds, then `Reserved`, then `Sealed`, and
the call ends with `End`. -/
structure Sends (session : Session) (content : ClipContent) (tsMs : Int64)
    (Start Reserved : σ → Prop) (Sealed : Uuid → Bytes → σ → Prop)
    (End : Except SessionError Frame → Session → σ → Prop) : Prop where
  finish : ∀ {r self s}, L.Inv s → End r self s →
    L.Triple (fun x s' => End x.1 x.2 s') (.done (r, self)) s
  reject : ∀ {s}, Start s → ∀ error, End (.error error) session s
  reserve : ∀ {s}, L.Inv s → Start s → oversizeImage content = none →
    session.sendState.nextSeq.toNat + 1 ≠ UInt64.size →
    L.Triple (fun r s' => After (Reserved s') (fun error => End (.error error) session s') r)
      (files (commitDirection crates session.sendKey session.reserved.sendState none)) s
  refuse : ∀ {s} error, Reserved s → End (.error error) session.reserved s
  draw : ∀ {s}, L.Inv s → Reserved s →
    L.Triple (fun _ s' => Reserved s') (perform (.newV4 : SessionOp)) s
  encrypt : ∀ {s id encoded}, L.Inv s → Reserved s →
    encodeEnvelope crates.wire (envelope content id session.sendState.nextSeq tsMs) = .ok encoded →
    L.Triple (fun r s' => match r with
        | .ok bytes => Sealed id bytes s'
        | .error _ => Reserved s')
      (perform (.sealMessage (envelope content id session.sendState.nextSeq tsMs) session.keys.send
        (aad session.roomId session.selfFp session.peerFp) encoded : SessionOp)) s
  add : ∀ {s id bytes}, L.Inv s → Sealed id bytes s →
    L.Triple (fun r s' => After
        (End (.ok (.clip session.roomId (Base64.encode bytes) "" false))
          ({ session.reserved with history := r.2 }.registerText crates content) s')
        (fun error => End (.error (.history error)) { session.reserved with history := r.2 } s')
          r.1)
      (files (session.history.add crates.lines ⟨id, tsMs, .local', historyContent content⟩)) s

variable {L crates} {content : ClipContent} {tsMs : Int64}
  {Start Reserved : σ → Prop} {Sealed : Uuid → Bytes → σ → Prop}
  {End : Except SessionError Frame → Session → σ → Prop}

theorem Sends.sealClip (h : Sends L crates self content tsMs Start Reserved Sealed End)
    (hs : L.Inv s)
    (hreserved : Reserved s) :
    L.Triple (fun x s' => End x.1 x.2 s')
      (self.reserved.sealClip crates content tsMs self.sendState.nextSeq) s := by
  refine L.bind hs (h.draw hs hreserved) fun id s₁ hs₁ hreserved₁ => ?_
  dsimp only
  split
  · exact h.finish hs₁ (h.refuse _ hreserved₁)
  refine L.bind hs₁ (h.encrypt hs₁ hreserved₁ ‹_›) fun r s₂ hs₂ hsealed => ?_
  cases r with
  | error e => exact h.finish hs₂ (h.refuse _ hsealed)
  | ok bytes =>
  refine L.bind hs₂ (h.add hs₂ hsealed) ?_
  rintro ⟨r, history⟩ s₃ hs₃ hafter
  cases r with
  | error e => exact h.finish hs₃ hafter
  | ok u => exact h.finish hs₃ hafter

theorem Sends.sendClip (h : Sends L crates self content tsMs Start Reserved Sealed End)
    (failAt : Option SendStage) (hs : L.Inv s) (hstart : Start s) :
    L.Triple (fun x s' => End x.1 x.2 s') (self.sendClipWithFault crates content tsMs failAt)
      s := by
  unfold sendClipWithFault
  split
  · exact h.finish hs (h.reject hstart _)
  dsimp only
  split
  · exact h.finish hs (h.reject hstart _)
  refine L.bind hs (h.reserve hs hstart ‹_› ‹_›) fun r s₁ hs₁ hafter => ?_
  cases r with
  | error e => exact h.finish hs₁ hafter
  | ok u =>
  change L.Triple _ (if failAt = some .seqReserved then _ else _) _
  split
  · exact h.finish hs₁ (h.refuse _ hafter)
  · exact h.sealClip hs₁ hafter

end Calls

/-! ## Opening -/

theorem files_bind {α β : Type} (p : FsProgram Dir α) (f : α → FsProgram Dir β) :
    files (p >>= f) = files p >>= fun a => files (f a) :=
  lift_bind _ p f

theorem safe_files_of {α : Type} {exec : (op : SessionOp) → σ → op.Res → σ → Prop} {I : σ → Prop}
    {Q : α → σ → Prop} {p : FsProgram Dir α} {s : σ} (hp : Safe (fun op => exec (.fs op)) I Q p s) :
    Safe exec I Q (files p) s := by
  induction p generalizing s with
  | done a => exact hp
  | call op k ih => exact ⟨hp.1, fun r s' hexec => ih r (hp.2 r s' hexec)⟩

/-- The triples of a session for programs that only access files. -/
abbrev onFiles (L : Logic SessionOp SessionOp.Res σ) : Logic (FsOp Dir) FsOp.Res σ where
  Inv := L.Inv
  Triple Q p := L.Triple Q (files p)
  bind hs hp hf := by
    rw [files_bind]
    exact L.bind hs hp hf

section Opening

variable (L : Logic (FsOp Dir) FsOp.Res σ) (crates : Crates)

/-- The session of a record, from the parts it is opened with. -/
def opened (record : PairingRecord) (keys : SessionKeys) (sendState recvState : DirectionState)
    (history : HistoryStore) : Session where
  roomId := record.roomId
  selfFp := record.localBundleFp
  peerFp := record.peerBundleFp
  keys := keys
  sendKey := directionKey record.roomId record.localBundleFp record.peerBundleFp
  recvKey := directionKey record.roomId record.peerBundleFp record.localBundleFp
  sendState := sendState
  recvState := recvState
  history := history
  echoHashes := []

/-- A session is opened from a history for which `Listed` holds and directions for which
`Loaded` holds, with the entries of the history still to be replayed. -/
structure Opens (identity : Identity) (record : PairingRecord) (Base : σ → Prop)
    (Listed : HistoryStore → σ → Prop) (Sent : HistoryStore → DirectionState → σ → Prop)
    (Loaded : DirectionState → DirectionState → HistoryStore → List PendingItem → σ → Prop)
    (End : Except SessionError Session → σ → Prop) : Prop where
  finish : ∀ {r s}, L.Inv s → End r s → L.Triple End (.done r) s
  create : ∀ {s}, L.Inv s → Base s →
    L.Triple (fun r s' => After (Base s') (fun error => End (.error error) s') r)
      SessionStore.new s
  list : ∀ {s}, L.Inv s → Base s →
    L.Triple (fun r s' => match r with
        | .ok history => Listed history s'
        | .error error => End (.error (.history error)) s')
      (HistoryStore.new crates.lines) s
  refuse : ∀ {history s} error, Listed history s → End (.error error) s
  loadSend : ∀ {history s}, L.Inv s → Listed history s →
    L.Triple (fun r s' => match r with
        | .ok sendState => Sent history sendState s'
        | .error error => End (.error error) s')
      (loadDirection crates (directionKey record.roomId record.localBundleFp record.peerBundleFp)
        identity.generation) s
  loadRecv : ∀ {history sendState s}, L.Inv s → Sent history sendState s →
    L.Triple (fun r s' => match r with
        | .ok recvState => Loaded sendState recvState history recvState.pendingHistory s'
        | .error error => End (.error error) s')
      (loadDirection crates (directionKey record.roomId record.peerBundleFp record.localBundleFp)
        identity.generation) s
  add : ∀ {sendState recvState history pending rest s}, L.Inv s →
    Loaded sendState recvState history (pending :: rest) s →
    L.Triple (fun r s' => After (Loaded sendState recvState r.2 rest s')
        (fun error => End (.error (.history error)) s') r.1)
      (history.add crates.lines pending.newHistoryItem) s
  clear : ∀ {sendState recvState history keys s}, L.Inv s →
    identity.sessionKeys crates.prim record.peerBundle = .ok keys →
    Loaded sendState recvState history [] s →
    L.Triple (fun r s' => After
        (End (.ok (opened record keys sendState { recvState with pendingHistory := [] } history))
          s')
        (fun error => End (.error error) s') r)
      (commitDirection crates
        (directionKey record.roomId record.peerBundleFp record.localBundleFp)
        { recvState with pendingHistory := [] } none) s
  keep : ∀ {sendState recvState history keys s},
    identity.sessionKeys crates.prim record.peerBundle = .ok keys →
    recvState.pendingHistory = [] → Loaded sendState recvState history [] s →
    End (.ok (opened record keys sendState recvState history)) s

variable {L crates} {identity : Identity} {record : PairingRecord} {Base : σ → Prop}
  {Listed : HistoryStore → σ → Prop} {Sent : HistoryStore → DirectionState → σ → Prop}
  {Loaded : DirectionState → DirectionState → HistoryStore → List PendingItem → σ → Prop}
  {End : Except SessionError Session → σ → Prop} {s : σ} {history : HistoryStore}
  {sendState recvState : DirectionState} {keys : SessionKeys}

namespace Opens

theorem replay (h : Opens L crates identity record Base Listed Sent Loaded End)
    {pendings : List PendingItem}
    {f : Except SessionError HistoryStore → FsProgram Dir (Except SessionError Session)}
    (hok : ∀ {history s}, L.Inv s → Loaded sendState recvState history [] s →
      L.Triple End (f (.ok history)) s)
    (herror : ∀ {error s}, L.Inv s → End (.error error) s → L.Triple End (f (.error error)) s)
    (hs : L.Inv s) (hloaded : Loaded sendState recvState history pendings s) :
    L.Triple End (Session.replay crates history pendings >>= f) s := by
  induction pendings generalizing history s with
  | nil => exact hok hs hloaded
  | cons pending rest ih =>
    rw [Session.replay, bind_assoc]
    refine L.bind hs (h.add hs hloaded) ?_
    rintro ⟨r, history₁⟩ s₁ hs₁ hafter
    cases r with
    | error e => exact herror hs₁ hafter
    | ok u => exact ih hs₁ hafter

theorem new (h : Opens L crates identity record Base Listed Sent Loaded End) (hs : L.Inv s)
    (hlisted : Listed history s) :
    L.Triple End (Session.new crates identity record history) s := by
  unfold Session.new
  dsimp only
  split
  · exact h.finish hs (h.refuse _ hlisted)
  split
  · exact h.finish hs (h.refuse _ hlisted)
  rename_i keys hkeys
  refine L.bind hs (h.loadSend hs hlisted) fun r s₁ hs₁ hsent => ?_
  cases r with
  | error e => exact h.finish hs₁ hsent
  | ok sendState =>
  refine L.bind hs₁ (h.loadRecv hs₁ hsent) fun r s₂ hs₂ hloaded => ?_
  cases r with
  | error e => exact h.finish hs₂ hloaded
  | ok recvState =>
  dsimp only [recover]
  split
  · rename_i hempty
    have hnone := List.isEmpty_iff.1 hempty
    exact h.finish hs₂ (h.keep hkeys hnone (hnone ▸ hloaded))
  rw [bind_assoc]
  refine h.replay (fun {history s} hs₃ hloaded₃ => ?_) (fun hs₃ hend => h.finish hs₃ hend)
    hs₂ hloaded
  dsimp only
  rw [bind_assoc]
  refine L.bind hs₃ (h.clear hs₃ hkeys hloaded₃) fun r s₄ hs₄ hafter => ?_
  cases r with
  | error e | ok u => exact h.finish hs₄ hafter

theorem openSession (h : Opens L crates identity record Base Listed Sent Loaded End)
    (hs : L.Inv s) (hbase : Base s) :
    L.Triple End (Session.openSession crates identity record) s := by
  refine L.bind hs (h.create hs hbase) fun r s₁ hs₁ hafter => ?_
  cases r with
  | error e => exact h.finish hs₁ hafter
  | ok u =>
  refine L.bind hs₁ (h.list hs₁ hafter) fun r s₂ hs₂ hlisted => ?_
  cases r with
  | error e => exact h.finish hs₂ hlisted
  | ok history => exact h.new hs₂ hlisted

end Opens

end Opening

end Session

end ClipSync
