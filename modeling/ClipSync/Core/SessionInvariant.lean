import ClipSync.Core.HistoryList
import ClipSync.Core.Session

/-!
# The invariant of an endpoint

The world of an endpoint is its files and a record of what cannot be seen in them: the
callbacks with the files at their time, the sealed messages, and the stages that
deliveries have come to.

The state of a direction is in memory and on disk, and after an error that is reported
late the two differ. Both bound what the endpoint has done in that direction, and this
carries over every access.
-/

namespace ClipSync

open Lib Program FsProgram SessionStore HistoryStore

/-! ## What is on disk -/

section Disk

variable {crates : Crates}

def directionIn (crates : Crates) (contents : Option Bytes) (key : String) :
    Option DirectionState := do
  let bytes ← contents
  let document ← (crates.documents.fromSlice bytes).toOption
  document.directions.lookup key

def onDisk (crates : Crates) (s : Fs Dir) (key : String) : Option DirectionState :=
  directionIn crates (s.files sessionFile) key

/-- How the replacement of one direction can change the files. -/
structure Commits (crates : Crates) (key : String) (state : DirectionState) (s s' : Fs Dir) :
    Prop where
  files : ∀ path, path.dir ≠ .session → s'.files path = s.files path
  versions : ∀ path, path.dir ≠ .session → s'.versions path = s.versions path
  others : ∀ other, other ≠ key → onDisk crates s' other = onDisk crates s other
  this : onDisk crates s' key = onDisk crates s key ∨ onDisk crates s' key = some state

theorem Commits.refl (crates : Crates) (key : String) (state : DirectionState) (s : Fs Dir) :
    Commits crates key state s s :=
  ⟨fun _ _ => rfl, fun _ _ => rfl, fun _ _ => rfl, .inl rfl⟩

theorem tempFile_ne (name : String) : tempFile name ≠ sessionFile := by
  intro h
  have hname := congrArg (fun path => path.name.toList) h
  simp [tempFile, sessionFile] at hname

theorem onDisk_congr {s s' : Fs Dir} (h : s'.files sessionFile = s.files sessionFile) :
    onDisk crates s' = onDisk crates s := by
  funext key
  simp only [onDisk, h]

theorem directionIn_toVec (document : SessionDocument) (key : String) :
    directionIn crates (some (crates.documents.toVec document)) key =
      document.directions.lookup key := by
  simp [directionIn, crates.documents.fromSlice_toVec, Except.toOption]

theorem onDisk_replace (s : Fs Dir) (temp : Path Dir) (document : SessionDocument) (key : String) :
    onDisk crates (s.replace temp sessionFile (crates.documents.toVec document)) key =
      document.directions.lookup key := by
  rw [onDisk, Fs.replace_files_target, directionIn_toVec]

theorem safe_loadDocument (s : Fs Dir) :
    Safe Fs.exec (· = s)
      (fun r _ => ∀ document, r = .ok document →
        ∀ key, document.directions.lookup key = onDisk crates s key)
      (loadDocument crates) s := by
  refine ⟨rfl, fun r s' hread => ?_⟩
  match r, hread with
  | .ok bytes, ⟨hs, hfile⟩ =>
    refine ⟨hs, fun document hdocument key => ?_⟩
    cases hparse : crates.documents.fromSlice bytes with
    | error e =>
      rw [hparse] at hdocument
      cases hdocument
    | ok parsed =>
      rw [hparse] at hdocument
      cases hdocument
      simp [onDisk, directionIn, hfile, hparse, Except.toOption]
  | .error .notFound, ⟨hs, hfile⟩ =>
    refine ⟨hs, ?_⟩
    rintro document ⟨⟩ key
    simp [onDisk, directionIn, hfile]
  | .error (.other _), hs => exact ⟨hs, nofun⟩

theorem Commits.of_between {key : String} {state : DirectionState} {document : SessionDocument}
    {name : String} {s s' : Fs Dir}
    (hdocument : ∀ key, document.directions.lookup key = onDisk crates s key)
    (h : Between s (tempFile name) sessionFile (crates.documents.toVec
      ⟨document.directions.insert key state⟩) s') :
    Commits crates key state s s' := by
  rcases h with ⟨t, rfl⟩ | rfl
  · have hfile := Fs.set_files_of_ne (s := s) (tempFile_ne name) t
    refine ⟨fun path hpath => Fs.set_files_of_ne ?_ t, fun _ _ => rfl, fun other _ => ?_, .inl ?_⟩
    · rintro rfl
      exact hpath rfl
    · rw [onDisk_congr hfile]
    · rw [onDisk_congr hfile]
  · refine ⟨fun path hpath => ?_, fun path hpath => ?_, fun other hother => ?_, .inr ?_⟩
    · refine Fs.replace_files_of_ne ?_ ?_ <;>
      · rintro rfl
        exact hpath rfl
    · refine Fs.replace_versions_of_ne ?_
      rintro rfl
      exact hpath rfl
    · rw [onDisk_replace, Finmap.lookup_insert_of_ne _ hother, hdocument]
    · rw [onDisk_replace, Finmap.lookup_insert]

theorem safe_commitDirection (key : String) (state : DirectionState) (s : Fs Dir) :
    Safe Fs.exec (Commits crates key state s)
      (fun r s' => r = .ok () → onDisk crates s' key = some state)
      (commitDirection crates key state none) s := by
  refine Safe.bind ((safe_loadDocument s).mono ?_ fun r s' hs hr => And.intro hs hr) ?_
  · rintro s' rfl
    exact .refl crates key state s'
  rintro r s' hcommits ⟨rfl, hdocument⟩
  cases r with
  | error e => exact ⟨hcommits, nofun⟩
  | ok document =>
  have hdocument := hdocument document rfl
  refine ⟨hcommits, fun name s' hname => ?_⟩
  cases hname
  change Safe _ _ _ (FsProgram.atomicWrite _ _ _ _ >>= _) _
  refine Safe.bind ((safe_atomicWrite s').mono (fun _ h => .of_between hdocument h)
    fun _ _ _ h => h) ?_
  intro r s'' hcommits hr
  refine ⟨hcommits, fun hok => ?_⟩
  have hr' : r = .ok () := by
    cases r with
    | error e => cases hok
    | ok u => rfl
  rw [hr hr', onDisk_replace, Finmap.lookup_insert]

theorem safe_loadDirection (key : String) (generation : UInt64) (s : Fs Dir) :
    Safe Fs.exec (· = s)
      (fun r _ => ∀ state, r = .ok state → state = ofGeneration generation (onDisk crates s key))
      (loadDirection crates key generation) s := by
  refine Safe.bind (safe_loadDocument s) ?_
  intro r s' hs hdocument
  cases r with
  | error e => exact ⟨hs, nofun⟩
  | ok document =>
    refine ⟨hs, ?_⟩
    rintro state ⟨⟩
    rw [hdocument document rfl]

end Disk

/-! ## The world of an endpoint -/

/-- A callback, with the files it found. -/
structure CallbackEvent where
  item : ClipItem
  mailbox : Bool
  disk : Fs Dir

structure World where
  fs : Fs Dir
  callbacks : List CallbackEvent
  sealedClips : List (Envelope × Bytes)
  stages : List (ReceiveStage × Uuid)

def World.Delivered (w : World) (id : Uuid) : Prop :=
  (ReceiveStage.deliveryCommitted, id) ∈ w.stages

def SessionOp.exec (crates : Crates) : (op : SessionOp) → World → op.Res → World → Prop
  | .fs op, w, r, w' => ∃ fs', Fs.exec op w.fs r fs' ∧ w' = { w with fs := fs' }
  | .newV4, w, id, w' => isUuidV4 id.toText ∧ w' = w
  | .sealMessage envelope key associated encoded, w, .ok bytes, w' =>
    (∃ nonce, sealWith crates.prim key associated encoded nonce = .ok bytes) ∧
      w' = { w with sealedClips := w.sealedClips ++ [(envelope, bytes)] }
  | .sealMessage .., w, .error _, w' => w' = w
  | .callback item mailbox, w, _, w' =>
    w' = { w with callbacks := w.callbacks ++ [⟨item, mailbox, w.fs⟩] }
  | .reached stage id, w, _, w' => w' = { w with stages := w.stages ++ [(stage, id)] }

/-- Only accesses to the files change them. -/
theorem fs_of_exec {crates : Crates} {op : SessionOp} {r : op.Res} {w w' : World}
    (h : SessionOp.exec crates op w r w') : (∃ fsOp, op = .fs fsOp) ∨ w'.fs = w.fs := by
  cases op with
  | fs op => exact .inl ⟨op, rfl⟩
  | newV4 => exact .inr (by rw [h.2])
  | sealMessage envelope key associated encoded =>
    cases r with
    | ok bytes => exact .inr (by rw [h.2])
    | error e => exact .inr (by rw [h])
  | callback item mailbox => exact .inr (by rw [h])
  | reached stage id => exact .inr (by rw [h])

open SessionProgram

theorem safe_files {crates : Crates} {α : Type} {p : FsProgram Dir α} {w : World}
    {I : World → Prop} {Q : α → World → Prop} {J : Fs Dir → Prop} {R : α → Fs Dir → Prop}
    (hp : Safe Fs.exec J R p w.fs) (hI : ∀ fs', J fs' → I { w with fs := fs' })
    (hQ : ∀ a fs', J fs' → R a fs' → Q a { w with fs := fs' }) :
    Safe (SessionOp.exec crates) I Q (files p) w := by
  refine Safe.lift World.fs (fun w fs' => { w with fs := fs' })
    (fun _ _ => rfl) (fun _ _ _ => rfl) (fun _ => rfl) ?_ hp hI hQ
  intro op w R hw hR
  refine ⟨hw, ?_⟩
  rintro r _ ⟨fs', hexec, rfl⟩
  exact hR r fs' hexec

/-! ## What bounds the past of an endpoint -/

section Bounds

variable {crates : Crates} (pairing : Pairing crates.prim)

namespace Pairing

def sendKey : String :=
  directionKey pairing.record.roomId pairing.record.localBundleFp pairing.record.peerBundleFp

def recvKey : String :=
  directionKey pairing.record.roomId pairing.record.peerBundleFp pairing.record.localBundleFp

theorem sendKey_ne_recvKey : pairing.sendKey ≠ pairing.recvKey := by
  obtain ⟨-, hlocal, hpeer, hne, -⟩ := pairing.record_eq
  intro h
  have hlengths : pairing.record.localBundleFp.toList.length =
      pairing.record.peerBundleFp.toList.length := by
    rw [hlocal, hpeer, Identity.bundleFp, length_bundleFp, length_bundleFp]
  have hchars := congrArg String.toList h
  simp only [sendKey, recvKey, directionKey, String.toList_append, List.append_assoc] at hchars
  have htails := (List.append_cancel_left (List.append_cancel_left hchars))
  exact hne (String.toList_inj.1 (List.append_inj htails hlengths).1)

end Pairing

/-- What bounds the deliveries of an endpoint: no callback is above the last sequence
number, and a delivered clip is in the history or pending. -/
structure Covers (crates : Crates) (w : World) (state : DirectionState) : Prop where
  callbacks : ∀ event ∈ w.callbacks, event.item.seq ≤ state.lastSeq
  delivered : ∀ id, w.Delivered id →
    InHistory crates.lines w.fs id ∨ ∃ pending ∈ state.pendingHistory, pending.id = id

def Reserves (w : World) (state : DirectionState) : Prop :=
  ∀ clip ∈ w.sealedClips, clip.1.seq < state.nextSeq

def stored (fs : Fs Dir) (key : String) : DirectionState :=
  ofGeneration pairing.identity.generation (onDisk crates fs key)

theorem generation_stored (fs : Fs Dir) (key : String) :
    (stored pairing fs key).identityGeneration = pairing.identity.generation := by
  unfold stored ofGeneration
  split
  · split
    · assumption
    · rfl
  · rfl

def IsSealed (clip : Envelope × Bytes) : Prop :=
  ∃ keys encoded nonce,
    pairing.identity.sessionKeys crates.prim pairing.record.peerBundle = .ok keys ∧
    encodeEnvelope crates.wire clip.1 = .ok encoded ∧
    sealWith crates.prim keys.send (aad pairing.record.roomId pairing.record.localBundleFp
      pairing.record.peerBundleFp) encoded nonce = .ok clip.2

/-- The invariant of an endpoint, kept by every access. -/
structure Durable (w : World) : Prop where
  isVersion : w.fs.IsVersion metadataFile
  covers : Covers crates w (stored pairing w.fs pairing.recvKey)
  reserves : Reserves w (stored pairing w.fs pairing.sendKey)
  callbacks_lt : (w.callbacks.map fun event => event.item.seq).Pairwise (· < ·)
  callbacks_onDisk : ∀ event ∈ w.callbacks,
    ∃ state, onDisk crates event.disk pairing.recvKey = some state ∧
      event.item.seq ≤ state.lastSeq
  sealed_lt : (w.sealedClips.map fun clip => clip.1.seq).Pairwise (· < ·)
  sealed_valid : ∀ clip ∈ w.sealedClips, IsSealed pairing clip

/-- What a session holds of its pairing. -/
structure Session.Opened (session : Session) : Prop where
  roomId : session.roomId = pairing.record.roomId
  selfFp : session.selfFp = pairing.record.localBundleFp
  peerFp : session.peerFp = pairing.record.peerBundleFp
  keys : pairing.identity.sessionKeys crates.prim pairing.record.peerBundle = .ok session.keys
  sendKey : session.sendKey = pairing.sendKey
  recvKey : session.recvKey = pairing.recvKey
  sendGeneration : session.sendState.identityGeneration = pairing.identity.generation
  recvGeneration : session.recvState.identityGeneration = pairing.identity.generation

/-- The invariant of a session between two calls. -/
structure Session.Live (w : World) (session : Session) : Prop where
  opened : session.Opened pairing
  recorded : Recorded crates.lines w.fs session.history
  covers : Covers crates w session.recvState
  reserves : Reserves w session.sendState

/-! ## The invariant over one access -/

variable {pairing}

variable {state : DirectionState} {fs' s s' : Fs Dir} {self : Session} {key : String} {w : World}

theorem Commits.grown (h : Commits crates key state s s') :
    s.versions metadataFile ⊆ s'.versions metadataFile := by
  rw [h.versions metadataFile nofun]
  exact fun _ => id

theorem Covers.fs (h : Covers crates w state)
    (hgrown : w.fs.versions metadataFile ⊆ fs'.versions metadataFile) :
    Covers crates { w with fs := fs' } state where
  callbacks := h.callbacks
  delivered id hid := (h.delivered id hid).imp_left fun hhistory => hhistory.mono hgrown

theorem Session.Live.fs (h : self.Live pairing w)
    (hgrown : w.fs.versions metadataFile ⊆ fs'.versions metadataFile) :
    self.Live pairing { w with fs := fs' } :=
  ⟨h.opened, h.recorded.mono hgrown, h.covers.fs hgrown, h.reserves⟩

theorem onDisk_of_kept (h : Kept s s') : onDisk crates s' = onDisk crates s :=
  onDisk_congr (h.session sessionFile rfl)

theorem Durable.kept (h : Durable pairing w) (hkept : Kept w.fs fs') :
    Durable pairing { w with fs := fs' } := by
  have hdisk : onDisk crates fs' = onDisk crates w.fs := onDisk_of_kept hkept
  refine { h with isVersion := hkept.isVersion h.isVersion, covers := ?_, reserves := ?_ }
  · rw [stored, hdisk]
    exact h.covers.fs (hkept.grown _)
  · rw [stored, hdisk]
    exact h.reserves

theorem Commits.stored_other {other : String} (h : Commits crates key state s s')
    (hother : other ≠ key) : stored pairing s' other = stored pairing s other := by
  rw [stored, h.others other hother, stored]

theorem Commits.stored_this (h : Commits crates key state s s')
    (hgeneration : state.identityGeneration = pairing.identity.generation) :
    stored pairing s' key = stored pairing s key ∨ stored pairing s' key = state := by
  rcases h.this with hsame | hnew
  · exact .inl (by rw [stored, hsame, stored])
  · exact .inr (by rw [stored, hnew]; exact if_pos hgeneration)

theorem Commits.isVersion (h : Commits crates key state s s') (hs : s.IsVersion metadataFile) :
    s'.IsVersion metadataFile := by
  intro contents hfile
  rw [h.files metadataFile nofun] at hfile
  exact h.grown (hs contents hfile)

theorem Durable.commitRecv (h : Durable pairing w)
    (hcommits : Commits crates pairing.recvKey state w.fs fs')
    (hgeneration : state.identityGeneration = pairing.identity.generation)
    (hcovers : Covers crates w state) : Durable pairing { w with fs := fs' } := by
  refine { h with isVersion := hcommits.isVersion h.isVersion, covers := ?_, reserves := ?_ }
  · rcases hcommits.stored_this hgeneration with hsame | hnew
    · rw [hsame]
      exact h.covers.fs hcommits.grown
    · rw [hnew]
      exact hcovers.fs hcommits.grown
  · rw [hcommits.stored_other pairing.sendKey_ne_recvKey]
    exact h.reserves

theorem Durable.commitSend (h : Durable pairing w)
    (hcommits : Commits crates pairing.sendKey state w.fs fs')
    (hgeneration : state.identityGeneration = pairing.identity.generation)
    (hreserves : Reserves w state) : Durable pairing { w with fs := fs' } := by
  refine { h with isVersion := hcommits.isVersion h.isVersion, covers := ?_, reserves := ?_ }
  · rw [hcommits.stored_other pairing.sendKey_ne_recvKey.symm]
    exact h.covers.fs hcommits.grown
  · rcases hcommits.stored_this hgeneration with hsame | hnew
    · rw [hsame]
      exact h.reserves
    · rw [hnew]
      exact hreserves

theorem Durable.callback (h : Durable pairing w) {item : ClipItem} (mailbox : Bool)
    (hdisk : onDisk crates w.fs pairing.recvKey = some state)
    (hgeneration : state.identityGeneration = pairing.identity.generation)
    (hlast : item.seq ≤ state.lastSeq) (hnew : ∀ event ∈ w.callbacks, event.item.seq < item.seq) :
    Durable pairing { w with callbacks := w.callbacks ++ [⟨item, mailbox, w.fs⟩] } := by
  have hstored : stored pairing w.fs pairing.recvKey = state := by
    rw [stored, hdisk]
    exact if_pos hgeneration
  refine { h with covers := ⟨?_, h.covers.delivered⟩, callbacks_lt := ?_, callbacks_onDisk := ?_ }
  · intro event hevent
    rcases List.mem_append.1 hevent with hold | hlast'
    · exact h.covers.callbacks event hold
    · rw [List.mem_singleton.1 hlast', hstored]
      exact hlast
  · rw [List.map_append, List.pairwise_append]
    refine ⟨h.callbacks_lt, by simp, ?_⟩
    simpa using hnew
  · intro event hevent
    rcases List.mem_append.1 hevent with hold | hlast'
    · exact h.callbacks_onDisk event hold
    · rw [List.mem_singleton.1 hlast']
      exact ⟨state, hdisk, hlast⟩

theorem Covers.stage (h : Covers crates w state) (stage : ReceiveStage) (id : Uuid)
    (hid : stage = .deliveryCommitted → InHistory crates.lines w.fs id ∨
      ∃ pending ∈ state.pendingHistory, pending.id = id) :
    Covers crates { w with stages := w.stages ++ [(stage, id)] } state where
  callbacks := h.callbacks
  delivered other hother := by
    rcases List.mem_append.1 hother with hold | hnew
    · exact h.delivered other hold
    · cases List.mem_singleton.1 hnew
      exact hid rfl

theorem Durable.stage (h : Durable pairing w) (stage : ReceiveStage) (id : Uuid)
    (hid : stage = .deliveryCommitted → InHistory crates.lines w.fs id ∨
      ∃ pending ∈ (stored pairing w.fs pairing.recvKey).pendingHistory, pending.id = id) :
    Durable pairing { w with stages := w.stages ++ [(stage, id)] } :=
  { h with covers := h.covers.stage stage id hid }

theorem Session.Live.stage (h : self.Live pairing w) (stage : ReceiveStage) (id : Uuid)
    (hid : stage = .deliveryCommitted → InHistory crates.lines w.fs id ∨
      ∃ pending ∈ self.recvState.pendingHistory, pending.id = id) :
    self.Live pairing { w with stages := w.stages ++ [(stage, id)] } :=
  ⟨h.opened, h.recorded, h.covers.stage stage id hid, h.reserves⟩

variable {clip : Envelope × Bytes}

theorem Durable.sealed (h : Durable pairing w) (hclip : IsSealed pairing clip)
    (hnew : ∀ old ∈ w.sealedClips, old.1.seq < clip.1.seq)
    (hstored : clip.1.seq < (stored pairing w.fs pairing.sendKey).nextSeq) :
    Durable pairing { w with sealedClips := w.sealedClips ++ [clip] } := by
  refine { h with
    covers := ⟨h.covers.callbacks, h.covers.delivered⟩
    reserves := ?_, sealed_lt := ?_, sealed_valid := ?_ }
  · intro other hother
    rcases List.mem_append.1 hother with hold | hlast
    · exact h.reserves other hold
    · rw [List.mem_singleton.1 hlast]
      exact hstored
  · rw [List.map_append, List.pairwise_append]
    refine ⟨h.sealed_lt, by simp, ?_⟩
    intro seq hseq last hlast
    obtain ⟨old, hold, rfl⟩ := List.mem_map.1 hseq
    cases List.mem_singleton.1 hlast
    exact hnew old hold
  · intro other hother
    rcases List.mem_append.1 hother with hold | hlast
    · exact h.sealed_valid other hold
    · rw [List.mem_singleton.1 hlast]
      exact hclip

theorem Session.Live.sealed (h : self.Live pairing w)
    (hclip : clip.1.seq < self.sendState.nextSeq) :
    self.Live pairing { w with sealedClips := w.sealedClips ++ [clip] } := by
  refine ⟨h.opened, h.recorded, ⟨h.covers.callbacks, h.covers.delivered⟩, ?_⟩
  intro other hother
  rcases List.mem_append.1 hother with hold | hlast
  · exact h.reserves other hold
  · rw [List.mem_singleton.1 hlast]
    exact hclip

theorem Session.Live.withHistory (h : self.Live pairing w) (hkept : Kept w.fs fs')
    {history : HistoryStore} (hrecorded : Recorded crates.lines fs' history) :
    { self with history }.Live pairing { w with fs := fs' } :=
  ⟨{ h.opened with }, hrecorded, h.covers.fs (hkept.grown _), h.reserves⟩

/-! ## The states of a delivery -/

theorem lastSeq_delivered (state : DirectionState) (item : ClipItem) (source : HistorySource) :
    state.lastSeq ≤ (Session.delivered state item source).lastSeq ∧
      item.seq ≤ (Session.delivered state item source).lastSeq := by
  have hmax : (Session.delivered state item source).lastSeq =
      if state.lastSeq ≤ item.seq then item.seq else state.lastSeq := rfl
  rw [hmax]
  split
  · exact ⟨‹_›, UInt64.le_refl _⟩
  · exact ⟨UInt64.le_refl _, UInt64.le_of_lt (UInt64.not_le.1 ‹_›)⟩

theorem Covers.delivered_item (h : Covers crates w state) (item : ClipItem)
    (source : HistorySource) : Covers crates w (Session.delivered state item source) where
  callbacks event hevent :=
    UInt64.le_trans (h.callbacks event hevent) (lastSeq_delivered state item source).1
  delivered id hid := by
    refine (h.delivered id hid).imp_right ?_
    rintro ⟨pending, hpending, rfl⟩
    exact ⟨pending, List.mem_append_left _ hpending, rfl⟩

theorem Covers.cleared (h : Covers crates w state) {id : Uuid}
    (hid : InHistory crates.lines w.fs id) : Covers crates w (Session.cleared state id) where
  callbacks := h.callbacks
  delivered other hother := by
    rcases h.delivered other hother with hin | ⟨pending, hpending, rfl⟩
    · exact .inl hin
    · by_cases hsame : pending.id = id
      · exact .inl (hsame ▸ hid)
      · exact .inr ⟨pending, by simp [Session.cleared, hpending, hsame], rfl⟩

end Bounds

end ClipSync
