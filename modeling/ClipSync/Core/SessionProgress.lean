import ClipSync.Core.HistoryList
import ClipSync.Core.SessionInvariant
import ClipSync.Core.SessionOutline
import ClipSync.Core.WireSize

/-!
# Calls without failures

While no access fails, a transaction is made, an item goes into the history, a new clip
that can be read reaches the clipboard, and a clip that can be encoded is sealed. What
the session is afterwards can be computed, and the files agree with it.
-/

namespace ClipSync

open Lib Program FsProgram SessionProgram SessionStore HistoryStore Function

variable {crates : Crates}

/-- The session file can be read, and there are no temporary files beside it and no images. -/
structure TidyFiles (crates : Crates) (s : Fs Dir) : Prop where
  document : s.files sessionFile = none ∨
    ∃ document, s.files sessionFile = some (crates.documents.toVec document)
  temp : ∀ name, s.files (tempFile name) = none
  images : ∀ path, path.dir = .images → s.files path = none

/-- The accesses that do not fail and drop nothing from the history, which is not made
durable. -/
def Quiet (crates : Crates) (op : FsOp Dir) (s : Fs Dir) (r : op.Res) (s' : Fs Dir) : Prop :=
  Fs.succeed op s r s' ∧ ¬ op.Syncs metadataFile ∧
    ∀ item ∈ listed crates.lines s, item ∈ listed crates.lines s'

def SessionOp.quiet (crates : Crates) : (op : SessionOp) → World → op.Res → World → Prop
  | .fs op, w, r, w' => ∃ fs', Quiet crates op w.fs r fs' ∧ w' = { w with fs := fs' }
  | op, w, r, w' => SessionOp.exec crates op w r w'

variable {s s' : Fs Dir} {self : Session} {keys : SessionKeys} {w w' : World}
  {pairing : Pairing crates.prim} {mailbox : Bool} {item : ClipItem} {text : String}
  {α : Type} {p : FsProgram Dir α} {nowMs : Int64} {ciphertextB64 roomId : String} {a : α}

theorem Quiet.of_leaves {op : FsOp Dir} {r : op.Res} (h : Fs.succeed op s r s')
    (hop : op.Leaves metadataFile ∧ ¬ op.Syncs metadataFile) : Quiet crates op s r s' := by
  refine ⟨h, hop.2, fun item hitem => ?_⟩
  rwa [listed_congr _ (Fs.files_of_leaves hop.1 h.1)]

theorem Quiet.read {op : FsOp Dir} {r : op.Res} (h : Fs.succeed op s r s)
    (hsync : ¬ op.Syncs metadataFile) : Quiet crates op s r s :=
  ⟨h, hsync, fun _ => id⟩

theorem exec_of_quiet (h : Exec (Quiet crates) p s a s') : Exec Fs.exec p s a s' :=
  h.mono fun _ _ _ _ hquiet => hquiet.1.1

theorem exec_of_quietly {p : SessionProgram α} (h : Exec (SessionOp.quiet crates) p w a w') :
    Exec (SessionOp.exec crates) p w a w' := by
  refine h.mono fun op w r w' hop => ?_
  cases op with
  | fs op =>
    obtain ⟨fs', hquiet, rfl⟩ := hop
    exact ⟨fs', hquiet.1.1, rfl⟩
  | newV4 | sealMessage _ _ _ _ | callback _ _ | reached _ _ => exact hop

/-! ## Transactions -/

theorem exec_loadDocument (h : TidyFiles crates s) :
    ∃ document, Exec (Quiet crates) (loadDocument crates) s (.ok document) s ∧
      ∀ key, document.directions.lookup key = onDisk crates s key := by
  suffices hload : ∃ document, Exec (Quiet crates) (loadDocument crates) s (.ok document) s by
    obtain ⟨document, hexec⟩ := hload
    exact ⟨document, hexec, (safe_loadDocument s).post (exec_of_quiet hexec) document rfl⟩
  rcases h.document with hnone | ⟨document, hsome⟩
  · have hread : Quiet crates (.read sessionFile) s (.error .notFound) s :=
      .read ⟨⟨rfl, hnone⟩, nofun⟩ nofun
    exact ⟨_, .call hread (.done _ _)⟩
  · have hread : Quiet crates (.read sessionFile) s (.ok (crates.documents.toVec document)) s :=
      .read ⟨⟨rfl, hsome⟩, nofun⟩ nofun
    refine ⟨document, (exec_perform hread).bind ?_⟩
    dsimp only
    rw [crates.documents.fromSlice_toVec]
    exact .done _ _

theorem exec_loadDirection (h : TidyFiles crates s) (key : String) (generation : UInt64) :
    Exec (Quiet crates) (loadDirection crates key generation) s
      (.ok (ofGeneration generation (onDisk crates s key))) s := by
  obtain ⟨document, hload, hdocument⟩ := exec_loadDocument h
  rw [← hdocument]
  exact hload.bind (.done _ _)

theorem exec_commitDirection (h : TidyFiles crates s) (key : String) (state : DirectionState) :
    ∃ s', Exec (Quiet crates) (commitDirection crates key state none) s (.ok ()) s' ∧
      TidyFiles crates s' ∧ listed crates.lines s' = listed crates.lines s ∧
      onDisk crates s' = update (onDisk crates s) key (some state) := by
  obtain ⟨document, hload, hdocument⟩ := exec_loadDocument h
  have hname : Quiet crates .uniqueName s "" s := .read ⟨rfl, trivial⟩ id
  have htemp : tempFile "" ≠ metadataFile := by rintro ⟨⟩
  have hsame : ∀ path : Path Dir, path.dir ≠ .session → ∀ contents,
      (s.replace (tempFile "") sessionFile contents).files path = s.files path := by
    intro path hpath contents
    refine Fs.replace_files_of_ne ?_ ?_ <;>
    · rintro rfl
      exact hpath rfl
  have hwrite : ∀ contents, Exec (Quiet crates)
      (FsProgram.atomicWrite ⟨true, true, true⟩ (tempFile "") sessionFile contents) s (.ok ())
      (s.replace (tempFile "") sessionFile contents) := fun contents =>
    ((exec_atomicWrite fun _ => h.temp "").restrict
      (atomicWrite_allOps ⟨htemp, id⟩ ⟨htemp, id⟩ ⟨htemp, id⟩ ⟨trivial, id⟩
        ⟨⟨htemp, by rintro ⟨⟩⟩, id⟩ ⟨trivial, by rintro ⟨⟩⟩ ⟨htemp, id⟩)).mono
      fun _ _ _ _ hop => .of_leaves hop.1 hop.2
  refine ⟨s.replace (tempFile "") sessionFile
    (crates.documents.toVec ⟨document.directions.insert key state⟩), ?_, ⟨?_, fun name => ?_, ?_⟩,
    listed_congr _ (hsame metadataFile (by rintro ⟨⟩) _), ?_⟩
  · refine hload.bind ((exec_perform hname).bind ?_)
    exact (hwrite _).bind (.done _ _)
  · exact .inr ⟨_, Fs.replace_files_target⟩
  · by_cases hname : tempFile name = tempFile ""
    · rw [hname, Fs.replace]
      simp [update_of_ne (tempFile_ne "")]
    · rw [Fs.replace_files_of_ne hname (tempFile_ne name)]
      exact h.temp name
  · intro path hpath
    rw [hsame path (by rw [hpath]; rintro ⟨⟩)]
    exact h.images path hpath
  · funext other
    rw [onDisk_replace]
    by_cases hother : other = key
    · rw [hother, Finmap.lookup_insert, update_self]
    · rw [Finmap.lookup_insert_of_ne _ hother, update_of_ne hother, hdocument]

theorem stored_update {key : String} {state : DirectionState}
    (h : onDisk crates s' = update (onDisk crates s) key (some state))
    (hgeneration : state.identityGeneration = pairing.identity.generation) :
    stored pairing s' = update (stored pairing s) key state := by
  funext other
  rw [stored, h]
  by_cases hother : other = key
  · rw [hother, update_self, update_self]
    exact if_pos hgeneration
  · rw [update_of_ne hother, update_of_ne hother, stored]

/-! ## The history -/

def historyTemp (name : String) : Path Dir := withExtension metadataFile ("tmp-" ++ name)

theorem historyTemp_ne (name : String) : historyTemp name ≠ metadataFile :=
  withExtension_metadataFile_ne name

variable (crates) in
/-- The list is replaced, by quiet accesses up to the renaming. -/
theorem exec_persist {exec : (op : FsOp Dir) → Fs Dir → op.Res → Fs Dir → Prop}
    (hquiet : ∀ op s r s', Quiet crates op s r s' → exec op s r s') (items : List HistoryItem)
    (hrename : exec (.rename (historyTemp "") metadataFile)
      (s.set (historyTemp "") (some (encodeItems crates.lines items))) (.ok ())
      (s.replace (historyTemp "") metadataFile (encodeItems crates.lines items))) :
    Exec exec (persist crates.lines items) s (.ok ())
      (s.replace (historyTemp "") metadataFile (encodeItems crates.lines items)) := by
  set contents := encodeItems crates.lines items
  have htemp := historyTemp_ne ""
  have hname : Quiet crates .uniqueName s "" s := .read ⟨rfl, trivial⟩ nofun
  have hcreate : Quiet crates (.create (historyTemp "")) s (.ok ())
      (s.set (historyTemp "") (some [])) := .of_leaves ⟨rfl, rfl⟩ ⟨htemp, nofun⟩
  have hwrite : Quiet crates (.writeAll (historyTemp "") contents)
      (s.set (historyTemp "") (some [])) (.ok ()) (s.set (historyTemp "") (some contents)) :=
    .of_leaves ⟨(set_set _ _).symm, rfl⟩ ⟨htemp, nofun⟩
  have hsync : Quiet crates (.syncAll (historyTemp "")) (s.set (historyTemp "") (some contents))
      (.ok ()) (s.set (historyTemp "") (some contents)) := .read ⟨rfl, rfl⟩ nofun
  have hatomic : Exec exec (FsProgram.atomicWrite ⟨false, false, false⟩ (historyTemp "")
      metadataFile contents) s (.ok ()) (s.replace (historyTemp "") metadataFile contents) := by
    refine (exec_perform (hquiet _ _ _ _ hcreate)).bind ?_
    refine (exec_perform (hquiet _ _ _ _ hwrite)).bind ?_
    refine (exec_perform (hquiet _ _ _ _ hsync)).bind ?_
    exact .call hrename (.done _ _)
  exact (exec_perform (hquiet _ _ _ _ hname)).bind (hatomic.bind (.done _ _))

theorem succeed_rename (s : Fs Dir) (contents : Bytes) :
    Fs.succeed (.rename (historyTemp "") metadataFile) (s.set (historyTemp "") (some contents))
      (.ok ()) (s.replace (historyTemp "") metadataFile contents) :=
  ⟨⟨contents, by simp [Fs.set], (set_replace _).symm⟩, rfl⟩

/-- The history is in a directory of its own. -/
theorem TidyFiles.replace (h : TidyFiles crates s) (contents : Bytes) :
    TidyFiles crates (s.replace (historyTemp "") metadataFile contents) ∧
      onDisk crates (s.replace (historyTemp "") metadataFile contents) = onDisk crates s := by
  have hsame : ∀ path : Path Dir, path.dir ≠ .history →
      (s.replace (historyTemp "") metadataFile contents).files path = s.files path := by
    intro path hpath
    refine Fs.replace_files_of_ne ?_ ?_ <;>
    · rintro rfl
      exact hpath rfl
  refine ⟨⟨?_, fun name => ?_, fun path hpath => ?_⟩, onDisk_congr (hsame sessionFile nofun)⟩
  · rw [hsame sessionFile nofun]
    exact h.document
  · rw [hsame (tempFile name) nofun]
    exact h.temp name
  · rw [hsame path (by rw [hpath]; nofun)]
    exact h.images path hpath

/-- A text goes into the history. -/
theorem exec_add (h : TidyFiles crates s) {history : HistoryStore}
    (hwell : WellFormed history.items)
    {new : NewHistoryItem} (hcontent : new.content = .text text)
    (hnew : ∀ known ∈ history.items, known.id ≠ new.id) (hcap : history.items.length < historyCap)
    (hkeeps : ∀ item ∈ listed crates.lines s, item ∈ history.items ++ [entryOf new]) :
    ∃ s', Exec (Quiet crates) (history.add crates.lines new) s
        (.ok (), ⟨history.items ++ [entryOf new]⟩) s' ∧
      TidyFiles crates s' ∧ listed crates.lines s' = history.items ++ [entryOf new] ∧
      onDisk crates s' = onDisk crates s := by
  have hknown : ¬ history.items.any (fun existing => existing.id = new.id) = true := by
    simpa using hnew
  have hshort : (history.items ++ [entryOf new]).length ≤ historyCap := by simpa using hcap
  have hadding : adding history.items new = history.items ++ [entryOf new] := by
    rw [adding, if_neg hknown, recent_of_le hshort]
  have hlisted : listed crates.lines (s.replace (historyTemp "") metadataFile
      (encodeItems crates.lines (history.items ++ [entryOf new]))) =
        history.items ++ [entryOf new] := listed_replace _ (hadding ▸ hwell.adding new) _ _
  obtain ⟨hready, hdisk⟩ := h.replace (encodeItems crates.lines (history.items ++ [entryOf new]))
  refine ⟨_, ?_, hready, hlisted, hdisk⟩
  have hpersist := exec_persist crates (fun _ _ _ _ h => h) (history.items ++ [entryOf new])
    (s := s) ⟨succeed_rename s _, nofun, fun item hitem => ?_⟩
  · rw [HistoryStore.add, if_neg hknown, writeContent, hcontent]
    refine .bind (.done _ _) ?_
    have hentry : (⟨new.id, new.tsMs, .text text, new.source⟩ : HistoryItem) = entryOf new := by
      rw [entryOf, kindOf, hcontent]
    dsimp only
    rw [hentry, if_neg (Nat.not_lt.2 hshort), if_neg (Nat.not_lt.2 hshort)]
    exact hpersist.bind (.done _ _)
  · rw [hlisted]
    refine hkeeps item ?_
    rwa [listed_congr _ (Fs.set_files_of_ne (historyTemp_ne "") _)] at hitem

/-- A history of texts is cleared. -/
theorem exec_clear (h : TidyFiles crates s) {history : HistoryStore}
    (htexts : history.items.filterMap (·.kind.imageFileName) = []) :
    ∃ s', Exec Fs.exec (history.clear crates.lines) s (.ok (), ⟨[]⟩) s' ∧ TidyFiles crates s' ∧
      listed crates.lines s' = [] ∧ onDisk crates s' = onDisk crates s := by
  obtain ⟨hready, hdisk⟩ := h.replace (encodeItems crates.lines [])
  have hpersist := exec_persist crates (fun _ _ _ _ h => h.1.1) [] (succeed_rename s _).1
  refine ⟨_, hpersist.bind ?_, hready, listed_replace _ .nil _ _, hdisk⟩
  dsimp only
  rw [htexts]
  exact .bind (.done _ _) (.done _ _)

variable (crates) in
theorem exec_loadItems (s : Fs Dir) :
    ∃ items, Exec (Quiet crates) (loadItems crates.lines) s (.ok items) s ∧
      recent items = listed crates.lines s := by
  suffices hload : ∃ items, Exec (Quiet crates) (loadItems crates.lines) s (.ok items) s by
    obtain ⟨items, hexec⟩ := hload
    exact ⟨items, hexec, (safe_loadItems s).post (exec_of_quiet hexec) _ rfl⟩
  cases hfile : s.files metadataFile with
  | none =>
    have hread : Quiet crates (.read metadataFile) s (.error .notFound) s :=
      .read ⟨⟨rfl, hfile⟩, nofun⟩ nofun
    exact ⟨_, .call hread (.done _ _)⟩
  | some contents =>
    have hread : Quiet crates (.read metadataFile) s (.ok contents) s :=
      .read ⟨⟨rfl, hfile⟩, nofun⟩ nofun
    exact ⟨_, .call hread (.done _ _)⟩

/-- A store opens while there are no images. -/
theorem exec_newStore (h : TidyFiles crates s) :
    Exec (Quiet crates) (HistoryStore.new crates.lines) s (.ok ⟨listed crates.lines s⟩) s := by
  have hcreate : Quiet crates (.createDirAll .images) s (.ok ()) s := .read ⟨rfl, rfl⟩ nofun
  have hlist : Quiet crates (.readDir .images) s (.ok []) s :=
    .read ⟨⟨rfl, fun name => by simp [h.images ⟨.images, name⟩ rfl]⟩, rfl⟩ nofun
  obtain ⟨items, hload, hitems⟩ := exec_loadItems crates s
  rw [← hitems]
  exact .call hcreate (hload.bind (.bind (.call hlist (.done _ _)) (.done _ _)))

/-! ## Sessions -/

def ClipItem.entry (item : ClipItem) (source : HistorySource) : NewHistoryItem :=
  ⟨item.id, item.tsMs, source, historyContent item.content⟩

namespace Session

/-- The session once a clip has been received. -/
def received (crates : Crates) (self : Session) (item : ClipItem) : Session :=
  { self with
    recvState := cleared (delivered self.recvState item .remote) item.id
    history := ⟨self.history.items ++ [entryOf (item.entry .remote)]⟩ }.registerText crates
      item.content

/-- The session once a clip has been sent. -/
def sent (crates : Crates) (self : Session) (content : ClipContent) (tsMs : Int64) (id : Uuid) :
    Session :=
  { self.reserved with
    history := ⟨self.history.items ++
      [entryOf ⟨id, tsMs, .local', historyContent content⟩]⟩ }.registerText crates content

@[simp] theorem registerText_recvState (self : Session) (content : ClipContent) :
    (self.registerText crates content).recvState = self.recvState := by
  obtain ⟨hashes, heq⟩ := self.registerText_eq crates content
  rw [heq]

@[simp] theorem registerText_sendState (self : Session) (content : ClipContent) :
    (self.registerText crates content).sendState = self.sendState := by
  obtain ⟨hashes, heq⟩ := self.registerText_eq crates content
  rw [heq]

@[simp] theorem registerText_history (self : Session) (content : ClipContent) :
    (self.registerText crates content).history = self.history := by
  obtain ⟨hashes, heq⟩ := self.registerText_eq crates content
  rw [heq]

@[simp] theorem received_recvState (self : Session) (item : ClipItem) :
    (self.received crates item).recvState =
      cleared (delivered self.recvState item .remote) item.id :=
  registerText_recvState _ _

@[simp] theorem received_sendState (self : Session) (item : ClipItem) :
    (self.received crates item).sendState = self.sendState :=
  registerText_sendState _ _

@[simp] theorem received_history (self : Session) (item : ClipItem) :
    (self.received crates item).history =
      ⟨self.history.items ++ [entryOf (item.entry .remote)]⟩ :=
  registerText_history _ _

@[simp] theorem sent_sendState (self : Session) (content : ClipContent) (tsMs : Int64)
    (id : Uuid) : (self.sent crates content tsMs id).sendState = self.reserved.sendState :=
  registerText_sendState _ _

@[simp] theorem sent_history (self : Session) (content : ClipContent) (tsMs : Int64) (id : Uuid) :
    (self.sent crates content tsMs id).history =
      ⟨self.history.items ++ [entryOf ⟨id, tsMs, .local', historyContent content⟩]⟩ :=
  registerText_history _ _

end Session

/-- The files are ready, and no other session has sent anything. -/
structure Session.Ready (pairing : Pairing crates.prim) (session : Session) (s : Fs Dir) :
    Prop where
  opened : session.Opened pairing
  files : TidyFiles crates s
  send : stored pairing s pairing.sendKey = session.sendState
  wellFormed : WellFormed session.history.items

/-- The files are as the session left them. -/
structure Session.Current (pairing : Pairing crates.prim) (session : Session) (s : Fs Dir) :
    Prop extends
    session.Ready pairing s where
  recv : stored pairing s pairing.recvKey = session.recvState
  listed : listed crates.lines s = session.history.items

theorem Session.Ready.registerText (h : self.Ready pairing s) (content : ClipContent) :
    (self.registerText crates content).Ready pairing s := by
  obtain ⟨hashes, heq⟩ := self.registerText_eq crates content
  rw [heq]
  exact { h with opened := { h.opened with } }

theorem Session.Current.registerText (h : self.Current pairing s) (content : ClipContent) :
    (self.registerText crates content).Current pairing s := by
  refine ⟨h.toReady.registerText content, ?_, ?_⟩
  · rw [registerText_recvState]
    exact h.recv
  · rw [Session.registerText_history]
    exact h.listed

/-- The receive direction is replaced. -/
theorem Session.Ready.commitRecv (h : self.Ready pairing s) (state : DirectionState)
    (hgeneration : state.identityGeneration = pairing.identity.generation) :
    ∃ s', Exec (Quiet crates) (commitDirection crates self.recvKey state none) s (.ok ()) s' ∧
      { self with recvState := state }.Ready pairing s' ∧
      stored pairing s' pairing.recvKey = state ∧
      listed crates.lines s' = listed crates.lines s := by
  obtain ⟨s', hcommit, hready, hlisted, hdisk⟩ := exec_commitDirection h.files self.recvKey state
  have hstored := stored_update hdisk hgeneration
  rw [h.opened.recvKey] at hstored
  refine ⟨s', hcommit, ⟨{ h.opened with recvGeneration := hgeneration }, hready, ?_, h.wellFormed⟩,
    ?_, hlisted⟩
  · rw [hstored, update_of_ne pairing.sendKey_ne_recvKey]
    exact h.send
  · rw [hstored, update_self]

theorem Session.Ready.add (h : self.Ready pairing s) (new : NewHistoryItem)
    (hcontent : new.content = .text text) (hnew : ∀ known ∈ self.history.items, known.id ≠ new.id)
    (hcap : self.history.items.length < historyCap)
    (hkeeps : ∀ item ∈ listed crates.lines s,
      item ∈ self.history.items ++ [entryOf new]) :
    ∃ s', Exec (Quiet crates) (self.history.add crates.lines new) s
        (.ok (), ⟨self.history.items ++ [entryOf new]⟩) s' ∧
      { self with history := ⟨self.history.items ++ [entryOf new]⟩ }.Ready pairing s' ∧
      stored pairing s' = stored pairing s ∧
      listed crates.lines s' = self.history.items ++ [entryOf new] := by
  obtain ⟨s', hadd, hready, hlisted, hdisk⟩ :=
    exec_add h.files h.wellFormed hcontent hnew hcap hkeeps
  have hstored : stored pairing s' = stored pairing s := by
    funext key
    rw [stored, hdisk, stored]
  exact ⟨s', hadd, ⟨{ h.opened with }, hready, hstored ▸ h.send, hlisted ▸ wellFormed_listed _ _⟩,
    hstored, hlisted⟩

/-! ## Calls -/

theorem exec_filesOf {exec : (op : FsOp Dir) → Fs Dir → op.Res → Fs Dir → Prop}
    {exec' : (op : SessionOp) → World → op.Res → World → Prop}
    (hfiles : ∀ {op : FsOp Dir} {w : World} {r s'}, exec op w.fs r s' →
      exec' (.fs op) w r { w with fs := s' })
    (h : Exec exec p w.fs a s') : Exec exec' (files p) w a { w with fs := s' } := by
  induction p generalizing w with
  | done b =>
    obtain ⟨rfl, rfl⟩ := exec_done.1 h
    exact .done _ _
  | call op k ih =>
    obtain ⟨r, s₁, hop, hrest⟩ := exec_call.1 h
    exact .call (hfiles hop) (ih r hrest)

theorem exec_files (h : Exec Fs.exec p w.fs a s') :
    Exec (SessionOp.exec crates) (files p) w a { w with fs := s' } :=
  exec_filesOf (fun hop => ⟨_, hop, rfl⟩) h

theorem exec_quietFiles (h : Exec (Quiet crates) p w.fs a s') :
    Exec (SessionOp.quiet crates) (files p) w a { w with fs := s' } :=
  exec_filesOf (fun hop => ⟨_, hop, rfl⟩) h

theorem exec_checkpoint (stage : ReceiveStage) (id : Uuid) (w : World) :
    Exec (SessionOp.quiet crates) (checkpoint none stage id) w false
      { w with stages := w.stages ++ [(stage, id)] } := by
  have hmark : SessionOp.quiet crates (.reached stage id) w ()
    { w with stages := w.stages ++ [(stage, id)] } := rfl
  exact .call hmark (.done _ _)

/-- The message is a new text that the session applies. -/
structure Session.Takes (crates : Crates) (session : Session) (roomId ciphertextB64 : String)
    (nowMs : Int64) (item : ClipItem) (text : String) : Prop where
  authentic : session.authenticate crates roomId ciphertextB64 = some item
  content : item.content = .text text
  unseen : item.id.toText ∉ session.recvState.seenIds
  later : session.recvState.lastSeq < item.seq
  fresh : Session.isFresh item false nowMs = true
  unknown : ∀ known ∈ session.history.items, known.id ≠ item.id
  short : session.history.items.length < historyCap

theorem Session.Takes.handleClip_eq (h : self.Takes crates roomId ciphertextB64 nowMs item text)
    (failAt : Option ReceiveStage) :
    self.handleClipWithFault crates roomId ciphertextB64 false nowMs failAt =
      self.deliverClip crates item true failAt := by
  rw [Session.handleClipWithFault, h.authentic]
  dsimp only
  rw [if_neg (by simpa using h.unseen), if_neg (UInt64.not_le.2 h.later), h.fresh]

/-- A message that comes again is dropped. -/
theorem Session.Takes.again (h : self.Takes crates roomId ciphertextB64 nowMs item text)
    (w : World) (mailbox : Bool) (nowMs' : Int64) (failAt : Option ReceiveStage) :
    ∃ outcome, Exec (SessionOp.exec crates) ((self.received crates item).handleClipWithFault crates
      roomId ciphertextB64 mailbox nowMs' failAt) w (.ok outcome, self.received crates item) w := by
  have hauthentic : (self.received crates item).authenticate crates roomId ciphertextB64 =
      some item := by
    obtain ⟨hashes, heq⟩ := Session.registerText_eq crates { self with
      recvState := Session.cleared (Session.delivered self.recvState item .remote) item.id
      history := ⟨self.history.items ++ [entryOf (item.entry .remote)]⟩ } item.content
    rw [Session.received, heq]
    exact h.authentic
  have hseen : item.seq ≤ (self.received crates item).recvState.lastSeq := by
    rw [Session.received_recvState]
    exact (lastSeq_delivered self.recvState item .remote).2
  rw [Session.handleClipWithFault, hauthentic]
  dsimp only
  rw [if_pos hseen]
  split <;> exact ⟨_, .done _ _⟩

def World.received (w : World) (item : ClipItem) (fs : Fs Dir) : World :=
  { w with
    fs
    callbacks := w.callbacks ++ [⟨item, false, fs⟩]
    stages := w.stages ++ [(.deliveryCommitted, item.id)] ++ [(.historyAdded, item.id)] ++
      [(.pendingCleared, item.id)] }

theorem Session.Ready.handleClip (h : self.Ready pairing w.fs)
    (htakes : self.Takes crates roomId ciphertextB64 nowMs item text)
    (hkeeps : ∀ known ∈ listed crates.lines w.fs,
      known ∈ self.history.items ++ [entryOf (item.entry .remote)]) :
    ∃ fs', Exec (SessionOp.quiet crates)
        (self.handleClipWithFault crates roomId ciphertextB64 false nowMs none) w
        (.ok .liveApplied, self.received crates item) (w.received item fs') ∧
      (self.received crates item).Current pairing fs' := by
  obtain ⟨fs₁, hcommit, h₁, -, hlisted₁⟩ := h.commitRecv
    (Session.delivered self.recvState item .remote) h.opened.recvGeneration
  have hcontent : (item.entry .remote).content = .text text := by
    rw [ClipItem.entry, htakes.content]
    rfl
  obtain ⟨fs₂, hadd, h₂, -, hlisted₂⟩ := h₁.add
    (item.entry .remote) hcontent htakes.unknown htakes.short
    (by rw [hlisted₁]; exact hkeeps)
  obtain ⟨fs₃, hclear, h₃, hrecv₃, hlisted₃⟩ := h₂.commitRecv
    (Session.cleared (Session.delivered self.recvState item .remote) item.id)
    h.opened.recvGeneration
  have hcurrent := Session.Current.mk h₃ hrecv₃ (hlisted₃.trans hlisted₂)
  refine ⟨fs₃, ?_, hcurrent.registerText item.content⟩
  have hcallback : SessionOp.quiet crates (.callback item false)
      { w with
        fs := fs₃
        stages := w.stages ++ [(.deliveryCommitted, item.id)] ++ [(.historyAdded, item.id)] ++
          [(.pendingCleared, item.id)] }
      (.ok .applied) (w.received item fs₃) := rfl
  rw [htakes.handleClip_eq]
  refine (exec_quietFiles hcommit).bind ((exec_checkpoint _ _ _).bind ?_)
  refine (exec_quietFiles hadd).bind ((exec_checkpoint _ _ _).bind ?_)
  refine (exec_quietFiles hclear).bind ((exec_checkpoint _ _ _).bind ?_)
  exact .call hcallback (.done _ _)

theorem Session.Current.handleClip (h : self.Current pairing w.fs)
    (htakes : self.Takes crates roomId ciphertextB64 nowMs item text) :
    ∃ fs', Exec (SessionOp.quiet crates)
        (self.handleClipWithFault crates roomId ciphertextB64 false nowMs none) w
        (.ok .liveApplied, self.received crates item) (w.received item fs') ∧
      (self.received crates item).Current pairing fs' := by
  refine h.toReady.handleClip htakes fun known hknown => ?_
  rw [h.listed] at hknown
  exact List.mem_append_left _ hknown

theorem Session.Current.sendClip {tsMs : Int64} {id : Uuid} (h : self.Current pairing w.fs)
    (hencrypt : ∀ key nonce associated message,
      (crates.prim.encrypt key nonce associated message).isSome = true)
    (hseq : self.sendState.nextSeq.toNat + 1 ≠ UInt64.size) (hid : isUuidV4 id.toText = true)
    (hfits : envelopeSize (.text text) self.sendState.nextSeq tsMs ≤ maxMessageBytes)
    (hnew : ∀ known ∈ self.history.items, known.id ≠ id)
    (hcap : self.history.items.length < historyCap) :
    ∃ bytes fs', Exec (SessionOp.quiet crates)
        (self.sendClipWithFault crates (.text text) tsMs none) w
        (.ok (.clip self.roomId (Base64.encode bytes) "" false),
          self.sent crates (.text text) tsMs id)
        { w with
          fs := fs'
          sealedClips := w.sealedClips ++
            [(Session.envelope (.text text) id self.sendState.nextSeq tsMs, bytes)] } ∧
      (self.sent crates (.text text) tsMs id).Current pairing fs' := by
  obtain ⟨fs₁, hcommit, htidy₁, hlisted₁, hdisk₁⟩ := exec_commitDirection h.files self.sendKey
    self.reserved.sendState
  have hstored₁ := stored_update hdisk₁ h.opened.sendGeneration
  rw [h.opened.sendKey] at hstored₁
  have h₁ : self.reserved.Ready pairing fs₁ := by
    refine ⟨{ h.opened with }, htidy₁, ?_, h.wellFormed⟩
    rw [hstored₁, update_self]
  obtain ⟨fs₂, hadd, h₂, hstored₂, hlisted₂⟩ := h₁.add
    ⟨id, tsMs, .local', historyContent (.text text)⟩ rfl hnew hcap (by
      rw [hlisted₁, h.listed]
      exact fun known hknown => List.mem_append_left _ hknown)
  have hrecv₂ : stored pairing fs₂ pairing.recvKey = self.recvState := by
    rw [hstored₂, hstored₁, update_of_ne pairing.sendKey_ne_recvKey.symm]
    exact h.recv
  have hcurrent := Session.Current.mk h₂ hrecv₂ hlisted₂
  have hencoded : encodeEnvelope crates.wire
      (Session.envelope (.text text) id self.sendState.nextSeq tsMs) = .ok _ :=
    (encodeEnvelope_envelope hid).2 ⟨hfits, rfl⟩
  obtain ⟨ciphertext, hciphertext⟩ := Option.isSome_iff_exists.1 (hencrypt self.keys.send
    (.replicate 24 0) (aad self.roomId self.selfFp self.peerFp)
    (jsonText (Session.envelope (.text text) id self.sendState.nextSeq tsMs).toJson))
  let bytes := (List.Vector.replicate 24 0).toList ++ ciphertext
  have hdraw : SessionOp.quiet crates .newV4 { w with fs := fs₁ } id { w with fs := fs₁ } :=
    ⟨hid, rfl⟩
  have hseal : SessionOp.quiet crates (.sealMessage
      (Session.envelope (.text text) id self.sendState.nextSeq tsMs) self.keys.send
      (aad self.roomId self.selfFp self.peerFp)
      (jsonText (Session.envelope (.text text) id self.sendState.nextSeq tsMs).toJson))
      { w with fs := fs₁ } (.ok bytes)
      { w with
        fs := fs₁
        sealedClips := w.sealedClips ++
          [(Session.envelope (.text text) id self.sendState.nextSeq tsMs, bytes)] } :=
    ⟨⟨_, by rw [sealWith, hciphertext]⟩, rfl⟩
  refine ⟨bytes, fs₂, ?_, hcurrent.registerText _⟩
  rw [Session.sendClipWithFault]
  dsimp only [Session.oversizeImage]
  rw [if_neg hseq]
  refine (exec_quietFiles hcommit).bind ((exec_perform hdraw).bind ?_)
  dsimp only
  rw [hencoded]
  refine .call hseal ((exec_quietFiles hadd).bind ?_)
  exact .done _ _

theorem Session.Current.clearHistory (h : self.Current pairing w.fs)
    (htexts : self.history.items.filterMap (·.kind.imageFileName) = []) :
    ∃ fs', Exec (SessionOp.exec crates) (self.clearHistory crates) w
        (.ok (), { self with history := ⟨[]⟩ }) { w with fs := fs' } ∧
      { self with history := ⟨[]⟩ }.Current pairing fs' := by
  obtain ⟨fs', hclear, htidy, hlisted, hdisk⟩ := exec_clear h.files htexts
  have hstored : ∀ key, stored pairing fs' key = stored pairing w.fs key := by
    intro key
    rw [stored, hdisk, stored]
  refine ⟨fs', ?_, ⟨{ h.opened with }, htidy, ?_, .nil⟩, ?_, hlisted⟩
  · exact (exec_files hclear).bind (.done _ _)
  · exact (hstored _).trans h.send
  · exact (hstored _).trans h.recv

/-! ## Opening -/

/-- The record is of the identity it is opened with. -/
theorem Pairing.record_matches (pairing : Pairing crates.prim) :
    ¬ (pairing.record.identityGeneration ≠ pairing.identity.generation ∨
      pairing.record.localBundleFp ≠ pairing.identity.bundleFp crates.prim ∨
      pairing.record.localBundleFp = pairing.record.peerBundleFp) := by
  obtain ⟨hgeneration, hlocal, -, hne, -⟩ := pairing.record_eq
  rintro (h | h | h)
  · exact h hgeneration
  · exact h hlocal
  · exact hne h

theorem Session.Opened.eq_opened (h : self.Opened pairing) :
    { self with echoHashes := [] } = Session.opened pairing.record self.keys self.sendState
      self.recvState self.history := by
  simp only [Session.opened, h.roomId, h.selfFp, h.peerFp, h.sendKey, h.recvKey]
  rfl

/-- A session is opened with what is on disk, once its pending entries are in the history. -/
theorem Session.Current.openSession {exec : (op : FsOp Dir) → Fs Dir → op.Res → Fs Dir → Prop}
    (hquiet : ∀ op s r s', Quiet crates op s r s' → exec op s r s') (h : self.Current pairing s)
    {history : HistoryStore} {recvState : DirectionState}
    (hrecover : Exec exec (Session.recover crates self.history pairing.recvKey self.recvState) s
      (.ok (history, recvState)) s') :
    Exec exec (Session.openSession crates pairing.identity pairing.record) s
      (.ok (Session.opened pairing.record self.keys self.sendState recvState history)) s' := by
  have hcreate : Quiet crates (.createDirAll .session) s (.ok ()) s := .read ⟨rfl, rfl⟩ nofun
  have hstore : Exec (Quiet crates) SessionStore.new s (.ok ()) s :=
    .call hcreate (.done _ _)
  refine (hstore.mono hquiet).bind (((exec_newStore h.files).mono hquiet).bind ?_)
  dsimp only
  rw [Session.new, if_neg pairing.record_matches, h.opened.keys, h.listed]
  have hload : ∀ key, Exec exec (loadDirection crates key pairing.identity.generation) s
      (.ok (stored pairing s key)) s :=
    fun key => (exec_loadDirection h.files key pairing.identity.generation).mono hquiet
  have hsend := hload pairing.sendKey
  have hrecv := hload pairing.recvKey
  rw [h.send] at hsend
  rw [h.recv] at hrecv
  exact hsend.bind (hrecv.bind (hrecover.bind (.done _ _)))

theorem Session.Current.reopen (h : self.Current pairing s)
    (hpending : self.recvState.pendingHistory = []) :
    Exec (Quiet crates) (Session.openSession crates pairing.identity pairing.record) s
      (.ok { self with echoHashes := [] }) s := by
  rw [h.opened.eq_opened]
  refine h.openSession (fun _ _ _ _ h => h) ?_
  rw [Session.recover, hpending]
  exact .done _ _

/-- The first session of a pairing. -/
theorem Session.current_opened
    (hkeys : pairing.identity.sessionKeys crates.prim pairing.record.peerBundle = .ok keys)
    (hempty : ∀ path, s.files path = none) :
    (Session.opened pairing.record keys (.new pairing.identity.generation)
      (.new pairing.identity.generation) ⟨[]⟩).Current pairing s := by
  have hstored : ∀ key, stored pairing s key = .new pairing.identity.generation := by
    intro key
    rw [stored, onDisk, hempty]
    rfl
  refine ⟨⟨⟨rfl, rfl, rfl, hkeys, rfl, rfl, rfl, rfl⟩, ⟨.inl (hempty _), fun _ => hempty _,
    fun path _ => hempty path⟩, hstored _, .nil⟩, hstored _, ?_⟩
  rw [HistoryStore.listed, hempty]
  rfl

end ClipSync
