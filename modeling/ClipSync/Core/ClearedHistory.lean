import ClipSync.Core.HistoryList
import ClipSync.Core.SessionRun
import ClipSync.Lib.Logic

/-!
# Clearing the history

The history can be cleared through an open session, or through a store of its own
while there is none. What has been received before is in two places, though: in the
metadata file, and among the pending entries of the session file, from where opening a
session adds it to the history again. And a session that is being opened on the thread of
the host has its own copy of both.

While nothing is pending when the history is cleared, no session is being opened or waits
to be taken over, and nothing has been received that the session does not know of, nothing
that was received before comes back: the last sequence number is past it, in memory and
on disk.
-/

namespace ClipSync

open Lib Program FsProgram SessionProgram SessionStore HistoryStore Threads Function

section Clearing

variable {crates : Crates} (pairing : Pairing crates.prim) (seqOf : Uuid → UInt64)

def Call.Relays (crates : Crates) (seqOf : Uuid → UInt64) : Call → Option Session → Prop
  | .handle roomId ciphertextB64 _ _ _, some self => ∀ item,
      self.authenticate crates roomId ciphertextB64 = some item → item.seq = seqOf item.id
  | _, _ => True

def connectProgram (crates : Crates) (fresh : Session) :
    Option (String × String × Int64) → SessionProgram (Option Frame × Option Session)
  | none => return (none, some fresh)
  | some (roomId, ciphertextB64, nowMs) => do
    let (_, fresh) ← fresh.handleClipWithFault crates roomId ciphertextB64 true nowMs none
    return (none, some fresh)

def BootstrapRelays (crates : Crates) (fresh : Session)
    (bootstrap : Option (String × String × Int64)) :
    Prop :=
  ∀ clip ∈ bootstrap, (Call.handle clip.1 clip.2.1 true clip.2.2 none).Relays crates seqOf
    (some fresh)

/-- The item has been received: its delivery has been committed, or it is in the history
or pending. -/
def HasReceived (w : World) (session : Option Session) (id : Uuid) : Prop :=
  w.Delivered id ∨ (∃ item ∈ listed crates.lines w.fs, item.id = id ∧ item.source ≠ .local') ∨
    (∃ pending ∈ (stored pairing w.fs pairing.recvKey).pendingHistory, pending.id = id) ∨
    ∃ self ∈ session, ∃ pending ∈ self.recvState.pendingHistory, pending.id = id

def NothingPending (w : World) (session : Option Session) : Prop :=
  (stored pairing w.fs pairing.recvKey).pendingHistory = [] ∧
    ∀ self ∈ session, self.recvState.pendingHistory = []

/-! ## The two threads -/

/-- The dispatcher has the connection, and a thread of the host opens the next one. -/
inductive HistoryThread where
  | dispatcher
  | host
deriving DecidableEq

abbrev HistoryThread.Value : HistoryThread → Type
  | .dispatcher => Option Session
  | .host => Unit

/-- The accesses of a session. The others do nothing to the files: `build` and `built` are
the two ends of opening a connection, `clear` and `cleared` those of a clear. -/
inductive HistoryOp where
  | session (op : SessionOp)
  | build
  | built (result : Except SessionError Session)
  | clear (connection : Option Session)
  | cleared (ok : Bool)

abbrev HistoryOp.Res : HistoryOp → Type
  | .session op => op.Res
  | .build | .built _ | .clear _ | .cleared _ => Unit

abbrev HistoryProgram := Program HistoryOp HistoryOp.Res

/-- What the threads share: the files, the names of temporary files that either is using,
the connections that wait for the dispatcher, whether one is being opened, the items that
had been received when a clear began that has not ended, and those that had been received
before any clear that succeeded. -/
structure SharedHistory where
  world : World
  owner : String → Option HistoryThread
  queue : List Session
  building : Bool
  clearing : Option (Set Uuid)
  gone : Set Uuid

/-- A name that is drawn is not one of the other thread. -/
def Draws (t : HistoryThread) (owner : String → Option HistoryThread) :
    (op : SessionOp) → op.Res → (String → Option HistoryThread) → Prop
  | .fs .uniqueName, name, owner' =>
    (∀ u ∈ owner name, u = t) ∧ owner' = update owner name (some t)
  | _, _, owner' => owner' = owner

def SharedHistory.exec (crates : Crates) (t : HistoryThread) (op : SessionOp) (s : SharedHistory)
    (r : op.Res) (s' : SharedHistory) : Prop :=
  ∃ w owner, SessionOp.exec crates op s.world r w ∧ Draws t s.owner op r owner ∧
    s' = { s with world := w, owner := owner }

def HistoryOp.exec (t : HistoryThread) :
    (op : HistoryOp) → SharedHistory → op.Res → SharedHistory → Prop
  | .session op, s, r, s' => s.exec crates t op r s'
  | .build, s, _, s' => s' = { s with building := true }
  | .built result, s, _, s' => ∃ queue,
      (queue = s.queue ∨ ∃ fresh, result = .ok fresh ∧ queue = s.queue ++ [fresh]) ∧
      s' = { s with
        owner := fun name => (s.owner name).filter (· = .dispatcher), building := false,
          queue := queue }
  | .clear connection, s, _, s' =>
    s' = { s with clearing := some { id | HasReceived pairing s.world connection id } }
  | .cleared ok, s, _, s' => s' = { s with
      clearing := none, gone := if ok then s.gone ∪ s.clearing.getD ∅ else s.gone }

def onSession {α : Type} (p : SessionProgram α) : HistoryProgram α :=
  p.lift fun op => perform (.session op : HistoryOp)

def buildProgram : HistoryProgram Unit := do
  let () ← perform (.build : HistoryOp)
  let result ← onSession (files (Session.openSession crates pairing.identity pairing.record))
  perform (.built result : HistoryOp)

def clearProgram (crates : Crates) (connection : Option Session) :
    HistoryProgram (Option Session) := do
  let () ← perform (.clear connection : HistoryOp)
  match connection with
  | some self =>
    let (result, self) ← onSession (self.clearHistory crates)
    let () ← perform (.cleared result.isOk : HistoryOp)
    return some self
  | none =>
    match ← onSession (files (HistoryStore.new crates.lines)) with
    | .error _ =>
      let () ← perform (.cleared false : HistoryOp)
      return none
    | .ok store =>
      let (result, _) ← onSession (files (store.clear crates.lines))
      let () ← perform (.cleared result.isOk : HistoryOp)
      return none

/-- Applying a deferred item without a connection. -/
def applyProgram (crates : Crates) (id : Uuid) : HistoryProgram (Option Session) := do
  match ← onSession (files (HistoryStore.new crates.lines)) with
  | .error _ => return none
  | .ok store =>
    let _ ← onSession (files (store.setSource crates.lines id .remote))
    return none

/-- The dispatcher serves calls on its connection and clears, with one or without, and takes
the next connection from the queue. The host opens one connection after the other. -/
inductive HistoryEnter : (t : HistoryThread) → Option t.Value → SharedHistory →
    HistoryProgram t.Value → SharedHistory → Prop where
  | call {s : SharedHistory} {self : Session} {request : Call}
      {program : SessionProgram (Option Frame × Option Session)}
      (hcall : request.program pairing (some self) = some program)
      (hkind : request ≠ .clearHistory) (hrelays : request.Relays crates seqOf (some self)) :
      HistoryEnter .dispatcher (some (some self)) s
        (onSession program >>= fun result => pure result.2) s
  | apply {s : SharedHistory} (id : Uuid) :
      HistoryEnter .dispatcher (some none) s (applyProgram crates id) s
  | clear {s : SharedHistory} (connection : Option Session) :
      HistoryEnter .dispatcher (some connection) s (clearProgram crates connection) s
  | connect {s : SharedHistory} {connection : Option Session} {fresh : Session}
      {rest : List Session} (bootstrap : Option (String × String × Int64))
      (hqueue : s.queue = fresh :: rest) (hrelays : BootstrapRelays seqOf crates fresh bootstrap) :
      HistoryEnter .dispatcher (some connection) s
        (onSession (connectProgram crates fresh bootstrap) >>= fun result => pure result.2)
        { s with queue := rest }
  | disconnect {s : SharedHistory} {connection : Option Session} :
      HistoryEnter .dispatcher (some connection) s (.done none) s
  | build {s : SharedHistory} {last : Option Unit} :
      HistoryEnter .host last s (buildProgram pairing) s

def historySystem : System HistoryOp HistoryOp.Res HistoryThread.Value SharedHistory where
  exec t := HistoryOp.exec pairing t
  enter := HistoryEnter pairing seqOf

abbrev Histories := Threads HistoryOp HistoryOp.Res HistoryThread.Value SharedHistory

/-- A process starts without a connection. -/
def Histories.start (world : World) (gone : Set Uuid) : Histories where
  shared := ⟨world, fun _ => none, [], false, none, gone⟩
  threads
    | .dispatcher => some (.done none)
    | .host => none

def Histories.initial : Histories := .start ⟨⟨fun _ => none, fun _ => []⟩, [], [], []⟩ ∅

inductive Histories.Step (sys : System HistoryOp HistoryOp.Res HistoryThread.Value SharedHistory)
    (x : Histories) : Histories → Prop where
  | step {y : Histories} (h : Threads.Step sys x y) : Step sys x y
  | stop : Step sys x (.start x.shared.world x.shared.gone)

abbrev Histories.Reaches
    (sys : System HistoryOp HistoryOp.Res HistoryThread.Value SharedHistory) :
    Histories → Histories → Prop :=
  Relation.ReflTransGen (Histories.Step sys)

/-- Nothing is pending, no connection is being opened or waits, and the last sequence
number on disk and of the connection is past all that has been received. -/
structure Calm (s : SharedHistory) (connection : Option Session) : Prop where
  nothingPending : NothingPending pairing s.world connection
  building : s.building = false
  queue : s.queue = []
  known : ∀ id, HasReceived pairing s.world connection id →
    seqOf id ≤ (stored pairing s.world.fs pairing.recvKey).lastSeq ∧
      ∀ self ∈ connection, seqOf id ≤ self.recvState.lastSeq

/-- A clear begins when all is calm, and no connection is opened before it has ended. -/
def Undisturbed (_ : HistoryThread) : HistoryOp → SharedHistory → Prop
  | .build, s => s.clearing = none
  | .clear connection, s => Calm pairing seqOf s connection
  | .session _, _ | .built _, _ | .cleared _, _ => True

/-- The lists a host can see. -/
def Histories.Shows (crates : Crates) (x : Histories) (item : HistoryItem) : Prop :=
  item ∈ listed crates.lines x.shared.world.fs ∨
    (∃ self ∈ x.shared.queue, item ∈ self.history.items) ∨
    ∃ self, x.threads .dispatcher = some (.done (some self)) ∧ item ∈ self.history.items

/-! ## What is past -/

/-- A list without the items that are gone. -/
structure Allowed (gone : Set Uuid) (items : List HistoryItem) : Prop where
  wellFormed : WellFormed items
  absent : ∀ item ∈ items, item.source ≠ .local' → item.id ∉ gone

/-- A direction is past the items that are gone. -/
structure Surpasses (gone : Set Uuid) (state : DirectionState) : Prop where
  past : ∀ id ∈ gone, seqOf id ≤ state.lastSeq
  pending : ∀ pending ∈ state.pendingHistory, pending.id ∉ gone

structure Session.Settled (gone : Set Uuid) (session : Session) : Prop where
  opened : session.Opened pairing
  surpasses : Surpasses seqOf gone session.recvState
  allowed : Allowed gone session.history.items

/-- What holds of the files and the connections that wait, whatever the threads do. -/
structure Forgets (s : SharedHistory) : Prop where
  surpasses : Surpasses seqOf s.gone (stored pairing s.world.fs pairing.recvKey)
  allowed : Allowed s.gone (listed crates.lines s.world.fs)
  queue : ∀ self ∈ s.queue, self.Settled pairing seqOf s.gone
  clearing : ∀ received ∈ s.clearing, s.building = false ∧ s.queue = [] ∧
    (stored pairing s.world.fs pairing.recvKey).pendingHistory = [] ∧
    ∀ id ∈ received, seqOf id ≤ (stored pairing s.world.fs pairing.recvKey).lastSeq

/-! ## Temporary files -/

def temps (name : String) : List (Path Dir) := [historyTemp name, tempFile name]

/-- A file that the other thread does not touch, or an image. -/
def Owns (t : HistoryThread) (s : SharedHistory) (path : Path Dir) : Prop :=
  path.dir = .images ∨ ∃ name, s.owner name = some t ∧ path ∈ temps name

/-- What an access may do. Only a clean list becomes the history, and only a direction that
is past becomes the one on disk, and not during a clear. -/
def Admits (t : HistoryThread) (s : SharedHistory) : FsOp Dir → Prop
  | .createNew path | .create path | .writeAll path _ | .remove path => Owns t s path
  | .rename source target => Owns t s source ∧ (target.dir = .images ∨
      (target = metadataFile ∧ (t = .host → s.building = true) ∧
        ∀ contents, s.world.fs.files source = some contents →
          ∃ items, contents = encodeItems crates.lines items ∧ Allowed s.gone items) ∨
      (target = sessionFile ∧ s.clearing = none ∧
        ∀ contents, s.world.fs.files source = some contents →
          ∃ document, contents = crates.documents.toVec document ∧ Surpasses seqOf s.gone
            (ofGeneration pairing.identity.generation
              (document.directions.lookup pairing.recvKey))))
  | .uniqueName | .createDirAll _ | .readDir _ | .read _ | .syncAll _ | .syncDir _ => True

def HistoryOp.Passes (t : HistoryThread) : HistoryOp → SharedHistory → Prop
  | .session (.fs op), s => Admits pairing seqOf t s op
  | .session _, _ => True
  | .build, _ => t = .host
  | .built result, s => t = .host ∧ s.building = true ∧
      ∀ fresh, result = .ok fresh → fresh.Settled pairing seqOf s.gone
  | .clear _, _ => t = .dispatcher
  | .cleared ok, s => t = .dispatcher ∧
      (ok = true → s.clearing.isSome ∧ listed crates.lines s.world.fs = [])

/-- What a thread can rely on: its temporary files are its own, and while the history is
cleared it stays as it is. -/
structure Relies (t : HistoryThread) (s s' : SharedHistory) : Prop where
  owner : ∀ name, s.owner name = some t → s'.owner name = some t ∧
    ∀ path ∈ temps name, s'.world.fs.files path = s.world.fs.files path
  dispatcher : t = .dispatcher → s'.gone = s.gone ∧ s'.clearing = s.clearing ∧
    (s.clearing ≠ none → s'.world.fs.files metadataFile = s.world.fs.files metadataFile)
  host : t = .host → s'.building = s.building ∧ (s.building = true → s'.gone = s.gone)

def HistoryThread.Post : (t : HistoryThread) → t.Value → SharedHistory → Prop
  | .dispatcher, connection, s =>
    s.clearing = none ∧ ∀ self ∈ connection, self.Settled pairing seqOf s.gone
  | .host, _, _ => True

variable {pairing} {seqOf}

variable {t u : HistoryThread} {s s' : SharedHistory} {name : String} {path : Path Dir}
  {g : Set Uuid} {state : DirectionState} {items : List HistoryItem} {α : Type}

theorem historyTemp_injective {a b : String} (h : historyTemp a = historyTemp b) : a = b := by
  have hname := congrArg (fun path => path.name.toList) h
  refine String.toList_injective ?_
  simpa [historyTemp, withExtension, metadataFile] using hname

theorem tempFile_injective {a b : String} (h : tempFile a = tempFile b) : a = b := by
  have hname := congrArg (fun path => path.name.toList) h
  refine String.toList_injective ?_
  simpa [tempFile] using hname

theorem eq_of_mem_temps {a b : String} (ha : path ∈ temps a) (hb : path ∈ temps b) : a = b := by
  simp only [temps, List.mem_cons, List.not_mem_nil, or_false] at ha hb
  rcases ha with rfl | rfl <;> rcases hb with hb | hb
  · exact historyTemp_injective hb
  · cases congrArg Path.dir hb
  · cases congrArg Path.dir hb
  · exact tempFile_injective hb

theorem temps_ne (h : path ∈ temps name) :
    path ≠ metadataFile ∧ path ≠ sessionFile ∧ path.dir ≠ .images := by
  simp only [temps, List.mem_cons, List.not_mem_nil, or_false] at h
  rcases h with rfl | rfl
  · exact ⟨historyTemp_ne name, nofun, nofun⟩
  · exact ⟨nofun, tempFile_ne name, nofun⟩

/-- A file of one thread is none of the two files, and none of the other thread. -/
theorem Owns.ne (h : Owns t s path) :
    path ≠ metadataFile ∧ path ≠ sessionFile ∧
      ∀ name u, u ≠ t → s.owner name = some u → ∀ other ∈ temps name, path ≠ other := by
  rcases h with himages | ⟨mine, howner, hmem⟩
  · refine ⟨ne_metadataFile himages, ?_, fun name u _ _ other hother => ?_⟩
    · rintro rfl
      cases himages
    · rintro rfl
      exact (temps_ne hother).2.2 himages
  · refine ⟨(temps_ne hmem).1, (temps_ne hmem).2.1, ?_⟩
    rintro name u hu hname other hother rfl
    rw [eq_of_mem_temps hmem hother, hname] at howner
    exact hu (Option.some.inj howner)

theorem Draws.owner {op : SessionOp} {r : op.Res} {owner owner' : String → Option HistoryThread}
    (h : Draws t owner op r owner') (hname : owner name = some u) : owner' name = some u := by
  have hsame : owner' = owner → owner' name = some u := by
    rintro rfl
    exact hname
  cases op with
  | fs op =>
    cases op with
    | uniqueName =>
      obtain ⟨hfree, rfl⟩ := h
      by_cases heq : name = r
      · subst heq
        rw [update_self, hfree u hname]
      · rw [update_of_ne heq]
        exact hname
    | _ => exact hsame h
  | _ => exact hsame h

theorem Relies.refl (t : HistoryThread) (s : SharedHistory) : Relies t s s :=
  ⟨fun _ h => ⟨h, fun _ _ => rfl⟩, fun _ => ⟨rfl, rfl, fun _ => rfl⟩, fun _ => ⟨rfl, fun _ => rfl⟩⟩

theorem Relies.trans {s'' : SharedHistory} (h : Relies t s s') (h' : Relies t s' s'') :
    Relies t s s'' where
  owner name hname := by
    obtain ⟨hname', hfiles⟩ := h.owner name hname
    obtain ⟨hname'', hfiles'⟩ := h'.owner name hname'
    exact ⟨hname'', fun path hpath => (hfiles' path hpath).trans (hfiles path hpath)⟩
  dispatcher ht := by
    obtain ⟨hgone, hclearing, hlist⟩ := h.dispatcher ht
    obtain ⟨hgone', hclearing', hlist'⟩ := h'.dispatcher ht
    refine ⟨hgone'.trans hgone, hclearing'.trans hclearing, fun hsome => ?_⟩
    exact (hlist' (hclearing ▸ hsome)).trans (hlist hsome)
  host ht := by
    obtain ⟨hbuilding, hgone⟩ := h.host ht
    obtain ⟨hbuilding', hgone'⟩ := h'.host ht
    refine ⟨hbuilding'.trans hbuilding, fun hbuild => ?_⟩
    exact (hgone' (hbuilding.trans hbuild)).trans (hgone hbuild)

/-! ## Accesses -/

/-- The two files that matter are as they were. -/
theorem Forgets.sameFiles (h : Forgets pairing seqOf s) {w : World}
    {owner : String → Option HistoryThread}
    (hlist : w.fs.files metadataFile = s.world.fs.files metadataFile)
    (hsession : w.fs.files sessionFile = s.world.fs.files sessionFile) :
    Forgets pairing seqOf { s with world := w, owner := owner } := by
  have hlisted : listed crates.lines w.fs = listed crates.lines s.world.fs :=
    listed_congr _ hlist
  have hstored : stored pairing w.fs = stored pairing s.world.fs := by
    funext key
    rw [stored, onDisk_congr hsession, stored]
  exact ⟨by rw [hstored]; exact h.surpasses, by rw [hlisted]; exact h.allowed, h.queue,
    by rw [hstored]; exact h.clearing⟩

/-- An access that is admitted leaves the files of the other thread alone, and the history
while the other thread clears it. -/
structure Leaves (t : HistoryThread) (s : SharedHistory) (fs' : Fs Dir) : Prop where
  temps : ∀ name u, u ≠ t → s.owner name = some u → ∀ path ∈ temps name,
    fs'.files path = s.world.fs.files path
  list : t = .host → s.clearing ≠ none →
    fs'.files metadataFile = s.world.fs.files metadataFile

theorem Forgets.access {op : FsOp Dir} {r : op.Res} {fs' : Fs Dir}
    {owner : String → Option HistoryThread} (h : Forgets pairing seqOf s)
    (htest : Admits pairing seqOf t s op) (hexec : Fs.exec op s.world.fs r fs') :
    Forgets pairing seqOf { s with world := { s.world with fs := fs' }, owner := owner } ∧
      Leaves t s fs' := by
  rcases Fs.exec_cases hexec with rfl | ⟨path, contents, rfl, hwrites⟩ |
    ⟨source, target, contents, rfl, hcontents, rfl⟩
  · exact ⟨h.sameFiles rfl rfl, fun _ _ _ _ _ _ => rfl, fun _ _ => rfl⟩
  · have howns : Owns t s path := by
      cases op with
      | createNew p | create p | writeAll p | remove p => exact (hwrites : p = path) ▸ htest
      | _ => exact hwrites.elim
    obtain ⟨hlist, hsession, htemps⟩ := howns.ne
    exact ⟨h.sameFiles (Fs.set_files_of_ne hlist _) (Fs.set_files_of_ne hsession _),
      fun name u hu hname other hother => Fs.set_files_of_ne
        (htemps name u hu hname other hother) _,
      fun _ _ => Fs.set_files_of_ne hlist _⟩
  obtain ⟨howns, htarget⟩ := htest
  obtain ⟨hlist, hsession, htemps⟩ := howns.ne
  have hother : ∀ {path}, path ≠ source → path ≠ target →
      (s.world.fs.replace source target contents).files path = s.world.fs.files path :=
    fun hsource htarget => Fs.replace_files_of_ne hsource htarget
  have hleaves : (∀ name, target ∉ temps name) → ∀ name u, u ≠ t → s.owner name = some u →
      ∀ path ∈ temps name, _ := fun htarget name u hu hname path hpath =>
    hother (htemps name u hu hname path hpath).symm (ne_of_mem_of_not_mem hpath (htarget name))
  rcases htarget with himages | ⟨rfl, hbuilding, hallowed⟩ | ⟨rfl, hclearing, hdocument⟩
  · have hmeta := ne_metadataFile himages
    refine ⟨h.sameFiles (hother hlist.symm hmeta.symm) (hother hsession.symm ?_), hleaves ?_,
      fun _ _ => hother hlist.symm hmeta.symm⟩
    · rintro rfl
      cases himages
    · exact fun name hname => (temps_ne hname).2.2 himages
  · have hsame : stored pairing (s.world.fs.replace source metadataFile contents) =
        stored pairing s.world.fs := by
      funext key
      rw [stored, onDisk_congr (hother hsession.symm (by rintro ⟨⟩)), stored]
    obtain ⟨items, rfl, hallowed⟩ := hallowed contents hcontents
    refine ⟨⟨by rw [hsame]; exact h.surpasses, ?_, h.queue, by rw [hsame]; exact h.clearing⟩,
      hleaves ?_, fun ht hclearing => ?_⟩
    · rw [listed_replace _ hallowed.wellFormed]
      exact hallowed
    · exact fun name hname => (temps_ne hname).1 rfl
    · obtain ⟨received, hreceived⟩ := Option.ne_none_iff_exists'.1 hclearing
      rw [(h.clearing received hreceived).1] at hbuilding
      cases hbuilding ht
  · obtain ⟨document, rfl, hdocument⟩ := hdocument contents hcontents
    refine ⟨⟨?_, ?_, h.queue, ?_⟩, hleaves ?_, fun _ hne => absurd hclearing hne⟩
    · rw [stored, onDisk_replace]
      exact hdocument
    · rw [listed_congr _ (hother hlist.symm (by rintro ⟨⟩))]
      exact h.allowed
    · rintro received hreceived
      rw [hclearing] at hreceived
      cases hreceived
    · exact fun name hname => (temps_ne hname).2.1 rfl

theorem Forgets.session {op : SessionOp} {r : op.Res} (h : Forgets pairing seqOf s)
    (htest : HistoryOp.Passes pairing seqOf t (.session op) s) (hexec : s.exec crates t op r s') :
    Forgets pairing seqOf s' ∧ ∀ u, u ≠ t → Relies u s s' := by
  obtain ⟨w, owner, hexec, hdraws, rfl⟩ := hexec
  have hrelies : ∀ {fs' : Fs Dir}, Leaves t s fs' → w.fs = fs' → ∀ u, u ≠ t →
      Relies u s { s with world := w, owner := owner } := by
    rintro fs' hleaves rfl u hu
    refine ⟨fun name hname => ⟨hdraws.owner hname, hleaves.temps name u hu hname⟩,
      fun hdispatcher => ⟨rfl, rfl, hleaves.list ?_⟩, fun _ => ⟨rfl, fun _ => rfl⟩⟩
    cases t with
    | host => rfl
    | dispatcher => exact absurd hdispatcher hu
  rcases fs_of_exec hexec with ⟨op, rfl⟩ | hfs
  · obtain ⟨fs', hfs, rfl⟩ := hexec
    obtain ⟨hforgets, hleaves⟩ := h.access htest hfs
    exact ⟨hforgets, hrelies hleaves rfl⟩
  · exact ⟨h.sameFiles (by rw [hfs]) (by rw [hfs]),
      hrelies ⟨fun _ _ _ _ _ _ => rfl, fun _ _ => rfl⟩ hfs⟩

/-! ## Programs of one thread -/

/-- A thread at work, with what is gone. A clear of the dispatcher may have begun. -/
def Works (t : HistoryThread) (g : Set Uuid) (c : Option (Set Uuid)) (s : SharedHistory) : Prop :=
  s.gone = g ∧ (t = .dispatcher → s.clearing = c) ∧ (t = .host → s.building = true)

theorem Works.relies {c : Option (Set Uuid)} (h : Works t g c s) (hrelies : Relies t s s') :
    Works t g c s' := by
  obtain ⟨rfl, hclearing, hbuilding⟩ := h
  cases t with
  | dispatcher =>
    obtain ⟨hgone, hsame, -⟩ := hrelies.dispatcher rfl
    exact ⟨hgone, fun _ => hsame.trans (hclearing rfl), nofun⟩
  | host =>
    obtain ⟨hsame, hgone⟩ := hrelies.host rfl
    exact ⟨hgone (hbuilding rfl), nofun, fun _ => hsame.trans (hbuilding rfl)⟩

theorem Forgets.clearing_eq_none (h : Forgets pairing seqOf s) (hbuilding : s.building = true) :
    s.clearing = none := by
  by_contra hne
  obtain ⟨received, hreceived⟩ := Option.ne_none_iff_exists'.1 hne
  cases hbuilding.symm.trans (h.clearing received hreceived).1

theorem Works.clearing_eq_none (h : Works t g none s) (hs : Forgets pairing seqOf s) :
    s.clearing = none := by
  cases t with
  | dispatcher => exact h.2.1 rfl
  | host => exact hs.clearing_eq_none (h.2.2 rfl)

variable (pairing seqOf t) in
/-- The triples of one thread under the interference of the other. -/
abbrev threadLogic : Logic SessionOp SessionOp.Res SharedHistory :=
  .outline (fun op s => s.exec crates t op) (Forgets pairing seqOf) (Relies t) (Relies.refl t)
    fun op => HistoryOp.Passes pairing seqOf t (.session op)

variable {c : Option (Set Uuid)}

abbrev Steady (pairing : Pairing crates.prim) (seqOf : Uuid → UInt64) (t : HistoryThread)
    (P : SharedHistory → Prop) : Prop :=
  Stable (Forgets pairing seqOf) (Relies t) P

theorem steady_works (P : Prop) : Steady pairing seqOf t fun s => Works t g c s ∧ P :=
  fun _ _ _ h hrelies => ⟨h.1.relies hrelies, h.2⟩

theorem Works.exec {op : SessionOp} {r : op.Res} (h : Works t g c s)
    (hexec : s.exec crates t op r s') : Works t g c s' := by
  obtain ⟨w, owner, -, -, rfl⟩ := hexec
  exact h

theorem triple_done {Q : α → SharedHistory → Prop} {a : α} {P : Prop} (hs : Works t g c s) (h : P)
    (hQ : ∀ s, Works t g c s → P → Q a s) :
    (threadLogic pairing seqOf t).Triple Q (.done a) s :=
  fun s₁ _ hrelies => hQ s₁ (hs.relies hrelies) h

theorem triple_return {a : α} {P : α → Prop} (hs : Works t g c s) (h : P a) :
    (threadLogic pairing seqOf t).Triple (fun a s' => Works t g c s' ∧ P a) (pure a) s :=
  triple_done hs h fun _ hworks h => ⟨hworks, h⟩

/-- An access that is admitted in any state. -/
theorem triple_access (op : SessionOp) {P : Prop} (hs : Works t g c s ∧ P)
    (htest : ∀ s, HistoryOp.Passes pairing seqOf t (.session op) s) :
    (threadLogic pairing seqOf t).Triple (fun _ s' => Works t g c s' ∧ P) (perform op) s :=
  fun s₁ _ hrelies => ⟨htest s₁, fun _ _ hexec _ _ _ hrelies' =>
    ⟨((hs.1.relies hrelies).exec hexec).relies hrelies', hs.2⟩⟩

theorem admits_of_onImages {op : FsOp Dir} (h : OnImages op) (s : SharedHistory) :
    Admits pairing seqOf t s op := by
  have himages : ∀ path : Path Dir, path.dir ≠ .session → path.dir ≠ .history →
      path.dir = .images := by
    rintro ⟨dir, name⟩ hsession hhistory
    cases dir with
    | images => rfl
    | session => exact absurd rfl hsession
    | history => exact absurd rfl hhistory
  cases op with
  | createNew p | create p | writeAll p | remove p => exact .inl (himages p h.1 h.2)
  | rename source target =>
    exact ⟨.inl (himages source h.1.1 h.2.1), .inl (himages target h.1.2 h.2.2)⟩
  | _ => trivial

/-- While a clear goes on, the history is the given list. -/
def StillLists (crates : Crates) (items : List HistoryItem) (s : SharedHistory) : Prop :=
  s.clearing = none ∨ listed crates.lines s.world.fs = items

theorem steady_lists : Steady pairing seqOf t fun s => Works t g c s ∧
    StillLists crates items s := by
  rintro s s' hI ⟨hworks, hshown⟩ hrelies
  have hworks' := hworks.relies hrelies
  refine ⟨hworks', ?_⟩
  cases t with
  | host => exact .inl (hI.clearing_eq_none (hworks'.2.2 rfl))
  | dispatcher =>
    obtain ⟨-, hclearing, hlist⟩ := hrelies.dispatcher rfl
    rcases hshown with hnone | hlisted
    · exact .inl (hclearing.trans hnone)
    · by_cases hnone : s.clearing = none
      · exact .inl (hclearing.trans hnone)
      · exact .inr ((listed_congr _ (hlist hnone)).trans hlisted)

/-- A program that only touches images keeps what its accesses keep. -/
theorem triple_images {p : FsProgram Dir α} {P : SharedHistory → Prop}
    (hP : Steady pairing seqOf t P)
    (hkeeps : ∀ {s op r s'}, OnImages op → P s → s.exec crates t (.fs op) r s' → P s')
    (hp : AllOps OnImages p) (hs : P s) :
    (threadLogic pairing seqOf t).Triple (fun _ s' => P s') (files p) s := by
  induction p generalizing s with
  | done a => exact fun s₁ hI hrelies => hP s s₁ hI hs hrelies
  | call op k ih =>
    intro s₁ hI hrelies
    refine ⟨admits_of_onImages hp.1 s₁, fun r s' hexec _ => ?_⟩
    exact ih r (hp.2 r) (hkeeps hp.1 (hP s s₁ hI hs hrelies) hexec)

theorem triple_lists {p : FsProgram Dir α} (hp : AllOps OnImages p)
    (hs : Works t g c s ∧ StillLists crates items s) :
    (threadLogic pairing seqOf t).Triple (fun _ s' => Works t g c s' ∧ StillLists crates items s')
      (files p) s := by
  refine triple_images steady_lists ?_ hp hs
  rintro s op r _ himages ⟨hworks, hshown⟩ ⟨_, owner, ⟨fs', hexec, rfl⟩, -, rfl⟩
  refine ⟨hworks, hshown.imp_right fun hlisted => ?_⟩
  exact (listed_congr _ (Fs.files_of_leaves himages.leaves hexec)).trans hlisted

variable (pairing seqOf t g c) in
/-- A program over the files that may go on wherever it comes, and what it returns. -/
def Yields (p : FsProgram Dir α) (P : α → Prop) : Prop :=
  ∀ s, Forgets pairing seqOf s → Works t g c s →
    (threadLogic pairing seqOf t).Triple (fun a s' => Works t g c s' ∧ P a) (files p) s

section Yields

variable {β : Type} {p : FsProgram Dir α} {P : α → Prop}

theorem Yields.pure {a : α} (h : P a) : Yields pairing seqOf t g c (pure a) P :=
  fun _ _ hs => triple_done hs h fun _ hworks h => ⟨hworks, h⟩

theorem Yields.bind {f : α → FsProgram Dir β} {Q : β → Prop} (hp : Yields pairing seqOf t g c p P)
    (hf : ∀ a, P a → Yields pairing seqOf t g c (f a) Q) :
    Yields pairing seqOf t g c (p >>= f) Q := by
  intro s hI hs
  rw [Session.files_bind]
  exact Logic.bind _ hI (hp s hI hs) fun a s₁ hI₁ h => hf a h.2 s₁ hI₁ h.1

theorem Yields.onImages (hp : AllOps OnImages p) :
    Yields pairing seqOf t g c p fun _ => True := by
  intro s _ hs
  refine (triple_images (fun _ _ _ h => h.relies) (fun _ h => h.exec) hp hs).mono ?_
  exact fun _ _ hworks => ⟨hworks, trivial⟩

/-- What a file is read as follows from what is in it at some time. -/
theorem Yields.read {P : Except IoError Bytes → Prop}
    (hP : ∀ s (r : Except IoError Bytes), Forgets pairing seqOf s → Works t g c s →
      Fs.exec (.read path) s.world.fs r s.world.fs → P r) :
    Yields pairing seqOf t g c (access (.read path)) P := by
  intro s _ hs s₁ hI hrelies
  have hs₁ := hs.relies hrelies
  refine ⟨trivial, ?_⟩
  rintro r s' hexec -
  have hworks := hs₁.exec hexec
  obtain ⟨_, owner, ⟨fs', hread, rfl⟩, -, rfl⟩ := hexec
  have hsame : fs' = s₁.world.fs := by
    match r, hread with
    | .ok _, hread => exact hread.1
    | .error .notFound, hread => exact hread.1
    | .error (.other _), hread => exact hread
  rw [hsame] at hread
  exact fun s₂ _ hrelies₂ => ⟨hworks.relies hrelies₂, hP s₁ r hI hs₁ hread⟩

end Yields

/-! ## Replacing a file -/

/-- A thread that has drawn a name, with what is in its temporary file. -/
def Drafts (t : HistoryThread) (g : Set Uuid) (c : Option (Set Uuid)) (name : String)
    (path : Path Dir) (contents : Option Bytes) (s : SharedHistory) : Prop :=
  Works t g c s ∧ s.owner name = some t ∧
    ∀ bytes, contents = some bytes → s.world.fs.files path = some bytes

theorem steady_drafts {contents : Option Bytes} (hpath : path ∈ temps name) :
    Steady pairing seqOf t (Drafts t g c name path contents) := by
  rintro s s' - ⟨hworks, howner, hfile⟩ hrelies
  obtain ⟨howner', hfiles⟩ := hrelies.owner name howner
  refine ⟨hworks.relies hrelies, howner', fun bytes hbytes => ?_⟩
  rw [hfiles path hpath]
  exact hfile bytes hbytes

section Replacing

variable {temp : Path Dir} {contents : Bytes} {mode : WriteMode} {P : SharedHistory → Prop}

theorem triple_abandon (htemp : temp ∈ temps name) {place : Path Dir} {error : IoError}
    (hs : Drafts t g c name temp none s) :
    (threadLogic pairing seqOf t).Triple (fun r s' => Works t g c s' ∧ (r = .ok () → P s'))
      (files (FsProgram.abandon mode temp place error)) s := by
  have hend : ∀ s, Works t g c s → (threadLogic pairing seqOf t).Triple
      (fun r s' => Works t g c s' ∧ (r = .ok () → P s'))
      (.done (.error (place, error)) : SessionProgram (Except (Path Dir × IoError) Unit)) s :=
    fun s hs => triple_done hs trivial fun _ h _ => ⟨h, nofun⟩
  unfold FsProgram.abandon
  split
  · intro s₁ hI hrelies
    have hs₁ := steady_drafts htemp s s₁ hI hs hrelies
    exact ⟨.inr ⟨name, hs₁.2.1, htemp⟩, fun r s' hexec _ => hend s' (hs₁.1.exec hexec)⟩
  · exact hend s hs.1

/-- The rule for one access to the temporary file. -/
theorem triple_temp (op : FsOp Dir) {Q : op.Res → SharedHistory → Prop} {known : Option Bytes}
    (htemp : temp ∈ temps name) (hs : Drafts t g c name temp known s)
    (htest : ∀ s, Forgets pairing seqOf s → Drafts t g c name temp known s →
      Admits pairing seqOf t s op)
    (hstep : ∀ s r fs', Drafts t g c name temp known s → Fs.exec op s.world.fs r fs' →
      Q r { s with world := { s.world with fs := fs' } })
    (hop : ∀ (r : op.Res) owner owner', Draws t owner (.fs op) r owner' → owner' = owner)
    (hQ : ∀ r, Steady pairing seqOf t (Q r)) :
    (threadLogic pairing seqOf t).Triple Q (files (perform op)) s := by
  intro s₁ hI hrelies
  have hs₁ := steady_drafts htemp s s₁ hI hs hrelies
  refine ⟨htest s₁ hI hs₁, ?_⟩
  rintro r _ ⟨_, owner, ⟨fs', hexec, rfl⟩, hdraws, rfl⟩ -
  cases hop r _ _ hdraws
  exact fun s₂ hI₂ hrelies₂ => hQ r _ s₂ hI₂ (hstep s₁ r fs' hs₁ hexec) hrelies₂

theorem Drafts.weaken {known : Option Bytes} (h : Drafts t g c name temp known s) :
    Drafts t g c name temp none s :=
  ⟨h.1, h.2.1, nofun⟩

theorem Drafts.set {known : Option Bytes} (h : Drafts t g c name temp known s) (bytes : Bytes) :
    Drafts t g c name temp (some bytes)
      { s with world := { s.world with fs := s.world.fs.set temp (some bytes) } } := by
  refine ⟨h.1, h.2.1, ?_⟩
  rintro _ ⟨⟩
  exact update_self _ _ _

/-- The temporary file is written and renamed. The renaming makes `P` true. -/
theorem triple_atomicWrite (htemp : temp ∈ temps name) (hs : Drafts t g c name temp none s)
    (hstart : Forgets pairing seqOf s)
    (hrename : ∀ s, Forgets pairing seqOf s → Drafts t g c name temp (some contents) s →
      Admits pairing seqOf t s (.rename temp path))
    (hP : Steady pairing seqOf t fun s => Works t g c s ∧ P s)
    (hdone : ∀ s : SharedHistory, P { s with
      world := { s.world with fs := s.world.fs.replace temp path contents } }) :
    (threadLogic pairing seqOf t).Triple (fun r s' => Works t g c s' ∧ (r = .ok () → P s'))
      (files (FsProgram.atomicWrite mode temp path contents)) s := by
  have hfail : ∀ {s} place error, Works t g c s → (threadLogic pairing seqOf t).Triple
      (fun r s' => Works t g c s' ∧ (r = .ok () → P s'))
      (.done (.error (place, error)) : SessionProgram (Except (Path Dir × IoError) Unit)) s :=
    fun _ _ hs => triple_done hs trivial fun _ h _ => ⟨h, nofun⟩
  have hok : ∀ {s}, Works t g c s ∧ P s → (threadLogic pairing seqOf t).Triple
      (fun r s' => Works t g c s' ∧ (r = .ok () → P s'))
      (.done (.ok ()) : SessionProgram (Except (Path Dir × IoError) Unit)) s := by
    intro s hs s₁ hI hrelies
    obtain ⟨hworks, hdone⟩ := hP s s₁ hI hs hrelies
    exact ⟨hworks, fun _ => hdone⟩
  have howns : ∀ {s known}, Drafts t g c name temp known s → Owns t s temp :=
    fun h => .inr ⟨name, h.2.1, htemp⟩
  have hopen : (threadLogic pairing seqOf t).Triple (fun _ s' => Drafts t g c name temp none s')
      (files (openTemp mode temp)) s := by
    unfold openTemp
    split
    · refine triple_temp (.createNew temp) htemp hs (fun _ _ h => howns h)
        (fun s r fs' h hexec => ?_) (fun _ _ _ h => h) fun _ => steady_drafts htemp
      cases r with
      | ok u => exact hexec.2 ▸ (h.set []).weaken
      | error e => exact hexec ▸ h
    · refine triple_temp (.create temp) htemp hs (fun _ _ h => howns h)
        (fun s r fs' h hexec => ?_) (fun _ _ _ h => h) fun _ => steady_drafts htemp
      cases r with
      | ok u => exact hexec ▸ (h.set []).weaken
      | error e => exact hexec ▸ h
  rw [FsProgram.atomicWrite, Session.files_bind]
  refine Logic.bind _ hstart hopen fun r s₁ hs₁ hheld₁ => ?_
  cases r with
  | error e => exact hfail _ _ hheld₁.1
  | ok u =>
  dsimp only
  rw [Session.files_bind]
  refine Logic.bind _ hs₁ (triple_temp (.writeAll temp contents) (Q := fun r s' =>
    Drafts t g c name temp (if r = .ok () then some contents else none) s') htemp hheld₁
    (fun _ _ h => howns h) (fun s r fs' h hexec => ?_) (fun _ _ _ h => h) fun _ =>
    steady_drafts htemp)
    fun r s₂ hs₂ hheld₂ => ?_
  · cases r with
    | ok u => exact hexec ▸ h.set contents
    | error e =>
      obtain ⟨part, -, rfl⟩ := hexec
      exact (h.set part).weaken
  cases r with
  | error e => exact triple_abandon htemp hheld₂
  | ok u =>
  dsimp only
  rw [Session.files_bind]
  refine Logic.bind _ hs₂ (triple_temp (.syncAll temp)
    (Q := fun _ => Drafts t g c name temp (some contents)) htemp hheld₂ (fun _ _ _ => trivial)
    (fun s r fs' h hexec => ?_) (fun _ _ _ h => h) fun _ => steady_drafts htemp)
    fun r s₃ hs₃ hheld₃ => ?_
  · cases hexec
    exact h
  cases r with
  | error e => exact triple_abandon htemp hheld₃.weaken
  | ok u =>
  dsimp only
  rw [Session.files_bind]
  refine Logic.bind _ hs₃ (triple_temp (.rename temp path) (Q := fun r s' => match r with
    | .ok () => Works t g c s' ∧ P s'
    | .error _ => Drafts t g c name temp none s') htemp hheld₃ hrename (fun s r fs' h hexec => ?_)
    (fun _ _ _ h => h) fun r => ?_) fun r s₄ hs₄ hafter => ?_
  · cases r with
    | ok u =>
      obtain ⟨bytes, hbytes, rfl⟩ := hexec
      cases (h.2.2 contents rfl).symm.trans hbytes
      exact ⟨h.1, hdone s⟩
    | error e => exact hexec ▸ h.weaken
  · cases r with
    | ok u => exact hP
    | error e => exact steady_drafts htemp
  cases r with
  | error e => exact triple_abandon htemp hafter
  | ok u =>
  dsimp only
  split
  · rw [Session.files_bind]
    intro s₅ hI hrelies
    refine ⟨trivial, ?_⟩
    rintro r _ ⟨_, owner, ⟨fs', hexec, rfl⟩, hdraws, rfl⟩ -
    cases hdraws
    cases hexec
    have hs₅ := hP s₄ s₅ hI hafter hrelies
    cases r with
    | error e => exact hfail _ _ hs₅.1
    | ok u => exact hok hs₅
  · exact hok hafter

/-- The same with a name that is drawn. -/
theorem triple_replace {ε : Type} (tempOf : String → Path Dir) (f : Path Dir × IoError → ε)
    (htemp : ∀ name, tempOf name ∈ temps name) (hI : Forgets pairing seqOf s)
    (hs : Works t g c s)
    (hrename : ∀ name s, Forgets pairing seqOf s →
      Drafts t g c name (tempOf name) (some contents) s →
      Admits pairing seqOf t s (.rename (tempOf name) path))
    (hP : Steady pairing seqOf t fun s => Works t g c s ∧ P s)
    (hdone : ∀ (name : String) (s : SharedHistory), P { s with
      world := { s.world with fs := s.world.fs.replace (tempOf name) path contents } }) :
    (threadLogic pairing seqOf t).Triple (fun r s' => Works t g c s' ∧ (r = .ok () → P s'))
      (files (do
        let name ← access .uniqueName
        let written ← FsProgram.atomicWrite mode (tempOf name) path contents
        return written.mapError f)) s := by
  rw [Session.files_bind]
  refine Logic.bind _ hI (Q := fun name s' => Drafts t g c name (tempOf name) none s') ?_ ?_
  · intro s₁ _ hrelies
    refine ⟨trivial, ?_⟩
    rintro name _ ⟨_, owner, ⟨fs', hexec, rfl⟩, ⟨-, rfl⟩, rfl⟩ -
    cases hexec
    have hworks : Works t g c s₁ := hs.relies hrelies
    have hheld : Drafts t g c name (tempOf name) none
        { s₁ with owner := update s₁.owner name (some t) } := ⟨hworks, update_self _ _ _, nofun⟩
    exact fun s₂ hI₂ hrelies₂ => steady_drafts (htemp name) _ s₂ hI₂ hheld hrelies₂
  · intro name s₁ hI₁ hheld
    rw [Session.files_bind]
    refine Logic.bind _ hI₁ (triple_atomicWrite (htemp name) hheld hI₁ (hrename name) hP
      (hdone name)) fun r s₂ hI₂ hafter => ?_
    cases r with
    | error e => exact triple_done hafter.1 trivial fun _ h _ => ⟨h, nofun⟩
    | ok u =>
      intro s₃ hI₃ hrelies
      obtain ⟨hworks, hdone⟩ := hP s₂ s₃ hI₃ ⟨hafter.1, hafter.2 rfl⟩ hrelies
      exact ⟨hworks, fun _ => hdone⟩

end Replacing

/-! ## The history -/

theorem triple_persist (hI : Forgets pairing seqOf s) (hs : Works t g c s)
    (hitems : Allowed g items) :
    (threadLogic pairing seqOf t).Triple
      (fun r s' => Works t g c s' ∧ (r = .ok () → StillLists crates items s'))
      (files (persist crates.lines items)) s := by
  refine triple_replace historyTemp _ (fun _ => by simp [temps]) hI hs (fun name s _ hheld => ?_)
    steady_lists fun name s => .inr (listed_replace _ hitems.wellFormed _ _)
  refine ⟨.inr ⟨name, hheld.2.1, by simp [temps]⟩, .inr (.inl ⟨rfl, hheld.1.2.2, ?_⟩)⟩
  intro contents hcontents
  cases (hheld.2.2 _ rfl).symm.trans hcontents
  rw [hheld.1.1]
  exact ⟨items, rfl, hitems⟩

theorem yields_persist (hitems : Allowed g items) :
    Yields pairing seqOf t g c (persist crates.lines items) fun _ => True :=
  fun _ hI hs => (triple_persist hI hs hitems).mono fun _ _ h => ⟨h.1, trivial⟩

theorem Allowed.adding (h : Allowed g items) {item : NewHistoryItem}
    (hitem : item.source ≠ .local' → item.id ∉ g) : Allowed g (adding items item) := by
  refine ⟨h.wellFormed.adding item, fun other hother hsource => ?_⟩
  rcases mem_adding hother with hold | rfl
  · exact h.absent other hold hsource
  · exact hitem hsource

variable {store : HistoryStore}

theorem yields_writeContent (item : NewHistoryItem) :
    Yields pairing seqOf t g c (writeContent item) fun r => ∀ kind, r = .ok kind →
      kind = kindOf item := by
  unfold writeContent
  split
  · rename_i hcontent
    refine .pure ?_
    rintro _ ⟨⟩
    rw [kindOf, hcontent]
  rename_i hcontent
  refine (Yields.onImages (atomicWrite_onImages rfl _)).bind fun r _ => ?_
  cases r with
  | error e => exact .pure (by rintro _ ⟨⟩)
  | ok u =>
    refine .pure ?_
    rintro _ ⟨⟩
    rw [kindOf, hcontent]

theorem yields_add {item : NewHistoryItem} (hstore : Allowed g store.items)
    (hitem : item.source ≠ .local' → item.id ∉ g) :
    Yields pairing seqOf t g c (store.add crates.lines item) fun r => Allowed g r.2.items := by
  have hadding := hstore.adding hitem
  unfold HistoryStore.add
  split
  · exact .pure hstore
  rename_i hnew
  refine (yields_writeContent item).bind fun r hwritten => ?_
  cases r with
  | error e => exact .pure hstore
  | ok kind =>
  cases hwritten kind rfl
  have hupdated : recent (store.items ++ [⟨item.id, item.tsMs, kindOf item, item.source⟩]) =
      HistoryStore.adding store.items item := (if_neg hnew).symm
  dsimp only
  rw [dropOldest_eq_recent hstore.wellFormed.bounded, hupdated]
  refine (yields_persist hadding).bind fun r _ => ?_
  cases r with
  | error e =>
    dsimp only
    split
    · exact (Yields.onImages (allOps_perform (remove_onImages _))).bind fun _ _ => .pure hstore
    · exact .pure hstore
  | ok u =>
    dsimp only
    split
    · exact .pure hadding
    · exact (Yields.onImages (removeFileIfExists_onImages _)).bind fun _ _ => .pure hadding

theorem yields_setSource (id : Uuid) (hstore : Allowed g store.items) :
    Yields pairing seqOf t g c (store.setSource crates.lines id .remote) fun r =>
      Allowed g r.2.items := by
  unfold setSource
  split
  · exact .pure hstore
  rename_i item hfind
  split
  · rename_i htransition
    have hreceived : item.source ≠ .local' := by
      intro hlocal
      rw [hlocal] at htransition
      cases htransition
    have hid : item.id = id := by simpa using List.find?_some hfind
    have hpromotes : Promotes store.items (promoting store.items id) :=
      hid ▸ promotes_promoting hstore.wellFormed (List.mem_of_find?_eq_some hfind) hreceived
    have hpromoted : Allowed g (promoting store.items id) := by
      refine ⟨hstore.wellFormed.promoting id, fun other hother hsource => ?_⟩
      obtain ⟨old, hold, hsame, hold'⟩ := hpromotes.received other hother hsource
      rw [← hsame]
      exact hstore.absent old hold hold'
    refine (yields_persist hpromoted).bind fun r _ => ?_
    cases r with
    | error e => exact .pure hstore
    | ok u => exact .pure hpromoted
  · exact .pure hstore

theorem Allowed.nil : Allowed g [] := ⟨.nil, nofun⟩

/-- The history is empty after a clear, as long as it is not over. -/
theorem triple_clear {received : Set Uuid} (hI : Forgets pairing seqOf s)
    (hs : Works .dispatcher g (some received) s) (hstore : Allowed g store.items) :
    (threadLogic pairing seqOf .dispatcher).Triple
      (fun r s' => Works .dispatcher g (some received) s' ∧ Allowed g r.2.items ∧
        (r.1 = .ok () → listed crates.lines s'.world.fs = [] ∧ r.2.items = []))
      (files (store.clear crates.lines)) s := by
  rw [HistoryStore.clear, Session.files_bind]
  refine Logic.bind _ hI (triple_persist hI hs .nil) fun r s₁ hI₁ hpersisted => ?_
  cases r with
  | error e => exact triple_done hpersisted.1 hstore fun _ h hP => ⟨h, hP, nofun⟩
  | ok u =>
  have hempty : ∀ {s}, Works .dispatcher g (some received) s ∧ StillLists crates [] s →
      listed crates.lines s.world.fs = [] := by
    rintro s ⟨hworks, hnone | hlisted⟩
    · cases (hworks.2.1 rfl).symm.trans hnone
    · exact hlisted
  dsimp only
  rw [Session.files_bind]
  refine Logic.bind _ hI₁ (triple_lists (removeFiles_onImages _) ⟨hpersisted.1, hpersisted.2 rfl⟩)
    fun r s₂ _ hs₂ s₃ hI₃ hrelies => ?_
  have hs₃ := steady_lists s₂ s₃ hI₃ hs₂ hrelies
  exact ⟨hs₃.1, .nil, fun _ => ⟨hempty hs₃, rfl⟩⟩

theorem yields_loadItems : Yields pairing seqOf t g c (loadItems crates.lines) fun r =>
    ∀ items, r = .ok items → Allowed g (recent items) := by
  refine (Yields.read (P := fun r => ∀ contents, r = .ok contents →
    Allowed g (recent (itemsOf crates.lines contents))) ?_).bind fun r hlisted => ?_
  · rintro s _ hI hs hexec contents rfl
    have hlisted := hI.allowed
    rw [listed, hexec.2, hs.1] at hlisted
    exact hlisted
  rcases r with (_ | _) | contents
  · refine .pure ?_
    rintro _ ⟨⟩
    exact .nil
  · exact .pure (by rintro _ ⟨⟩)
  · refine .pure ?_
    rintro _ ⟨⟩
    exact hlisted contents rfl

/-- A store is opened with a list that is allowed. -/
theorem yields_new : Yields pairing seqOf t g c (HistoryStore.new crates.lines) fun r =>
    ∀ store, r = .ok store → Allowed g store.items := by
  refine .bind (.onImages (allOps_perform ⟨trivial, trivial⟩)) fun r _ => ?_
  cases r with
  | error e => exact .pure nofun
  | ok u =>
  refine yields_loadItems.bind fun r hloaded => ?_
  cases r with
  | error e => exact .pure nofun
  | ok items =>
  refine (Yields.onImages (cleanupOrphanImages_onImages _)).bind fun r _ => ?_
  cases r with
  | error e => exact .pure nofun
  | ok u =>
    refine .pure ?_
    rintro _ ⟨⟩
    exact hloaded items rfl

/-! ## The session file -/

theorem yields_loadDocument : Yields pairing seqOf t g c (loadDocument crates) fun r =>
    ∀ document, r = .ok document → Surpasses seqOf g
      (ofGeneration pairing.identity.generation (document.directions.lookup pairing.recvKey)) := by
  refine (Yields.read (P := fun r =>
    (∀ bytes document, r = .ok bytes → crates.documents.fromSlice bytes = .ok document →
      Surpasses seqOf g (ofGeneration pairing.identity.generation
        (document.directions.lookup pairing.recvKey))) ∧
    (r = .error .notFound →
      Surpasses seqOf g (ofGeneration pairing.identity.generation none))) ?_).bind
    fun r hread => ?_
  · intro s r hI hs hexec
    have hdisk := hI.surpasses
    rw [hs.1, stored] at hdisk
    constructor
    · rintro bytes document rfl hdocument
      simpa [onDisk, directionIn, hexec.2, hdocument, Except.toOption] using hdisk
    · rintro rfl
      simpa [onDisk, directionIn, hexec.2] using hdisk
  rcases r with (_ | _) | bytes
  · refine .pure ?_
    rintro _ ⟨⟩
    exact hread.2 rfl
  · exact .pure (by rintro _ ⟨⟩)
  · refine .pure fun document hdocument => hread.1 bytes document rfl ?_
    cases hparse : crates.documents.fromSlice bytes with
    | error e =>
      rw [hparse] at hdocument
      cases hdocument
    | ok parsed =>
      rw [hparse] at hdocument
      cases hdocument
      rfl

theorem generation_ofGeneration (generation : UInt64) (found : Option DirectionState) :
    (ofGeneration generation found).identityGeneration = generation := by
  unfold ofGeneration
  split
  · split
    · assumption
    · rfl
  · rfl

theorem yields_loadDirection (key : String) :
    Yields pairing seqOf t g c (loadDirection crates key pairing.identity.generation) fun r =>
      ∀ state, r = .ok state → state.identityGeneration = pairing.identity.generation ∧
        (key = pairing.recvKey → Surpasses seqOf g state) := by
  refine yields_loadDocument.bind fun r hloaded => ?_
  cases r with
  | error e => exact .pure nofun
  | ok document =>
    refine .pure ?_
    rintro _ ⟨⟩
    refine ⟨generation_ofGeneration _ _, ?_⟩
    rintro rfl
    exact hloaded document rfl

/-- A direction is committed. The other one stays as it was read. -/
theorem yields_commit (key : String) (state : DirectionState)
    (hgeneration : state.identityGeneration = pairing.identity.generation)
    (hstate : key = pairing.recvKey → Surpasses seqOf g state) :
    Yields pairing seqOf t g none (commitDirection crates key state none) fun _ => True := by
  refine yields_loadDocument.bind fun r hloaded => ?_
  cases r with
  | error e => exact .pure trivial
  | ok document =>
  have hnew : Surpasses seqOf g (ofGeneration pairing.identity.generation
      ((document.directions.insert key state).lookup pairing.recvKey)) := by
    by_cases hkey : pairing.recvKey = key
    · rw [hkey, Finmap.lookup_insert, ofGeneration, if_pos hgeneration]
      exact hstate hkey.symm
    · rw [Finmap.lookup_insert_of_ne _ hkey]
      exact hloaded document rfl
  intro s hI hs
  refine (triple_replace tempFile (P := fun _ => True) _ (fun _ => by simp [temps]) hI hs
    (fun name s hI hheld => ?_) (steady_works True) fun _ _ => trivial).mono
    fun _ _ h => ⟨h.1, trivial⟩
  refine ⟨.inr ⟨name, hheld.2.1, by simp [temps]⟩,
    .inr (.inr ⟨rfl, hheld.1.clearing_eq_none hI, fun contents hcontents => ?_⟩)⟩
  cases (hheld.2.2 _ rfl).symm.trans hcontents
  rw [hheld.1.1]
  exact ⟨_, rfl, hnew⟩

/-! ## The calls of a session -/

theorem Surpasses.cleared (h : Surpasses seqOf g state) (id : Uuid) :
    Surpasses seqOf g (Session.cleared state id) :=
  ⟨h.past, fun pending hpending => h.pending pending (List.mem_of_mem_filter hpending)⟩

variable {item : ClipItem} {fresh : Bool} {self : Session}

theorem Surpasses.notMem (h : Surpasses seqOf g state) (hseq : item.seq = seqOf item.id)
    (hnew : state.lastSeq < item.seq) : item.id ∉ g := by
  intro hgone
  have hpast := h.past item.id hgone
  rw [← hseq] at hpast
  exact UInt64.not_le.2 hnew hpast

theorem Surpasses.delivered (h : Surpasses seqOf g state) (hitem : item.id ∉ g)
    (source : HistorySource) : Surpasses seqOf g (Session.delivered state item source) := by
  refine ⟨fun id hid => UInt64.le_trans (h.past id hid) (lastSeq_delivered state item source).1,
    fun pending hpending => ?_⟩
  rcases List.mem_append.1 hpending with hold | hlast
  · exact h.pending pending hold
  · rw [List.mem_singleton.1 hlast]
    exact hitem

theorem Session.Settled.registerText (h : self.Settled pairing seqOf g) (content : ClipContent) :
    (self.registerText crates content).Settled pairing seqOf g := by
  obtain ⟨hashes, heq⟩ := self.registerText_eq crates content
  rw [heq]
  exact ⟨{ h.opened with }, h.surpasses, h.allowed⟩

theorem Session.Settled.withHistory (h : self.Settled pairing seqOf g)
    (hstore : Allowed g store.items) : { self with history := store }.Settled pairing seqOf g :=
  ⟨{ h.opened with }, h.surpasses, hstore⟩

theorem Session.Settled.withState (h : self.Settled pairing seqOf g)
    (hgeneration : state.identityGeneration = pairing.identity.generation)
    (hstate : Surpasses seqOf g state) : { self with recvState := state }.Settled pairing seqOf g :=
  ⟨{ h.opened with recvGeneration := hgeneration }, hstate, h.allowed⟩

theorem receives_settled (hitem : item.id ∉ g) (failAt : Option ReceiveStage) :
    Session.Receives (threadLogic pairing seqOf t) crates item fresh failAt
      (fun _ self s => Works t g none s ∧ self.Settled pairing seqOf g)
      (fun _ self s => Works t g none s ∧ self.Settled pairing seqOf g) where
  finish _ h := triple_done h.1 h.2 fun _ hworks h => ⟨hworks, h⟩
  mark _ h := triple_access _ h fun _ => trivial
  fault _ h := h
  add hI h := (yields_add h.2.allowed (fun _ => hitem) _ hI h.1).mono fun _ _ hadded =>
    .intro (fun _ => ⟨hadded.1, h.2.withHistory hadded.2⟩)
      fun _ => ⟨hadded.1, h.2.withHistory hadded.2⟩
  clear {self s} hI h := by
    have hcleared := h.2.surpasses.cleared item.id
    refine (yields_commit self.recvKey (Session.cleared self.recvState item.id)
      h.2.opened.recvGeneration (fun _ => hcleared) _ hI h.1).mono ?_
    exact fun _ _ hdone => .intro (fun _ => ⟨hdone.1, h.2.withState h.2.opened.recvGeneration
      hcleared⟩) fun _ => ⟨hdone.1, h.2⟩
  callback _ h := (triple_access (.callback item (!fresh)) h fun _ => trivial).mono fun r _ h =>
    Session.Called.intro crates h h (fun _ => h) ⟨h.1, h.2.registerText _⟩ r
  promote hI h := (yields_setSource item.id h.2.allowed _ hI h.1).mono fun _ _ hpromoted =>
    .intro (fun _ => ⟨hpromoted.1, h.2.withHistory hpromoted.2⟩)
      fun _ => ⟨hpromoted.1, h.2.withHistory hpromoted.2⟩
  applied h := ⟨h.1, h.2.registerText _⟩

theorem triple_handleClip {roomId ciphertextB64 : String} {mailbox : Bool} {nowMs : Int64}
    {failAt : Option ReceiveStage} (hI : Forgets pairing seqOf s)
    (hs : Works t g none s ∧ self.Settled pairing seqOf g)
    (hrelays : ∀ item, self.authenticate crates roomId ciphertextB64 = some item →
      item.seq = seqOf item.id) :
    (threadLogic pairing seqOf t).Triple
      (fun r s' => Works t g none s' ∧ r.2.Settled pairing seqOf g)
      (self.handleClipWithFault crates roomId ciphertextB64 mailbox nowMs failAt) s := by
  rcases self.handleClip_cases crates roomId ciphertextB64 mailbox nowMs failAt with
    ⟨outcome, heq, -⟩ | ⟨item, hauthentic, hnew, -, heq⟩
  · rw [heq]
    exact triple_done hs.1 hs.2 fun _ hworks h => ⟨hworks, h⟩
  rw [heq]
  have hitem := hs.2.surpasses.notMem (hrelays item hauthentic) hnew
  refine (receives_settled hitem failAt).deliverClip hI ?_
  have hdelivered := hs.2.surpasses.delivered hitem
    (Session.sourceOf (Session.isFresh item mailbox nowMs))
  refine (yields_commit self.recvKey (Session.delivered self.recvState item _)
    hs.2.opened.recvGeneration (fun _ => hdelivered) _ hI hs.1).mono ?_
  exact fun _ _ hdone => .intro (fun _ => ⟨hdone.1, hs.2.withState hs.2.opened.recvGeneration
    hdelivered⟩) fun _ => ⟨hdone.1, hs.2⟩

theorem triple_sendClip {content : ClipContent} {tsMs : Int64} {failAt : Option SendStage}
    (hI : Forgets pairing seqOf s) (hs : Works t g none s ∧ self.Settled pairing seqOf g) :
    (threadLogic pairing seqOf t).Triple
      (fun r s' => Works t g none s' ∧ r.2.Settled pairing seqOf g)
      (self.sendClipWithFault crates content tsMs failAt) s := by
  have hreserved : self.reserved.Settled pairing seqOf g :=
    ⟨{ hs.2.opened with }, hs.2.surpasses, hs.2.allowed⟩
  have hsends : Session.Sends (threadLogic pairing seqOf t) crates self content tsMs
      (fun s => Works t g none s ∧ True) (fun s => Works t g none s ∧ True)
      (fun _ _ s => Works t g none s ∧ True)
      (fun _ self s => Works t g none s ∧ self.Settled pairing seqOf g) := by
    refine ⟨?_, ?_, ?_, ?_, ?_, ?_, ?_⟩
    · exact fun _ h => triple_done h.1 h.2 fun _ hworks h => ⟨hworks, h⟩
    · exact fun h _ => ⟨h.1, hs.2⟩
    · intro s hI h _ _
      refine (yields_commit self.sendKey self.reserved.sendState hs.2.opened.sendGeneration
        (fun hkey => ?_) _ hI h.1).mono fun _ _ hdone =>
          .intro (fun _ => hdone) fun _ => ⟨hdone.1, hs.2⟩
      rw [hs.2.opened.sendKey] at hkey
      exact absurd hkey pairing.sendKey_ne_recvKey
    · exact fun _ h => ⟨h.1, hreserved⟩
    · exact fun _ h => triple_access _ h fun _ => trivial
    · intro s id encoded _ h _
      refine (triple_access (.sealMessage _ _ _ _) h fun _ => trivial).mono fun r _ h => ?_
      cases r <;> exact h
    · intro s id bytes hI h
      refine (yields_add hs.2.allowed (fun hsource => absurd rfl hsource) _ hI h.1).mono
        fun _ _ hadded => .intro (fun _ => ⟨hadded.1, ?_⟩) fun _ => ⟨hadded.1, ?_⟩
      · exact (hreserved.withHistory hadded.2).registerText _
      · exact hreserved.withHistory hadded.2
  exact hsends.sendClip failAt hI ⟨hs.1, trivial⟩

theorem triple_applyDeferred {id : Uuid} (hI : Forgets pairing seqOf s)
    (hs : Works t g none s ∧ self.Settled pairing seqOf g) :
    (threadLogic pairing seqOf t).Triple
      (fun r s' => Works t g none s' ∧ r.2.Settled pairing seqOf g)
      (self.applyDeferred crates id) s := by
  refine Logic.bind _ hI (yields_setSource id hs.2.allowed _ hI hs.1) ?_
  rintro ⟨r, history⟩ s₁ - ⟨hworks, hallowed⟩
  have hself := hs.2.withHistory hallowed
  cases r with
  | error e => exact triple_return hworks hself
  | ok u =>
    dsimp only
    split
    · exact triple_return hworks (hself.registerText (.text _))
    · exact triple_return hworks hself

/-- A session is opened past all that is gone. -/
theorem opens_settled :
    Session.Opens (Session.onFiles (threadLogic pairing seqOf t)) crates pairing.identity
      pairing.record (fun s => Works t g none s ∧ True)
      (fun history s => Works t g none s ∧ Allowed g history.items)
      (fun history sendState s => Works t g none s ∧ Allowed g history.items ∧
        sendState.identityGeneration = pairing.identity.generation)
      (fun sendState recvState history pendings s => Works t g none s ∧ Allowed g history.items ∧
        sendState.identityGeneration = pairing.identity.generation ∧
        recvState.identityGeneration = pairing.identity.generation ∧
        Surpasses seqOf g recvState ∧ ∀ pending ∈ pendings, pending.id ∉ g)
      (fun r s => Works t g none s ∧
        ∀ session, r = .ok session → session.Settled pairing seqOf g) where
  finish _ h := fun _ _ hrelies => ⟨h.1.relies hrelies, h.2⟩
  create hI h := by
    have hnew : AllOps OnImages SessionStore.new := ⟨⟨trivial, trivial⟩, fun _ => trivial⟩
    exact (Yields.onImages hnew _ hI h.1).mono fun _ _ hworks =>
      .intro (fun _ => hworks) fun _ => ⟨hworks.1, by rintro _ ⟨⟩⟩
  list hI h := (yields_new _ hI h.1).mono fun r _ hnew => by
    cases r with
    | error e => exact ⟨hnew.1, by rintro _ ⟨⟩⟩
    | ok history => exact ⟨hnew.1, hnew.2 history rfl⟩
  refuse _ h := ⟨h.1, by rintro _ ⟨⟩⟩
  loadSend hI h := (yields_loadDirection _ _ hI h.1).mono fun r _ hloaded => by
    cases r with
    | error e => exact ⟨hloaded.1, by rintro _ ⟨⟩⟩
    | ok sendState => exact ⟨hloaded.1, h.2, (hloaded.2 sendState rfl).1⟩
  loadRecv hI h := (yields_loadDirection _ _ hI h.1).mono fun r _ hloaded => by
    cases r with
    | error e => exact ⟨hloaded.1, by rintro _ ⟨⟩⟩
    | ok recvState =>
      obtain ⟨hgeneration, hsurpasses⟩ := hloaded.2 recvState rfl
      have hstate := hsurpasses rfl
      exact ⟨hloaded.1, h.2.1, h.2.2, hgeneration, hstate, hstate.pending⟩
  add hI h := by
    obtain ⟨hworks, hallowed, hsend, hrecv, hsurpasses, hpending⟩ := h
    refine (yields_add hallowed (fun _ => hpending _ List.mem_cons_self) _ hI hworks).mono
      fun _ _ hadded => .intro (fun _ => ?_) fun _ => ⟨hadded.1, by rintro _ ⟨⟩⟩
    exact ⟨hadded.1, hadded.2, hsend, hrecv, hsurpasses,
      fun pending hmem => hpending pending (List.mem_cons_of_mem _ hmem)⟩
  clear {_ recvState _ _ _} hI hkeys h := by
    obtain ⟨hworks, hallowed, hsend, hrecv, hsurpasses, -⟩ := h
    have hcleared : Surpasses seqOf g { recvState with pendingHistory := [] } :=
      ⟨hsurpasses.past, by rintro _ ⟨⟩⟩
    refine (yields_commit _ { recvState with pendingHistory := [] } hrecv (fun _ => hcleared) _ hI
      hworks).mono fun _ _ hdone => .intro (fun _ => ⟨hdone.1, ?_⟩)
        fun _ => ⟨hdone.1, by rintro _ ⟨⟩⟩
    rintro _ ⟨⟩
    exact ⟨⟨rfl, rfl, rfl, hkeys, rfl, rfl, hsend, hrecv⟩, hcleared, hallowed⟩
  keep hkeys _ h := by
    obtain ⟨hworks, hallowed, hsend, hrecv, hsurpasses, -⟩ := h
    refine ⟨hworks, ?_⟩
    rintro _ ⟨⟩
    exact ⟨⟨rfl, rfl, rfl, hkeys, rfl, rfl, hsend, hrecv⟩, hsurpasses, hallowed⟩

/-! ## The threads -/

variable (pairing seqOf t) in
/-- The outlines of one thread in the runs in which no clear is disturbed. -/
abbrev systemLogic : Logic HistoryOp HistoryOp.Res SharedHistory :=
  .outline (((historySystem pairing seqOf).guarded (Undisturbed pairing seqOf)).exec t)
    (Forgets pairing seqOf) (Relies t) (Relies.refl t) (HistoryOp.Passes pairing seqOf t)

theorem outline_session {Q : α → SharedHistory → Prop} {p : SessionProgram α}
    (h : (threadLogic pairing seqOf t).Triple Q p s) :
    (systemLogic pairing seqOf t).Triple Q (onSession p) s := by
  induction p generalizing s with
  | done a => exact h
  | call op k ih =>
    intro s₁ hI hrelies
    obtain ⟨htest, hrest⟩ := h s₁ hI hrelies
    exact ⟨htest, fun r s' hexec hI' => ih r (hrest r s' hexec.2 hI')⟩

theorem Relies.post {v : t.Value} (h : Relies t s s') (hpost : t.Post pairing seqOf v s) :
    t.Post pairing seqOf v s' := by
  cases t with
  | host => trivial
  | dispatcher =>
    obtain ⟨hgone, hclearing, -⟩ := h.dispatcher rfl
    exact ⟨hclearing.trans hpost.1, fun self hself => by rw [hgone]; exact hpost.2 self hself⟩

theorem Works.post {connection : Option Session} (h : Works .dispatcher g none s)
    (hconnection : ∀ self ∈ connection, self.Settled pairing seqOf g) :
    HistoryThread.dispatcher.Post pairing seqOf connection s :=
  ⟨h.2.1 rfl, h.1.symm ▸ hconnection⟩

/-- A program of the dispatcher that ends with a connection. -/
theorem outline_connection {p : SessionProgram (Option Frame × Option Session)}
    (hI : Forgets pairing seqOf s) (h : (threadLogic pairing seqOf .dispatcher).Triple
      (fun r s' => Works .dispatcher g none s' ∧ ∀ self ∈ r.2, self.Settled pairing seqOf g) p s) :
    (systemLogic pairing seqOf .dispatcher).Triple (HistoryThread.dispatcher.Post pairing seqOf)
      (onSession p >>= fun result => pure result.2) s :=
  Logic.bind _ hI (outline_session h) fun _ _ _ hr _ _ hrelies =>
    hrelies.post (hr.1.post hr.2)

theorem outline_apply {id : Uuid} (hI : Forgets pairing seqOf s)
    (hs : Works .dispatcher g none s) :
    (systemLogic pairing seqOf .dispatcher).Triple (HistoryThread.dispatcher.Post pairing seqOf)
      (applyProgram crates id) s := by
  refine Logic.bind _ hI (outline_session (yields_new _ hI hs)) fun r s₁ hI₁ hnew => ?_
  cases r with
  | error e => exact fun s₂ _ hrelies => hrelies.post (hnew.1.post (by rintro _ ⟨⟩))
  | ok store =>
    refine Logic.bind _ hI₁ (outline_session
      (yields_setSource id (hnew.2 store rfl) _ hI₁ hnew.1)) fun r s₂ _ hs₂ => ?_
    exact fun s₃ _ hrelies => hrelies.post (hs₂.1.post (by rintro _ ⟨⟩))

/-- The history stays as it is while the dispatcher clears it. -/
theorem Works.listed {received : Set Uuid} (h : Works .dispatcher g (some received) s)
    (hrelies : Relies .dispatcher s s') :
    listed crates.lines s'.world.fs = listed crates.lines s.world.fs := by
  refine listed_congr _ ((hrelies.dispatcher rfl).2.2 ?_)
  rw [h.2.1 rfl]
  exact Option.some_ne_none _

theorem triple_clearHistory {received : Set Uuid} (hI : Forgets pairing seqOf s)
    (hs : Works .dispatcher g (some received) s) (hself : self.Settled pairing seqOf g) :
    (threadLogic pairing seqOf .dispatcher).Triple
      (fun r s' => Works .dispatcher g (some received) s' ∧ r.2.Settled pairing seqOf g ∧
        (r.1.isOk = true → listed crates.lines s'.world.fs = [] ∧
          ∀ g', Surpasses seqOf g' self.recvState → r.2.Settled pairing seqOf g'))
      (self.clearHistory crates) s := by
  refine Logic.bind _ hI (triple_clear hI hs hself.allowed) ?_
  rintro ⟨r, store⟩ s₁ - ⟨hworks, hallowed, hcleared⟩ s₂ - hrelies
  refine ⟨hworks.relies hrelies, hself.withHistory hallowed, fun hok => ?_⟩
  cases r with
  | error e => cases hok
  | ok u =>
    obtain ⟨hlisted, hitems⟩ := hcleared rfl
    refine ⟨(hworks.listed hrelies).trans hlisted, fun g' hsurpasses => ?_⟩
    refine ⟨{ hself.opened with }, hsurpasses, ?_⟩
    dsimp only at hitems ⊢
    rw [hitems]
    exact .nil

/-- The end of a clear. -/
theorem outline_cleared {received : Set Uuid} {ok : Bool} {connection : Option Session}
    (hs : Works .dispatcher g (some received) s)
    (hok : ok = true → listed crates.lines s.world.fs = [])
    (hsettled : ∀ self ∈ connection,
      self.Settled pairing seqOf (if ok then g ∪ received else g)) :
    (systemLogic pairing seqOf .dispatcher).Triple (HistoryThread.dispatcher.Post pairing seqOf)
      (perform (.cleared ok : HistoryOp) >>= fun _ => pure connection) s := by
  intro s₁ hI hrelies
  have hworks := hs.relies hrelies
  refine ⟨⟨rfl, fun h => ⟨?_, (hs.listed hrelies).trans (hok h)⟩⟩, ?_⟩
  · rw [hworks.2.1 rfl]
    rfl
  · rintro _ _ ⟨-, rfl⟩ - s₂ - hrelies'
    refine hrelies'.post ⟨rfl, ?_⟩
    rw [hworks.1, hworks.2.1 rfl]
    exact hsettled

theorem outline_clear {connection : Option Session}
    (hpost : HistoryThread.dispatcher.Post pairing seqOf connection s) :
    (systemLogic pairing seqOf .dispatcher).Triple (HistoryThread.dispatcher.Post pairing seqOf)
      (clearProgram crates connection) s := by
  intro s₁ _ hrelies
  refine ⟨rfl, ?_⟩
  rintro _ _ ⟨hcalm, rfl⟩ hI
  have hs : Works .dispatcher s₁.gone (some { id | HasReceived pairing s₁.world connection id })
      { s₁ with clearing := some { id | HasReceived pairing s₁.world connection id } } :=
    ⟨rfl, fun _ => rfl, nofun⟩
  cases connection with
  | some self =>
    have hself := (hrelies.post hpost).2 self rfl
    refine Logic.bind _ hI (outline_session (triple_clearHistory hI hs hself)) ?_
    rintro ⟨result, self'⟩ s₂ - ⟨hworks, hsettled, hcleared⟩
    refine outline_cleared hworks (fun hok => (hcleared hok).1) ?_
    rintro _ ⟨⟩
    split
    · refine (hcleared ‹_›).2 _ ⟨?_, fun pending hpending => ?_⟩
      · rintro id (hgone | hreceived)
        · exact hself.surpasses.past id hgone
        · exact (hcalm.known id hreceived).2 self rfl
      · rw [hcalm.nothingPending.2 self rfl] at hpending
        cases hpending
    · exact hsettled
  | none =>
    refine Logic.bind _ hI (outline_session (yields_new _ hI hs)) fun r s₂ hI₂ hnew => ?_
    cases r with
    | error e => exact outline_cleared hnew.1 nofun nofun
    | ok store =>
      refine Logic.bind _ hI₂ (outline_session (triple_clear hI₂ hnew.1 (hnew.2 store rfl))) ?_
      rintro ⟨result, store'⟩ s₃ - ⟨hworks, -, hcleared⟩
      refine outline_cleared hworks (fun hok => ?_) nofun
      cases result with
      | error e => cases hok
      | ok u => exact (hcleared rfl).1

theorem outline_build :
    (systemLogic pairing seqOf .host).Triple (HistoryThread.host.Post pairing seqOf)
      (buildProgram pairing) s := by
  intro s₁ _ hrelies
  refine ⟨rfl, ?_⟩
  rintro _ _ ⟨-, rfl⟩ hI
  have hs : Works .host s₁.gone none { s₁ with building := true } := ⟨rfl, nofun, fun _ => rfl⟩
  refine Logic.bind _ hI (outline_session (opens_settled.openSession hI ⟨hs, trivial⟩)) ?_
  rintro r s₂ - ⟨hworks, hopened⟩ s₃ hI₃ hrelies'
  have hworks₃ := hworks.relies hrelies'
  refine ⟨⟨rfl, hworks₃.2.2 rfl, ?_⟩, fun _ _ _ _ _ _ _ => trivial⟩
  rw [hworks₃.1]
  exact hopened

theorem triple_call {request : Call} {program : SessionProgram (Option Frame × Option Session)}
    (hI : Forgets pairing seqOf s) (hs : Works t g none s ∧ self.Settled pairing seqOf g)
    (hcall : request.program pairing (some self) = some program) (hkind : request ≠ .clearHistory)
    (hrelays : request.Relays crates seqOf (some self)) :
    (threadLogic pairing seqOf t).Triple
      (fun r s' => Works t g none s' ∧ ∀ self ∈ r.2, self.Settled pairing seqOf g) program s := by
  have hreturn : ∀ {α : Type} (frame : α → Option Frame) (r : α × Session) (s' : SharedHistory),
      Works t g none s' ∧ r.2.Settled pairing seqOf g → (threadLogic pairing seqOf t).Triple
        (fun r s' => Works t g none s' ∧ ∀ self ∈ r.2, self.Settled pairing seqOf g)
        (pure (frame r.1, some r.2)) s' := by
    rintro α frame ⟨result, self⟩ s' ⟨hworks, hsettled⟩
    refine triple_return hworks ?_
    rintro _ ⟨⟩
    exact hsettled
  cases request with
  | reopen => cases hcall
  | clearHistory => exact absurd rfl hkind
  | send content tsMs failAt =>
    cases hcall
    exact Logic.bind _ hI (triple_sendClip hI hs) fun r s' _ h => hreturn Except.toOption r s' h
  | handle roomId ciphertextB64 mailbox nowMs failAt =>
    cases hcall
    exact Logic.bind _ hI (triple_handleClip hI hs hrelays) fun r s' _ h =>
      hreturn (fun _ => none) r s' h
  | applyDeferred id =>
    cases hcall
    exact Logic.bind _ hI (triple_applyDeferred hI hs) fun r s' _ h =>
      hreturn (fun _ => none) r s' h

theorem triple_connect {fresh : Session} {bootstrap : Option (String × String × Int64)}
    (hI : Forgets pairing seqOf s) (hs : Works t g none s ∧ fresh.Settled pairing seqOf g)
    (hrelays : BootstrapRelays seqOf crates fresh bootstrap) :
    (threadLogic pairing seqOf t).Triple
      (fun r s' => Works t g none s' ∧ ∀ self ∈ r.2, self.Settled pairing seqOf g)
      (connectProgram crates fresh bootstrap) s := by
  cases bootstrap with
  | none =>
    refine triple_return hs.1 ?_
    rintro _ ⟨⟩
    exact hs.2
  | some clip =>
    have hcall : (Call.handle clip.1 clip.2.1 true clip.2.2 none).program pairing (some fresh) =
        some (connectProgram crates fresh (some clip)) := rfl
    exact triple_call hI hs hcall nofun (hrelays clip rfl)

/-! ## Runs -/

theorem Forgets.cleared {ok : Bool} (h : Forgets pairing seqOf s)
    (hcleared : ok = true → s.clearing.isSome ∧ listed crates.lines s.world.fs = []) :
    Forgets pairing seqOf { s with
      clearing := none, gone := if ok then s.gone ∪ s.clearing.getD ∅ else s.gone } := by
  cases ok with
  | false => exact ⟨h.surpasses, h.allowed, h.queue, nofun⟩
  | true =>
    obtain ⟨hsome, hlisted⟩ := hcleared rfl
    obtain ⟨received, hreceived⟩ := Option.isSome_iff_exists.1 hsome
    obtain ⟨-, hqueue, hpending, hpast⟩ := h.clearing received hreceived
    refine ⟨⟨?_, ?_⟩, ?_, ?_, nofun⟩
    · rintro id (hgone | hid)
      · exact h.surpasses.past id hgone
      · rw [hreceived] at hid
        exact hpast id hid
    · rw [hpending]
      rintro _ ⟨⟩
    · rw [hlisted]
      exact .nil
    · rw [hqueue]
      rintro _ ⟨⟩

theorem relyGuarantee_history :
    RelyGuarantee ((historySystem pairing seqOf).guarded (Undisturbed pairing seqOf))
      (Forgets pairing seqOf) Relies (HistoryOp.Passes pairing seqOf)
      (HistoryThread.Post pairing seqOf) where
  refl := Relies.refl
  trans _ _ _ _ := Relies.trans
  access {t o s r s'} hI htest hexec := by
    obtain ⟨hundisturbed, hexec⟩ := hexec
    have hother : ∀ {s'' : SharedHistory}, s''.world = s.world →
        (∀ name u, u ≠ t → s.owner name = some u → s''.owner name = some u) →
        (t = .dispatcher → s''.building = s.building ∧ (s.building = true → s''.gone = s.gone)) →
        (t = .host → s''.gone = s.gone ∧ s''.clearing = s.clearing) → ∀ u, u ≠ t →
          Relies u s s'' := by
      intro s'' hworld howner hdispatcher hhost u hu
      refine ⟨fun name hname => ⟨howner name u hu hname, fun _ _ => by rw [hworld]⟩, ?_, ?_⟩
      · rintro rfl
        cases t with
        | dispatcher => exact absurd rfl hu
        | host => exact ⟨(hhost rfl).1, (hhost rfl).2, fun _ => by rw [hworld]⟩
      · rintro rfl
        cases t with
        | host => exact absurd rfl hu
        | dispatcher => exact hdispatcher rfl
    match o with
    | .session op => exact hI.session htest hexec
    | .build =>
      cases hexec
      cases htest
      refine ⟨⟨hI.surpasses, hI.allowed, hI.queue, ?_⟩,
        hother rfl (fun _ _ _ h => h) nofun fun _ => ⟨rfl, rfl⟩⟩
      have hnone : s.clearing = none := hundisturbed
      intro received hreceived
      cases hnone.symm.trans hreceived
    | .built result =>
      obtain ⟨queue, hqueue, rfl⟩ := hexec
      obtain ⟨rfl, hbuilding, hfresh⟩ := htest
      refine ⟨⟨hI.surpasses, hI.allowed, ?_, ?_⟩, hother rfl ?_ nofun fun _ => ⟨rfl, rfl⟩⟩
      · rcases hqueue with rfl | ⟨fresh, rfl, rfl⟩
        · exact hI.queue
        · intro self hself
          rcases List.mem_append.1 hself with hold | hnew
          · exact hI.queue self hold
          · exact List.mem_singleton.1 hnew ▸ hfresh fresh rfl
      · intro received hreceived
        cases (hI.clearing_eq_none hbuilding).symm.trans hreceived
      · intro name u hu hname
        cases u with
        | host => exact absurd rfl hu
        | dispatcher => simp [hname]
    | .clear connection =>
      cases hexec
      cases htest
      have hcalm : Calm pairing seqOf s connection := hundisturbed
      refine ⟨⟨hI.surpasses, hI.allowed, hI.queue, ?_⟩, hother rfl (fun _ _ _ h => h) (fun _ =>
        ⟨rfl, fun _ => rfl⟩)
        nofun⟩
      rintro _ ⟨⟩
      exact ⟨hcalm.building, hcalm.queue, hcalm.nothingPending.1, fun id hid =>
        (hcalm.known id hid).1⟩
    | .cleared ok =>
      cases hexec
      obtain ⟨rfl, hcleared⟩ := htest
      refine ⟨hI.cleared hcleared, hother rfl (fun _ _ _ h => h) (fun _ =>
        ⟨rfl, fun hbuilding => ?_⟩) nofun⟩
      cases ok with
      | false => rfl
      | true =>
        have hsome := (hcleared rfl).1
        rw [hI.clearing_eq_none hbuilding] at hsome
        cases hsome
  enter {t a s p s'} hI hpost henter := by
    have hworks : ∀ {connection}, HistoryThread.dispatcher.Post pairing seqOf connection s →
        Works .dispatcher s.gone none s := fun hpost => ⟨rfl, fun _ => hpost.1, nofun⟩
    cases henter with
    | @call _ self request program hcall hkind hrelays =>
      have hself := hpost (some self) rfl
      exact ⟨hI, fun u _ => .refl u s, outline_connection hI
        (triple_call hI ⟨hworks hself, hself.2 self rfl⟩ hcall hkind hrelays)⟩
    | apply id => exact ⟨hI, fun u _ => .refl u s, outline_apply hI (hworks (hpost none rfl))⟩
    | clear connection => exact ⟨hI, fun u _ => .refl u s, outline_clear (hpost connection rfl)⟩
    | @connect _ connection fresh rest bootstrap hqueue hrelays =>
      have hfresh : ∀ self ∈ fresh :: rest, self.Settled pairing seqOf s.gone := hqueue ▸ hI.queue
      have hnone : s.clearing = none := (hpost connection rfl).1
      have hI' : Forgets pairing seqOf { s with queue := rest } := by
        refine ⟨hI.surpasses, hI.allowed, fun self hself => hfresh self (.tail _ hself), ?_⟩
        intro received hreceived
        cases hnone.symm.trans hreceived
      refine ⟨hI', fun u _ => ⟨fun _ h => ⟨h, fun _ _ => rfl⟩, fun _ => ⟨rfl, rfl, fun _ => rfl⟩,
        fun _ => ⟨rfl, fun _ => rfl⟩⟩, outline_connection (g := s.gone) hI' ?_⟩
      exact triple_connect hI' ⟨⟨rfl, fun _ => hnone, nofun⟩, hfresh fresh (.head _)⟩ hrelays
    | @disconnect _ connection =>
      exact ⟨hI, fun u _ => .refl u s, fun s₁ _ hrelies =>
        hrelies.post ⟨(hpost connection rfl).1, nofun⟩⟩
    | build => exact ⟨hI, fun u _ => .refl u s, outline_build⟩

/-- What is past stays past, whenever the process stops. -/
theorem Histories.Reaches.forgets {x : Histories} (hrun : Histories.Reaches
      ((historySystem pairing seqOf).guarded (Undisturbed pairing seqOf)) .initial x) :
    Forgets pairing seqOf x.shared ∧ ∀ connection,
      x.threads .dispatcher = some (.done connection) →
        HistoryThread.dispatcher.Post pairing seqOf connection x.shared := by
  have hstart : ∀ {w : World} {gone : Set Uuid},
      Forgets pairing seqOf (Histories.start w gone).shared →
      Holds (Forgets pairing seqOf) (fun t p s => (systemLogic pairing seqOf t).Triple
        (t.Post pairing seqOf) p s) (Histories.start w gone) := by
    refine fun hI => ⟨hI, fun t p hp => ?_⟩
    cases t with
    | host => cases hp
    | dispatcher =>
      cases hp
      exact fun s₁ _ hrelies => hrelies.post ⟨rfl, nofun⟩
  have hholds : Holds (Forgets pairing seqOf) (fun t p s => (systemLogic pairing seqOf t).Triple
      (t.Post pairing seqOf) p s) x := by
    induction hrun with
    | refl => exact hstart ⟨⟨nofun, nofun⟩, .nil, nofun, nofun⟩
    | tail _ hstep ih =>
      cases hstep with
      | step hstep => exact relyGuarantee_history.invariant.step ih hstep
      | stop => exact hstart ⟨ih.1.surpasses, ih.1.allowed, nofun, nofun⟩
  exact ⟨hholds.1, fun connection hdone => hholds.2 _ _ hdone _ hholds.1 (.refl _ _)⟩

/-- An item that was received before a clear that succeeded is in no list any more. -/
theorem cleared_stays_cleared {x : Histories} (hrun : Histories.Reaches
      ((historySystem pairing seqOf).guarded (Undisturbed pairing seqOf)) .initial x)
    {item : HistoryItem} (hshows : x.Shows crates item) (hreceived : item.source ≠ .local') :
    item.id ∉ x.shared.gone := by
  obtain ⟨hforgets, hpost⟩ := hrun.forgets
  rcases hshows with hlisted | ⟨self, hself, hitem⟩ | ⟨self, hdone, hitem⟩
  · exact hforgets.allowed.absent item hlisted hreceived
  · exact (hforgets.queue self hself).allowed.absent item hitem hreceived
  · exact ((hpost (some self) hdone).2 self rfl).allowed.absent item hitem hreceived

/-! ## Runs without interference -/

/-- The threads are between two programs, with nothing under way. -/
structure Histories.Rests (x : Histories) (w : World) (gone : Set Uuid)
    (connection : Option Session) : Prop where
  dispatcher : x.threads .dispatcher = some (.done connection)
  host : ∃ last : Option Unit, x.threads .host = last.map .done
  shared : ∃ owner, x.shared = ⟨w, owner, [], false, none, gone⟩ ∧
    ∀ name, ∀ u ∈ owner name, u = .dispatcher

variable {test : HistoryThread → HistoryOp → SharedHistory → Prop}
  {x y : Histories} {w w' : World} {connection : Option Session}

variable (pairing seqOf) in
theorem exec_onSession {p : SessionProgram α} {a : α} {owner : String → Option HistoryThread}
    (htest : ∀ op s, test t (.session op) s) (hexec : Exec (SessionOp.exec crates) p w a w')
    (hfree : ∀ name, ∀ u ∈ owner name, u = t) :
    ∃ owner', (∀ name, ∀ u ∈ owner' name, u = t) ∧
      Exec (((historySystem pairing seqOf).guarded test).exec t) (onSession p)
        { s with world := w, owner := owner } a { s with world := w', owner := owner' } := by
  induction hexec generalizing owner with
  | done a w => exact ⟨owner, hfree, .done _ _⟩
  | @call op k w w₁ w' r a head tail ih =>
    have hdraws : ∃ owner₁, Draws t owner op r owner₁ ∧ ∀ name, ∀ u ∈ owner₁ name, u = t := by
      cases op with
      | fs op =>
        cases op with
        | uniqueName =>
          refine ⟨_, ⟨hfree r, rfl⟩, fun name u hu => ?_⟩
          by_cases heq : name = r
          · subst heq
            rw [update_self] at hu
            exact (Option.some.inj hu).symm
          · rw [update_of_ne heq] at hu
            exact hfree name u hu
        | _ => exact ⟨owner, rfl, hfree⟩
      | _ => exact ⟨owner, rfl, hfree⟩
    obtain ⟨owner₁, hdraws, hfree₁⟩ := hdraws
    obtain ⟨owner', hfree', hrest⟩ := ih hfree₁
    exact ⟨owner', hfree', .call ⟨htest op _, _, _, head, hdraws, rfl⟩ hrest⟩

theorem Histories.Reaches.of_threads
    {sys : System HistoryOp HistoryOp.Res HistoryThread.Value SharedHistory}
    (h : Threads.Reaches sys x y) : Histories.Reaches sys x y :=
  h.lift id fun _ _ => .step

theorem Histories.Reaches.of_guarded
    {sys : System HistoryOp HistoryOp.Res HistoryThread.Value SharedHistory}
    (h : Histories.Reaches (sys.guarded test) x y) : Histories.Reaches sys x y := by
  induction h with
  | refl => exact .refl
  | tail _ hstep ih =>
    refine ih.trans ?_
    cases hstep with
    | step hstep => exact Histories.Reaches.of_threads (Threads.Reaches.of_guarded (.single hstep))
    | stop => exact .single .stop

theorem Histories.Rests.serve {p : HistoryProgram (Option Session)} {connection' : Option Session}
    {g' : Set Uuid} {owner : String → Option HistoryThread} (hx : x.Rests w g connection)
    (henter : HistoryEnter pairing seqOf .dispatcher (some connection) x.shared p s)
    (hexec : Exec (((historySystem pairing seqOf).guarded test).exec .dispatcher) p s connection'
      ⟨w', owner, [], false, none, g'⟩)
    (hfree : ∀ name, ∀ u ∈ owner name, u = .dispatcher) :
    ∃ y, Histories.Reaches ((historySystem pairing seqOf).guarded test) x y ∧
      y.Rests w' g' connection' := by
  have henter' : ((historySystem pairing seqOf).guarded test).enter .dispatcher (some connection)
    x.shared p s := henter
  refine ⟨_, .of_threads (reaches_exec hx.dispatcher henter' hexec), set_threads_self _ _ _ _,
    ?_, owner, rfl, hfree⟩
  rw [set_threads_of_ne _ (by rintro ⟨⟩)]
  exact hx.host

section Samples

variable (htest : ∀ t op s, Undisturbed pairing seqOf t op s → test t op s)

include htest

theorem Histories.Rests.call {request : Call} {connection' : Option Session} {frame : Option Frame}
    {program : SessionProgram (Option Frame × Option Session)} (hx : x.Rests w g (some self))
    (hcall : request.program pairing (some self) = some program) (hkind : request ≠ .clearHistory)
    (hrelays : request.Relays crates seqOf (some self))
    (hexec : Exec (SessionOp.exec crates) program w (frame, connection') w') :
    ∃ y, Histories.Reaches ((historySystem pairing seqOf).guarded test) x y ∧
      y.Rests w' g connection' := by
  obtain ⟨owner, hshared, hfree⟩ := hx.shared
  obtain ⟨owner', hfree', hsession⟩ := exec_onSession pairing seqOf
    (s := ⟨w, owner, [], false, none, g⟩) (fun op s => htest _ _ _ trivial) hexec hfree
  refine hx.serve (.call hcall hkind hrelays) ?_ hfree'
  rw [hshared]
  exact hsession.bind (.done _ _)

theorem Histories.Rests.clear {self' : Session} (hx : x.Rests w g (some self))
    (hmay : ∀ owner, test .dispatcher (.clear (some self)) ⟨w, owner, [], false, none, g⟩)
    (hexec : Exec (SessionOp.exec crates) (self.clearHistory crates) w (.ok (), self') w') :
    ∃ y, Histories.Reaches ((historySystem pairing seqOf).guarded test) x y ∧
      y.Rests w' (g ∪ { id | HasReceived pairing w (some self) id }) (some self') := by
  obtain ⟨owner, hshared, hfree⟩ := hx.shared
  obtain ⟨owner', hfree', hsession⟩ := exec_onSession pairing seqOf
    (s := ⟨w, owner, [], false, some { id | HasReceived pairing w (some self) id }, g⟩)
    (fun op s => htest _ _ _ trivial) hexec hfree
  refine hx.serve (.clear (some self)) ?_ hfree'
  rw [hshared]
  refine exec_bind.2 ⟨(), _, exec_perform ⟨hmay owner, rfl⟩, ?_⟩
  exact exec_bind.2 ⟨_, _, hsession,
    exec_bind.2 ⟨(), _, exec_perform ⟨htest _ _ _ trivial, rfl⟩, .done _ _⟩⟩

theorem Histories.reaches_opened {fresh : Session} (hexec : Exec (SessionOp.exec crates)
      (files (Session.openSession crates pairing.identity pairing.record)) w (.ok fresh) w') :
    ∃ y, Histories.Reaches ((historySystem pairing seqOf).guarded test) (.start w g) y ∧
      y.Rests w' g (some fresh) := by
  have hfree : ∀ name, ∀ u ∈ (fun _ : String => (none : Option HistoryThread)) name, u = .host :=
    nofun
  obtain ⟨owner, -, hsession⟩ := exec_onSession pairing seqOf
    (s := ⟨w, fun _ => none, [], true, none, g⟩) (fun op s => htest _ _ _ trivial) hexec hfree
  let s' : SharedHistory :=
    ⟨w', fun name => (owner name).filter (· = .dispatcher), [] ++ [fresh], false, none, g⟩
  have hbuild : Exec (((historySystem pairing seqOf).guarded test).exec .host)
      (buildProgram pairing) (Histories.start w g).shared () s' := by
    refine exec_bind.2 ⟨(), _, exec_perform ⟨htest _ _ _ rfl, rfl⟩, ?_⟩
    refine exec_bind.2 ⟨_, _, hsession, exec_perform ⟨htest _ _ _ trivial, ?_⟩⟩
    exact ⟨_, .inr ⟨fresh, rfl, rfl⟩, rfl⟩
  have henter : ((historySystem pairing seqOf).guarded test).enter .host none
    (Histories.start w g).shared (buildProgram pairing) _ := .build
  have hconnect : ((historySystem pairing seqOf).guarded test).enter .dispatcher (some none) s'
    _ _ := .connect none rfl (by rintro _ ⟨⟩)
  refine ⟨_, .of_threads ((reaches_exec rfl henter hbuild).trans (reaches_exec
    (set_threads_of_ne _ (by rintro ⟨⟩) _ _) hconnect (.done _ _))), set_threads_self _ _ _ _,
    ⟨some (), ?_⟩, _, rfl, ?_⟩
  · rw [set_threads_of_ne _ (by rintro ⟨⟩), set_threads_self]
    rfl
  · intro name u hu
    exact of_decide_eq_true (Option.mem_filter_iff.1 hu).2

end Samples

theorem Histories.Rests.reaches_stop
    {sys : System HistoryOp HistoryOp.Res HistoryThread.Value SharedHistory}
    (hx : x.Rests w g connection) : Histories.Reaches sys x (.start w g) := by
  obtain ⟨owner, hshared, -⟩ := hx.shared
  have hstep : Histories.Step sys x _ := .stop
  rw [hshared] at hstep
  exact .single hstep

def sampleSeqOf (id : Uuid) : UInt64 := if id = .sample 1 then 1 else 2

theorem relays_of_takes {self : Session} {roomId ciphertextB64 text : String} {nowMs : Int64}
    {item : ClipItem} (h : self.Takes crates roomId ciphertextB64 nowMs item text)
    (hseq : item.seq = seqOf item.id) :
    Call.Relays crates seqOf (.handle roomId ciphertextB64 false nowMs none) (some self) := by
  intro other hother
  cases h.authentic.symm.trans hother
  exact hseq

/-- A sample endpoint receives a clip, clears its history and receives another one. -/
theorem cleared_stays_cleared_sample :
    ∃ x item, Histories.Reaches
        ((historySystem Pairing.sample sampleSeqOf).guarded
          (Undisturbed Pairing.sample sampleSeqOf))
        .initial x ∧
      Uuid.sample 1 ∈ x.shared.gone ∧ x.Shows Crates.sample item ∧ item.source ≠ .local' ∧
      item.id ∉ x.shared.gone := by
  let w : World := Histories.initial.shared.world
  obtain ⟨keys, hself⟩ := exists_session_sample .sample
  have h := hself w.fs fun _ => rfl
  obtain ⟨first, htakes₁⟩ := exists_taken_sample (.sample .sample keys) 1 1 (by decide) nofun
    (by decide : (0 : UInt64) < 1) nofun (by decide : 0 < historyCap)
  obtain ⟨fs₁, hhandle₁, h₁⟩ := Session.Current.handleClip (w := w) h htakes₁
  let w₁ := w.received (sampleText 1 1) fs₁
  let self₁ := (Session.sample .sample keys).received Crates.sample (sampleText 1 1)
  replace h₁ : self₁.Current .sample w₁.fs := h₁
  have hpending : self₁.recvState.pendingHistory = [] := by simp [self₁]; decide
  have hlast : self₁.recvState.lastSeq = 1 := by simp [self₁]; decide
  have hknown : ∀ id, HasReceived Pairing.sample w₁ (some self₁) id → id = .sample 1 := by
    rintro id (hid | ⟨item, hitem, rfl, -⟩ | ⟨pending, hmem, -⟩ | ⟨_, ⟨⟩, pending, hmem, -⟩)
    · simpa [w₁, w, World.Delivered, World.received, Histories.initial, Histories.start,
        sampleText] using hid
    · rw [h₁.listed] at hitem
      simp [self₁] at hitem
      exact hitem ▸ rfl
    · rw [h₁.recv, hpending] at hmem
      cases hmem
    · rw [hpending] at hmem
      cases hmem
  have hcalm : ∀ owner g, Calm Pairing.sample sampleSeqOf ⟨w₁, owner, [], false, none, g⟩
      (some self₁) := by
    refine fun owner g => ⟨⟨h₁.recv ▸ hpending, ?_⟩, rfl, rfl, fun id hid => ?_⟩
    · rintro _ ⟨⟩
      exact hpending
    · rw [hknown id hid]
      refine ⟨?_, ?_⟩
      · dsimp only
        rw [h₁.recv, hlast]
        decide
      · rintro _ ⟨⟩
        rw [hlast]
        decide
  obtain ⟨fs₂, hclear, h₂⟩ := Session.Current.clearHistory (w := w₁) h₁ (by simp [self₁]; decide)
  let self₂ : Session := { self₁ with history := ⟨[]⟩ }
  obtain ⟨second, htakes₃⟩ := exists_taken_sample self₂ 2 2 (by decide)
    (by simp [self₁, self₂]; decide)
    (by simp [self₁, self₂]; decide) nofun (by decide : 0 < historyCap)
  obtain ⟨fs₃, hhandle₃, h₃⟩ := Session.Current.handleClip (w := { w₁ with fs := fs₂ }) h₂ htakes₃
  have htest : ∀ t op s, Undisturbed Pairing.sample sampleSeqOf t op s →
      Undisturbed Pairing.sample sampleSeqOf t op s := fun _ _ _ h => h
  obtain ⟨x₁, hrun₁, hx₁⟩ := Histories.reaches_opened (g := ∅) (w := w) htest
    (exec_of_quietly (exec_quietFiles (h.reopen rfl)))
  obtain ⟨x₂, hrun₂, hx₂⟩ := hx₁.call htest rfl (by rintro ⟨⟩) (relays_of_takes htakes₁ rfl)
    (exec_bind.2 ⟨_, _, exec_of_quietly hhandle₁, .done _ _⟩)
  obtain ⟨x₃, hrun₃, hx₃⟩ := hx₂.clear htest (fun owner => hcalm owner ∅) hclear
  obtain ⟨x₄, hrun₄, hx₄⟩ := hx₃.call htest rfl (by rintro ⟨⟩) (relays_of_takes htakes₃ rfl)
    (exec_bind.2 ⟨_, _, exec_of_quietly hhandle₃, .done _ _⟩)
  have hrun := ((hrun₁.trans hrun₂).trans hrun₃).trans hrun₄
  have hshows : x₄.Shows Crates.sample (entryOf ((sampleText 2 2).entry .remote)) :=
    .inr (.inr ⟨_, hx₄.dispatcher, by simp⟩)
  refine ⟨x₄, _, hrun, ?_, hshows, nofun, cleared_stays_cleared hrun hshows nofun⟩
  obtain ⟨owner, hshared, -⟩ := hx₄.shared
  rw [hshared]
  exact .inr (.inl (by simp [World.Delivered, World.received, sampleText]))

/-! ## An item that comes back -/

theorem exec_add_fails {self : HistoryStore} {item : NewHistoryItem} {content : String} {s : Fs Dir}
    (hcontent : item.content = .text content) (hnew : ∀ known ∈ self.items, known.id ≠ item.id)
    (error : IoError) :
    Exec Fs.exec (self.add crates.lines item) s (.error (.io (historyTemp "") error), self) s := by
  have hname : Fs.exec .uniqueName s "" s := rfl
  have hknown : ¬ self.items.any (fun existing => existing.id = item.id) = true := by
    simpa using hnew
  have hcreate : Fs.exec (.create (historyTemp "")) s (.error error) s := rfl
  rw [HistoryStore.add, if_neg hknown, writeContent, hcontent]
  have hpersist : ∀ items, Exec Fs.exec (persist crates.lines items) s
      (.error (.io (historyTemp "") error)) s := fun _ =>
    (exec_perform hname).bind (.bind ((exec_perform hcreate).bind (.done _ _)) (.done _ _))
  exact .bind (.done _ _) ((hpersist _).bind (.done _ _))

/-- A pending text goes into an empty history when a session is opened. -/
theorem exec_recover {self : Session} {text : String} {s : Fs Dir}
    (h : self.Current pairing s) (hempty : self.history.items = []) {pending : PendingItem}
    (hpending : self.recvState.pendingHistory = [pending])
    (hcontent : pending.newHistoryItem.content = .text text) :
    ∃ s', Exec (Quiet crates) (Session.recover crates self.history pairing.recvKey self.recvState) s
        (.ok (⟨[entryOf pending.newHistoryItem]⟩,
          { self.recvState with pendingHistory := [] })) s' ∧
      listed crates.lines s' = [entryOf pending.newHistoryItem] := by
  obtain ⟨s₁, hadd, h₁, -, hlisted₁⟩ := h.add pending.newHistoryItem hcontent (by simp [hempty])
    (by simp [hempty, historyCap]) (by simp [h.listed, hempty])
  obtain ⟨s₂, hcommit, -, -, hlisted₂⟩ := h₁.commitRecv { self.recvState with pendingHistory := [] }
    h.opened.recvGeneration
  simp only [hempty, List.nil_append] at hadd hlisted₁
  refine ⟨s₂, ?_, hlisted₂.trans hlisted₁⟩
  rw [Session.recover, hpending, if_neg (by simp), ← h.opened.recvKey]
  exact .bind (hadd.bind (.done _ _)) (hcommit.bind (.done _ _))

/-- A sample endpoint cannot write its history when it receives a clip, clears it, and is
started again. -/
theorem cleared_comes_back :
    ∃ x item, Histories.Reaches (historySystem Pairing.sample sampleSeqOf) .initial x ∧
      x.Shows Crates.sample item ∧ item.source ≠ .local' ∧ item.id ∈ x.shared.gone := by
  let w : World := Histories.initial.shared.world
  obtain ⟨keys, hself⟩ := exists_session_sample .sample
  let self := Session.sample .sample keys
  have h := hself w.fs fun _ => rfl
  obtain ⟨first, htakes⟩ := exists_taken_sample self 1 1 (by decide) nofun
    (by decide : (0 : UInt64) < 1) nofun (by decide : 0 < historyCap)
  -- the clip is pending, and its history entry fails
  let state := Session.delivered self.recvState (sampleText 1 1) .remote
  obtain ⟨fs₁, hcommit, h₁, hrecv₁, hlisted₁⟩ := h.commitRecv state rfl
  let w₁ : World := ⟨fs₁, [], [], [(.deliveryCommitted, .sample 1)]⟩
  have hadd : Exec Fs.exec (self.history.add Crates.sample.lines ((sampleText 1 1).entry .remote))
    fs₁
      (.error (.io (historyTemp "") (.other "")), self.history) fs₁ :=
    exec_add_fails rfl (by simp [self]) _
  have hhandle : Exec (SessionOp.exec Crates.sample)
      (self.handleClipWithFault Crates.sample self.roomId first false 0 none) w
      (.error (.history (.io (historyTemp "") (.other ""))),
        { self with recvState := state }) w₁ := by
    rw [htakes.handleClip_eq]
    refine (exec_of_quietly (exec_quietFiles hcommit)).bind
      (.bind (exec_of_quietly (exec_checkpoint _ _ _)) ?_)
    exact (exec_files hadd).bind (.done _ _)
  -- the history is cleared, and a session is opened again
  have hcurrent := Session.Current.mk h₁ hrecv₁ (hlisted₁.trans h.listed)
  obtain ⟨fs₂, hclear, h₂⟩ := Session.Current.clearHistory (w := w₁) hcurrent rfl
  have hpending : state.pendingHistory = [⟨.sample 1, 0, .remote, .text "a"⟩] := rfl
  obtain ⟨fs₃, hrecover, hlisted₃⟩ := exec_recover h₂ rfl hpending rfl
  have hreopen := h₂.openSession (fun _ _ _ _ h => h) hrecover
  have htest : ∀ t op s, Undisturbed Pairing.sample sampleSeqOf t op s → True :=
    fun _ _ _ _ => trivial
  obtain ⟨x₁, hrun₁, hx₁⟩ := Histories.reaches_opened (g := ∅) (w := w) htest
    (exec_of_quietly (exec_quietFiles (h.reopen rfl)))
  obtain ⟨x₂, hrun₂, hx₂⟩ := hx₁.call htest rfl (by rintro ⟨⟩) (relays_of_takes htakes rfl)
    (exec_bind.2 ⟨_, _, hhandle, .done _ _⟩)
  obtain ⟨x₃, hrun₃, hx₃⟩ := hx₂.clear htest (fun _ => trivial) hclear
  obtain ⟨x₄, hrun₄, hx₄⟩ := Histories.reaches_opened (w := { w₁ with fs := fs₂ }) htest
    (exec_of_quietly (exec_quietFiles hreopen))
  have hrun := (((hrun₁.trans hrun₂).trans hrun₃).trans hx₃.reaches_stop).trans hrun₄
  obtain ⟨owner, hshared, -⟩ := hx₄.shared
  refine ⟨x₄, entryOf ((sampleText 1 1).entry .remote), Histories.Reaches.of_guarded hrun, .inl ?_,
    ?_, ?_⟩
  · rw [hshared]
    dsimp only
    rw [hlisted₃]
    exact List.mem_singleton_self _
  · rintro ⟨⟩
  · rw [hshared]
    exact .inr (.inl (List.mem_singleton_self _))

end Clearing

end ClipSync
