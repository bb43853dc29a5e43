import ClipSync.Core.ClearedHistory

/-!
# Replacing the connection of a running endpoint

`CoreHandle::start` opens a session over the files of the endpoint on the thread of the
host and hands it to the dispatcher, which may still be working on the session of the
connection that is replaced. Each of the two has a copy of what it has read.

As long as nothing is done on the old session from the moment the new one starts to read
until the dispatcher has taken it, no item reaches the clipboard twice, no sequence number
is used twice, and the new session continues the history of the old one.
-/

namespace ClipSync

open Lib Program FsProgram SessionProgram SessionStore HistoryStore

/-! ## The two threads -/

/-- What the dispatcher works on: a frame or a command for its connection, or a new
connection. -/
inductive Job where
  | call (request : Call)
  | connect

inductive Dispatcher where
  | idle (connection : Option Session)
  | busy (job : Job) (rest : SessionProgram (Option Frame × Option Session))

/-- The thread in `start`: it builds the connection, puts it into the queue, and waits for
the dispatcher. -/
inductive Host where
  | idle
  | opening (rest : SessionProgram (Except SessionError Session))
  | queued (fresh : Session)
  | waiting

/-- An endpoint with its two threads, and the history of the last session that was
worked on. -/
structure Handover where
  world : World
  dispatcher : Dispatcher
  host : Host
  recorded : List HistoryItem

section Handovers

variable {crates : Crates} (pairing : Pairing crates.prim) (seqOf : Uuid → UInt64)

def Handover.initial (files : Path Dir → Option Bytes) : Handover where
  world := ⟨⟨files, fun path => (files path).toList⟩, [], [], []⟩
  dispatcher := .idle none
  host := .idle
  recorded := []

/-- The steps of the two threads. In an exclusive run the host starts to read between two
calls, and no call is begun before it is done. -/
inductive Handover.Step (exclusive : Prop) : Handover → Handover → Prop where
  | start {σ : Handover} (hhost : σ.host = .idle)
      (hquiet : exclusive → ∃ connection, σ.dispatcher = .idle connection) :
      Step exclusive σ { σ with
        host := .opening (files (Session.openSession crates pairing.identity pairing.record)) }
  | read {σ : Handover} {op : SessionOp} {k : op.Res → SessionProgram (Except SessionError Session)}
      {r : op.Res} {w : World} (hhost : σ.host = .opening (.call op k))
      (hexec : SessionOp.exec crates op σ.world r w) :
      Step exclusive σ { σ with world := w, host := .opening (k r) }
  | fail {σ : Handover} {result : Except SessionError Session}
      (hhost : σ.host = .opening (.done result)) : Step exclusive σ { σ with host := .idle }
  | enqueue {σ : Handover} {fresh : Session} (hhost : σ.host = .opening (.done (.ok fresh))) :
      Step exclusive σ { σ with host := .queued fresh }
  | begin {σ : Handover} {self : Session} {request : Call}
      {program : SessionProgram (Option Frame × Option Session)}
      (hdispatcher : σ.dispatcher = .idle (some self))
      (hcall : request.program pairing (some self) = some program)
      (hrelays : request.Relays crates seqOf (some self)) (hquiet : exclusive → σ.host = .idle) :
      Step exclusive σ { σ with dispatcher := .busy (.call request) program }
  | access {σ : Handover} {job : Job} {op : SessionOp}
      {k : op.Res → SessionProgram (Option Frame × Option Session)} {r : op.Res} {w : World}
      (hdispatcher : σ.dispatcher = .busy job (.call op k))
      (hexec : SessionOp.exec crates op σ.world r w) :
      Step exclusive σ { σ with world := w, dispatcher := .busy job (k r) }
  | finish {σ : Handover} {request : Call} {frame : Option Frame} {self : Session}
      (hdispatcher : σ.dispatcher = .busy (.call request) (.done (frame, some self))) :
      Step exclusive σ { σ with
        dispatcher := .idle (some self), recorded := self.history.items }
  | disconnect {σ : Handover} {connection : Option Session}
      (hdispatcher : σ.dispatcher = .idle connection) :
      Step exclusive σ { σ with dispatcher := .idle none }
  | connect {σ : Handover} {connection : Option Session} {fresh : Session}
      (bootstrap : Option (String × String × Int64))
      (hdispatcher : σ.dispatcher = .idle connection) (hhost : σ.host = .queued fresh)
      (hrelays : BootstrapRelays seqOf crates fresh bootstrap) :
      Step exclusive σ { σ with
        dispatcher := .busy .connect (connectProgram crates fresh bootstrap)
        host := .waiting }
  | install {σ : Handover} {frame : Option Frame} {fresh : Session}
      (hdispatcher : σ.dispatcher = .busy .connect (.done (frame, some fresh))) :
      Step exclusive σ { σ with
        dispatcher := .idle (some fresh), host := .idle, recorded := fresh.history.items }

abbrev Handover.Reaches (exclusive : Prop) : Handover → Handover → Prop :=
  Relation.ReflTransGen (Handover.Step pairing seqOf exclusive)

/-! ## The history over a call -/

/-- The list of a session is a continuation of `base`, and continued by the file. -/
structure Session.Continues (crates : Crates) (base : List HistoryItem) (w : World)
    (session : Session) : Prop where
  wellFormed : WellFormed session.history.items
  base : Retains base session.history.items
  persisted : Retains session.history.items (listed crates.lines w.fs)

variable {base : List HistoryItem} {w : World} {self : Session}

variable {request : Call} {s : Fs Dir} {σ : Handover} {history : HistoryStore}
  {recorded : List HistoryItem} {connection : Option Session} {exclusive : Prop} {fresh : Session}
  {program : SessionProgram (Option Frame × Option Session)} {w' : World}

theorem Session.Continues.world (h : self.Continues crates base w)
    (hlisted : listed crates.lines w'.fs = listed crates.lines w.fs) :
    self.Continues crates base w' :=
  ⟨h.wellFormed, h.base, hlisted ▸ h.persisted⟩

theorem Session.Continues.registerText (h : self.Continues crates base w) (content : ClipContent) :
    (self.registerText crates content).Continues crates base w := by
  obtain ⟨hashes, heq⟩ := self.registerText_eq crates content
  rw [heq]
  exact ⟨h.wellFormed, h.base, h.persisted⟩

theorem Commits.listed_eq {key : String} {state : DirectionState} {s s' : Fs Dir}
    (h : Commits crates key state s s') : listed crates.lines s' = listed crates.lines s :=
  listed_congr _ (h.files metadataFile nofun)

theorem continues_commit {key : String} {state : DirectionState}
    (h : self.Continues crates base w) :
    Safe (SessionOp.exec crates) (fun _ => True) (fun _ w' => self.Continues crates base w')
      (files (commitDirection crates key state none)) w :=
  safe_files (safe_commitDirection key state w.fs) (fun _ _ => trivial)
    fun _ _ hcommits _ => h.world hcommits.listed_eq

theorem continues_updates {p : FsProgram Dir (Except HistoryError Unit × HistoryStore)}
    {next : List HistoryItem} (hp : Updates crates.lines self.history next p w.fs)
    (hwell : WellFormed next) (hnext : Retains self.history.items next)
    (h : self.Continues crates base w) :
    Safe (SessionOp.exec crates) (fun _ => True)
      (fun r w' => { self with history := r.2 }.Continues crates base w') (files p) w := by
  refine safe_files hp (fun _ _ => trivial) ?_
  rintro ⟨r, history⟩ fs' - ⟨hsettled, hitems, -⟩
  have hlisted : Retains history.items (listed crates.lines fs') := by
    rcases hsettled with ⟨rfl, hsame⟩ | hsame
    · exact hsame ▸ h.persisted
    · exact hsame ▸ (wellFormed_listed crates.lines fs').retains
  rcases hitems with rfl | rfl
  · exact ⟨h.wellFormed, h.base, hlisted⟩
  · exact ⟨hwell, h.base.trans hnext, hlisted⟩

theorem continues_add (item : NewHistoryItem) (h : self.Continues crates base w) :
    Safe (SessionOp.exec crates) (fun _ => True)
      (fun r w' => { self with history := r.2 }.Continues crates base w')
      (files (self.history.add crates.lines item)) w :=
  continues_updates (safe_add h.wellFormed item w.fs) (h.wellFormed.adding item)
    (retains_adding h.wellFormed item) h

theorem continues_setSource (id : Uuid) (h : self.Continues crates base w) :
    Safe (SessionOp.exec crates) (fun _ => True)
      (fun r w' => { self with history := r.2 }.Continues crates base w')
      (files (self.history.setSource crates.lines id .remote)) w := by
  refine continues_updates (safe_setSource h.wellFormed id .remote w.fs)
    (h.wellFormed.sourcing id .remote) ?_ h
  obtain ⟨added, hadded⟩ := h.wellFormed.retains
  exact ⟨added, (promotes_sourcing h.wellFormed id .remote).ids.trans hadded⟩

theorem continues_sendClip (content : ClipContent) (tsMs : Int64) (failAt : Option SendStage)
    (h : self.Continues crates base w) :
    Safe (SessionOp.exec crates) (fun _ => True) (fun r w' => r.2.Continues crates base w')
      (self.sendClipWithFault crates content tsMs failAt) w := by
  have hsends : Session.Sends (.safe (SessionOp.exec crates) fun _ => True) crates self content tsMs
      (self.Continues crates base) (self.Continues crates base) (fun _ _ w' =>
        self.Continues crates base w')
      (fun _ self' w' => self'.Continues crates base w') :=
    { finish := fun hw h => ⟨hw, h⟩
      reject := fun h _ => h
      reserve := fun _ h _ _ => (continues_commit h).imp
        fun _ _ _ h => .intro (fun _ => h) fun _ => h
      refuse := fun _ h => ⟨h.wellFormed, h.base, h.persisted⟩
      draw := fun _ h => ⟨trivial, fun _ _ hexec => ⟨trivial, hexec.2 ▸ h⟩⟩
      encrypt := fun _ h _ => ⟨trivial, fun r _ hexec => ⟨trivial, by
        cases r with
        | error e => exact hexec ▸ h
        | ok bytes =>
          obtain ⟨-, rfl⟩ := hexec
          exact h.world rfl⟩⟩
      add := fun _ h => (continues_add _ h).imp fun _ _ _ h =>
        have h' := ⟨h.wellFormed, h.base, h.persisted⟩
        .intro (fun _ => .registerText h' content) fun _ => h' }
  exact hsends.sendClip failAt trivial h

theorem receives_continues (item : ClipItem) (fresh : Bool) (failAt : Option ReceiveStage) :
    Session.Receives (.safe (SessionOp.exec crates) fun _ => True) crates item fresh failAt
      (fun _ self w => self.Continues crates base w)
      (fun _ self w => self.Continues crates base w) where
  finish hw h := ⟨hw, h⟩
  mark _ h := ⟨trivial, fun _ _ hexec => ⟨trivial, hexec ▸ h.world rfl⟩⟩
  fault _ h := h
  add _ h := (continues_add _ h).imp fun _ _ _ h => .intro (fun _ => h) fun _ => h
  clear _ h := (continues_commit h).imp fun _ _ _ h =>
    .intro (fun _ => ⟨h.wellFormed, h.base, h.persisted⟩) fun _ => h
  callback _ h := ⟨trivial, fun r _ hexec =>
    have h' := hexec ▸ h.world rfl
    ⟨trivial, .intro crates h' h' (fun _ => h') (h'.registerText _) r⟩⟩
  promote _ h := (continues_setSource _ h).imp fun _ _ _ h =>
    .intro (fun _ => h) fun _ => h
  applied h := h.registerText _

theorem continues_handleClip (roomId ciphertextB64 : String) (mailbox : Bool) (nowMs : Int64)
    (failAt : Option ReceiveStage) (h : self.Continues crates base w) :
    Safe (SessionOp.exec crates) (fun _ => True) (fun r w' => r.2.Continues crates base w')
      (self.handleClipWithFault crates roomId ciphertextB64 mailbox nowMs failAt) w := by
  rcases self.handleClip_cases crates roomId ciphertextB64 mailbox nowMs failAt with
    ⟨_, hrefused, -⟩ | ⟨item, -, -, -, hdelivered⟩
  · rw [hrefused]
    exact ⟨trivial, h⟩
  · rw [hdelivered]
    refine (receives_continues item _ failAt).deliverClip trivial
      ((continues_commit h).imp fun _ _ _ h => .intro (fun _ => ?_) fun _ => h)
    exact ⟨h.wellFormed, h.base, h.persisted⟩

theorem continues_applyDeferred (id : Uuid) (h : self.Continues crates base w) :
    Safe (SessionOp.exec crates) (fun _ => True) (fun r w' => r.2.Continues crates base w')
      (self.applyDeferred crates id) w := by
  refine Safe.bind (continues_setSource _ h) ?_
  rintro ⟨r, history⟩ w₁ - h₁
  cases r with
  | error e => exact ⟨trivial, h₁⟩
  | ok u =>
  dsimp only
  split
  · exact ⟨trivial, h₁.registerText (.text _)⟩
  · exact ⟨trivial, h₁⟩

theorem continues_clearHistory (h : self.Continues crates base w) :
    Safe (SessionOp.exec crates) (fun _ => True)
      (fun r w' => r.2.Continues crates r.2.history.items w') (self.clearHistory crates) w := by
  refine Safe.bind (safe_files (Q := fun r w' => { self with history := r.2 }.Continues crates
    r.2.items w') (safe_clear self.history w.fs) (fun _ _ => trivial) ?_) ?_
  · rintro ⟨r, history⟩ fs' - ⟨hsettled, hitems, -⟩
    have hwell : WellFormed history.items := by
      rcases hitems with rfl | hempty
      · exact h.wellFormed
      · rw [hempty]
        exact .nil
    refine ⟨hwell, hwell.retains, ?_⟩
    rcases hsettled with ⟨rfl, hsame⟩ | hlisted
    · rw [hsame]
      exact h.persisted
    · rw [hlisted]
      exact hwell.retains
  · rintro ⟨r, history⟩ w₁ - h₁
    exact ⟨trivial, h₁⟩

/-! ## The callbacks of a call -/

def Attested (seqOf : Uuid → UInt64) : SessionOp → Prop
  | .callback item _ => item.seq = seqOf item.id
  | .fs _ | .newV4 | .sealMessage .. | .reached .. => True

variable {seqOf}

def AllAttested (seqOf : Uuid → UInt64) (w : World) : Prop :=
  ∀ event ∈ w.callbacks, event.item.seq = seqOf event.item.id

theorem AllAttested.exec {op : SessionOp} {r : op.Res} (hop : Attested seqOf op)
    (hexec : SessionOp.exec crates op w r w') (h : AllAttested seqOf w) : AllAttested seqOf w' := by
  cases op with
  | fs op =>
    obtain ⟨fs', -, rfl⟩ := hexec
    exact h
  | newV4 =>
    obtain ⟨-, rfl⟩ := hexec
    exact h
  | sealMessage envelope key associated encoded =>
    cases r with
    | ok bytes =>
      obtain ⟨-, rfl⟩ := hexec
      exact h
    | error e =>
      cases hexec
      exact h
  | callback item mailbox =>
    cases hexec
    intro event hevent
    rcases List.mem_append.1 hevent with hold | hlast
    · exact h event hold
    · rw [List.mem_singleton.1 hlast]
      exact hop
  | reached stage id =>
    cases hexec
    exact h

theorem attested_files {α : Type} (p : FsProgram Dir α) : AllOps (Attested seqOf) (files p) := by
  refine allOps_lift (P := fun _ => True) (fun op _ => ?_) (allOps_true p)
  exact allOps_perform trivial

theorem safe_attested {α : Type} {Q : α → World → Prop} {p : SessionProgram α}
    (hQ : ∀ a w, Q a w) (hp : AllOps (Attested seqOf) p) (h : AllAttested seqOf w) :
    Safe (SessionOp.exec crates) (AllAttested seqOf) Q p w :=
  ((safe_of_forall hQ p w).and (K := AllAttested seqOf)
    (fun _ _ _ _ hop hexec => AllAttested.exec hop hexec) hp h).mono (fun _ h => h.2)
    fun _ _ _ h => h.1

theorem attested_sendClip (content : ClipContent) (tsMs : Int64) (failAt : Option SendStage)
    (h : AllAttested seqOf w) :
    Safe (SessionOp.exec crates) (AllAttested seqOf) (fun _ _ => True)
      (self.sendClipWithFault crates content tsMs failAt) w := by
  have hsends : Session.Sends (.safe (SessionOp.exec crates) (AllAttested seqOf)) crates self
      content tsMs (fun _ => True) (fun _ => True) (fun _ _ _ => True) (fun _ _ _ => True) :=
    { finish := fun hw h => ⟨hw, h⟩
      reject := fun _ _ => trivial
      reserve := fun hw _ _ _ => safe_attested (fun _ _ => .intro (fun _ => trivial)
        fun _ => trivial) (attested_files _) hw
      refuse := fun _ _ => trivial
      draw := fun hw _ => safe_attested (fun _ _ => trivial) (allOps_perform trivial) hw
      encrypt := fun hw _ _ => safe_attested (fun r _ => by cases r <;> trivial)
        (allOps_perform trivial) hw
      add := fun hw _ => safe_attested (fun _ _ => .intro (fun _ => trivial) fun _ => trivial)
        (attested_files _) hw }
  exact hsends.sendClip failAt h trivial

theorem receives_attested {item : ClipItem} (hitem : item.seq = seqOf item.id) (fresh : Bool)
    (failAt : Option ReceiveStage) :
    Session.Receives (.safe (SessionOp.exec crates) (AllAttested seqOf)) crates item fresh failAt
      (fun _ _ _ => True) (fun _ _ _ => True) where
  finish hw h := ⟨hw, h⟩
  mark hw _ := safe_attested (fun _ _ => trivial) (allOps_perform trivial) hw
  fault _ _ := trivial
  add hw _ := safe_attested (fun _ _ => .intro (fun _ => trivial) fun _ => trivial)
    (attested_files _) hw
  clear hw _ := safe_attested (fun _ _ => .intro (fun _ => trivial) fun _ => trivial)
    (attested_files _) hw
  callback hw _ := safe_attested
    (fun r _ => .intro crates trivial trivial (fun _ => trivial) trivial r)
    (allOps_perform hitem) hw
  promote hw _ := safe_attested (fun _ _ => .intro (fun _ => trivial) fun _ => trivial)
    (attested_files _) hw
  applied _ := trivial

theorem attested_program {pairing : Pairing crates.prim}
    (hcall : request.program pairing (some self) = some program)
    (hrelays : request.Relays crates seqOf (some self)) (h : AllAttested seqOf w) :
    Safe (SessionOp.exec crates) (AllAttested seqOf) (fun _ _ => True) program w := by
  match request, hcall with
  | .send content tsMs failAt, rfl =>
    exact Safe.bind (attested_sendClip content tsMs failAt h) fun _ _ hw _ => ⟨hw, trivial⟩
  | .handle roomId ciphertextB64 mailbox nowMs failAt, rfl =>
    refine Safe.bind (Q := fun _ _ => True) ?_ fun _ _ hw _ => ⟨hw, trivial⟩
    rcases self.handleClip_cases crates roomId ciphertextB64 mailbox nowMs failAt with
      ⟨_, hrefused, -⟩ | ⟨item, hauthentic, -, -, hdelivered⟩
    · rw [hrefused]
      exact ⟨h, trivial⟩
    · rw [hdelivered]
      exact (receives_attested (hrelays item hauthentic) _ failAt).deliverClip h (safe_attested
        (fun _ _ => .intro (fun _ => trivial) fun _ => trivial) (attested_files _) h)
  | .applyDeferred id, rfl =>
    refine safe_attested (fun _ _ => trivial) (allOps_bind (allOps_bind (attested_files _)
      fun r => ?_) fun _ => trivial) h
    rcases r with ⟨_ | _, history⟩
    · trivial
    · dsimp only
      split <;> trivial
  | .clearHistory, rfl =>
    exact safe_attested (fun _ _ => trivial)
      (allOps_bind (allOps_bind (attested_files _) fun _ => trivial) fun _ => trivial) h

/-! ## Opening beside a session -/

def OpenedShown (crates : Crates) (r : Except SessionError Session) (s : Fs Dir) : Prop :=
  ∀ session, r = .ok session → session.history.items = listed crates.lines s

theorem openedShown_error (error : SessionError) : OpenedShown crates (.error error) s := nofun

theorem opens_shown (pairing : Pairing crates.prim) (s₀ : Fs Dir) :
    Session.Opens (.safe Fs.exec fun s => Retains (listed crates.lines s₀) (listed crates.lines s))
      crates pairing.identity pairing.record (fun _ => True)
      (fun history s => history.items = listed crates.lines s)
      (fun history _ s => history.items = listed crates.lines s)
      (fun _ _ history _ s => history.items = listed crates.lines s) (OpenedShown crates) where
  finish hs h := ⟨hs, h⟩
  create hs _ := ⟨hs, fun r _ hcreate => by
    cases hcreate
    exact ⟨hs, .intro (fun _ => trivial) openedShown_error⟩⟩
  list {s} hs _ := by
    refine Safe.mono (safe_open s) (fun s' hsame => ?_) fun r s' hsame hitems => ?_
    · rw [hsame]
      exact hs
    cases r with
    | error e => exact openedShown_error _
    | ok history => exact (hitems history rfl).trans hsame.symm
  refuse error _ := openedShown_error error
  loadSend {_ s} hs h := by
    refine (safe_loadDirection _ _ s).mono (fun _ h => h ▸ hs) fun r s' hsame _ => ?_
    cases r with
    | error e => exact openedShown_error _
    | ok state => exact hsame ▸ h
  loadRecv {_ _ s} hs h := by
    refine (safe_loadDirection _ _ s).mono (fun _ h => h ▸ hs) fun r s' hsame _ => ?_
    cases r with
    | error e => exact openedShown_error _
    | ok state => exact hsame ▸ h
  add {_ _ _ pending _ s} hs h := by
    have hwell := h ▸ wellFormed_listed crates.lines s
    refine (safe_add hwell pending.newHistoryItem s).mono ?_ ?_
    · rintro s' (hsame | hadded)
      · exact hsame ▸ hs
      · rw [hadded]
        exact hs.trans (h ▸ retains_adding hwell _)
    · rintro ⟨r, history⟩ s' - ⟨hsettled, -⟩
      exact .intro (fun _ => hsettled.shown h) fun _ => openedShown_error _
  clear {_ _ _ _ s} hs _ h := by
    refine Safe.mono (safe_commitDirection _ _ s) (fun s' hcommits => ?_) fun r s' hcommits _ => ?_
    · rw [hcommits.listed_eq]
      exact hs
    refine .intro (fun _ => ?_) openedShown_error
    rintro _ ⟨⟩
    exact h.trans hcommits.listed_eq.symm
  keep _ _ h := by
    rintro _ ⟨⟩
    exact h

theorem retains_openSession (pairing : Pairing crates.prim) (s : Fs Dir) :
    Safe Fs.exec (fun s' => Retains (listed crates.lines s) (listed crates.lines s'))
      (OpenedShown crates) (Session.openSession crates pairing.identity pairing.record) s :=
  (opens_shown pairing s).openSession (wellFormed_listed _ _).retains trivial

/-! ## The invariant of an exclusive run -/

variable (seqOf)

/-- What holds outside a call, of the connection that is installed. -/
structure Handover.Rests (recorded : List HistoryItem) (connection : Option Session) (w : World) :
    Prop where
  durable : Durable pairing w
  attested : AllAttested seqOf w
  wellFormed : WellFormed recorded
  persisted : Retains recorded (listed crates.lines w.fs)
  live : ∀ self ∈ connection, self.Live pairing w
  shown : ∀ self ∈ connection, self.history.items = recorded

/-- What holds of a session that has been opened and not yet installed. -/
structure Session.Fresh (w : World) (session : Session) : Prop where
  live : session.Live pairing w
  shown : session.history.items = listed crates.lines w.fs

/-- What holds of the session that a call leaves. -/
structure Session.Left (base : List HistoryItem) (w : World) (session : Session) : Prop where
  live : session.Live pairing w
  continues : session.Continues crates base w

def Handover.Consistent (σ : Handover) : Prop :=
  match σ.dispatcher, σ.host with
  | .idle connection, .idle => Rests pairing seqOf σ.recorded connection σ.world
  | .idle connection, .opening rest =>
    Safe (SessionOp.exec crates) (Rests pairing seqOf σ.recorded connection)
      (fun r w => ∀ fresh, r = .ok fresh → fresh.Fresh pairing w) rest σ.world
  | .idle connection, .queued fresh =>
    Rests pairing seqOf σ.recorded connection σ.world ∧ fresh.Fresh pairing σ.world
  | .busy (.call _) rest, .idle =>
    Safe (SessionOp.exec crates) (fun w => Durable pairing w ∧ AllAttested seqOf w)
      (fun result w => ∀ self ∈ result.2, self.Left pairing self.history.items w) rest σ.world
  | .busy .connect rest, .waiting =>
    Safe (SessionOp.exec crates) (fun w => Durable pairing w ∧ AllAttested seqOf w)
      (fun result w => ∀ self ∈ result.2, self.Left pairing σ.recorded w) rest σ.world
  | _, _ => False

variable {pairing seqOf}

theorem Handover.Consistent.durable (h : σ.Consistent pairing seqOf) :
    Durable pairing σ.world ∧ AllAttested seqOf σ.world := by
  unfold Consistent at h
  split at h
  · exact ⟨h.durable, h.attested⟩
  · exact ⟨h.inv.durable, h.inv.attested⟩
  · exact ⟨h.1.durable, h.1.attested⟩
  · exact h.inv
  · exact h.inv
  · exact h.elim

theorem safe_start (h : Handover.Rests pairing seqOf recorded connection w) :
    Safe (SessionOp.exec crates) (Handover.Rests pairing seqOf recorded connection)
      (fun r w' => ∀ fresh, r = .ok fresh → fresh.Fresh pairing w')
      (files (Session.openSession crates pairing.identity pairing.record)) w := by
  have hunchanged : Within pairing (· = onDisk crates w.fs pairing.sendKey) w := ⟨h.durable, rfl⟩
  have hgrown := ((safe_openSession hunchanged).inter (retains_openSession pairing w.fs)).and
    (P := fun _ => True)
    (K := fun fs' => w.fs.versions metadataFile ⊆ fs'.versions metadataFile)
    (fun _ _ _ _ _ hexec hsub _ hmem => Fs.versions_subset hexec metadataFile (hsub hmem))
    (allOps_true _) fun _ => id
  refine safe_files hgrown ?_ ?_
  · rintro fs' ⟨⟨hwithin, hretains⟩, hsub⟩
    exact ⟨hwithin.1, h.attested, h.wellFormed, h.persisted.trans hretains,
      fun self hself => (h.live self hself).fs hsub, h.shown⟩
  · rintro r fs' - ⟨⟨hopened, hshown⟩, -⟩ fresh hr
    exact ⟨(hopened fresh hr).1, hshown fresh hr⟩

theorem continues_program (hcall : request.program pairing (some self) = some program)
    (h : self.Continues crates base w) :
    Safe (SessionOp.exec crates) (fun _ => True)
      (fun result w' => ∀ self' ∈ result.2, self'.Continues crates self'.history.items w')
      program w := by
  have hends : ∀ {self' : Session} {w' : World} (frame : Option Frame),
      self'.Continues crates base w' → Safe (SessionOp.exec crates) (fun _ => True)
        (fun result w' => ∀ self' ∈ result.2, self'.Continues crates self'.history.items w')
        (pure (frame, some self')) w' := by
    rintro self' w' frame h'
    refine ⟨trivial, ?_⟩
    rintro _ ⟨⟩
    exact ⟨h'.wellFormed, h'.wellFormed.retains, h'.persisted⟩
  match request, hcall with
  | .send content tsMs failAt, rfl =>
    exact Safe.bind (continues_sendClip content tsMs failAt h) fun _ _ _ h' => hends _ h'
  | .handle roomId ciphertextB64 mailbox nowMs failAt, rfl =>
    exact Safe.bind (continues_handleClip roomId ciphertextB64 mailbox nowMs failAt h)
      fun _ _ _ h' => hends _ h'
  | .applyDeferred id, rfl =>
    exact Safe.bind (continues_applyDeferred id h) fun _ _ _ h' => hends _ h'
  | .clearHistory, rfl =>
    refine Safe.bind (continues_clearHistory h) ?_
    rintro ⟨r, self'⟩ w' - h'
    refine ⟨trivial, ?_⟩
    rintro _ ⟨⟩
    exact h'

/-- A call on the session that is installed. -/
theorem safe_begin (hcall : request.program pairing (some self) = some program)
    (hrelays : request.Relays crates seqOf (some self))
    (h : Handover.Rests pairing seqOf recorded (some self) w) :
    Safe (SessionOp.exec crates) (fun w' => Durable pairing w' ∧ AllAttested seqOf w')
      (fun result w' => ∀ self' ∈ result.2, self'.Left pairing self'.history.items w')
      program w := by
  have hcontinues : self.Continues crates recorded w := by
    refine ⟨?_, ?_, ?_⟩ <;> rw [h.shown self rfl]
    · exact h.wellFormed
    · exact h.wellFormed.retains
    · exact h.persisted
  have hall := ((safe_program hcall h.durable h.live).inter
    (continues_program hcall hcontinues)).inter (attested_program hcall hrelays h.attested)
  exact hall.mono (fun _ h => ⟨h.1.1.durable, h.2⟩)
    fun _ _ _ h self' hself' => ⟨h.1.1.live self' hself', h.1.2 self' hself'⟩

theorem safe_connect (bootstrap : Option (String × String × Int64))
    (hrelays : BootstrapRelays seqOf crates fresh bootstrap)
    (h : Handover.Rests pairing seqOf recorded connection w) (hfresh : fresh.Fresh pairing w) :
    Safe (SessionOp.exec crates) (fun w' => Durable pairing w' ∧ AllAttested seqOf w')
      (fun result w' => ∀ self ∈ result.2, self.Left pairing recorded w')
      (connectProgram crates fresh bootstrap) w := by
  have hcontinues : fresh.Continues crates recorded w := by
    have hwell := wellFormed_listed crates.lines w.fs
    refine ⟨?_, ?_, ?_⟩ <;> rw [hfresh.shown]
    · exact hwell
    · exact h.persisted
    · exact hwell.retains
  match bootstrap, hrelays with
  | none, _ =>
    refine ⟨⟨h.durable, h.attested⟩, ?_⟩
    rintro _ ⟨⟩
    exact ⟨hfresh.live, hcontinues⟩
  | some (roomId, ciphertextB64, nowMs), hrelays =>
    let request : Call := .handle roomId ciphertextB64 true nowMs none
    have hcall : request.program pairing (some fresh) =
      some (connectProgram crates fresh (some (roomId, ciphertextB64, nowMs))) := rfl
    have hlive : ∀ self ∈ some fresh, self.Live pairing w := by
      rintro _ ⟨⟩
      exact hfresh.live
    have hhandled : Safe (SessionOp.exec crates) (fun _ => True)
        (fun result w' => ∀ self ∈ result.2, self.Continues crates recorded w')
        (connectProgram crates fresh (some (roomId, ciphertextB64, nowMs))) w := by
      refine Safe.bind (continues_handleClip roomId ciphertextB64 true nowMs none hcontinues) ?_
      rintro ⟨r, self'⟩ w' - h'
      refine ⟨trivial, ?_⟩
      rintro _ ⟨⟩
      exact h'
    have hall := ((safe_program hcall h.durable hlive).inter hhandled).inter
      (attested_program hcall (hrelays _ rfl) h.attested)
    exact hall.mono (fun _ h => ⟨h.1.1.durable, h.2⟩)
      fun _ _ _ h self hself => ⟨h.1.1.live self hself, h.1.2 self hself⟩

theorem Handover.consistent_initial (files : Path Dir → Option Bytes) :
    (Handover.initial files).Consistent pairing seqOf := by
  exact ⟨durable_initial files, nofun, .nil,
    (wellFormed_listed crates.lines _).retains_nil, nofun, nofun⟩

theorem Handover.Rests.disconnect (h : Handover.Rests pairing seqOf recorded connection w) :
    Handover.Rests pairing seqOf recorded none w :=
  { h with live := nofun, shown := nofun }

theorem Session.Left.rests (h : self.Left pairing recorded w)
    (hw : Durable pairing w ∧ AllAttested seqOf w) :
    Handover.Rests pairing seqOf self.history.items (some self) w := by
  refine ⟨hw.1, hw.2, h.continues.wellFormed, h.continues.persisted, ?_, ?_⟩
  · rintro _ ⟨⟩
    exact h.live
  · rintro _ ⟨⟩
    rfl

theorem Handover.Consistent.step {σ' : Handover} (h : σ.Consistent pairing seqOf)
    (hstep : σ.Step pairing seqOf True σ') : σ'.Consistent pairing seqOf := by
  obtain ⟨w, dispatcher, host, recorded⟩ := σ
  cases hstep with
  | start hhost hquiet =>
    obtain ⟨connection, hdispatcher⟩ := hquiet trivial
    cases hhost
    cases hdispatcher
    exact safe_start h
  | read hhost hexec =>
    cases hhost
    cases dispatcher with
    | idle connection => exact h.2 _ _ hexec
    | busy job rest => cases job <;> exact h.elim
  | fail hhost =>
    cases hhost
    cases dispatcher with
    | idle connection => exact h.1
    | busy job rest => cases job <;> exact h.elim
  | enqueue hhost =>
    cases hhost
    cases dispatcher with
    | idle connection => exact ⟨h.1, h.2 _ rfl⟩
    | busy job rest => cases job <;> exact h.elim
  | begin hdispatcher hcall hrelays hquiet =>
    cases hdispatcher
    cases hquiet trivial
    exact safe_begin hcall hrelays h
  | access hdispatcher hexec =>
    rename_i job op k r w'
    cases hdispatcher
    cases job <;> cases host <;> first | exact h.elim | exact h.2 _ _ hexec
  | finish hdispatcher =>
    cases hdispatcher
    cases host with
    | idle => exact (h.2 _ rfl).rests h.1
    | opening _ | queued _ | waiting => exact h.elim
  | disconnect hdispatcher =>
    cases hdispatcher
    cases host with
    | idle => exact h.disconnect
    | opening rest => exact Safe.mono h (fun _ h => h.disconnect) fun _ _ _ h => h
    | queued fresh => exact ⟨h.1.disconnect, h.2⟩
    | waiting => exact h.elim
  | connect bootstrap hdispatcher hhost hrelays =>
    cases hdispatcher
    cases hhost
    exact safe_connect bootstrap hrelays h.1 h.2
  | install hdispatcher =>
    cases hdispatcher
    cases host with
    | waiting => exact (h.2 _ rfl).rests h.1
    | idle | opening _ | queued _ => exact h.elim

theorem Handover.Reaches.consistent {files : Path Dir → Option Bytes}
    (h : (Handover.initial files).Reaches pairing seqOf True σ) : σ.Consistent pairing seqOf := by
  induction h with
  | refl => exact consistent_initial files
  | tail _ hstep ih => exact ih.step hstep

theorem Handover.reaches_queued {fs' : Fs Dir} (hhost : σ.host = .idle)
    (hquiet : exclusive → ∃ connection, σ.dispatcher = .idle connection)
    (hopen : Exec Fs.exec (Session.openSession crates pairing.identity pairing.record) σ.world.fs
      (.ok fresh) fs') :
    σ.Reaches pairing seqOf exclusive
      { σ with world := { σ.world with fs := fs' }, host := .queued fresh } := by
  have hreads := Exec.reaches (R := Handover.Step pairing seqOf exclusive) (f := fun rest w =>
      { σ with world := w, host := .opening rest }) (fun hexec => .read rfl hexec)
    (exec_files hopen)
  exact .head (.start hhost hquiet) (.tail hreads (.enqueue rfl))

theorem Handover.reaches_installed (hdispatcher : σ.dispatcher = .idle connection)
    (hhost : σ.host = .queued fresh) :
    σ.Reaches pairing seqOf exclusive
      ⟨σ.world, .idle (some fresh), .idle, fresh.history.items⟩ :=
  .head (.connect none hdispatcher hhost nofun) (.single (.install rfl))

theorem Handover.reaches_called {session session' : Session} (request : Call)
    {frame : Option Frame} (hdispatcher : σ.dispatcher = .idle (some session))
    (hquiet : exclusive → σ.host = .idle)
    (hcall : request.program pairing (some session) = some program)
    (hrelays : request.Relays crates seqOf (some session))
    (hexec : Exec (SessionOp.exec crates) program σ.world (frame, some session') w') :
    σ.Reaches pairing seqOf exclusive
      ⟨w', .idle (some session'), σ.host, session'.history.items⟩ := by
  have hbusy := hexec.reaches (R := Handover.Step pairing seqOf exclusive) (f := fun rest w =>
    { σ with world := w, dispatcher := .busy (.call request) rest }) fun hexec => .access rfl hexec
  exact .head (.begin hdispatcher hcall hrelays hquiet) (.tail hbusy (.finish rfl))

end Handovers

end ClipSync
