import ClipSync.Core.EndToEnd
import ClipSync.Core.SessionSpec
import ClipSync.Lib.Client

/-!
# Runs of an endpoint

An endpoint opens a session over its directories again and again, one at a time, and
makes any calls on it. A run may stop between any two accesses; what is in memory is
then lost, and the files stay.

Over every run, callbacks and sealed messages have increasing sequence numbers, and
what has been delivered is in the history once the session is open again.
-/

namespace ClipSync

open Lib Program FsProgram SessionProgram SessionStore HistoryStore

/-- The calls of a host. -/
inductive Call where
  | reopen
  | send (content : ClipContent) (tsMs : Int64) (failAt : Option SendStage)
  | handle (roomId ciphertextB64 : String) (mailbox : Bool) (nowMs : Int64)
      (failAt : Option ReceiveStage)
  | applyDeferred (id : Uuid)
  | clearHistory

section Runs

variable {crates : Crates} (pairing : Pairing crates.prim)

/-- The program of a call: what it returns to the host is the frame to be sent, if any,
and the session. A session is opened when there is none, and called when there is one. -/
def Call.program : Call → Option Session → Option (SessionProgram (Option Frame × Option Session))
  | .reopen, none => some do
      let result ← files (Session.openSession crates pairing.identity pairing.record)
      return (none, result.toOption)
  | .send content tsMs failAt, some self => some do
      let (result, self) ← self.sendClipWithFault crates content tsMs failAt
      return (result.toOption, some self)
  | .handle roomId ciphertextB64 mailbox nowMs failAt, some self => some do
      let (_, self) ← self.handleClipWithFault crates roomId ciphertextB64 mailbox nowMs failAt
      return (none, some self)
  | .applyDeferred id, some self => some do
      let (_, self) ← self.applyDeferred crates id
      return (none, some self)
  | .clearHistory, some self => some do
      let (_, self) ← self.clearHistory crates
      return (none, some self)
  | _, _ => none

/-- The frames that have left, and the world in which the latest call began. -/
structure EndpointRecord where
  frames : List Frame
  start : World

abbrev Endpoint := Client SessionOp SessionOp.Res Call (Option Session) (Option Frame) World
  EndpointRecord

def Endpoint.initial (files : Path Dir → Option Bytes) : Endpoint where
  state := ⟨⟨files, fun path => (files path).toList⟩, [], [], []⟩
  object := none
  running := none
  record := ⟨[], ⟨⟨files, fun path => (files path).toList⟩, [], [], []⟩⟩

def Endpoint.AtMark (σ : Endpoint) : Prop :=
  match σ.running with
  | some (_, .call (.reached ..) _) => True
  | _ => False

/-- An endpoint that is stopped keeps its files only. -/
def endpointService : Service SessionOp SessionOp.Res Call (Option Session) (Option Frame) World
    EndpointRecord where
  program := Call.program pairing
  exec := SessionOp.exec crates
  begins _ _ w record := { record with start := w }
  returns result record := { record with frames := record.frames ++ result.1.toList }
  cut σ w session record := ¬ Endpoint.AtMark σ ∧ w = σ.state ∧ session = none ∧ record = σ.record

/-! ## The invariant of a call -/

/-- What a call leaves alone: opening makes no callback, and receiving does not touch the
send direction on disk. -/
def Call.Spares : Call → World → World → Prop
  | .reopen, start, w => w.callbacks = start.callbacks
  | .handle .., start, w =>
    onDisk crates w.fs pairing.sendKey = onDisk crates start.fs pairing.sendKey
  | .send .., _, _ | .applyDeferred _, _, _ | .clearHistory, _, _ => True

/-- What holds at every access of a call. -/
structure Call.Inside (call : Call) (start w : World) : Prop where
  durable : Durable pairing w
  grown : start.sealedClips <+: w.sealedClips
  spares : call.Spares pairing start w

def Call.Leaves (crates : Crates) : Call → Option Session → Option Session → World → Prop
  | .reopen, _, after, w => after.isSome → AllRecorded crates w
  | .handle .., before, after, _ => after.map (·.sendState) = before.map (·.sendState)
  | .send .., _, _, _ | .applyDeferred _, _, _, _ | .clearHistory, _, _, _ => True

/-- What holds when a call returns. -/
structure Call.Returns (call : Call) (start : World) (before : Option Session)
    (result : Option Frame × Option Session) (w : World) : Prop where
  live : ∀ session ∈ result.2, session.Live pairing w
  sent : ∀ frame ∈ result.1, ∃ clip, start.sealedClips ++ [clip] <+: w.sealedClips ∧
    frame = frameOf pairing clip
  leaves : call.Leaves crates before result.2 w

variable {pairing} {w : World}

variable {session : Option Session} {w' : World}

theorem sealedClips_grow {op : SessionOp} {r : op.Res} (h : SessionOp.exec crates op w r w') :
    w.sealedClips <+: w'.sealedClips := by
  cases op with
  | fs op =>
    obtain ⟨fs', -, rfl⟩ := h
    exact List.prefix_rfl
  | newV4 => exact h.2 ▸ List.prefix_rfl
  | sealMessage envelope key associated encoded =>
    cases r with
    | ok bytes =>
      obtain ⟨-, rfl⟩ := h
      exact List.prefix_append _ _
    | error e => exact h ▸ List.prefix_rfl
  | callback item mailbox =>
    cases h
    exact List.prefix_rfl
  | reached stage id =>
    cases h
    exact List.prefix_rfl

/-- Messages stay sealed. -/
theorem safe_grown {α : Type} {I : World → Prop} {Q : α → World → Prop} {p : SessionProgram α}
    (hp : Safe (SessionOp.exec crates) I Q p w) :
    Safe (SessionOp.exec crates) (fun w' => I w' ∧ w.sealedClips <+: w'.sealedClips) Q p w := by
  refine Safe.mono (hp.and (P := fun _ => True) (K := fun w' => w.sealedClips <+: w'.sealedClips)
    ?_ (allOps_true p) List.prefix_rfl) (fun _ h => h) fun _ _ _ h => h.1
  exact fun op w₁ r w₂ _ hexec hpre => hpre.trans (sealedClips_grow hexec)

/-- Every call keeps the invariant at every access. -/
theorem safe_program {call : Call} {program : SessionProgram (Option Frame × Option Session)}
    (hcall : call.program pairing session = some program) (hw : Durable pairing w)
    (hsession : ∀ self ∈ session, self.Live pairing w) :
    Safe (SessionOp.exec crates) (call.Inside pairing w) (call.Returns pairing w session)
      program w := by
  have hunchanged : Within pairing (· = onDisk crates w.fs pairing.sendKey) w := ⟨hw, rfl⟩
  match call, session, hcall with
  | .reopen, none, rfl =>
    refine Safe.bind (safe_files (Q := OpenedLive pairing) (safe_openSession hunchanged)
      (fun fs' h => ⟨h.1, List.prefix_rfl, rfl⟩) fun _ _ _ h => h) ?_
    rintro r w' hinside hopened
    cases r with
    | error e => exact ⟨hinside, nofun, nofun, nofun⟩
    | ok self =>
      obtain ⟨hlive, hall⟩ := hopened self rfl
      refine ⟨hinside, ?_, nofun, fun _ => hall⟩
      rintro _ ⟨⟩
      exact hlive
  | .send content tsMs failAt, some self, rfl =>
    refine Safe.bind ((safe_grown (safe_sendClip content tsMs failAt hw
      (hsession self rfl))).mono (fun _ h => ⟨h.1, h.2, trivial⟩) fun _ _ _ h => h) ?_
    rintro ⟨r, self'⟩ w' hinside ⟨hlive, hsent⟩
    refine ⟨hinside, ?_, ?_, trivial⟩
    · rintro _ ⟨⟩
      exact hlive
    · intro frame hframe
      cases r with
      | error e => cases hframe
      | ok sent =>
        cases hframe
        obtain ⟨clip, hclips, rfl⟩ := hsent _ rfl
        exact ⟨clip, hclips ▸ List.prefix_rfl, rfl⟩
  | .handle roomId ciphertextB64 mailbox nowMs failAt, some self, rfl =>
    refine Safe.bind ((safe_grown (safe_handleClip roomId ciphertextB64 mailbox nowMs failAt
      hunchanged (hsession self rfl))).mono (fun _ h => ⟨h.1.1, h.2, h.1.2⟩)
        fun _ _ _ h => h) ?_
    rintro ⟨r, self'⟩ w' hinside ⟨hlive, hsend⟩
    refine ⟨hinside, ?_, nofun, congrArg some hsend⟩
    rintro _ ⟨⟩
    exact hlive
  | .applyDeferred id, some self, rfl =>
    refine Safe.bind ((safe_grown (safe_applyDeferred id hunchanged (hsession self rfl))).mono
      (fun _ h => ⟨h.1.1, h.2, trivial⟩) fun _ _ _ h => h) ?_
    rintro ⟨r, self'⟩ w' hinside hlive
    refine ⟨hinside, ?_, nofun, trivial⟩
    rintro _ ⟨⟩
    exact hlive
  | .clearHistory, some self, rfl =>
    refine Safe.bind ((safe_grown (safe_clearHistory hunchanged (hsession self rfl))).mono
      (fun _ h => ⟨h.1.1, h.2, trivial⟩) fun _ _ _ h => h) ?_
    rintro ⟨r, self'⟩ w' hinside hlive
    refine ⟨hinside, ?_, nofun, trivial⟩
    rintro _ ⟨⟩
    exact hlive

/-! ## The invariant of a run -/

variable (pairing)

def FramesOf (frames : List Frame) (w : World) : Prop :=
  frames.Sublist (w.sealedClips.map (frameOf pairing))

/-- What holds between calls: the frames that have left are of sealed messages, in their
order. -/
def Endpoint.Rests (session : Option Session) (w : World) (record : EndpointRecord) : Prop :=
  Durable pairing w ∧ (∀ self ∈ session, self.Live pairing w) ∧ FramesOf pairing record.frames w

def Endpoint.Runs (call : Call) (_ : Option Session) (record : EndpointRecord) (w : World) : Prop :=
  FramesOf pairing record.frames record.start ∧ call.Inside pairing record.start w

def Endpoint.Consistent : Endpoint → Prop :=
  Client.Consistent (endpointService pairing) (Endpoint.Rests pairing) (Endpoint.Runs pairing)
    fun call before record => call.Returns pairing record.start before

variable {pairing} {files : Path Dir → Option Bytes} {σ : Endpoint}

theorem durable_initial (files : Path Dir → Option Bytes) :
    Durable pairing (Endpoint.initial files).state := by
  refine ⟨?_, ⟨nofun, nofun⟩, nofun, .nil, nofun, .nil, nofun⟩
  intro contents hfile
  simp_all [Endpoint.initial]

theorem Endpoint.keeps : (endpointService pairing).Keeps (Endpoint.Rests pairing)
    (Endpoint.Runs pairing) fun call before record => call.Returns pairing record.start before where
  call hcall hrests := (safe_program hcall hrests.1 hrests.2.1).mono
    (fun _ h => ⟨hrests.2.2, h⟩) fun _ _ _ h => h
  finish {_ _ result _ _} hinside hreturns := by
    obtain ⟨hstart, hinside⟩ := hinside
    refine ⟨hinside.durable, hreturns.live, ?_⟩
    obtain ⟨frame, session⟩ := result
    cases frame with
    | none => simpa [endpointService, FramesOf] using hstart.trans (hinside.grown.sublist.map _)
    | some sent =>
      obtain ⟨clip, hpre, rfl⟩ := hreturns.sent _ rfl
      have hsub := hpre.sublist.map (frameOf pairing)
      rw [List.map_append] at hsub
      exact (hstart.append (List.Sublist.refl _)).trans hsub
  cutIdle hcut hrests := by
    obtain ⟨-, rfl, rfl, rfl⟩ := hcut
    exact ⟨hrests.1, nofun, hrests.2.2⟩
  cutBusy hcut hinside := by
    obtain ⟨-, rfl, rfl, rfl⟩ := hcut
    exact ⟨hinside.2.durable, nofun, hinside.1.trans (hinside.2.grown.sublist.map _)⟩

theorem Endpoint.consistent (hrun : (Endpoint.initial files).Reaches (endpointService pairing) σ) :
    σ.Consistent pairing :=
  hrun.consistent Endpoint.keeps ⟨durable_initial files, nofun, List.nil_sublist _⟩

theorem Endpoint.Consistent.durable (h : σ.Consistent pairing) :
    Durable pairing σ.state ∧ FramesOf pairing σ.record.frames σ.state := by
  unfold Consistent Client.Consistent at h
  split at h
  · exact ⟨h.1, h.2.2⟩
  · exact ⟨h.inv.2.durable, h.inv.1.trans (h.inv.2.grown.sublist.map _)⟩

/-- Two messages come, the first of them twice; the endpoint is stopped, opens a session
again and sends two clips. -/
theorem exists_run_sample :
    ∃ σ, (Endpoint.initial fun _ => none).Reaches (endpointService Pairing.sample) σ ∧
      (σ.state.callbacks.map fun event => event.item.seq) = [1, 2] ∧
      (σ.state.sealedClips.map fun clip => clip.1.seq) = [1, 2] ∧ σ.record.frames.length = 2 := by
  let w₀ : World := (Endpoint.initial fun _ => none).state
  obtain ⟨keys, hself⟩ := exists_session_sample .sample
  have h₀ := hself w₀.fs fun _ => rfl
  obtain ⟨first, htakes₁⟩ := exists_taken_sample (.sample .sample keys) 1 1 (by decide) nofun
    (by decide : (0 : UInt64) < 1) nofun (by decide : 0 < historyCap)
  obtain ⟨fs₁, hhandle₁, h₁⟩ := Session.Current.handleClip (w := w₀) h₀ htakes₁
  obtain ⟨outcome, hagain⟩ := htakes₁.again (w₀.received (sampleText 1 1) fs₁) false 0 none
  let self₁ := (Session.sample .sample keys).received Crates.sample (sampleText 1 1)
  obtain ⟨second, htakes₂⟩ := exists_taken_sample self₁ 2 2 (by decide) (by simp [self₁]; decide)
    (by simp [self₁]; decide) (by simp [self₁]; decide) (by simp [self₁]; decide)
  obtain ⟨fs₂, hhandle₂, h₂⟩ := Session.Current.handleClip
    (w := w₀.received (sampleText 1 1) fs₁) h₁ htakes₂
  let self₂ := { self₁.received Crates.sample (sampleText 2 2) with echoHashes := [] }
  have hopened : self₂.Current .sample fs₂ := { h₂ with opened := { h₂.opened with } }
  have hreopen := h₂.reopen (by simp; decide)
  obtain ⟨bytes₃, fs₃, hsend₃, h₃⟩ := Session.Current.sendShort
    (w := (w₀.received (sampleText 1 1) fs₁).received (sampleText 2 2) fs₂) hopened 3 (by decide)
    (by decide : (utf8Bytes "a").length ≤ 1000) (by simp [self₁, self₂]; decide)
    (by simp [self₁, self₂]; decide) (by simp [self₁, self₂]; decide)
  obtain ⟨bytes₄, fs₄, hsend₄, -⟩ := Session.Current.sendShort
    (w := { (w₀.received (sampleText 1 1) fs₁).received (sampleText 2 2) fs₂ with
      fs := fs₃
      sealedClips := [(Session.envelope (.text "a") (.sample 3) self₂.sendState.nextSeq 0,
        bytes₃)] }) h₃ 4 (by decide)
    (by decide : (utf8Bytes "a").length ≤ 1000) (by simp [self₁, self₂, Session.reserved]; decide)
    (by simp [self₁, self₂]; decide) (by simp [self₁, self₂]; decide)
  have hopen : (Endpoint.initial fun _ => none).Reaches (endpointService Pairing.sample) _ :=
    Client.reaches_call (c := .reopen) rfl rfl
      (exec_bind.2 ⟨_, _, exec_of_quietly (exec_quietFiles (h₀.reopen rfl)), .done _ _⟩)
  have hfirst := hopen.trans (Client.reaches_call (c := .handle _ first false 0 none) rfl rfl
    (exec_bind.2 ⟨_, _, exec_of_quietly hhandle₁, .done _ _⟩))
  have hrepeated := hfirst.trans (Client.reaches_call (c := .handle _ first false 0 none) rfl rfl
    (exec_bind.2 ⟨_, _, hagain, .done _ _⟩))
  have hsecond := hrepeated.trans (Client.reaches_call (c := .handle _ second false 0 none) rfl rfl
    (exec_bind.2 ⟨_, _, exec_of_quietly hhandle₂, .done _ _⟩))
  have hreopened := (hsecond.tail (.cut ⟨id, rfl, rfl, rfl⟩)).trans
    (Client.reaches_call (c := .reopen) rfl rfl
      (exec_bind.2 ⟨_, _, exec_of_quietly (exec_quietFiles hreopen), .done _ _⟩))
  have hsent := hreopened.trans (Client.reaches_call (c := .send (.text "a") 0 none) rfl rfl
    (exec_bind.2 ⟨_, _, exec_of_quietly hsend₃, .done _ _⟩))
  have hrun := hsent.trans (Client.reaches_call (c := .send (.text "a") 0 none) rfl rfl
    (exec_bind.2 ⟨_, _, exec_of_quietly hsend₄, .done _ _⟩))
  exact ⟨_, hrun, rfl, by simp [self₁, self₂, Session.reserved]; decide, rfl⟩

/-! ## Deliveries and sealed messages over every run -/

/-- Callbacks have increasing sequence numbers, each already on disk. Opening a session
makes none, and once it is open all that was delivered has been in the history. -/
theorem callbacks_increase {files : Path Dir → Option Bytes} {σ : Endpoint}
    (hrun : (Endpoint.initial files).Reaches (endpointService pairing) σ) :
    (σ.state.callbacks.map fun event => event.item.seq).Pairwise (· < ·) ∧
    (∀ event ∈ σ.state.callbacks, ∃ state,
      onDisk crates event.disk pairing.recvKey = some state ∧ event.item.seq ≤ state.lastSeq) ∧
    (∀ rest, σ.running = some (.reopen, rest) →
      σ.state.callbacks = σ.record.start.callbacks) ∧
    ∀ frame session, σ.running = some (.reopen, .done (frame, some session)) →
      ∀ id, σ.state.Delivered id → InHistory crates.lines σ.state.fs id := by
  have hσ := Endpoint.consistent hrun
  obtain ⟨hdurable, -⟩ := hσ.durable
  refine ⟨hdurable.callbacks_lt, hdurable.callbacks_onDisk, ?_, ?_⟩
  · intro rest hrunning
    rw [Endpoint.Consistent, Client.Consistent, hrunning] at hσ
    exact hσ.inv.2.spares
  · intro frame session hrunning
    rw [Endpoint.Consistent, Client.Consistent, hrunning] at hσ
    exact hσ.2.leaves rfl

theorem callbacks_increase_sample :
    ∃ σ, (Endpoint.initial fun _ => none).Reaches (endpointService Pairing.sample) σ ∧
      (σ.state.callbacks.map fun event => event.item.seq) = [1, 2] ∧
      (σ.state.callbacks.map fun event => event.item.seq).Pairwise (· < ·) := by
  obtain ⟨σ, hrun, hcallbacks, -⟩ := exists_run_sample
  exact ⟨σ, hrun, hcallbacks, (callbacks_increase hrun).1⟩

/-- Messages are sealed under increasing sequence numbers, the frames that leave carry
them in their order, and receiving does not change the send direction. -/
theorem sealed_seqs_increase {files : Path Dir → Option Bytes} {σ : Endpoint}
    (hrun : (Endpoint.initial files).Reaches (endpointService pairing) σ) :
    (σ.state.sealedClips.map fun clip => clip.1.seq).Pairwise (· < ·) ∧
    (∀ clip ∈ σ.state.sealedClips, IsSealed pairing clip) ∧
    σ.record.frames.Sublist (σ.state.sealedClips.map (frameOf pairing)) ∧
    ∀ roomId ciphertextB64 mailbox nowMs failAt rest,
      σ.running = some (.handle roomId ciphertextB64 mailbox nowMs failAt, rest) →
      onDisk crates σ.state.fs pairing.sendKey = onDisk crates σ.record.start.fs pairing.sendKey ∧
      ∀ frame session, rest = .done (frame, session) →
        session.map (·.sendState) = σ.object.map (·.sendState) := by
  have hσ := Endpoint.consistent hrun
  obtain ⟨hdurable, hframes⟩ := hσ.durable
  refine ⟨hdurable.sealed_lt, hdurable.sealed_valid, hframes, ?_⟩
  intro roomId ciphertextB64 mailbox nowMs failAt rest hrunning
  rw [Endpoint.Consistent, Client.Consistent, hrunning] at hσ
  refine ⟨hσ.inv.2.spares, ?_⟩
  rintro frame session rfl
  exact hσ.2.leaves

theorem sealed_seqs_increase_sample :
    ∃ σ, (Endpoint.initial fun _ => none).Reaches (endpointService Pairing.sample) σ ∧
      σ.record.frames.length = 2 ∧
      σ.record.frames.Sublist (σ.state.sealedClips.map (frameOf Pairing.sample)) ∧
      (σ.state.sealedClips.map fun clip => clip.1.seq) = [1, 2] ∧
      (σ.state.sealedClips.map fun clip => clip.1.seq).Pairwise (· < ·) := by
  obtain ⟨σ, hrun, -, hseqs, hframes⟩ := exists_run_sample
  obtain ⟨hincrease, -, hsublist, -⟩ := sealed_seqs_increase hrun
  exact ⟨σ, hrun, hframes, hsublist, hseqs, hincrease⟩

end Runs

end ClipSync
