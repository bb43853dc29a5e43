import ClipSync.Core.HandleRun
import ClipSync.Core.PairingReset

/-!
# A reset and the calls beside it

`reset_pairing` takes the dispatcher out of the handle, rotates the identity and installs a
new dispatcher. Calls that are in progress meanwhile keep the records that they have loaded:
one that comes back to the handle after the reset writes a record of the former identity into
the phase, or hands a connection made for it to the new dispatcher.

In the runs in which a call does so only while the dispatcher is installed that was there when
it began, the phase and the connections of the dispatcher belong to the identity on disk.
In every run a handle that has been shut down stays so.
-/

namespace ClipSync

open Lib Program CoreHandle Function

/-! ## Runs -/

def PairingPhase.record : PairingPhase → Option PairingRecord
  | .paired record => some record
  | _ => none

namespace HandleState

def record : HandleState → Option PairingRecord
  | .active running => running.phase.record
  | _ => none

def dispatcher : HandleState → Option ℕ
  | .active running => some running.dispatcher
  | _ => none

end HandleState

/-- The handle with the generation of the identity on disk, the thread that has taken the
dispatcher out, the dispatchers that have ever been installed and the connections they have
been sent. For every thread there is the dispatcher that was installed when it began, and the
generation at its last access. -/
structure ResetWorld where
  handle : HandleWorld
  generation : ℕ
  owner : Option HandleThread
  installed : Finset ℕ
  connects : List (ℕ × PairingRecord)
  origin : HandleThread → Option ℕ
  seen : HandleThread → ℕ

def HandleOp.connects : (op : HandleOp) → op.Res → List (ℕ × PairingRecord)
  | .trySend dispatcher (.connect record), .ok () => [(dispatcher, record)]
  | _, _ => []

namespace ResetWorld

def Loads (w : ResetWorld) (t : HandleThread) (record : PairingRecord) : Prop :=
  w.seen t ≤ record.identityGeneration.toNat ∧ record.identityGeneration.toNat ≤ w.generation

/-- The results an operation can have, and the generation it leaves. A reset that fails may
have replaced the identity. -/
def Genuine (w : ResetWorld) (t : HandleThread) : (op : HandleOp) → op.Res → ℕ → Prop
  | .loadPairing, .ok (some record), generation =>
    w.Loads t record ∧ generation = w.generation
  | .join, .ok record, generation | .confirmPair .., .ok record, generation =>
    w.Loads t record ∧ generation = w.generation
  | .resetPairingState, .ok (), generation => generation = w.generation + 1
  | .resetPairingState, .error _, generation =>
    generation = w.generation ∨ generation = w.generation + 1
  | .spawnActive, .ok dispatcher, generation =>
    dispatcher ∉ w.installed ∧ generation = w.generation
  | _, _, generation => generation = w.generation

def after (w : ResetWorld) (t : HandleThread) (op : HandleOp) (r : op.Res) (v : HandleWorld)
    (generation : ℕ) : ResetWorld where
  handle := v
  generation := generation
  owner :=
    if v.state = .transitioning then
      if w.handle.state = .transitioning then w.owner else some t
    else none
  installed := w.installed ∪ v.state.dispatcher.toFinset
  connects := w.connects ++ op.connects r
  origin := w.origin
  seen := Function.update w.seen t generation

def exec (t : HandleThread) (op : HandleOp) (w : ResetWorld) (r : op.Res) (w' : ResetWorld) :
    Prop :=
  ∃ v generation, HandleWorld.exec op w.handle r v ∧ w.Genuine t op r generation ∧
    w' = w.after t op r v generation

def Timely (w : ResetWorld) (t : HandleThread) : Prop :=
  ∃ dispatcher, w.origin t = some dispatcher ∧ w.handle.state.dispatcher = some dispatcher

/-- An access puts a record into the phase, or sends a connection to the dispatcher that is
installed. -/
def Commits : HandleOp → ResetWorld → Prop
  | .state update, w => ∃ record, (update w.handle.state).record = some record ∧
      w.handle.state.record ≠ some record
  | .trySend dispatcher (.connect _), w => w.handle.state.dispatcher = some dispatcher
  | _, _ => False

def Undisturbed (t : HandleThread) (op : HandleOp) (w : ResetWorld) : Prop :=
  w.Commits op → w.Timely t

end ResetWorld

def resetSystem (crates : HandleCrates) (calls : ℕ → HandleCall) :
    Threads.System HandleOp HandleOp.Res (HandleThread.Value calls) ResetWorld where
  exec := ResetWorld.exec
  enter t a w p w' := (handleSystem crates calls).enter t a w.handle p w.handle ∧
    w' = { w with
      origin := Function.update w.origin t w.handle.state.dispatcher
      seen := Function.update w.seen t w.generation }

abbrev ResetThreads (calls : ℕ → HandleCall) :=
  Threads HandleOp HandleOp.Res (HandleThread.Value calls) ResetWorld

def ResetThreads.start (calls : ℕ → HandleCall) (generation : ℕ) : ResetThreads calls where
  shared :=
    { handle := (HandleThreads.start calls).shared
      generation := generation
      owner := none
      installed := {0}
      connects := []
      origin := fun _ => none
      seen := fun _ => generation }
  threads _ := none

/-! ## The store behind the operations -/

section Store

variable {D : Type} {store : PairingStore D} {prim : Primitives} {debugAssertions : Bool}
  {fresh : Key × Key} {s s' : Fs D} {generation : ℕ}

/-- The identity on disk is of this generation. -/
def PairingStore.HasGeneration (store : PairingStore D) (s : Fs D) (generation : ℕ) : Prop :=
  ∃ identity, store.identity s = some identity ∧ identity.generation.toNat = generation

theorem Loaded.hasGeneration (h : Loaded store fresh s s') (hs : store.HasGeneration s generation) :
    store.HasGeneration s' generation := by
  obtain ⟨identity, hidentity, hgeneration⟩ := hs
  obtain ⟨-, hsame | ⟨hnone, -⟩⟩ := h
  · exact ⟨identity, hsame.trans hidentity, hgeneration⟩
  · rw [hnone] at hidentity
    cases hidentity

variable {w : ResetWorld} {t : HandleThread}

theorem PairingStore.HasGeneration.loads {identity : Identity} {record : PairingRecord}
    (hs : store.HasGeneration s w.generation) (hseen : w.seen t ≤ w.generation)
    (hidentity : store.identity s = some identity)
    (hrecord : record.identityGeneration = identity.generation) : w.Loads t record := by
  obtain ⟨found, hfound, hgeneration⟩ := hs
  cases hfound.symm.trans hidentity
  rw [ResetWorld.Loads, hrecord, hgeneration]
  exact ⟨hseen, le_rfl⟩

variable [DecidableEq D]

/-- Reading the pairing, while no other call is at the store, has a genuine result; so has the
join that is made with the record it finds. -/
theorem genuine_of_loadPairing {r : Except PairingError (Option PairingRecord)}
    (hs : store.HasGeneration s w.generation) (hseen : w.seen t ≤ w.generation)
    (hexec : Exec Fs.exec (store.loadPairing prim debugAssertions fresh) s r s') :
    store.HasGeneration s' w.generation ∧ w.Genuine t .loadPairing r w.generation ∧
      ∀ record, r = .ok (some record) → w.Genuine t .join (.ok record) w.generation := by
  have hs' := (safe_loadPairing.last hexec).hasGeneration hs
  have hfound : ∀ record, r = .ok (some record) → w.Loads t record := by
    intro record hr
    obtain ⟨identity, hidentity, -, hrecord, -⟩ := safe_loadPairing.post hexec record hr
    exact hs'.loads hseen hidentity hrecord
  refine ⟨hs', ?_, fun record hr => ⟨hfound record hr, rfl⟩⟩
  match r with
  | .ok (some record) => exact ⟨hfound record rfl, rfl⟩
  | .ok none => rfl
  | .error _ => rfl

/-- So has a confirmation, which stores a record of the identity on disk. -/
theorem genuine_of_confirm {pending : PendingConfirmation} {sas : String} {record : PairingRecord}
    (hs : store.HasGeneration s w.generation) (hseen : w.seen t ≤ w.generation)
    (hexec : Exec Fs.exec (pending.confirm prim debugAssertions fresh sas store) s
      (.ok record) s') :
    store.HasGeneration s' w.generation ∧
      w.Genuine t (.confirmPair pending sas) (.ok record) w.generation := by
  obtain ⟨-, -, identity, ⟨s₁, hloaded, hsame⟩, hidentity, hrecord, -⟩ :=
    (safe_confirm pending sas).post hexec
  obtain ⟨found, hfound, hgeneration⟩ := hloaded.hasGeneration hs
  have hs' : store.HasGeneration s' w.generation := ⟨found, hsame.trans hfound, hgeneration⟩
  exact ⟨hs', hs'.loads hseen hidentity hrecord, rfl⟩

/-- A reset that returns has gone on to the next generation; one that fails may have. -/
theorem genuine_of_reset {observer : ResetStage → Option PairingError} {secrets : Key × Key}
    {r : Except PairingError Identity} (hs : store.HasGeneration s w.generation)
    (hexec : Exec Fs.exec (store.resetWithObserver observer fresh secrets) s r s') :
    ∃ generation, store.HasGeneration s' generation ∧
      w.Genuine t .resetPairingState (r.map fun _ => ()) generation := by
  have hsafe : Safe Fs.exec
      (StoreCall.Leaves Primitives.sample false store ⟨fresh, .reset observer secrets⟩ s) _
      (store.resetWithObserver observer fresh secrets) s := safe_reset_leaves rfl
  obtain ⟨current, hcurrent, hgeneration⟩ := hs
  have hmove := (hsafe.last hexec).1
  rw [hcurrent] at hmove
  obtain ⟨new, hnew, hnext⟩ := hmove.of_some
  refine ⟨_, ⟨new, hnew, rfl⟩, ?_⟩
  cases r with
  | error error =>
    refine hnext.imp ?_ fun h => by rw [h, hgeneration]
    rintro rfl
    exact hgeneration
  | ok identity =>
    obtain ⟨hidentity, hrotated⟩ := hsafe.post hexec identity rfl
    cases hnew.symm.trans hidentity
    rw [hcurrent, Option.getD_some, hgeneration] at hrotated
    exact hrotated

end Store

/-! ## What a thread holds -/

/-- The records and dispatchers that a thread has come by, whether it has taken the
dispatcher out of the handle, and the one it has spawned. -/
structure CallHold where
  records : List PairingRecord := []
  dispatchers : List ℕ := []
  owns : Bool := false
  spawned : Option ℕ := none

namespace CallHold

/-- What an access may make of the state. -/
inductive Change (a : CallHold) : HandleState → HandleState → Prop where
  | within {running : Active} {phase : PairingPhase}
      (record : ∀ record, phase.record = some record →
        running.phase.record = some record ∨ record ∈ a.records) :
      Change a (.active running) (.active { running with phase := phase })
  | idle {state : HandleState} (inactive : state.dispatcher = none) : Change a state state
  | take {running : Active} : Change a (.active running) .transitioning
  | install {found : HandleState} {dispatcher : ℕ} (owns : a.owns = true)
      (spawned : a.spawned = some dispatcher) : Change a found (.active ⟨dispatcher, .unpaired⟩)
  | close {found : HandleState} (owns : a.owns = true) : Change a found .shutdown

def Permits (a : CallHold) : HandleOp → Prop
  | .state update => ∀ found, a.Change found (update found)
  | .trySend dispatcher (.connect record) => dispatcher ∈ a.dispatchers ∧ record ∈ a.records
  | .resetPairingState | .spawnActive => a.owns = true
  | _ => True

def next (a : CallHold) : (op : HandleOp) → op.Res → CallHold
  | .state update, found =>
    { a with
      records := found.record.toList ++ a.records
      dispatchers := found.dispatcher.toList ++ a.dispatchers
      owns := update found = .transitioning && (a.owns || found ≠ .transitioning)
      spawned := none }
  | .loadPairing, .ok (some record) => { a with records := record :: a.records }
  | .join, .ok record | .confirmPair .., .ok record => { a with records := record :: a.records }
  | .spawnActive, .ok dispatcher => { a with spawned := some dispatcher }
  | _, _ => a

/-- What the thread holds is what it may use. -/
structure Means (a : CallHold) (t : HandleThread) (w : ResetWorld) : Prop where
  records : ∀ record ∈ a.records, w.Timely t →
    record.identityGeneration.toNat = w.generation
  seen : w.Timely t → w.seen t = w.generation
  dispatchers : ∀ dispatcher ∈ a.dispatchers, dispatcher ∈ w.installed
  owns : a.owns = true → w.owner = some t ∧
    ∀ dispatcher, a.spawned = some dispatcher → dispatcher ∉ w.installed

abbrev Obeys {α : Type} (a : CallHold) (p : HandleProgram α) : Prop :=
  Conforms Permits next (fun _ _ => True) a p

/-! ## The programs of the calls -/

variable {a : CallHold}

theorem change_refl (state : HandleState) : a.Change state state := by
  cases state with
  | active running => exact .within fun _ => .inl
  | transitioning => exact .idle rfl
  | shutdown => exact .idle rfl

/-- What a thread holds at the points of its call. -/
def Knows (a : CallHold) : CallPoint → Prop
  | .loaded record | .busy record => ∀ known, record = some known → known ∈ a.records
  | .connecting record dispatcher =>
    record ∈ a.records ∧ ∀ known, dispatcher = some known → known ∈ a.dispatchers
  | .taken => a.owns = true
  | .spawned dispatcher => a.owns = true ∧ a.spawned = some dispatcher
  | _ => True

variable {crates : HandleCrates} {calls : ℕ → HandleCall} {t : HandleThread} {c c' : CallPoint}
  {op : HandleOp}

theorem change_of_moves {found left : HandleState} (ha : a.Knows c)
    (h : c.Moves crates calls t found left c') : a.Change found left := by
  cases h with
  | kept | missed | read => exact change_refl _
  | begun | started | confirmed | cancelled | announced | dropped =>
    exact .within (by rintro _ ⟨⟩)
  | loaded =>
    refine .within ?_
    rintro _ ⟨⟩
    exact .inr (ha _ rfl)
  | set sets =>
    refine .within ?_
    cases sets with
    | restored =>
      rintro _ ⟨⟩
      exact .inr (ha _ rfl)
    | connected =>
      rintro _ ⟨⟩
      exact .inr ha.1
    | _ => rintro _ ⟨⟩
  | taken => exact .take
  | installed => exact .install ha.1 ha.2
  | closed => exact .close ha

theorem knows_of_moves {found left : HandleState} {update : HandleState → HandleState}
    (hleft : update found = left) (ha : a.Knows c) (h : c.Moves crates calls t found left c') :
    (a.next (.state update) found).Knows c' := by
  cases h with
  | read =>
    refine ⟨List.mem_append_right _ ha.1, ?_⟩
    rintro _ ⟨⟩
    exact List.mem_append_left _ (List.mem_singleton_self _)
  | begun => rintro _ ⟨⟩
  | started =>
    rintro _ ⟨⟩
    exact List.mem_append_left _ (List.mem_singleton_self _)
  | taken => simp [Knows, next, hleft]
  | _ => trivial

theorem permits_of_flow (ha : a.Knows c) (h : ∀ r, ∃ c', c.Flow crates calls t op r c') :
    a.Permits op := by
  cases op with
  | state update =>
    intro found
    obtain ⟨c', hflow⟩ := h found
    cases hflow with
    | state moves => exact change_of_moves ha moves
    | plain hop | fails hop => exact hop.elim
  | trySend dispatcher command =>
    cases command with
    | connect record =>
      obtain ⟨c', hflow⟩ := h (.ok ())
      cases hflow with
      | connect => exact ⟨ha.2 _ rfl, ha.1⟩
      | plain hop | fails hop => exact hop.elim
    | _ => trivial
  | resetPairingState =>
    obtain ⟨c', hflow⟩ := h (.ok ())
    cases hflow with
    | reset => exact ha
    | plain hop | fails hop => exact hop.elim
  | spawnActive =>
    obtain ⟨c', hflow⟩ := h (.ok 0)
    cases hflow with
    | spawn => exact ha
    | plain hop | fails hop => exact hop.elim
  | _ => trivial

theorem next_of_isPlain (hop : op.IsPlain) (r : op.Res) : a.next op r = a := by
  cases op <;> first | rfl | exact hop.elim

theorem knows_of_flow {r : op.Res} (ha : a.Knows c) (h : c.Flow crates calls t op r c') :
    (a.next op r).Knows c' := by
  cases h with
  | state moves => exact knows_of_moves rfl ha moves
  | plain hop =>
    rw [next_of_isPlain hop]
    exact ha
  | load r =>
    rcases r with e | _ | record
    · trivial
    · rintro _ ⟨⟩
    · rintro _ ⟨⟩
      exact List.mem_cons_self ..
  | join r | confirm r =>
    cases r with
    | error e => exact ha
    | ok record => exact ⟨List.mem_cons_self .., by rintro _ ⟨⟩⟩
  | connect r => cases r <;> first | exact ha | trivial
  | take r =>
    cases r with
    | none => trivial
    | some channel => rintro _ ⟨⟩
  | spawnWait => rintro _ ⟨⟩
  | reset => exact ha
  | spawn r =>
    cases r with
    | error e => exact ha
    | ok dispatcher => exact ⟨ha, rfl⟩
  | _ => trivial

/-- Every call uses only what it holds. -/
theorem obeys_of_runs {α : Type} {p : HandleProgram α} {final : CallPoint → α → Prop}
    (hp : Runs crates calls t final .idle p) : a.Obeys p :=
  hp.conforms (fun c a => a.Knows c) trivial permits_of_flow knows_of_flow fun _ _ => trivial

end CallHold

/-! ## All threads together -/

theorem HandleState.exists_dispatcher {state : HandleState} {record : PairingRecord}
    (h : state.record = some record) : ∃ dispatcher, state.dispatcher = some dispatcher := by
  cases state with
  | active running => exact ⟨running.dispatcher, rfl⟩
  | transitioning => cases h
  | shutdown => cases h

/-- The phase and the connections of the dispatcher belong to the identity on disk. -/
structure Barrier (w : ResetWorld) : Prop where
  phase : ∀ record, w.handle.state.record = some record →
    record.identityGeneration.toNat = w.generation
  connects : ∀ c ∈ w.connects, c.1 ∈ w.installed ∧
    (w.handle.state.dispatcher = some c.1 → c.2.identityGeneration.toNat = w.generation)
  installed : ∀ dispatcher, w.handle.state.dispatcher = some dispatcher →
    dispatcher ∈ w.installed
  origins : ∀ t dispatcher, w.origin t = some dispatcher → dispatcher ∈ w.installed
  owner : ∀ t, w.owner = some t → w.handle.state = .transitioning

/-- What a step of a thread leaves to the others: a dispatcher that is there afterwards is new,
or nothing has happened to it and to the identity. -/
structure Spares (t : HandleThread) (w w' : ResetWorld) : Prop where
  current : ∀ dispatcher ∈ w.installed, w'.handle.state.dispatcher = some dispatcher →
    w.handle.state.dispatcher = some dispatcher ∧ w'.generation = w.generation
  owner : ∀ u, u ≠ t → w.owner = some u → w'.owner = some u ∧
    ∀ dispatcher, dispatcher ∉ w.installed → dispatcher ∉ w'.installed
  installed : ∀ dispatcher ∈ w.installed, dispatcher ∈ w'.installed
  seen : ∀ u, u ≠ t → w'.seen u = w.seen u

section Steps

variable {a : CallHold} {t u : HandleThread} {w w' : ResetWorld}

theorem CallHold.Means.of_spares (h : a.Means u w) (hbarrier : Barrier w)
    (hspares : Spares t w w') (hu : u ≠ t) (horigin : w'.origin u = w.origin u) : a.Means u w' := by
  have htimely : w'.Timely u → w.Timely u ∧ w'.generation = w.generation := by
    rintro ⟨dispatcher, hfrom, hstate⟩
    rw [horigin] at hfrom
    obtain ⟨hcurrent, hgeneration⟩ :=
      hspares.current dispatcher (hbarrier.origins u dispatcher hfrom) hstate
    exact ⟨⟨dispatcher, hfrom, hcurrent⟩, hgeneration⟩
  constructor
  · intro record hrecord ht
    obtain ⟨ht, hgeneration⟩ := htimely ht
    rw [hgeneration]
    exact h.records record hrecord ht
  · intro ht
    obtain ⟨ht, hgeneration⟩ := htimely ht
    rw [hspares.seen u hu, hgeneration]
    exact h.seen ht
  · intro dispatcher hmem
    exact hspares.installed dispatcher (h.dispatchers dispatcher hmem)
  · intro howns
    obtain ⟨howner, hspawned⟩ := h.owns howns
    obtain ⟨howner', hnew⟩ := hspares.owner u hu howner
    exact ⟨howner', fun dispatcher hd => hnew dispatcher (hspawned dispatcher hd)⟩

variable {op : HandleOp} {r : op.Res} {v : HandleWorld} {generation : ℕ}

/-- The identity is replaced by the thread that has taken the dispatcher out, and not while it
changes the state. -/
def Rotates (a : CallHold) (w : ResetWorld) (v : HandleWorld) (generation : ℕ) : Prop :=
  generation = w.generation ∨ a.owns = true ∧ v.state = w.handle.state

theorem CallHold.Means.transitioning (h : a.Means t w) (hbarrier : Barrier w)
    (howns : a.owns = true) : w.handle.state = .transitioning :=
  hbarrier.owner t (h.owns howns).1

variable {found left : HandleState}

theorem CallHold.Change.dispatcher (h : a.Change found left) {dispatcher : ℕ}
    (hleft : left.dispatcher = some dispatcher) :
    found.dispatcher = some dispatcher ∨ a.owns = true ∧ a.spawned = some dispatcher := by
  cases h with
  | within record => exact .inl hleft
  | idle inactive => exact .inl hleft
  | take => cases hleft
  | install owns spawned =>
    cases hleft
    exact .inr ⟨owns, spawned⟩
  | close owns => cases hleft

theorem CallHold.Change.record (h : a.Change found left) {record : PairingRecord}
    (hleft : left.record = some record) : found.record = some record ∨ record ∈ a.records := by
  cases h with
  | within hrecord => exact hrecord record hleft
  | idle inactive => exact .inl hleft
  | take => cases hleft
  | install owns spawned => cases hleft
  | close owns => cases hleft

theorem Rotates.eq_of_active (h : Rotates a w v generation) (hbarrier : Barrier w)
    (hmeans : a.Means t w) {dispatcher : ℕ} (hfound : w.handle.state.dispatcher = some dispatcher) :
    generation = w.generation := by
  obtain heq | ⟨howns, -⟩ := h
  · exact heq
  · rw [hmeans.transitioning hbarrier howns] at hfound
    cases hfound

theorem current_after (hbarrier : Barrier w) (hmeans : a.Means t w)
    (hchange : a.Change w.handle.state v.state) (hrotates : Rotates a w v generation)
    {dispatcher : ℕ} (hmem : dispatcher ∈ w.installed)
    (hleft : v.state.dispatcher = some dispatcher) :
    w.handle.state.dispatcher = some dispatcher ∧ generation = w.generation := by
  obtain hfound | ⟨howns, hspawned⟩ := hchange.dispatcher hleft
  · exact ⟨hfound, hrotates.eq_of_active hbarrier hmeans hfound⟩
  · exact ((hmeans.owns howns).2 dispatcher hspawned hmem).elim

theorem CallHold.Change.eq_of_owner (h : a.Change w.handle.state v.state) (hbarrier : Barrier w)
    (hmeans : a.Means t w) (hu : u ≠ t) (howner : w.owner = some u) : v.state = .transitioning := by
  have hothers : ∀ {P : Prop}, a.owns = true → P := by
    intro P howns
    have hsame := (hmeans.owns howns).1.symm.trans howner
    exact (hu (Option.some.inj hsame).symm).elim
  have hfound := hbarrier.owner u howner
  rw [hfound] at h
  generalize v.state = left at h
  cases h with
  | idle inactive => rfl
  | install owns spawned => exact hothers owns
  | close owns => exact hothers owns

theorem spares_after (hbarrier : Barrier w) (hmeans : a.Means t w)
    (hchange : a.Change w.handle.state v.state) (hrotates : Rotates a w v generation) :
    Spares t w (w.after t op r v generation) where
  current dispatcher hmem hleft :=
    current_after hbarrier hmeans hchange hrotates hmem hleft
  owner u hu howner := by
    have hleft := hchange.eq_of_owner hbarrier hmeans hu howner
    constructor
    · rw [ResetWorld.after, if_pos hleft, if_pos (hbarrier.owner u howner)]
      exact howner
    · intro dispatcher hnew
      rw [ResetWorld.after, hleft]
      simpa [HandleState.dispatcher] using hnew
  installed dispatcher hmem := Finset.mem_union_left _ hmem
  seen u hu := update_of_ne hu _ _

theorem barrier_after (hbarrier : Barrier w) (hmeans : a.Means t w)
    (hchange : a.Change w.handle.state v.state) (hrotates : Rotates a w v generation)
    (hphase : ∀ record, v.state.record = some record → w.handle.state.record ≠ some record →
      w.Timely t)
    (hconnects : ∀ c ∈ op.connects r, c.1 ∈ a.dispatchers ∧ c.2 ∈ a.records ∧
      (w.handle.state.dispatcher = some c.1 → w.Timely t)) :
    Barrier (w.after t op r v generation) := by
  have hspares : Spares t w (w.after t op r v generation) :=
    spares_after hbarrier hmeans hchange hrotates
  have hcurrent : w.Timely t → ∀ record ∈ a.records,
      record.identityGeneration.toNat = generation := by
    intro htimely record hmem
    obtain ⟨dispatcher, -, hactive⟩ := id htimely
    exact (hmeans.records record hmem htimely).trans
      (hrotates.eq_of_active hbarrier hmeans hactive).symm
  constructor
  · intro record hrecord
    by_cases hfound : w.handle.state.record = some record
    · obtain ⟨dispatcher, hactive⟩ := HandleState.exists_dispatcher hfound
      exact (hbarrier.phase record hfound).trans
        (hrotates.eq_of_active hbarrier hmeans hactive).symm
    · have hmem := (hchange.record hrecord).resolve_left hfound
      exact hcurrent (hphase record hrecord hfound) record hmem
  · intro c hc
    obtain hold | hnew := List.mem_append.1 hc
    · obtain ⟨hmem, hgeneration⟩ := hbarrier.connects c hold
      refine ⟨hspares.installed c.1 hmem, fun hstate => ?_⟩
      obtain ⟨hfound, hsame⟩ := hspares.current c.1 hmem hstate
      exact (hgeneration hfound).trans hsame.symm
    · obtain ⟨hdispatcher, hrecord, htimely⟩ := hconnects c hnew
      have hmem := hmeans.dispatchers c.1 hdispatcher
      refine ⟨hspares.installed c.1 hmem, fun hstate => ?_⟩
      exact hcurrent (htimely (hspares.current c.1 hmem hstate).1) c.2 hrecord
  · intro dispatcher hstate
    refine Finset.mem_union_right _ ?_
    rw [show v.state.dispatcher = some dispatcher from hstate]
    exact Finset.mem_singleton_self _
  · intro u dispatcher horigin
    exact hspares.installed dispatcher (hbarrier.origins u dispatcher horigin)
  · intro u howner
    by_contra hleft
    cases (if_neg hleft).symm.trans howner

theorem ResetWorld.Loads.eq {record : PairingRecord} (h : w.Loads t record) (hmeans : a.Means t w)
    (htimely : w.Timely t) : record.identityGeneration.toNat = w.generation := by
  obtain ⟨hseen, hle⟩ := h
  rw [hmeans.seen htimely] at hseen
  exact hle.antisymm hseen

theorem means_after (hbarrier : Barrier w) (hmeans : a.Means t w)
    (hchange : a.Change w.handle.state v.state) (hrotates : Rotates a w v generation)
    {b : CallHold}
    (hrecords : ∀ record ∈ b.records, record ∈ a.records ∨ w.handle.state.record = some record ∨
      w.Loads t record)
    (hdispatchers : ∀ dispatcher ∈ b.dispatchers, dispatcher ∈ a.dispatchers ∨
      w.handle.state.dispatcher = some dispatcher)
    (howns : b.owns = true → (w.after t op r v generation).owner = some t ∧
      ∀ dispatcher, b.spawned = some dispatcher →
      dispatcher ∉ (w.after t op r v generation).installed) :
    b.Means t (w.after t op r v generation) := by
  have hspares : Spares t w (w.after t op r v generation) :=
    spares_after hbarrier hmeans hchange hrotates
  constructor
  · rintro record hrecord ⟨dispatcher, horigin, hstate⟩
    obtain ⟨hfound, hgeneration⟩ :=
      hspares.current dispatcher (hbarrier.origins t dispatcher horigin) hstate
    have htimely : w.Timely t := ⟨dispatcher, horigin, hfound⟩
    rw [hgeneration]
    obtain hold | hphase | hloads := hrecords record hrecord
    · exact hmeans.records record hold htimely
    · exact hbarrier.phase record hphase
    · exact hloads.eq hmeans htimely
  · intro _
    exact update_self _ _ _
  · intro dispatcher hmem
    obtain hold | hfound := hdispatchers dispatcher hmem
    · exact hspares.installed dispatcher (hmeans.dispatchers dispatcher hold)
    · exact hspares.installed dispatcher (hbarrier.installed dispatcher hfound)
  · exact howns

theorem owns_after (hbarrier : Barrier w) (hmeans : a.Means t w)
    (hstate : v.state = w.handle.state) (howns : a.owns = true) :
    (w.after t op r v generation).owner = some t ∧
      (w.after t op r v generation).installed = w.installed := by
  have htaken := hmeans.transitioning hbarrier howns
  have hleft : v.state = .transitioning := hstate.trans htaken
  constructor
  · rw [ResetWorld.after, if_pos hleft, if_pos htaken]
    exact (hmeans.owns howns).1
  · rw [ResetWorld.after, hleft]
    simp [HandleState.dispatcher]

theorem rotates_of_genuine (hgenuine : w.Genuine t op r generation) (hpermits : a.Permits op)
    (hstate : v.state = w.handle.state) : Rotates a w v generation := by
  cases op with
  | resetPairingState => exact .inr ⟨hpermits, hstate⟩
  | loadPairing =>
    obtain _ | _ | record := r
    · exact .inl hgenuine
    · exact .inl hgenuine
    · exact .inl hgenuine.2
  | join | confirmPair channel sas =>
    obtain _ | record := r
    · exact .inl hgenuine
    · exact .inl hgenuine.2
  | spawnActive =>
    obtain _ | dispatcher := r
    · exact .inl hgenuine
    · exact .inl hgenuine.2
  | _ => exact .inl hgenuine

theorem records_next (hop : op.IsRemote) (hgenuine : w.Genuine t op r generation) :
    ∀ record ∈ (a.next op r).records, record ∈ a.records ∨
      w.handle.state.record = some record ∨ w.Loads t record := by
  have hload : ∀ loaded, w.Loads t loaded → ∀ record ∈ loaded :: a.records,
      record ∈ a.records ∨ w.handle.state.record = some record ∨ w.Loads t record := by
    intro loaded hloads record hmem
    obtain rfl | hmem := List.mem_cons.1 hmem
    · exact .inr (.inr hloads)
    · exact .inl hmem
  cases op with
  | state update => exact hop.elim
  | loadPairing =>
    obtain _ | _ | record := r
    · exact fun _ => .inl
    · exact fun _ => .inl
    · exact hload record hgenuine.1
  | join | confirmPair channel sas =>
    obtain _ | record := r
    · exact fun _ => .inl
    · exact hload record hgenuine.1
  | spawnActive =>
    obtain _ | dispatcher := r
    · exact fun _ => .inl
    · exact fun _ => .inl
  | _ => exact fun _ => .inl

theorem next_of_isRemote (hop : op.IsRemote) (hgenuine : w.Genuine t op r generation) :
    (a.next op r).dispatchers = a.dispatchers ∧ (a.next op r).owns = a.owns ∧
      ∀ dispatcher, (a.next op r).spawned = some dispatcher →
        a.spawned = some dispatcher ∨ dispatcher ∉ w.installed := by
  cases op with
  | state update => exact hop.elim
  | loadPairing =>
    obtain _ | _ | record := r
    · exact ⟨rfl, rfl, fun _ => .inl⟩
    · exact ⟨rfl, rfl, fun _ => .inl⟩
    · exact ⟨rfl, rfl, fun _ => .inl⟩
  | join | confirmPair channel sas =>
    obtain _ | record := r
    · exact ⟨rfl, rfl, fun _ => .inl⟩
    · exact ⟨rfl, rfl, fun _ => .inl⟩
  | spawnActive =>
    obtain _ | dispatcher := r
    · exact ⟨rfl, rfl, fun _ => .inl⟩
    · refine ⟨rfl, rfl, ?_⟩
      rintro _ ⟨⟩
      exact .inr hgenuine.1
  | _ => exact ⟨rfl, rfl, fun _ => .inl⟩

theorem connects_of_permits (hpermits : a.Permits op) (hundisturbed : w.Undisturbed t op) :
    ∀ c ∈ op.connects r, c.1 ∈ a.dispatchers ∧ c.2 ∈ a.records ∧
      (w.handle.state.dispatcher = some c.1 → w.Timely t) := by
  have hnone : ∀ c : ℕ × PairingRecord, c ∈ [] → c.1 ∈ a.dispatchers ∧ c.2 ∈ a.records ∧
      (w.handle.state.dispatcher = some c.1 → w.Timely t) :=
    fun c hc => (List.not_mem_nil hc).elim
  cases op with
  | trySend dispatcher command =>
    cases command with
    | connect record =>
      obtain _ | _ := r
      · exact hnone
      · intro c hc
        cases List.mem_singleton.1 hc
        exact ⟨hpermits.1, hpermits.2, hundisturbed⟩
    | _ => exact hnone
  | _ => exact hnone

theorem remote_after (hop : op.IsRemote) (hstate : v.state = w.handle.state)
    (hbarrier : Barrier w) (hmeans : a.Means t w) (hpermits : a.Permits op)
    (hgenuine : w.Genuine t op r generation) (hundisturbed : w.Undisturbed t op) :
    Barrier (w.after t op r v generation) ∧ (a.next op r).Means t (w.after t op r v generation) ∧
      Spares t w (w.after t op r v generation) := by
  have hchange : a.Change w.handle.state v.state := by
    rw [hstate]
    exact CallHold.change_refl _
  have hrotates : Rotates a w v generation := rotates_of_genuine hgenuine hpermits hstate
  obtain ⟨hdispatchers, howns, hspawned⟩ := next_of_isRemote (a := a) hop hgenuine
  refine ⟨barrier_after hbarrier hmeans hchange hrotates ?_
      (connects_of_permits hpermits hundisturbed),
    means_after hbarrier hmeans hchange hrotates (records_next hop hgenuine) ?_ ?_,
    spares_after hbarrier hmeans hchange hrotates⟩
  · intro record hrecord hfound
    rw [hstate] at hrecord
    exact (hfound hrecord).elim
  · rw [hdispatchers]
    exact fun _ => .inl
  · rw [howns]
    intro howns
    obtain ⟨howner, hinstalled⟩ : (w.after t op r v generation).owner = some t ∧
        (w.after t op r v generation).installed = w.installed :=
      owns_after hbarrier hmeans hstate howns
    refine ⟨howner, fun dispatcher hd => ?_⟩
    rw [hinstalled]
    obtain hold | hnew := hspawned dispatcher hd
    · exact (hmeans.owns howns).2 dispatcher hold
    · exact hnew

theorem state_after {update : HandleState → HandleState} (hstate : v.state = update w.handle.state)
    (hbarrier : Barrier w) (hmeans : a.Means t w) (hpermits : a.Permits (.state update))
    (hundisturbed : w.Undisturbed t (.state update)) :
    Barrier (w.after t (.state update) w.handle.state v w.generation) ∧
      (a.next (.state update) w.handle.state).Means t
        (w.after t (.state update) w.handle.state v w.generation) ∧
      Spares t w (w.after t (.state update) w.handle.state v w.generation) := by
  have hchange : a.Change w.handle.state v.state := by
    rw [hstate]
    exact hpermits _
  have hrotates : Rotates a w v w.generation := .inl rfl
  refine ⟨barrier_after hbarrier hmeans hchange hrotates ?_ ?_,
    means_after hbarrier hmeans hchange hrotates ?_ ?_ ?_,
    spares_after hbarrier hmeans hchange hrotates⟩
  · intro record hrecord hfound
    rw [hstate] at hrecord
    exact hundisturbed ⟨record, hrecord, hfound⟩
  · exact fun c hc => (List.not_mem_nil hc).elim
  · intro record hmem
    obtain hfound | hold := List.mem_append.1 hmem
    · exact .inr (.inl (Option.mem_toList.1 hfound))
    · exact .inl hold
  · intro dispatcher hmem
    obtain hfound | hold := List.mem_append.1 hmem
    · exact .inr (Option.mem_toList.1 hfound)
    · exact .inl hold
  · intro howns
    obtain ⟨hleft, htaken⟩ := Bool.and_eq_true_iff.1 howns
    have htransitioning : v.state = .transitioning := hstate.trans (of_decide_eq_true hleft)
    constructor
    · rw [ResetWorld.after, if_pos htransitioning]
      split_ifs with hfound
      · have hold : a.owns = true := by simpa [hfound] using htaken
        exact (hmeans.owns hold).1
      · rfl
    · rintro _ ⟨⟩

end Steps

section Runs

variable (crates : HandleCrates) (calls : ℕ → HandleCall)

def Holding (t : HandleThread) (p : HandleProgram (HandleThread.Value calls t)) (w : ResetWorld) :
    Prop :=
  ∃ a : CallHold, a.Means t w ∧ a.Obeys p

theorem barrier_invariant : Threads.Invariant
    ((resetSystem crates calls).guarded fun t op w => w.Undisturbed t op) Barrier
    (Holding calls) where
  enter {t value w p w'} hbarrier _ henter := by
    obtain ⟨hprogram, rfl⟩ := henter
    have hruns : CallHold.Obeys {} p := CallHold.obeys_of_runs (runs_of_enter hprogram).1
    refine ⟨⟨hbarrier.phase, hbarrier.connects, hbarrier.installed, ?_, hbarrier.owner⟩,
      ⟨{}, ⟨?_, ?_, ?_, ?_⟩, hruns⟩, ?_⟩
    · intro u dispatcher horigin
      have hfrom : Function.update w.origin t w.handle.state.dispatcher u = some dispatcher :=
        horigin
      by_cases hu : u = t
      · subst hu
        rw [update_self] at hfrom
        exact hbarrier.installed dispatcher hfrom
      · rw [update_of_ne hu] at hfrom
        exact hbarrier.origins u dispatcher hfrom
    · exact fun record hmem => (List.not_mem_nil hmem).elim
    · exact fun _ => update_self _ _ _
    · exact fun dispatcher hmem => (List.not_mem_nil hmem).elim
    · rintro ⟨⟩
    · rintro u hu q ⟨a, hmeans, hq⟩
      refine ⟨a, hmeans.of_spares hbarrier ?_ hu (update_of_ne hu _ _), hq⟩
      exact ⟨fun _ _ h => ⟨h, rfl⟩, fun _ _ h => ⟨h, fun _ => id⟩, fun _ => id,
        fun v hv => update_of_ne hv _ _⟩
  access {t op k w r w'} hbarrier hheld hexec := by
    obtain ⟨a, hmeans, hpermits, hrest⟩ := hheld
    obtain ⟨hundisturbed, v, generation, hhandle, hgenuine, rfl⟩ := hexec
    have hstep : Barrier (w.after t op r v generation) ∧
        (a.next op r).Means t (w.after t op r v generation) ∧
        Spares t w (w.after t op r v generation) := by
      by_cases hop : op.IsRemote
      · exact remote_after hop (state_of_isRemote hop hhandle) hbarrier hmeans hpermits hgenuine
          hundisturbed
      · cases op with
        | state update =>
          obtain ⟨rfl, rfl⟩ := hhandle
          cases hgenuine
          exact state_after rfl hbarrier hmeans hpermits hundisturbed
        | _ => exact (hop trivial).elim
    obtain ⟨hbarrier', hmeans', hspares⟩ := hstep
    refine ⟨hbarrier', ⟨_, hmeans', hrest r⟩, ?_⟩
    rintro u hu q ⟨b, hb, hq⟩
    exact ⟨b, hb.of_spares hbarrier hspares hu rfl, hq⟩

/-- If no call puts a record into the phase, or queues a connection, after the dispatcher was
replaced that was there when the call began, then the record in the phase and the connections
of the dispatcher have the generation of the identity on disk, in every state of the run. -/
theorem reset_is_barrier {generation : ℕ} {x : ResetThreads calls}
    (hrun : Threads.Reaches
      ((resetSystem crates calls).guarded fun t op w => w.Undisturbed t op)
      (ResetThreads.start calls generation) x) :
    (∀ record, x.shared.handle.state.record = some record →
      record.identityGeneration.toNat = x.shared.generation) ∧
    ∀ c ∈ x.shared.connects, x.shared.handle.state.dispatcher = some c.1 →
      c.2.identityGeneration.toNat = x.shared.generation := by
  have hstart : Threads.Holds Barrier (Holding calls) (ResetThreads.start calls generation) := by
    refine ⟨⟨?_, ?_, ?_, ?_, ?_⟩, ?_⟩
    · rintro _ ⟨⟩
    · exact fun c hc => (List.not_mem_nil hc).elim
    · rintro _ ⟨⟩
      exact Finset.mem_singleton_self 0
    · rintro _ _ ⟨⟩
    · rintro _ ⟨⟩
    · rintro _ _ ⟨⟩
  obtain ⟨hbarrier, -⟩ := (barrier_invariant crates calls).reaches hstart hrun
  exact ⟨hbarrier.phase, fun c hc => (hbarrier.connects c hc).2⟩

end Runs

/-! ## The end of a handle -/

section Ending

variable (crates : HandleCrates) (calls : ℕ → HandleCall)

def Owned (ended : Prop) (w : ResetWorld) : Prop :=
  (∀ t, w.owner = some t → w.handle.state = .transitioning) ∧
    (ended → w.handle.state = .shutdown)

def Owning (t : HandleThread) (p : HandleProgram (HandleThread.Value calls t)) (w : ResetWorld) :
    Prop :=
  ∃ a : CallHold, (a.owns = true → w.owner = some t) ∧ a.Obeys p

theorem CallHold.Change.eq_of_inactive {a : CallHold} {found left : HandleState}
    (h : a.Change found left) (hfound : found.dispatcher = none) (howns : a.owns ≠ true) :
    left = found := by
  cases h with
  | within | take => cases hfound
  | idle => rfl
  | install owns | close owns => exact (howns owns).elim

theorem owned_invariant (ended : Prop) :
    Threads.Invariant (resetSystem crates calls) (Owned ended) (Owning calls) where
  enter {t value w p w'} howned _ henter := by
    obtain ⟨hprogram, rfl⟩ := henter
    exact ⟨howned, ⟨{}, nofun, CallHold.obeys_of_runs (runs_of_enter hprogram).1⟩, fun _ _ _ => id⟩
  access {t op k w r w'} howned hheld hexec := by
    obtain ⟨a, howns, hpermits, hrest⟩ := hheld
    obtain ⟨v, generation, hhandle, hgenuine, rfl⟩ := hexec
    have htaken : a.owns = true → w.handle.state = .transitioning := fun h => howned.1 t (howns h)
    have hstep : a.Change w.handle.state v.state ∧
        ((a.next op r).owns = true → (w.after t op r v generation).owner = some t) := by
      -- A remote access leaves the state as it is; all others are updates of it.
      by_cases hop : op.IsRemote
      · have hstate := state_of_isRemote hop hhandle
        rw [hstate, (next_of_isRemote hop hgenuine).2.1]
        refine ⟨CallHold.change_refl _, fun h => ?_⟩
        rw [ResetWorld.after, if_pos (hstate.trans (htaken h)), if_pos (htaken h)]
        exact howns h
      · cases op with
        | state update =>
          obtain ⟨rfl, rfl⟩ := hhandle
          refine ⟨hpermits _, fun h => ?_⟩
          obtain ⟨hleft, hfound⟩ := Bool.and_eq_true_iff.1 h
          rw [ResetWorld.after, if_pos (of_decide_eq_true hleft)]
          split_ifs with hstate
          · exact howns (by simpa [hstate] using hfound)
          · rfl
        | _ => exact (hop trivial).elim
    obtain ⟨hchange, hown⟩ := hstep
    refine ⟨⟨fun u hu => ?_, fun hended => ?_⟩, ⟨_, hown, hrest r⟩, ?_⟩
    · by_contra hleft
      cases (if_neg hleft).symm.trans hu
    · have hfound := howned.2 hended
      refine (hchange.eq_of_inactive (by rw [hfound]; rfl) fun h => ?_).trans hfound
      cases hfound.symm.trans (htaken h)
    -- A transition is ended by its owner only.
    · rintro u hu q ⟨b, hb, hq⟩
      refine ⟨b, fun h => ?_, hq⟩
      have hfound := howned.1 u (hb h)
      have hleft := hchange.eq_of_inactive (by rw [hfound]; rfl) fun h' =>
        hu (Option.some.inj ((hb h).symm.trans (howns h')))
      rw [ResetWorld.after, if_pos (hleft.trans hfound), if_pos hfound]
      exact hb h

/-- A handle that was shut down stays so, whatever calls and tasks are still on their way. A reset
installs its dispatcher in whatever state it finds, but it never finds the handle shut down. -/
theorem shutdown_is_final {generation : ℕ} {x y : ResetThreads calls}
    (hrun : Threads.Reaches (resetSystem crates calls) (ResetThreads.start calls generation) x)
    (hshutdown : x.shared.handle.state = .shutdown)
    (hrest : Threads.Reaches (resetSystem crates calls) x y) :
    y.shared.handle.state = .shutdown := by
  have hstart : Threads.Holds (Owned False) (Owning calls) (ResetThreads.start calls generation) :=
    ⟨⟨nofun, nofun⟩, nofun⟩
  obtain ⟨howned, howning⟩ := (owned_invariant crates calls False).reaches hstart hrun
  exact ((owned_invariant crates calls True).reaches
    ⟨⟨howned.1, fun _ => hshutdown⟩, howning⟩ hrest).1.2 trivial

end Ending

/-! ## Computed runs -/

namespace ResetWorld

variable (t : HandleThread) (w : ResetWorld)

/-- The generation that an operation leaves, if it can have the result. -/
def outcome : (op : HandleOp) → op.Res → Option ℕ
  | .loadPairing, .ok (some record) | .join, .ok record | .confirmPair .., .ok record =>
    if w.seen t ≤ record.identityGeneration.toNat ∧
        record.identityGeneration.toNat ≤ w.generation then some w.generation else none
  | .resetPairingState, .ok () => some (w.generation + 1)
  | .spawnActive, .ok dispatcher => if dispatcher ∈ w.installed then none else some w.generation
  | _, _ => some w.generation

variable {t w}

theorem genuine_of_outcome {op : HandleOp} {r : op.Res} {generation : ℕ}
    (h : w.outcome t op r = some generation) : w.Genuine t op r generation := by
  cases op with
  | loadPairing =>
    rcases r with e | _ | record
    · exact (Option.some.inj h).symm
    · exact (Option.some.inj h).symm
    · obtain ⟨hloads, heq⟩ := Option.ite_none_right_eq_some.1 h
      exact ⟨hloads, (Option.some.inj heq).symm⟩
  | join | confirmPair =>
    rcases r with e | record
    · exact (Option.some.inj h).symm
    · obtain ⟨hloads, heq⟩ := Option.ite_none_right_eq_some.1 h
      exact ⟨hloads, (Option.some.inj heq).symm⟩
  | resetPairingState =>
    rcases r with e | ⟨⟩
    · exact .inl (Option.some.inj h).symm
    · exact (Option.some.inj h).symm
  | spawnActive =>
    rcases r with e | dispatcher
    · exact (Option.some.inj h).symm
    · obtain ⟨hnew, heq⟩ := Option.ite_none_left_eq_some.1 h
      exact ⟨hnew, (Option.some.inj heq).symm⟩
  | _ => exact (Option.some.inj h).symm

end ResetWorld

def resetReplay (crates : HandleCrates) (calls : ℕ → HandleCall) :
    Threads.Replay (resetSystem crates calls) HandleAnswers where
  access answers t op w := (w.outcome t op (w.handle.run answers op).1).map fun generation =>
    ((w.handle.run answers op).1, w.after t op _ (w.handle.run answers op).2 generation)
  enter _ t value w := (t.launch crates calls w.handle value).map (·, { w with
    origin := Function.update w.origin t w.handle.state.dispatcher
    seen := Function.update w.seen t w.generation })
  exec_of_access {answers t op w r w'} h := by
    obtain ⟨generation, houtcome, heq⟩ := Option.map_eq_some_iff.1 h
    cases heq
    exact ⟨_, generation, w.handle.exec_run answers op, ResetWorld.genuine_of_outcome houtcome, rfl⟩
  enter_of_enter h := by
    obtain ⟨p, hlaunch, heq⟩ := Option.map_eq_some_iff.1 h
    cases heq
    exact ⟨enter_of_launch hlaunch, rfl⟩

namespace ResetSample

open HandleSample (crates)

def calls : ℕ → HandleCall
  | 0 => .pairLoad
  | _ => .resetPairing

def record (generation : UInt64) : PairingRecord :=
  { HandleSample.record with identityGeneration := generation }

/-- A thread goes on with at most `count` operations; the record on disk has a generation. -/
def goes (n count : ℕ) (generation : UInt64) : Threads.Move HandleThread HandleAnswers where
  thread := .call n
  count := count
  choice
    | .loadPairing => .ok (some (record generation))
    | op => HandleSample.answers op

def undisturbedReplay : Threads.Replay ((resetSystem crates calls).guarded
    fun t op w => w.Undisturbed t op) HandleAnswers :=
  (resetReplay crates calls).guarded (fun t op w => match op with
    | .state update => (update w.handle.state).record.isNone ||
        w.handle.state.dispatcher.any (w.origin t == some ·)
    | .trySend _ (.connect _) => false
    | _ => true) (by
  intro t op w h hcommits
  cases op with
  | state update =>
    obtain ⟨record, hrecord, -⟩ := hcommits
    simp only [hrecord, Option.isNone_some, Bool.false_or, Option.any_eq_true, beq_iff_eq] at h
    obtain ⟨dispatcher, hinstalled, horigin⟩ := h
    exact ⟨dispatcher, horigin, hinstalled⟩
  | trySend dispatcher command => cases command <;> first | exact hcommits.elim | cases h
  | _ => exact hcommits.elim)

def reloaded : ResetThreads calls :=
  undisturbedReplay.final [goes 1 20 1, goes 0 9 2] (ResetThreads.start calls 1)

/-- The handle is reset, and then the record of a new pairing is loaded. -/
theorem reset_is_barrier_sample :
    ∃ x : ResetThreads calls, x.threads (.call 1) = some (done (.ok ())) ∧
      x.shared.handle.state.record = some (record 2) ∧
      (record 2).identityGeneration.toNat = x.shared.generation :=
  ⟨reloaded, rfl, rfl, (reset_is_barrier crates calls Threads.Replay.reaches_final).1 _ rfl⟩

def overwritten : ResetThreads calls :=
  (resetReplay crates calls).final [goes 0 2 1, goes 1 20 1, goes 0 9 1]
    (ResetThreads.start calls 1)

/-- A call has loaded the record when the handle is reset. The reset returns without an error,
and then the call makes the record of the former identity the pairing of the handle. -/
theorem reset_overwritten :
    ∃ x : ResetThreads calls, Threads.Reaches (resetSystem HandleSample.crates calls)
        (ResetThreads.start calls 1) x ∧ x.threads (.call 1) = some (done (.ok ())) ∧
      ∃ r, x.shared.handle.state.record = some r ∧
        r.identityGeneration.toNat < x.shared.generation :=
  ⟨overwritten, Threads.Replay.reaches_final, rfl, record 1, rfl, by decide +kernel⟩

def endingCalls : ℕ → HandleCall
  | 0 => .shutdown
  | _ => .resetPairing

def ended : ResetThreads endingCalls :=
  (resetReplay crates endingCalls).final [goes 0 20 1] (ResetThreads.start endingCalls 1)

/-- A reset is called for after the handle was shut down. -/
theorem shutdown_is_final_sample :
    ∃ y : ResetThreads endingCalls, y.threads (.call 0) = some (done (.ok ())) ∧
      y.threads (.call 1) = some (done (.error .shutdown)) ∧ y.shared.handle.state = .shutdown :=
  ⟨(resetReplay crates endingCalls).final [goes 1 20 1] ended, rfl, rfl,
    shutdown_is_final crates endingCalls Threads.Replay.reaches_final rfl
      Threads.Replay.reaches_final⟩

end ResetSample

end ClipSync
