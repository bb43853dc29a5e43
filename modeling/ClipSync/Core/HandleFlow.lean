import ClipSync.Core.Handle

/-!
# The course of a call

The calls of `CoreHandle` differ in what they do between their accesses to the state, but
there are few things that an access does: it takes a phase out and leaves `Busy`, sets the
phase that is `Busy` on account of the call, takes the dispatcher out or puts one in. Every
call is followed once through these points; what holds of the threads of a handle is then
shown for each kind of access, and not for each call.
-/

namespace ClipSync

open Lib Program CoreHandle

/-- The calls by their numbers, and the tasks by the numbers of the calls that have spawned
them. -/
inductive HandleThread where
  | call (n : ℕ)
  | wait (n : ℕ)
deriving DecidableEq

namespace HandleThread

def slot : HandleThread → ℕ
  | .call n | .wait n => n

abbrev Value (calls : ℕ → HandleCall) : HandleThread → Type
  | .call n => (calls n).Value
  | .wait _ => Unit

end HandleThread

def HandleState.busy : HandleState → Bool
  | .active running => running.phase = .busy
  | _ => false

/-! ## What must not fail -/

def HandleOp.isSetup : HandleOp → Bool
  | .pairingStore | .loadIdentity | .sessionStore | .historyStore | .newSession _ | .trySend ..
  | .recv _ => true
  | _ => false

def HandleOp.succeeds : (op : HandleOp) → op.Res → Bool
  | .pairingStore, r => r.isOk
  | .loadIdentity, r => r.isOk
  | .sessionStore, r | .historyStore, r | .newSession _, r => r.isOk
  | .qrToJson _, r => r.isOk
  | .trySend .., r => r.isOk
  | .recv _, r => r.isSome
  | .joined _, r | .stopped _, r => r
  | _, _ => true

def HandleCall.demands : HandleCall → HandleOp → Bool
  | .pairBegin _, .qrToJson _ => true
  | .pairConfirm _, op | .start, op => op.isSetup
  | .shutdown, .joined _ | .shutdown, .stopped _ => true
  | _, _ => false

namespace HandleThread

variable (calls : ℕ → HandleCall)

def demands : HandleThread → HandleOp → Bool
  | .call n, op => (calls n).demands op
  | .wait _, _ => false

def Accepts (t : HandleThread) (op : HandleOp) (r : op.Res) : Prop :=
  t.demands calls op = true → op.succeeds r = true

end HandleThread

/-! ## Points of a call -/

/-- Where a call is: what is in the phase on its account, or has been taken out of the
handle by it, and what it holds. At `failed` it returns without undoing what it has done. -/
inductive CallPoint where
  | idle
  | loaded (record : Option PairingRecord)
  | busy (record : Option PairingRecord)
  | held (slot : ℕ)
  | filled
  | connecting (record : PairingRecord) (dispatcher : Option ℕ)
  | taken
  | spawned (dispatcher : ℕ)
  | waited (outcome : Except String PendingConfirmation)
  | arrived (channel : PendingConfirmation)
  | ended
  | failed

namespace CallPoint

def Idle : CallPoint → Prop
  | .idle | .loaded _ | .waited _ | .arrived _ => True
  | _ => False

def Busy : CallPoint → Prop
  | .busy _ | .filled | .connecting .. => True
  | _ => False

def Ends : CallPoint → Prop
  | .idle | .ended | .failed => True
  | _ => False

end CallPoint

section Flow

variable (crates : HandleCrates) (calls : ℕ → HandleCall) (t : HandleThread)

/-- The phases that a call puts in the place of `Busy`. -/
inductive CallPoint.Sets : CallPoint → PairingPhase → Prop where
  | aborted {record : Option PairingRecord} : Sets (.busy record) .unpaired
  | restored {record : PairingRecord} : Sets (.busy (some record)) (.paired record)
  | offered {n : ℕ} {url qrJson : String} (ht : t = .call n) (hcall : calls n = .pairBegin url) :
      Sets (.busy none) (.offering qrJson n)
  | readied {sas : String} : Sets .filled (.sasReady sas t.slot)
  | connected {record : PairingRecord} {dispatcher : Option ℕ} :
      Sets (.connecting record dispatcher) (.paired record)

/-- What an access to the state finds and leaves. -/
inductive CallPoint.Moves : CallPoint → HandleState → HandleState → CallPoint → Prop where
  | kept {a : CallPoint} {found : HandleState} (idle : a.Idle) : Moves a found found .ended
  | missed {a : CallPoint} {found : HandleState} (busy : a.Busy) (gone : found.busy = false) :
      Moves a found found .ended
  | read {record : PairingRecord} {running : Active} :
      Moves (.connecting record none) (.active running) (.active running)
        (.connecting record (some running.dispatcher))
  | begun {n dispatcher : ℕ} (ht : t = .call n) : Moves .idle
      (.active ⟨dispatcher, .unpaired⟩) (.active ⟨dispatcher, .busy⟩) (.busy none)
  | started {n dispatcher : ℕ} {record : PairingRecord} (ht : t = .call n) : Moves .idle
      (.active ⟨dispatcher, .paired record⟩) (.active ⟨dispatcher, .busy⟩) (.busy (some record))
  | confirmed {n dispatcher slot : ℕ} {sas : String} (ht : t = .call n) : Moves .idle
      (.active ⟨dispatcher, .sasReady sas slot⟩) (.active ⟨dispatcher, .busy⟩) (.held slot)
  | set {a : CallPoint} {running : Active} {phase : PairingPhase} (sets : a.Sets calls t phase) :
      Moves a (.active running) (.active { running with phase := phase }) .ended
  | cancelled {n : ℕ} {running : Active} (ht : t = .call n) (hcall : calls n = .pairCancel)
      (free : running.phase ≠ .busy) :
      Moves .idle (.active running) (.active { running with phase := .unpaired }) .ended
  | loaded {dispatcher : ℕ} {record : PairingRecord} : Moves (.loaded (some record))
      (.active ⟨dispatcher, .unpaired⟩) (.active ⟨dispatcher, .paired record⟩) .ended
  | taken {n : ℕ} {running : Active} (ht : t = .call n)
      (hcall : calls n = .resetPairing ∨ calls n = .shutdown) :
      Moves .idle (.active running) .transitioning .taken
  | installed {dispatcher : ℕ} {found : HandleState} :
      Moves (.spawned dispatcher) found (.active ⟨dispatcher, .unpaired⟩) .ended
  | closed {found : HandleState} : Moves .taken found .shutdown .ended
  | announced {channel : PendingConfirmation} {n dispatcher : ℕ} {qrJson : String}
      (ht : t = .wait n) : Moves (.arrived channel) (.active ⟨dispatcher, .offering qrJson n⟩)
        (.active ⟨dispatcher, .sasReady (channel.sas crates.prim) n⟩) .ended
  | dropped {message : String} {n dispatcher : ℕ} {qrJson : String} (ht : t = .wait n) :
      Moves (.waited (.error message)) (.active ⟨dispatcher, .offering qrJson n⟩)
        (.active ⟨dispatcher, .unpaired⟩) .ended

/-- Operations that neither access the state nor hand over a channel, a record or a
dispatcher. -/
def HandleOp.IsPlain : HandleOp → Prop
  | .state _ | .putChannel .. | .takeChannel _ | .spawnWait _ | .waitPeer | .loadPairing | .join
  | .confirmPair .. | .resetPairingState | .spawnActive | .trySend _ (.connect _) => False
  | _ => True

/-- What an operation of a call with a result makes of the point it is at. -/
inductive CallPoint.Flow : CallPoint → (op : HandleOp) → op.Res → CallPoint → Prop where
  | state {a b : CallPoint} {update : HandleState → HandleState} {found : HandleState}
      (moves : a.Moves crates calls t found (update found) b) : Flow a (.state update) found b
  | plain {a : CallPoint} {op : HandleOp} {r : op.Res} (hop : op.IsPlain)
      (accepts : t.Accepts calls op r) : Flow a op r a
  | fails {a : CallPoint} {op : HandleOp} {r : op.Res} (hop : op.IsPlain)
      (refused : ¬ t.Accepts calls op r) : Flow a op r .failed
  | load (r : Except PairingError (Option PairingRecord)) : Flow .idle .loadPairing r
      (match r with
      | .ok record => .loaded record
      | .error _ => .ended)
  | join {former : Option PairingRecord} (r : Except CoreError PairingRecord) :
      Flow (.busy former) .join r
        (match r with
        | .ok record => .connecting record none
        | .error _ => .busy former)
  | confirm {former : Option PairingRecord} {channel : PendingConfirmation} {sas : String}
      (r : Except CoreError PairingRecord) :
      Flow (.busy former) (.confirmPair channel sas) r
        (match r with
        | .ok record => .connecting record none
        | .error _ => .busy former)
  | connect {record : PairingRecord} {dispatcher : ℕ} (r : Except TrySendError Unit)
      (demanded : t.demands calls (.trySend dispatcher (.connect record)) = true) :
      Flow (.connecting record (some dispatcher)) (.trySend dispatcher (.connect record)) r
        (match r with
        | .ok () => .connecting record (some dispatcher)
        | .error _ => .failed)
  | take {slot : ℕ} (r : Option PendingConfirmation) : Flow (.held slot) (.takeChannel slot) r
      (match r with
      | some _ => .busy none
      | none => .failed)
  | fill {n : ℕ} {qr : String} {channel : PendingConfirmation} {r : Unit} (ht : t = .call n)
      (hcall : calls n = .pairClaim qr) : Flow (.busy none) (.putChannel n channel) r .filled
  | arrive {n : ℕ} {channel : PendingConfirmation} {r : Unit} (ht : t = .wait n) :
      Flow (.waited (.ok channel)) (.putChannel n channel) r (.arrived channel)
  | spawnWait {n : ℕ} {url : String} {r : Unit} (ht : t = .call n)
      (hcall : calls n = .pairBegin url) : Flow (.busy none) (.spawnWait n) r (.busy none)
  | waitPeer {n : ℕ} {r : Except String PendingConfirmation} (ht : t = .wait n) :
      Flow .idle .waitPeer r (.waited r)
  | reset {r : Except PairingError Unit} : Flow .taken .resetPairingState r .taken
  | spawn (r : Except CoreError ℕ) : Flow .taken .spawnActive r
      (match r with
      | .ok dispatcher => .spawned dispatcher
      | .error _ => .taken)

end Flow

/-! ## The course of each call -/

section Calls

variable {crates : HandleCrates} {calls : ℕ → HandleCall} {t : HandleThread} {a : CallPoint}

abbrev CoreHandle.Runs (crates : HandleCrates) (calls : ℕ → HandleCall) (t : HandleThread)
    {α : Type}
    (final : CallPoint → α → Prop) (a : CallPoint) (p : HandleProgram α) : Prop :=
  Traces (CallPoint.Flow crates calls t) final a p

variable {α : Type} {final : CallPoint → α → Prop}

theorem runs_op (op : HandleOp) {k : op.Res → HandleProgram α} (hop : op.IsPlain)
    (hok : ∀ r, t.Accepts calls op r → Runs crates calls t final a (k r))
    (hfail : ∀ r, ¬ t.Accepts calls op r → Runs crates calls t final .failed (k r)) :
    Runs crates calls t final a (.call op k) := by
  intro r
  by_cases haccepts : t.Accepts calls op r
  · exact ⟨a, .plain hop haccepts, hok r haccepts⟩
  · exact ⟨.failed, .fails hop haccepts, hfail r haccepts⟩

theorem runs_plain (op : HandleOp) {k : op.Res → HandleProgram α} (hop : op.IsPlain)
    (hdemands : t.demands calls op = false) (hk : ∀ r, Runs crates calls t final a (k r)) :
    Runs crates calls t final a (.call op k) :=
  fun r => ⟨a, .plain hop (by simp [HandleThread.Accepts, hdemands]), hk r⟩

/-- A call that returns when an operation fails that it does not recover from. -/
theorem runs_setup (op : HandleOp) {k : op.Res → HandleProgram α} (hop : op.IsPlain)
    (hdemands : t.demands calls op = true)
    (hok : ∀ r, op.succeeds r = true → Runs crates calls t final a (k r))
    (hfail : ∀ r, op.succeeds r = false → ∃ x, k r = done x ∧ final .failed x) :
    Runs crates calls t final a (.call op k) := by
  refine runs_op op hop (fun r haccepts => hok r (haccepts hdemands)) fun r hrefused => ?_
  obtain ⟨x, hk, hx⟩ := hfail r (by simpa [HandleThread.Accepts, hdemands] using hrefused)
  rw [hk]
  exact hx

theorem runs_of_plain {p : HandleProgram α}
    (hp : p.AllOps fun op => op.IsPlain ∧ t.demands calls op = false) :
    Runs crates calls t (fun b _ => b = a) a p := by
  induction p with
  | done x => rfl
  | call op k ih => exact runs_plain op hp.1.1 hp.1.2 fun r => ih r (hp.2 r)

theorem runs_withActive {R : Type} {f : Active → Except CoreError R × Active}
    {final : CallPoint → Except CoreError R → Prop}
    (hactive : ∀ running, ∃ b, a.Moves crates calls t (.active running) (.active (f running).2) b ∧
      final b (f running).1)
    (hrest : ∀ found error, found.busy = false → ∃ b, a.Moves crates calls t found found b ∧
      final b (.error error)) :
    Runs crates calls t final a (withActive f) := by
  rintro (running | _ | _)
  · obtain ⟨b, hmoves, hb⟩ := hactive running
    exact ⟨b, .state hmoves, hb⟩
  · obtain ⟨b, hmoves, hb⟩ := hrest .transitioning .busy rfl
    exact ⟨b, .state hmoves, hb⟩
  · obtain ⟨b, hmoves, hb⟩ := hrest .shutdown .shutdown rfl
    exact ⟨b, .state hmoves, hb⟩

theorem runs_setPhase {phase : PairingPhase} (hsets : a.Sets calls t phase) :
    Runs crates calls t (fun b _ => b = .ended) a (setPhase phase) := by
  have hbusy : a.Busy := by
    cases hsets <;> trivial
  exact runs_withActive (fun running => ⟨.ended, .set hsets, rfl⟩)
    fun found error hfound => ⟨.ended, .missed hbusy hfound, rfl⟩

theorem demands_emit (status : CoreStatus) : t.demands calls (.emit status) = false := by
  cases t with
  | call n =>
    rw [HandleThread.demands]
    cases calls n <;> rfl
  | wait n => rfl

theorem runs_emit {status : CoreStatus} {x : α} (hx : final a x) :
    Runs crates calls t final a (emit status >>= fun _ => done x) :=
  runs_plain _ trivial (demands_emit status) fun _ => hx

theorem runs_abortPhaseTransition {record : Option PairingRecord} (error : CoreError) :
    Runs crates calls t (fun b _ => b = .ended) (.busy record) (abortPhaseTransition error) := by
  intro found
  refine ⟨.ended, .state ?_, runs_plain _ trivial (demands_emit _) fun _ => rfl⟩
  rcases found with ⟨dispatcher, phase⟩ | _ | _
  · by_cases hphase : phase = .busy
    · subst hphase
      exact .set .aborted
    · simp only [onActive, abortedPhase, if_neg hphase]
      exact .missed trivial (decide_eq_false hphase)
  · exact .missed trivial rfl
  · exact .missed trivial rfl

/-- A call that goes on when the phase is `Unpaired`. -/
theorem runs_beginPhaseTransition {n : ℕ} : Runs crates calls (.call n)
    (fun b r => r = .ok () ∧ b = .busy none ∨ (∃ e, r = .error e) ∧ b = .ended) .idle
    beginPhaseTransition := by
  refine runs_withActive ?_ fun found error _ => ⟨.ended, .kept trivial, .inr ⟨⟨_, rfl⟩, rfl⟩⟩
  rintro ⟨dispatcher, phase⟩
  cases phase with
  | unpaired => exact ⟨_, .begun rfl, .inl ⟨rfl, rfl⟩⟩
  | _ => exact ⟨.ended, .kept trivial, .inr ⟨⟨_, rfl⟩, rfl⟩⟩

variable {n : ℕ} {c : HandleCall} (hcall : calls n = c)

include hcall in
theorem demands_call (op : HandleOp) : (HandleThread.call n).demands calls op = c.demands op := by
  rw [HandleThread.demands, hcall]

section Connecting

variable (hsetup : ∀ op, t.demands calls op = op.isSetup)

include hsetup in
theorem runs_buildConnection (record : PairingRecord) : Runs crates calls t
    (fun b r => r = .ok () ∧ b = a ∨ (∃ e, r = .error e) ∧ b = .failed) a
    (buildConnection record) := by
  have hfail : ∀ e : CoreError, ∃ x : Except CoreError Unit,
      (done (.error e) : HandleProgram _) = done x ∧
        (x = .ok () ∧ CallPoint.failed = a ∨ (∃ e, x = .error e) ∧ CallPoint.failed = .failed) :=
    fun e => ⟨_, rfl, .inr ⟨⟨e, rfl⟩, rfl⟩⟩
  unfold buildConnection CoreHandle.pairingStore
  refine runs_setup .pairingStore trivial (hsetup _) ?_ (by rintro (e | _) ⟨⟩; exact hfail _)
  rintro (_ | _) ⟨⟩
  refine runs_setup .loadIdentity trivial (hsetup _) ?_ (by rintro (e | _) ⟨⟩; exact hfail _)
  rintro (_ | _) ⟨⟩
  refine runs_setup .sessionStore trivial (hsetup _) ?_ (by rintro (e | _) ⟨⟩; exact hfail _)
  rintro (_ | _) ⟨⟩
  refine runs_setup .historyStore trivial (hsetup _) ?_ (by rintro (e | _) ⟨⟩; exact hfail _)
  rintro (_ | _) ⟨⟩
  refine runs_setup (.newSession record) trivial (hsetup _) ?_
    (by rintro (e | _) ⟨⟩; exact hfail _)
  rintro (_ | _) ⟨⟩
  exact .inl ⟨rfl, rfl⟩

include hsetup in
theorem runs_activateConnection (record : PairingRecord) :
    Runs crates calls t (fun b _ => b.Ends) (.connecting record none)
      (activateConnection record) := by
  refine traces_bind _ (runs_buildConnection hsetup record) ?_
  rintro _ r (⟨rfl, rfl⟩ | ⟨⟨e, rfl⟩, rfl⟩)
  · have hsend : Runs crates calls t (fun b r => r = .ok () ∧
        (∃ dispatcher, b = .connecting record (some dispatcher)) ∨ (∃ e, r = .error e) ∧ b.Ends)
        (.connecting record none) (tryCommand (.connect record)) := by
      refine traces_bind (p := withActive _) (fun b r => match r with
        | .ok dispatcher => b = .connecting record (some dispatcher)
        | .error _ => b = .ended) ?_ ?_
      · exact runs_withActive (fun running => ⟨_, .read, rfl⟩)
          fun found error hfound => ⟨.ended, .missed trivial hfound, rfl⟩
      · rintro _ (e | dispatcher) rfl
        · exact .inr ⟨⟨e, rfl⟩, trivial⟩
        · rintro ((_ | _) | _)
          · exact ⟨_, .connect _ (hsetup _), .inr ⟨⟨_, rfl⟩, trivial⟩⟩
          · exact ⟨_, .connect _ (hsetup _), .inr ⟨⟨_, rfl⟩, trivial⟩⟩
          · exact ⟨_, .connect _ (hsetup _), .inl ⟨rfl, dispatcher, rfl⟩⟩
    refine traces_bind _ hsend ?_
    rintro b r (⟨rfl, dispatcher, rfl⟩ | ⟨⟨e, rfl⟩, hends⟩)
    · refine runs_setup (.recv (.connect record)) trivial (hsetup _) ?_
        (by rintro (_ | _) ⟨⟩; exact ⟨_, rfl, trivial⟩)
      rintro (_ | _) ⟨⟩
      refine (runs_setPhase .connected).mono ?_
      rintro _ _ rfl
      trivial
    · exact hends
  · exact trivial

end Connecting

include hcall in
theorem runs_start (hc : c = .start) :
    Runs crates calls (.call n) (fun b _ => b.Ends) .idle start := by
  subst hc
  have hsetup : ∀ op, (HandleThread.call n).demands calls op = op.isSetup := demands_call hcall
  refine runs_plain _ trivial (demands_emit _) fun _ => ?_
  refine traces_bind (p := withActive _) (fun b r => match r with
    | .ok record => b = .busy (some record)
    | .error _ => b = .ended) (runs_withActive ?_ fun found error _ =>
      ⟨.ended, .kept trivial, rfl⟩) ?_
  · rintro ⟨dispatcher, phase⟩
    cases phase with
    | paired record => exact ⟨_, .started rfl, rfl⟩
    | _ => exact ⟨.ended, .kept trivial, rfl⟩
  rintro _ (e | record) rfl
  · trivial
  refine runs_setup .pairingStore trivial (hsetup _) ?_
    (by rintro (_ | _) ⟨⟩; exact ⟨_, rfl, trivial⟩)
  rintro (_ | _) ⟨⟩
  rintro (error | joined)
  · refine ⟨_, .join _, traces_bind (p := setPhase _) _ (runs_setPhase .restored) ?_⟩
    rintro _ (e | _) rfl
    · trivial
    · exact runs_emit trivial
  · exact ⟨_, .join _, runs_activateConnection hsetup joined⟩

include hcall in
theorem runs_pairConfirm {sas : String} (hc : c = .pairConfirm sas) :
    Runs crates calls (.call n) (fun b _ => b.Ends) .idle (pairConfirm sas) := by
  subst hc
  have hsetup : ∀ op, (HandleThread.call n).demands calls op = op.isSetup := demands_call hcall
  refine traces_bind (p := withActive _) (fun b r => match r with
    | .ok slot => b = .held slot
    | .error _ => b = .ended) (runs_withActive ?_ fun found error _ =>
      ⟨.ended, .kept trivial, rfl⟩) ?_
  · rintro ⟨dispatcher, phase⟩
    cases phase with
    | sasReady shown slot => exact ⟨_, .confirmed rfl, rfl⟩
    | _ => exact ⟨.ended, .kept trivial, rfl⟩
  rintro _ (e | slot) rfl
  · trivial
  rintro (_ | channel)
  · exact ⟨_, .take _, trivial⟩
  refine ⟨_, .take _, runs_setup .pairingStore trivial (hsetup _) ?_
    (by rintro (_ | _) ⟨⟩; exact ⟨_, rfl, trivial⟩)⟩
  rintro (_ | _) ⟨⟩
  rintro (error | record)
  · refine ⟨_, .confirm _, traces_bind (p := abortPhaseTransition error) _
      (runs_abortPhaseTransition error) ?_⟩
    rintro _ _ rfl
    trivial
  · exact ⟨_, .confirm _, runs_activateConnection hsetup record⟩

include hcall in
theorem runs_pairBegin {serverUrl : String} (hc : c = .pairBegin serverUrl) :
    Runs crates calls (.call n) (fun b _ => b.Ends) .idle (pairBegin crates n serverUrl) := by
  subst hc
  unfold pairBegin
  split
  · trivial
  refine runs_plain _ trivial (demands_call hcall _) ?_
  rintro (e | _)
  · trivial
  refine traces_bind (p := beginPhaseTransition) _ runs_beginPhaseTransition ?_
  rintro _ r (⟨rfl, rfl⟩ | ⟨⟨e, rfl⟩, rfl⟩)
  · refine runs_plain _ trivial (demands_call hcall _) ?_
    rintro (error | qr)
    · refine traces_bind (p := abortPhaseTransition error) _ (runs_abortPhaseTransition error) ?_
      rintro _ _ rfl
      trivial
    refine runs_setup (.qrToJson qr) trivial (demands_call hcall _) ?_
      (by rintro (_ | _) ⟨⟩; exact ⟨_, rfl, trivial⟩)
    rintro (_ | qrJson) ⟨⟩
    refine fun _ => ⟨_, .spawnWait rfl hcall,
      traces_bind (p := setPhase _) _ (runs_setPhase (.offered rfl hcall)) ?_⟩
    rintro _ (e | _) rfl
    · trivial
    · exact runs_emit trivial
  · trivial

include hcall in
theorem runs_pairClaim {qrPayload : String} (hc : c = .pairClaim qrPayload) :
    Runs crates calls (.call n) (fun b _ => b.Ends) .idle (pairClaim crates n qrPayload) := by
  subst hc
  unfold pairClaim
  cases crates.parseQr qrPayload with
  | error e => trivial
  | ok qr =>
  refine runs_plain _ trivial (demands_call hcall _) ?_
  rintro (e | _)
  · trivial
  refine traces_bind (p := beginPhaseTransition) _ runs_beginPhaseTransition ?_
  rintro _ r (⟨rfl, rfl⟩ | ⟨⟨e, rfl⟩, rfl⟩)
  · refine runs_plain _ trivial (demands_call hcall _) ?_
    rintro (error | channel)
    · refine traces_bind (p := abortPhaseTransition error) _ (runs_abortPhaseTransition error) ?_
      rintro _ _ rfl
      trivial
    refine fun _ => ⟨_, .fill rfl hcall, traces_bind (p := setPhase _) _
      (runs_setPhase .readied) ?_⟩
    rintro _ (e | _) rfl
    · trivial
    · exact runs_emit trivial
  · trivial

theorem runs_ask (command : CoreCommand)
    (hplain : ∀ dispatcher, (HandleOp.trySend dispatcher command).IsPlain)
    (hsend : ∀ dispatcher, t.demands calls (.trySend dispatcher command) = false)
    (hrecv : t.demands calls (.recv command) = false) :
    Runs crates calls t (fun b _ => b.Ends) .idle (ask command) := by
  rintro (running | _ | _)
  · refine ⟨.ended, .state (.kept trivial), runs_plain _ (hplain _) (hsend _) ?_⟩
    rintro ((_ | _) | _)
    · trivial
    · trivial
    refine runs_plain _ trivial hrecv ?_
    rintro (_ | _) <;> trivial
  · exact ⟨.ended, .state (.kept trivial), trivial⟩
  · exact ⟨.ended, .state (.kept trivial), trivial⟩

theorem runs_pairPoll : Runs crates calls t (fun b _ => b.Ends) .idle pairPoll := by
  rintro (⟨dispatcher, phase⟩ | _ | _)
  · refine ⟨.ended, .state (.kept trivial), ?_⟩
    cases phase <;> trivial
  · exact ⟨.ended, .state (.kept trivial), trivial⟩
  · exact ⟨.ended, .state (.kept trivial), trivial⟩

include hcall in
theorem runs_pairCancel (hc : c = .pairCancel) :
    Runs crates calls (.call n) (fun b _ => b.Ends) .idle pairCancel := by
  subst hc
  rintro (⟨dispatcher, phase⟩ | _ | _)
  · cases phase with
    | offering qrJson wait =>
      refine ⟨.ended, .state (.cancelled rfl hcall (by rintro ⟨⟩)), ?_⟩
      exact runs_plain _ trivial (demands_call hcall _) fun _ => runs_emit trivial
    | sasReady sas slot =>
      exact ⟨.ended, .state (.cancelled rfl hcall (by rintro ⟨⟩)), runs_emit trivial⟩
    | _ => exact ⟨.ended, .state (.kept trivial), trivial⟩
  · exact ⟨.ended, .state (.kept trivial), trivial⟩
  · exact ⟨.ended, .state (.kept trivial), trivial⟩

include hcall in
theorem runs_pairLoad (hc : c = .pairLoad) :
    Runs crates calls (.call n) (fun b _ => b.Ends) .idle pairLoad := by
  subst hc
  refine runs_plain _ trivial (demands_call hcall _) ?_
  rintro (e | _)
  · trivial
  rintro (e | record)
  · exact ⟨_, .load _, trivial⟩
  refine ⟨_, .load _, runs_withActive ?_ fun found error _ => ⟨.ended, .kept trivial, trivial⟩⟩
  rintro ⟨dispatcher, phase⟩
  cases phase with
  | unpaired =>
    cases record with
    | none => exact ⟨.ended, .kept trivial, trivial⟩
    | some record => exact ⟨.ended, .loaded, trivial⟩
  | _ => cases record <;> exact ⟨.ended, .kept trivial, trivial⟩

/-! ### Stopping -/

variable {P : HandleOp → Prop} {dispatcher : ℕ}

theorem allOps_sendDisconnect (hsend : P (.trySend dispatcher .disconnect)) (hsleep : P .sleep)
    (attempts : ℕ) : AllOps P (sendDisconnect dispatcher attempts) := by
  induction attempts with
  | zero => trivial
  | succ attempts ih =>
    refine ⟨hsend, ?_⟩
    rintro ((_ | _) | u)
    · exact ⟨hsleep, fun _ => ih⟩
    · trivial
    · trivial

/-- Stopping a dispatcher, up to the operations that a shutdown does not recover from. -/
theorem runs_stopActive {final : CallPoint → Except CoreError Unit → Prop} {active : Active}
    (hdemands : ∀ op ∈ [.trySend active.dispatcher .disconnect, .sleep, .recv .disconnect],
      t.demands calls op = false)
    (habort : ∀ wait, t.demands calls (.abortWait wait) = false)
    (hjoin : Runs crates calls t final a (joinDispatcher active.dispatcher)) :
    Runs crates calls t final a (stopActive active) := by
  have hoffer : (abortOffer active.phase).AllOps
      fun op => op.IsPlain ∧ t.demands calls op = false := by
    cases active.phase with
    | offering qrJson wait => exact ⟨⟨trivial, habort wait⟩, fun _ => trivial⟩
    | _ => trivial
  refine traces_bind (p := abortOffer active.phase) _ (runs_of_plain hoffer) ?_
  rintro _ _ rfl
  refine traces_bind (p := sendDisconnect active.dispatcher 100) _ (runs_of_plain
    (allOps_sendDisconnect ⟨trivial, hdemands _ (by simp)⟩ ⟨trivial, hdemands _ (by simp)⟩ 100)) ?_
  rintro _ sent rfl
  have hawait : (awaitDisconnect sent).AllOps fun op => op.IsPlain ∧
    t.demands calls op = false := by
    cases sent with
    | false => trivial
    | true => exact ⟨⟨trivial, hdemands _ (by simp)⟩, fun _ => trivial⟩
  refine traces_bind (p := awaitDisconnect sent) _ (runs_of_plain hawait) ?_
  rintro _ _ rfl
  exact hjoin

theorem runs_takeActive (hreset : calls n = .resetPairing ∨ calls n = .shutdown) :
    Runs crates calls (.call n) (fun b r => match r with
      | .ok _ => b = .taken
      | .error _ => b = .ended) .idle takeActive := by
  rintro (running | _ | _)
  · exact ⟨_, .state (.taken rfl hreset), rfl⟩
  · exact ⟨_, .state (.kept trivial), rfl⟩
  · exact ⟨_, .state (.kept trivial), rfl⟩

theorem runs_shutdown (hcall : calls n = .shutdown) :
    Runs crates calls (.call n) (fun b _ => b.Ends) .idle shutdown := by
  have hdemands := demands_call hcall
  refine traces_bind (p := takeActive) _ (runs_takeActive (.inr hcall)) ?_
  rintro _ (e | active) rfl
  · trivial
  refine traces_bind (p := stopActive active) (fun b r => b = if r.isOk then .taken else .failed)
    (runs_stopActive (by simp [hdemands, HandleCall.demands]) (fun _ => hdemands _) ?_) ?_
  · refine runs_setup (.joined active.dispatcher) trivial (hdemands _) ?_
      (by rintro _ rfl; exact ⟨_, rfl, rfl⟩)
    rintro _ rfl
    refine runs_setup (.stopped active.dispatcher) trivial (hdemands _) ?_
      (by rintro _ rfl; exact ⟨_, rfl, rfl⟩)
    rintro _ rfl
    exact runs_plain (.shutdownRuntime active.dispatcher) trivial (hdemands _) fun _ => rfl
  · rintro _ (e | _) rfl
    · trivial
    · exact fun found => ⟨.ended, .state .closed, trivial⟩

theorem runs_resetPairing (hcall : calls n = .resetPairing) :
    Runs crates calls (.call n) (fun b _ => b.Ends) .idle resetPairing := by
  have hdemands := demands_call hcall
  refine traces_bind (p := takeActive) _ (runs_takeActive (.inl hcall)) ?_
  rintro _ (e | active) rfl
  · trivial
  have hjoin : (joinDispatcher active.dispatcher).AllOps
      fun op => op.IsPlain ∧ (HandleThread.call n).demands calls op = false := by
    refine ⟨⟨trivial, hdemands _⟩, ?_⟩
    rintro (_ | _)
    · trivial
    refine ⟨⟨trivial, hdemands _⟩, ?_⟩
    rintro (_ | _)
    · trivial
    · exact ⟨⟨trivial, hdemands _⟩, fun _ => trivial⟩
  refine traces_bind (p := stopActive active) _
    (runs_stopActive (by simp [hdemands, HandleCall.demands])
    (fun _ => hdemands _) (runs_of_plain hjoin)) ?_
  rintro _ stopResult rfl
  have hreset : Runs crates calls (.call n) (fun b _ => b = .taken) .taken resetState := by
    refine runs_plain _ trivial (hdemands _) ?_
    rintro (_ | _)
    · rfl
    · exact fun r => ⟨_, .reset, rfl⟩
  refine traces_bind (p := resetState) _ hreset ?_
  rintro _ resetResult rfl
  rintro (error | dispatcher)
  · exact ⟨_, .spawn _, fun found => ⟨.ended, .state .closed, trivial⟩⟩
  · exact ⟨_, .spawn _, fun found => ⟨.ended, .state .installed, runs_emit trivial⟩⟩

/-! ### All of them -/

theorem runs_waitForPeer (crates : HandleCrates) :
    Runs crates calls (.wait n) (fun b _ => b.Ends) .idle (waitForPeer crates n) := by
  rintro (message | channel)
  · refine ⟨_, .waitPeer rfl, traces_bind (p := withActive _) (fun b _ => b = .ended)
      (runs_withActive ?_ fun found error _ => ⟨.ended, .kept trivial, rfl⟩) ?_⟩
    · rintro ⟨dispatcher, phase⟩
      cases phase with
      | offering qrJson slot =>
        by_cases hslot : slot = n
        · subst hslot
          simp only [if_true]
          exact ⟨.ended, .dropped rfl, rfl⟩
        · simp only [if_neg hslot]
          exact ⟨.ended, .kept trivial, rfl⟩
      | _ => exact ⟨.ended, .kept trivial, rfl⟩
    · rintro _ (e | still) rfl
      · trivial
      · cases still with
        | false => trivial
        | true => exact runs_plain _ trivial (demands_emit _) fun _ => trivial
  · refine ⟨_, .waitPeer rfl, fun _ => ⟨_, .arrive rfl, traces_bind (p := withActive _)
      (fun b _ => b = .ended)
      (runs_withActive ?_ fun found error _ => ⟨.ended, .kept trivial, rfl⟩) ?_⟩⟩
    · rintro ⟨dispatcher, phase⟩
      cases phase with
      | offering qrJson slot =>
        by_cases hslot : slot = n
        · subst hslot
          simp only [if_true]
          exact ⟨.ended, .announced rfl, rfl⟩
        · simp only [if_neg hslot]
          exact ⟨.ended, .kept trivial, rfl⟩
      | _ => exact ⟨.ended, .kept trivial, rfl⟩
    · rintro _ (e | _) rfl
      · trivial
      · exact runs_plain _ trivial (demands_emit _) fun _ => trivial

theorem runs_program (crates : HandleCrates) (hcall : calls n = c) :
    Runs crates calls (.call n) (fun b _ => b.Ends) .idle (c.program crates n) := by
  have hask : ∀ command : CoreCommand,
      (∀ dispatcher, (HandleOp.trySend dispatcher command).IsPlain) →
      (∀ dispatcher, c.demands (.trySend dispatcher command) = false) →
      c.demands (.recv command) = false →
      Runs crates calls (.call n) (fun b _ => b.Ends) .idle (ask command) :=
    fun command hplain hsend hrecv => runs_ask command hplain
      (fun _ => (demands_call hcall _).trans (hsend _)) ((demands_call hcall _).trans hrecv)
  cases c with
  | pairBegin serverUrl => exact runs_pairBegin hcall rfl
  | pairClaim qrPayload => exact runs_pairClaim hcall rfl
  | pairPoll => exact runs_pairPoll
  | pairConfirm sas => exact runs_pairConfirm hcall rfl
  | pairCancel => exact runs_pairCancel hcall rfl
  | pairLoad => exact runs_pairLoad hcall rfl
  | start => exact runs_start hcall rfl
  | resetPairing => exact runs_resetPairing hcall
  | shutdown => exact runs_shutdown hcall
  | sendText text =>
    exact runs_plain .nowMs trivial (demands_call hcall _) fun tsMs => traces_bind (p := ask _) _
      (hask (.send (.text text) tsMs) (fun _ => trivial) (fun _ => rfl) rfl) fun _ _ hb => hb
  | sendImage bytes =>
    exact runs_plain .nowMs trivial (demands_call hcall _) fun tsMs => traces_bind (p := ask _) _
      (hask (.send (.image bytes) tsMs) (fun _ => trivial) (fun _ => rfl) rfl) fun _ _ hb => hb
  | history =>
    exact traces_bind _ (hask .history (fun _ => trivial) (fun _ => rfl) rfl) fun _ _ hb => hb
  | historyClear =>
    exact traces_bind _ (hask .historyClear (fun _ => trivial) (fun _ => rfl) rfl) fun _ _ hb => hb
  | historyImageBytes id =>
    change Runs crates calls _ _ _ (historyImageBytes crates id)
    unfold historyImageBytes
    cases crates.parseUuid id with
    | error message => trivial
    | ok id =>
      exact traces_bind _ (hask (.historyImage id) (fun _ => trivial) (fun _ => rfl) rfl)
        fun _ _ hb => hb
  | historyApply id =>
    change Runs crates calls _ _ _ (historyApply crates id)
    unfold historyApply
    cases crates.parseUuid id with
    | error message => trivial
    | ok id =>
      exact traces_bind _ (hask (.historyApply id) (fun _ => trivial) (fun _ => rfl) rfl)
        fun _ _ hb => hb
  | isEcho hash =>
    refine traces_bind _ (hask (.isEcho hash) (fun _ => trivial) (fun _ => rfl) rfl) ?_
    rintro b (e | echo) hb <;> exact hb

end Calls

end ClipSync
