import ClipSync.Core.Session

/-!
# The handle of an endpoint

The public calls of `CoreHandle` in `crates/core/src/ffi.rs` and the task that waits for
the peer of an offer. The state of the handle is behind a lock, which no call holds during
I/O: a call that pairs or connects leaves the phase `Busy` in the meantime, and one that
resets or shuts down leaves the state `Transitioning`. The calls are programs over the
accesses to the state and over the operations in between, which can have any outcome.
-/

namespace ClipSync

open Lib Program

/-! ## What crosses the boundary -/

inductive CoreError where
  | invalidInput (message : String)
  | busy
  | notPaired
  | queueFull
  | transport (message : String)
  | sasMismatch
  | shutdown
  | internal (message : String)
deriving DecidableEq

inductive CoreStatus where
  | readyUnpaired
  | offering
  | sasReady
  | connecting
  | connected
  | reconnecting
  | disconnected
  | error (message : String)
deriving DecidableEq

inductive PairingSnapshot where
  | unpaired
  | offering (qrJson : String)
  | sasReady (sas : String)
  | paired (roomId : String)
deriving DecidableEq

def PairingError.toText : PairingError → String
  | .invalidServer => "pairing server URL is invalid or uses a disallowed scheme"
  | .invalidCode => "pairing code must be six uppercase ASCII letters or digits"
  | .sameIdentity => "an identity cannot pair with itself"
  | .serverMismatch => "pairing transport server does not match the QR-pinned server"
  | .bundleMismatch => "pairing transport bundle does not match the expected identity"
  | .sasMismatch => "the confirmed SAS does not match the expected value"
  | .staleIdentity => "pairing state belongs to a stale identity generation"
  | .invalidRecord => "pairing record failed integrity validation"
  | .generationOverflow => "identity generation cannot advance beyond u64::MAX"
  | .io _ => "pairing I/O failed"
  | .crypto _ => "pairing identity is invalid"
  | .json => "pairing JSON is invalid"

namespace CoreError

def toText : CoreError → String
  | .invalidInput message => "invalid input: " ++ message
  | .busy => "another pairing or session transition is in progress"
  | .notPaired => "no live session is connected"
  | .queueFull => "outbound dispatcher queue is full"
  | .transport message => "relay transport failed: " ++ message
  | .sasMismatch => "the confirmed SAS does not match"
  | .shutdown => "core handle is shut down"
  | .internal message => "internal failure: " ++ message

def fromPairing : PairingError → CoreError
  | .sasMismatch => .sasMismatch
  | .invalidServer => .invalidInput PairingError.invalidServer.toText
  | .invalidCode => .invalidInput PairingError.invalidCode.toText
  | error => .internal error.toText

end CoreError

/-- The commands of the dispatcher. -/
inductive CoreCommand where
  | send (content : ClipContent) (tsMs : Int64)
  | history
  | historyImage (id : Uuid)
  | historyApply (id : Uuid)
  | historyClear
  | isEcho (hash : String)
  | connect (record : PairingRecord)
  | disconnect

abbrev CoreCommand.Reply : CoreCommand → Type
  | .send .. => Except CoreError UInt64
  | .history => Except CoreError (List HistoryItem)
  | .historyImage _ => Except CoreError Bytes
  | .historyApply _ | .historyClear => Except CoreError Unit
  | .isEcho _ => Bool
  | .connect _ | .disconnect => Unit

inductive TrySendError where
  | full
  | closed
deriving DecidableEq

/-! ## The state -/

/-- The phase of a pairing. The place where the channel to the peer is put and the task
that waits for the peer are named by the call that has made them. -/
inductive PairingPhase where
  | unpaired
  | busy
  | offering (qrJson : String) (wait : ℕ)
  | sasReady (sas : String) (channel : ℕ)
  | paired (record : PairingRecord)
deriving DecidableEq

/-- A running dispatcher and the phase. -/
structure Active where
  dispatcher : ℕ
  phase : PairingPhase
deriving DecidableEq

inductive HandleState where
  | active (active : Active)
  | transitioning
  | shutdown
deriving DecidableEq

/-- What a call does. `state` is one access under the lock, with the state it has found as
its result; `offer`, `claim`, `confirmPair` and `join` are the operations that wait for the
relay, with the timeout among their errors. Errors of the stores come with their text. -/
inductive HandleOp where
  | state (update : HandleState → HandleState)
  | emit (status : CoreStatus)
  | nowMs
  | pairingStore
  | loadPairing
  | loadIdentity
  | sessionStore
  | historyStore
  | newSession (record : PairingRecord)
  | resetPairingState
  | offer (serverUrl : String)
  | claim (qr : QrPayload)
  | confirmPair (channel : PendingConfirmation) (sas : String)
  | join
  | qrToJson (qr : QrPayload)
  | spawnWait (wait : ℕ)
  | abortWait (wait : ℕ)
  | waitPeer
  | putChannel (slot : ℕ) (channel : PendingConfirmation)
  | takeChannel (slot : ℕ)
  | spawnActive
  | trySend (dispatcher : ℕ) (command : CoreCommand)
  | recv (command : CoreCommand)
  | sleep
  | joined (dispatcher : ℕ)
  | stopped (dispatcher : ℕ)
  | shutdownRuntime (dispatcher : ℕ)

abbrev HandleOp.Res : HandleOp → Type
  | .state _ => HandleState
  | .nowMs => Int64
  | .pairingStore => Except PairingError Unit
  | .loadPairing => Except PairingError (Option PairingRecord)
  | .loadIdentity => Except PairingError Identity
  | .sessionStore | .historyStore | .newSession _ => Except String Unit
  | .resetPairingState => Except PairingError Unit
  | .offer _ => Except CoreError QrPayload
  | .claim _ => Except CoreError PendingConfirmation
  | .confirmPair .. | .join => Except CoreError PairingRecord
  | .qrToJson _ => Except PairingError String
  | .waitPeer => Except String PendingConfirmation
  | .takeChannel _ => Option PendingConfirmation
  | .spawnActive => Except CoreError ℕ
  | .trySend .. => Except TrySendError Unit
  | .recv command => Option command.Reply
  | .joined _ | .stopped _ => Bool
  | .emit _ | .spawnWait _ | .abortWait _ | .putChannel .. | .sleep | .shutdownRuntime _ => Unit

abbrev HandleProgram := Program HandleOp HandleOp.Res

/-- What the calls use of other crates, and how they read texts of the host. -/
structure HandleCrates where
  prim : Primitives
  debugAssertions : Bool
  parseQr : String → Except PairingError QrPayload
  parseUuid : String → Except String Uuid

namespace CoreHandle

def access (op : HandleOp) : HandleProgram op.Res := perform op

/-! ## Access to the state -/

/-- The state after `f` was run on the dispatcher, if there is one. -/
def onActive (f : Active → Active) : HandleState → HandleState
  | .active active => .active (f active)
  | state => state

def withActive {R : Type} (f : Active → Except CoreError R × Active) :
    HandleProgram (Except CoreError R) := do
  match ← access (.state (onActive fun active => (f active).2)) with
  | .active active => return (f active).1
  | .transitioning => return .error .busy
  | .shutdown => return .error .shutdown

def setPhase (phase : PairingPhase) : HandleProgram (Except CoreError Unit) :=
  withActive fun active => (.ok (), { active with phase := phase })

/-- The dispatcher is taken out, if there is one. -/
def takeState : HandleState → HandleState
  | .shutdown => .shutdown
  | _ => .transitioning

def takeActive : HandleProgram (Except CoreError Active) := do
  match ← access (.state takeState) with
  | .active active => return .ok active
  | .transitioning => return .error .busy
  | .shutdown => return .error .shutdown

def emit (status : CoreStatus) : HandleProgram Unit := access (.emit status)

def beginPhaseTransition : HandleProgram (Except CoreError Unit) :=
  withActive fun active =>
    if active.phase = .unpaired then (.ok (), { active with phase := .busy })
    else (.error .busy, active)

def abortedPhase (active : Active) : Active :=
  if active.phase = .busy then { active with phase := .unpaired } else active

def abortPhaseTransition (error : CoreError) : HandleProgram Unit := do
  let _ ← access (.state (onActive abortedPhase))
  emit (.error error.toText)

def pairingStore : HandleProgram (Except CoreError Unit) := do
  return (← access .pairingStore).mapError .fromPairing

/-! ## Commands -/

def tryCommand (command : CoreCommand) : HandleProgram (Except CoreError Unit) := do
  match ← withActive fun active => (.ok active.dispatcher, active) with
  | .error error => return .error error
  | .ok dispatcher =>
  match ← access (.trySend dispatcher command) with
  | .ok () => return .ok ()
  | .error .full => return .error .queueFull
  | .error .closed => return .error .shutdown

/-- A command is queued and its reply awaited. -/
def ask (command : CoreCommand) : HandleProgram (Except CoreError command.Reply) := do
  match ← tryCommand command with
  | .error error => return .error error
  | .ok () =>
  match ← access (.recv command) with
  | none => return .error (.internal "dispatcher stopped")
  | some reply => return .ok reply

def enqueueSend (content : ClipContent) : HandleProgram (Except CoreError UInt64) := do
  let tsMs ← access .nowMs
  return (← ask (.send content tsMs)).bind id

def sendText (text : String) : HandleProgram (Except CoreError UInt64) :=
  enqueueSend (.text text)

def sendImage (bytes : Bytes) : HandleProgram (Except CoreError UInt64) :=
  enqueueSend (.image bytes)

def history : HandleProgram (Except CoreError (List HistoryItem)) := do
  return (← ask .history).bind id

def historyClear : HandleProgram (Except CoreError Unit) := do
  return (← ask .historyClear).bind id

def isEcho (hash : String) : HandleProgram Bool := do
  match ← ask (.isEcho hash) with
  | .error _ => return false
  | .ok echo => return echo

/-! ## Connecting -/

def buildConnection (record : PairingRecord) : HandleProgram (Except CoreError Unit) := do
  match ← pairingStore with
  | .error error => return .error error
  | .ok () =>
  match ← access .loadIdentity with
  | .error error => return .error (.fromPairing error)
  | .ok _ =>
  match ← access .sessionStore with
  | .error message => return .error (.internal message)
  | .ok () =>
  match ← access .historyStore with
  | .error message => return .error (.internal message)
  | .ok () =>
  match ← access (.newSession record) with
  | .error message => return .error (.internal message)
  | .ok () => return .ok ()

def activateConnection (record : PairingRecord) : HandleProgram (Except CoreError Unit) := do
  match ← buildConnection record with
  | .error error => return .error error
  | .ok () =>
  match ← tryCommand (.connect record) with
  | .error error => return .error error
  | .ok () =>
  match ← access (.recv (.connect record)) with
  | none => return .error (.internal "dispatcher did not accept the connection")
  | some () => setPhase (.paired record)

def start : HandleProgram (Except CoreError Unit) := do
  emit .connecting
  let found ← withActive fun active =>
    match active.phase with
    | .paired record => (.ok record, { active with phase := .busy })
    | .unpaired => (.error .notPaired, active)
    | _ => (.error .busy, active)
  match found with
  | .error error => return .error error
  | .ok record =>
  match ← pairingStore with
  | .error error => return .error error
  | .ok () =>
  match ← access .join with
  | .ok record => activateConnection record
  | .error error => do
    match ← setPhase (.paired record) with
    | .error error => return .error error
    | .ok () => do
      emit (.error error.toText)
      return .error error

/-! ## Pairing -/

section Pairing

variable (crates : HandleCrates)

/-- `wait` names the call, its task and the place of its channel. -/
def pairBegin (wait : ℕ) (serverUrl : String) : HandleProgram (Except CoreError String) := do
  if validateServer crates.debugAssertions serverUrl = false then
    return .error (.invalidInput PairingError.invalidServer.toText)
  match ← pairingStore with
  | .error error => return .error error
  | .ok () =>
  match ← beginPhaseTransition with
  | .error error => return .error error
  | .ok () =>
  match ← access (.offer serverUrl) with
  | .error error => do
    abortPhaseTransition error
    return .error error
  | .ok qr =>
  match ← access (.qrToJson qr) with
  | .error error => return .error (.fromPairing error)
  | .ok qrJson => do
  access (.spawnWait wait)
  match ← setPhase (.offering qrJson wait) with
  | .error error => return .error error
  | .ok () => do
  emit .offering
  return .ok qrJson

def pairClaim (slot : ℕ) (qrPayload : String) : HandleProgram (Except CoreError String) := do
  match crates.parseQr qrPayload with
  | .error error => return .error (.invalidInput error.toText)
  | .ok qr =>
  match ← pairingStore with
  | .error error => return .error error
  | .ok () =>
  match ← beginPhaseTransition with
  | .error error => return .error error
  | .ok () =>
  match ← access (.claim qr) with
  | .error error => do
    abortPhaseTransition error
    return .error error
  | .ok channel => do
  access (.putChannel slot channel)
  match ← setPhase (.sasReady (channel.sas crates.prim) slot) with
  | .error error => return .error error
  | .ok () => do
  emit .sasReady
  return .ok (channel.sas crates.prim)

/-- The task of an offer. It announces the peer only if the offer is still the phase. -/
def waitForPeer (wait : ℕ) : HandleProgram Unit := do
  match ← access .waitPeer with
  | .ok channel => do
    access (.putChannel wait channel)
    let announced ← withActive fun active =>
      match active.phase with
      | .offering _ slot =>
        if slot = wait then
          (.ok (), { active with phase := .sasReady (channel.sas crates.prim) wait })
        else (.ok (), active)
      | _ => (.ok (), active)
    match announced with
    | .ok () => emit .sasReady
    | .error _ => return ()
  | .error message => do
    let stillOffering ← withActive fun active =>
      match active.phase with
      | .offering _ slot =>
        if slot = wait then (.ok true, { active with phase := .unpaired })
        else (.ok false, active)
      | _ => (.ok false, active)
    match stillOffering with
    | .ok true => emit (.error message)
    | _ => return ()

def pairPoll : HandleProgram PairingSnapshot := do
  match ← access (.state id) with
  | .active active =>
    match active.phase with
    | .unpaired | .busy => return .unpaired
    | .offering qrJson _ => return .offering qrJson
    | .sasReady sas _ => return .sasReady sas
    | .paired record => return .paired record.roomId
  | _ => return .unpaired

def pairConfirm (sas : String) : HandleProgram (Except CoreError Unit) := do
  let found ← withActive fun active =>
    match active.phase with
    | .sasReady _ channel => (.ok channel, { active with phase := .busy })
    | _ => (.error .busy, active)
  match found with
  | .error error => return .error error
  | .ok slot =>
  match ← access (.takeChannel slot) with
  | none => return .error .busy
  | some channel =>
  match ← pairingStore with
  | .error error => return .error error
  | .ok () =>
  match ← access (.confirmPair channel sas) with
  | .ok record => activateConnection record
  | .error error => do
    abortPhaseTransition error
    return .error error

def pairCancel : HandleProgram (Except CoreError Unit) := do
  let found ← access (.state (onActive fun active =>
    match active.phase with
    | .offering .. | .sasReady .. => { active with phase := .unpaired }
    | _ => active))
  match found with
  | .transitioning => return .error .busy
  | .shutdown => return .error .shutdown
  | .active active =>
    match active.phase with
    | .offering _ wait => do
      access (.abortWait wait)
      emit .readyUnpaired
      return .ok ()
    | .sasReady .. => do
      emit .readyUnpaired
      return .ok ()
    | _ => return .ok ()

def pairLoad : HandleProgram (Except CoreError Bool) := do
  match ← pairingStore with
  | .error error => return .error error
  | .ok () =>
  match ← access .loadPairing with
  | .error error => return .error (.fromPairing error)
  | .ok record =>
  withActive fun active =>
    match active.phase, record with
    | .paired _, _ => (.ok true, active)
    | .unpaired, some record => (.ok true, { active with phase := .paired record })
    | .unpaired, none => (.ok false, active)
    | _, some _ => (.error .busy, active)
    | _, none => (.ok false, active)

def historyImageBytes (id : String) : HandleProgram (Except CoreError Bytes) := do
  match crates.parseUuid id with
  | .error message => return .error (.invalidInput message)
  | .ok id => return (← ask (.historyImage id)).bind fun result => result

def historyApply (id : String) : HandleProgram (Except CoreError Unit) := do
  match crates.parseUuid id with
  | .error message => return .error (.invalidInput message)
  | .ok id => return (← ask (.historyApply id)).bind fun result => result

end Pairing

/-! ## Stopping -/

/-- The command to disconnect is tried a number of times while the queue is full. -/
def sendDisconnect (dispatcher : ℕ) : ℕ → HandleProgram Bool
  | 0 => return false
  | attempts + 1 => do
    match ← access (.trySend dispatcher .disconnect) with
    | .ok () => return true
    | .error .full => do
      access .sleep
      sendDisconnect dispatcher attempts
    | .error .closed => return false

def abortOffer : PairingPhase → HandleProgram Unit
  | .offering _ wait => access (.abortWait wait)
  | _ => return ()

def awaitDisconnect : Bool → HandleProgram Unit
  | true => do
    let _ ← access (.recv .disconnect)
  | false => return ()

def joinDispatcher (dispatcher : ℕ) : HandleProgram (Except CoreError Unit) := do
  match ← access (.joined dispatcher) with
  | false => return .error (.internal "dispatcher did not stop within the join timeout")
  | true =>
  match ← access (.stopped dispatcher) with
  | false => return .error (.internal "dispatcher exited without signalling completion")
  | true => do
  access (.shutdownRuntime dispatcher)
  return .ok ()

def stopActive (active : Active) : HandleProgram (Except CoreError Unit) := do
  abortOffer active.phase
  let sent ← sendDisconnect active.dispatcher 100
  awaitDisconnect sent
  joinDispatcher active.dispatcher

def resetState : HandleProgram (Except CoreError Unit) := do
  match ← pairingStore with
  | .error error => return .error error
  | .ok () => return (← access .resetPairingState).mapError .fromPairing

/-- Whatever happened, a new dispatcher is installed. -/
def resetPairing : HandleProgram (Except CoreError Unit) := do
  match ← takeActive with
  | .error error => return .error error
  | .ok active =>
  let stopResult ← stopActive active
  let resetResult ← resetState
  match ← access .spawnActive with
  | .ok dispatcher => do
    let _ ← access (.state fun _ => .active ⟨dispatcher, .unpaired⟩)
    emit .readyUnpaired
    return stopResult.bind fun () => resetResult
  | .error error => do
    let _ ← access (.state fun _ => .shutdown)
    return .error error

def shutdown : HandleProgram (Except CoreError Unit) := do
  match ← takeActive with
  | .error error => return .error error
  | .ok active =>
  match ← stopActive active with
  | .error error => return .error error
  | .ok () => do
    let _ ← access (.state fun _ => .shutdown)
    return .ok ()

end CoreHandle

/-- The public calls. -/
inductive HandleCall where
  | pairBegin (serverUrl : String)
  | pairClaim (qrPayload : String)
  | pairPoll
  | pairConfirm (sas : String)
  | pairCancel
  | pairLoad
  | start
  | sendText (text : String)
  | sendImage (bytes : Bytes)
  | history
  | historyImageBytes (id : String)
  | historyApply (id : String)
  | historyClear
  | isEcho (hash : String)
  | resetPairing
  | shutdown

namespace HandleCall

abbrev Value : HandleCall → Type
  | .pairBegin _ | .pairClaim _ => Except CoreError String
  | .pairPoll => PairingSnapshot
  | .pairLoad => Except CoreError Bool
  | .sendText _ | .sendImage _ => Except CoreError UInt64
  | .history => Except CoreError (List HistoryItem)
  | .historyImageBytes _ => Except CoreError Bytes
  | .isEcho _ => Bool
  | .pairConfirm _ | .pairCancel | .start | .historyApply _ | .historyClear | .resetPairing
  | .shutdown => Except CoreError Unit

/-- The program of the call with a number. -/
def program (crates : HandleCrates) (n : ℕ) : (c : HandleCall) → HandleProgram c.Value
  | .pairBegin serverUrl => CoreHandle.pairBegin crates n serverUrl
  | .pairClaim qrPayload => CoreHandle.pairClaim crates n qrPayload
  | .pairPoll => CoreHandle.pairPoll
  | .pairConfirm sas => CoreHandle.pairConfirm sas
  | .pairCancel => CoreHandle.pairCancel
  | .pairLoad => CoreHandle.pairLoad
  | .start => CoreHandle.start
  | .sendText text => CoreHandle.sendText text
  | .sendImage bytes => CoreHandle.sendImage bytes
  | .history => CoreHandle.history
  | .historyImageBytes id => CoreHandle.historyImageBytes crates id
  | .historyApply id => CoreHandle.historyApply crates id
  | .historyClear => CoreHandle.historyClear
  | .isEcho hash => CoreHandle.isEcho hash
  | .resetPairing => CoreHandle.resetPairing
  | .shutdown => CoreHandle.shutdown

end HandleCall

end ClipSync
