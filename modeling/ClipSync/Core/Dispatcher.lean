import ClipSync.Core.Binding
import ClipSync.Core.Handle

/-!
# The dispatcher of an endpoint

`run_dispatcher` of `crates/core/src/ffi.rs` with the live link of
`crates/core/src/pairing_client.rs`. The dispatcher takes commands from its queue and events
from its connection, whichever comes first. While it waits for an event, a command that
becomes ready ends the waiting wherever it has got to: a new connection that is only half
joined is dropped, and the waiting starts again after the command.
-/

namespace ClipSync

open Lib Program

/-! ## What the dispatcher does -/

/-- The errors of the transport. The text of a protocol error is not looked at. -/
inductive TransportError where
  | pairing (error : PairingError)
  | joinFieldTooLong
  | protocol (message : String)
  | webSocket (message : String)
  | server (code message : String)
  | notPaired
  | closed

namespace TransportError

def toText : TransportError → String
  | .pairing _ | .joinFieldTooLong => "pairing state failed"
  | .protocol _ => "protocol failed"
  | .webSocket message => "relay websocket failed: " ++ message
  | .server code message => "relay rejected the request (" ++ code ++ "): " ++ message
  | .notPaired => "no durable pairing record exists"
  | .closed => "relay closed the websocket"

/-- The failures after which joining is tried again. -/
def transient : TransportError → Bool
  | .closed | .webSocket _ => true
  | _ => false

end TransportError

def CoreError.fromTransport : TransportError → CoreError
  | .pairing .sasMismatch => .sasMismatch
  | error => .transport error.toText

/-- A connection after its bootstrap frame. -/
structure LiveLink where
  identity : Identity
  record : PairingRecord
  socket : ℕ
  bootstrapClip : Option (String × String)
deriving DecidableEq

inductive LiveEvent where
  | frame (frame : Frame)
  | reconnected (bootstrapClip : Option (String × String))

/-- The commands of the queue. `query` stands for those that read or change the history. -/
inductive DispatcherCommand where
  | send (content : ClipContent) (tsMs : Int64)
  | query (command : CoreCommand)
  | connect (fresh : LiveLink)
  | disconnect

/-- The ways in which a connection becomes the one of the dispatcher. -/
inductive Joining where
  | connect
  | rejoin
  | send
deriving DecidableEq

/-- The operations of the dispatcher. `pollCommand` looks for a command while the connection is
waited for, and `dropFuture` drops that waiting. `adopt` marks the point from which on a joined
connection is used; it does nothing. `diverge` stands for the rest of an attempt that goes on
longer than what is looked at. -/
inductive DispatcherOp where
  | recvCommand
  | pollCommand
  | dropFuture
  | adopt (way : Joining) (bootstrapClip : Option (String × String))
  | emit (status : CoreStatus)
  | handleClip (roomId ciphertextB64 : String) (mailbox : Bool)
  | nextSeq
  | sendClip (content : ClipContent) (tsMs : Int64)
  | answer (command : CoreCommand)
  | reply
  | loadPairing
  | loadIdentity
  | connect (server : String)
  | send (socket : ℕ) (frame : Frame)
  | receive (socket : ℕ)
  | close (socket : ℕ)
  | sleep (attempt : ℕ)
  | diverge

abbrev DispatcherOp.Res : DispatcherOp → Type
  | .recvCommand => Option DispatcherCommand
  | .pollCommand => Option (Option DispatcherCommand)
  | .handleClip .. => Except String Unit
  | .nextSeq => UInt64
  | .sendClip .. => Except String (String × String)
  | .loadPairing => Except PairingError (Option PairingRecord)
  | .loadIdentity => Except PairingError Identity
  | .connect _ => Except TransportError ℕ
  | .send .. | .close _ => Except TransportError Unit
  | .receive _ => Except TransportError Frame
  | .diverge => Empty
  | .dropFuture | .adopt .. | .emit _ | .answer _ | .reply | .sleep _ => Unit

abbrev DispatcherProgram := Program DispatcherOp DispatcherOp.Res

/-- The operations that are waited for. -/
def DispatcherOp.awaits : DispatcherOp → Bool
  | .recvCommand | .pollCommand | .connect _ | .send .. | .receive _ | .close _ | .sleep _
  | .diverge => true
  | .dropFuture | .adopt .. | .emit _ | .handleClip .. | .nextSeq | .sendClip .. | .answer _
  | .reply | .loadPairing | .loadIdentity => false

/-- What the link uses of other crates. -/
structure LinkCrates where
  prim : Primitives
  sign : Identity → Bytes → Bytes
  debug : Frame → String

namespace Dispatcher

def access (op : DispatcherOp) : DispatcherProgram op.Res := perform op

variable (crates : LinkCrates)

/-! ## The link -/

def unexpected (expected : String) (actual : Frame) : TransportError :=
  .protocol ("expected " ++ expected ++ ", received " ++ crates.debug actual)

def decodeChallenge (encoded : String) : Except TransportError Bytes :=
  match Base64.decode encoded with
  | none => .error (.protocol "hello_ok nonce is not base64")
  | some bytes =>
    if bytes.length = 32 then .ok bytes
    else .error (.protocol "hello_ok nonce must be 32 bytes")

def handshake (identity : Identity) (socket : ℕ) :
    DispatcherProgram (Except TransportError Bytes) := do
  let bundle := identity.publicBundle crates.prim
  match ← access (.send socket (.hello (deviceId crates.prim bundle.signPk) bundle
      protocolVersion)) with
  | .error error => return .error error
  | .ok () =>
  match ← access (.receive socket) with
  | .error error => return .error error
  | .ok (.helloOk serverVersion nonceB64) =>
    if serverVersion = protocolVersion then return decodeChallenge nonceB64
    else return .error (unexpected crates "hello_ok" (.helloOk serverVersion nonceB64))
  | .ok (.error code message) => return .error (.server code message)
  | .ok frame => return .error (unexpected crates "hello_ok" frame)

/-- The frame after `join_ok` is the bootstrap. -/
def receiveBootstrap (socket : ℕ) :
    DispatcherProgram (Except TransportError (Option (String × String))) := do
  match ← access (.receive socket) with
  | .error error => return .error error
  | .ok .mailboxEmpty => return .ok none
  | .ok (.clip roomId ciphertextB64 _ true) => return .ok (some (roomId, ciphertextB64))
  | .ok (.error code message) => return .error (.server code message)
  | .ok frame => return .error (unexpected crates "bootstrap" frame)

/-- The relay's answer to a `join`. -/
def receiveJoinOk (identity : Identity) (record : PairingRecord) (socket : ℕ) :
    DispatcherProgram (Except TransportError LiveLink) := do
  match ← access (.receive socket) with
  | .error error => return .error error
  | .ok (.error code message) => return .error (.server code message)
  | .ok .joinOk => do
    match ← receiveBootstrap crates socket with
    | .error error => return .error error
    | .ok bootstrapClip => return .ok ⟨identity, record, socket, bootstrapClip⟩
  | .ok frame => return .error (unexpected crates "join_ok" frame)

def joinLive (identity : Identity) (record : PairingRecord) (challenge : Bytes) (socket : ℕ) :
    DispatcherProgram (Except TransportError LiveLink) := do
  let bundle := identity.publicBundle crates.prim
  let device := deviceId crates.prim bundle.signPk
  match joinSigMsg challenge record.roomId device (bundleBytes bundle) with
  | none => return .error .joinFieldTooLong
  | some message =>
  match ← access (.send socket (.join record.roomId device bundle
      (Base64.encode (crates.sign identity message)))) with
  | .error error => return .error error
  | .ok () => receiveJoinOk crates identity record socket

/-- `PairingClient::join`. -/
def join : DispatcherProgram (Except TransportError LiveLink) := do
  match ← access .loadPairing with
  | .error error => return .error (.pairing error)
  | .ok none => return .error .notPaired
  | .ok (some record) =>
  match ← access .loadIdentity with
  | .error error => return .error (.pairing error)
  | .ok identity =>
  match ← access (.connect record.server) with
  | .error error => return .error error
  | .ok socket =>
  match ← handshake crates identity socket with
  | .error error => return .error error
  | .ok challenge => joinLive crates identity record challenge socket

/-- Joins until it succeeds or fails for good, for a number of attempts. -/
def reconnect (way : Joining) : ℕ → ℕ → DispatcherProgram (Except TransportError LiveLink)
  | 0, _ => do
    let never ← access .diverge
    return never.elim
  | fuel + 1, attempt => do
    match ← join crates with
    | .ok link => do
      access (.adopt way link.bootstrapClip)
      return .ok link
    | .error error =>
      if error.transient then do
        access (.sleep attempt)
        reconnect way fuel (attempt + 1)
      else return .error error

def recv (link : LiveLink) : DispatcherProgram (Except TransportError Frame) := do
  match ← access (.receive link.socket) with
  | .error error => return .error error
  | .ok (.clip roomId ciphertextB64 originDevice false) =>
    return .ok (.clip roomId ciphertextB64 originDevice false)
  | .ok (.error code message) => return .error (.server code message)
  | .ok frame => return .error (unexpected crates "live clip" frame)

/-- The event, and the link it leaves. -/
def recvReconnecting (fuel : ℕ) (link : LiveLink) :
    DispatcherProgram (Except TransportError (LiveEvent × LiveLink)) := do
  match ← recv crates link with
  | .ok frame => return .ok (.frame frame, link)
  | .error error =>
    if error.transient then do
      match ← reconnect crates .rejoin fuel 0 with
      | .ok fresh => return .ok (.reconnected fresh.bootstrapClip, fresh)
      | .error error => return .error error
    else return .error error

/-- `tokio::select!` between a program and the queue: wherever the program waits a command may be
ready, and then the program is dropped. -/
def racing {α : Type} : DispatcherProgram α → DispatcherProgram (α ⊕ Option DispatcherCommand)
  | done a => done (.inl a)
  | call op k =>
    if op.awaits then
      call .pollCommand fun ready =>
        match ready with
        | some command => call .dropFuture fun _ => done (.inr command)
        | none => call op fun r => racing (k r)
    else call op fun r => racing (k r)

/-! ## Commands and events -/

def emit (status : CoreStatus) : DispatcherProgram Unit := access (.emit status)

def closeConnection (link : LiveLink) : DispatcherProgram Unit := do
  let _ ← access (.close link.socket)
  emit .disconnected

def handleInboundClip (roomId ciphertextB64 : String) (mailbox : Bool) :
    DispatcherProgram Unit := do
  match ← access (.handleClip roomId ciphertextB64 mailbox) with
  | .ok () => return ()
  | .error message => emit (.error message)

def handleBootstrap : Option (String × String) → DispatcherProgram Unit
  | none => return ()
  | some (roomId, ciphertextB64) => handleInboundClip roomId ciphertextB64 true

/-- The result of a send, and the link it leaves. -/
def sendOverConnection (fuel : ℕ) (link : LiveLink) (content : ClipContent) (tsMs : Int64) :
    DispatcherProgram (Except CoreError UInt64 × LiveLink) := do
  let seq ← access .nextSeq
  match ← access (.sendClip content tsMs) with
  | .error message => return (.error (.internal message), link)
  | .ok (roomId, ciphertextB64) =>
  let frame := .clip roomId ciphertextB64 "" false
  match ← access (.send link.socket frame) with
  | .ok () => return (.ok seq, link)
  | .error error =>
    if error.transient then do
      emit .reconnecting
      match ← reconnect crates .send fuel 0 with
      | .error error => return (.error (.fromTransport error), link)
      | .ok fresh => do
        handleBootstrap fresh.bootstrapClip
        emit .connected
        match ← access (.send fresh.socket frame) with
        | .error error => return (.error (.fromTransport error), fresh)
        | .ok () => return (.ok seq, fresh)
    else return (.error (.fromTransport error), link)

/-- A clip is passed on, and a connection that was joined again is reported before its
bootstrap clip is handled. -/
def handleLiveEvent : LiveEvent → DispatcherProgram Unit
  | .frame (.clip roomId ciphertextB64 _ mailbox) => handleInboundClip roomId ciphertextB64 mailbox
  | .frame _ => return ()
  | .reconnected bootstrapClip => do
    emit .connected
    handleBootstrap bootstrapClip

def closePrevious : Option LiveLink → DispatcherProgram Unit
  | some link => closeConnection link
  | none => return ()

/-- The connection after a command. -/
def handleCommand (fuel : ℕ) (connection : Option LiveLink) :
    DispatcherCommand → DispatcherProgram (Option LiveLink)
  | .disconnect => do
    closePrevious connection
    access .reply
    return none
  | .send content tsMs =>
    match connection with
    | none => do
      access .reply
      return none
    | some link => do
      let (_, link) ← sendOverConnection crates fuel link content tsMs
      access .reply
      return some link
  | .query command => do
    access (.answer command)
    access .reply
    return connection
  | .connect fresh => do
    closePrevious connection
    access (.adopt .connect fresh.bootstrapClip)
    handleBootstrap fresh.bootstrapClip
    access .reply
    emit .connected
    return some fresh

/-- One turn of the loop, with the connection it leaves, or nothing when the queue is closed. -/
def turn (fuel : ℕ) : Option LiveLink → DispatcherProgram (Option (Option LiveLink))
  | none => do
    match ← access .recvCommand with
    | none => return none
    | some command => return some (← handleCommand crates fuel none command)
  | some link => do
    match ← racing (recvReconnecting crates fuel link) with
    | .inr none => return none
    | .inr (some command) => return some (← handleCommand crates fuel (some link) command)
    | .inl (.ok (event, link)) => do
      handleLiveEvent event
      return some (some link)
    | .inl (.error _) => do
      closeConnection link
      emit .disconnected
      return some none

/-! ## The operations of the link -/

section Operations

variable {crates : LinkCrates} {P : DispatcherOp → Prop} {socket : ℕ}

theorem allOps_handshake {identity : Identity}
    (hhello : ∀ device bundle version, P (.send socket (.hello device bundle version)))
    (hreceive : P (.receive socket)) : (handshake crates identity socket).AllOps P := by
  refine ⟨hhello _ _ _, ?_⟩
  rintro (_ | _)
  · trivial
  refine ⟨hreceive, ?_⟩
  rintro (_ | frame)
  · trivial
  cases frame with
  | helloOk serverVersion nonceB64 =>
    simp only [Program.bind]
    split
    · trivial
    · trivial
  | _ => trivial

theorem allOps_receiveBootstrap (hreceive : P (.receive socket)) :
    (receiveBootstrap crates socket).AllOps P := by
  refine ⟨hreceive, ?_⟩
  rintro (_ | frame)
  · trivial
  cases frame with
  | clip roomId ciphertextB64 originDevice mailbox => cases mailbox <;> trivial
  | _ => trivial

theorem allOps_receiveJoinOk {identity : Identity} {record : PairingRecord}
    (hreceive : P (.receive socket)) : (receiveJoinOk crates identity record socket).AllOps P := by
  refine ⟨hreceive, ?_⟩
  rintro (_ | frame)
  · trivial
  cases frame with
  | joinOk =>
    refine allOps_bind (p := receiveBootstrap crates socket)
      (allOps_receiveBootstrap hreceive) ?_
    rintro (_ | _)
    · trivial
    · trivial
  | _ => trivial

theorem allOps_recv {link : LiveLink} (hreceive : P (.receive link.socket)) :
    (recv crates link).AllOps P := by
  refine ⟨hreceive, ?_⟩
  rintro (_ | frame)
  · trivial
  cases frame with
  | clip roomId ciphertextB64 originDevice mailbox => cases mailbox <;> trivial
  | _ => trivial

end Operations

end Dispatcher

namespace LinkSample

def crates : LinkCrates := ⟨.sample, fun _ _ => [], fun _ => ""⟩

def identity : Identity := ⟨.replicate 32 0, .replicate 32 0, 1⟩

def record : PairingRecord :=
  ⟨1, "wss://relay", "room", "local", ⟨.replicate 32 0, .replicate 32 0⟩, "peer"⟩

def challenge : Bytes := .replicate 32 0

def helloOk : Frame := .helloOk protocolVersion (Base64.encode challenge)

def join : Frame :=
  .join record.roomId (deviceId crates.prim (identity.publicBundle crates.prim).signPk)
    (identity.publicBundle crates.prim) (Base64.encode [])

end LinkSample

end ClipSync
