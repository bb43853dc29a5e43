import ClipSync.Server.Room

/-!
# The room table

`Rooms`, `RoomHandle` and the loop of `RoomActor` of `crates/server/src/room.rs`. The
table maps a room to the handle of its actor. A handle is copied out of the table
before an event is sent through it, so events can still reach an actor that has
already left the table. The functions are programs over the single accesses to the
table and to the inboxes.
-/

namespace ClipSync

open Lib Program

/-- The sending half of an actor's inbox; the id is the actor's. -/
structure RoomHandle where
  id : ℕ
  maxBytes : ℕ
deriving DecidableEq

/-- The accesses of the room functions. `entry` finds the handle of a room or locks
the vacant entry until `vacantInsert` fills it with a new actor. `recv` is told who
is online, which only matters to what is remembered of a run; `dropReceiver` closes
an inbox and discards what is in it. -/
inductive RoomsOp where
  | entry (roomId : String)
  | loadPending (roomId : String)
  | vacantInsert (roomId : String) (actor : RoomActor)
  | get (roomId : String)
  | removeIf (roomId : String) (id : ℕ)
  | fetchAdd (id size : ℕ)
  | fetchSub (id size : ℕ)
  | trySend (id : ℕ) (event : RoomEvent)
  | isClosed (id : ℕ)
  | recv (id : ℕ) (online : HashMap String OnlineMember)
  | dropReceiver (id : ℕ)
  | room (op : RoomOp)

abbrev RoomsOp.Res : RoomsOp → Type
  | .entry _ | .get _ => Option RoomHandle
  | .loadPending _ => List (String × PendingClip)
  | .vacantInsert .. => RoomHandle
  | .fetchAdd .. => ℕ
  | .trySend .. | .isClosed _ => Bool
  | .recv .. => RoomEvent
  | .removeIf .. | .fetchSub .. | .dropReceiver _ => Unit
  | .room op => op.Res

abbrev RoomsProgram := Program RoomsOp RoomsOp.Res

namespace RoomHandle

def fetchAdd (self : RoomHandle) (size : ℕ) : RoomsProgram ℕ :=
  perform (RoomsOp.fetchAdd self.id size)

def fetchSub (self : RoomHandle) (size : ℕ) : RoomsProgram Unit :=
  perform (RoomsOp.fetchSub self.id size)

def isClosed (self : RoomHandle) : RoomsProgram Bool := perform (RoomsOp.isClosed self.id)

def recv (self : RoomHandle) (online : HashMap String OnlineMember) : RoomsProgram RoomEvent :=
  perform (RoomsOp.recv self.id online)

def dropReceiver (self : RoomHandle) : RoomsProgram Unit :=
  perform (RoomsOp.dropReceiver self.id)

/-- Enqueues an event, or gives it back. -/
def trySend (self : RoomHandle) (event : RoomEvent) :
    RoomsProgram (Except RoomEvent Unit) := do
  let size := event.payloadSize
  let previous ← self.fetchAdd size
  if previous + size > self.maxBytes then
    self.fetchSub size
    return .error event
  if ← perform (RoomsOp.trySend self.id event) then
    return .ok ()
  self.fetchSub size
  return .error event

end RoomHandle

namespace Rooms

def get (roomId : String) : RoomsProgram (Option RoomHandle) := perform (RoomsOp.get roomId)

def removeIf (roomId : String) (handle : RoomHandle) : RoomsProgram Unit :=
  perform (RoomsOp.removeIf roomId handle.id)

def entry (roomId : String) : RoomsProgram (Option RoomHandle) :=
  perform (RoomsOp.entry roomId)

/-- A new actor, with the clips the mailbox has kept for the room. -/
def spawn (roomId : String) (memberFps : List String) : RoomsProgram RoomHandle := do
  let pending ← perform (RoomsOp.loadPending roomId)
  perform (RoomsOp.vacantInsert roomId (.new roomId memberFps pending))

def entryOrSpawn (roomId : String) (memberFps : List String) : RoomsProgram RoomHandle := do
  match ← entry roomId with
  | some handle => return handle
  | none => spawn roomId memberFps

/-- At most `attempts` tries to hand an event to the actor of a room. Only an inbox
that is closed is tried again, with a new actor. -/
def joinLoop (roomId : String) (memberFps : List String) (event : RoomEvent) :
    ℕ → RoomsProgram (Except RoomEvent Unit)
  | 0 => return .error event
  | attempts + 1 => do
    let handle ← entryOrSpawn roomId memberFps
    match ← handle.trySend event with
    | .ok () => return .ok ()
    | .error event =>
      if ← handle.isClosed then
        removeIf roomId handle
        joinLoop roomId memberFps event attempts
      else return .error event

/-- Routes a join to the actor of the room, spawning it on first use. -/
def join (roomId : String) (memberFps : List String) (fp deviceId : String)
    (connectionId : ConnectionId) (outbox : OutboxHandle) :
    RoomsProgram (Except RoomEvent Unit) :=
  joinLoop roomId memberFps (.join fp deviceId connectionId outbox) 2

/-- Routes a clip from a joined connection. -/
def clip (roomId senderFp : String) (connectionId : ConnectionId) (ciphertextB64 : String)
    (encodedSize : ℕ) : RoomsProgram (Except RoomEvent Unit) := do
  let event := RoomEvent.clip senderFp connectionId ciphertextB64 encodedSize
  match ← get roomId with
  | none => return .error event
  | some handle => handle.trySend event

/-- Best-effort notification. -/
def disconnect (roomId fp : String) (connectionId : ConnectionId) : RoomsProgram Unit := do
  match ← get roomId with
  | none => return
  | some handle =>
    let _ ← handle.trySend (.disconnect fp connectionId)
    return

end Rooms

def RoomOp.isPanic : RoomOp → Bool
  | .outbox _ .panic => true
  | _ => false

namespace RoomActor

/-- The handler of an event as part of the actor's task, which a panic ends. -/
def handleEvent (codec : Codec) (self : RoomActor) (event : RoomEvent) :
    RoomsProgram (Option RoomActor) :=
  ((self.handle codec event).halting RoomOp.isPanic).lift fun op => perform (RoomsOp.room op)

/-- One turn of the actor's loop; without a next state the actor has stopped. It stops
after a disconnect that leaves nobody online, and by a panic. -/
def runTurn (codec : Codec) (selfHandle : RoomHandle) (self : RoomActor) :
    RoomsProgram (Option RoomActor) := do
  let event ← selfHandle.recv self.online
  selfHandle.fetchSub event.payloadSize
  match ← self.handleEvent codec event with
  | none =>
    selfHandle.dropReceiver
    return none
  | some next =>
    match event with
    | .disconnect .. =>
      if next.online.keys = ∅ then
        Rooms.removeIf next.roomId selfHandle
        selfHandle.dropReceiver
        return none
      return some next
    | .join .. | .clip .. => return some next

end RoomActor

/-! ## Shared state -/

/-- An inbox. Every event in it carries the number under which it was accepted. -/
structure Inbox where
  queue : List (ℕ × RoomEvent)
  capacity : ℕ
  isOpen : Bool
  pendingBytes : ℕ

namespace Inbox

def hasSlot (inbox : Inbox) : Bool := inbox.isOpen && inbox.queue.length < inbox.capacity

end Inbox

/-- An event that was put into an inbox, and by which thread. -/
structure Accepted (τ : Type) where
  caller : τ
  actor : ℕ
  event : RoomEvent

/-- A turn that an actor has begun. -/
structure Turn where
  actor : ℕ
  ticket : ℕ
  event : RoomEvent
  online : HashMap String OnlineMember

/-- The table, the vacant entries that are locked, the inboxes and first states of the
actors spawned so far, and what is remembered of a run: the accepted events and the
turns of the actors. -/
structure RoomsState (τ : Type) where
  map : HashMap String ℕ
  locked : Finset String
  inboxes : ℕ → Inbox
  actors : List RoomActor
  accepted : List (Accepted τ)
  turns : List Turn

/-- The bounds of every inbox. -/
structure InboxLimits where
  maxEvents : ℕ
  maxBytes : ℕ

namespace RoomsState

variable {τ : Type}

def setInbox (s : RoomsState τ) (id : ℕ) (inbox : Inbox) : RoomsState τ :=
  { s with inboxes := Function.update s.inboxes id inbox }

@[simp] theorem setInbox_inboxes_self (s : RoomsState τ) (id : ℕ) (inbox : Inbox) :
    (s.setInbox id inbox).inboxes id = inbox := Function.update_self _ _ _

theorem setInbox_inboxes_of_ne (s : RoomsState τ) {id other : ℕ} (h : other ≠ id)
    (inbox : Inbox) : (s.setInbox id inbox).inboxes other = s.inboxes other :=
  Function.update_of_ne h _ _

def empty (limits : InboxLimits) : RoomsState τ where
  map := ∅
  locked := ∅
  inboxes _ := ⟨[], limits.maxEvents, true, 0⟩
  actors := []
  accepted := []
  turns := []

/-- An event is put into an inbox. -/
def accept (s : RoomsState τ) (t : τ) (id : ℕ) (event : RoomEvent) : RoomsState τ :=
  { s.setInbox id
      { s.inboxes id with queue := (s.inboxes id).queue ++ [(s.accepted.length, event)] } with
    accepted := s.accepted ++ [⟨t, id, event⟩] }

/-- An actor takes up the first event of its inbox. -/
def takeUp (s : RoomsState τ) (turn : Turn) (rest : List (ℕ × RoomEvent)) : RoomsState τ :=
  { s.setInbox turn.actor { s.inboxes turn.actor with queue := rest } with
    turns := s.turns ++ [turn] }

def close (s : RoomsState τ) (id : ℕ) : RoomsState τ :=
  s.setInbox id { s.inboxes id with queue := [], isOpen := false }

/-- The results and effects an access of thread `t` can have. Actors are numbered in
the order they are spawned. -/
def exec (limits : InboxLimits) (t : τ) :
    (op : RoomsOp) → RoomsState τ → op.Res → RoomsState τ → Prop
  | .entry roomId, s, some handle, s' =>
    roomId ∉ s.locked ∧ s.map.lookup roomId = some handle.id ∧
      handle.maxBytes = limits.maxBytes ∧ s' = s
  | .entry roomId, s, none, s' =>
    roomId ∉ s.locked ∧ s.map.lookup roomId = none ∧
      s' = { s with locked := insert roomId s.locked }
  | .loadPending _, s, _, s' => s' = s
  | .vacantInsert roomId actor, s, handle, s' =>
    handle = ⟨s.actors.length, limits.maxBytes⟩ ∧
      s' = { s with map := s.map.insert roomId s.actors.length
                    locked := s.locked.erase roomId
                    actors := s.actors ++ [actor] }
  | .get roomId, s, r, s' =>
    roomId ∉ s.locked ∧ r = (s.map.lookup roomId).map (⟨·, limits.maxBytes⟩) ∧ s' = s
  | .removeIf roomId id, s, (), s' =>
    roomId ∉ s.locked ∧
      s' = if s.map.lookup roomId = some id then { s with map := s.map.erase roomId } else s
  | .fetchAdd id size, s, r, s' =>
    r = (s.inboxes id).pendingBytes ∧
      s' = s.setInbox id
        { s.inboxes id with pendingBytes := (s.inboxes id).pendingBytes + size }
  | .fetchSub id size, s, (), s' =>
    s' = s.setInbox id
      { s.inboxes id with pendingBytes := (s.inboxes id).pendingBytes - size }
  | .trySend id event, s, true, s' =>
    (s.inboxes id).hasSlot = true ∧ s' = s.accept t id event
  | .trySend id _, s, false, s' => (s.inboxes id).hasSlot = false ∧ s' = s
  | .isClosed id, s, r, s' => r = !(s.inboxes id).isOpen ∧ s' = s
  | .recv id online, s, event, s' =>
    ∃ ticket rest, (s.inboxes id).queue = (ticket, event) :: rest ∧
      s' = s.takeUp ⟨id, ticket, event, online⟩ rest
  | .dropReceiver id, s, (), s' => s' = s.close id
  | .room _, s, _, s' => s' = s

/-- What an access does to the inboxes: nothing, count octets, add an event, take one
out, or discard them all. -/
inductive Effect (t : τ) (s : RoomsState τ) : RoomsOp → RoomsState τ → Prop where
  | still {op : RoomsOp} {s' : RoomsState τ} (inboxes : s'.inboxes = s.inboxes)
      (accepted : s'.accepted = s.accepted) (turns : s'.turns = s.turns) : Effect t s op s'
  | counted {op : RoomsOp} (id n : ℕ) :
      Effect t s op (s.setInbox id { s.inboxes id with pendingBytes := n })
  | sent {id : ℕ} {event : RoomEvent} (slot : (s.inboxes id).hasSlot = true) :
      Effect t s (.trySend id event) (s.accept t id event)
  | received (turn : Turn) {rest : List (ℕ × RoomEvent)}
      (head : (s.inboxes turn.actor).queue = (turn.ticket, turn.event) :: rest) :
      Effect t s (.recv turn.actor turn.online) (s.takeUp turn rest)
  | stopped (id : ℕ) : Effect t s (.dropReceiver id) (s.close id)

theorem exec_effect {limits : InboxLimits} {t : τ} {op : RoomsOp} {r : op.Res}
    {s s' : RoomsState τ} (h : exec limits t op s r s') : Effect t s op s' := by
  cases op with
  | entry roomId =>
    cases r with
    | none =>
      obtain ⟨-, -, rfl⟩ := h
      exact .still rfl rfl rfl
    | some handle =>
      obtain ⟨-, -, -, rfl⟩ := h
      exact .still rfl rfl rfl
  | loadPending roomId | room op =>
    cases h
    exact .still rfl rfl rfl
  | vacantInsert roomId actor | isClosed id =>
    obtain ⟨-, rfl⟩ := h
    exact .still rfl rfl rfl
  | get roomId =>
    obtain ⟨-, -, rfl⟩ := h
    exact .still rfl rfl rfl
  | removeIf roomId id =>
    obtain ⟨-, rfl⟩ := h
    split
    · exact .still rfl rfl rfl
    · exact .still rfl rfl rfl
  | fetchAdd id size =>
    obtain ⟨-, rfl⟩ := h
    exact .counted id _
  | fetchSub id size =>
    cases h
    exact .counted id _
  | trySend id event =>
    cases r with
    | true =>
      obtain ⟨hslot, rfl⟩ := h
      exact .sent hslot
    | false =>
      obtain ⟨-, rfl⟩ := h
      exact .still rfl rfl rfl
  | recv id online =>
    obtain ⟨ticket, rest, hqueue, rfl⟩ := h
    exact .received ⟨id, ticket, r, online⟩ hqueue
  | dropReceiver id =>
    cases h
    exact .stopped id

end RoomsState

end ClipSync
