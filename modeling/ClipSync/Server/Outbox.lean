import ClipSync.Core.Protocol
import ClipSync.Lib.Program

/-!
# Connection outboxes

`OutboxHandle` and `ReservedFrame` of `crates/server/src/room.rs`: the bounded
queue between the tasks that address a connection and its writer. A queue is
bounded twice, by a number of slots and by a number of octets, and the two bounds
are kept by different objects: the slots by the channel, the octets by a shared
counter that is raised before the slot is asked for and lowered again when there
is none. The functions are therefore programs over the single atomic accesses to
one outbox.
-/

namespace ClipSync

open Lib Program

/-- Unique id of one websocket connection for its whole lifetime. -/
abbrev ConnectionId := ℕ

/-- One outbound unit for a connection's writer. Frames are queued encoded; the
queue is kept here as the frames themselves, `Frame.encoded` giving the octets. -/
inductive Outbound where
  | frame (frame : Frame)
  | close
deriving DecidableEq

/-- The sending half of an outbox. All clones of a handle share the queue. -/
structure OutboxHandle where
  id : ℕ
  maxBytes : ℕ
deriving DecidableEq

/-- Capacity reserved for one frame. -/
structure ReservedFrame where
  frame : Frame

/-- The shared state of an outbox: the channel with the permits handed out for
it, the octet counter and the forced-close signal. -/
structure Outbox where
  queue : List Outbound
  permits : ℕ
  maxFrames : ℕ
  isOpen : Bool
  pendingBytes : ℕ
  forceClose : Bool

def outbox (maxFrames : ℕ) : Outbox where
  queue := []
  permits := 0
  maxFrames := maxFrames
  isOpen := true
  pendingBytes := 0
  forceClose := false

/-- The atomic accesses to an outbox. A panic ends the task. -/
inductive OutboxOp where
  | fetchAdd (size : ℕ)
  | fetchSub (size : ℕ)
  | trySend (item : Outbound)
  | tryReserveOwned
  | permitSend (item : Outbound)
  | permitDrop
  | notifyOne
  | panic

abbrev OutboxOp.Res : OutboxOp → Type
  | .fetchAdd _ => ℕ
  | .trySend _ | .tryReserveOwned => Bool
  | .fetchSub _ | .permitSend _ | .permitDrop | .notifyOne => Unit
  | .panic => Empty

abbrev OutboxProgram := Program OutboxOp OutboxOp.Res

namespace Outbox

/-- A slot can be taken. -/
def hasSlot (o : Outbox) : Bool := o.isOpen && o.queue.length + o.permits < o.maxFrames

@[simp] theorem hasSlot_pendingBytes (o : Outbox) (n : ℕ) :
    hasSlot { o with pendingBytes := n } = o.hasSlot := rfl

def push (o : Outbox) (item : Outbound) : Outbox := { o with queue := o.queue ++ [item] }

/-- The result and the effect of one access. -/
def access : (op : OutboxOp) → Outbox → Option (op.Res × Outbox)
  | .fetchAdd size, o =>
    some (o.pendingBytes, { o with pendingBytes := o.pendingBytes + size })
  | .fetchSub size, o => some ((), { o with pendingBytes := o.pendingBytes - size })
  | .trySend item, o => some (o.hasSlot, if o.hasSlot then o.push item else o)
  | .tryReserveOwned, o =>
    some (o.hasSlot, if o.hasSlot then { o with permits := o.permits + 1 } else o)
  | .permitSend item, o => some ((), { o.push item with permits := o.permits - 1 })
  | .permitDrop, o => some ((), { o with permits := o.permits - 1 })
  | .notifyOne, o => some ((), { o with forceClose := true })
  | .panic, _ => none

end Outbox

/-- What an access puts into its outbox. -/
def OutboxOp.queued : (op : OutboxOp) → op.Res → List Outbound
  | .trySend item, true => [item]
  | .permitSend item, () => [item]
  | _, _ => []

/-! ## The functions of the handle -/

def panic {α : Type} : OutboxProgram α := call .panic fun r => nomatch r

/-- `encode_frame(..).expect("server-generated frames are valid")`. The elaborator must not
unfold it, or it would print frames to see whether a program has ended. -/
@[irreducible] def encodeExpect (codec : Codec) (frame : Frame) : OutboxProgram Unit :=
  match encodeFrame codec frame with
  | .ok _ => pure ()
  | .error _ => panic

namespace OutboxHandle

def fetchAdd (size : ℕ) : OutboxProgram ℕ := perform (.fetchAdd size : OutboxOp)

def fetchSub (size : ℕ) : OutboxProgram Unit := perform (.fetchSub size : OutboxOp)

def trySend (item : Outbound) : OutboxProgram Bool := perform (.trySend item : OutboxOp)

def tryReserveOwned : OutboxProgram Bool := perform (.tryReserveOwned : OutboxOp)

def notifyOne : OutboxProgram Unit := perform (.notifyOne : OutboxOp)

/-- Takes a slot for an encoded frame with exact accounting of its octets, which are
counted before they are checked. -/
def accounted (self : OutboxHandle) (frame : Frame) (slot : OutboxProgram Bool) :
    OutboxProgram Bool := do
  let size := frame.encoded.length
  let previous ← fetchAdd size
  if previous + size > self.maxBytes then
    fetchSub size
    return false
  if ← slot then
    return true
  fetchSub size
  return false

/-- Enqueues an encoded frame. -/
def tryFrame (self : OutboxHandle) (frame : Frame) : OutboxProgram Bool :=
  self.accounted frame (trySend (.frame frame))

/-- Encodes and enqueues a frame. -/
def sendFrame (codec : Codec) (self : OutboxHandle) (frame : Frame) : OutboxProgram Bool := do
  encodeExpect codec frame
  self.tryFrame frame

def tryReserveFrame (codec : Codec) (self : OutboxHandle) (frame : Frame) :
    OutboxProgram (Option ReservedFrame) := do
  encodeExpect codec frame
  if ← self.accounted frame tryReserveOwned then
    return some ⟨frame⟩
  return none

/-- Enqueues a close marker, or forces the writer to close. -/
def close : OutboxProgram Unit := do
  if ← trySend .close then
    return
  notifyOne

/-- An error frame followed by a close. -/
def errorAndClose (codec : Codec) (self : OutboxHandle) (code message : String) :
    OutboxProgram Unit := do
  let _ ← self.sendFrame codec (.error code message)
  close

end OutboxHandle

namespace ReservedFrame

def send (self : ReservedFrame) : OutboxProgram Unit :=
  perform (.permitSend (.frame self.frame) : OutboxOp)

/-- Dropping a reservation releases the octets, then the slot. -/
def drop (self : ReservedFrame) : OutboxProgram Unit := do
  OutboxHandle.fetchSub self.frame.encoded.length
  perform (.permitDrop : OutboxOp)

end ReservedFrame

/-! ## Panics -/

namespace OutboxHandle

variable {codec : Codec} {frame : Frame}

theorem encodeExpect_of_ok (h : (encodeFrame codec frame).isOk = true) :
    encodeExpect codec frame = pure () := by
  unfold encodeExpect
  cases henc : encodeFrame codec frame with
  | ok b => rfl
  | error e => simp [henc, Except.isOk, Except.toBool] at h

theorem encodeExpect_of_not_ok (h : ¬ (encodeFrame codec frame).isOk = true) :
    encodeExpect codec frame = panic := by
  unfold encodeExpect
  cases henc : encodeFrame codec frame with
  | ok b => simp [henc, Except.isOk, Except.toBool] at h
  | error e => rfl

theorem encodeExpect_bind_allOps {α : Type} {rest : OutboxProgram α}
    (hrest : rest.AllOps (· ≠ .panic)) :
    (encodeExpect codec frame >>= fun _ => rest).AllOps (· ≠ .panic) ↔
      (encodeFrame codec frame).isOk = true := by
  constructor
  · intro hall
    by_contra hok
    rw [encodeExpect_of_not_ok hok] at hall
    exact hall.1 rfl
  · intro hok
    rw [encodeExpect_of_ok hok]
    exact hrest

theorem accounted_allOps {P : OutboxOp → Prop} (self : OutboxHandle) {slot : OutboxProgram Bool}
    (hadd : ∀ size, P (.fetchAdd size)) (hsub : ∀ size, P (.fetchSub size))
    (hslot : slot.AllOps P) : (self.accounted frame slot).AllOps P := by
  refine ⟨hadd _, fun previous => ?_⟩
  change AllOps _ (ite _ _ _)
  split
  · exact ⟨hsub _, fun _ => trivial⟩
  · refine allOps_bind hslot fun taken => ?_
    split
    · trivial
    · exact ⟨hsub _, fun _ => trivial⟩

theorem sendFrame_allOps_iff (self : OutboxHandle) :
    (self.sendFrame codec frame).AllOps (· ≠ .panic) ↔
      (encodeFrame codec frame).isOk = true :=
  encodeExpect_bind_allOps (self.accounted_allOps nofun nofun ⟨nofun, fun _ => trivial⟩)

theorem tryReserveFrame_allOps_iff (self : OutboxHandle) :
    (self.tryReserveFrame codec frame).AllOps (· ≠ .panic) ↔
      (encodeFrame codec frame).isOk = true := by
  refine encodeExpect_bind_allOps (allOps_bind
    (self.accounted_allOps nofun nofun ⟨nofun, fun _ => trivial⟩) fun taken => ?_)
  split <;> trivial

end OutboxHandle

/-! ## Frames sent -/

/-- An access puts only frames into the queue that pass the test. -/
def OutboxOp.Sends (P : Frame → Prop) : OutboxOp → Prop
  | .trySend (.frame frame) | .permitSend (.frame frame) => P frame
  | _ => True

namespace OutboxHandle

variable {codec : Codec} {frame : Frame} {P : Frame → Prop} (self : OutboxHandle)

theorem encodeExpect_sends : (encodeExpect codec frame).AllOps (OutboxOp.Sends P) := by
  unfold encodeExpect
  split
  · trivial
  · exact ⟨trivial, nofun⟩

theorem sendFrame_sends (h : P frame) : (self.sendFrame codec frame).AllOps (OutboxOp.Sends P) :=
  allOps_bind encodeExpect_sends fun _ =>
    self.accounted_allOps (fun _ => trivial) (fun _ => trivial) ⟨h, fun _ => trivial⟩

end OutboxHandle

theorem ReservedFrame.drop_sends {P : Frame → Prop} (self : ReservedFrame) :
    self.drop.AllOps (OutboxOp.Sends P) :=
  ⟨trivial, fun _ => ⟨trivial, fun _ => trivial⟩⟩

/-! ## Uninterrupted runs -/

namespace Outbox

/-- Both bounds leave room for the frame. -/
def accepts (o : Outbox) (maxBytes : ℕ) (frame : Frame) : Bool :=
  o.pendingBytes + frame.encoded.length ≤ maxBytes && o.hasSlot

def enqueue (o : Outbox) (frame : Frame) : Outbox :=
  { o.push (.frame frame) with pendingBytes := o.pendingBytes + frame.encoded.length }

def reserve (o : Outbox) (frame : Frame) : Outbox :=
  { o with permits := o.permits + 1, pendingBytes := o.pendingBytes + frame.encoded.length }

end Outbox

namespace OutboxHandle

variable (self : OutboxHandle) (frame : Frame) (o : Outbox)

theorem run_accounted (slot : OutboxProgram Bool) (taken : Outbox)
    (hslot : ∀ size, slot.run Outbox.access { o with pendingBytes := o.pendingBytes + size } =
      some (o.hasSlot, { if o.hasSlot then taken else o with
        pendingBytes := o.pendingBytes + size })) :
    (self.accounted frame slot).run Outbox.access o =
      some (o.accepts self.maxBytes frame, if o.accepts self.maxBytes frame then
        { taken with pendingBytes := o.pendingBytes + frame.encoded.length } else o) := by
  simp only [accounted, fetchAdd, fetchSub, perform_bind, run, Outbox.access, Option.bind_some]
  by_cases hbytes : o.pendingBytes + frame.encoded.length ≤ self.maxBytes
  · rw [if_neg (Nat.not_lt.2 hbytes), run_bind_of_run (hslot _)]
    cases ho : o.hasSlot <;> simp [run, Outbox.access, Outbox.accepts, hbytes, ho]
  · rw [if_pos (Nat.not_le.1 hbytes)]
    simp [run, Outbox.access, Outbox.accepts, hbytes]

theorem run_tryFrame : (self.tryFrame frame).run Outbox.access o =
    some (o.accepts self.maxBytes frame,
      if o.accepts self.maxBytes frame then o.enqueue frame else o) := by
  refine self.run_accounted frame o _ (o.push (.frame frame)) fun size => ?_
  cases ho : o.hasSlot <;> simp [trySend, run, Outbox.access, Outbox.push, ho, perform]

end OutboxHandle

end ClipSync
