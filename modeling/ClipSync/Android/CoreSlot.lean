import ClipSync.Lib.Bytes
import ClipSync.Lib.Schedule

/-!
# The core slot of the Android application

`ClipSyncApp` of `android/app`: the native core is constructed and started by a task of a
single-threaded executor, and sends that come before it is ready wait in the slot. Any
thread may start the core, stop it or send; every `synchronized` block is one operation.
A start that fails plans a retry. Stopping the core begins a new generation of the slot,
which the tasks of the old one notice.

Of every send it is remembered which thread has taken it out of the slot or the queue and
has neither completed it nor passed it on, and of the start flag who is to see to it.
-/

namespace ClipSync

namespace AndroidApp

open Lib Program

inductive ClipboardPayload where
  | text (text : String)
  | image (bytes : Bytes)
deriving DecidableEq

inductive SendResult where
  | sent (sequence : UInt64)
  | failed (detail : String)
  | serviceUnavailable
deriving DecidableEq

/-- A send with its callback, which is known by its number. -/
structure PendingSend where
  id : ℕ
  payload : ClipboardPayload
deriving DecidableEq

structure CoreSlot where
  generation : Int64 := 0
  startScheduled : Bool := false
  ready : Bool := false
  retryAttempt : Int32 := 0
  gateway : Option ℕ := none
  pendingSends : List PendingSend := []

structure CoreRetryPlan where
  retryToken : Int32
  pendingSends : List PendingSend

def maxPendingSends : ℕ := 8

/-! ## The synchronized blocks -/

namespace CoreSlot

/-- The first block of `startCoreAfterForeground`. -/
def scheduleStart (slot : CoreSlot) : Option Int64 × CoreSlot :=
  if slot.ready || slot.startScheduled then (none, slot)
  else (some slot.generation, { slot with startScheduled := true })

def wantsStart (slot : CoreSlot) (generation : Int64) : Bool :=
  slot.generation = generation && slot.startScheduled

def becomeReady (slot : CoreSlot) (generation : Int64) : Option (List PendingSend) × CoreSlot :=
  if slot.generation ≠ generation then (none, slot)
  else (some slot.pendingSends, { slot with
    startScheduled := false
    ready := true
    retryAttempt := 0
    pendingSends := [] })

def failStart (slot : CoreSlot) (generation : Int64) : Option CoreRetryPlan × CoreSlot :=
  if slot.generation = generation then
    let retryToken := slot.retryAttempt + 1
    (some ⟨retryToken, slot.pendingSends⟩, { slot with
      startScheduled := false
      ready := false
      retryAttempt := retryToken
      pendingSends := [] })
  else (none, slot)

def shouldRetry (slot : CoreSlot) (generation : Int64) (retryToken : Int32) : Bool :=
  slot.generation = generation && slot.retryAttempt = retryToken && !slot.ready &&
    !slot.startScheduled

def stop (slot : CoreSlot) : (Option ℕ × List PendingSend) × CoreSlot :=
  ((slot.gateway, slot.pendingSends), { generation := slot.generation + 1 })

end CoreSlot

/-- What becomes of a send that is offered to the slot. -/
inductive Offered where
  | queued
  | sendBy (gateway : ℕ)
  | unavailable
deriving DecidableEq

def CoreSlot.offer (slot : CoreSlot) (send : PendingSend) : Offered × CoreSlot :=
  if slot.ready then
    match slot.gateway with
    | some gateway => (.sendBy gateway, slot)
    | none => (.unavailable, slot)
  else if slot.pendingSends.length < maxPendingSends then
    (.queued, { slot with pendingSends := slot.pendingSends ++ [send] })
  else (.unavailable, slot)

/-! ## Operations -/

inductive CoreTask where
  | start (generation : Int64)
  | send (gateway : ℕ) (send : PendingSend)
  | shutdown (gateway : ℕ)
deriving DecidableEq

/-- The synchronized blocks, the calls of the executor, of a gateway and of a callback. -/
inductive CoreOp where
  | scheduleStart
  | openGateway (generation : Int64)
  | becomeReady (generation : Int64)
  | failStart (generation : Int64)
  | shouldRetry (generation : Int64) (retryToken : Int32)
  | stop
  | offer (send : PendingSend)
  | execute (task : CoreTask)
  | schedule (generation : Int64) (retryToken : Int32)
  | loadPairingAndStart (gateway : ℕ)
  | pairingSnapshot (gateway : ℕ)
  | history (gateway : ℕ)
  | sendText (gateway : ℕ) (text : String)
  | sendImage (gateway : ℕ) (bytes : Bytes)
  | shutdown (gateway : ℕ)
  | onComplete (send : PendingSend) (result : SendResult)

abbrev CoreOp.Res : CoreOp → Type
  | .scheduleStart => Option Int64
  | .openGateway _ => Except String (Option ℕ)
  | .becomeReady _ => Option (List PendingSend)
  | .failStart _ => Option CoreRetryPlan
  | .shouldRetry .. => Bool
  | .stop => Option ℕ × List PendingSend
  | .offer _ => Offered
  | .execute _ | .schedule .. | .onComplete .. => Unit
  | .loadPairingAndStart _ => Except String Bool
  | .pairingSnapshot _ | .history _ | .shutdown _ => Except String Unit
  | .sendText .. | .sendImage .. => Except String UInt64

abbrev CoreProgram := Program CoreOp CoreOp.Res

/-! ## The application -/

def startCoreAfterForeground : CoreProgram Unit := do
  match ← perform CoreOp.scheduleStart with
  | none => return ()
  | some generation => perform (CoreOp.execute (.start generation))

def completeAll (result : SendResult) : List PendingSend → CoreProgram Unit
  | [] => return ()
  | send :: sends => do
    perform (CoreOp.onComplete send result)
    completeAll result sends

def stopCore : CoreProgram Unit := do
  let (gateway, pendingSends) ← perform CoreOp.stop
  completeAll .serviceUnavailable pendingSends
  match gateway with
  | none => return ()
  | some gateway => perform (CoreOp.execute (.shutdown gateway))

def send (self : PendingSend) : CoreProgram Unit := do
  match ← perform (CoreOp.offer self) with
  | .queued => return ()
  | .unavailable => perform (CoreOp.onComplete self .serviceUnavailable)
  | .sendBy gateway => perform (CoreOp.execute (.send gateway self))

def sendPayload (gateway : ℕ) : ClipboardPayload → CoreProgram (Except String UInt64)
  | .image bytes => perform (CoreOp.sendImage gateway bytes)
  | .text text => perform (CoreOp.sendText gateway text)

def sendWithGateway (gateway : ℕ) (send : PendingSend) : CoreProgram (Except String Unit) := do
  match ← sendPayload gateway send.payload with
  | .ok sequence =>
    perform (CoreOp.onComplete send (.sent sequence))
    perform (CoreOp.history gateway)
  | .error detail =>
    perform (CoreOp.onComplete send (.failed detail))
    return .ok ()

def sendAll (gateway : ℕ) : List PendingSend → CoreProgram (Except String Unit)
  | [] => return .ok ()
  | send :: sends => do
    match ← sendWithGateway gateway send with
    | .error error => return .error error
    | .ok () => sendAll gateway sends

def readPairing (gateway : ℕ) : Bool → CoreProgram (Except String Unit)
  | true => perform (CoreOp.pairingSnapshot gateway)
  | false => return .ok ()

/-- The `try` block of a start. -/
def tryStart (generation : Int64) (gateway : ℕ) : CoreProgram (Except String Unit) := do
  match ← perform (CoreOp.loadPairingAndStart gateway) with
  | .error error => return .error error
  | .ok paired =>
  match ← readPairing gateway paired with
  | .error error => return .error error
  | .ok () =>
  match ← perform (CoreOp.history gateway) with
  | .error error => return .error error
  | .ok () =>
  match ← perform (CoreOp.becomeReady generation) with
  | none => return .ok ()
  | some pendingSends => sendAll gateway pendingSends

/-- The `catch` block of a start. -/
def planRetry (generation : Int64) : CoreProgram Unit := do
  match ← perform (CoreOp.failStart generation) with
  | none => return ()
  | some plan =>
    completeAll .serviceUnavailable plan.pendingSends
    perform (CoreOp.schedule generation plan.retryToken)

/-- The gateway is fetched outside of the `try` block. -/
def startTask (generation : Int64) : CoreProgram Unit := do
  match ← perform (CoreOp.openGateway generation) with
  | .error _ => return ()
  | .ok none => return ()
  | .ok (some gateway) =>
  match ← tryStart generation gateway with
  | .ok () => return ()
  | .error _ => planRetry generation

def retryTask (generation : Int64) (retryToken : Int32) : CoreProgram Unit := do
  if ← perform (CoreOp.shouldRetry generation retryToken) then startCoreAfterForeground

def CoreTask.run : CoreTask → CoreProgram Unit
  | .start generation => startTask generation
  | .send gateway pending => do
    let _ ← sendWithGateway gateway pending
    return ()
  | .shutdown gateway => do
    let _ ← perform (CoreOp.shutdown gateway)
    return ()

/-! ## The state -/

inductive CoreThread where
  | executor
  | host (n : ℕ)
deriving DecidableEq

/-- The slot and the executor's tasks, with what is remembered. `holding` has the sends
that a thread has taken and neither completed nor passed on, `launching` the start that a
thread has announced and not yet queued, `starting` the start that the executor has taken
and that has not yet come back to the slot, `retrying` the retry that the executor is
about to plan or to carry out; `failed` says that the last start of this generation to end
has failed. -/
structure CoreApp where
  slot : CoreSlot
  queue : List CoreTask
  retries : List (Int64 × Int32)
  gateways : ℕ
  issued : List ℕ
  completed : List (ℕ × SendResult)
  holding : CoreThread → List PendingSend
  launching : CoreThread → Option Int64
  starting : Option Int64
  retrying : Option (Int64 × Int32)
  failed : Bool

namespace CoreApp

def initial : CoreApp where
  slot := {}
  queue := []
  retries := []
  gateways := 0
  issued := []
  completed := []
  holding _ := []
  launching _ := none
  starting := none
  retrying := none
  failed := false

/-- The results that an operation can have. Every call of a gateway may throw, and so may
the constructor of the native handle. -/
def Answers : (op : CoreOp) → CoreApp → op.Res → Prop
  | .scheduleStart, s, r => r = s.slot.scheduleStart.1
  | .openGateway generation, s, r =>
    if s.slot.wantsStart generation then
      match s.slot.gateway with
      | some gateway => r = .ok (some gateway)
      | none => r = .ok (some s.gateways) ∨ ∃ error, r = .error error
    else r = .ok none
  | .becomeReady generation, s, r => r = (s.slot.becomeReady generation).1
  | .failStart generation, s, r => r = (s.slot.failStart generation).1
  | .shouldRetry generation retryToken, s, r => r = s.slot.shouldRetry generation retryToken
  | .stop, s, r => r = s.slot.stop.1
  | .offer send, s, r => r = (s.slot.offer send).1
  | .execute _, _, _ | .schedule .., _, _ | .onComplete .., _, _ => True
  | .loadPairingAndStart _, _, _ | .pairingSnapshot _, _, _ | .history _, _, _ => True
  | .sendText .., _, _ | .sendImage .., _, _ | .shutdown _, _, _ => True

def openedSlot (slot : CoreSlot) : Except String (Option ℕ) → CoreSlot
  | .ok (some gateway) => { slot with gateway := some gateway }
  | .ok none | .error _ => slot

def slotAfter (s : CoreApp) : (op : CoreOp) → op.Res → CoreSlot
  | .scheduleStart, _ => s.slot.scheduleStart.2
  | .openGateway _, r => openedSlot s.slot r
  | .becomeReady generation, _ => (s.slot.becomeReady generation).2
  | .failStart generation, _ => (s.slot.failStart generation).2
  | .stop, _ => s.slot.stop.2
  | .offer send, _ => (s.slot.offer send).2
  | .shouldRetry .., _ | .execute _, _ | .schedule .., _ | .loadPairingAndStart _, _
  | .pairingSnapshot _, _ | .history _, _ | .sendText .., _ | .sendImage .., _ | .shutdown _, _
  | .onComplete .., _ => s.slot

def holdingAfter (held : List PendingSend) : (op : CoreOp) → op.Res → List PendingSend
  | .becomeReady _, r => held ++ r.getD []
  | .failStart _, r => held ++ (r.map (·.pendingSends)).getD []
  | .stop, r => held ++ r.2
  | .offer send, r => if r = .queued then held.erase send else held
  | .execute (.send _ send), _ => held.erase send
  | .onComplete send _, _ => held.erase send
  | _, _ => held

def launchingAfter (launching : Option Int64) : (op : CoreOp) → op.Res → Option Int64
  | .scheduleStart, r => r
  | .execute (.start _), _ => none
  | _, _ => launching

def startingAfter (starting : Option Int64) : (op : CoreOp) → op.Res → Option Int64
  | .openGateway _, .ok (some _) => starting
  | .openGateway _, .ok none | .openGateway _, .error _ => none
  | .becomeReady _, _ | .failStart _, _ => none
  | _, _ => starting

def retryingAfter (retrying : Option (Int64 × Int32)) :
    (op : CoreOp) → op.Res → Option (Int64 × Int32)
  | .failStart generation, r => r.map fun plan => (generation, plan.retryToken)
  | .schedule .., _ | .scheduleStart, _ => none
  | .shouldRetry .., r => if r then retrying else none
  | _, _ => retrying

def failedAfter (failed : Bool) : (op : CoreOp) → op.Res → Bool
  | .becomeReady _, r => failed && r.isNone
  | .failStart _, r => failed || r.isSome
  | .stop, _ => false
  | _, _ => failed

def after (s : CoreApp) (t : CoreThread) (op : CoreOp) (r : op.Res) : CoreApp where
  slot := s.slotAfter op r
  queue := match op with
    | .execute task => s.queue ++ [task]
    | _ => s.queue
  retries := match op with
    | .schedule generation retryToken => s.retries ++ [(generation, retryToken)]
    | _ => s.retries
  gateways := match op with
    | .openGateway _ => if s.slot.gateway.isNone then s.gateways + 1 else s.gateways
    | _ => s.gateways
  issued := s.issued
  completed := match op with
    | .onComplete send result => s.completed ++ [(send.id, result)]
    | _ => s.completed
  holding := Function.update s.holding t (holdingAfter (s.holding t) op r)
  launching := Function.update s.launching t (launchingAfter (s.launching t) op r)
  starting := if t = .executor then startingAfter s.starting op r else s.starting
  retrying := if t = .executor then retryingAfter s.retrying op r else s.retrying
  failed := failedAfter s.failed op r

def take (s : CoreApp) (task : CoreTask) (queue : List CoreTask) : CoreApp :=
  match task with
  | .start generation => { s with queue, starting := some generation }
  | .send _ send => { s with
      queue
      holding := Function.update s.holding .executor (s.holding .executor ++ [send]) }
  | .shutdown _ => { s with queue }

def issue (s : CoreApp) (t : CoreThread) (send : PendingSend) : CoreApp := { s with
  issued := send.id :: s.issued
  holding := Function.update s.holding t (s.holding t ++ [send]) }

end CoreApp

/-- Any number of threads call the application; the executor takes the queued tasks and,
once they are due, the retries. All operations have an allowed result. -/
def system (allow : CoreThread → (op : CoreOp) → CoreApp → op.Res → Prop) :
    Threads.System CoreOp CoreOp.Res (fun _ : CoreThread => Unit) CoreApp where
  exec t op s r s' := CoreApp.Answers op s r ∧ allow t op s r ∧ s' = s.after t op r
  enter
    | .executor, some _, s, p, s' =>
      (∃ before task rest, s.queue = before ++ task :: rest ∧ p = task.run ∧
        s' = s.take task (before ++ rest)) ∨
      ∃ before generation retryToken rest,
        s.retries = before ++ (generation, retryToken) :: rest ∧
        p = retryTask generation retryToken ∧
        s' = { s with retries := before ++ rest, retrying := some (generation, retryToken) }
    | .host n, some _, s, p, s' =>
      p = startCoreAfterForeground ∧ s' = s ∨ p = stopCore ∧ s' = s ∨
      ∃ self : PendingSend, self.id ∉ s.issued ∧ p = send self ∧ s' = s.issue (.host n) self
    | _, none, _, _, _ => False

def launched : Threads CoreOp CoreOp.Res (fun _ : CoreThread => Unit) CoreApp where
  shared := .initial
  threads _ := some (.done ())

def Running (x : Threads CoreOp CoreOp.Res (fun _ : CoreThread => Unit) CoreApp)
    (t : CoreThread) : Prop :=
  ∃ op k, x.threads t = some (.call op k)

def waits (x : Threads CoreOp CoreOp.Res (fun _ : CoreThread => Unit) CoreApp)
    (t : CoreThread) : Bool :=
  match x.threads t with
  | some (.done _) => true
  | some (.call ..) | none => false

theorem not_running_of_waits {x : Threads CoreOp CoreOp.Res (fun _ : CoreThread => Unit) CoreApp}
    {t : CoreThread} (h : waits x t = true) : ¬ Running x t := by
  rintro ⟨op, k, hrunning⟩
  rw [waits, hrunning] at h
  cases h

/-! ## Schedules -/

inductive HostCall where
  | start
  | stop
  | send (pending : PendingSend)

/-- What a thread of the host calls, and whether the calls of a gateway throw. -/
structure CoreChoice where
  request : HostCall := .start
  throws : Bool := false

namespace CoreChoice

def result {α : Type} (c : CoreChoice) (value : α) : Except String α :=
  if c.throws then .error "" else .ok value

def answer (c : CoreChoice) (s : CoreApp) : (op : CoreOp) → op.Res
  | .scheduleStart => s.slot.scheduleStart.1
  | .openGateway generation =>
    if s.slot.wantsStart generation then
      match s.slot.gateway with
      | some gateway => .ok (some gateway)
      | none => c.result (some s.gateways)
    else .ok none
  | .becomeReady generation => (s.slot.becomeReady generation).1
  | .failStart generation => (s.slot.failStart generation).1
  | .shouldRetry generation retryToken => s.slot.shouldRetry generation retryToken
  | .stop => s.slot.stop.1
  | .offer send => (s.slot.offer send).1
  | .execute _ | .schedule .. | .onComplete .. => ()
  | .loadPairingAndStart _ => c.result false
  | .pairingSnapshot _ | .history _ | .shutdown _ => c.result ()
  | .sendText .. | .sendImage .. => c.result 0

theorem answers (c : CoreChoice) (s : CoreApp) (op : CoreOp) :
    CoreApp.Answers op s (c.answer s op) := by
  cases op with
  | openGateway generation =>
    by_cases hwants : s.slot.wantsStart generation
    · cases hgateway : s.slot.gateway with
      | some gateway => simp [CoreApp.Answers, answer, hwants, hgateway]
      | none => cases hthrows : c.throws <;>
          simp [CoreApp.Answers, answer, hwants, hgateway, result, hthrows]
    · simp [CoreApp.Answers, answer, hwants]
  | _ =>
    first
      | exact trivial
      | rfl

def enter (c : CoreChoice) :
    CoreThread → Option Unit → CoreApp → Option (CoreProgram Unit × CoreApp)
  | .executor, some _, s =>
    match s.queue, s.retries with
    | task :: queue, _ => some (task.run, s.take task queue)
    | [], (generation, retryToken) :: retries =>
      some (retryTask generation retryToken,
        { s with retries, retrying := some (generation, retryToken) })
    | [], [] => none
  | .host n, some _, s =>
    match c.request with
    | .start => some (startCoreAfterForeground, s)
    | .stop => some (stopCore, s)
    | .send pending =>
      if pending.id ∈ s.issued then none else some (send pending, s.issue (.host n) pending)
  | _, none, _ => none

end CoreChoice

/-- Runs that are computed, as far as the results are allowed. -/
def replay (allow : CoreThread → (op : CoreOp) → CoreApp → op.Res → Prop)
    [∀ t op s r, Decidable (allow t op s r)] : Threads.Replay (system allow) CoreChoice where
  access c t op s :=
    if allow t op s (c.answer s op) then some (c.answer s op, s.after t op (c.answer s op))
    else none
  enter c t b s := c.enter t b s
  exec_of_access {c t op s r s'} h := by
    obtain ⟨hallow, heq⟩ := Option.ite_none_right_eq_some.1 h
    cases heq
    exact ⟨c.answers s op, hallow, rfl⟩
  enter_of_enter {c t b s p s'} h := by
    match t, b, h with
    | .executor, some _, h =>
      unfold CoreChoice.enter at h
      dsimp only at h
      split at h
      · rename_i task queue hqueue
        cases h
        exact .inl ⟨[], task, queue, hqueue, rfl, rfl⟩
      · rename_i generation retryToken retries hqueue hretries
        cases h
        exact .inr ⟨[], generation, retryToken, retries, hretries, rfl, rfl⟩
      · cases h
    | .host n, some _, h =>
      unfold CoreChoice.enter at h
      dsimp only at h
      split at h
      · cases h
        exact .inl ⟨rfl, rfl⟩
      · cases h
        exact .inr (.inl ⟨rfl, rfl⟩)
      · rename_i pending hrequest
        obtain ⟨hfresh, heq⟩ := Option.ite_none_left_eq_some.1 h
        cases heq
        exact .inr (.inr ⟨pending, hfresh, rfl, rfl⟩)
    | .executor, none, h => cases h
    | .host _, none, h => cases h

end AndroidApp

end ClipSync
