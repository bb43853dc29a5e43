import ClipSync.Core.Dispatcher
import ClipSync.Lib.Schedule

/-!
# A rejoin that is dropped for a command

While the dispatcher joins again, a command that becomes ready ends the joining wherever it has
got to. The relay removes the pending clip of the device when it enqueues the bootstrap of a
join (`RoomActor::on_join` of `crates/server/src/room.rs`), and does so for every `join` it
reads, whether or not the client still waits for the answer. So a clip is lost when the joining
is dropped after the `join` was sent and before the bootstrap was received.
-/

namespace ClipSync

open Lib Program Dispatcher Function

/-! ## The dispatcher and the relay -/

/-- The relay as the connections of one device see it. `pending` is the clip in the mailbox of a
room, with its origin. `sent` and `queue` are the frames on a connection to the relay and from
it. `taken` tells which clip was removed for the join of a connection. `links` are connections
that calls of `connect` have joined and that are not yet taken from the command queue. `joining`
is the connection the dispatcher is joining, `dropped` are those whose joining was dropped, and
`handled` are the clips passed to the session. -/
structure RejoinWorld where
  pending : String → Option (String × String) := fun _ => none
  opened : ℕ := 0
  sent : ℕ → List Frame := fun _ => []
  queue : ℕ → List Frame := fun _ => []
  taken : ℕ → Option (Option (String × String)) := fun _ => none
  links : List LiveLink := []
  joining : Option ℕ := none
  dropped : List ℕ := []
  handled : List (String × String) := []

namespace RejoinWorld

variable (w : RejoinWorld)

def IsJoin : Frame → Prop
  | .join .. => True
  | _ => False

def IsBootstrap : Frame → Prop
  | .mailboxEmpty | .clip _ _ _ true => True
  | _ => False

def bootstrap (roomId : String) : Option (String × String) → Frame
  | some (ciphertextB64, originDevice) => .clip roomId ciphertextB64 originDevice true
  | none => .mailboxEmpty

def clipOf (roomId : String) : Option (String × String) :=
  (w.pending roomId).map fun clip => (roomId, clip.1)

def take (socket : ℕ) (roomId : String) : RejoinWorld :=
  { w with
    pending := update w.pending roomId none
    taken := update w.taken socket (some (w.clipOf roomId)) }

def enqueue (socket : ℕ) (frames : List Frame) : RejoinWorld :=
  { w with queue := update w.queue socket (w.queue socket ++ frames) }

/-- What goes on beside the dispatcher. The peer leaves a clip, the relay handles the `join` of a
connection or sends something else, and a call of `connect` joins a connection of its own. -/
inductive RelayStep : RejoinWorld → Prop where
  | clip (roomId ciphertextB64 originDevice : String) : RelayStep
      { w with pending := update w.pending roomId (some (ciphertextB64, originDevice)) }
  | onJoin {socket : ℕ} {roomId deviceId : String} {pubBundle : PubBundle} {sigB64 : String}
      (hsent : .join roomId deviceId pubBundle sigB64 ∈ w.sent socket)
      (hfirst : w.taken socket = none) : RelayStep
      ((w.take socket roomId).enqueue socket [.joinOk, bootstrap roomId (w.pending roomId)])
  | other (socket : ℕ) (frame : Frame) (hframe : ¬ IsBootstrap frame) :
      RelayStep (w.enqueue socket [frame])
  | connect (identity : Identity) (record : PairingRecord) : RelayStep
      { w.take w.opened record.roomId with
        opened := w.opened + 1
        links := w.links ++ [⟨identity, record, w.opened, w.clipOf record.roomId⟩] }

def Brings : Option DispatcherCommand → Prop
  | some (.connect fresh) => w.links.head? = some fresh
  | _ => True

def Possible : (op : DispatcherOp) → op.Res → Prop
  | .recvCommand, command => w.Brings command
  | .pollCommand, some command => w.Brings command
  | .connect _, .ok socket => socket = w.opened
  | .receive socket, .ok frame => (w.queue socket).head? = some frame
  | _, _ => True

def takeCommand : Option DispatcherCommand → RejoinWorld
  | some (.connect _) => { w with links := w.links.tail }
  | _ => w

def push (socket : ℕ) (frame : Frame) : RejoinWorld :=
  { w with sent := update w.sent socket (w.sent socket ++ [frame]) }

def joiningAfter (joining : Option ℕ) : (op : DispatcherOp) → op.Res → Option ℕ
  | .pollCommand, _ => joining
  | .connect _, .ok socket => some socket
  | .send .., .ok _ => joining
  | .receive _, .ok _ => joining
  | _, _ => none

def after (op : DispatcherOp) (r : op.Res) : RejoinWorld :=
  let v : RejoinWorld := { w with joining := joiningAfter w.joining op r }
  match op, r with
  | .recvCommand, command => v.takeCommand command
  | .pollCommand, some command => v.takeCommand command
  | .connect _, .ok _ => { v with opened := v.opened + 1 }
  | .send socket frame, _ => v.push socket frame
  | .receive socket, .ok _ =>
    { v with queue := update v.queue socket (v.queue socket).tail }
  | .handleClip roomId ciphertextB64 _, _ =>
    { v with handled := (roomId, ciphertextB64) :: v.handled }
  | .dropFuture, _ => { v with dropped := w.joining.toList ++ v.dropped }
  | _, _ => v

def exec (op : DispatcherOp) (w : RejoinWorld) (r : op.Res) (w' : RejoinWorld) : Prop :=
  ∃ v, Relation.ReflTransGen RelayStep w v ∧ v.Possible op r ∧ w' = v.after op r

/-- The clip was passed to the session, or it is the bootstrap of a later join that was not
dropped. -/
def Accounted (socket : ℕ) (clip : String × String) : Prop :=
  clip ∈ w.handled ∨
    ∃ later, socket < later ∧ later ∉ w.dropped ∧ w.taken later = some (some clip)

def NoneLost : Prop :=
  ∀ socket ∈ w.dropped, ∀ clip, w.taken socket = some (some clip) → w.Accounted socket clip

/-- A joining is dropped only if its `join` is not sent yet, or the relay has answered it without
a clip. -/
def Timely (op : DispatcherOp) : Prop :=
  op = .dropFuture → ∀ socket, w.joining = some socket →
    (∀ frame ∈ w.sent socket, ¬ IsJoin frame) ∨ w.taken socket = some none

end RejoinWorld

open RejoinWorld

def rejoinSystem (crates : LinkCrates) :
    Threads.System DispatcherOp DispatcherOp.Res (fun _ : Unit => Option (Option LiveLink))
      RejoinWorld where
  exec _ op w r w' := exec op w r w'
  enter
    | _, none, w, p, w' => ∃ fuel, p = turn crates fuel none ∧ w' = w
    | _, some (some connection), w, p, w' => ∃ fuel, p = turn crates fuel connection ∧ w' = w
    | _, some none, _, _, _ => False

abbrev RejoinThread :=
  Threads DispatcherOp DispatcherOp.Res (fun _ : Unit => Option (Option LiveLink)) RejoinWorld

def RejoinThread.start : RejoinThread where
  shared := {}
  threads _ := none

/-! ## The programs -/

/-- A `join` is sent only on the connection that is being joined. -/
def JoinsOwn (joining : Option ℕ) : DispatcherOp → Prop
  | .send socket (.join ..) => joining = some socket
  | _ => True

namespace JoinsOwn

abbrev Runs {α : Type} (final : Option ℕ → α → Prop) (a : Option ℕ) (p : DispatcherProgram α) :
    Prop :=
  Conforms JoinsOwn joiningAfter final a p

def IsPlain : DispatcherOp → Prop
  | .send _ (.join ..) => False
  | _ => True

section Programs

variable {α β : Type} {a : Option ℕ} {crates : LinkCrates}

theorem of_isPlain {op : DispatcherOp} (hop : IsPlain op) : JoinsOwn a op := by
  unfold JoinsOwn
  split
  · exact hop.elim
  · trivial

theorem runs_plain {op : DispatcherOp} {k : op.Res → DispatcherProgram α}
    {final : Option ℕ → α → Prop} (hop : IsPlain op)
    (hk : ∀ r, Runs final (joiningAfter a op r) (k r)) : Runs final a (.call op k) :=
  ⟨of_isPlain hop, hk⟩

theorem runs_of_isPlain {p : DispatcherProgram α} (hp : p.AllOps IsPlain) :
    Runs (fun _ _ => True) a p := by
  induction p generalizing a with
  | done x => trivial
  | call op k ih => exact runs_plain hp.1 fun r => ih r (hp.2 r)

theorem runs_bind {p : DispatcherProgram α} {f : α → DispatcherProgram β}
    (hp : Runs (fun _ _ => True) a p) (hf : ∀ x a, Runs (fun _ _ => True) a (f x)) :
    Runs (fun _ _ => True) a (p >>= f) :=
  conforms_bind hp fun a x _ => hf x a

variable {identity : Identity} {socket : ℕ}

/-- The handshake does not leave the connection. -/
theorem runs_handshake :
    Runs (fun a r => ∀ challenge, r = .ok challenge → a = some socket) (some socket)
      (handshake crates identity socket) := by
  refine runs_plain trivial ?_
  rintro (_ | _)
  · rintro _ ⟨⟩
  refine runs_plain trivial ?_
  rintro (_ | frame)
  · rintro _ ⟨⟩
  cases frame with
  | helloOk serverVersion nonceB64 =>
    simp only [Program.bind]
    split
    · exact fun _ _ => rfl
    · exact fun _ _ => rfl
  | _ => exact fun _ _ => rfl

theorem runs_joinLive {record : PairingRecord} {challenge : Bytes} :
    Runs (fun _ _ => True) (some socket)
      (joinLive crates identity record challenge socket) := by
  unfold joinLive
  dsimp only
  split
  · trivial
  refine ⟨rfl, ?_⟩
  rintro (_ | _)
  · trivial
  · exact runs_of_isPlain (allOps_receiveJoinOk trivial)

theorem runs_join : Runs (fun _ _ => True) a (join crates) := by
  refine runs_plain trivial ?_
  rintro (_ | _ | record)
  · trivial
  · trivial
  refine runs_plain trivial ?_
  rintro (_ | identity)
  · trivial
  refine runs_plain trivial ?_
  rintro (_ | socket)
  · trivial
  refine conforms_bind (p := handshake crates identity socket) runs_handshake ?_
  rintro a (_ | challenge) ha
  · trivial
  · cases ha challenge rfl
    exact runs_joinLive

variable {connection : Option LiveLink} {fuel : ℕ}

theorem runs_reconnect {way : Joining} {attempt : ℕ} :
    Runs (fun _ _ => True) a (reconnect crates way fuel attempt) := by
  induction fuel generalizing a attempt with
  | zero => exact runs_plain trivial fun never => never.elim
  | succ fuel ih =>
    refine runs_bind (p := join crates) runs_join ?_
    rintro (error | link) a
    · dsimp only
      split
      · exact runs_plain trivial fun _ => ih
      · trivial
    · exact runs_plain trivial fun _ => trivial

theorem runs_recvReconnecting {link : LiveLink} :
    Runs (fun _ _ => True) a (recvReconnecting crates fuel link) := by
  refine runs_bind (p := recv crates link) (runs_of_isPlain (allOps_recv trivial)) ?_
  rintro (error | frame) a
  · dsimp only
    split
    · refine runs_bind (p := reconnect crates .rejoin fuel 0) runs_reconnect ?_
      rintro (error | fresh) a
      · trivial
      · trivial
    · trivial
  · trivial

theorem runs_racing {p : DispatcherProgram α} (hp : Runs (fun _ _ => True) a p) :
    Runs (fun _ _ => True) a (racing p) := by
  induction p generalizing a with
  | done x => trivial
  | call op k ih =>
    rw [racing]
    split
    · refine runs_plain trivial ?_
      rintro (_ | command)
      · exact ⟨hp.1, fun r => ih r (hp.2 r)⟩
      · exact runs_plain trivial fun _ => trivial
    · exact ⟨hp.1, fun r => ih r (hp.2 r)⟩

theorem runs_emit {status : CoreStatus} : Runs (fun _ _ => True) a (emit status) :=
  runs_plain trivial fun _ => trivial

theorem runs_handleInboundClip {roomId ciphertextB64 : String} {mailbox : Bool} :
    Runs (fun _ _ => True) a (handleInboundClip roomId ciphertextB64 mailbox) := by
  refine runs_plain trivial ?_
  rintro (message | _)
  · exact runs_emit
  · trivial

theorem runs_handleBootstrap {bootstrapClip : Option (String × String)} :
    Runs (fun _ _ => True) a (handleBootstrap bootstrapClip) := by
  obtain _ | ⟨roomId, ciphertextB64⟩ := bootstrapClip
  · trivial
  · exact runs_handleInboundClip

theorem runs_handleLiveEvent {event : LiveEvent} :
    Runs (fun _ _ => True) a (handleLiveEvent event) := by
  cases event with
  | frame frame =>
    cases frame with
    | clip roomId ciphertextB64 originDevice mailbox => exact runs_handleInboundClip
    | _ => trivial
  | reconnected bootstrapClip => exact runs_bind runs_emit fun _ _ => runs_handleBootstrap

theorem runs_closeConnection {link : LiveLink} : Runs (fun _ _ => True) a (closeConnection link) :=
  runs_plain trivial fun _ => runs_emit

theorem runs_closePrevious : Runs (fun _ _ => True) a (closePrevious connection) := by
  cases connection with
  | none => trivial
  | some link => exact runs_closeConnection

theorem runs_sendOverConnection {link : LiveLink} {content : ClipContent} {tsMs : Int64} :
    Runs (fun _ _ => True) a (sendOverConnection crates fuel link content tsMs) := by
  refine runs_plain trivial fun seq => runs_plain trivial ?_
  rintro (message | ⟨roomId, ciphertextB64⟩)
  · trivial
  refine runs_plain trivial ?_
  rintro (error | _)
  · simp only [Program.bind]
    split
    · refine runs_bind (p := emit .reconnecting) runs_emit fun _ a => ?_
      refine runs_bind (p := reconnect crates .send fuel 0) runs_reconnect ?_
      rintro (error | fresh) a
      · trivial
      refine runs_bind runs_handleBootstrap fun _ a => runs_bind runs_emit fun _ a => ?_
      refine runs_plain trivial ?_
      rintro (_ | _)
      · trivial
      · trivial
    · trivial
  · trivial

theorem runs_handleCommand {command : DispatcherCommand} :
    Runs (fun _ _ => True) a (handleCommand crates fuel connection command) := by
  cases command with
  | disconnect => exact runs_bind runs_closePrevious fun _ _ => runs_plain trivial fun _ => trivial
  | send content tsMs =>
    cases connection with
    | none => exact runs_plain trivial fun _ => trivial
    | some link =>
      exact runs_bind runs_sendOverConnection fun _ _ => runs_plain trivial fun _ => trivial
  | query command => exact runs_plain trivial fun _ => runs_plain trivial fun _ => trivial
  | connect fresh =>
    refine runs_bind runs_closePrevious fun _ _ => runs_plain trivial fun _ => ?_
    refine runs_bind (p := handleBootstrap fresh.bootstrapClip) runs_handleBootstrap fun _ _ => ?_
    refine runs_plain trivial fun _ => ?_
    exact runs_bind (p := emit .connected) runs_emit fun _ _ => trivial

theorem runs_turn : Runs (fun _ _ => True) a (turn crates fuel connection) := by
  cases connection with
  | none =>
    refine runs_plain trivial ?_
    rintro (_ | command)
    · trivial
    · exact runs_bind (p := handleCommand crates fuel none command) runs_handleCommand
        fun _ _ => trivial
  | some link =>
    refine runs_bind (p := racing (recvReconnecting crates fuel link))
      (runs_racing runs_recvReconnecting) ?_
    rintro ((error | ⟨event, fresh⟩) | (_ | command)) a
    · exact runs_bind runs_closeConnection fun _ _ => runs_bind runs_emit fun _ _ => trivial
    · exact runs_bind runs_handleLiveEvent fun _ _ => trivial
    · trivial
    · exact runs_bind runs_handleCommand fun _ _ => trivial

end Programs

end JoinsOwn

/-! ## Runs -/

namespace RejoinWorld

variable {w v : RejoinWorld} {op : DispatcherOp} {r : op.Res}

def Unasked (w : RejoinWorld) (socket : ℕ) : Prop :=
  ∀ frame ∈ w.sent socket, ¬ IsJoin frame

/-- A clip is removed for a connection only after a `join` was sent on it, and if joinings are
dropped in time, none is removed for one that was dropped. -/
structure Sound (timely : Prop) (w : RejoinWorld) : Prop where
  fresh : ∀ socket, w.opened ≤ socket → w.Unasked socket ∧ w.taken socket = none
  joining : ∀ socket, w.joining = some socket →
    socket < w.opened ∧ socket ∉ w.dropped ∧ (w.Unasked socket → w.taken socket = none)
  dropped : ∀ socket ∈ w.dropped,
    socket < w.opened ∧
      (timely → w.Unasked socket ∧ w.taken socket = none ∨ w.taken socket = some none)

variable {timely : Prop}

theorem Sound.idle (h : Sound timely w) : Sound timely { w with joining := none } where
  fresh := h.fresh
  joining := by rintro _ ⟨⟩
  dropped := h.dropped

variable {socket : ℕ}

theorem Sound.take (h : Sound timely w) (hopened : socket < w.opened) (hasked : ¬ w.Unasked socket)
    (hfirst : w.taken socket = none) (roomId : String) :
    Sound timely (w.take socket roomId) := by
  have hother : ∀ other, other ≠ socket → (w.take socket roomId).taken other = w.taken other :=
    fun other hne => update_of_ne hne _ _
  refine ⟨fun other hother' => ?_, fun other hjoining => ?_, fun other hdropped => ?_⟩
  · rw [hother other (by rintro rfl; exact absurd hother' (Nat.not_le.2 hopened))]
    exact h.fresh other hother'
  · obtain ⟨hlt, hkept, hclean⟩ := h.joining other hjoining
    refine ⟨hlt, hkept, fun hunasked => ?_⟩
    rw [hother other (by rintro rfl; exact hasked hunasked)]
    exact hclean hunasked
  · obtain ⟨hlt, hclean⟩ := h.dropped other hdropped
    refine ⟨hlt, fun htimely => ?_⟩
    rw [hother other ?_]
    · exact hclean htimely
    · rintro rfl
      rcases hclean htimely with ⟨hunasked, -⟩ | hnone
      · exact hasked hunasked
      · rw [hfirst] at hnone
        cases hnone

theorem Sound.connect (h : Sound timely w) (identity : Identity) (record : PairingRecord) :
    Sound timely { w.take w.opened record.roomId with
      opened := w.opened + 1
      links := w.links ++ [⟨identity, record, w.opened, w.clipOf record.roomId⟩] } := by
  have hother : ∀ other, other ≠ w.opened →
      (w.take w.opened record.roomId).taken other = w.taken other :=
    fun other hne => update_of_ne hne _ _
  refine ⟨fun other hle => ?_, fun other hjoining => ?_, fun other hdropped => ?_⟩
  · have hfresh := h.fresh other (Nat.le_of_succ_le hle)
    refine ⟨hfresh.1, ?_⟩
    exact (hother other (Nat.ne_of_gt hle)).trans hfresh.2
  · obtain ⟨hlt, hkept, hclean⟩ := h.joining other hjoining
    refine ⟨Nat.lt_succ_of_lt hlt, hkept, fun hunasked => ?_⟩
    exact (hother other (Nat.ne_of_lt hlt)).trans (hclean hunasked)
  · obtain ⟨hlt, hclean⟩ := h.dropped other hdropped
    refine ⟨Nat.lt_succ_of_lt hlt, ?_⟩
    have htaken := hother other (Nat.ne_of_lt hlt)
    exact fun h => (hclean h).imp (And.imp_right htaken.trans) htaken.trans

theorem opened_of_asked (h : Sound timely w) (hasked : ¬ w.Unasked socket) : socket < w.opened := by
  by_contra hnot
  exact hasked (h.fresh socket (Nat.not_lt.1 hnot)).1

theorem Sound.relay (h : Sound timely w) (hstep : RelayStep w v) : Sound timely v := by
  cases hstep with
  | clip roomId ciphertextB64 originDevice => exact ⟨h.fresh, h.joining, h.dropped⟩
  | onJoin hsent hfirst =>
    have hasked : ¬ w.Unasked _ := fun hunasked => hunasked _ hsent trivial
    have htake := h.take (opened_of_asked h hasked) hasked hfirst
    exact ⟨(htake _).fresh, (htake _).joining, (htake _).dropped⟩
  | other socket frame hframe => exact ⟨h.fresh, h.joining, h.dropped⟩
  | connect identity record => exact h.connect identity record

theorem joining_of_relay (hstep : RelayStep w v) : v.joining = w.joining := by
  cases hstep <;> rfl

theorem Timely.relay (h : Timely w op) (hsound : Sound timely w) (hstep : RelayStep w v) :
    Timely v op := by
  rintro hop socket hjoining
  rw [joining_of_relay hstep] at hjoining
  have hlt := (hsound.joining socket hjoining).1
  cases hstep with
  | clip roomId ciphertextB64 originDevice => exact h hop socket hjoining
  | onJoin hsent hfirst =>
    refine (h hop socket hjoining).imp_right fun hnone => ?_
    refine (update_of_ne ?_ _ _).trans hnone
    rintro rfl
    rw [hfirst] at hnone
    cases hnone
  | other socket frame hframe => exact h hop _ hjoining
  | connect identity record =>
    refine (h hop socket hjoining).imp_right fun hnone => ?_
    exact (update_of_ne (Nat.ne_of_lt hlt) _ _).trans hnone

theorem Sound.relays (h : Sound timely w) (htimely : timely → Timely w op)
    (hsteps : Relation.ReflTransGen RelayStep w v) :
    Sound timely v ∧ (timely → Timely v op) ∧ v.joining = w.joining := by
  induction hsteps with
  | refl => exact ⟨h, htimely, rfl⟩
  | tail _ hstep ih =>
    obtain ⟨hsound, htimely, hjoining⟩ := ih
    exact ⟨hsound.relay hstep, fun h => (htimely h).relay hsound hstep,
      (joining_of_relay hstep).trans hjoining⟩

theorem joining_takeCommand (command : Option DispatcherCommand) :
    (w.takeCommand command).joining = w.joining := by
  unfold takeCommand
  split <;> rfl

theorem Sound.takeCommand (h : Sound timely w) (command : Option DispatcherCommand) :
    Sound timely (w.takeCommand command) := by
  unfold RejoinWorld.takeCommand
  split
  · exact ⟨h.fresh, h.joining, h.dropped⟩
  · exact h

theorem joining_after : (w.after op r).joining = joiningAfter w.joining op r := by
  cases op with
  | recvCommand => exact joining_takeCommand _
  | pollCommand =>
    cases r with
    | none => rfl
    | some command => exact joining_takeCommand _
  | connect server => cases r <;> rfl
  | receive socket => cases r <;> rfl
  | _ => rfl

theorem Sound.push (h : Sound timely w) {frame : Frame}
    (hown : JoinsOwn w.joining (.send socket frame)) : Sound timely (w.push socket frame) := by
  have hother : ∀ other, other ≠ socket ∨ ¬ IsJoin frame →
      ((w.push socket frame).Unasked other ↔ w.Unasked other) := by
    intro other hcase
    by_cases hne : other = socket
    · subst hne
      have hframe := hcase.resolve_left (fun hne => hne rfl)
      have hsent : (w.push other frame).sent other = w.sent other ++ [frame] :=
        update_self _ _ _
      unfold Unasked
      rw [hsent]
      simp only [List.mem_append, List.mem_singleton]
      exact ⟨fun hall f hf => hall f (.inl hf), fun hall f hf =>
        hf.elim (hall f) (by rintro rfl; exact hframe)⟩
    · have hsent : (w.push socket frame).sent other = w.sent other :=
        update_of_ne hne _ _
      unfold Unasked
      rw [hsent]
  by_cases hframe : IsJoin frame
  · have hjoining : w.joining = some socket := by
      cases frame with
      | join roomId deviceId pubBundle sigB64 => exact hown
      | _ => exact hframe.elim
    obtain ⟨hlt, hkept, hclean⟩ := h.joining socket hjoining
    refine ⟨fun other hle => ?_, fun other hother' => ?_, fun other hdropped => ?_⟩
    · have hne : other ≠ socket := Nat.ne_of_gt (lt_of_lt_of_le hlt hle)
      rw [hother other (.inl hne)]
      exact h.fresh other hle
    · obtain rfl : other = socket := Option.some.inj (hother'.symm.trans hjoining)
      refine ⟨hlt, hkept, fun hunasked => ?_⟩
      have hmem : frame ∈ (w.push other frame).sent other := by
        simp [RejoinWorld.push]
      exact absurd hframe (hunasked frame hmem)
    · have hne : other ≠ socket := by
        rintro rfl
        exact hkept hdropped
      rw [hother other (.inl hne)]
      exact h.dropped other hdropped
  · refine ⟨fun other hle => ?_, fun other hother' => ?_, fun other hdropped => ?_⟩
    · rw [hother other (.inr hframe)]
      exact h.fresh other hle
    · rw [hother other (.inr hframe)]
      exact h.joining other hother'
    · rw [hother other (.inr hframe)]
      exact h.dropped other hdropped

theorem Sound.after (h : Sound timely w) (hpossible : w.Possible op r)
    (hown : JoinsOwn w.joining op) (htimely : timely → Timely w op) :
    Sound timely (w.after op r) := by
  cases op with
  | recvCommand => exact h.idle.takeCommand _
  | pollCommand =>
    cases r with
    | none => exact h
    | some command => exact h.takeCommand _
  | dropFuture =>
    refine ⟨h.fresh, by rintro _ ⟨⟩, fun socket hsocket => ?_⟩
    rcases List.mem_append.1 hsocket with hnew | hold
    · have hjoining := Option.mem_toList.1 hnew
      obtain ⟨hlt, -, hclean⟩ := h.joining socket hjoining
      exact ⟨hlt, fun h => (htimely h rfl socket hjoining).imp_left fun hunasked =>
        ⟨hunasked, hclean hunasked⟩⟩
    · exact h.dropped socket hold
  | connect server =>
    cases r with
    | error error => exact h.idle
    | ok socket =>
      cases hpossible
      refine ⟨fun other hle => ?_, ?_, fun other hdropped => ?_⟩
      · exact h.fresh other (Nat.le_of_succ_le hle)
      · rintro _ ⟨⟩
        refine ⟨Nat.lt_succ_self _, fun hdropped => ?_, fun _ => (h.fresh _ le_rfl).2⟩
        exact absurd (h.dropped _ hdropped).1 (lt_irrefl _)
      · exact (h.dropped other hdropped).imp_left Nat.lt_succ_of_lt
  | send socket frame =>
    have hpush := h.push hown
    cases r with
    | error error => exact hpush.idle
    | ok _ => exact hpush
  | receive socket =>
    cases r with
    | error error => exact h.idle
    | ok frame => exact ⟨h.fresh, h.joining, h.dropped⟩
  | handleClip roomId ciphertextB64 mailbox => exact ⟨h.fresh, by rintro _ ⟨⟩, h.dropped⟩
  | _ => exact h.idle

end RejoinWorld

/-- The rest of a turn sends a `join` only on the connection that is being joined. -/
def Joins (p : DispatcherProgram (Option (Option LiveLink))) (w : RejoinWorld) : Prop :=
  JoinsOwn.Runs (fun _ _ => True) w.joining p

theorem joins_invariant (crates : LinkCrates) {timely : Prop}
    {E : (op : DispatcherOp) → RejoinWorld → op.Res → RejoinWorld → Prop}
    (hE : ∀ {op w r w'}, E op w r w' → (timely → Timely w op) ∧ exec op w r w') :
    Threads.Invariant ⟨fun _ => E, (rejoinSystem crates).enter⟩ (Sound timely)
      (fun _ => Joins) where
  enter {t value w p w'} hsound _ henter := by
    have hrest : Sound timely w' ∧ Joins p w' := by
      obtain _ | _ | connection := value
      · obtain ⟨fuel, rfl, rfl⟩ := henter
        exact ⟨hsound, JoinsOwn.runs_turn⟩
      · exact henter.elim
      · obtain ⟨fuel, rfl, rfl⟩ := henter
        exact ⟨hsound, JoinsOwn.runs_turn⟩
    exact ⟨hrest.1, hrest.2, fun u hu => (hu (Subsingleton.elim u t)).elim⟩
  access {t op k w r w'} hsound hjoins hexec := by
    obtain ⟨htimely, v, hrelay, hpossible, rfl⟩ := hE hexec
    obtain ⟨hown, hrest⟩ := hjoins
    obtain ⟨hsound, htimely, hjoining⟩ := hsound.relays htimely hrelay
    rw [← hjoining] at hown hrest
    refine ⟨hsound.after hpossible hown htimely, ?_,
      fun u hu => (hu (Subsingleton.elim u t)).elim⟩
    rw [Joins, joining_after]
    exact hrest r

theorem holds_start (timely : Prop) :
    Threads.Holds (Sound timely) (fun _ => Joins) RejoinThread.start := by
  refine ⟨⟨fun _ _ => ⟨by rintro _ ⟨⟩, rfl⟩, by rintro _ ⟨⟩, by rintro _ ⟨⟩⟩, ?_⟩
  rintro _ _ ⟨⟩

/-- If the joining is only dropped for a command before its `join` is sent, or after the relay
has answered without a clip, then every clip that the relay removed for a joining that was
dropped is passed to the session or is the bootstrap of a later join. -/
theorem no_clip_lost (crates : LinkCrates) {x : RejoinThread}
    (hrun : Threads.Reaches ((rejoinSystem crates).guarded fun _ op w => Timely w op)
      RejoinThread.start x) : x.shared.NoneLost := by
  have hinvariant : Threads.Invariant ((rejoinSystem crates).guarded fun _ op w => Timely w op)
      (Sound True) fun _ => Joins :=
    joins_invariant crates (And.imp_left fun htimely _ => htimely)
  have hsound := (hinvariant.reaches (holds_start True) hrun).1
  -- Under the condition nothing is removed for a joining that was dropped.
  intro socket hdropped clip htaken
  obtain ⟨-, hnone⟩ | hnone := (hsound.dropped socket hdropped).2 trivial
  · rw [htaken] at hnone
    cases hnone
  · rw [htaken] at hnone
    cases hnone

namespace RejoinSample

open LinkSample

def withClip (w : RejoinWorld) : RejoinWorld :=
  { w with pending := update w.pending record.roomId (some ("clip", "peer")) }

def connect (w : RejoinWorld) : RejoinWorld :=
  { w.take w.opened record.roomId with
    opened := w.opened + 1
    links := w.links ++ [⟨identity, record, w.opened, w.clipOf record.roomId⟩] }

def answer (n : ℕ) (w : RejoinWorld) : RejoinWorld :=
  if LinkSample.join ∈ w.sent n ∧ w.taken n = none then
    (w.take n record.roomId).enqueue n [.joinOk, bootstrap record.roomId (w.pending record.roomId)]
  else w

theorem relays_answer (n : ℕ) (w : RejoinWorld) :
    Relation.ReflTransGen RelayStep w (answer n w) := by
  unfold answer
  split
  · rename_i h
    exact .single (.onJoin h.1 h.2)
  · exact .refl

/-- What is told of a run: whether a command is ready, and a clip has come before. -/
structure Choice where
  ready : Bool
  clip : Bool

variable (c : Choice)

/-- The relay answers when it is waited for, and before a command is taken. -/
def relay : DispatcherOp → RejoinWorld → RejoinWorld
  | .recvCommand, w => connect w
  | .pollCommand, w =>
    if c.ready = true then answer 1 (if c.clip = true then withClip w else w) else w
  | .receive n, w =>
    if LinkSample.join ∈ w.sent n then answer n w else if n = 0 then w else w.enqueue n [helloOk]
  | _, w => w

theorem relays_relay (op : DispatcherOp) (w : RejoinWorld) :
    Relation.ReflTransGen RelayStep w (relay c op w) := by
  cases op with
  | recvCommand => exact .single (.connect identity record)
  | pollCommand =>
    rw [relay]
    split
    · refine .trans ?_ (relays_answer 1 _)
      split
      · exact .single (.clip record.roomId "clip" "peer")
      · exact .refl
    · exact .refl
  | receive n =>
    rw [relay]
    split
    · exact relays_answer n w
    · split
      · exact .refl
      · exact .single (.other n helloOk id)
  | _ => exact .refl

def result (w : RejoinWorld) : (op : DispatcherOp) → Option op.Res
  | .recvCommand => some (w.links.head?.map .connect)
  | .pollCommand => some (if c.ready = true then some (some (.query .history)) else none)
  | .loadPairing => some (.ok (some record))
  | .loadIdentity => some (.ok identity)
  | .connect _ => some (.ok w.opened)
  | .send .. | .close _ | .handleClip .. => some (.ok ())
  | .receive n => some ((w.queue n).head?.elim (.error .closed) .ok)
  | .dropFuture | .adopt .. | .emit _ | .answer _ | .reply | .sleep _ => some ()
  | _ => none

theorem possible_of_result {w : RejoinWorld} {op : DispatcherOp} {r : op.Res}
    (h : result c w op = some r) : w.Possible op r := by
  cases op with
  | recvCommand =>
    cases h
    cases hlinks : w.links.head? with
    | none => trivial
    | some fresh => exact hlinks
  | pollCommand =>
    cases h
    split <;> trivial
  | connect server =>
    cases h
    rfl
  | receive n =>
    cases h
    cases hqueue : (w.queue n).head? with
    | none => trivial
    | some frame => exact hqueue
  | _ => trivial

def replay : Threads.Replay (rejoinSystem crates) Choice where
  access c _ op w := (result c (relay c op w) op).map fun r => (r, (relay c op w).after op r)
  enter _ _ value w := match value with
    | none => some (turn crates 1 none, w)
    | some (some connection) => some (turn crates 1 connection, w)
    | some none => none
  exec_of_access {c t op w r w'} h := by
    obtain ⟨_, hresult, heq⟩ := Option.map_eq_some_iff.1 h
    cases heq
    exact ⟨_, relays_relay c op w, possible_of_result c hresult, rfl⟩
  enter_of_enter {c t value w p w'} h := by
    obtain _ | _ | connection := value <;> cases h <;> exact ⟨1, rfl, rfl⟩

def timelyReplay : Threads.Replay ((rejoinSystem crates).guarded fun _ op w =>
    Timely w op) Choice :=
  replay.guarded (fun _ op w => match op with
    | .dropFuture => w.joining.all fun socket => (w.sent socket).isEmpty
    | _ => true) (by
  rintro _ op w h rfl socket hjoining
  rw [hjoining] at h
  exact .inl (by simp [List.isEmpty_iff.1 h]))

/-- A connection is made, a joining dropped after `count` operations, and the next one ends. -/
def moves (count : ℕ) (clip : Bool) : List (Threads.Move Unit Choice) :=
  [⟨(), 9, false, false⟩, ⟨(), count, false, clip⟩, ⟨(), 9, true, clip⟩, ⟨(), 99, false, false⟩]

def early : RejoinThread := timelyReplay.final (moves 6 true) RejoinThread.start

/-- A joining that is dropped in time, and the clip is handed over with the next one. -/
theorem no_clip_lost_delivered : ∃ x, Threads.Reaches
    ((rejoinSystem crates).guarded fun _ op w => Timely w op) RejoinThread.start x ∧
      x.shared.dropped = [1] ∧ x.shared.handled = [("room", "clip")] ∧ x.shared.NoneLost :=
  ⟨early, Threads.Replay.reaches_final, by decide +kernel, by decide +kernel,
    no_clip_lost crates Threads.Replay.reaches_final⟩

def late : RejoinThread := replay.final (moves 12 true) RejoinThread.start

/-- The joining is dropped when the relay has removed the clip; the next join gets none. -/
theorem clip_lost : ∃ x, Threads.Reaches (rejoinSystem crates) RejoinThread.start x ∧
    x.threads () = some (done (some (some ⟨identity, record, 2, none⟩))) ∧
    ¬ x.shared.NoneLost := by
  refine ⟨late, Threads.Replay.reaches_final, Threads.threads_of_value (by decide +kernel),
    fun hnone => ?_⟩
  obtain hhandled | ⟨later, hlater, -, htaken⟩ :=
    hnone 1 (by decide +kernel) ("room", "clip") (by decide +kernel)
  · exact absurd hhandled (by decide +kernel)
  · obtain rfl | hgt := Nat.eq_or_lt_of_le hlater
    · exact absurd htaken (by decide +kernel)
    · have hsound : Sound False late.shared :=
        ((joins_invariant crates fun h => ⟨False.elim, h⟩).reaches (holds_start False)
          Threads.Replay.reaches_final).1
      have hopened : late.shared.opened = 3 := by decide +kernel
      rw [(hsound.fresh later (hopened ▸ hgt)).2] at htaken
      cases htaken

end RejoinSample

end ClipSync
