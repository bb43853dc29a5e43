import ClipSync.Server.Connection

/-!
# What enters a room

A connection of `crates/server/src/connection.rs` from its start on, whatever its client sends.
An event enters the inbox of a room only for a client that has answered the challenge of this
connection with the key of a member of the room, and a challenge is answered but once.
-/

namespace ClipSync

open Lib Program RelayProgram

/-- What is remembered of a connection: the challenge that no join has used yet, the last join
with the challenge it has used, the members of the room last asked for, the room last looked up in
the table and the inbox that was found for it, and the room that has accepted the connection. -/
structure Login where
  challenge : Option Key
  attempt : Option (Key × Frame)
  members : String × List String
  room : String
  inbox : Option ℕ
  joined : Option (String × String)

namespace Login

variable (prim : Primitives) (id : ConnectionId)

/-- The last join is for the room, and its signature of an unused challenge is by the key whose
fingerprint and device id are those of the event, and the fingerprint is that of a member. -/
def Authentic (login : Login) (fp device : String) : Prop :=
  ∃ nonce bundle sigB64 signature message,
    login.attempt = some (nonce, .join login.room device bundle sigB64) ∧
    decodeSignature sigB64 = some signature ∧
    joinSigMsg nonce.toList login.room device (bundleBytes bundle) = some message ∧
    prim.verifyStrict bundle.signPk message signature = true ∧
    deviceId prim bundle.signPk = device ∧ bundleFp prim bundle = fp ∧
    login.members.1 = login.room ∧ fp ∈ login.members.2

/-- What may be put into an inbox for the connection. -/
def Grants (login : Login) : RoomEvent → Prop
  | .join fp device connectionId _ => connectionId = id ∧ login.Authentic prim fp device
  | .clip fp connectionId _ _ | .disconnect fp connectionId =>
    connectionId = id ∧ login.joined = some (login.room, fp)

/-- An event goes into the inbox that the table has for the room, or into none. -/
def Permits (login : Login) : RelayOp → Prop
  | .rooms (.trySend inbox event) => login.inbox = some inbox ∧ login.Grants prim id event
  | _ => True

/-- A join uses the challenge up, and an accepted one cannot be accepted again. -/
def advance (login : Login) : (op : RelayOp) → op.Res → Login
  | .fillBytes, nonce => { login with challenge := some nonce }
  | .accept _ (.join roomId device bundle sigB64), _ =>
    { login with challenge := none
                 attempt := login.challenge.map (·, .join roomId device bundle sigB64) }
  | .lookupMembers roomId _, members => { login with members := (roomId, members) }
  | .rooms (.entry roomId), handle | .rooms (.get roomId), handle =>
    { login with room := roomId, inbox := handle.map (·.id) }
  | .rooms (.vacantInsert roomId _), handle =>
    { login with room := roomId, inbox := some handle.id }
  | .rooms (.trySend _ (.join fp ..)), true =>
    { login with joined := some (login.room, fp), attempt := none }
  | _, _ => login

/-- The operations that neither reach a room nor matter to a login. -/
def Quiet : RelayOp → Prop
  | .fillBytes | .accept .. | .lookupMembers .. | .rooms _ => False
  | _ => True

/-- A part of the connection that is permitted all it does. -/
abbrev Keeps {α : Type} (final : Login → α → Prop) (login : Login) (p : RelayProgram α) : Prop :=
  Conforms (Permits prim id) advance final login p

variable {prim id} {α : Type} {login : Login} {options : MailboxOptions}

theorem conforms_of_quiet {p : RelayProgram α} (hp : p.AllOps Quiet) :
    Keeps prim id (fun b _ => b = login) login p := by
  refine conforms_of_skips (allOps_mono (fun op hop => ?_) hp)
  cases op with
  | fillBytes | accept | lookupMembers | rooms => cases hop
  | _ => exact ⟨trivial, fun _ => rfl⟩

theorem conforms_onOutbox {handle : OutboxHandle} {p : OutboxProgram α} :
    Keeps prim id (fun b _ => b = login) login (onOutbox handle p) :=
  conforms_of_quiet (allOps_lift (P := fun _ => True) (fun _ _ => ⟨trivial, fun _ => trivial⟩)
    (allOps_true p))

/-! ## The table of rooms -/

theorem conforms_trySend {handle : RoomHandle} {event : RoomEvent}
    (h : login.Permits prim id (.rooms (.trySend handle.id event))) :
    Keeps prim id
      (fun b r => match r with
        | .ok () => b = login.advance (.rooms (.trySend handle.id event)) true
        | .error e => b = login ∧ e = event) login (onRooms options (handle.trySend event)) := by
  refine ⟨trivial, fun previous => ?_⟩
  change Conforms _ _ _ login (lift _ (if _ then _ else _))
  split
  · exact ⟨trivial, fun _ => ⟨rfl, rfl⟩⟩
  · refine ⟨h, ?_⟩
    rintro (_ | _)
    · have hsame : login.advance (.rooms (.trySend handle.id event)) false = login := by
        cases event <;> rfl
      change Conforms _ _ _ (login.advance (.rooms (.trySend handle.id event)) false) _
      rw [hsame]
      exact ⟨trivial, fun _ => ⟨rfl, rfl⟩⟩
    · rfl

theorem conforms_entryOrSpawn {roomId : String} {memberFps : List String} :
    Keeps prim id (fun b handle => b = { login with room := roomId, inbox := some handle.id }) login
      (onRooms options (Rooms.entryOrSpawn roomId memberFps)) := by
  refine ⟨trivial, ?_⟩
  rintro (_ | handle)
  · change Conforms _ _ _ { login with room := roomId, inbox := none } (onMailbox _ >>= _)
    refine conforms_bind (conforms_of_quiet (allOps_lift (P := fun _ => True)
      (fun _ _ => ⟨trivial, fun _ => trivial⟩) (allOps_true _))) ?_
    rintro _ pending rfl
    exact ⟨trivial, fun _ => rfl⟩
  · rfl

theorem conforms_joinLoop {roomId fp device : String} {memberFps : List String}
    {outbox : OutboxHandle} {attempts : ℕ}
    (h : Authentic prim { login with room := roomId } fp device) :
    Keeps prim id
      (fun b r => b.challenge = login.challenge ∧ (r = .ok () → b.joined = some (roomId, fp)))
      login (onRooms options
        (Rooms.joinLoop roomId memberFps (.join fp device id outbox) attempts)) := by
  induction attempts generalizing login with
  | zero => exact ⟨rfl, nofun⟩
  | succ attempts ih =>
    rw [Rooms.joinLoop, onRooms, lift_bind]
    refine conforms_bind conforms_entryOrSpawn ?_
    rintro _ handle rfl
    rw [lift_bind]
    refine conforms_bind (conforms_trySend ⟨rfl, rfl, h⟩) ?_
    rintro b (e | _) hb
    · obtain ⟨rfl, rfl⟩ := hb
      refine ⟨trivial, ?_⟩
      rintro (_ | _)
      · exact ⟨rfl, nofun⟩
      · exact ⟨trivial, fun _ => @ih { login with room := roomId, inbox := some handle.id } h⟩
    · cases hb
      exact ⟨rfl, fun _ => rfl⟩

theorem conforms_routed {handle : RoomHandle} {event : RoomEvent}
    (h : login.Permits prim id (.rooms (.trySend handle.id event)))
    (hsame : login.advance (.rooms (.trySend handle.id event)) true = login) :
    Keeps prim id (fun b _ => b = login) login
      (onRooms options (handle.trySend event)) := by
  refine conforms_mono (fun _ _ => fun h => h) ?_ (conforms_trySend h)
  rintro b (e | _) hb
  · exact hb.1
  · exact hb.trans hsame

theorem conforms_clip {roomId fp ciphertextB64 : String} {encodedSize : ℕ}
    (h : login.joined = some (roomId, fp)) :
    Keeps prim id (fun b _ => ∃ inbox, b = { login with room := roomId, inbox }) login
      (onRooms options (Rooms.clip roomId fp id ciphertextB64 encodedSize)) := by
  refine ⟨trivial, ?_⟩
  rintro (_ | handle)
  · exact ⟨none, rfl⟩
  · exact conforms_mono (fun _ _ h => h) (fun _ _ hb => ⟨_, hb⟩)
      (conforms_routed ⟨rfl, rfl, h⟩ rfl)

theorem conforms_disconnect {roomId fp : String} (h : login.joined = some (roomId, fp)) :
    Keeps prim id (fun _ _ => True) login
      (onRooms options (Rooms.disconnect roomId fp id)) := by
  refine ⟨trivial, ?_⟩
  rintro (_ | handle)
  · trivial
  · change Conforms _ _ _ _ (lift _ (handle.trySend _ >>= _))
    rw [lift_bind]
    exact conforms_bind (conforms_routed ⟨rfl, rfl, h⟩ rfl)
      fun _ _ _ => trivial

/-! ## The reader -/

variable (id) in
/-- What the reader knows of a login. -/
structure Matches (reader : Connection) (login : Login) : Prop where
  connection : reader.connectionId = id
  nonce : ∀ nonce bundle, reader.phase = .ready nonce bundle → login.challenge = nonce
  unjoined : reader.phase ≠ .joined → reader.joined = none
  joined : ∀ x, reader.joined = some x → login.joined = some x

variable (id) in
/-- What the reader knows after a frame. -/
def Settles (login : Login) (r : Connection.Step × Connection) : Prop :=
  Matches id r.2 login ∧ ∀ roomId fp, r.1 = .joined roomId fp → login.joined = some (roomId, fp)

variable {config : RelayConfig} {self : Connection}

variable (config self) in
theorem conforms_handleJoin {challenge : Option Key} {roomId device sigB64 : String}
    {bundle : PubBundle}
    (h : login.attempt = challenge.map (·, .join roomId device bundle sigB64)) :
    Keeps config.prim self.connectionId
      (fun b r => b.challenge = login.challenge ∧ ∀ x, r = .ok x → b.joined = some x) login
      (self.handleJoin config challenge roomId device bundle sigB64) := by
  unfold Connection.handleJoin
  cases challenge with
  | none => exact ⟨rfl, nofun⟩
  | some nonce =>
  refine conforms_perform_bind trivial fun allowed => ?_
  split
  · exact ⟨rfl, nofun⟩
  split
  · exact ⟨rfl, nofun⟩
  rename_i signature hsignature
  split
  · exact ⟨rfl, nofun⟩
  rename_i message hmessage
  split
  · exact ⟨rfl, nofun⟩
  rename_i hverify
  split
  · exact ⟨rfl, nofun⟩
  rename_i hdevice
  refine conforms_perform_bind trivial fun members => ?_
  split
  · exact ⟨rfl, nofun⟩
  split
  · exact ⟨rfl, nofun⟩
  rename_i hmember
  refine conforms_bind (conforms_joinLoop ⟨nonce, bundle, sigB64, signature, message, h, hsignature,
    hmessage, Bool.eq_true_of_not_eq_false hverify, not_not.1 hdevice, rfl, rfl,
    not_not.1 hmember⟩) ?_
  rintro b (e | _) ⟨hchallenge, hjoined⟩
  · exact ⟨hchallenge, nofun⟩
  · refine ⟨hchallenge, ?_⟩
    rintro _ ⟨⟩
    exact hjoined rfl

theorem conforms_close {p : RelayProgram Unit} (h : Matches id self login)
    (hp : Keeps prim id (fun b _ => b = login) login p) :
    Keeps prim id (Settles id) login
      (p >>= fun _ => return (.close, self)) := by
  refine conforms_bind hp ?_
  rintro _ _ rfl
  exact ⟨h, nofun⟩

theorem conforms_refuse {frame : Frame} :
    Keeps prim id (fun b _ => b = login) login (self.refuse config frame) := by
  refine conforms_bind conforms_onOutbox ?_
  rintro _ _ rfl
  exact conforms_onOutbox

theorem quiet_onPairFrame {bundle : PubBundle} {frame : Frame} :
    (self.onPairFrame config bundle frame).AllOps Quiet := by
  refine ⟨trivial, fun now => ⟨trivial, fun state => ?_⟩⟩
  refine allOps_bind (p := onPairing _) (allOps_lift (P := fun _ => True) (fun op _ => ?_)
    (allOps_true _)) fun _ => ⟨trivial, fun _ => trivial⟩
  cases op <;> exact ⟨trivial, fun _ => trivial⟩

theorem conforms_stepPairing {bundle : PubBundle} {frame : Frame} (h : Matches id self login)
    (hframe : login.advance (.accept self.connectionId frame) () = login) :
    Keeps prim id (Settles id) login
      (self.stepPairing config bundle frame) := by
  refine conforms_perform_bind trivial fun _ => ?_
  rw [hframe]
  refine conforms_bind (conforms_of_quiet quiet_onPairFrame) ?_
  rintro _ (_ | _) rfl
  · exact conforms_close h conforms_refuse
  · exact ⟨h, nofun⟩

theorem conforms_step {frame : Frame} {rawLen : ℕ} (h : Matches id self login) :
    Keeps config.prim id (Settles id) login
      (self.step config frame rawLen) := by
  have hillegal : ∀ message, Keeps config.prim id (Settles id) login
      (self.stepIllegal config message) := fun _ => conforms_close h conforms_onOutbox
  unfold Connection.step
  split
  · rename_i hphase
    refine conforms_perform_bind trivial fun _ => ?_
    split
    · exact conforms_close h conforms_onOutbox
    refine conforms_perform_bind trivial fun nonce => ?_
    have hready : Matches id self { login with challenge := some nonce } :=
      ⟨h.connection, by simp [hphase], h.unjoined, h.joined⟩
    refine conforms_bind conforms_onOutbox ?_
    rintro _ (_ | _) rfl
    · exact ⟨hready, nofun⟩
    · refine ⟨⟨h.connection, ?_, fun _ => h.unjoined (by simp [hphase]), h.joined⟩, nofun⟩
      rintro _ _ ⟨⟩
      rfl
  · exact hillegal _
  · exact conforms_stepPairing h rfl
  · exact conforms_stepPairing h rfl
  · rename_i nonce helloBundle roomId device bundle sigB64 hphase
    have hunjoined : self.joined = none := h.unjoined (by simp [hphase])
    refine conforms_perform_bind trivial fun _ => ?_
    rw [← h.connection]
    -- The challenge is used up before it is known whether the join is good.
    refine conforms_bind (conforms_handleJoin config { self with phase := .ready none helloBundle }
      (congrArg (Option.map _) (h.nonce _ _ hphase))) ?_
    rintro b r ⟨hchallenge, hjoined⟩
    have hused : Matches self.connectionId { self with phase := .ready none helloBundle } b := by
      refine ⟨rfl, ?_, fun _ => hunjoined, ?_⟩
      · rintro _ _ ⟨⟩
        exact hchallenge
      · rintro x hx
        cases hunjoined.symm.trans hx
    cases r with
    | error frame => exact conforms_close hused conforms_refuse
    | ok x =>
      refine ⟨hused, ?_⟩
      rintro _ _ ⟨⟩
      exact hjoined _ rfl
  · exact hillegal _
  · rename_i roomId ciphertextB64 originDevice mailbox hphase
    refine conforms_perform_bind trivial fun _ => ?_
    cases hjoined : self.joined with
    | none => exact ⟨trivial, fun r => r.elim⟩
    | some x =>
    obtain ⟨joinedRoom, fp⟩ := x
    dsimp only
    split
    · exact conforms_close h conforms_onOutbox
    rw [h.connection]
    refine conforms_bind (conforms_clip (h.joined _ hjoined)) ?_
    rintro _ r ⟨inbox, rfl⟩
    have hstays : Matches id self { login with room := joinedRoom, inbox } :=
      ⟨h.connection, h.nonce, h.unjoined, h.joined⟩
    cases r with
    | error e => exact conforms_close hstays conforms_onOutbox
    | ok u => exact ⟨hstays, nofun⟩
  · exact hillegal _

theorem conforms_finish (h : Matches id self login) :
    Keeps prim id (fun _ _ => True) login (self.finish config) := by
  have hleave : Keeps prim id (fun _ _ => True) login
      (self.leaveRoom config) := by
    unfold Connection.leaveRoom
    split
    · rename_i hjoined
      rw [h.connection]
      exact conforms_disconnect (h.joined _ hjoined)
    · trivial
  refine conforms_bind hleave fun b _ _ => ?_
  exact ⟨trivial, fun _ => ⟨trivial, fun _ => ⟨trivial, fun _ => trivial⟩⟩⟩

theorem conforms_readTurn (h : Matches id self login) :
    Keeps config.prim id
      (fun b r => ∀ next, r = some next → Matches id next b) login (self.readTurn config) := by
  have hfinish : ∀ {self : Connection} {login : Login}, Matches id self login →
      Keeps config.prim id (fun b r => ∀ next, r = some next →
        Matches id next b) login (self.finish config >>= fun _ => return none) := fun h =>
    conforms_bind (conforms_finish h) fun _ _ _ => nofun
  refine ⟨trivial, ?_⟩
  rintro (_ | message)
  · exact hfinish h
  cases message with
  | close => exact hfinish h
  | binary =>
    refine conforms_bind (p := self.errorAndClose config _ _) conforms_onOutbox ?_
    rintro _ _ rfl
    exact hfinish h
  | ping | pong =>
    rintro _ ⟨⟩
    exact h
  | text text =>
    have htext : Keeps config.prim id (Settles id) login
        (self.onText config text) := by
      refine conforms_perform_bind trivial fun within => ?_
      split
      · exact conforms_close h conforms_onOutbox
      · split
        · exact conforms_close h conforms_refuse
        · exact conforms_step h
    refine conforms_bind (p := self.onText config text) htext ?_
    rintro b ⟨step, self'⟩ ⟨hself, hjoined⟩
    cases step with
    | goOn =>
      rintro _ ⟨⟩
      exact hself
    | joined roomId fp =>
      rintro _ ⟨⟩
      refine ⟨hself.connection, nofun, nofun, ?_⟩
      rintro _ ⟨⟩
      exact hjoined _ _ rfl
    | close => exact hfinish hself

end Login

/-- The read loop for a number of turns. -/
def Connection.readTurns (config : RelayConfig) :
    ℕ → Connection → RelayProgram (Option Connection)
  | 0, self => return some self
  | n + 1, self => do
    match ← self.readTurn config with
    | none => return none
    | some self => readTurns config n self

/-- A connection from its start on, for a number of turns. -/
def Connection.session (config : RelayConfig) (id : ConnectionId) (clientIp : IpAddr) (n : ℕ) :
    RelayProgram (Option Connection) := do
  match ← start config id clientIp with
  | none => return none
  | some self => self.readTurns config n

/-- Whatever a client sends, nothing is put into an inbox in the name of its connection but what
goes to the actor that the table has for a room: a join that answers the challenge of the
connection, which no other join has used, with the key of a member of the room, and what comes
after a join that was accepted. -/
theorem Connection.session_authenticated (config : RelayConfig) (id : ConnectionId)
    (clientIp : IpAddr) (n : ℕ) :
    Conforms (Login.Permits config.prim id) Login.advance (fun _ _ => True)
      ⟨none, none, ("", []), "", none, none⟩ (session config id clientIp n) := by
  have hturns : ∀ self login, Login.Matches id self login → Conforms
      (Login.Permits config.prim id) Login.advance (fun _ _ => True) login
      (readTurns config n self) := by
    induction n with
    | zero => exact fun _ _ _ => trivial
    | succ n ih =>
      intro self login h
      refine conforms_bind (Login.conforms_readTurn h) ?_
      rintro b (_ | next) hnext
      · trivial
      · exact ih next b (hnext next rfl)
  exact ⟨trivial, fun _ => hturns _ _ ⟨rfl, nofun, fun _ => rfl, nofun⟩⟩

end ClipSync
