import ClipSync.Core.Dispatcher
import ClipSync.Core.PairingStore

/-!
# The pairing client

The client of `crates/core/src/pairing_client.rs` from its first frame on: an offer or a claim of
a pairing with its confirmation, or a rejoin, and then the live link. No part of it calls the
validator of frame orders; the frames of its connections follow the validator's table
nevertheless, whatever the relay answers.
-/

namespace ClipSync

open Lib Program

/-- A client's operations are those of its link and, in a confirmation, those of its store. -/
inductive ClientOp (D : Type) where
  | link (op : DispatcherOp)
  | store (op : FsOp D)

abbrev ClientOp.Res {D : Type} : ClientOp D → Type
  | .link op => op.Res
  | .store op => op.Res

abbrev ClientProgram (D : Type) := Program (ClientOp D) ClientOp.Res

abbrev Outcome (α : Type) := Except TransportError α

/-- The `?` after a call. -/
def andThen {Op : Type} {Res : Op → Type} {α β : Type}
    (p : Program Op Res (Outcome α)) (f : α → Program Op Res (Outcome β)) :
    Program Op Res (Outcome β) :=
  p >>= fun
    | .error error => done (.error error)
    | .ok a => f a

structure PairingClient where
  server : String
  identity : Identity
  challenge : Bytes
  socket : ℕ

structure PairingOffer where
  qr : QrPayload
  offerer : Offerer
  identity : Identity
  challenge : Bytes
  socket : ℕ

structure PairingChannel where
  pending : PendingConfirmation
  identity : Identity
  challenge : Bytes
  socket : ℕ

/-! ## The client -/

open Dispatcher

section Client

variable (crates : LinkCrates) (debugAssertions : Bool)

def PairingClient.connect (server : String) : DispatcherProgram (Outcome PairingClient) := do
  match ← access .loadIdentity with
  | .error error => return .error (.pairing error)
  | .ok identity =>
  match ← access (.connect server) with
  | .error error => return .error error
  | .ok socket => andThen (handshake crates identity socket) fun challenge =>
    return .ok ⟨server, identity, challenge, socket⟩

/-- The code and the nonce are the random ones of the offer. -/
def PairingClient.pairBegin (code : String) (nonceA : List.Vector UInt8 qrNonceBytes)
    (self : PairingClient) : DispatcherProgram (Outcome PairingOffer) := do
  let bundle := self.identity.publicBundle crates.prim
  match ← access (.send self.socket (.pairOffer code bundle)) with
  | .error error => return .error error
  | .ok () =>
  match ← access (.receive self.socket) with
  | .error error => return .error error
  | .ok .pairOfferOk =>
    let qr : QrPayload := ⟨self.server, code, bundle, nonceA⟩
    match Offerer.start crates.prim debugAssertions self.identity qr with
    | .error error => return .error (.pairing error)
    | .ok offerer => return .ok ⟨qr, offerer, self.identity, self.challenge, self.socket⟩
  | .ok (.error code message) => return .error (.server code message)
  | .ok frame => return .error (unexpected crates "pair_offer_ok" frame)

/-- The answer both roles wait for, with what the role makes of the other device's bundle. -/
def receivePairPeer (socket : ℕ)
    (receivePeer : PubBundle → Except PairingError PendingConfirmation) :
    DispatcherProgram (Outcome PendingConfirmation) := do
  match ← access (.receive socket) with
  | .error error => return .error error
  | .ok (.pairPeer peerPubBundle) => return (receivePeer peerPubBundle).mapError .pairing
  | .ok (.error code message) => return .error (.server code message)
  | .ok frame => return .error (unexpected crates "pair_peer" frame)

def PairingOffer.waitPeer (self : PairingOffer) : DispatcherProgram (Outcome PairingChannel) :=
  andThen (receivePairPeer crates self.socket (self.offerer.receivePeer crates.prim))
    fun pending => return .ok ⟨pending, self.identity, self.challenge, self.socket⟩

def PairingClient.claimChannel (qr : QrPayload) (claimer : Claimer) (client : PairingClient) :
    DispatcherProgram (Outcome PairingChannel) := do
  match ← access (.send client.socket
      (.pairClaim qr.code (client.identity.publicBundle crates.prim))) with
  | .error error => return .error error
  | .ok () =>
    andThen (receivePairPeer crates client.socket (claimer.receivePeer qr.server)) fun pending =>
      return .ok ⟨pending, client.identity, client.challenge, client.socket⟩

def PairingClient.claim (qr : QrPayload) : DispatcherProgram (Outcome PairingChannel) := do
  match ← access .loadIdentity with
  | .error error => return .error (.pairing error)
  | .ok identity =>
  match Claimer.start crates.prim debugAssertions identity qr with
  | .error error => return .error (.pairing error)
  | .ok claimer => andThen (connect crates qr.server) (claimChannel crates qr claimer)

variable {D : Type} (fresh : Key × Key) (store : PairingStore D)

def overLink {α : Type} (p : DispatcherProgram α) : ClientProgram D α :=
  p.lift fun op => perform (.link op)

/-- The record is on disk before the room is joined, over the connection of the pairing. -/
def PairingChannel.confirmPair (self : PairingChannel) (sas : String) :
    ClientProgram D (Outcome LiveLink) := do
  match ← (self.pending.confirm crates.prim debugAssertions fresh sas store).lift
      fun op => perform (.store op) with
  | .error error => return .error (.pairing error)
  | .ok record => overLink (joinLive crates self.identity record self.challenge self.socket)

/-! ## Sessions -/

/-- The ways to a live link. -/
inductive Opening where
  | offer (server code : String) (nonceA : List.Vector UInt8 qrNonceBytes)
  | claim (qr : QrPayload)
  | rejoin

/-- What is done with a live link. -/
inductive LiveAction where
  | send (roomId ciphertextB64 originDevice : String)
  | recv

/-- `enter` is what the user enters for the string that is shown. -/
def Opening.link (enter : PendingConfirmation → String) :
    Opening → ClientProgram D (Outcome LiveLink)
  | .offer server code nonceA =>
    andThen (overLink (andThen (andThen (PairingClient.connect crates server)
      (PairingClient.pairBegin crates debugAssertions code nonceA)) (PairingOffer.waitPeer crates)))
      fun channel => channel.confirmPair crates debugAssertions fresh store (enter channel.pending)
  | .claim qr => andThen (overLink (PairingClient.claim crates debugAssertions qr)) fun channel =>
      channel.confirmPair crates debugAssertions fresh store (enter channel.pending)
  | .rejoin => overLink (join crates)

def LiveAction.perform (fuel : ℕ) (link : LiveLink) :
    LiveAction → DispatcherProgram (Outcome LiveLink)
  | .send roomId ciphertextB64 originDevice =>
    andThen (access (.send link.socket (.clip roomId ciphertextB64 originDevice false)))
      fun () => return .ok link
  | .recv => andThen (recvReconnecting crates fuel link) fun (_, link) => return .ok link

/-- A client that opens a link and uses it up to the first error that is not recovered from. -/
def clientSession (fuel : ℕ) (enter : PendingConfirmation → String) (opening : Opening)
    (actions : List LiveAction) : ClientProgram D (Outcome LiveLink) :=
  actions.foldl (fun p action => andThen p fun link => overLink (action.perform crates fuel link))
    (opening.link crates debugAssertions fresh store enter)

end Client

/-! ## The table of frame orders -/

/-- The connection of a client, if it has one, with its place in the table. -/
abbrev Exchange := Option (ℕ × ConnectionState)

namespace Exchange

/-- A connection is opened only when there is none. A frame is sent only where the table has it,
and one is read only where the table has the relay speak. -/
def Permits : Exchange → DispatcherOp → Prop
  | exchange, .connect _ => exchange = none
  | exchange, .send socket frame => ∃ state, exchange = some (socket, state) ∧
      (transitions state (.fromFrame frame)).isSome = true
  | exchange, .receive socket => ∃ state, exchange = some (socket, state) ∧
      [.connected, .ready, .readyToJoin, .closed].contains state = false
  | _, _ => True

/-- A frame out of order closes the connection, and a failure leaves none. -/
def advance : Exchange → (op : DispatcherOp) → op.Res → Exchange
  | _, .connect _, .ok socket => some (socket, .connected)
  | some (socket, state), .send _ frame, .ok () | some (socket, state), .receive _, .ok frame =>
    some (socket, (transitions state (.fromFrame frame)).getD .closed)
  | _, .send .., .error _ | _, .receive _, .error _ => none
  | exchange, _, _ => exchange

/-- How a call ends: with its connection in the given state, or with a failure, and without a
connection if joining may be tried again. -/
def Ends {α : Type} (socket : α → ℕ) (state : ConnectionState) (exchange : Exchange) :
    Outcome α → Prop
  | .ok a => exchange = some (socket a, state)
  | .error error => error.transient = true → exchange = none

/-- A call on the link follows the table from one place to another. -/
abbrev Leads {α : Type} (exchange : Exchange) (socket : α → ℕ) (state : ConnectionState)
    (p : DispatcherProgram (Outcome α)) : Prop :=
  Conforms Permits advance (Ends socket state) exchange p

section Calls

variable {crates : LinkCrates} {debugAssertions : Bool} {socket : ℕ}

/-- The `?` after a call, in whatever way it is written. -/
theorem conforms_bind_ok {Op : Type} {Res : Op → Type} {α β : Type}
    {test : Exchange → Op → Prop} {next : Exchange → (op : Op) → Res op → Exchange}
    {p : Program Op Res (Outcome α)} {of : α → ℕ} {of' : β → ℕ}
    {f : Outcome α → Program Op Res (Outcome β)}
    {state state' : ConnectionState} {exchange : Exchange}
    (hp : Conforms test next (Ends of state) exchange p)
    (herror : ∀ error, f (.error error) = done (.error error))
    (hok : ∀ a, Conforms test next (Ends of' state') (some (of a, state)) (f (.ok a))) :
    Conforms test next (Ends of' state') exchange (p >>= f) := by
  refine conforms_bind hp ?_
  rintro exchange' (error | a) hends
  · rw [herror]
    exact hends
  · cases hends
    exact hok a

theorem decodeChallenge_transient {encoded : String} {error : TransportError}
    (h : decodeChallenge encoded = .error error) : error.transient = false := by
  unfold decodeChallenge at h
  split at h
  · cases h
    rfl
  · split at h
    · cases h
    · cases h
      rfl

theorem conforms_handshake {identity : Identity} :
    Leads (some (socket, .connected)) (fun _ => socket) .ready
      (handshake crates identity socket) := by
  refine ⟨⟨_, rfl, rfl⟩, ?_⟩
  rintro (error | _)
  · exact fun _ => rfl
  refine ⟨⟨_, rfl, rfl⟩, ?_⟩
  rintro (error | frame)
  · exact fun _ => rfl
  cases frame with
  | helloOk serverVersion nonceB64 =>
    simp only [Program.bind]
    split
    · change Ends _ _ _ (decodeChallenge nonceB64)
      cases hdecode : decodeChallenge nonceB64 with
      | error error => simp [Ends, decodeChallenge_transient hdecode]
      | ok challenge => rfl
    · rintro ⟨⟩
  | _ => rintro ⟨⟩

theorem conforms_receiveJoinOk {identity : Identity} {record : PairingRecord} :
    Leads (some (socket, .awaitingJoinOk)) LiveLink.socket .live
      (receiveJoinOk crates identity record socket) := by
  refine ⟨⟨_, rfl, rfl⟩, ?_⟩
  rintro (error | frame)
  · exact fun _ => rfl
  cases frame with
  | joinOk =>
    refine ⟨⟨_, rfl, rfl⟩, ?_⟩
    rintro (error | bootstrap)
    · exact fun _ => rfl
    cases bootstrap with
    | mailboxEmpty => rfl
    | clip roomId ciphertextB64 originDevice mailbox =>
      cases mailbox with
      | true => rfl
      | false => nofun
    | _ => nofun
  | _ => nofun

/-- A room is joined after the handshake, or after a pairing. -/
theorem conforms_joinLive {identity : Identity} {record : PairingRecord} {challenge : Bytes}
    {state : ConnectionState} (hstate : transitions state .join = some .awaitingJoinOk) :
    Leads (some (socket, state)) LiveLink.socket .live
      (joinLive crates identity record challenge socket) := by
  unfold joinLive
  dsimp only
  split
  · nofun
  refine ⟨⟨state, rfl, by simp [FrameEvent.fromFrame, hstate]⟩, ?_⟩
  rintro (error | _)
  · exact fun _ => rfl
  · simp only [advance, FrameEvent.fromFrame, hstate]
    exact conforms_receiveJoinOk

theorem conforms_join : Leads none LiveLink.socket .live (join crates) := by
  refine ⟨trivial, ?_⟩
  rintro (error | _ | record)
  · nofun
  · nofun
  refine ⟨trivial, ?_⟩
  rintro (error | identity)
  · nofun
  refine ⟨rfl, ?_⟩
  rintro (error | socket)
  · exact fun _ => rfl
  · change Conforms _ _ _ _ (handshake crates identity socket >>= _)
    exact conforms_bind_ok conforms_handshake (fun _ => rfl) fun _ => conforms_joinLive rfl

theorem conforms_connect {server : String} :
    Leads none PairingClient.socket .ready (PairingClient.connect crates server) := by
  refine ⟨trivial, ?_⟩
  rintro (error | identity)
  · nofun
  refine ⟨rfl, ?_⟩
  rintro (error | socket)
  · exact fun _ => rfl
  · change Conforms _ _ _ _ (handshake crates identity socket >>= _)
    exact conforms_bind_ok conforms_handshake (fun _ => rfl) fun _ => rfl

theorem conforms_pairBegin {client : PairingClient} {code : String}
    {nonceA : List.Vector UInt8 qrNonceBytes} :
    Leads (some (client.socket, .ready)) PairingOffer.socket .awaitingPairPeer
      (client.pairBegin crates debugAssertions code nonceA) := by
  refine ⟨⟨_, rfl, rfl⟩, ?_⟩
  rintro (error | _)
  · exact fun _ => rfl
  refine ⟨⟨_, rfl, rfl⟩, ?_⟩
  rintro (error | frame)
  · exact fun _ => rfl
  cases frame with
  | pairOfferOk =>
    simp only [Program.bind]
    split
    · rintro ⟨⟩
    · rfl
  | _ => rintro ⟨⟩

theorem conforms_receivePairPeer
    {receivePeer : PubBundle → Except PairingError PendingConfirmation} :
    Leads (some (socket, .awaitingPairPeer)) (fun _ => socket) .readyToJoin
      (receivePairPeer crates socket receivePeer) := by
  refine ⟨⟨_, rfl, rfl⟩, ?_⟩
  rintro (error | frame)
  · exact fun _ => rfl
  cases frame with
  | pairPeer bundle =>
    change Ends _ _ _ ((receivePeer bundle).mapError _)
    cases receivePeer bundle with
    | error error => nofun
    | ok pending => rfl
  | _ => nofun

theorem conforms_claim {qr : QrPayload} : Leads none PairingChannel.socket .readyToJoin
    (PairingClient.claim crates debugAssertions qr) := by
  refine ⟨trivial, ?_⟩
  rintro (error | identity)
  · nofun
  simp only [Program.bind]
  split
  · nofun
  refine conforms_bind_ok conforms_connect (fun _ => rfl) fun client => ⟨⟨_, rfl, rfl⟩, ?_⟩
  rintro (error | _)
  · exact fun _ => rfl
  · change Conforms _ _ _ _ (receivePairPeer crates client.socket _ >>= _)
    exact conforms_bind_ok conforms_receivePairPeer (fun _ => rfl) fun _ => rfl

/-- What is lost with a connection is made good by a new one. -/
theorem conforms_reconnect {way : Joining} {fuel attempt : ℕ} :
    Leads none LiveLink.socket .live (reconnect crates way fuel attempt) := by
  induction fuel generalizing attempt with
  | zero => exact ⟨trivial, nofun⟩
  | succ fuel ih =>
    refine conforms_bind conforms_join ?_
    rintro exchange (error | link) hends
    · dsimp only
      split
      · rename_i htransient
        cases hends htransient
        exact ⟨trivial, fun _ => ih⟩
      · exact hends
    · exact ⟨trivial, fun _ => hends⟩

theorem conforms_recv {link : LiveLink} :
    Leads (some (link.socket, .live)) (fun _ => link.socket) .live (recv crates link) := by
  refine ⟨⟨_, rfl, rfl⟩, ?_⟩
  rintro (error | frame)
  · exact fun _ => rfl
  cases frame with
  | clip roomId ciphertextB64 originDevice mailbox =>
    cases mailbox with
    | true => nofun
    | false => rfl
  | _ => nofun

theorem conforms_recvReconnecting {fuel : ℕ} {link : LiveLink} :
    Leads (some (link.socket, .live)) (fun r => r.2.socket) .live
      (recvReconnecting crates fuel link) := by
  refine conforms_bind conforms_recv ?_
  rintro exchange (error | frame) hends
  · dsimp only
    split
    · rename_i htransient
      cases hends htransient
      exact conforms_bind_ok conforms_reconnect (fun _ => rfl) fun _ => rfl
    · exact hends
  · exact hends

theorem conforms_perform {fuel : ℕ} {link : LiveLink} (action : LiveAction) :
    Leads (some (link.socket, .live)) LiveLink.socket .live (action.perform crates fuel link) := by
  cases action with
  | send roomId ciphertextB64 originDevice =>
    refine ⟨⟨_, rfl, rfl⟩, ?_⟩
    rintro (error | _)
    · exact fun _ => rfl
    · rfl
  | recv => exact conforms_bind_ok conforms_recvReconnecting (fun _ => rfl) fun _ => rfl

end Calls

/-! ## Whole sessions -/

section Sessions

variable {D : Type} {crates : LinkCrates} {debugAssertions : Bool} {fresh : Key × Key}
  {store : PairingStore D}

def PermitsOf (exchange : Exchange) : ClientOp D → Prop
  | .link op => Permits exchange op
  | .store _ => True

def advanceOf (exchange : Exchange) : (op : ClientOp D) → op.Res → Exchange
  | .link op, r => advance exchange op r
  | .store _, _ => exchange

theorem conforms_overLink {α : Type} {final : Exchange → α → Prop} {p : DispatcherProgram α}
    {exchange : Exchange} (hp : Conforms Permits advance final exchange p) :
    Conforms PermitsOf advanceOf final exchange (overLink p : ClientProgram D α) := by
  refine conforms_lift (fun exchange op h => ?_) hp
  exact ⟨h, fun _ => rfl⟩

theorem conforms_confirmPair {channel : PairingChannel} {sas : String} :
    Conforms PermitsOf advanceOf (Ends LiveLink.socket .live) (some (channel.socket, .readyToJoin))
      (channel.confirmPair crates debugAssertions fresh store sas) := by
  -- The store is not seen by the relay.
  refine conforms_bind (conforms_of_skips (allOps_lift (P := fun _ => True)
    (fun _ _ => ⟨⟨trivial, fun _ => rfl⟩, fun _ => trivial⟩) (allOps_true _))) ?_
  rintro _ (error | record) rfl
  · nofun
  · exact conforms_overLink (conforms_joinLive rfl)

theorem conforms_link {enter : PendingConfirmation → String} (opening : Opening) :
    Conforms PermitsOf advanceOf (Ends LiveLink.socket .live) none
      (opening.link crates debugAssertions fresh store enter) := by
  cases opening with
  | offer server code nonceA =>
    refine conforms_bind_ok (conforms_overLink ?_) (fun _ => rfl) fun _ => conforms_confirmPair
    refine conforms_bind_ok (conforms_bind_ok conforms_connect (fun _ => rfl)
      fun _ => conforms_pairBegin) (fun _ => rfl) fun offer => ?_
    exact conforms_bind_ok conforms_receivePairPeer (fun _ => rfl) fun _ => rfl
  | claim qr =>
    exact conforms_bind_ok (conforms_overLink conforms_claim) (fun _ => rfl)
      fun _ => conforms_confirmPair
  | rejoin => exact conforms_overLink conforms_join

/-- In every session, whatever the relay, the user and the disk answer, each frame that the client
sends is one that the table has after the frames of its connection so far. A connection is given
up for good once a frame was out of order, and a session ends with a live link or an error. -/
theorem session_follows_transitions (fuel : ℕ) (enter : PendingConfirmation → String)
    (opening : Opening) (actions : List LiveAction) :
    Conforms PermitsOf advanceOf (Ends LiveLink.socket .live) none
      (clientSession crates debugAssertions fresh store fuel enter opening actions) := by
  have hrun : ∀ p : ClientProgram D (Outcome LiveLink),
      Conforms PermitsOf advanceOf (Ends LiveLink.socket .live) none p →
      Conforms PermitsOf advanceOf (Ends LiveLink.socket .live) none (actions.foldl
        (fun p action => andThen p fun link => overLink (action.perform crates fuel link)) p) := by
    induction actions with
    | nil => exact fun p hp => hp
    | cons action actions ih =>
      exact fun p hp => ih _ (conforms_bind_ok hp (fun _ => rfl)
        fun _ => conforms_overLink (conforms_perform action))
  exact hrun _ (conforms_link opening)

end Sessions

end Exchange

end ClipSync
