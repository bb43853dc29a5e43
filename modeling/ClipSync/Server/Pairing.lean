import ClipSync.Core.Crypto
import ClipSync.Server.Config
import ClipSync.Server.Outbox
import ClipSync.Server.Registry

/-!
# The pairing relay

`PairingRelay` of `crates/server/src/pairing.rs`. An offer publishes a bundle under a
code, a claim exchanges the two bundles through the outboxes of the two connections.
The offers are kept behind a lock that a call holds from its first to its last
access; the functions take the state they find there and return the one they leave.
-/

namespace ClipSync

open Lib Program

/-- Durations and instants are counted in milliseconds. -/
structure PairingConfig where
  offerTtl : ℕ := 300 * 1000
  maxOffers : ℕ := 100
  attemptsPerWindow : ℕ := 5
  rateWindow : ℕ := 60 * 1000

inductive OfferState where
  | preparing
  | published
  | claimed
  | terminal
deriving DecidableEq

structure Offer where
  connectionId : ConnectionId
  bundle : PubBundle
  fingerprint : String
  expiresAt : ℕ
  state : OfferState

structure RateEntry where
  windowStart : ℕ
  attempts : ℕ

structure PairingState where
  offers : HashMap String Offer
  rates : HashMap IpAddr RateEntry

/-- The accesses of a call to the rest of the relay: the table of connections, their
outboxes, and the registry, which reads the clock itself. -/
inductive PairingOp where
  | containsKey (connectionId : ConnectionId)
  | get (connectionId : ConnectionId)
  | outbox (outbox : OutboxHandle) (op : OutboxOp)
  | commitRoom (roomId a b : String)

abbrev PairingOp.Res : PairingOp → Type
  | .containsKey _ => Bool
  | .get _ => Option OutboxHandle
  | .outbox _ op => op.Res
  | .commitRoom .. => Except IoError RegistryCommit

abbrev PairingProgram := Program PairingOp PairingOp.Res

/-- What a call is made with. -/
structure PairContext where
  connectionId : ConnectionId
  helloBundle : PubBundle
  outbox : OutboxHandle
  now : ℕ

namespace PairingRelay

def codeAlphabet : Bytes := utf8Bytes "23456789ABCDEFGHJKMNPQRSTVWXYZ"

def validCode (code : String) : Bool :=
  (utf8Bytes code).length = 6 && (utf8Bytes code).all fun byte => codeAlphabet.contains byte

/-- A function of an outbox, called through a handle. -/
def onOutbox {α : Type} (handle : OutboxHandle) (p : OutboxProgram α) : PairingProgram α :=
  p.lift fun op => perform (PairingOp.outbox handle op)

def containsKey (connectionId : ConnectionId) : PairingProgram Bool :=
  perform (PairingOp.containsKey connectionId)

def get (connectionId : ConnectionId) : PairingProgram (Option OutboxHandle) :=
  perform (PairingOp.get connectionId)

def commitRoom (roomId a b : String) : PairingProgram (Except IoError RegistryCommit) :=
  perform (PairingOp.commitRoom roomId a b)

/-- The offer of a code gets another state, if there is one. -/
def setState (state : PairingState) (code : String) (offerState : OfferState) : PairingState :=
  match state.offers.lookup code with
  | some offer =>
    { state with offers := state.offers.insert code { offer with state := offerState } }
  | none => state

variable (prim : Primitives) (codec : Codec) (config : PairingConfig)

/-- Counts an attempt of an address within its window. -/
def allowAttempt (state : PairingState) (ip : IpAddr) (now : ℕ) : Bool × PairingState :=
  let entry := (state.rates.lookup ip).getD ⟨now, 0⟩
  let entry := if now - entry.windowStart ≥ config.rateWindow then ⟨now, 0⟩ else entry
  if entry.attempts ≥ config.attemptsPerWindow then
    (false, { state with rates := state.rates.insert ip entry })
  else
    (true, { state with
      rates := state.rates.insert ip { entry with attempts := entry.attempts + 1 } })

/-- An answer to a call: an error frame, or nothing if it succeeded. -/
abbrev Answer := Except Frame Unit

def onOffer (state : PairingState) (context : PairContext) (code : String)
    (bundle : PubBundle) : PairingProgram (Answer × PairingState) := do
  if validCode code = false then
    return (.error (.error "bad_code" "pairing code must use the six-character alphabet"), state)
  if bundle ≠ context.helloBundle then
    return (.error (.error "bad_auth" "pairing bundle does not match hello"), state)
  let state := { state with
    offers := state.offers.retain fun _ offer => decide (context.now < offer.expiresAt) }
  if code ∈ state.offers then
    return (.error (.error "code_in_use" "pairing code collision"), state)
  if state.offers.size ≥ config.maxOffers then
    return (.error (.error "server_full" "pairing offer limit exceeded"), state)
  if (← containsKey context.connectionId) = false then
    return (.error (.error "peer_unavailable" "pairing connection is stale"), state)
  let state := { state with
    offers := state.offers.insert code
      { connectionId := context.connectionId
        bundle := bundle
        fingerprint := bundleFp prim bundle
        expiresAt := context.now + config.offerTtl
        state := .preparing } }
  if (← onOutbox context.outbox (context.outbox.sendFrame codec .pairOfferOk)) = false then
    return (.error (.error "peer_unavailable" "offerer outbound queue is full"),
      setState state code .terminal)
  return (.ok (), setState state code .published)

def onClaim (state : PairingState) (context : PairContext) (code : String)
    (bundle : PubBundle) : PairingProgram (Answer × PairingState) := do
  if validCode code = false then
    return (.error (.error "bad_code" "pairing code must use the six-character alphabet"), state)
  match state.offers.lookup code with
  | none => return (.error (.error "code_expired" "pairing code is unavailable"), state)
  | some offer =>
  if context.now ≥ offer.expiresAt ∨ offer.state ≠ .published then
    return (.error (.error "code_expired" "pairing code is unavailable"),
      setState state code .terminal)
  -- Every way out from here on leaves the code consumed.
  let consumed := setState (setState state code .claimed) code .terminal
  if bundle ≠ context.helloBundle then
    return (.error (.error "bad_auth" "pairing bundle does not match hello"), consumed)
  let claimFp := bundleFp prim bundle
  if claimFp = offer.fingerprint then
    return (.error (.error "same_identity" "an identity cannot pair with itself"), consumed)
  match ← get offer.connectionId with
  | none => return (.error (.error "peer_unavailable" "offerer disconnected"), consumed)
  | some offerOutbox =>
  match ← commitRoom (roomId prim offer.bundle bundle) offer.fingerprint claimFp with
  | .error _ =>
    return (.error (.error "registry_failed" "room registry commit failed"), consumed)
  | .ok _ =>
  match ← onOutbox offerOutbox (offerOutbox.tryReserveFrame codec (.pairPeer bundle)) with
  | none =>
    return (.error (.error "peer_unavailable" "offerer outbound queue is full"), consumed)
  | some offerReservation =>
  match ← onOutbox context.outbox
      (context.outbox.tryReserveFrame codec (.pairPeer offer.bundle)) with
  | none => do
    onOutbox offerOutbox offerReservation.drop
    return (.error (.error "peer_unavailable" "claimer outbound queue is full"), consumed)
  | some claimReservation => do
    onOutbox offerOutbox offerReservation.send
    onOutbox context.outbox claimReservation.send
    return (.ok (), consumed)

/-- The pairing frames. An attempt beyond the limit still consumes the code it claims. -/
def onPairFrame (state : PairingState) (context : PairContext) (clientIp : IpAddr)
    (frame : Frame) : PairingProgram (Answer × PairingState) :=
  match allowAttempt config state clientIp context.now with
  | (false, state) =>
    let refusal : Answer := .error (.error "rate_limited" "pairing attempts exceeded")
    match frame with
    | .pairClaim code _ => return (refusal, setState state code .terminal)
    | _ => return (refusal, state)
  | (true, state) =>
    match frame with
    | .pairOffer code pubBundle => onOffer prim codec config state context code pubBundle
    | .pairClaim code pubBundle => onClaim prim codec state context code pubBundle
    | _ => return (.error (.error "bad_frame" "expected a pairing frame"), state)

/-- All offers of a connection that has gone are withdrawn. -/
def onDisconnect (state : PairingState) (connectionId : ConnectionId) : PairingState :=
  { state with
    offers := state.offers.mapValues fun offer =>
      if offer.connectionId = connectionId ∧ offer.state ≠ .terminal then
        { offer with state := .terminal }
      else offer }

end PairingRelay

end ClipSync
