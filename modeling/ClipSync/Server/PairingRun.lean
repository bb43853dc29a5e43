import ClipSync.Server.ClipSize
import ClipSync.Server.Pairing

/-!
# One claim for each offer

The lock of the pairing relay puts its calls into a sequence. While a call runs, the
rest of the relay goes on: connections come and go, their writers empty the outboxes,
and rooms are activated. The history of a run has an entry for each call, with its
answer and the frames it has put into outboxes. Every entry is judged against the
entries before it: a claim succeeds only against an offer that is still open, and
only a claim that succeeds hands out bundles.
-/

namespace ClipSync

open Lib Program

/-- A frame put into the outbox of a connection, and what was registered then. -/
structure SentFrame where
  connectionId : ConnectionId
  frame : Frame
  registry : RoomTable

/-- What the calls share with the rest of the relay, and what the present call has done:
the connections it has found in the table and the frames it has sent. -/
structure PairingWorld where
  registry : RoomTable
  connections : Finset ConnectionId
  outboxes : ConnectionId → Outbox
  found : List ConnectionId
  sent : List SentFrame

def RoomTable.Keeps (rooms rooms' : RoomTable) : Prop :=
  ∀ roomId record, rooms.lookup roomId = some record →
    ∃ record', rooms'.lookup roomId = some record' ∧ record'.members = record.members

theorem RoomTable.Keeps.refl (rooms : RoomTable) : rooms.Keeps rooms :=
  fun _ record h => ⟨record, h, rfl⟩

theorem RoomTable.Keeps.trans {a b c : RoomTable} (hab : a.Keeps b) (hbc : b.Keeps c) :
    a.Keeps c := by
  intro roomId record h
  obtain ⟨record', h', heq⟩ := hab roomId record h
  obtain ⟨record'', h'', heq'⟩ := hbc roomId record' h'
  exact ⟨record'', h'', heq'.trans heq⟩

namespace PairingWorld

/-- What the rest of the relay is taken to do at any time: anything to the connections and
their outboxes, and to the registered rooms anything but change their members or drop them. A
sweep that drops rooms nobody has joined is not taken to fall within the handling of a frame. -/
def Interferes (w w' : PairingWorld) : Prop :=
  w.registry.Keeps w'.registry ∧ w'.found = w.found ∧ w'.sent = w.sent

def framesOf : (op : OutboxOp) → op.Res → List Frame
  | .trySend (.frame frame), true => [frame]
  | .permitSend (.frame frame), () => [frame]
  | _, _ => []

def access (maxBytes : ℕ) : (op : PairingOp) → PairingWorld → op.Res → PairingWorld → Prop
  | .containsKey id, w, r, w' => r = decide (id ∈ w.connections) ∧ w' = w
  | .get id, w, some handle, w' =>
    id ∈ w.connections ∧ handle = ⟨id, maxBytes⟩ ∧ w' = { w with found := w.found ++ [id] }
  | .get id, w, none, w' => id ∉ w.connections ∧ w' = w
  | .outbox handle op, w, r, w' =>
    ∃ o, Outbox.access op (w.outboxes handle.id) = some (r, o) ∧
      w' = { w with
        outboxes := Function.update w.outboxes handle.id o
        sent := w.sent ++ (framesOf op r).map fun frame => ⟨handle.id, frame, w.registry⟩ }
  | .commitRoom roomId a b, w, .ok commit, w' =>
    ∃ createdAtMs next, Registry.commitRoom w.registry roomId a b createdAtMs =
      .ok (commit, next) ∧ w' = { w with registry := next }
  | .commitRoom .., w, .error _, w' => w' = w

def exec (maxBytes : ℕ) (op : PairingOp) (w : PairingWorld) (r : op.Res) (w' : PairingWorld) :
    Prop :=
  ∃ w₁, w.Interferes w₁ ∧ access maxBytes op w₁ r w'

def Grows (P : SentFrame → Prop) (w w' : PairingWorld) : Prop :=
  w.registry.Keeps w'.registry ∧ w.found ⊆ w'.found ∧
    ∃ more, w'.sent = w.sent ++ more ∧ ∀ m ∈ more, P m

theorem Grows.refl (P : SentFrame → Prop) (w : PairingWorld) : Grows P w w :=
  ⟨.refl _, List.Subset.refl _, [], (List.append_nil _).symm, by simp⟩

variable {w' : PairingWorld} {P : SentFrame → Prop}

theorem Grows.trans {a b c : PairingWorld} (hab : Grows P a b) (hbc : Grows P b c) :
    Grows P a c := by
  obtain ⟨hkeeps, hfound, more, hmore, hP⟩ := hab
  obtain ⟨hkeeps', hfound', more', hmore', hP'⟩ := hbc
  refine ⟨hkeeps.trans hkeeps', fun _ h => hfound' (hfound h), more ++ more', ?_, ?_⟩
  · rw [hmore', hmore, List.append_assoc]
  · intro m hm
    exact (List.mem_append.1 hm).elim (hP m) (hP' m)

theorem Grows.mono {Q : SentFrame → Prop} {w : PairingWorld} (h : Grows P w w')
    (hPQ : ∀ m, P m → Q m) : Grows Q w w' := by
  obtain ⟨hkeeps, hfound, more, hmore, hP⟩ := h
  exact ⟨hkeeps, hfound, more, hmore, fun m hm => hPQ m (hP m hm)⟩

theorem Grows.sent_eq {w : PairingWorld} (h : Grows (fun _ => False) w w') : w'.sent = w.sent := by
  obtain ⟨-, -, more, hmore, hnone⟩ := h
  rw [hmore, List.eq_nil_iff_forall_not_mem.2 hnone, List.append_nil]

theorem grows_of_interferes {w : PairingWorld} (h : w.Interferes w') : Grows P w w' :=
  ⟨h.1, by rw [h.2.1]; exact List.Subset.refl _, [], by rw [h.2.2, List.append_nil], by simp⟩

theorem mem_framesOf {P : Frame → Prop} {op : OutboxOp} {r : op.Res} (hop : op.Sends P)
    {frame : Frame} (hframe : frame ∈ framesOf op r) : P frame := by
  unfold framesOf at hframe
  split at hframe
  · rw [List.mem_singleton.1 hframe]
    exact hop
  · rw [List.mem_singleton.1 hframe]
    exact hop
  · cases hframe

theorem grows_outbox {maxBytes : ℕ} {P : Frame → Prop} {handle : OutboxHandle} {op : OutboxOp}
    {r : op.Res} {w : PairingWorld} (hop : op.Sends P)
    (h : exec maxBytes (.outbox handle op) w r w') :
    Grows (fun m => m.connectionId = handle.id ∧ P m.frame) w w' := by
  obtain ⟨w₁, hinterferes, o, -, rfl⟩ := h
  refine (grows_of_interferes hinterferes).trans ⟨.refl _, List.Subset.refl _, _, rfl, ?_⟩
  intro m hm
  obtain ⟨frame, hframe, rfl⟩ := List.mem_map.1 hm
  exact ⟨rfl, mem_framesOf hop hframe⟩

variable {maxBytes : ℕ} {w : PairingWorld}

theorem safe_onOutbox {α : Type} {P : Frame → Prop} (handle : OutboxHandle)
    {p : OutboxProgram α} (hp : p.AllOps (OutboxOp.Sends P)) :
    Safe (exec maxBytes) (fun _ => True)
      (fun _ w' => Grows (fun m => m.connectionId = handle.id ∧ P m.frame) w w')
      (PairingRelay.onOutbox handle p) w := by
  have hops : AllOps (fun op => ∃ oop, op = .outbox handle oop ∧ oop.Sends P)
      (PairingRelay.onOutbox handle p) := by
    refine allOps_lift (fun oop hoop => ?_) hp
    exact ⟨⟨oop, rfl, hoop⟩, fun _ => trivial⟩
  refine ((safe_true _ w).and ?_ hops (.refl _ w)).mono (fun _ _ => trivial)
    fun _ _ _ h => h.2
  rintro op v r v' ⟨oop, rfl, hoop⟩ hexec hgrows
  exact hgrows.trans (grows_outbox hoop hexec)

/-- Reserving capacity for a frame sends nothing. -/
theorem safe_tryReserveFrame (codec : Codec) (handle : OutboxHandle) (frame : Frame) :
    Safe (exec maxBytes) (fun _ => True)
      (fun r w' => Grows (fun _ => False) w w' ∧ ∀ reserved ∈ r, reserved.frame = frame)
      (PairingRelay.onOutbox handle (handle.tryReserveFrame codec frame)) w := by
  have hquiet : AllOps (OutboxOp.Sends fun _ => False) (encodeExpect codec frame >>= fun _ =>
      handle.accounted frame OutboxHandle.tryReserveOwned) :=
    allOps_bind OutboxHandle.encodeExpect_sends fun _ =>
      handle.accounted_allOps (fun _ => trivial) (fun _ => trivial) ⟨trivial, fun _ => trivial⟩
  rw [OutboxHandle.tryReserveFrame, ← bind_assoc, PairingRelay.onOutbox, lift_bind]
  refine (safe_onOutbox handle hquiet).bind fun taken w' _ hgrows => ?_
  replace hgrows := hgrows.mono fun _ h => h.2
  cases taken with
  | true => exact ⟨trivial, hgrows, by rintro _ ⟨⟩; rfl⟩
  | false => exact ⟨trivial, hgrows, by rintro _ ⟨⟩⟩

theorem safe_send (handle : OutboxHandle) (reservation : ReservedFrame) :
    Safe (exec maxBytes) (fun _ => True)
      (fun _ w' => w.registry.Keeps w'.registry ∧ w.found ⊆ w'.found ∧
        ∃ registry, w.registry.Keeps registry ∧
          w'.sent = w.sent ++ [⟨handle.id, reservation.frame, registry⟩])
      (PairingRelay.onOutbox handle reservation.send) w := by
  refine ⟨trivial, fun r w' hexec => ⟨trivial, ?_⟩⟩
  obtain ⟨w₁, ⟨hkeeps, hfound, hsent⟩, o, -, rfl⟩ := hexec
  refine ⟨hkeeps, ?_, w₁.registry, hkeeps, ?_⟩
  · rw [← hfound]
    exact List.Subset.refl _
  · rw [← hsent]
    rfl

/-- Looking up a connection sends nothing. -/
theorem grows_get {id : ConnectionId} {r : Option OutboxHandle}
    (h : exec maxBytes (.get id) w r w') :
    Grows (fun _ => False) w w' ∧ ∀ handle, r = some handle → handle.id = id ∧ id ∈ w'.found := by
  obtain ⟨w₁, hinterferes, haccess⟩ := h
  have hgrows := grows_of_interferes (P := fun _ => False) hinterferes
  cases r with
  | none =>
    obtain ⟨-, rfl⟩ := haccess
    exact ⟨hgrows, fun _ h => nomatch h⟩
  | some handle =>
    obtain ⟨-, rfl, rfl⟩ := haccess
    refine ⟨hgrows.trans ⟨.refl _, List.subset_append_left _ _, [], by simp, by simp⟩, ?_⟩
    rintro _ ⟨⟩
    exact ⟨rfl, List.mem_append_right _ (List.mem_singleton.2 rfl)⟩

end PairingWorld

/-! ## What a call does -/

def RoomTable.Registered (rooms : RoomTable) (roomId a b : String) : Prop :=
  ∃ record, rooms.lookup roomId = some record ∧
    (record.members.toList = [a, b] ∨ record.members.toList = [b, a])

theorem RoomTable.Registered.keeps {rooms rooms' : RoomTable} {roomId a b : String}
    (h : rooms.Registered roomId a b) (hkeeps : rooms.Keeps rooms') :
    rooms'.Registered roomId a b := by
  obtain ⟨record, hrecord, hmembers⟩ := h
  obtain ⟨record', hrecord', heq⟩ := hkeeps roomId record hrecord
  exact ⟨record', hrecord', by rwa [heq]⟩

def SentFrame.NoPeer (m : SentFrame) : Prop := ∀ bundle, m.frame ≠ .pairPeer bundle

def StillPublished (offers offers' : HashMap String Offer) : Prop :=
  ∀ code offer, offers'.lookup code = some offer → offer.state = .published →
    offers.lookup code = some offer

theorem StillPublished.refl (offers : HashMap String Offer) : StillPublished offers offers :=
  fun _ _ h _ => h

theorem StillPublished.trans {a b c : HashMap String Offer} (hab : StillPublished a b)
    (hbc : StillPublished b c) : StillPublished a c :=
  fun code offer h hpublished => hab code offer (hbc code offer h hpublished) hpublished

theorem PairingWorld.grows_commitRoom {maxBytes : ℕ} {w w' : PairingWorld} {roomId a b : String}
    {r : Except IoError RegistryCommit} (h : exec maxBytes (.commitRoom roomId a b) w r w') :
    Grows (fun _ => False) w w' ∧
      ∀ commit, r = .ok commit → w'.registry.Registered roomId a b := by
  obtain ⟨w₁, hinterferes, haccess⟩ := h
  have hgrows := grows_of_interferes (P := fun _ => False) hinterferes
  cases r with
  | error e =>
    rw [show w' = w₁ from haccess]
    exact ⟨hgrows, fun _ h => nomatch h⟩
  | ok commit =>
    obtain ⟨createdAtMs, next, hcommit, rfl⟩ := haccess
    refine ⟨hgrows.trans ⟨?_, List.Subset.refl _, [], by simp, by simp⟩, fun _ _ => ?_⟩
    · intro other record hother
      exact ⟨record, Registry.lookup_commitRoom_of_some hcommit hother, rfl⟩
    · obtain ⟨record, hrecord, hmembers⟩ := Registry.lookup_of_commitRoom hcommit
      exact ⟨record, hrecord, (Members.toList_of_validate hmembers).2⟩

namespace PairingRelay

section States

variable {state : PairingState} {code : String} {offerState : OfferState}

theorem lookup_setState_of_ne {other : String} (h : other ≠ code) :
    (setState state code offerState).offers.lookup other = state.offers.lookup other := by
  unfold setState
  split
  · exact Finmap.lookup_insert_of_ne _ h
  · rfl

theorem lookup_setState_self :
    (setState state code offerState).offers.lookup code =
      (state.offers.lookup code).map fun offer => { offer with state := offerState } := by
  unfold setState
  split
  · rename_i offer hlookup
    rw [hlookup]
    exact Finmap.lookup_insert _
  · rename_i hlookup
    rw [hlookup]
    rfl

theorem setState_stillPublished (h : offerState ≠ .published) :
    StillPublished state.offers (setState state code offerState).offers := by
  intro other offer hlookup hpublished
  by_cases hother : other = code
  · rw [hother, lookup_setState_self] at hlookup
    obtain ⟨old, -, rfl⟩ := Option.map_eq_some_iff.1 hlookup
    exact absurd hpublished h
  · rwa [lookup_setState_of_ne hother] at hlookup

theorem size_setState : (setState state code offerState).offers.size = state.offers.size := by
  unfold setState
  split
  · rename_i offer hlookup
    exact HashMap.size_insert_of_mem (Finmap.mem_of_lookup_eq_some hlookup) _
  · rfl

theorem retain_stillPublished (offers : HashMap String Offer) (test : String → Offer → Bool) :
    StillPublished offers (offers.retain test) := by
  intro code offer hlookup _
  rw [HashMap.lookup_retain, Option.filter_eq_some_iff] at hlookup
  exact hlookup.1

theorem insert_stillPublished (offers : HashMap String Offer) (code : String) {offer : Offer}
    (h : offer.state ≠ .published) : StillPublished offers (offers.insert code offer) := by
  intro other old hlookup hpublished
  by_cases hother : other = code
  · rw [hother, Finmap.lookup_insert] at hlookup
    cases hlookup
    exact absurd hpublished h
  · rwa [Finmap.lookup_insert_of_ne _ hother] at hlookup

theorem onDisconnect_stillPublished (connectionId : ConnectionId) :
    StillPublished state.offers (onDisconnect state connectionId).offers := by
  intro code offer hlookup hpublished
  rw [onDisconnect, HashMap.lookup_mapValues] at hlookup
  obtain ⟨old, hold, heq⟩ := Option.map_eq_some_iff.1 hlookup
  split at heq
  · rw [← heq] at hpublished
    cases hpublished
  · rw [hold, heq]

theorem onDisconnect_connectionId {connectionId : ConnectionId} {offer : Offer}
    (hlookup : (onDisconnect state connectionId).offers.lookup code = some offer)
    (hpublished : offer.state = .published) : offer.connectionId ≠ connectionId := by
  rw [onDisconnect, HashMap.lookup_mapValues] at hlookup
  obtain ⟨old, -, heq⟩ := Option.map_eq_some_iff.1 hlookup
  split at heq
  · rw [← heq] at hpublished
    cases hpublished
  · rename_i hother
    rw [heq] at hother
    intro hconnection
    refine hother ⟨hconnection, ?_⟩
    rw [hpublished]
    exact nofun

end States

section Calls

open PairingWorld

variable (prim : Primitives) (codec : Codec) (config : PairingConfig) {maxBytes : ℕ}
  {w : PairingWorld} (state : PairingState) (context : PairContext) (code : String)
  (bundle : PubBundle)

def offered : Offer where
  connectionId := context.connectionId
  bundle := bundle
  fingerprint := bundleFp prim bundle
  expiresAt := context.now + config.offerTtl
  state := .published

/-- What is published after an offer: what was published before under other codes, and
the new offer if it succeeded. -/
def OfferPost (w : PairingWorld) : Answer × PairingState → PairingWorld → Prop
  | (.ok (), state'), w' => Grows SentFrame.NoPeer w w' ∧
      state'.offers.size ≤ config.maxOffers ∧
      ∀ c offer, state'.offers.lookup c = some offer → offer.state = .published →
        c ≠ code ∧ state.offers.lookup c = some offer ∨
          c = code ∧ offer = offered prim config context bundle
  | (.error _, state'), w' => Grows SentFrame.NoPeer w w' ∧
      state'.offers.size ≤ config.maxOffers ∧ StillPublished state.offers state'.offers

theorem safe_onOffer (hsize : state.offers.size ≤ config.maxOffers) :
    Safe (exec maxBytes) (fun _ => True) (OfferPost prim config state context code bundle w)
      (onOffer prim codec config state context code bundle) w := by
  unfold onOffer
  split
  · exact ⟨trivial, .refl _ w, hsize, .refl _⟩
  split
  · exact ⟨trivial, .refl _ w, hsize, .refl _⟩
  have hretained := retain_stillPublished state.offers
    fun _ offer => decide (context.now < offer.expiresAt)
  have hless := (HashMap.size_retain_le
    (fun _ offer => decide (context.now < offer.expiresAt)) state.offers).trans hsize
  dsimp only
  generalize state.offers.retain _ = retained at hretained hless ⊢
  split
  · exact ⟨trivial, .refl _ w, hless, hretained⟩
  split
  · exact ⟨trivial, .refl _ w, hless, hretained⟩
  rename_i hroom
  refine ⟨trivial, fun present w₁ hexec => ?_⟩
  have hgrows : Grows SentFrame.NoPeer w w₁ := by
    obtain ⟨w₂, hinterferes, -, rfl⟩ := hexec
    exact grows_of_interferes hinterferes
  change Safe _ _ _ (if present = false then _ else _) w₁
  split
  · exact ⟨trivial, hgrows, hless, hretained⟩
  have hpreparing : StillPublished state.offers (retained.insert code
      { offered prim config context bundle with state := .preparing }) :=
    hretained.trans (insert_stillPublished retained code nofun)
  have hmore : ∀ offer, HashMap.size (retained.insert code offer) ≤ config.maxOffers :=
    fun _ => (HashMap.size_insert_le _ _ _).trans (not_le.1 hroom)
  refine (safe_onOutbox context.outbox
    (context.outbox.sendFrame_sends (P := (· = .pairOfferOk)) rfl)).bind ?_
  intro sent w₂ _ hsent
  have hgrows := hgrows.trans <| hsent.mono fun m h bundle hpeer => by
    rw [h.2] at hpeer
    cases hpeer
  change Safe _ _ _ (if sent = false then _ else _) w₂
  split
  · refine ⟨trivial, hgrows, ?_, hpreparing.trans (setState_stillPublished nofun)⟩
    rw [size_setState]
    exact hmore _
  · refine ⟨trivial, hgrows, ?_, ?_⟩
    · rw [size_setState]
      exact hmore _
    · intro c offer hlookup hpublished
      by_cases hc : c = code
      · rw [hc, lookup_setState_self, Finmap.lookup_insert] at hlookup
        cases hlookup
        exact .inr ⟨hc, rfl⟩
      · rw [lookup_setState_of_ne hc] at hlookup
        exact .inl ⟨hc, hpreparing c offer hlookup hpublished⟩

/-- What a claim that succeeds has found and done. -/
structure Exchange (offer : Offer) (w w' : PairingWorld) : Prop where
  lookup : state.offers.lookup code = some offer
  published : offer.state = .published
  unexpired : context.now < offer.expiresAt
  distinct : bundleFp prim bundle ≠ offer.fingerprint
  found : offer.connectionId ∈ w'.found
  sent : ∃ first second, w'.sent = w.sent ++
      [⟨offer.connectionId, .pairPeer bundle, first⟩,
        ⟨context.outbox.id, .pairPeer offer.bundle, second⟩] ∧
    ∀ registry ∈ [first, second], RoomTable.Registered registry
      (roomId prim offer.bundle bundle) offer.fingerprint (bundleFp prim bundle)

/-- A claim that succeeds hands out the two bundles, any other claim none. The code is
not published afterwards. -/
def ClaimPost (w : PairingWorld) : Answer × PairingState → PairingWorld → Prop
  | (.ok (), state'), w' => state'.offers.size = state.offers.size ∧
      StillPublished state.offers state'.offers ∧
      (∀ offer, state'.offers.lookup code = some offer → offer.state ≠ .published) ∧
      ∃ offer, Exchange prim state context code bundle offer w w'
  | (.error _, state'), w' => state'.offers.size = state.offers.size ∧
      StillPublished state.offers state'.offers ∧ w'.sent = w.sent

theorem safe_onClaim :
    Safe (exec maxBytes) (fun _ => True) (ClaimPost prim state context code bundle w)
      (onClaim prim codec state context code bundle) w := by
  unfold onClaim
  split
  · exact ⟨trivial, rfl, .refl _, rfl⟩
  split
  · exact ⟨trivial, rfl, .refl _, rfl⟩
  rename_i offer hlookup
  split
  · exact ⟨trivial, size_setState, setState_stillPublished nofun, rfl⟩
  rename_i hopen
  obtain ⟨hunexpired, hpublished⟩ := not_or.1 hopen
  rw [not_le] at hunexpired
  rw [not_not] at hpublished
  set consumed := setState (setState state code .claimed) code .terminal with hconsumed
  have hsize : consumed.offers.size = state.offers.size := by
    rw [hconsumed, size_setState, size_setState]
  have hclaimed : StillPublished state.offers (setState state code .claimed).offers :=
    setState_stillPublished nofun
  have hstill : StillPublished state.offers consumed.offers :=
    hclaimed.trans (setState_stillPublished nofun)
  have herror : ∀ {w' : PairingWorld} {frame : Frame}, Grows (fun _ => False) w w' →
      Safe (exec maxBytes) (fun _ => True) (ClaimPost prim state context code bundle w)
        (pure (.error frame, consumed)) w' :=
    fun hgrows => ⟨trivial, hsize, hstill, hgrows.sent_eq⟩
  dsimp only
  split
  · exact herror (.refl _ w)
  split
  · exact herror (.refl _ w)
  rename_i hdistinct
  refine ⟨trivial, fun handle w₁ hget => ?_⟩
  obtain ⟨hgrows, hfound⟩ := grows_get hget
  cases handle with
  | none => exact herror hgrows
  | some offerOutbox =>
  obtain ⟨hid, hfound⟩ := hfound offerOutbox rfl
  refine ⟨trivial, fun commit w₂ hcommit => ?_⟩
  obtain ⟨hgrows₂, hregistered⟩ := grows_commitRoom hcommit
  replace hgrows := hgrows.trans hgrows₂
  cases commit with
  | error e => exact herror hgrows
  | ok commit =>
  dsimp only [Program.bind]
  generalize hofferPeer : Frame.pairPeer bundle = offerPeer
  generalize hclaimPeer : Frame.pairPeer offer.bundle = claimPeer
  refine (safe_tryReserveFrame codec offerOutbox offerPeer).bind ?_
  rintro offerReservation w₃ - ⟨hgrows₃, hofferFrame⟩
  replace hgrows := hgrows.trans hgrows₃
  cases offerReservation with
  | none => exact herror hgrows
  | some offerReservation =>
  refine (safe_tryReserveFrame codec context.outbox claimPeer).bind ?_
  rintro claimReservation w₄ - ⟨hgrows₄, hclaimFrame⟩
  replace hgrows := hgrows.trans hgrows₄
  cases claimReservation with
  | none =>
    refine (safe_onOutbox (P := fun _ => False) offerOutbox offerReservation.drop_sends).bind ?_
    intro _ w₅ _ hdrop
    exact herror (hgrows.trans (hdrop.mono fun _ h => h.2))
  | some claimReservation =>
    -- Both sends happen after the room was registered.
    have hkeeps := (hgrows₃.trans hgrows₄).1
    have hsince := (hgrows₂.trans (hgrows₃.trans hgrows₄)).2.1
    refine (safe_send offerOutbox offerReservation).bind ?_
    rintro _ w₅ - ⟨hkeeps₅, hfound₅, first, hfirst, hsent₅⟩
    refine (safe_send context.outbox claimReservation).bind ?_
    rintro _ w₆ - ⟨-, hfound₆, second, hsecond, hsent₆⟩
    refine ⟨trivial, hsize, hstill, ?_, offer, hlookup, hpublished, hunexpired, hdistinct,
      hfound₆ (hfound₅ (hsince hfound)), first, second, ?_, ?_⟩
    · intro other hother
      rw [hconsumed, lookup_setState_self] at hother
      obtain ⟨_, -, rfl⟩ := Option.map_eq_some_iff.1 hother
      exact nofun
    · rw [hsent₆, hsent₅, hgrows.sent_eq, hid, hofferFrame _ rfl, hclaimFrame _ rfl,
        hofferPeer, hclaimPeer, List.append_assoc]
      rfl
    · have hregistered := (hregistered commit rfl).keeps hkeeps
      intro registry hregistry
      rcases List.mem_pair.1 hregistry with rfl | rfl
      · exact hregistered.keeps hfirst
      · exact (hregistered.keeps hkeeps₅).keeps hsecond

/-- What a pairing frame does, whichever it is. -/
structure FramePost (frame : Frame) (w : PairingWorld) (answer : Answer) (state' : PairingState)
    (w' : PairingWorld) : Prop where
  size : state'.offers.size ≤ config.maxOffers
  /-- Nothing is published anew but by an offer, and a code that is claimed no more. -/
  published : ∀ c offer, state'.offers.lookup c = some offer → offer.state = .published →
    (state.offers.lookup c = some offer ∧
      (answer = .ok () → ∀ b, frame ≠ .pairOffer c b ∧ frame ≠ .pairClaim c b)) ∨
    answer = .ok () ∧ ∃ b, frame = .pairOffer c b ∧ offer = offered prim config context b
  exchange : answer = .ok () → ∀ c b, frame = .pairClaim c b →
    ∃ offer, Exchange prim state context c b offer w w'
  quiet : (answer = .ok () → ∀ c b, frame ≠ .pairClaim c b) →
    ∃ more, w'.sent = w.sent ++ more ∧ ∀ m ∈ more, m.NoPeer

theorem framePost_error {frame reply : Frame} {state' : PairingState} {w' : PairingWorld}
    (hsize : state'.offers.size ≤ config.maxOffers)
    (hstill : StillPublished state.offers state'.offers)
    (hsent : ∃ more, w'.sent = w.sent ++ more ∧ ∀ m ∈ more, m.NoPeer) :
    FramePost prim config state context frame w (.error reply) state' w' where
  size := hsize
  published c offer h hp := .inl ⟨hstill c offer h hp, nofun⟩
  exchange := nofun
  quiet _ := hsent

theorem allowAttempt_offers (ip : IpAddr) (now : ℕ) :
    (allowAttempt config state ip now).2.offers = state.offers := by
  simp only [allowAttempt, apply_ite Prod.snd, apply_ite PairingState.offers, ite_self]

theorem safe_onPairFrame (clientIp : IpAddr) (frame : Frame)
    (hsize : state.offers.size ≤ config.maxOffers) :
    Safe (exec maxBytes) (fun _ => True)
      (fun r w' => FramePost prim config state context frame w r.1 r.2 w')
      (onPairFrame prim codec config state context clientIp frame) w := by
  have hnone : ∃ more, w.sent = w.sent ++ more ∧ ∀ m ∈ more, m.NoPeer :=
    ⟨[], (List.append_nil _).symm, by simp⟩
  have hoffers := allowAttempt_offers config state clientIp context.now
  unfold onPairFrame
  split
  · rename_i counted heq
    rw [heq] at hoffers
    replace hoffers : counted.offers = state.offers := hoffers
    dsimp only
    split
    · refine ⟨trivial, framePost_error prim config state context ?_ ?_ hnone⟩
      · rw [size_setState, hoffers]
        exact hsize
      · rw [← hoffers]
        exact setState_stillPublished nofun
    · refine ⟨trivial, framePost_error prim config state context ?_ ?_ hnone⟩
      · rwa [hoffers]
      · rw [hoffers]
        exact .refl _
  · rename_i counted heq
    rw [heq] at hoffers
    replace hoffers : counted.offers = state.offers := hoffers
    rw [← hoffers] at hsize
    split
    · rename_i code pubBundle
      refine (safe_onOffer prim codec config counted context code pubBundle hsize).mono
        (fun _ _ => trivial) ?_
      rintro ⟨answer, state'⟩ w' - hpost
      rw [OfferPost.eq_def, hoffers] at hpost
      cases answer with
      | error reply =>
        exact framePost_error prim config state context hpost.2.1 hpost.2.2 hpost.1.2.2
      | ok _ =>
        refine ⟨hpost.2.1, fun c offer hlookup hpublished => ?_, nofun, fun _ => hpost.1.2.2⟩
        rcases hpost.2.2 c offer hlookup hpublished with ⟨hc, hold⟩ | ⟨rfl, rfl⟩
        · refine .inl ⟨hold, fun _ b => ⟨?_, nofun⟩⟩
          rintro ⟨⟩
          exact hc rfl
        · exact .inr ⟨rfl, pubBundle, rfl, rfl⟩
    · rename_i code pubBundle
      refine (safe_onClaim prim codec counted context code pubBundle).mono
        (fun _ _ => trivial) ?_
      rintro ⟨answer, state'⟩ w' - hpost
      rw [ClaimPost.eq_def, hoffers] at hpost
      cases answer with
      | error reply =>
        refine framePost_error prim config state context ?_ hpost.2.1 ⟨[], ?_, by simp⟩
        · rw [hpost.1]
          rwa [hoffers] at hsize
        · rw [hpost.2.2, List.append_nil]
      | ok _ =>
        obtain ⟨hsize', hstill, hgone, offer, hexchange⟩ := hpost
        refine ⟨?_, fun c offer hlookup hpublished => .inl ⟨hstill c offer hlookup hpublished, ?_⟩,
          ?_, fun h => absurd rfl (h rfl code pubBundle)⟩
        · rw [hsize']
          rwa [hoffers] at hsize
        · refine fun _ b => ⟨nofun, ?_⟩
          rintro ⟨⟩
          exact hgone offer hlookup hpublished
        · rintro - _ _ ⟨⟩
          exact ⟨offer, { hexchange with lookup := by rw [← hoffers]; exact hexchange.lookup }⟩
    · refine ⟨trivial, framePost_error prim config state context ?_ ?_ hnone⟩
      · exact hsize
      · rw [hoffers]
        exact .refl _

end Calls

/-! ## Runs -/

/-- The calls of the relay. -/
inductive Call where
  | frame (connectionId : ConnectionId) (helloBundle : PubBundle) (now : ℕ)
      (clientIp : IpAddr) (frame : Frame)
  | disconnect (connectionId : ConnectionId)

/-- A call that has returned, the connections it found and the frames it sent. -/
structure Entry where
  call : Call
  answer : Answer
  found : List ConnectionId
  sent : List SentFrame

structure Run where
  state : PairingState
  world : PairingWorld
  history : List Entry

section Runs

variable (prim : Primitives) (codec : Codec) (config : PairingConfig) (maxBytes : ℕ)

def Run.start (world : PairingWorld) : Run := ⟨⟨∅, ∅⟩, world, []⟩

/-- The next call that gets the lock. -/
inductive Step : Run → Run → Prop where
  | frame {s : Run} {connectionId : ConnectionId} {helloBundle : PubBundle} {now : ℕ}
      {clientIp : IpAddr} {frame : Frame} {answer : Answer} {state' : PairingState}
      {w' : PairingWorld}
      (exec : Exec (PairingWorld.exec maxBytes)
        (onPairFrame prim codec config s.state
          ⟨connectionId, helloBundle, ⟨connectionId, maxBytes⟩, now⟩ clientIp frame)
        { s.world with found := [], sent := [] } (answer, state') w') :
      Step s ⟨state', w', s.history ++
        [⟨.frame connectionId helloBundle now clientIp frame, answer, w'.found, w'.sent⟩]⟩
  | disconnect (s : Run) (connectionId : ConnectionId) :
      Step s ⟨onDisconnect s.state connectionId, s.world,
        s.history ++ [⟨.disconnect connectionId, .ok (), [], []⟩]⟩

def Entry.Offers (e : Entry) (code : String) (connectionId : ConnectionId) (bundle : PubBundle)
    (expiresAt : ℕ) : Prop :=
  e.answer = .ok () ∧ ∃ helloBundle now clientIp, expiresAt = now + config.offerTtl ∧
    e.call = .frame connectionId helloBundle now clientIp (.pairOffer code bundle)

def Entry.Claims (e : Entry) (code : String) : Prop :=
  e.answer = .ok () ∧ ∃ connectionId helloBundle now clientIp bundle,
    e.call = .frame connectionId helloBundle now clientIp (.pairClaim code bundle)

/-- The code has been offered, and since then it was not claimed and its connection has
not disconnected. -/
def Open (history : List Entry) (code : String) (connectionId : ConnectionId)
    (bundle : PubBundle) (expiresAt : ℕ) : Prop :=
  ∃ before offer after, history = before ++ offer :: after ∧
    offer.Offers config code connectionId bundle expiresAt ∧
    ∀ e ∈ after, ¬ e.Claims code ∧ e.call ≠ .disconnect connectionId

def Exchanged (sent : List SentFrame) (offerer claimer : ConnectionId)
    (offered claimed : PubBundle) : Prop :=
  ∃ first second, sent =
      [⟨offerer, .pairPeer claimed, first⟩, ⟨claimer, .pairPeer offered, second⟩] ∧
    ∀ registry ∈ [first, second], RoomTable.Registered registry (roomId prim offered claimed)
      (bundleFp prim offered) (bundleFp prim claimed)

def Entry.Justified (prior : List Entry) (e : Entry) : Prop :=
  match e.call, e.answer with
  | .frame claimer _ now _ (.pairClaim code claimed), .ok () =>
    ∃ offerer offered expiresAt, Open config prior code offerer offered expiresAt ∧
      now < expiresAt ∧ offerer ∈ e.found ∧
      bundleFp prim offered ≠ bundleFp prim claimed ∧
      Exchanged prim e.sent offerer claimer offered claimed
  | _, _ => ∀ m ∈ e.sent, m.NoPeer

/-- What holds between two calls. -/
structure Inv (s : Run) : Prop where
  size : s.state.offers.size ≤ config.maxOffers
  /-- The published offers are those of the history that are still open. -/
  published : ∀ code offer, s.state.offers.lookup code = some offer →
    offer.state = .published → offer.fingerprint = bundleFp prim offer.bundle ∧
      Open config s.history code offer.connectionId offer.bundle offer.expiresAt
  justified : ∀ prior e rest, s.history = prior ++ e :: rest → e.Justified prim config prior

variable {prim codec config maxBytes} {s s' : Run}

theorem Open.append {history : List Entry} {code : String} {connectionId : ConnectionId}
    {bundle : PubBundle} {expiresAt : ℕ}
    (h : Open config history code connectionId bundle expiresAt)
    {e : Entry} (hclaims : ¬ e.Claims code) (hcall : e.call ≠ .disconnect connectionId) :
    Open config (history ++ [e]) code connectionId bundle expiresAt := by
  obtain ⟨before, offer, after, rfl, hoffer, hafter⟩ := h
  refine ⟨before, offer, after ++ [e], by simp, hoffer, ?_⟩
  intro x hx
  rcases List.mem_append.1 hx with hx | hx
  · exact hafter x hx
  · rw [List.mem_singleton.1 hx]
    exact ⟨hclaims, hcall⟩

theorem justified_append {history : List Entry} {last : Entry}
    (h : ∀ prior e rest, history = prior ++ e :: rest → e.Justified prim config prior)
    (hlast : last.Justified prim config history) (prior : List Entry) (e : Entry)
    (rest : List Entry) (heq : history ++ [last] = prior ++ e :: rest) :
    e.Justified prim config prior := by
  rcases List.eq_nil_or_concat rest with rfl | ⟨rest, x, rfl⟩
  · obtain ⟨rfl, hlast'⟩ := List.append_inj' heq rfl
    cases hlast'
    exact hlast
  · rw [List.concat_eq_append, ← List.cons_append, ← List.append_assoc] at heq
    exact h prior e rest (List.append_inj' heq rfl).1

theorem inv_start (world : PairingWorld) : Inv prim config (Run.start world) where
  size := Nat.zero_le _
  published _ _ h := nomatch h
  justified prior _ _ h := by
    cases prior with
    | nil => cases h
    | cons => cases h

theorem inv_disconnect (hinv : Inv prim config s) (connectionId : ConnectionId) :
    Inv prim config ⟨onDisconnect s.state connectionId, s.world,
      s.history ++ [⟨.disconnect connectionId, .ok (), [], []⟩]⟩ where
  size := (HashMap.size_mapValues _ _).trans_le hinv.size
  published code offer hlookup hpublished := by
    have hold := onDisconnect_stillPublished connectionId code offer hlookup hpublished
    obtain ⟨hfingerprint, hopen⟩ := hinv.published code offer hold hpublished
    refine ⟨hfingerprint, hopen.append ?_ ?_⟩
    · rintro ⟨-, _, _, _, _, _, ⟨⟩⟩
    · rintro ⟨⟩
      exact onDisconnect_connectionId hlookup hpublished rfl
  justified := justified_append hinv.justified fun _ h => nomatch h

theorem inv_frame (hinv : Inv prim config s) {connectionId : ConnectionId}
    {helloBundle : PubBundle} {now : ℕ} {clientIp : IpAddr} {frame : Frame} {answer : Answer}
    {state' : PairingState} {w' : PairingWorld}
    (hpost : FramePost prim config s.state
      ⟨connectionId, helloBundle, ⟨connectionId, maxBytes⟩, now⟩ frame
      { s.world with found := [], sent := [] } answer state' w') :
    Inv prim config ⟨state', w', s.history ++
      [⟨.frame connectionId helloBundle now clientIp frame, answer, w'.found, w'.sent⟩]⟩ where
  size := hpost.size
  published code offer hlookup hpublished := by
    rcases hpost.published code offer hlookup hpublished with
      ⟨hold, hother⟩ | ⟨hok, bundle, rfl, rfl⟩
    · obtain ⟨hfingerprint, hopen⟩ := hinv.published code offer hold hpublished
      refine ⟨hfingerprint, hopen.append ?_ nofun⟩
      rintro ⟨hok, _, _, _, _, bundle, hcall⟩
      cases hcall
      exact (hother hok bundle).2 rfl
    · exact ⟨rfl, s.history, _, [], rfl, ⟨hok, helloBundle, now, clientIp, rfl, rfl⟩, by simp⟩
  justified := by
    refine justified_append hinv.justified ?_
    unfold Entry.Justified
    split
    · rename_i claimer hello' now' ip' code claimed hcall hanswer
      cases hcall
      obtain ⟨offer, hexchange⟩ := hpost.exchange hanswer code claimed rfl
      obtain ⟨hfingerprint, hopen⟩ := hinv.published code offer hexchange.lookup hexchange.published
      refine ⟨_, _, _, hopen, hexchange.unexpired, hexchange.found, ?_, ?_⟩
      · rw [← hfingerprint]
        exact hexchange.distinct.symm
      · rw [Exchanged, ← hfingerprint]
        exact hexchange.sent
    · rename_i hother
      obtain ⟨more, hmore, hquiet⟩ := hpost.quiet fun hok code bundle hframe =>
        hother connectionId helloBundle now clientIp code bundle (by rw [hframe]) hok
      rw [hmore]
      exact hquiet

theorem inv_step (hinv : Inv prim config s) (h : Step prim codec config maxBytes s s') :
    Inv prim config s' := by
  cases h with
  | frame hexec =>
    exact inv_frame hinv
      ((safe_onPairFrame prim codec config s.state _ _ _ hinv.size).post hexec)
  | disconnect connectionId => exact inv_disconnect hinv connectionId

theorem inv_reaches {world : PairingWorld}
    (h : Relation.ReflTransGen (Step prim codec config maxBytes) (Run.start world) s) :
    Inv prim config s := by
  induction h with
  | refl => exact inv_start world
  | tail _ hstep ih => exact inv_step ih hstep

theorem Inv.offered_between (hinv : Inv prim config s) {prior mid rest : List Entry}
    {first second : Entry} {code : String}
    (heq : s.history = prior ++ first :: (mid ++ second :: rest)) (hfirst : first.Claims code)
    (hsecond : second.Claims code) :
    ∃ offer ∈ mid, ∃ connectionId bundle expiresAt,
      offer.Offers config code connectionId bundle expiresAt := by
  have hjustified := hinv.justified (prior ++ first :: mid) second rest (by rw [heq]; simp)
  obtain ⟨hok, claimer, _, now, _, claimed, hcall⟩ := hsecond
  rw [Entry.Justified, hcall, hok] at hjustified
  obtain ⟨offerer, bundle, expiresAt, ⟨before, offer, after, hsplit, hoffer, hafter⟩, -⟩ :=
    hjustified
  have hne : offer ≠ first := by
    rintro rfl
    obtain ⟨-, _, _, _, _, hcall⟩ := hoffer
    obtain ⟨-, _, _, _, _, _, hcall'⟩ := hfirst
    rw [hcall] at hcall'
    cases hcall'
  rcases List.append_eq_append_iff.1 hsplit with ⟨more, rfl, hmore⟩ | ⟨more, rfl, hmore⟩
  · refine ⟨offer, ?_, offerer, bundle, expiresAt, hoffer⟩
    have hmem : offer ∈ first :: mid := by
      rw [hmore]
      simp
    exact (List.mem_cons.1 hmem).resolve_left hne
  · -- The first claim would come after the offer that the second one was made against.
    cases more with
    | nil =>
      cases hmore
      exact absurd rfl hne
    | cons x more =>
      cases hmore
      exact absurd hfirst (hafter first (by simp)).1

/-- Every offer leads to at most one exchange of bundles, every claim that succeeds is
made against an offer that is open, and there are never too many offers. -/
theorem claims_justified {world : PairingWorld}
    (h : Relation.ReflTransGen (Step prim codec config maxBytes) (Run.start world) s) :
    s.state.offers.size ≤ config.maxOffers ∧
      (∀ prior e rest, s.history = prior ++ e :: rest → e.Justified prim config prior) ∧
      ∀ prior first mid second rest code,
        s.history = prior ++ first :: (mid ++ second :: rest) → first.Claims code →
        second.Claims code → ∃ offer ∈ mid, ∃ connectionId bundle expiresAt,
          offer.Offers config code connectionId bundle expiresAt := by
  have hinv := inv_reaches h
  refine ⟨hinv.size, hinv.justified, ?_⟩
  intro prior first mid second rest code heq hfirst hsecond
  exact hinv.offered_between heq hfirst hsecond

end Runs

/-! ## A run without interference -/

section Sample

def undisturbed (maxBytes : ℕ) (createdAtMs : Int64) :
    (op : PairingOp) → PairingWorld → Option (op.Res × PairingWorld)
  | .containsKey id, w => some (decide (id ∈ w.connections), w)
  | .get id, w =>
    if id ∈ w.connections then
      some (some ⟨id, maxBytes⟩, { w with found := w.found ++ [id] })
    else some (none, w)
  | .outbox handle op, w => (Outbox.access op (w.outboxes handle.id)).map fun (r, o) =>
    (r, { w with
      outboxes := Function.update w.outboxes handle.id o
      sent := w.sent ++ (PairingWorld.framesOf op r).map fun frame =>
        ⟨handle.id, frame, w.registry⟩ })
  | .commitRoom roomId a b, w =>
    match Registry.commitRoom w.registry roomId a b createdAtMs with
    | .ok (commit, next) => some (.ok commit, { w with registry := next })
    | .error e => some (.error e, w)

theorem exec_of_undisturbed {maxBytes : ℕ} {createdAtMs : Int64} (op : PairingOp)
    (w : PairingWorld) (r : op.Res) (w' : PairingWorld)
    (h : undisturbed maxBytes createdAtMs op w = some (r, w')) :
    PairingWorld.exec maxBytes op w r w' := by
  refine ⟨w, ⟨.refl _, rfl, rfl⟩, ?_⟩
  cases op with
  | containsKey id =>
    cases h
    exact ⟨rfl, rfl⟩
  | get id =>
    rw [undisturbed] at h
    split at h
    · rename_i hmem
      cases h
      exact ⟨hmem, rfl, rfl⟩
    · rename_i hmem
      cases h
      exact ⟨hmem, rfl⟩
  | outbox handle op =>
    obtain ⟨⟨r', o⟩, ho, heq⟩ := Option.map_eq_some_iff.1 h
    cases heq
    exact ⟨o, ho, rfl⟩
  | commitRoom roomId a b =>
    rw [undisturbed] at h
    split at h
    · rename_i commit next hcommit
      cases h
      exact ⟨createdAtMs, next, hcommit, rfl⟩
    · cases h
      rfl

def sampleCall (s : Run) (connectionId : ConnectionId) (bundle : PubBundle) (frame : Frame) :
    Option Run :=
  ((onPairFrame Primitives.sample sampleCodec {} s.state
      ⟨connectionId, bundle, ⟨connectionId, 50331648⟩, 0⟩ .unspecified frame).run
        (undisturbed 50331648 0)
    { s.world with found := [], sent := [] }).map fun ((answer, state'), w') =>
      ⟨state', w', s.history ++
        [⟨.frame connectionId bundle 0 .unspecified frame, answer, w'.found, w'.sent⟩]⟩

theorem step_of_sampleCall {s s' : Run} {connectionId : ConnectionId} {bundle : PubBundle}
    {frame : Frame} (h : sampleCall s connectionId bundle frame = some s') :
    Step Primitives.sample sampleCodec {} 50331648 s s' := by
  obtain ⟨⟨⟨answer, state'⟩, w'⟩, hrun, rfl⟩ := Option.map_eq_some_iff.1 h
  exact .frame (exec_of_run exec_of_undisturbed hrun)

def sampleBundle (n : UInt8) : PubBundle := ⟨.replicate 32 n, .replicate 32 n⟩

def sampleRun : Option Run := do
  let s ← sampleCall (Run.start ⟨∅, {1, 2}, fun _ => outbox 2, [], []⟩) 1 (sampleBundle 1)
    (.pairOffer "234567" (sampleBundle 1))
  sampleCall s 2 (sampleBundle 2) (.pairClaim "234567" (sampleBundle 2))

theorem sampleRun_ok : (sampleRun.any fun s => s.history.getLast?.any (·.answer.isOk)) = true := by
  decide +kernel

theorem claims_justified_sample :
    ∃ prior e, Entry.Claims e "234567" ∧ e.Justified Primitives.sample {} prior := by
  obtain ⟨s, hrun, hok⟩ := (Option.any_eq_true _ _).1 sampleRun_ok
  obtain ⟨s₁, hoffer, hclaim⟩ := Option.bind_eq_some_iff.1 hrun
  have hreaches := (Relation.ReflTransGen.single (step_of_sampleCall hoffer)).tail
    (step_of_sampleCall hclaim)
  obtain ⟨⟨⟨answer, state'⟩, w'⟩, -, rfl⟩ := Option.map_eq_some_iff.1 hclaim
  refine ⟨s₁.history, _, ⟨?_, 2, sampleBundle 2, 0, .unspecified, sampleBundle 2, rfl⟩,
    (claims_justified hreaches).2.1 _ _ [] rfl⟩
  rw [List.getLast?_append] at hok
  cases answer with
  | ok _ => rfl
  | error e => exact absurd hok (by simp [Except.isOk, Except.toBool])

end Sample

end PairingRelay

end ClipSync
