import ClipSync.Lib.Threads
import ClipSync.Server.Rooms
import ClipSync.Server.Routing

/-!
# Joins behind the last disconnect

Any number of `join`, `clip` and `disconnect` calls run beside the actors of all
rooms. After a disconnect that leaves nobody online an actor leaves the table and
drops its inbox, whatever has arrived there in the meantime, so a join that was
accepted behind such a disconnect is lost. In every run in which joins keep away from
stopping actors, a join that was accepted is in the inbox of a running actor or has
been taken up by one.
-/

namespace ClipSync

open Lib Program

/-- The calls of the room functions, and the actors by their numbers. -/
inductive RoomsThread where
  | join (n : ℕ) (roomId : String) (memberFps : List String) (fp deviceId : String)
      (connectionId : ConnectionId) (outbox : OutboxHandle)
  | clip (n : ℕ) (roomId senderFp : String) (connectionId : ConnectionId)
      (ciphertextB64 : String) (encodedSize : ℕ)
  | disconnect (n : ℕ) (roomId fp : String) (connectionId : ConnectionId)
  | actor (id : ℕ)
deriving DecidableEq

abbrev RoomsThread.Value : RoomsThread → Type
  | .join .. | .clip .. => Except RoomEvent Unit
  | .disconnect .. => Unit
  | .actor _ => Option RoomActor

namespace Rooms

variable (codec : Codec) (limits : InboxLimits)

/-- Calls can begin at any time; an actor begins when it has been spawned and goes on
from turn to turn until it stops. -/
def system :
    Threads.System RoomsOp RoomsOp.Res RoomsThread.Value (RoomsState RoomsThread) where
  exec := RoomsState.exec limits
  enter
    | .join _ roomId memberFps fp deviceId connectionId outbox, none, s, p, s' =>
      p = join roomId memberFps fp deviceId connectionId outbox ∧ s' = s
    | .clip _ roomId senderFp connectionId ciphertextB64 encodedSize, none, s, p, s' =>
      p = clip roomId senderFp connectionId ciphertextB64 encodedSize ∧ s' = s
    | .disconnect _ roomId fp connectionId, none, s, p, s' =>
      p = disconnect roomId fp connectionId ∧ s' = s
    | .actor id, none, s, p, s' =>
      ∃ actor, s.actors[id]? = some actor ∧
        p = actor.runTurn codec ⟨id, limits.maxBytes⟩ ∧ s' = s
    | .actor id, some (some actor), s, p, s' =>
      p = actor.runTurn codec ⟨id, limits.maxBytes⟩ ∧ s' = s
    | _, _, _, _, _ => False

def idle : Threads RoomsOp RoomsOp.Res RoomsThread.Value (RoomsState RoomsThread) where
  shared := .empty limits
  threads _ := none

def IsJoin : RoomEvent → Prop
  | .join .. => True
  | .clip .. | .disconnect .. => False

def Empties (event : RoomEvent) (online : HashMap String OnlineMember) : Prop :=
  match event with
  | .disconnect fp connectionId => ∀ other member, online.lookup other = some member →
      other = fp ∧ member.connectionId = connectionId
  | .join .. | .clip .. => False

def Stopping (s : RoomsState RoomsThread) (id : ℕ) : Prop :=
  ∃ turn, (s.turns.filter fun turn => turn.actor = id).getLast? = some turn ∧
    Empties turn.event turn.online

def NoJoin (queue : List (ℕ × RoomEvent)) : Prop := ∀ e ∈ queue, ¬ IsJoin e.2

/-- No join waits behind a disconnect that leaves nobody online when the actor takes
that up, none is sent to the actor from then on while its inbox is open, and an actor
stops for no other reason. -/
def JoinsInTime (_ : RoomsThread) (op : RoomsOp) (s : RoomsState RoomsThread) : Prop :=
  match op with
  | .recv id online => ∀ e rest, (s.inboxes id).queue = e :: rest → Empties e.2 online →
      NoJoin rest
  | .trySend id event => (s.inboxes id).isOpen = true → IsJoin event → ¬ Stopping s id
  | .dropReceiver id => Stopping s id
  | _ => True

def Waits (s : RoomsState RoomsThread) (id : ℕ) (e : ℕ × RoomEvent) : Prop :=
  (s.inboxes id).isOpen = true ∧ e ∈ (s.inboxes id).queue

def Taken (s : RoomsState RoomsThread) (e : ℕ × RoomEvent) : Prop :=
  ∃ turn ∈ s.turns, turn.ticket = e.1 ∧ turn.event = e.2

section Step

variable {limits} {s s' : RoomsState RoomsThread} {t : RoomsThread} {op : RoomsOp} {r : op.Res}
  {id : ℕ} {e : ℕ × RoomEvent}

theorem Waits.setInbox {other : ℕ} {inbox : Inbox} (h : Waits s id e)
    (hinbox : other = id → inbox.isOpen = true ∧ e ∈ inbox.queue) :
    Waits (s.setInbox other inbox) id e := by
  by_cases hid : id = other
  · subst hid
    simpa [Waits] using hinbox rfl
  · rw [Waits, RoomsState.setInbox_inboxes_of_ne s hid]
    exact h

theorem taken_exec (heffect : RoomsState.Effect t s op s') (h : Taken s e) : Taken s' e := by
  obtain ⟨turn, hturn, heq⟩ := h
  suffices hsubset : s.turns ⊆ s'.turns from ⟨turn, hsubset hturn, heq⟩
  cases heffect with
  | still _ _ hturns => rw [hturns]; exact fun _ => id
  | counted | sent | stopped => exact fun _ => id
  | received => exact List.subset_append_left _ _

theorem waits_exec (hdrained : ∀ id, op = .dropReceiver id → NoJoin (s.inboxes id).queue)
    (heffect : RoomsState.Effect t s op s') (hjoin : IsJoin e.2) (h : Waits s id e) :
    Waits s' id e ∨ Taken s' e := by
  cases heffect with
  | still hinboxes _ _ =>
    rw [Waits, hinboxes]
    exact .inl h
  | counted other n =>
    refine .inl (h.setInbox ?_)
    rintro rfl
    exact h
  | @sent other event slot =>
    refine .inl (h.setInbox ?_)
    rintro rfl
    exact ⟨h.1, List.mem_append_left _ h.2⟩
  | received turn head =>
    by_cases htaken : turn.actor = id ∧ e = (turn.ticket, turn.event)
    · refine .inr ⟨turn, List.mem_append_right _ (List.mem_singleton_self turn), ?_⟩
      rw [htaken.2]
      exact ⟨rfl, rfl⟩
    · refine .inl (h.setInbox ?_)
      rintro rfl
      have hmem := h.2
      rw [head, List.mem_cons] at hmem
      exact ⟨h.1, hmem.resolve_left fun heq => htaken ⟨rfl, heq⟩⟩
  | stopped other =>
    refine .inl (h.setInbox ?_)
    rintro rfl
    exact absurd hjoin (hdrained _ rfl e h.2)

/-- What is accepted waits. -/
theorem accepted_exec (heffect : RoomsState.Effect t s op s') :
    s'.accepted = s.accepted ∨ ∃ id event, op = .trySend id event ∧
      s'.accepted = s.accepted ++ [⟨t, id, event⟩] ∧ Waits s' id (s.accepted.length, event) := by
  cases heffect with
  | still _ haccepted _ => exact .inl haccepted
  | counted | received | stopped => exact .inl rfl
  | @sent id event slot =>
    refine .inr ⟨id, event, rfl, rfl, ?_⟩
    have hopen : (s.inboxes id).isOpen = true := (Bool.and_eq_true_iff.1 slot).1
    simp [Waits, RoomsState.accept, hopen]

end Step

def JoinsKept (s : RoomsState RoomsThread) : Prop :=
  ∀ ticket a, s.accepted[ticket]? = some a → IsJoin a.event →
    Waits s a.actor (ticket, a.event) ∨ Taken s (ticket, a.event)

theorem joinsKept_exec {s s' : RoomsState RoomsThread} {t : RoomsThread} {op : RoomsOp}
    (hdrained : ∀ id, op = .dropReceiver id → NoJoin (s.inboxes id).queue)
    (heffect : RoomsState.Effect t s op s') (h : JoinsKept s) : JoinsKept s' := by
  have hkeep : ∀ id e, IsJoin e.2 → Waits s id e ∨ Taken s e → Waits s' id e ∨ Taken s' e := by
    rintro id e hjoin (hwaits | htaken)
    · exact waits_exec hdrained heffect hjoin hwaits
    · exact .inr (taken_exec heffect htaken)
  intro ticket a hticket hjoin
  rcases accepted_exec heffect with haccepted | ⟨id, event, -, haccepted, hwaits⟩
  · rw [haccepted] at hticket
    exact hkeep _ _ hjoin (h ticket a hticket hjoin)
  · rw [haccepted, List.getElem?_append] at hticket
    split at hticket
    · exact hkeep _ _ hjoin (h ticket a hticket hjoin)
    · rename_i hlength
      rw [List.getElem?_singleton] at hticket
      split at hticket
      · rename_i hzero
        cases hticket
        have heq : ticket = s.accepted.length := by omega
        rw [heq]
        exact .inl hwaits
      · cases hticket

def StopsDrained (s : RoomsState RoomsThread) : Prop :=
  ∀ id, Stopping s id → NoJoin (s.inboxes id).queue

theorem queue_setInbox {s : RoomsState RoomsThread} {id other : ℕ} {inbox : Inbox}
    (h : NoJoin (s.inboxes id).queue) (hinbox : other = id → NoJoin inbox.queue) :
    NoJoin ((s.setInbox other inbox).inboxes id).queue := by
  by_cases hid : id = other
  · subst hid
    rw [RoomsState.setInbox_inboxes_self]
    exact hinbox rfl
  · rw [RoomsState.setInbox_inboxes_of_ne s hid]
    exact h

theorem stopsDrained_exec {s s' : RoomsState RoomsThread} {t : RoomsThread} {op : RoomsOp}
    (hintime : JoinsInTime t op s) (heffect : RoomsState.Effect t s op s')
    (h : StopsDrained s) : StopsDrained s' := by
  intro id hstopping
  cases heffect with
  | still hinboxes _ hturns =>
    rw [Stopping, hturns] at hstopping
    rw [hinboxes]
    exact h id hstopping
  | counted other n =>
    refine queue_setInbox (h id hstopping) ?_
    rintro rfl
    exact h other hstopping
  | @sent other event slot =>
    refine queue_setInbox (h id hstopping) ?_
    rintro rfl e he
    rcases List.mem_append.1 he with he | he
    · exact h other hstopping e he
    · rw [List.mem_singleton.1 he]
      exact fun hjoin => hintime (Bool.and_eq_true_iff.1 slot).1 hjoin hstopping
  | received turn head =>
    obtain ⟨last, hlast, hempties⟩ := hstopping
    simp only [RoomsState.takeUp, List.filter_append] at hlast
    by_cases hid : turn.actor = id
    · subst hid
      have heq : turn = last := by simpa using hlast
      subst heq
      have hrest := hintime _ _ head hempties
      simpa [RoomsState.takeUp] using hrest
    · refine queue_setInbox (h id ⟨last, ?_, hempties⟩) fun heq => absurd heq hid
      simpa [hid] using hlast
  | stopped other =>
    refine queue_setInbox (h id hstopping) ?_
    rintro rfl e he
    cases he

/-! ## What a join that returns has done -/

def sentAfter (sent : Option ℕ) : (op : RoomsOp) → op.Res → Option ℕ
  | .trySend id _, true => some id
  | _, _ => sent

def SendsOnly (event : RoomEvent) (_ : Option ℕ) : RoomsOp → Prop
  | .trySend _ e => e = event
  | _ => True

abbrev Accepts (event : RoomEvent) (sent : Option ℕ)
    (p : RoomsProgram (Except RoomEvent Unit)) : Prop :=
  Conforms (SendsOnly event) sentAfter
    (fun sent result => match result with | .ok () => sent.isSome | .error e => e = event) sent p

def IsTrySend : RoomsOp → Bool
  | .trySend .. => true
  | _ => false

theorem conforms_of_not_trySend {α : Type} (event : RoomEvent) {p : RoomsProgram α}
    (h : AllOps (fun op => IsTrySend op = false) p) (sent : Option ℕ) :
    Conforms (SendsOnly event) sentAfter (fun after _ => after = sent) sent p := by
  refine conforms_of_allOps (fun a o ho => ?_) (fun a o r ho => ?_) h sent
  · cases o <;> trivial
  · cases o <;> first | rfl | cases ho

theorem entryOrSpawn_not_trySend (roomId : String) (memberFps : List String) :
    AllOps (fun op => IsTrySend op = false) (entryOrSpawn roomId memberFps) := by
  refine ⟨rfl, fun handle => ?_⟩
  cases handle with
  | some handle => trivial
  | none => exact ⟨rfl, fun pending => ⟨rfl, fun handle => trivial⟩⟩

theorem trySend_accepts (handle : RoomHandle) (event : RoomEvent) (sent : Option ℕ) :
    Accepts event sent (handle.trySend event) := by
  refine ⟨trivial, fun previous => ?_⟩
  change Conforms _ _ _ _ (if _ then _ else _)
  split
  · exact ⟨trivial, fun _ => rfl⟩
  · refine ⟨rfl, fun accepted => ?_⟩
    cases accepted with
    | true => rfl
    | false => exact ⟨trivial, fun _ => rfl⟩

theorem joinLoop_accepts (roomId : String) (memberFps : List String) (event : RoomEvent)
    (attempts : ℕ) (sent : Option ℕ) :
    Accepts event sent (joinLoop roomId memberFps event attempts) := by
  induction attempts generalizing sent with
  | zero => rfl
  | succ attempts ih =>
    refine conforms_bind (conforms_of_not_trySend event
      (entryOrSpawn_not_trySend roomId memberFps) sent) fun _ handle _ => ?_
    refine conforms_bind (trySend_accepts handle event _) fun after result hresult => ?_
    cases result with
    | ok u => exact hresult
    | error e =>
      cases hresult
      refine ⟨trivial, fun closed => ?_⟩
      change Conforms _ _ _ _ (if closed = true then _ else _)
      split
      · exact ⟨trivial, fun _ => ih _⟩
      · rfl

/-- What is known about each thread: a join call whose event has been sent is among the
accepted ones. -/
def Local : (t : RoomsThread) → RoomsProgram t.Value → RoomsState RoomsThread → Prop
  | .join n roomId memberFps fp deviceId connectionId outbox, p, s =>
    ∃ sent, Accepts (.join fp deviceId connectionId outbox) sent p ∧
      ∀ id, sent = some id → ⟨.join n roomId memberFps fp deviceId connectionId outbox, id,
        .join fp deviceId connectionId outbox⟩ ∈ s.accepted
  | .clip .., _, _ | .disconnect .., _, _ | .actor _, _, _ => True

theorem Local.mono {s s' : RoomsState RoomsThread} (hsubset : s.accepted ⊆ s'.accepted)
    (t : RoomsThread) (p : RoomsProgram t.Value) (h : Local t p s) : Local t p s' := by
  cases t with
  | join n roomId memberFps fp deviceId connectionId outbox =>
    obtain ⟨sent, hp, hsent⟩ := h
    exact ⟨sent, hp, fun id hid => hsubset (hsent id hid)⟩
  | clip | disconnect | actor => trivial

theorem accepted_subset {s s' : RoomsState RoomsThread} {t : RoomsThread} {op : RoomsOp}
    (heffect : RoomsState.Effect t s op s') : s.accepted ⊆ s'.accepted := by
  rcases accepted_exec heffect with haccepted | ⟨id, event, -, haccepted, -⟩
  · rw [haccepted]
    exact fun _ => id
  · rw [haccepted]
    exact List.subset_append_left _ _

theorem Local.access {n : ℕ} {roomId : String} {memberFps : List String} {fp deviceId : String}
    {connectionId : ConnectionId} {outbox : OutboxHandle} {op : RoomsOp}
    {k : op.Res → RoomsProgram (Except RoomEvent Unit)} {r : op.Res}
    {s s' : RoomsState RoomsThread}
    (h : Local (.join n roomId memberFps fp deviceId connectionId outbox) (call op k) s)
    (hexec : RoomsState.exec limits (.join n roomId memberFps fp deviceId connectionId outbox) op s
      r s') :
    Local (.join n roomId memberFps fp deviceId connectionId outbox) (k r) s' := by
  obtain ⟨sent, ⟨htest, hnext⟩, hsent⟩ := h
  have hsubset := accepted_subset (RoomsState.exec_effect hexec)
  refine ⟨sentAfter sent op r, hnext r, fun id hid => ?_⟩
  cases op with
  | trySend other event =>
    cases htest
    cases r with
    | false => exact hsubset (hsent id hid)
    | true =>
      cases hid
      obtain ⟨-, rfl⟩ := hexec
      exact List.mem_append_right _ (List.mem_singleton_self _)
  | _ => exact hsubset (hsent id hid)

theorem system_invariant :
    Threads.Invariant ((system codec limits).guarded JoinsInTime)
      (fun s => JoinsKept s ∧ StopsDrained s) Local where
  enter {t a s p s'} hkept hlast henter := by
    suffices hnew : s' = s ∧ Local t p s by
      obtain ⟨rfl, hlocal⟩ := hnew
      exact ⟨hkept, hlocal, fun u _ q hq => hq⟩
    cases t with
    | join n roomId memberFps fp deviceId connectionId outbox =>
      cases a with
      | none =>
        obtain ⟨rfl, rfl⟩ := henter
        exact ⟨rfl, none, joinLoop_accepts _ _ _ _ _, fun _ hnone => nomatch hnone⟩
      | some _ => cases henter
    | clip | disconnect =>
      cases a with
      | none => exact ⟨henter.2, trivial⟩
      | some _ => cases henter
    | actor id =>
      match a, henter with
      | none, ⟨_, _, _, hs⟩ => exact ⟨hs, trivial⟩
      | some (some _), ⟨_, hs⟩ => exact ⟨hs, trivial⟩
  access {t op k s r s'} hkept hlocal hexec := by
    obtain ⟨hintime, hexec⟩ := hexec
    have heffect := RoomsState.exec_effect hexec
    have hdrained : ∀ id, op = .dropReceiver id → NoJoin (s.inboxes id).queue := by
      rintro id rfl
      exact hkept.2 id hintime
    refine ⟨⟨joinsKept_exec hdrained heffect hkept.1, stopsDrained_exec hintime heffect hkept.2⟩,
      ?_, fun u _ q => Local.mono (accepted_subset heffect) u q⟩
    cases t with
    | join => exact Local.access limits hlocal hexec
    | clip | disconnect | actor => trivial

theorem idle_holds : Threads.Holds (fun s => JoinsKept s ∧ StopsDrained s) Local (idle limits) := by
  refine ⟨⟨fun ticket a hticket => ?_, fun id hstopping => ?_⟩, fun t p hp => ?_⟩
  · cases hticket
  · obtain ⟨turn, hturn, -⟩ := hstopping
    cases hturn
  · cases hp

/-- In every run in which joins keep away from stopping actors, a join that has
returned successfully is in the inbox of a running actor or has been taken up by
one. -/
theorem join_kept {x : Threads RoomsOp RoomsOp.Res RoomsThread.Value (RoomsState RoomsThread)}
    (hrun : Threads.Reaches ((system codec limits).guarded JoinsInTime) (idle limits) x)
    {n : ℕ} {roomId : String} {memberFps : List String} {fp deviceId : String}
    {connectionId : ConnectionId} {outbox : OutboxHandle}
    (hdone : x.threads (.join n roomId memberFps fp deviceId connectionId outbox) =
      some (done (.ok ()))) :
    ∃ ticket id, x.shared.accepted[ticket]? =
        some ⟨.join n roomId memberFps fp deviceId connectionId outbox, id,
          .join fp deviceId connectionId outbox⟩ ∧
      (Waits x.shared id (ticket, .join fp deviceId connectionId outbox) ∨
        Taken x.shared (ticket, .join fp deviceId connectionId outbox)) := by
  obtain ⟨⟨hkept, -⟩, hlocal⟩ := (system_invariant codec limits).reaches (idle_holds limits) hrun
  obtain ⟨sent, hsent, haccepted⟩ := hlocal _ _ hdone
  obtain ⟨id, rfl⟩ := Option.isSome_iff_exists.1 hsent
  obtain ⟨ticket, hticket⟩ := List.mem_iff_getElem?.1 (haccepted id rfl)
  exact ⟨ticket, id, hticket, hkept ticket _ hticket trivial⟩

/-! ## A join that arrives behind the last disconnect -/

/-- A run of a handler is one of the actor's task. -/
theorem steps_halting {α : Type} {p : RoomProgram α} {w w' : RoomWorld} {a : α}
    {s : RoomsState RoomsThread}
    {exec : (op : RoomsOp) → RoomsState RoomsThread → op.Res → RoomsState RoomsThread → Prop}
    (hexec : ∀ op r, exec (.room op) s r s)
    (hrun : p.run RoomWorld.access w = some (a, w')) :
    Steps exec ((p.halting RoomOp.isPanic).lift fun op => perform (RoomsOp.room op)) s
      (done (some a)) s := by
  induction p generalizing w with
  | done b =>
    cases hrun
    exact .refl _ s
  | call op k ih =>
    obtain ⟨⟨r, w₁⟩, haccess, hrest⟩ := Option.bind_eq_some_iff.1 hrun
    have hpanic : RoomOp.isPanic op = false := by
      cases op with
      | outbox handle op =>
        cases op with
        | panic => cases haccess
        | _ => rfl
      | _ => rfl
    rw [halting, if_neg (by simp [hpanic])]
    exact .call r (hexec op r) (ih r hrest)

def counted (s : RoomsState RoomsThread) (id size : ℕ) : RoomsState RoomsThread :=
  s.setInbox id { s.inboxes id with pendingBytes := (s.inboxes id).pendingBytes + size }

theorem steps_trySend (t : RoomsThread) (handle : RoomHandle) (event : RoomEvent)
    (s : RoomsState RoomsThread)
    (hbytes : (s.inboxes handle.id).pendingBytes + event.payloadSize ≤ handle.maxBytes)
    (hslot : ((counted s handle.id event.payloadSize).inboxes handle.id).hasSlot = true) :
    Steps (RoomsState.exec limits t) (handle.trySend event) s (done (.ok ()))
      ((counted s handle.id event.payloadSize).accept t handle.id event) := by
  refine .call _ ⟨rfl, rfl⟩ ?_
  change Steps _ (if _ then _ else _) _ _ _
  rw [if_neg (Nat.not_lt.2 hbytes)]
  exact .call true ⟨hslot, rfl⟩ (.refl _ _)

def sampleLimits : InboxLimits := ⟨64, 50331648⟩

def sampleJoin (connectionId : ConnectionId) : RoomsThread :=
  .join 0 sampleRoom ["alice", "bob"] "alice" "" connectionId ⟨connectionId, 50331648⟩

def sampleJoinEvent (connectionId : ConnectionId) : RoomEvent :=
  .join "alice" "" connectionId ⟨connectionId, 50331648⟩

def sampleSpawned : RoomsState RoomsThread :=
  { RoomsState.empty sampleLimits with
    map := (∅ : HashMap String ℕ).insert sampleRoom 0
    locked := (insert sampleRoom ∅ : Finset String).erase sampleRoom
    actors := [.new sampleRoom ["alice", "bob"] []] }

def sampleAccepted : RoomsState RoomsThread :=
  (counted sampleSpawned 0 0).accept (sampleJoin 1) 0 (sampleJoinEvent 1)

def sampleHandled : RoomsState RoomsThread :=
  let s := sampleAccepted.takeUp ⟨0, 0, sampleJoinEvent 1, ∅⟩ []
  s.setInbox 0 { s.inboxes 0 with pendingBytes := (s.inboxes 0).pendingBytes - 0 }

/-- The first join has returned, and the actor has taken it up. -/
abbrev sampleOnline (actor : RoomActor) :
    Threads RoomsOp RoomsOp.Res RoomsThread.Value (RoomsState RoomsThread) :=
  ((idle sampleLimits).set (sampleJoin 1) (done (.ok ())) sampleAccepted).set (.actor 0)
    (done (some actor)) sampleHandled

theorem exists_sampleOnline :
    ∃ actor, Threads.Reaches ((system sampleCodec sampleLimits).guarded JoinsInTime)
        (idle sampleLimits) (sampleOnline actor) ∧
      (actor.onDisconnect "alice" 1).online.keys = ∅ ∧ actor.roomId = sampleRoom := by
  have hrun : (((RoomActor.new sampleRoom ["alice", "bob"] []).handle sampleCodec
      (sampleJoinEvent 1)).run RoomWorld.access RoomActor.sampleWorld).any (fun turn =>
        decide ((turn.1.onDisconnect "alice" 1).online.keys = ∅ ∧ turn.1.roomId = sampleRoom))
        = true := by
    decide +kernel
  obtain ⟨⟨actor, w⟩, hrun, hfacts⟩ := (Option.any_eq_true _ _).1 hrun
  refine ⟨actor, ?_, of_decide_eq_true hfacts⟩
  refine .trans (b := (idle sampleLimits).set (sampleJoin 1) (done (.ok ())) sampleAccepted)
    (Threads.reaches_begin rfl ⟨rfl, rfl⟩ ?_)
    (Threads.reaches_begin rfl ⟨.new sampleRoom ["alice", "bob"] [], rfl, rfl, rfl⟩ ?_)
  · refine .call none ⟨trivial, by decide, rfl, rfl⟩ (.call [] ⟨trivial, rfl⟩
      (.call ⟨0, 50331648⟩ ⟨trivial, rfl, rfl⟩ ?_))
    refine .call 0 ⟨trivial, rfl, rfl⟩ (.call true ⟨?_, by decide, rfl⟩ (.refl _ _))
    rintro - - ⟨turn, hturn, -⟩
    cases hturn
  · refine .call (sampleJoinEvent 1) ⟨?_, 0, [], rfl, rfl⟩ (.call () ⟨trivial, rfl⟩ ?_)
    · rintro _ _ ⟨⟩ ⟨⟩
    · exact (steps_halting (fun _ _ => ⟨trivial, rfl⟩) hrun).bind

/-- The first join has been taken up by the actor. -/
theorem join_kept_sample :
    ∃ ticket id, sampleHandled.accepted[ticket]? =
        some ⟨.join 0 sampleRoom ["alice", "bob"] "alice" "" 1 ⟨1, 50331648⟩, id,
          .join "alice" "" 1 ⟨1, 50331648⟩⟩ ∧
      (Waits sampleHandled id (ticket, .join "alice" "" 1 ⟨1, 50331648⟩) ∨
        Taken sampleHandled (ticket, .join "alice" "" 1 ⟨1, 50331648⟩)) := by
  obtain ⟨actor, hreaches, -⟩ := exists_sampleOnline
  exact join_kept sampleCodec sampleLimits hreaches rfl

section Lost

variable (online : HashMap String OnlineMember)

def sampleLeave : RoomsThread := .disconnect 0 sampleRoom "alice" 1

def sampleLeft : RoomsState RoomsThread :=
  (counted sampleHandled 0 0).accept sampleLeave 0 (.disconnect "alice" 1)

def sampleRejoined : RoomsState RoomsThread :=
  (counted sampleLeft 0 0).accept (sampleJoin 2) 0 (sampleJoinEvent 2)

def sampleStopped : RoomsState RoomsThread :=
  let s := sampleRejoined.takeUp ⟨0, 1, .disconnect "alice" 1, online⟩ [(2, sampleJoinEvent 2)]
  let s := s.setInbox 0 { s.inboxes 0 with pendingBytes := (s.inboxes 0).pendingBytes - 0 }
  { s with map := s.map.erase sampleRoom }.close 0

end Lost

/-- A join accepted behind the last disconnect is neither in the inbox of a running
actor nor taken up by one. -/
theorem join_lost :
    ∃ x, Threads.Reaches (system sampleCodec sampleLimits) (idle sampleLimits) x ∧
      x.threads (.join 0 sampleRoom ["alice", "bob"] "alice" "" 2 ⟨2, 50331648⟩) =
        some (done (.ok ())) ∧
      ∀ ticket id, ¬ Waits x.shared id (ticket, sampleJoinEvent 2) ∧
        ¬ Taken x.shared (ticket, sampleJoinEvent 2) := by
  obtain ⟨actor, hhandled, hempty, hroom⟩ := exists_sampleOnline
  have hunlocked : sampleRoom ∉ sampleSpawned.locked := by decide
  let x₂ := sampleOnline actor
  let x₃ := x₂.set sampleLeave (done ()) sampleLeft
  let x₄ := x₃.set (sampleJoin 2) (done (.ok ())) sampleRejoined
  let x₅ := x₄.set (.actor 0) (done none) (sampleStopped actor.online)
  have hleft : Threads.Reaches (system sampleCodec sampleLimits) x₂ x₃ := by
    refine Threads.reaches_begin rfl ⟨rfl, rfl⟩ ?_
    refine .call (some ⟨0, 50331648⟩) ⟨hunlocked, rfl, rfl⟩ ?_
    exact (steps_trySend sampleLimits sampleLeave ⟨0, 50331648⟩ (.disconnect "alice" 1)
      sampleHandled (by decide) (by decide)).bind
  have hrejoined : Threads.Reaches (system sampleCodec sampleLimits) x₃ x₄ := by
    refine Threads.reaches_begin ?_ ⟨rfl, rfl⟩ ?_
    · exact Threads.set_threads_of_ne _ (by decide) _ _
    refine .call (some ⟨0, 50331648⟩) ⟨hunlocked, rfl, rfl, rfl⟩ ?_
    exact (steps_trySend sampleLimits (sampleJoin 2) ⟨0, 50331648⟩ (sampleJoinEvent 2)
      sampleLeft (by decide) (by decide)).bind
  have hstopped : Threads.Reaches (system sampleCodec sampleLimits) x₄ x₅ := by
    have hturn : x₄.threads (.actor 0) = some (done (some actor)) := by
      rw [Threads.set_threads_of_ne _ (by decide), Threads.set_threads_of_ne _ (by decide)]
      exact Threads.set_threads_self _ _ _ _
    refine Threads.reaches_again hturn ⟨rfl, rfl⟩ ?_
    refine .call (.disconnect "alice" 1) ⟨1, [(2, sampleJoinEvent 2)], rfl, rfl⟩
      (.call () rfl ?_)
    change Steps _ (if (actor.onDisconnect "alice" 1).online.keys = ∅ then _ else _) _ _ _
    rw [if_pos hempty, RoomActor.onDisconnect_roomId, hroom]
    exact .call () ⟨hunlocked, (if_pos rfl).symm⟩ (.call () rfl (.refl _ _))
  refine ⟨x₅, (Threads.Reaches.of_guarded hhandled).trans
    (hleft.trans (hrejoined.trans hstopped)), ?_, ?_⟩
  · rw [Threads.set_threads_of_ne _ (by decide)]
    exact Threads.set_threads_self _ _ _ _
  · intro ticket id
    constructor
    · rintro ⟨hopen, hmem⟩
      by_cases hid : id = 0
      · rw [hid] at hopen
        cases hopen
      · have hqueue : (x₅.shared.inboxes id).queue = [] := by
          simp [x₅, sampleStopped, sampleRejoined, sampleLeft, sampleHandled, sampleAccepted,
            sampleSpawned, counted, RoomsState.accept, RoomsState.takeUp, RoomsState.close,
            RoomsState.setInbox, RoomsState.empty, hid]
        rw [hqueue] at hmem
        cases hmem
    · rintro ⟨turn, hturn, -, hevent⟩
      have hturns : turn ∈ [⟨0, 0, sampleJoinEvent 1, ∅⟩,
          ⟨0, 1, .disconnect "alice" 1, actor.online⟩] := hturn
      rw [List.mem_cons, List.mem_singleton] at hturns
      rcases hturns with rfl | rfl
      · cases hevent
      · cases hevent

end Rooms

end ClipSync
