import ClipSync.Server.RoomPending

/-!
# What a join leaves behind

A join reserves both success frames, activates the room and publishes the frames. What
waited for the member is taken out of the mailbox before any of this, and it is not put
back when a later step fails. A join is therefore all or nothing exactly if it succeeds,
or if nothing waited and the joining connection is told. The statements are about one
turn of the actor, in any state of the actor, of the outboxes and of the registry.
-/

namespace ClipSync

open Lib Program

/-! ## The functions of an outbox in one go -/

namespace Outbox

def closed (o : Outbox) : Outbox :=
  if o.hasSlot then o.push .close else { o with forceClose := true }

def Told (o o' : Outbox) : Prop :=
  o'.forceClose = true ∨ ∃ sent, o'.queue = o.queue ++ sent ∧
    ∃ item ∈ sent, item = .close ∨ ∃ code message, item = .frame (.error code message)

theorem run_close (o : Outbox) : OutboxHandle.close.run access o = some ((), o.closed) := by
  simp only [OutboxHandle.close, OutboxHandle.trySend, OutboxHandle.notifyOne, perform_bind, run,
    access, Option.bind_some, closed]
  cases o.hasSlot <;> rfl

theorem told_closed (o : Outbox) : o.Told o.closed := by
  unfold closed
  split
  · exact .inr ⟨[.close], rfl, .close, List.mem_singleton_self _, .inl rfl⟩
  · exact .inl rfl

def publish (o : Outbox) (frame : Frame) : Outbox :=
  { o.push (.frame frame) with permits := o.permits - 1 }

theorem run_send (reserved : ReservedFrame) (o : Outbox) :
    reserved.send.run access o = some ((), o.publish reserved.frame) := rfl

def release (o : Outbox) (frame : Frame) : Outbox :=
  { o with permits := o.permits - 1, pendingBytes := o.pendingBytes - frame.encoded.length }

theorem run_drop (reserved : ReservedFrame) (o : Outbox) :
    reserved.drop.run access o = some ((), o.release reserved.frame) := rfl

/-- Reservations that are dropped leave no trace. -/
theorem release_reserve (o : Outbox) (frame : Frame) : (o.reserve frame).release frame = o := by
  simp [release, reserve]

theorem release_reserve_reserve (o : Outbox) (first second : Frame) :
    ((o.reserve first).reserve second).release first = o.reserve second := by
  have hbytes : o.pendingBytes + first.encoded.length + second.encoded.length -
      first.encoded.length = o.pendingBytes + second.encoded.length := by
    omega
  simp only [release, reserve, Nat.add_sub_cancel, hbytes]

theorem queue_isPrefix_closed (o : Outbox) : o.queue <+: o.closed.queue := by
  unfold closed
  split
  · exact List.prefix_append _ _
  · exact List.prefix_rfl

theorem Told.of_isPrefix {o o₁ o' : Outbox} (h : o₁.Told o') (hqueue : o.queue <+: o₁.queue) :
    o.Told o' := by
  rcases h with hforced | ⟨sent, hsent, item, hitem, hends⟩
  · exact .inl hforced
  · obtain ⟨rest, hrest⟩ := hqueue
    refine .inr ⟨rest ++ sent, ?_, item, List.mem_append_right _ hitem, hends⟩
    rw [hsent, ← hrest, List.append_assoc]

theorem told_self {o : Outbox} (h : o.Told o) : o.forceClose = true := by
  rcases h with hforced | ⟨sent, hsent, item, hitem, -⟩
  · exact hforced
  · rw [List.self_eq_append_right.1 hsent] at hitem
    cases hitem

end Outbox

theorem isOk_of_eq_ok {ε α : Type} {r : Except ε α} {a : α} (h : r = .ok a) : r.isOk = true := by
  rw [h]
  rfl

theorem encodeFrame_isOk {codec : Codec} {frame : Frame}
    (hvalid : validateFrame codec frame = .ok ()) (hsize : frame.encoded.length ≤ maxFrameBytes) :
    (encodeFrame codec frame).isOk = true :=
  isOk_of_eq_ok (encodeFrame_eq_ok.2 ⟨hvalid, hsize, rfl⟩)

theorem encodeFrame_joinOk (codec : Codec) : (encodeFrame codec .joinOk).isOk = true :=
  encodeFrame_isOk rfl (by decide +kernel)

theorem encodeFrame_mailboxEmpty (codec : Codec) : (encodeFrame codec .mailboxEmpty).isOk = true :=
  encodeFrame_isOk rfl (by decide +kernel)

theorem encodeFrame_registryFailed (codec : Codec) : (encodeFrame codec
    (.error "registry_failed" "room activation could not be persisted")).isOk = true :=
  encodeFrame_isOk rfl (by decide +kernel)

namespace OutboxHandle

variable {codec : Codec} (self : OutboxHandle) {frame : Frame} (o : Outbox)

theorem run_tryReserveFrame (hok : (encodeFrame codec frame).isOk = true) :
    (self.tryReserveFrame codec frame).run Outbox.access o =
      some (if o.accepts self.maxBytes frame then some ⟨frame⟩ else none,
        if o.accepts self.maxBytes frame then o.reserve frame else o) := by
  have hslot := self.run_accounted frame o tryReserveOwned
    { o with permits := o.permits + 1 } fun size => by
      cases ho : o.hasSlot <;> simp [tryReserveOwned, run, Outbox.access, ho, perform]
  rw [tryReserveFrame, encodeExpect_of_ok hok, pure_eq, done_bind, run_bind_of_run hslot]
  cases o.accepts self.maxBytes frame <;> rfl

theorem run_tryReserveFrame_accepted (hok : (encodeFrame codec frame).isOk = true)
    (h : o.accepts self.maxBytes frame = true) :
    (self.tryReserveFrame codec frame).run Outbox.access o =
      some (some ⟨frame⟩, o.reserve frame) := by
  rw [run_tryReserveFrame self o hok, if_pos h, if_pos h]

theorem run_tryReserveFrame_refused (hok : (encodeFrame codec frame).isOk = true)
    (h : ¬ o.accepts self.maxBytes frame = true) :
    (self.tryReserveFrame codec frame).run Outbox.access o = some (none, o) := by
  rw [run_tryReserveFrame self o hok, if_neg h, if_neg h]

theorem run_tryReserveFrame_of_not_ok (hok : ¬ (encodeFrame codec frame).isOk = true) :
    (self.tryReserveFrame codec frame).run Outbox.access o = none := by
  rw [tryReserveFrame, encodeExpect_of_not_ok hok]
  rfl

theorem run_errorAndClose {code message : String}
    (hok : (encodeFrame codec (.error code message)).isOk = true) :
    ∃ o', (self.errorAndClose codec code message).run Outbox.access o = some ((), o') ∧
      o.Told o' := by
  rw [errorAndClose, run_bind, run_sendFrame codec self hok, Option.bind_some]
  refine ⟨_, Outbox.run_close _, (Outbox.told_closed _).of_isPrefix ?_⟩
  split
  · exact List.prefix_append _ _
  · exact List.prefix_rfl

end OutboxHandle

theorem RoomWorld.setOutbox_outboxes_of_ne (w : RoomWorld) {id other : ℕ} (h : other ≠ id)
    (o : Outbox) : (w.setOutbox id o).outboxes other = w.outboxes other :=
  Function.update_of_ne h _ _

theorem OutboxHandle.run_call_bind {α β : Type} {handle : OutboxHandle} {p : OutboxProgram α}
    {w : RoomWorld} {a : α} {o : Outbox}
    (h : p.run Outbox.access (w.outboxes handle.id) = some (a, o)) (f : α → RoomProgram β) :
    (handle.call p >>= f).run RoomWorld.access w =
      (f a).run RoomWorld.access (w.setOutbox handle.id o) := by
  refine run_bind_of_run ?_ f
  rw [OutboxHandle.run_call, h]
  rfl

/-! ## One turn -/

namespace RoomActor

/-- The frame that follows `JoinOk`. -/
def bootstrap (self : RoomActor) (fp : String) : Frame :=
  match self.mailboxPending.lookup fp with
  | some clip => bootstrapFrame self.roomId clip
  | none => .mailboxEmpty

def replaced (self : RoomActor) (fp : String) (w : RoomWorld) : RoomWorld :=
  match self.online.lookup fp with
  | some old => w.setOutbox old.outbox.id (w.outboxes old.outbox.id).closed
  | none => w

def Reserves (codec : Codec) (handle : OutboxHandle) (bootstrap : Frame) (o : Outbox) : Prop :=
  o.accepts handle.maxBytes .joinOk = true ∧ (encodeFrame codec bootstrap).isOk = true ∧
    (o.reserve .joinOk).accepts handle.maxBytes bootstrap = true

/-- Both success frames are queued and the member is online with this connection, or what
waits is as before and the joining connection has been told. -/
def AllOrNothing (actor : RoomActor) (fp : String) (member : OnlineMember) (w : RoomWorld)
    (actor' : RoomActor) (w' : RoomWorld) : Prop :=
  (∃ before, (w.outboxes member.outbox.id).queue <+: before ∧
    (w'.outboxes member.outbox.id).queue =
      before ++ [.frame .joinOk, .frame (actor.bootstrap fp)] ∧
    actor'.online.lookup fp = some member) ∨
  actor'.mailboxPending = actor.mailboxPending ∧
    (w.outboxes member.outbox.id).Told (w'.outboxes member.outbox.id)

section Turn

variable {codec : Codec} {fp : String} {handle : OutboxHandle} {bootstrap : Frame} {w : RoomWorld}
  (actor : RoomActor) (connectionId : ConnectionId)

theorem replaced_activate (fp : String) (w : RoomWorld) :
    (actor.replaced fp w).activate = w.activate := by
  unfold replaced
  cases actor.online.lookup fp <;> rfl

theorem run_replaceOld (fp : String) (w : RoomWorld) :
    (actor.replaceOld fp).run RoomWorld.access w = some ((), actor.replaced fp w) := by
  unfold replaceOld replaced
  cases actor.online.lookup fp with
  | none => rfl
  | some old =>
    dsimp only
    rw [OutboxHandle.run_call, Outbox.run_close]
    rfl

theorem run_takeWaiting (fp : String) (w : RoomWorld) :
    (actor.takeWaiting fp).run RoomWorld.access w = some (actor.bootstrap fp, w) := by
  unfold takeWaiting RoomActor.bootstrap
  cases actor.mailboxPending.lookup fp <;> rfl

theorem run_onJoin (fp : String) (w : RoomWorld) :
    (actor.onJoin codec fp connectionId handle).run RoomWorld.access w =
      ((actor.without fp).admitJoin codec fp connectionId handle (actor.bootstrap fp)).run
        RoomWorld.access (actor.replaced fp w) := by
  rw [onJoin, run_bind_of_run (run_replaceOld actor fp w),
    run_bind_of_run (run_takeWaiting actor fp _)]

theorem run_admitJoin_full
    (hfull : ¬ (w.outboxes handle.id).accepts handle.maxBytes .joinOk = true) :
    (actor.admitJoin codec fp connectionId handle bootstrap).run RoomWorld.access w =
      some (actor, w) := by
  rw [admitJoin, OutboxHandle.run_call_bind
    (handle.run_tryReserveFrame_refused _ (encodeFrame_joinOk codec) hfull),
    RoomWorld.setOutbox_self]
  rfl

theorem run_admitJoin_first
    (hjoin : (w.outboxes handle.id).accepts handle.maxBytes .joinOk = true) :
    (actor.admitJoin codec fp connectionId handle bootstrap).run RoomWorld.access w =
      (do
        let some bootstrap ← handle.call (handle.tryReserveFrame codec bootstrap)
          | handle.call (ReservedFrame.drop ⟨.joinOk⟩)
            return actor
        actor.activate codec fp connectionId handle ⟨.joinOk⟩ bootstrap
        : RoomProgram RoomActor).run RoomWorld.access
          (w.setOutbox handle.id ((w.outboxes handle.id).reserve .joinOk)) := by
  have hreserve := handle.run_tryReserveFrame_accepted _ (encodeFrame_joinOk codec) hjoin
  exact OutboxHandle.run_call_bind hreserve _

theorem run_admitJoin_filled
    (hjoin : (w.outboxes handle.id).accepts handle.maxBytes .joinOk = true)
    (hok : (encodeFrame codec bootstrap).isOk = true)
    (hfull : ¬ ((w.outboxes handle.id).reserve .joinOk).accepts handle.maxBytes bootstrap = true) :
    (actor.admitJoin codec fp connectionId handle bootstrap).run RoomWorld.access w =
      some (actor, w) := by
  have hreserve := handle.run_tryReserveFrame_refused _ hok hfull
  rw [← RoomWorld.setOutbox_outboxes w handle.id ((w.outboxes handle.id).reserve .joinOk)]
    at hreserve
  rw [run_admitJoin_first actor connectionId hjoin, OutboxHandle.run_call_bind hreserve]
  dsimp only
  rw [OutboxHandle.run_call_bind (Outbox.run_drop _ _)]
  simp only [RoomWorld.setOutbox_outboxes, RoomWorld.setOutbox_setOutbox, Outbox.release_reserve,
    RoomWorld.setOutbox_self]
  rfl

theorem run_admitJoin_reserved (h : Reserves codec handle bootstrap (w.outboxes handle.id)) :
    (actor.admitJoin codec fp connectionId handle bootstrap).run RoomWorld.access w =
      (actor.activate codec fp connectionId handle ⟨.joinOk⟩ ⟨bootstrap⟩).run RoomWorld.access
        (w.setOutbox handle.id (((w.outboxes handle.id).reserve .joinOk).reserve bootstrap)) := by
  obtain ⟨hjoin, hok, hboot⟩ := h
  have hreserve := handle.run_tryReserveFrame_accepted _ hok hboot
  rw [← RoomWorld.setOutbox_outboxes w handle.id ((w.outboxes handle.id).reserve .joinOk)]
    at hreserve
  rw [run_admitJoin_first actor connectionId hjoin, OutboxHandle.run_call_bind hreserve,
    RoomWorld.setOutbox_setOutbox, RoomWorld.setOutbox_outboxes]

theorem run_activateOnFirstJoin (id : ℕ) (o : Outbox) :
    (activateOnFirstJoin actor.roomId fp).run RoomWorld.access (w.setOutbox id o) =
      some (w.activate actor.roomId fp, w.setOutbox id o) :=
  rfl

theorem run_admitJoin_active (h : Reserves codec handle bootstrap (w.outboxes handle.id))
    (hactive : (w.activate actor.roomId fp).isOk = true) :
    ∃ o', (actor.admitJoin codec fp connectionId handle bootstrap).run RoomWorld.access w =
        some ({ actor with online := actor.online.insert fp ⟨connectionId, handle⟩ },
          w.setOutbox handle.id o') ∧
      o'.queue = (w.outboxes handle.id).queue ++ [.frame .joinOk, .frame bootstrap] := by
  rw [run_admitJoin_reserved actor connectionId h, activate,
    run_bind_of_run (run_activateOnFirstJoin actor _ _)]
  cases hanswer : w.activate actor.roomId fp with
  | error e =>
    rw [hanswer] at hactive
    cases hactive
  | ok b =>
    dsimp only
    rw [OutboxHandle.run_call_bind (Outbox.run_send _ _),
      OutboxHandle.run_call_bind (Outbox.run_send _ _)]
    simp only [RoomWorld.setOutbox_outboxes, RoomWorld.setOutbox_setOutbox]
    refine ⟨_, rfl, ?_⟩
    simp [Outbox.publish, Outbox.push, Outbox.reserve]

theorem run_admitJoin_inactive (h : Reserves codec handle bootstrap (w.outboxes handle.id))
    (hactive : ¬ (w.activate actor.roomId fp).isOk = true) :
    ∃ o', (actor.admitJoin codec fp connectionId handle bootstrap).run RoomWorld.access w =
        some (actor, w.setOutbox handle.id o') ∧ (w.outboxes handle.id).Told o' := by
  rw [run_admitJoin_reserved actor connectionId h, activate,
    run_bind_of_run (run_activateOnFirstJoin actor _ _)]
  cases hanswer : w.activate actor.roomId fp with
  | ok b => exact absurd (isOk_of_eq_ok hanswer) hactive
  | error e =>
    dsimp only
    rw [OutboxHandle.run_call_bind (Outbox.run_drop _ _),
      OutboxHandle.run_call_bind (Outbox.run_drop _ _)]
    simp only [RoomWorld.setOutbox_outboxes, RoomWorld.setOutbox_setOutbox,
      Outbox.release_reserve_reserve, Outbox.release_reserve, RoomWorld.setOutbox_self]
    obtain ⟨o', hrun, htold⟩ := handle.run_errorAndClose (w.outboxes handle.id)
      (encodeFrame_registryFailed codec)
    rw [OutboxHandle.run_call_bind hrun]
    exact ⟨o', rfl, htold⟩

theorem run_admitJoin_refused (fp : String)
    (h : ¬ Reserves codec handle bootstrap (w.outboxes handle.id)) :
    (actor.admitJoin codec fp connectionId handle bootstrap).run RoomWorld.access w =
        some (actor, w) ∨
      ¬ (encodeFrame codec bootstrap).isOk = true ∧
        (actor.admitJoin codec fp connectionId handle bootstrap).run RoomWorld.access w = none := by
  by_cases hjoin : (w.outboxes handle.id).accepts handle.maxBytes .joinOk = true
  · by_cases hok : (encodeFrame codec bootstrap).isOk = true
    · exact .inl (run_admitJoin_filled actor connectionId hjoin hok
        fun hboot => h ⟨hjoin, hok, hboot⟩)
    · refine .inr ⟨hok, ?_⟩
      rw [run_admitJoin_first actor connectionId hjoin, run_bind, OutboxHandle.run_call,
        OutboxHandle.run_tryReserveFrame_of_not_ok _ _ hok]
      rfl
  · exact .inl (run_admitJoin_full actor connectionId hjoin)

theorem queue_isPrefix_replaced (fp : String) (w : RoomWorld) (id : ℕ) :
    (w.outboxes id).queue <+: ((actor.replaced fp w).outboxes id).queue := by
  unfold replaced
  cases actor.online.lookup fp with
  | none => exact List.prefix_rfl
  | some old =>
    by_cases hid : id = old.outbox.id
    · subst hid
      dsimp only
      rw [RoomWorld.setOutbox_outboxes]
      exact Outbox.queue_isPrefix_closed _
    · dsimp only
      rw [RoomWorld.setOutbox_outboxes_of_ne w hid]

theorem told_replaced_iff (fp : String) (w : RoomWorld) (id : ℕ) :
    (w.outboxes id).Told ((actor.replaced fp w).outboxes id) ↔
      (∃ old, actor.online.lookup fp = some old ∧ old.outbox.id = id) ∨
        (w.outboxes id).forceClose = true := by
  unfold replaced
  cases hold : actor.online.lookup fp with
  | none => simpa using ⟨Outbox.told_self, fun h => .inl h⟩
  | some old =>
    by_cases hid : id = old.outbox.id
    · subst hid
      dsimp only
      rw [RoomWorld.setOutbox_outboxes]
      exact ⟨fun _ => .inl ⟨old, rfl, rfl⟩, fun _ => Outbox.told_closed _⟩
    · dsimp only
      rw [RoomWorld.setOutbox_outboxes_of_ne w hid]
      refine ⟨fun h => .inr (Outbox.told_self h), ?_⟩
      rintro (⟨other, hother, rfl⟩ | hforced)
      · cases hother
        exact absurd rfl hid
      · exact .inl hforced

variable {actor} in
theorem AllOrNothing.of_without {member : OnlineMember} {w' : RoomWorld}
    (h : AllOrNothing actor fp member w (actor.without fp) w') :
    actor.mailboxPending.lookup fp = none ∧
      (w.outboxes member.outbox.id).Told (w'.outboxes member.outbox.id) := by
  rcases h with ⟨-, -, -, honline⟩ | ⟨hpending, htold⟩
  · rw [without, Finmap.lookup_erase] at honline
    cases honline
  · refine ⟨?_, htold⟩
    rw [← hpending, without, Finmap.lookup_erase]

theorem mailboxPending_without (h : actor.mailboxPending.lookup fp = none) :
    (actor.without fp).mailboxPending = actor.mailboxPending := by
  refine Finmap.ext_lookup fun other => ?_
  by_cases hother : other = fp
  · rw [hother, h, without, Finmap.lookup_erase]
  · rw [without, Finmap.lookup_erase_ne hother]

end Turn

/-- A join is all or nothing exactly if it succeeds, or if nothing waited for the member
and the joining connection is told: because the room could not be activated, because it is
the connection that is replaced, or because it had been told before. -/
theorem onJoin_allOrNothing_iff (codec : Codec) (actor : RoomActor) (fp : String)
    (connectionId : ConnectionId) (handle : OutboxHandle) (w : RoomWorld) :
    (∃ actor' w', (actor.onJoin codec fp connectionId handle).run RoomWorld.access w =
        some (actor', w') ∧ AllOrNothing actor fp ⟨connectionId, handle⟩ w actor' w') ↔
    Reserves codec handle (actor.bootstrap fp) ((actor.replaced fp w).outboxes handle.id) ∧
        (w.activate actor.roomId fp).isOk = true ∨
      actor.mailboxPending.lookup fp = none ∧
        (Reserves codec handle (actor.bootstrap fp)
            ((actor.replaced fp w).outboxes handle.id) ∨
          (∃ old, actor.online.lookup fp = some old ∧ old.outbox.id = handle.id) ∨
          (w.outboxes handle.id).forceClose = true) := by
  have hqueue := queue_isPrefix_replaced actor fp w handle.id
  rw [run_onJoin, ← replaced_activate actor fp w]
  by_cases hreserves : Reserves codec handle (actor.bootstrap fp)
      ((actor.replaced fp w).outboxes handle.id)
  · by_cases hactive : ((actor.replaced fp w).activate actor.roomId fp).isOk = true
    · obtain ⟨o', hrun, hsent⟩ := run_admitJoin_active (actor.without fp) connectionId
        hreserves hactive
      refine iff_of_true ⟨_, _, hrun, .inl ⟨_, hqueue, ?_, Finmap.lookup_insert _⟩⟩
        (.inl ⟨hreserves, hactive⟩)
      rw [RoomWorld.setOutbox_outboxes]
      exact hsent
    · obtain ⟨o', hrun, htold⟩ := run_admitJoin_inactive (actor.without fp)
        connectionId hreserves hactive
      rw [hrun]
      constructor
      · rintro ⟨actor', w', hsome, hall⟩
        cases hsome
        exact .inr ⟨hall.of_without.1, .inl hreserves⟩
      · rintro (⟨-, hok⟩ | ⟨hnone, -⟩)
        · exact absurd hok hactive
        · refine ⟨_, _, rfl, .inr ⟨mailboxPending_without actor hnone, ?_⟩⟩
          rw [RoomWorld.setOutbox_outboxes]
          exact htold.of_isPrefix hqueue
  · rcases run_admitJoin_refused (actor.without fp) connectionId fp hreserves with
      hrun | ⟨hok, hrun⟩
    · rw [hrun]
      constructor
      · rintro ⟨actor', w', hsome, hall⟩
        cases hsome
        obtain ⟨hnone, htold⟩ := hall.of_without
        exact .inr ⟨hnone, .inr ((told_replaced_iff actor fp w handle.id).1 htold)⟩
      · rintro (⟨hyes, -⟩ | ⟨hnone, hyes | htold⟩)
        · exact absurd hyes hreserves
        · exact absurd hyes hreserves
        · exact ⟨_, _, rfl, .inr ⟨mailboxPending_without actor hnone,
            (told_replaced_iff actor fp w handle.id).2 htold⟩⟩
    · -- a bootstrap frame that cannot be encoded is a clip that waited
      have hsome : actor.mailboxPending.lookup fp ≠ none := by
        intro hnone
        rw [RoomActor.bootstrap, hnone] at hok
        exact hok (encodeFrame_mailboxEmpty codec)
      rw [hrun]
      refine iff_of_false ?_ ?_
      · rintro ⟨actor', w', hnever, -⟩
        cases hnever
      · rintro (⟨hyes, -⟩ | ⟨hnone, -⟩)
        · exact hreserves hyes
        · exact hsome hnone

def sampleWaiting : RoomActor := new sampleRoom ["alice", "bob"] [("bob", ⟨"alice", "AAAA"⟩)]

def sampleGone : RoomWorld :=
  { sampleWorld with outboxes := fun _ => { ClipSync.outbox 2 with isOpen := false } }

/-- The join of the connection that has gone takes the clip, and nobody is told. -/
theorem onJoin_loses_waiting :
    ¬ ∃ actor' w', (sampleWaiting.onJoin sampleCodec "bob" 2 ⟨2, 50331648⟩).run RoomWorld.access
        sampleGone = some (actor', w') ∧
      AllOrNothing sampleWaiting "bob" ⟨2, ⟨2, 50331648⟩⟩ sampleGone actor' w' := by
  rintro ⟨actor', w', hrun, hall⟩
  have hfull : ¬ ((sampleWaiting.replaced "bob" sampleGone).outboxes 2).accepts 50331648
      .joinOk = true := by
    decide +kernel
  rw [run_onJoin, run_admitJoin_full _ _ hfull] at hrun
  cases hrun
  have hnone := hall.of_without.1
  have hwaits : (sampleWaiting.mailboxPending.lookup "bob").isSome = true := by decide +kernel
  rw [hnone] at hwaits
  cases hwaits

end RoomActor

end ClipSync
