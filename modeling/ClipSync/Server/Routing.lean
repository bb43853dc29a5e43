import ClipSync.Server.ClipSize

/-!
# Where a clip goes

A clip from the current connection of a member of a room either reaches the outbox of
the other member's connection or waits for that member in the mailbox, unless the
outbox refuses it: then the member is disconnected and the clip is gone. The
statements are about one turn of the actor, in any state of the actor and of the
outboxes.
-/

namespace ClipSync

open Lib Program

/-- The rest of the relay as an actor sees it during a turn: the outboxes by their
ids, the clips announced to the mailbox sink, and the answers of the registry. -/
structure RoomWorld where
  outboxes : ℕ → Outbox
  announced : List (String × String × PendingClip)
  activate : String → String → Except String Bool

namespace RoomWorld

def setOutbox (w : RoomWorld) (id : ℕ) (o : Outbox) : RoomWorld :=
  { w with outboxes := Function.update w.outboxes id o }

def access : (op : RoomOp) → RoomWorld → Option (op.Res × RoomWorld)
  | .outbox handle op, w =>
    (Outbox.access op (w.outboxes handle.id)).map fun (r, o) => (r, w.setOutbox handle.id o)
  | .clipPending roomId recipientFp clip, w =>
    some ((), { w with announced := w.announced ++ [(roomId, recipientFp, clip)] })
  | .clipConsumed .., w => some ((), w)
  | .activateOnFirstJoin roomId memberFp, w => some (w.activate roomId memberFp, w)

@[simp] theorem setOutbox_outboxes (w : RoomWorld) (id : ℕ) (o : Outbox) :
    (w.setOutbox id o).outboxes id = o := Function.update_self _ _ _

@[simp] theorem setOutbox_setOutbox (w : RoomWorld) (id : ℕ) (o o' : Outbox) :
    (w.setOutbox id o).setOutbox id o' = w.setOutbox id o' := by
  simp [setOutbox, Function.update_idem]

@[simp] theorem setOutbox_self (w : RoomWorld) (id : ℕ) : w.setOutbox id (w.outboxes id) = w := by
  simp [setOutbox, Function.update_eq_self]

end RoomWorld

theorem OutboxHandle.run_call {α : Type} (handle : OutboxHandle) (p : OutboxProgram α)
    (w : RoomWorld) : (handle.call p).run RoomWorld.access w =
      (p.run Outbox.access (w.outboxes handle.id)).map fun (a, o) =>
        (a, w.setOutbox handle.id o) := by
  refine run_lift (fun w => w.outboxes handle.id) (fun w o => w.setOutbox handle.id o)
    (by simp) (by simp) (by simp) (fun op w => ?_) p w
  change ((Outbox.access op (w.outboxes handle.id)).map _).bind _ = _
  cases Outbox.access op (w.outboxes handle.id) <;> rfl

namespace OutboxHandle

/-- Encoding and enqueuing a frame in one go. -/
theorem run_sendFrame (codec : Codec) (self : OutboxHandle) {frame : Frame}
    (hok : (encodeFrame codec frame).isOk = true) (o : Outbox) :
    (self.sendFrame codec frame).run Outbox.access o =
      some (o.accepts self.maxBytes frame,
        if o.accepts self.maxBytes frame then o.enqueue frame else o) := by
  rw [sendFrame, encodeExpect_of_ok hok]
  exact self.run_tryFrame frame o

theorem run_sendFrame_of_not_ok (codec : Codec) (self : OutboxHandle) {frame : Frame}
    (hok : ¬ (encodeFrame codec frame).isOk = true) (o : Outbox) :
    (self.sendFrame codec frame).run Outbox.access o = none := by
  rw [sendFrame, encodeExpect_of_not_ok hok]
  rfl

end OutboxHandle

namespace RoomActor

variable {codec : Codec} {senderFp otherFp ciphertextB64 : String}

theorem routeTo_sender (actor : RoomActor) :
    actor.routeTo codec senderFp ciphertextB64 senderFp = pure actor := by
  simp [routeTo]

theorem onClip_eq_routeTo {actor : RoomActor} {sender : OnlineMember}
    (hmembers : actor.memberFps = [senderFp, otherFp] ∨ actor.memberFps = [otherFp, senderFp])
    (hsender : actor.online.lookup senderFp = some sender) :
    actor.onClip codec senderFp sender.connectionId ciphertextB64 =
      actor.routeTo codec senderFp ciphertextB64 otherFp := by
  rcases hmembers with hmembers | hmembers
  · simp [onClip, hsender, hmembers, routeTo_sender]
  · simp [onClip, hsender, hmembers, routeTo_sender]

section Turn

variable {actor : RoomActor} {w : RoomWorld} {member : OnlineMember}

theorem run_routeTo_offline (hne : otherFp ≠ senderFp)
    (hoffline : actor.online.lookup otherFp = none) :
    (actor.routeTo codec senderFp ciphertextB64 otherFp).run RoomWorld.access w =
      some ({ actor with
          mailboxPending := actor.mailboxPending.insert otherFp ⟨senderFp, ciphertextB64⟩ },
        { w with announced :=
            w.announced ++ [(actor.roomId, otherFp, ⟨senderFp, ciphertextB64⟩)] }) := by
  rw [routeTo, if_neg hne, hoffline]
  rfl

theorem run_routeTo_accepted (hne : otherFp ≠ senderFp)
    (honline : actor.online.lookup otherFp = some member)
    (hok : (encodeFrame codec (liveFrame actor.roomId senderFp ciphertextB64)).isOk = true)
    (haccepts : (w.outboxes member.outbox.id).accepts member.outbox.maxBytes
      (liveFrame actor.roomId senderFp ciphertextB64) = true) :
    (actor.routeTo codec senderFp ciphertextB64 otherFp).run RoomWorld.access w =
      some (actor, w.setOutbox member.outbox.id ((w.outboxes member.outbox.id).enqueue
        (liveFrame actor.roomId senderFp ciphertextB64))) := by
  rw [routeTo, if_neg hne, honline]
  dsimp only
  rw [run_bind, OutboxHandle.run_call, OutboxHandle.run_sendFrame codec _ hok, haccepts]
  rfl

theorem run_routeTo_refused (hne : otherFp ≠ senderFp)
    (honline : actor.online.lookup otherFp = some member)
    (hrefused : ¬ ((encodeFrame codec (liveFrame actor.roomId senderFp ciphertextB64)).isOk = true ∧
      (w.outboxes member.outbox.id).accepts member.outbox.maxBytes
      (liveFrame actor.roomId senderFp ciphertextB64) = true))
    {actor' : RoomActor} {w' : RoomWorld}
    (hrun : (actor.routeTo codec senderFp ciphertextB64 otherFp).run RoomWorld.access w = some
      (actor', w')) :
    actor' = { actor with online := actor.online.erase otherFp } ∧
      w'.announced = w.announced := by
  rw [routeTo, if_neg hne, honline] at hrun
  dsimp only at hrun
  by_cases hok : (encodeFrame codec (liveFrame actor.roomId senderFp ciphertextB64)).isOk = true
  · have hfull : (w.outboxes member.outbox.id).accepts member.outbox.maxBytes
        (liveFrame actor.roomId senderFp ciphertextB64) = false := by
      rw [← Bool.not_eq_true]
      exact fun haccepts => hrefused ⟨hok, haccepts⟩
    rw [run_bind, OutboxHandle.run_call, OutboxHandle.run_sendFrame codec _ hok, hfull] at hrun
    simp only [Option.map_some, Option.bind_some, Bool.false_eq_true, if_false,
      RoomWorld.setOutbox_self, run_bind, OutboxHandle.run_call, Option.bind_eq_some_iff,
      Option.map_eq_some_iff] at hrun
    obtain ⟨⟨sent, w₁⟩, ⟨⟨_, o₁⟩, -, h₁⟩, ⟨u, w₂⟩, ⟨⟨_, o₂⟩, -, h₂⟩, h₃⟩ := hrun
    cases h₁
    cases h₂
    cases h₃
    exact ⟨rfl, rfl⟩
  · rw [run_bind, OutboxHandle.run_call, OutboxHandle.run_sendFrame_of_not_ok codec _ hok] at hrun
    cases hrun

end Turn

/-- After the turn the clip is in the outbox of the other member's connection, or
waits for that member and has been announced. -/
def Delivered (senderFp otherFp ciphertextB64 : String) (w : RoomWorld) (actor : RoomActor)
    (w' : RoomWorld) : Prop :=
  (∃ member, actor.online.lookup otherFp = some member ∧
    (w'.outboxes member.outbox.id).queue = (w.outboxes member.outbox.id).queue ++
      [.frame (liveFrame actor.roomId senderFp ciphertextB64)]) ∨
  actor.mailboxPending.lookup otherFp = some ⟨senderFp, ciphertextB64⟩ ∧
    w'.announced = w.announced ++ [(actor.roomId, otherFp, ⟨senderFp, ciphertextB64⟩)]

/-- A clip from the current connection of a member is delivered or kept for the other
member exactly if that member is offline or its outbox takes the clip. -/
theorem onClip_delivers_iff {actor : RoomActor} {sender : OnlineMember} (w : RoomWorld)
    (hne : otherFp ≠ senderFp)
    (hmembers : actor.memberFps = [senderFp, otherFp] ∨ actor.memberFps = [otherFp, senderFp])
    (hsender : actor.online.lookup senderFp = some sender) :
    (∃ actor' w', (actor.onClip codec senderFp sender.connectionId ciphertextB64).run
        RoomWorld.access w = some (actor', w') ∧
      Delivered senderFp otherFp ciphertextB64 w actor' w') ↔
    ∀ member, actor.online.lookup otherFp = some member →
      (encodeFrame codec (liveFrame actor.roomId senderFp ciphertextB64)).isOk = true ∧
      (w.outboxes member.outbox.id).accepts member.outbox.maxBytes
        (liveFrame actor.roomId senderFp ciphertextB64) = true := by
  rw [onClip_eq_routeTo hmembers hsender]
  constructor
  · rintro ⟨actor', w', hrun, hdelivered⟩ member honline
    by_contra hrefused
    obtain ⟨rfl, hannounced⟩ := run_routeTo_refused hne honline hrefused hrun
    rcases hdelivered with ⟨other, hother, -⟩ | ⟨-, hannounce⟩
    · rw [Finmap.lookup_erase] at hother
      cases hother
    · rw [hannounced] at hannounce
      simpa using congrArg List.length hannounce
  · intro haccepts
    cases honline : actor.online.lookup otherFp with
    | none =>
      refine ⟨_, _, run_routeTo_offline hne honline, .inr ⟨?_, rfl⟩⟩
      exact Finmap.lookup_insert _
    | some member =>
      obtain ⟨hok, haccept⟩ := haccepts member honline
      refine ⟨_, _, run_routeTo_accepted hne honline hok haccept, .inl ⟨member, honline, ?_⟩⟩
      rw [RoomWorld.setOutbox_outboxes]
      rfl

def sampleJoins : List RoomEvent :=
  [.join "alice" "" 1 ⟨1, 50331648⟩, .join "bob" "" 2 ⟨2, 50331648⟩]

def sampleWorld : RoomWorld where
  outboxes _ := ClipSync.outbox 2
  announced := []
  activate _ _ := .ok true

def sampleAlice : OnlineMember := ⟨1, ⟨1, 50331648⟩⟩

def sampleActor : RoomActor :=
  { new sampleRoom ["alice", "bob"] [] with
    online := (∅ : HashMap String OnlineMember).insert "alice" sampleAlice }

theorem onClip_delivers_offline :
    ∃ actor w, (sampleActor.onClip sampleCodec "alice" 1 "AAAA").run RoomWorld.access
        sampleWorld = some (actor, w) ∧
      Delivered "alice" "bob" "AAAA" sampleWorld actor w := by
  have hne : "bob" ≠ "alice" := by decide
  have hsender : sampleActor.online.lookup "alice" = some sampleAlice := Finmap.lookup_insert _
  refine (onClip_delivers_iff sampleWorld hne (.inl rfl) hsender).2 ?_
  intro member honline
  rw [sampleActor, Finmap.lookup_insert_of_ne _ hne] at honline
  cases honline

/-- Bob's outbox is full with the two frames of the join: a clip of Alice is neither
queued nor kept. -/
theorem onClip_overflow_loses :
    (((new sampleRoom ["alice", "bob"] []).handleAll sampleCodec
        (sampleJoins ++ [.clip "alice" 1 "AAAA" 100])).run RoomWorld.access sampleWorld).map
      (fun (actor, w) => ((actor.online.lookup "bob").isSome,
        (actor.mailboxPending.lookup "bob").isSome, (w.outboxes 2).queue, w.announced.length)) =
    some (false, false, [.frame .joinOk, .frame .mailboxEmpty], 0) := by
  decide +kernel

end RoomActor

end ClipSync
