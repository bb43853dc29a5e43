import ClipSync.Server.MailboxLoad
import ClipSync.Server.Routing

/-!
# One waiting clip per room

The actor of a room keeps the clips that wait for its members in a map by recipient,
but the mailbox keeps one snapshot per room. In a room of two members this is enough:
a clip is left for a member only while the other one is online, and whoever joins
takes what waited for them, whether the join succeeds or not. So at most one clip
waits, and it is the last one that was passed to `clip_pending`, or the one the actor
was spawned with.
-/

namespace ClipSync

open Lib Program

namespace RoomActor

/-! ## What a turn passes to the mailbox -/

def noted : RoomOp → List (String × PendingClip)
  | .clipPending _ recipientFp clip => [(recipientFp, clip)]
  | .outbox .. | .clipConsumed .. | .activateOnFirstJoin .. => []

def note (op : RoomOp) (announced : List (String × PendingClip)) (_ : op.Res)
    (announced' : List (String × PendingClip)) : Prop :=
  announced' = announced ++ noted op

def joined (self : RoomActor) (fp : String) (member : OnlineMember) : RoomActor :=
  { self.without fp with online := (self.without fp).online.insert fp member }

variable {codec : Codec} {announced : List (String × PendingClip)}
  {I : List (String × PendingClip) → Prop}

theorem safe_call {α : Type} {Q : α → List (String × PendingClip) → Prop}
    (outbox : OutboxHandle) (p : OutboxProgram α) (hI : I announced)
    (hQ : ∀ a, Q a announced) : Safe note I Q (outbox.call p) announced := by
  induction p with
  | done a => exact ⟨hI, hQ a⟩
  | call op k ih =>
    refine ⟨hI, fun r _ hnote => ?_⟩
    rw [hnote, noted, List.append_nil]
    exact ih r

theorem safe_call_bind {α β : Type} {Q : β → List (String × PendingClip) → Prop}
    (outbox : OutboxHandle) (p : OutboxProgram α) {f : α → RoomProgram β} (hI : I announced)
    (hf : ∀ a, Safe note I Q (f a) announced) : Safe note I Q (outbox.call p >>= f) announced := by
  have hcall : Safe note I (fun _ announced' => announced' = announced) (outbox.call p)
      announced := safe_call outbox p hI fun _ => rfl
  refine hcall.bind ?_
  rintro a _ - rfl
  exact hf a

variable {Q : RoomActor → List (String × PendingClip) → Prop} {actor : RoomActor} {fp : String}
  {connectionId : ConnectionId} {outbox : OutboxHandle}

theorem safe_admit {bootstrap : Frame} (hI : I announced) (hfailed : Q actor announced)
    (hjoined : Q { actor with online := actor.online.insert fp ⟨connectionId, outbox⟩ } announced) :
    Safe note I Q (actor.admitJoin codec fp connectionId outbox bootstrap) announced := by
  refine safe_call_bind outbox _ hI fun joinOk => ?_
  cases joinOk with
  | none => exact ⟨hI, hfailed⟩
  | some joinOk =>
  refine safe_call_bind outbox _ hI fun bootstrap => ?_
  cases bootstrap with
  | none => exact safe_call_bind outbox _ hI fun _ => ⟨hI, hfailed⟩
  | some bootstrap =>
  refine ⟨hI, fun active _ hnote => ?_⟩
  rw [hnote, noted, List.append_nil]
  cases active with
  | error e =>
    exact safe_call_bind outbox _ hI fun _ => safe_call_bind outbox _ hI fun _ =>
      safe_call_bind outbox _ hI fun _ => ⟨hI, hfailed⟩
  | ok b =>
    exact safe_call_bind outbox _ hI fun _ => safe_call_bind outbox _ hI fun _ => ⟨hI, hjoined⟩

theorem safe_onJoin (hI : I announced) (hfailed : Q (actor.without fp) announced)
    (hjoined : Q (actor.joined fp ⟨connectionId, outbox⟩) announced) :
    Safe note I Q (actor.onJoin codec fp connectionId outbox) announced := by
  have hclose : Safe note I (fun _ announced' => announced' = announced) (actor.replaceOld fp)
      announced := by
    unfold replaceOld
    split
    · exact safe_call _ _ hI fun _ => rfl
    · exact ⟨hI, rfl⟩
  have htake : Safe note I (fun _ announced' => announced' = announced) (actor.takeWaiting fp)
      announced := by
    unfold takeWaiting
    split
    · refine ⟨hI, fun _ _ hnote => ?_⟩
      rw [hnote, noted, List.append_nil]
      exact ⟨hI, rfl⟩
    · exact ⟨hI, rfl⟩
  refine hclose.bind ?_
  rintro _ _ - rfl
  refine htake.bind ?_
  rintro bootstrap _ - rfl
  exact safe_admit hI hfailed hjoined

/-- The turn of a member that did not send the clip. -/
theorem safe_routeTo {senderFp ciphertextB64 otherFp : String} (hne : otherFp ≠ senderFp)
    (hI : I announced) (hsame : Q actor announced)
    (hoverflow : Q { actor with online := actor.online.erase otherFp } announced)
    (hoffline : actor.online.lookup otherFp = none →
      I (announced ++ [(otherFp, ⟨senderFp, ciphertextB64⟩)]) ∧
      Q { actor with
          mailboxPending := actor.mailboxPending.insert otherFp ⟨senderFp, ciphertextB64⟩ }
        (announced ++ [(otherFp, ⟨senderFp, ciphertextB64⟩)])) :
    Safe note I Q (actor.routeTo codec senderFp ciphertextB64 otherFp) announced := by
  rw [routeTo, if_neg hne]
  cases honline : actor.online.lookup otherFp with
  | some member =>
    refine safe_call_bind member.outbox _ hI fun sent => ?_
    cases sent with
    | true => exact ⟨hI, hsame⟩
    | false =>
      exact safe_call_bind member.outbox _ hI fun _ =>
        safe_call_bind member.outbox _ hI fun _ => ⟨hI, hoverflow⟩
  | none =>
    refine ⟨hI, fun _ _ hnote => ?_⟩
    rw [hnote]
    exact hoffline honline

/-! ## At most one clip waits -/

def latest (loaded announced : List (String × PendingClip)) : Option (String × PendingClip) :=
  announced.getLast?.or loaded.getLast?

/-- In the room of `a` and `b` a clip waits only for a member that is offline, and it is
the latest one. -/
structure OneWaiting (a b : String) (latest : Option (String × PendingClip))
    (actor : RoomActor) : Prop where
  members : actor.memberFps = [a, b]
  online : ∀ fp, fp ∈ actor.online → fp = a ∨ fp = b
  recipient : ∀ {fp clip}, actor.mailboxPending.lookup fp = some clip → fp = a ∨ fp = b
  offline : ∀ {fp clip}, actor.mailboxPending.lookup fp = some clip → fp ∉ actor.online
  last : ∀ {fp clip}, actor.mailboxPending.lookup fp = some clip → latest = some (fp, clip)

section Invariant

variable {a b : String} {last : Option (String × PendingClip)}

theorem lookup_erase_some {υ : Type} {m : HashMap String υ} {fp other : String} {v : υ}
    (h : (m.erase fp).lookup other = some v) : other ≠ fp ∧ m.lookup other = some v := by
  by_cases hfp : other = fp
  · rw [hfp, Finmap.lookup_erase] at h
    cases h
  · rw [Finmap.lookup_erase_ne hfp] at h
    exact ⟨hfp, h⟩

theorem OneWaiting.erase (h : OneWaiting a b last actor) (fp : String) :
    OneWaiting a b last { actor with online := actor.online.erase fp } where
  members := h.members
  online other hother := h.online other (Finmap.mem_erase.1 hother).2
  recipient := h.recipient
  offline hlookup hother := h.offline hlookup (Finmap.mem_erase.1 hother).2
  last := h.last

theorem OneWaiting.without (h : OneWaiting a b last actor) (fp : String) :
    OneWaiting a b last (actor.without fp) where
  members := h.members
  online other hother := h.online other (Finmap.mem_erase.1 hother).2
  recipient hlookup := h.recipient (lookup_erase_some hlookup).2
  offline hlookup hother :=
    h.offline (lookup_erase_some hlookup).2 (Finmap.mem_erase.1 hother).2
  last hlookup := h.last (lookup_erase_some hlookup).2

theorem OneWaiting.joined (h : OneWaiting a b last actor) (hfp : fp = a ∨ fp = b)
    (member : OnlineMember) : OneWaiting a b last (actor.joined fp member) where
  members := h.members
  online other hother := by
    rcases Finmap.mem_insert.1 hother with rfl | hother
    · exact hfp
    · exact h.online other (Finmap.mem_erase.1 hother).2
  recipient hlookup := h.recipient (lookup_erase_some hlookup).2
  offline hlookup hother := by
    obtain ⟨hne, hlookup⟩ := lookup_erase_some hlookup
    rcases Finmap.mem_insert.1 hother with heq | hother
    · exact hne heq
    · exact h.offline hlookup (Finmap.mem_erase.1 hother).2
  last hlookup := h.last (lookup_erase_some hlookup).2

theorem OneWaiting.leave {senderFp otherFp : String} (h : OneWaiting a b last actor)
    (hmembers : ∀ fp, fp = a ∨ fp = b → fp = senderFp ∨ fp = otherFp)
    (hother : otherFp = a ∨ otherFp = b) (hsender : senderFp ∈ actor.online)
    (hoffline : actor.online.lookup otherFp = none) (clip : PendingClip) :
    OneWaiting a b (some (otherFp, clip))
      { actor with mailboxPending := actor.mailboxPending.insert otherFp clip } := by
  -- Nothing waits for the sender, who is online.
  have hlookup : ∀ {fp c}, (actor.mailboxPending.insert otherFp clip).lookup fp = some c →
      fp = otherFp ∧ c = clip := by
    intro fp c hc
    by_cases hfp : fp = otherFp
    · rw [hfp, Finmap.lookup_insert] at hc
      exact ⟨hfp, (Option.some.inj hc).symm⟩
    · rw [Finmap.lookup_insert_of_ne _ hfp] at hc
      rcases hmembers fp (h.recipient hc) with rfl | heq
      · exact absurd hsender (h.offline hc)
      · exact absurd heq hfp
  refine ⟨h.members, h.online, fun hc => ?_, fun hc => ?_, fun hc => ?_⟩
  · rw [(hlookup hc).1]
    exact hother
  · rw [(hlookup hc).1]
    exact Finmap.lookup_eq_none.1 hoffline
  · obtain ⟨rfl, rfl⟩ := hlookup hc
    rfl

theorem OneWaiting.size_le (h : OneWaiting a b last actor) : actor.mailboxPending.size ≤ 1 := by
  refine Finset.card_le_one.2 fun fp hfp other hother => ?_
  obtain ⟨clip, hclip⟩ := Finmap.mem_iff.1 (Finmap.mem_keys.1 hfp)
  obtain ⟨clip', hclip'⟩ := Finmap.mem_iff.1 (Finmap.mem_keys.1 hother)
  exact congrArg Prod.fst (Option.some.inj ((h.last hclip).symm.trans (h.last hclip')))

def ForMembers (a b : String) (entries : List (String × PendingClip)) : Prop :=
  ∀ e ∈ entries, e.1 = a ∨ e.1 = b

theorem latest_append (loaded : List (String × PendingClip))
    (announced : List (String × PendingClip)) (e : String × PendingClip) :
    latest loaded (announced ++ [e]) = some e := by
  simp [latest]

variable {loaded : List (String × PendingClip)}

theorem safe_onClip (hne : a ≠ b) (h : OneWaiting a b (latest loaded announced) actor)
    (hfor : ForMembers a b announced) (senderFp : String) (connectionId : ConnectionId)
    (ciphertextB64 : String) :
    Safe note (ForMembers a b)
      (fun actor' announced' => OneWaiting a b (latest loaded announced') actor')
      (actor.onClip codec senderFp connectionId ciphertextB64) announced := by
  cases hlookup : actor.online.lookup senderFp with
  | none =>
    rw [onClip, hlookup]
    exact ⟨hfor, h⟩
  | some sender =>
  by_cases hconnection : sender.connectionId = connectionId
  · subst hconnection
    have hsender : senderFp ∈ actor.online := Finmap.mem_of_lookup_eq_some hlookup
    obtain ⟨otherFp, hdistinct, hlist, hmembers, hother⟩ : ∃ otherFp, otherFp ≠ senderFp ∧
        (actor.memberFps = [senderFp, otherFp] ∨ actor.memberFps = [otherFp, senderFp]) ∧
        (∀ fp, fp = a ∨ fp = b → fp = senderFp ∨ fp = otherFp) ∧
        (otherFp = a ∨ otherFp = b) := by
      rcases h.online senderFp hsender with rfl | rfl
      · exact ⟨b, hne.symm, .inl h.members, fun _ => id, .inr rfl⟩
      · exact ⟨a, hne, .inr h.members, fun _ => Or.symm, .inl rfl⟩
    rw [onClip_eq_routeTo hlist hlookup]
    refine safe_routeTo hdistinct hfor h (h.erase otherFp) fun hoffline => ⟨?_, ?_⟩
    · intro e he
      rcases List.mem_append.1 he with he | he
      · exact hfor e he
      · rw [List.mem_singleton.1 he]
        exact hother
    · rw [latest_append]
      exact h.leave hmembers hother hsender hoffline _
  · rw [onClip, hlookup]
    dsimp only
    rw [if_pos hconnection]
    exact ⟨hfor, h⟩

theorem OneWaiting.onDisconnect (h : OneWaiting a b last actor) (fp : String)
    (connectionId : ConnectionId) : OneWaiting a b last (actor.onDisconnect fp connectionId) := by
  unfold RoomActor.onDisconnect
  split
  · exact h.erase fp
  · exact h

def Admitted (a b : String) : RoomEvent → Prop
  | .join fp .. => fp = a ∨ fp = b
  | .clip .. | .disconnect .. => True

variable (codec) in
theorem safe_handle (hne : a ≠ b) (h : OneWaiting a b (latest loaded announced) actor)
    (hfor : ForMembers a b announced) {event : RoomEvent} (hevent : Admitted a b event) :
    Safe note (ForMembers a b)
      (fun actor' announced' => OneWaiting a b (latest loaded announced') actor')
      (actor.handle codec event) announced := by
  cases event with
  | join fp deviceId connectionId outbox =>
    exact safe_onJoin hfor (h.without fp) (h.joined hevent _)
  | clip senderFp connectionId ciphertextB64 encodedSize =>
    exact safe_onClip hne h hfor senderFp connectionId ciphertextB64
  | disconnect fp connectionId => exact ⟨hfor, h.onDisconnect fp connectionId⟩

end Invariant

end RoomActor

/-! ## The actors of a room -/

/-- The actor of a room with what it was spawned with, what it has passed to the mailbox
sink since, and what the mailbox had been given before. -/
structure RoomLife where
  actor : RoomActor
  loaded : List (String × PendingClip)
  announced : List (String × PendingClip)
  kept : List (String × PendingClip)

namespace RoomLife

open PersistentMailbox (Loads)

variable (codec : Codec) (options : MailboxOptions) (roomId a b : String)

def spawn (loaded kept : List (String × PendingClip)) : RoomLife where
  actor := .new roomId [a, b] loaded
  loaded := loaded
  announced := []
  kept := kept

/-- The actor handles an event, with any answers from outboxes and registry; or it has
stopped, if need be in the middle of a turn, and another one is spawned. -/
inductive Step : RoomLife → RoomLife → Prop where
  | handle {x : RoomLife} {event : RoomEvent} {actor : RoomActor}
      {announced : List (String × PendingClip)} (admitted : RoomActor.Admitted a b event)
      (turn : Exec RoomActor.note (x.actor.handle codec event) x.announced actor announced) :
      Step x { x with actor := actor, announced := announced }
  | respawn {x : RoomLife} {event : RoomEvent} {rest : RoomProgram RoomActor}
      {announced loaded : List (String × PendingClip)} (admitted : RoomActor.Admitted a b event)
      (cut : Steps RoomActor.note (x.actor.handle codec event) x.announced rest announced)
      (loads : Loads options (x.kept ++ announced) loaded) :
      Step x (spawn roomId a b loaded (x.kept ++ announced))

abbrev Reaches : RoomLife → RoomLife → Prop :=
  Relation.ReflTransGen (Step codec options roomId a b)

open RoomActor

variable {codec options roomId a b}

/-- What holds of the actors of a room. -/
structure Orderly (a b : String) (x : RoomLife) : Prop where
  waiting : OneWaiting a b (latest x.loaded x.announced) x.actor
  announced : ForMembers a b x.announced
  kept : ForMembers a b x.kept

variable {kept loaded : List (String × PendingClip)} {x y : RoomLife}

/-- At most one entry is loaded. -/
theorem loads_cases (h : Loads options kept loaded) : loaded = [] ∨ ∃ e ∈ kept, loaded = [e] := by
  obtain ⟨nowMs, snapshot, hmem, rfl⟩ := h
  cases snapshot with
  | none => exact .inl rfl
  | some x =>
    rw [PersistentMailbox.pendingAt]
    split
    · exact .inl rfl
    · exact .inr ⟨_, hmem x rfl, rfl⟩

theorem spawn_orderly (hkept : ForMembers a b kept) (hloads : Loads options kept loaded) :
    Orderly a b (spawn roomId a b loaded kept) := by
  -- Nothing but the one entry that was loaded waits.
  have hlookup : ∀ {fp clip},
      (HashMap.ofList loaded : HashMap String PendingClip).lookup fp = some clip →
      (fp, clip) ∈ kept ∧ loaded = [(fp, clip)] := by
    intro fp clip h
    rcases loads_cases hloads with rfl | ⟨⟨other, c⟩, hmem, rfl⟩
    · cases h
    · by_cases hfp : fp = other
      · rw [hfp, HashMap.ofList, List.foldl_cons, List.foldl_nil, Finmap.lookup_insert] at h
        cases h
        rw [hfp]
        exact ⟨hmem, rfl⟩
      · rw [HashMap.ofList, List.foldl_cons, List.foldl_nil,
          Finmap.lookup_insert_of_ne _ hfp] at h
        cases h
  refine ⟨⟨rfl, fun fp hfp => absurd hfp Finmap.notMem_empty, fun h => hkept _ (hlookup h).1,
    fun _ => Finmap.notMem_empty, fun {fp clip} h => ?_⟩, (by rintro _ ⟨⟩), hkept⟩
  have hloaded : loaded = [(fp, clip)] := (hlookup h).2
  rw [hloaded]
  rfl

theorem Orderly.step (hne : a ≠ b) (h : Orderly a b x) (hstep : Step codec options roomId a b x y) :
    Orderly a b y := by
  cases hstep with
  | handle admitted turn =>
    have hsafe := safe_handle codec hne h.waiting h.announced admitted
    exact ⟨hsafe.post turn, hsafe.last turn, h.kept⟩
  | respawn admitted cut loads =>
    have hsafe := safe_handle codec hne h.waiting h.announced admitted
    have hcut := (hsafe.steps cut).inv
    refine spawn_orderly (fun e he => ?_) loads
    rcases List.mem_append.1 he with he | he
    · exact h.kept e he
    · exact hcut e he

theorem Orderly.reaches (hne : a ≠ b) (h : Orderly a b x)
    (hrun : Reaches codec options roomId a b x y) : Orderly a b y := by
  induction hrun with
  | refl => exact h
  | tail _ hstep ih => exact ih.step hne hstep

/-- In every state of every actor of a room of two: no member has a clip waiting and is
online, at most one clip waits, and it is the last one passed to `clip_pending` or, if
there was none since the spawn, the one loaded then. -/
theorem mailboxPending_latest (hne : a ≠ b) {loaded kept : List (String × PendingClip)}
    (hkept : ForMembers a b kept) (hloads : Loads options kept loaded) {x : RoomLife}
    (hrun : Reaches codec options roomId a b (spawn roomId a b loaded kept) x) :
    (∀ fp, fp ∈ x.actor.mailboxPending → fp ∉ x.actor.online) ∧
      x.actor.mailboxPending.size ≤ 1 ∧
      ∀ fp clip, x.actor.mailboxPending.lookup fp = some clip →
        x.announced.getLast?.or x.loaded.getLast? = some (fp, clip) := by
  have h := ((spawn_orderly hkept hloads).reaches hne hrun).waiting
  refine ⟨fun fp hfp => ?_, h.size_le, fun fp clip hclip => h.last hclip⟩
  obtain ⟨clip, hclip⟩ := Finmap.mem_iff.1 hfp
  exact h.offline hclip

theorem exec_note_of_run {α : Type} {p : RoomProgram α} {w w' : RoomWorld} {r : α}
    (h : p.run RoomWorld.access w = some (r, w')) :
    Exec note p (w.announced.map Prod.snd) r (w'.announced.map Prod.snd) := by
  induction p generalizing w with
  | done a =>
    cases h
    exact .done _ _
  | call op k ih =>
    obtain ⟨⟨x, w₁⟩, hhead, htail⟩ := Option.bind_eq_some_iff.1 h
    refine .call (r := x) ?_ (ih x htail)
    cases op with
    | outbox handle op =>
      obtain ⟨⟨y, o⟩, -, heq⟩ := Option.map_eq_some_iff.1 hhead
      cases heq
      exact (List.append_nil _).symm
    | clipPending roomId recipientFp clip =>
      cases hhead
      exact List.map_append
    | clipConsumed roomId recipientFp | activateOnFirstJoin roomId memberFp =>
      cases hhead
      exact (List.append_nil _).symm

theorem loads_mono (h : Loads options kept loaded) {more : List (String × PendingClip)}
    (hsubset : kept ⊆ more) : Loads options more loaded := by
  obtain ⟨nowMs, snapshot, hmem, rfl⟩ := h
  exact ⟨nowMs, snapshot, fun x hx => hsubset (hmem x hx), rfl⟩

/-- An actor is spawned with what a call of `load_pending` has returned, from a mailbox that
has been given nothing else for the room. -/
theorem respawn_of_load {mailbox : MailboxCodec} {fs : Fs Unit} {scan : PersistentMailbox.Scan}
    {y : MailboxThreads} {n since : ℕ} {nowMs : Int64} {event : RoomEvent}
    {rest : RoomProgram RoomActor} {announced : List (String × PendingClip)}
    (hrun : Threads.Reaches (PersistentMailbox.system mailbox options)
      (PersistentMailbox.opened mailbox options fs scan) y)
    (hdone : y.threads (.load n roomId since nowMs) = some (done loaded))
    (hgiven : PersistentMailbox.given scan.index y.shared.pended roomId ⊆ x.kept ++ announced)
    (admitted : Admitted a b event)
    (cut : Steps note (x.actor.handle codec event) x.announced rest announced) :
    Step codec options roomId a b x (spawn roomId a b loaded (x.kept ++ announced)) :=
  .respawn admitted cut
    (loads_mono (PersistentMailbox.loadPending_loads mailbox options fs scan hrun hdone) hgiven)

theorem reaches_of_handleAll {events : List RoomEvent} {w w' : RoomWorld} {actor : RoomActor}
    (hevents : ∀ event ∈ events, Admitted a b event)
    (hannounced : x.announced = w.announced.map Prod.snd)
    (h : (x.actor.handleAll codec events).run RoomWorld.access w = some (actor, w')) :
    Reaches codec options roomId a b x
      { x with actor := actor, announced := w'.announced.map Prod.snd } := by
  induction events generalizing x w with
  | nil =>
    cases h
    rw [← hannounced]
  | cons event events ih =>
    rw [handleAll, List.foldlM_cons, run_bind, Option.bind_eq_some_iff] at h
    obtain ⟨⟨next, w₁⟩, hevent, h⟩ := h
    have hturn := exec_note_of_run hevent
    rw [← hannounced] at hturn
    exact .head (.handle (hevents event List.mem_cons_self) hturn)
      (ih (fun e he => hevents e (List.mem_cons_of_mem _ he)) rfl h)

def sampleKept : List (String × PendingClip) := [("bob", ⟨"alice", "AAAA"⟩)]

def sampleLeft : List (String × PendingClip) := [("bob", ⟨"alice", "BBBB"⟩)]

/-- The mailbox has been given the clip of Alice and is asked for it. -/
def sampleMailbox : MailboxThreads :=
  (PersistentMailbox.replay PersistentMailbox.sampleMailboxCodec {}).final
    [⟨.clip 0 sampleRoom "bob" ⟨"alice", "BBBB"⟩, 4, { nowMs := 1 }⟩,
      ⟨.load 0 sampleRoom 1 1, 2, {}⟩] PersistentMailbox.sampleStart

/-- Alice joins and leaves a clip; the actor stops, and the next one is spawned with the
clip. -/
theorem mailboxPending_latest_sample :
    ∃ x, Reaches sampleCodec {} sampleRoom "alice" "bob"
        (spawn sampleRoom "alice" "bob" sampleKept sampleKept) x ∧
      (x.actor.mailboxPending.lookup "bob").isSome = true ∧ x.loaded = sampleLeft ∧
      x.kept = sampleKept ++ sampleLeft ∧
      (∀ fp, fp ∈ x.actor.mailboxPending → fp ∉ x.actor.online) ∧
      x.actor.mailboxPending.size ≤ 1 ∧
      ∀ fp clip, x.actor.mailboxPending.lookup fp = some clip →
        x.announced.getLast?.or x.loaded.getLast? = some (fp, clip) := by
  have hkept : ForMembers "alice" "bob" sampleKept := by
    intro e he
    rw [List.mem_singleton.1 he]
    exact .inr rfl
  have hloads : Loads {} sampleKept sampleKept :=
    ⟨1, some ⟨"bob", "alice", "AAAA", 1⟩, by rintro _ ⟨⟩; exact List.mem_singleton_self _,
      by decide⟩
  have hturns : (((RoomActor.new sampleRoom ["alice", "bob"] sampleKept).handleAll sampleCodec
      [.join "alice" "" 1 ⟨1, 50331648⟩, .clip "alice" 1 "BBBB" 100]).run RoomWorld.access
        sampleWorld).map (fun turn => turn.2.announced.map Prod.snd) = some sampleLeft := by
    decide +kernel
  obtain ⟨⟨actor, w⟩, hrun, hleft⟩ := Option.map_eq_some_iff.1 hturns
  have hevents : ∀ event ∈ [RoomEvent.join "alice" "" 1 ⟨1, 50331648⟩,
      .clip "alice" 1 "BBBB" 100], Admitted "alice" "bob" event := by
    simp [Admitted]
  have hturned : Reaches sampleCodec {} sampleRoom "alice" "bob"
      (spawn sampleRoom "alice" "bob" sampleKept sampleKept)
      ⟨actor, sampleKept, w.announced.map Prod.snd, sampleKept⟩ :=
    reaches_of_handleAll hevents rfl hrun
  have hmailbox : Threads.Reaches
      (PersistentMailbox.system PersistentMailbox.sampleMailboxCodec {})
      PersistentMailbox.sampleStart sampleMailbox := Threads.Replay.reaches_final
  have hloaded : sampleMailbox.threads (.load 0 sampleRoom 1 1) = some (done sampleLeft) :=
    Threads.threads_of_value (by decide +kernel)
  have hgiven : PersistentMailbox.given ∅ sampleMailbox.shared.pended sampleRoom = sampleLeft := by
    decide +kernel
  rw [show w.announced.map Prod.snd = sampleLeft from hleft] at hturned
  have hleaves : Admitted "alice" "bob" (.disconnect "alice" 1) := trivial
  have hnext : Step sampleCodec {} sampleRoom "alice" "bob"
      ⟨actor, sampleKept, sampleLeft, sampleKept⟩
      (spawn sampleRoom "alice" "bob" sampleLeft (sampleKept ++ sampleLeft)) :=
    respawn_of_load hmailbox hloaded (hgiven ▸ List.subset_append_right _ _) hleaves (.refl _ _)
  have hreaches := hturned.tail hnext
  exact ⟨_, hreaches, by decide +kernel, rfl, rfl,
    mailboxPending_latest (by decide) hkept hloads hreaches⟩

end RoomLife

end ClipSync
