import ClipSync.Core.Serde
import ClipSync.Lib.Threads
import ClipSync.Server.Outbox
import Mathlib.Algebra.BigOperators.Group.Finset.Basic
import Mathlib.Algebra.Order.BigOperators.Group.Finset
import Mathlib.Data.Fintype.Option

/-!
# Concurrent use of an outbox

Any number of tasks use the handles of one outbox while its writer receives from it, in any
interleaving of their accesses. The octet counter is raised before the limit is checked and
a slot is asked for, lowered again where either is refused, and lowered by the writer for a
frame that has already left the queue. What it stands at is therefore made up of the frames
in the queue, the reservations, and what the calls in progress have in hand.
-/

namespace ClipSync

open Lib Program Function

/-! ## Accesses -/

/-- An access through a handle, or the wait of the writer for an item or a forced close. -/
inductive OutboxAccess where
  | handle (op : OutboxOp)
  | take

abbrev OutboxAccess.Res : OutboxAccess → Type
  | .handle op => op.Res
  | .take => Outbound

abbrev OutboxTask := Program OutboxAccess OutboxAccess.Res

def onHandle {α : Type} (p : OutboxProgram α) : OutboxTask α :=
  p.lift fun op => perform (OutboxAccess.handle op)

/-- `OutboxReceiver::recv`: the octets of a frame are released when it has left the queue. -/
def OutboxReceiver.recv : OutboxTask Outbound := do
  let item ← perform OutboxAccess.take
  match item with
  | .frame frame => onHandle (OutboxHandle.fetchSub frame.encoded.length)
  | .close => pure ()
  return item

def ReservedFrame.size (self : ReservedFrame) : ℕ := self.frame.encoded.length

def Outbound.size : Outbound → ℕ
  | .frame content => content.encoded.length
  | .close => 0

/-! ## What a task has in hand -/

/-- Where a task is in a call: it has raised the counter and has to lower it again, or may
ask for a slot; it has received a frame; it is about to use a reservation, or to release
its octets, or its slot. -/
inductive Activity where
  | resting
  | undoing (size : ℕ)
  | granted (size : ℕ)
  | received (size : ℕ)
  | sending (size : ℕ)
  | dropping (size : ℕ)
  | freeing

/-- The sizes of the reservations of a task, and what it does. -/
structure Share where
  held : List ℕ := []
  activity : Activity := .resting

namespace Share

def reserved (a : Share) : ℕ :=
  a.held.sum + match a.activity with
    | .sending size | .dropping size => size
    | _ => 0

def slots (a : Share) : ℕ :=
  a.held.length + match a.activity with
    | .sending _ | .dropping _ | .freeing => 1
    | _ => 0

def tentative (a : Share) : ℕ :=
  match a.activity with
  | .undoing size | .granted size => size
  | _ => 0

def admitted (a : Share) : ℕ :=
  match a.activity with
  | .granted size => size
  | _ => 0

def receiving (a : Share) : ℕ :=
  match a.activity with
  | .received size => size
  | _ => 0

def next (maxBytes : ℕ) (a : Share) : (op : OutboxAccess) → op.Res → Share
  | .handle (.fetchAdd size), previous => { a with
      activity := if previous + size > maxBytes then .undoing size else .granted size }
  | .handle (.fetchSub _), _ => { a with
      activity := match a.activity with
        | .dropping _ => .freeing
        | _ => .resting }
  | .handle (.trySend (.frame frame)), sent => { a with
      activity := if sent then .resting else .undoing frame.encoded.length }
  | .handle .tryReserveOwned, taken =>
    match a.activity, taken with
    | .granted size, true => ⟨size :: a.held, .resting⟩
    | .granted size, false => { a with activity := .undoing size }
    | _, _ => a
  | .handle (.permitSend _), _ | .handle .permitDrop, _ => { a with activity := .resting }
  | .take, .frame frame => { a with activity := .received frame.encoded.length }
  | .take, .close | .handle (.trySend .close), _ | .handle .notifyOne, _ | .handle .panic, _ => a

def Permits (a : Share) : OutboxAccess → Prop
  | .handle (.fetchSub size) =>
    a.activity = .undoing size ∨ a.activity = .received size ∨ a.activity = .dropping size
  | .handle (.trySend (.frame frame)) => a.activity = .granted frame.encoded.length
  | .handle .tryReserveOwned => ∃ size, a.activity = .granted size
  | .handle (.permitSend item) =>
    ∃ frame, item = .frame frame ∧ a.activity = .sending frame.encoded.length
  | .handle .permitDrop => a.activity = .freeing
  | .handle (.fetchAdd _) | .handle (.trySend .close) | .handle .notifyOne | .handle .panic
  | .take => a.activity = .resting

end Share

open Share

/-! ## The calls -/

def HandleRuns {α : Type} (maxBytes : ℕ) (final : Share → α → Prop) (a : Share)
    (p : OutboxProgram α) : Prop :=
  Conforms (fun a op => a.Permits (.handle op)) (fun a op => a.next maxBytes (.handle op)) final a p

section Calls

variable {α : Type} {codec : Codec} {maxBytes : ℕ} {final : Share → α → Prop} {held : List ℕ}

theorem HandleRuns.onHandle {a : Share} {p : OutboxProgram α} (hp : HandleRuns maxBytes final a p) :
    Conforms Permits (next maxBytes) final a (onHandle p) := by
  refine conforms_lift (fun b op hop => ?_) hp
  exact ⟨hop, fun _ => rfl⟩

theorem accounted_runs (self : OutboxHandle) (frame : Frame) (slot : OutboxProgram Bool)
    (after : Share)
    (hslot : HandleRuns self.maxBytes (fun a taken => a = if taken then after else
      ⟨held, .undoing frame.encoded.length⟩) ⟨held, .granted frame.encoded.length⟩ slot) :
    HandleRuns self.maxBytes (fun a taken => a = if taken then after else { held := held })
      { held := held } (self.accounted frame slot) := by
  have hundo : HandleRuns self.maxBytes (fun a taken => a = if taken then after else
      { held := held }) ⟨held, .undoing frame.encoded.length⟩
      (OutboxHandle.fetchSub frame.encoded.length >>= fun _ => pure false) :=
    conforms_perform_bind (.inl rfl) fun _ => rfl
  refine ⟨rfl, fun previous => ?_⟩
  change Conforms _ _ _ (Share.mk held (ite _ _ _)) (ite _ _ _)
  split
  · exact hundo
  · refine conforms_bind hslot ?_
    rintro _ (_ | _) rfl
    · exact hundo
    · rfl

theorem tryFrame_runs (self : OutboxHandle) (frame : Frame) :
    HandleRuns self.maxBytes (fun a _ => a = { held := held }) { held := held }
      (self.tryFrame frame) := by
  have hruns := accounted_runs self frame (OutboxHandle.trySend (.frame frame))
    { held := held } ⟨rfl, by rintro (_ | _) <;> rfl⟩
  simp only [ite_self] at hruns
  exact hruns

theorem tryReserveFrame_runs (self : OutboxHandle) (frame : Frame) :
    HandleRuns self.maxBytes
      (fun a r => a = { held := r.toList.map ReservedFrame.size ++ held }) { held := held }
      (self.tryReserveFrame codec frame) := by
  have hencode : HandleRuns self.maxBytes (fun a _ => a = { held := held }) { held := held }
      (encodeExpect codec frame) := by
    unfold encodeExpect
    split
    · rfl
    · exact ⟨rfl, fun r => r.elim⟩
  refine conforms_bind hencode ?_
  rintro _ _ rfl
  refine conforms_bind (accounted_runs self frame _ ⟨frame.encoded.length :: held, .resting⟩
    ⟨⟨_, rfl⟩, ?_⟩) ?_
  · rintro (_ | _) <;> rfl
  · rintro _ (_ | _) rfl <;> rfl

theorem close_runs :
    HandleRuns maxBytes (fun a _ => a = { held := held }) { held := held } OutboxHandle.close := by
  refine ⟨rfl, fun sent => ?_⟩
  cases sent with
  | true => rfl
  | false => exact ⟨rfl, fun _ => rfl⟩

theorem ReservedFrame.send_runs (self : ReservedFrame) :
    HandleRuns maxBytes (fun a _ => a = { held := held }) ⟨held, .sending self.size⟩ self.send :=
  ⟨⟨self.frame, rfl, rfl⟩, fun _ => rfl⟩

theorem ReservedFrame.drop_runs (self : ReservedFrame) :
    HandleRuns maxBytes (fun a _ => a = { held := held }) ⟨held, .dropping self.size⟩ self.drop :=
  ⟨.inr (.inr rfl), fun _ => ⟨rfl, fun _ => rfl⟩⟩

theorem OutboxReceiver.recv_runs : Conforms Permits (next maxBytes)
    (fun a _ => a = { held := held }) { held := held } OutboxReceiver.recv := by
  refine ⟨rfl, fun item => ?_⟩
  cases item with
  | frame frame => exact ⟨.inr (.inl rfl), fun _ => rfl⟩
  | close => rfl

end Calls

/-! ## The system -/

/-- An outbox in use by the tasks `ι` and its writer, with what each of them has in hand, the
items that were put into the queue, and the items that were received, which are all items
out of the queue until a forced close. -/
structure OutboxRun (ι : Type) where
  outbox : Outbox
  shares : Option ι → Share
  enqueued : List Outbound
  received : List Outbound
  forced : Bool

def Share.atRest (rs : List ReservedFrame) : Share where
  held := rs.map ReservedFrame.size

/-- The calls of a task, each with the share it starts from and the reservations it leaves. -/
inductive TaskCall (codec : Codec) (self : OutboxHandle) :
    List ReservedFrame → Share → OutboxTask (List ReservedFrame) → Prop where
  | tryFrame (rs : List ReservedFrame) (frame : Frame) :
      TaskCall codec self rs (.atRest rs) (onHandle (self.tryFrame frame) >>= fun _ => pure rs)
  | tryReserveFrame (rs : List ReservedFrame) (frame : Frame) :
      TaskCall codec self rs (.atRest rs)
        (onHandle (self.tryReserveFrame codec frame) >>= fun r => pure (r.toList ++ rs))
  | send (before after : List ReservedFrame) (r : ReservedFrame) :
      TaskCall codec self (before ++ r :: after)
        ⟨(before ++ after).map ReservedFrame.size, .sending r.size⟩
        (onHandle r.send >>= fun _ => pure (before ++ after))
  | drop (before after : List ReservedFrame) (r : ReservedFrame) :
      TaskCall codec self (before ++ r :: after)
        ⟨(before ++ after).map ReservedFrame.size, .dropping r.size⟩
        (onHandle r.drop >>= fun _ => pure (before ++ after))
  | close (rs : List ReservedFrame) :
      TaskCall codec self rs (.atRest rs) (onHandle OutboxHandle.close >>= fun _ => pure rs)

namespace OutboxRun

variable {ι : Type} [DecidableEq ι]

/-- The effect of an access; the writer takes the first item of the queue or a forced close,
whichever there is. -/
inductive Exec (maxBytes : ℕ) (t : Option ι) (s : OutboxRun ι) :
    (op : OutboxAccess) → op.Res → OutboxRun ι → Prop where
  | handle {op : OutboxOp} {r : op.Res} {o : Outbox}
      (access : Outbox.access op s.outbox = some (r, o)) :
      Exec maxBytes t s (.handle op) r { s with
        outbox := o
        shares := update s.shares t ((s.shares t).next maxBytes (.handle op) r)
        enqueued := s.enqueued ++ op.queued r }
  | item {item : Outbound} {rest : List Outbound} (head : s.outbox.queue = item :: rest) :
      Exec maxBytes t s .take item { s with
        outbox.queue := rest
        shares := update s.shares t ((s.shares t).next maxBytes .take item)
        received := s.received ++ [item] }
  | forced (signal : s.outbox.forceClose = true) :
      Exec maxBytes t s .take .close { s with
        outbox.forceClose := false
        received := s.received ++ [.close]
        forced := true }

/-- A task makes any of its calls, and the writer receives. -/
inductive Enter (codec : Codec) (self : OutboxHandle) (s : OutboxRun ι) :
    Option ι → Option (List ReservedFrame) → OutboxTask (List ReservedFrame) → OutboxRun ι → Prop
    where
  | task {i : ι} {rs : List ReservedFrame} {a : Share} {p : OutboxTask (List ReservedFrame)}
      (call : TaskCall codec self rs a p) :
      Enter codec self s (some i) (some rs) p
        { s with shares := update s.shares (some i) a }
  | writer {rs : List ReservedFrame} :
      Enter codec self s none (some rs) (OutboxReceiver.recv >>= fun _ => pure rs) s

def system (ι : Type) [DecidableEq ι] (codec : Codec) (self : OutboxHandle) :
    Threads.System OutboxAccess OutboxAccess.Res (fun _ : Option ι => List ReservedFrame)
      (OutboxRun ι) where
  exec t op s r s' := Exec self.maxBytes t s op r s'
  enter t rs s p s' := Enter codec self s t rs p s'

def start (ι : Type) (maxFrames : ℕ) :
    Threads OutboxAccess OutboxAccess.Res (fun _ : Option ι => List ReservedFrame)
      (OutboxRun ι) where
  shared :=
    { outbox := ClipSync.outbox maxFrames
      shares := fun _ => {}
      enqueued := []
      received := []
      forced := false }
  threads := fun _ => some (pure [])

end OutboxRun

/-! ## One access -/

def Outbox.queuedBytes (o : Outbox) : ℕ := (o.queue.map Outbound.size).sum

theorem Outbox.queuedBytes_push (o : Outbox) (item : Outbound) :
    (o.push item).queuedBytes = o.queuedBytes + item.size := by
  simp [queuedBytes, push]

@[simp] theorem Outbox.push_pendingBytes (o : Outbox) (item : Outbound) :
    (o.push item).pendingBytes = o.pendingBytes := rfl

@[simp] theorem Outbox.length_push (o : Outbox) (item : Outbound) :
    (o.push item).queue.length = o.queue.length + 1 :=
  List.length_append

/-- How the counter and the slots are made up of the queue, the share of one task and what
the others have in hand: `others` octets, of which `within` count against the limit, and
`permits` slots. -/
structure Balance (maxBytes others within permits : ℕ) (o : Outbox) (a : Share) : Prop where
  counted : o.pendingBytes = o.queuedBytes + (a.reserved + a.tentative + a.receiving) + others
  bytes : o.queuedBytes + (a.reserved + a.admitted) + within ≤ maxBytes
  permits : o.permits = a.slots + permits
  frames : o.queue.length + o.permits ≤ o.maxFrames

section Balance

variable {maxBytes others within permits : ℕ} {o : Outbox} {a : Share}

theorem Balance.fetchAdd {held : List ℕ}
    (h : Balance maxBytes others within permits o { held := held }) (hothers : within ≤ others)
    (size : ℕ) :
    Balance maxBytes others within permits { o with pendingBytes := o.pendingBytes + size }
      (next maxBytes { held := held } (.handle (.fetchAdd size)) o.pendingBytes) := by
  obtain ⟨hcounted, hbytes, hpermits, hframes⟩ := h
  simp only [reserved, tentative, receiving, admitted] at hcounted hbytes
  by_cases hlimit : o.pendingBytes + size > maxBytes
  · simp only [next, if_pos hlimit]
    refine ⟨?_, hbytes, hpermits, hframes⟩
    simp only [Outbox.queuedBytes, reserved, tentative, receiving] at hcounted ⊢
    omega
  · simp only [next, if_neg hlimit]
    refine ⟨?_, ?_, hpermits, hframes⟩
    · simp only [Outbox.queuedBytes, reserved, tentative, receiving] at hcounted ⊢
      omega
    · -- what is counted is at least what is within the limit, and the sum was checked
      simp only [Outbox.queuedBytes, reserved, admitted] at hcounted ⊢
      omega

theorem Balance.fetchSub {size : ℕ} (h : Balance maxBytes others within permits o a)
    (hop : a.Permits (.handle (.fetchSub size))) :
    Balance maxBytes others within permits { o with pendingBytes := o.pendingBytes - size }
      (a.next maxBytes (.handle (.fetchSub size)) ()) := by
  obtain ⟨held, activity⟩ := a
  obtain ⟨hcounted, hbytes, hpermits, hframes⟩ := h
  obtain rfl | rfl | rfl : activity = .undoing size ∨ activity = .received size ∨
    activity = .dropping size := hop
  all_goals
    refine ⟨?_, ?_, hpermits, hframes⟩
    · simp only [next, Outbox.queuedBytes, reserved, tentative, receiving] at hcounted ⊢
      omega
    · simp only [next, Outbox.queuedBytes, reserved, admitted] at hbytes ⊢
      omega

theorem Outbox.lt_of_hasSlot (h : o.hasSlot = true) : o.queue.length + o.permits < o.maxFrames :=
  of_decide_eq_true (Bool.and_eq_true_iff.1 h).2

theorem Balance.trySend {item : Outbound} (h : Balance maxBytes others within permits o a)
    (hop : a.Permits (.handle (.trySend item))) :
    Balance maxBytes others within permits (if o.hasSlot then o.push item else o)
      (a.next maxBytes (.handle (.trySend item)) o.hasSlot) := by
  obtain ⟨held, activity⟩ := a
  obtain ⟨hcounted, hbytes, hpermits, hframes⟩ := h
  cases hslot : o.hasSlot with
  | false =>
    cases item with
    | frame frame =>
      obtain rfl : activity = .granted frame.encoded.length := hop
      refine ⟨hcounted, ?_, hpermits, hframes⟩
      simp only [next, Bool.false_eq_true, if_false, reserved, admitted] at hbytes ⊢
      omega
    | close => exact ⟨hcounted, hbytes, hpermits, hframes⟩
  | true =>
    have hroom := Outbox.lt_of_hasSlot hslot
    have hframes' : (o.push item).queue.length + o.permits ≤ o.maxFrames := by
      rw [Outbox.length_push]
      omega
    cases item with
    | frame frame =>
      obtain rfl : activity = .granted frame.encoded.length := hop
      refine ⟨?_, ?_, hpermits, hframes'⟩
      all_goals
        simp only [next, if_true, Outbox.push_pendingBytes, Outbox.queuedBytes_push,
          Outbound.size, reserved, tentative, receiving, admitted] at hcounted hbytes ⊢
        omega
    | close =>
      refine ⟨?_, ?_, hpermits, hframes'⟩
      all_goals
        rw [if_pos rfl, Outbox.queuedBytes_push]
        assumption

theorem Balance.tryReserveOwned (h : Balance maxBytes others within permits o a)
    (hop : a.Permits (.handle .tryReserveOwned)) :
    Balance maxBytes others within permits
      (if o.hasSlot then { o with permits := o.permits + 1 } else o)
      (a.next maxBytes (.handle .tryReserveOwned) o.hasSlot) := by
  obtain ⟨held, activity⟩ := a
  obtain ⟨hcounted, hbytes, hpermits, hframes⟩ := h
  obtain ⟨size, rfl⟩ : ∃ size, activity = .granted size := hop
  cases hslot : o.hasSlot with
  | false =>
    refine ⟨hcounted, ?_, hpermits, hframes⟩
    simp only [next, Bool.false_eq_true, if_false, reserved, admitted] at hbytes ⊢
    omega
  | true =>
    have hroom := Outbox.lt_of_hasSlot hslot
    rw [if_pos rfl]
    refine ⟨?_, ?_, ?_, ?_⟩
    all_goals
      simp only [next, Outbox.queuedBytes, reserved, tentative, receiving, admitted, slots,
        List.sum_cons, List.length_cons] at hcounted hbytes hpermits ⊢
      omega

theorem Balance.permitSend {item : Outbound} (h : Balance maxBytes others within permits o a)
    (hop : a.Permits (.handle (.permitSend item))) :
    Balance maxBytes others within permits { o.push item with permits := o.permits - 1 }
      (a.next maxBytes (.handle (.permitSend item)) ()) := by
  obtain ⟨held, activity⟩ := a
  obtain ⟨hcounted, hbytes, hpermits, hframes⟩ := h
  obtain ⟨frame, rfl, rfl⟩ :
    ∃ frame, item = .frame frame ∧ activity = .sending frame.encoded.length := hop
  have hqueue := Outbox.queuedBytes_push o (.frame frame)
  have hlength := Outbox.length_push o (.frame frame)
  refine ⟨?_, ?_, ?_, ?_⟩
  all_goals
    simp only [next, Outbox.queuedBytes, Outbound.size, Outbox.push, reserved, tentative, receiving,
      admitted, slots] at hqueue hlength hcounted hbytes hpermits ⊢
    omega

theorem Balance.permitDrop (h : Balance maxBytes others within permits o a)
    (hop : a.Permits (.handle .permitDrop)) :
    Balance maxBytes others within permits { o with permits := o.permits - 1 }
      (a.next maxBytes (.handle .permitDrop) ()) := by
  obtain ⟨held, activity⟩ := a
  obtain ⟨hcounted, hbytes, hpermits, hframes⟩ := h
  obtain rfl : activity = .freeing := hop
  refine ⟨hcounted, hbytes, ?_, ?_⟩
  all_goals
    simp only [next, slots] at hpermits ⊢
    omega

theorem Balance.access {op : OutboxOp} {r : op.Res} {o' : Outbox}
    (h : Balance maxBytes others within permits o a) (hothers : within ≤ others)
    (hop : a.Permits (.handle op)) (haccess : Outbox.access op o = some (r, o')) :
    Balance maxBytes others within permits o' (a.next maxBytes (.handle op) r) := by
  cases op with
  | fetchAdd size =>
    cases haccess
    obtain ⟨held, activity⟩ := a
    obtain rfl : activity = .resting := hop
    exact h.fetchAdd hothers size
  | fetchSub size =>
    cases haccess
    exact h.fetchSub hop
  | trySend item =>
    cases haccess
    exact h.trySend hop
  | tryReserveOwned =>
    cases haccess
    exact h.tryReserveOwned hop
  | permitSend item =>
    cases haccess
    exact h.permitSend hop
  | permitDrop =>
    cases haccess
    exact h.permitDrop hop
  | notifyOne =>
    cases haccess
    exact ⟨h.counted, h.bytes, h.permits, h.frames⟩
  | panic => exact r.elim

theorem Balance.take {item : Outbound} {rest : List Outbound}
    (h : Balance maxBytes others within permits o a) (hop : a.Permits .take)
    (hqueue : o.queue = item :: rest) :
    Balance maxBytes others within permits { o with queue := rest }
      (a.next maxBytes .take item) := by
  obtain ⟨held, activity⟩ := a
  obtain ⟨hcounted, hbytes, hpermits, hframes⟩ := h
  obtain rfl : activity = .resting := hop
  have hsize : o.queuedBytes = item.size + Outbox.queuedBytes { o with queue := rest } := by
    simp [Outbox.queuedBytes, hqueue]
  have hlength : o.queue.length = rest.length + 1 := by
    simp [hqueue]
  cases item with
  | frame frame | close =>
    refine ⟨?_, ?_, hpermits, ?_⟩
    all_goals
      simp only [next, Outbound.size, reserved, tentative, receiving, admitted]
        at hsize hcounted hbytes ⊢
      omega

end Balance

/-! ## Whole runs -/

namespace OutboxRun

variable {ι : Type} [DecidableEq ι] [Fintype ι] {maxBytes : ℕ} {s s' : OutboxRun ι}

def inHand (s : OutboxRun ι) (measure : Share → ℕ) : ℕ := ∑ t, measure (s.shares t)

def othersHave (s : OutboxRun ι) (t : Option ι) (measure : Share → ℕ) : ℕ :=
  ∑ u ∈ Finset.univ.erase t, measure (s.shares u)

/-- How the counter and the slots are made up, and what has become of the items. -/
structure Accounts (maxBytes : ℕ) (s : OutboxRun ι) : Prop where
  counted : s.outbox.pendingBytes =
    s.outbox.queuedBytes + s.inHand reserved + s.inHand tentative + s.inHand receiving
  bytes : s.outbox.queuedBytes + s.inHand reserved + s.inHand admitted ≤ maxBytes
  permits : s.outbox.permits = s.inHand slots
  frames : s.outbox.queue.length + s.outbox.permits ≤ s.outbox.maxFrames
  order : s.forced = false → s.enqueued = s.received ++ s.outbox.queue

theorem inHand_eq (s : OutboxRun ι) (t : Option ι) (measure : Share → ℕ) :
    s.inHand measure = measure (s.shares t) + s.othersHave t measure :=
  (Finset.add_sum_erase _ (fun u => measure (s.shares u)) (Finset.mem_univ t)).symm

variable {t : Option ι} {op : OutboxAccess} {r : op.Res}

theorem othersHave_update {a : Share} (h : s'.shares = update s.shares t a)
    (measure : Share → ℕ) : s'.othersHave t measure = s.othersHave t measure := by
  refine Finset.sum_congr rfl fun u hu => ?_
  rw [h, update_of_ne (Finset.ne_of_mem_erase hu)]

theorem othersHave_admitted_le (s : OutboxRun ι) (t : Option ι) :
    s.othersHave t admitted ≤ s.othersHave t tentative := by
  refine Finset.sum_le_sum fun u _ => ?_
  obtain ⟨held, activity⟩ := s.shares u
  cases activity <;> simp [admitted, tentative]

def BalanceAt (maxBytes : ℕ) (s : OutboxRun ι) (t : Option ι) : Outbox → Share → Prop :=
  Balance maxBytes
    (s.othersHave t reserved + s.othersHave t tentative + s.othersHave t receiving)
    (s.othersHave t reserved + s.othersHave t admitted) (s.othersHave t slots)

theorem Accounts.balance (h : Accounts maxBytes s) (t : Option ι) :
    BalanceAt maxBytes s t s.outbox (s.shares t) := by
  obtain ⟨hcounted, hbytes, hpermits, hframes, -⟩ := h
  simp only [s.inHand_eq t] at hcounted hbytes hpermits
  exact ⟨by omega, by omega, hpermits, hframes⟩

theorem Accounts.of_balance {a : Share} (hshares : s'.shares = update s.shares t a)
    (h : BalanceAt maxBytes s t s'.outbox a)
    (horder : s'.forced = false → s'.enqueued = s'.received ++ s'.outbox.queue) :
    Accounts maxBytes s' := by
  have hown : s'.shares t = a := by
    rw [hshares, update_self]
  have hhand : ∀ measure, s'.inHand measure = measure a + s.othersHave t measure := by
    intro measure
    rw [s'.inHand_eq t, hown, othersHave_update hshares]
  obtain ⟨hcounted, hbytes, hpermits, hframes⟩ := h
  refine ⟨?_, ?_, ?_, hframes, horder⟩
  · rw [hhand, hhand, hhand]
    omega
  · rw [hhand, hhand]
    omega
  · rw [hhand]
    exact hpermits

/-- The queue grows by what an access puts into it. -/
theorem queue_of_access {op : OutboxOp} {r : op.Res} {o o' : Outbox}
    (h : Outbox.access op o = some (r, o')) : o'.queue = o.queue ++ op.queued r := by
  cases op with
  | trySend item =>
    cases h
    cases hslot : o.hasSlot with
    | true => rfl
    | false => exact (List.append_nil _).symm
  | tryReserveOwned =>
    cases h
    cases hslot : o.hasSlot with
    | true => exact (List.append_nil _).symm
    | false => exact (List.append_nil _).symm
  | permitSend item =>
    cases h
    rfl
  | panic => exact r.elim
  | _ =>
    cases h
    exact (List.append_nil _).symm

theorem Accounts.exec (h : Accounts maxBytes s) (hop : (s.shares t).Permits op)
    (hexec : Exec maxBytes t s op r s') : Accounts maxBytes s' := by
  have hbalance := h.balance t
  cases hexec with
  | handle haccess =>
    refine .of_balance rfl (hbalance.access ?_ hop haccess) fun hforced => ?_
    · exact Nat.add_le_add_left (s.othersHave_admitted_le t) _ |>.trans (Nat.le_add_right _ _)
    · dsimp only at hforced ⊢
      rw [queue_of_access haccess, h.order hforced, List.append_assoc]
  | item head =>
    refine .of_balance rfl (hbalance.take hop head) fun hforced => ?_
    dsimp only at hforced ⊢
    rw [h.order hforced, head, List.append_assoc]
    rfl
  | forced signal =>
    obtain ⟨hcounted, hbytes, hpermits, hframes, -⟩ := h
    exact ⟨hcounted, hbytes, hpermits, hframes, by rintro ⟨⟩⟩

omit [Fintype ι] in
theorem Exec.shares (h : Exec maxBytes t s op r s') :
    s'.shares = update s.shares t ((s.shares t).next maxBytes op r) := by
  cases h with
  | forced signal => exact (update_eq_self t s.shares).symm
  | _ => rfl

omit [Fintype ι] in
theorem Exec.maxFrames (h : Exec maxBytes t s op r s') :
    s'.outbox.maxFrames = s.outbox.maxFrames := by
  cases h with
  | @handle op r o haccess =>
    cases op with
    | panic => exact r.elim
    | trySend item | tryReserveOwned =>
      cases haccess
      cases hslot : s.outbox.hasSlot <;> rfl
    | _ =>
      cases haccess
      rfl
  | _ => rfl

omit [DecidableEq ι] in
theorem inHand_eq_zero (h : ∀ t, s.shares t = .atRest []) {measure : Share → ℕ}
    (hmeasure : measure (.atRest []) = 0) : s.inHand measure = 0 := by
  refine Finset.sum_eq_zero fun t _ => ?_
  rw [h t]
  exact hmeasure

theorem Accounts.fetchSub_le (h : Accounts maxBytes s) {size : ℕ}
    (hop : (s.shares t).Permits (.handle (.fetchSub size))) : size ≤ s.outbox.pendingBytes := by
  have hcounted := (h.balance t).counted
  rcases hop with hactivity | hactivity | hactivity
  all_goals
    simp only [reserved, tentative, receiving, hactivity] at hcounted
    omega

def Follows (maxBytes : ℕ) (t : Option ι) (p : OutboxTask (List ReservedFrame))
    (s : OutboxRun ι) : Prop :=
  Conforms Permits (next maxBytes) (fun a rs => a = .atRest rs) (s.shares t) p

end OutboxRun

section Invariant

variable {codec : Codec} {self : OutboxHandle}

variable {rs : List ReservedFrame} {p : OutboxTask (List ReservedFrame)}

theorem TaskCall.runs {a : Share} (h : TaskCall codec self rs a p) :
    Conforms Permits (next self.maxBytes) (fun a rs => a = .atRest rs) a p := by
  cases h with
  | tryFrame _ frame =>
    exact conforms_bind (tryFrame_runs self frame).onHandle fun _ _ hb => hb
  | tryReserveFrame _ frame =>
    refine conforms_bind (tryReserveFrame_runs self frame).onHandle fun b r hb => ?_
    rw [hb, ← List.map_append]
    rfl
  | send before after r => exact conforms_bind r.send_runs.onHandle fun _ _ hb => hb
  | drop before after r => exact conforms_bind r.drop_runs.onHandle fun _ _ hb => hb
  | close _ => exact conforms_bind close_runs.onHandle fun _ _ hb => hb

theorem TaskCall.balance {a : Share} (h : TaskCall codec self rs a p)
    {maxBytes others within permits : ℕ} {o : Outbox}
    (hbalance : Balance maxBytes others within permits o (.atRest rs)) :
    Balance maxBytes others within permits o a := by
  obtain ⟨hcounted, hbytes, hpermits, hframes⟩ := hbalance
  cases h with
  | send before after r | drop before after r =>
    refine ⟨?_, ?_, ?_, hframes⟩
    all_goals
      simp only [Share.atRest, reserved, tentative, receiving, admitted, slots, List.map_append,
        List.map_cons, List.sum_append, List.sum_cons, List.length_append, List.length_cons]
        at hcounted hbytes hpermits ⊢
      omega
  | _ => exact ⟨hcounted, hbytes, hpermits, hframes⟩

namespace OutboxRun

variable {ι : Type} [DecidableEq ι] [Fintype ι]

theorem invariant (maxFrames : ℕ) : Threads.Invariant (system ι codec self)
    (fun s => Accounts self.maxBytes s ∧ s.outbox.maxFrames = maxFrames)
    (Follows self.maxBytes) where
  enter := by
    rintro t rs s p s' ⟨haccounts, hmax⟩ hrest henter
    cases henter with
    | @task i rs a p hcall =>
      have hown : s.shares (some i) = .atRest rs := hrest rs rfl
      have hbalance := haccounts.balance (some i)
      rw [hown] at hbalance
      refine ⟨⟨.of_balance rfl (hcall.balance hbalance) haccounts.order, hmax⟩, ?_,
        fun u hu q hq => ?_⟩
      · simp only [Follows, update_self]
        exact hcall.runs
      · simp only [Follows, update_of_ne hu]
        exact hq
    | @writer rs =>
      have hown : s.shares none = .atRest rs := hrest rs rfl
      refine ⟨⟨haccounts, hmax⟩, ?_, fun u _ q hq => hq⟩
      rw [Follows, hown]
      exact conforms_bind OutboxReceiver.recv_runs fun _ _ hb => hb
  access := by
    rintro t op k s r s' ⟨haccounts, hmax⟩ hfollows hexec
    have hshares := hexec.shares
    refine ⟨⟨haccounts.exec hfollows.1 hexec, hexec.maxFrames.trans hmax⟩, ?_,
      fun u hu q hq => ?_⟩
    · rw [Follows, hshares, update_self]
      exact hfollows.2 r
    · rw [Follows, hshares, update_of_ne hu]
      exact hq

/-- In every interleaving of the calls of any number of tasks and the receptions of the
writer, the counter is made up of the frames in the queue, the reservations, the additions
that are not settled and the frame that the writer has taken out but not yet released. It is
never lowered by more than it stands at, and is back at zero when the queue is empty and
nobody has anything in hand. The octets and the slots of the queue and the reservations stay
within their bounds, and until a forced close the items are received once each, in the order
in which they were put into the queue. -/
theorem outbox_accounted {maxFrames : ℕ}
    {x : Threads OutboxAccess OutboxAccess.Res (fun _ : Option ι => List ReservedFrame)
      (OutboxRun ι)}
    (hrun : Threads.Reaches (system ι codec self) (start ι maxFrames) x) :
    (x.shared.outbox.pendingBytes = x.shared.outbox.queuedBytes + x.shared.inHand reserved +
        x.shared.inHand tentative + x.shared.inHand receiving) ∧
      (∀ t size k, x.threads t = some (call (.handle (.fetchSub size)) k) →
        size ≤ x.shared.outbox.pendingBytes) ∧
      (x.shared.outbox.queue = [] → (∀ t, x.threads t = some (done [])) →
        x.shared.outbox.pendingBytes = 0) ∧
      x.shared.outbox.queuedBytes + x.shared.inHand reserved ≤ self.maxBytes ∧
      x.shared.outbox.queue.length + x.shared.inHand slots ≤ maxFrames ∧
      (x.shared.forced = false →
        x.shared.enqueued = x.shared.received ++ x.shared.outbox.queue) ∧
      ∀ t rs, x.threads t = some (done rs) → x.shared.shares t = .atRest rs := by
  have hstart : Threads.Holds
      (fun s => Accounts self.maxBytes s ∧ s.outbox.maxFrames = maxFrames)
      (Follows self.maxBytes) (start ι maxFrames) := by
    have hzero : ∀ {measure : Share → ℕ}, measure (.atRest []) = 0 →
        (start ι maxFrames).shared.inHand measure = 0 :=
      inHand_eq_zero fun _ => rfl
    refine ⟨⟨⟨?_, ?_, ?_, Nat.zero_le _, fun _ => rfl⟩, rfl⟩, ?_⟩
    · rw [hzero rfl, hzero rfl, hzero rfl]
      rfl
    · rw [hzero rfl, hzero rfl]
      exact Nat.zero_le _
    · rw [hzero rfl]
      rfl
    · rintro t p ⟨⟩
      exact rfl
  obtain ⟨⟨haccounts, hmax⟩, hfollows⟩ := (invariant maxFrames).reaches hstart hrun
  have hrest : ∀ t rs, x.threads t = some (done rs) → x.shared.shares t = .atRest rs :=
    fun t rs hdone => hfollows t _ hdone
  refine ⟨haccounts.counted, fun t size k hcall => ?_, fun hqueue hdone => ?_, ?_, ?_,
    haccounts.order, hrest⟩
  · exact haccounts.fetchSub_le (hfollows t _ hcall).1
  · have hshares : ∀ t, x.shared.shares t = .atRest [] := fun t => hrest t [] (hdone t)
    rw [haccounts.counted, inHand_eq_zero hshares rfl, inHand_eq_zero hshares rfl,
      inHand_eq_zero hshares rfl, Outbox.queuedBytes, hqueue]
    rfl
  · exact (Nat.le_add_right _ _).trans haccounts.bytes
  · rw [← haccounts.permits, ← hmax]
    exact haccounts.frames

end OutboxRun

end Invariant

/-! ## A reception in progress -/

namespace OutboxRun

theorem enter_of_atRest {ι : Type} [DecidableEq ι] {codec : Codec} {self : OutboxHandle}
    {s : OutboxRun ι} {i : ι} {rs : List ReservedFrame} {p : OutboxTask (List ReservedFrame)}
    (hcall : TaskCall codec self rs (.atRest rs) p) (hrest : s.shares (some i) = .atRest rs) :
    Enter codec self s (some i) (some rs) p s := by
  have henter : Enter codec self s (some i) (some rs) p
      { s with shares := update s.shares (some i) (.atRest rs) } := .task hcall
  rwa [← hrest, update_eq_self] at henter

section Taken

variable (codec : Codec) (frame : Frame)

def single : OutboxHandle := ⟨0, frame.encoded.length⟩

theorem exists_tryFrame_steps : ∃ s, Steps ((system Unit codec (single frame)).exec (some ()))
    (onHandle ((single frame).tryFrame frame) >>= fun _ => pure [])
    (start Unit 1).shared (done ([] : List ReservedFrame)) s ∧
      s.outbox.pendingBytes = frame.encoded.length ∧ s.outbox.queue = [.frame frame] ∧
      ∀ t, s.shares t = .atRest [] := by
  have hlimit : ¬ 0 + frame.encoded.length > frame.encoded.length := by omega
  obtain ⟨s₁, hadd, hs₁⟩ : ∃ s₁, Exec frame.encoded.length (some ()) (start Unit 1).shared
      (.handle (.fetchAdd frame.encoded.length)) 0 s₁ ∧
      s₁.outbox = { ClipSync.outbox 1 with pendingBytes := 0 + frame.encoded.length } :=
    ⟨_, .handle rfl, rfl⟩
  obtain ⟨s₂, hsend, hs₂⟩ : ∃ s₂, Exec frame.encoded.length (some ()) s₁
      (.handle (.trySend (.frame frame))) true s₂ ∧
      s₂.outbox = { ClipSync.outbox 1 with
        pendingBytes := 0 + frame.encoded.length
        queue := [.frame frame] } := by
    refine ⟨_, .handle ?_, rfl⟩
    rw [hs₁]
    rfl
  refine ⟨s₂, .call 0 hadd ?_, ?_, ?_, fun t => ?_⟩
  · change Steps _ (lift _ (ite (0 + frame.encoded.length > frame.encoded.length) _ _) >>= _) _ _ _
    rw [if_neg hlimit]
    exact .call true hsend (.refl _ _)
  · rw [hs₂]
    exact Nat.zero_add _
  · rw [hs₂]
  · rw [hsend.shares, hadd.shares]
    cases t with
    | none => rfl
    | some u => rfl

theorem exists_taken :
    ∃ x, Threads.Reaches (system Unit codec (single frame)) (start Unit 1) x ∧
      x.shared.outbox.pendingBytes = frame.encoded.length ∧ x.shared.outbox.queue = [] ∧
      x.shared.inHand reserved = 0 ∧ x.shared.inHand tentative = 0 := by
  obtain ⟨s, hsteps, hpending, hqueue, hshares⟩ := exists_tryFrame_steps codec frame
  have hsend : Threads.Reaches (system Unit codec (single frame)) (start Unit 1)
      ((start Unit 1).set (some ()) (done []) s) := by
    exact Threads.reaches_again rfl (enter_of_atRest (.tryFrame [] frame) rfl) hsteps
  obtain ⟨s', htake, hs'⟩ : ∃ s', Exec frame.encoded.length none s .take (.frame frame) s' ∧
      s'.outbox = { s.outbox with queue := [] } :=
    ⟨_, .item hqueue, rfl⟩
  have hrecv : Threads.Reaches (system Unit codec (single frame))
      ((start Unit 1).set (some ()) (done []) s)
      (((start Unit 1).set (some ()) (done []) s).set none
        (onHandle (OutboxHandle.fetchSub frame.encoded.length) >>= fun _ => pure []) s') :=
    Threads.reaches_again rfl .writer (.call (.frame frame) htake (.refl _ _))
  have hhand : ∀ {measure : Share → ℕ}, measure (.atRest []) = 0 →
      measure ⟨[], .received frame.encoded.length⟩ = 0 → s'.inHand measure = 0 := by
    intro measure hrest hreceived
    refine Finset.sum_eq_zero fun t _ => ?_
    rw [htake.shares, hshares none]
    cases t with
    | none => exact hreceived
    | some u =>
      rw [update_of_ne (by simp), hshares (some u)]
      exact hrest
  refine ⟨_, hsend.trans hrecv, ?_, ?_, hhand rfl rfl, hhand rfl rfl⟩
  · rw [Threads.set_shared, hs']
    exact hpending
  · rw [Threads.set_shared, hs']

end Taken

theorem outbox_accounted_sample :
    ∃ x, Threads.Reaches (system Unit (.standard (fun _ => "") id) (single .mailboxEmpty))
        (start Unit 1) x ∧
      x.shared.inHand receiving = Frame.mailboxEmpty.encoded.length := by
  obtain ⟨x, hrun, hpending, hqueue, hreserved, htentative⟩ :=
    exists_taken (.standard (fun _ => "") id) .mailboxEmpty
  have hcounted := (outbox_accounted hrun).1
  refine ⟨x, hrun, ?_⟩
  rw [hpending, hreserved, htentative, Outbox.queuedBytes, hqueue] at hcounted
  simpa using hcounted.symm

/-- Between the reception of a frame and its release the counter stands above the frames in
the queue, the reservations and the additions that are not settled. -/
theorem pendingBytes_while_receiving :
    ∃ x, Threads.Reaches (system Unit (.standard (fun _ => "") id) (single .mailboxEmpty))
        (start Unit 1) x ∧
      x.shared.outbox.pendingBytes ≠ x.shared.outbox.queuedBytes + x.shared.inHand reserved +
        x.shared.inHand tentative := by
  obtain ⟨x, hrun, hpending, hqueue, hreserved, htentative⟩ :=
    exists_taken (.standard (fun _ => "") id) .mailboxEmpty
  refine ⟨x, hrun, ?_⟩
  rw [hpending, hreserved, htentative, Outbox.queuedBytes, hqueue, Frame.encoded]
  decide +kernel

end OutboxRun

end ClipSync
