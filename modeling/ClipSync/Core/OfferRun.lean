import ClipSync.Core.HandleRun

/-!
# What becomes of an offer

A call that offers a pairing spawns the task that waits for the peer, and stores the offer
in the phase after that. The task looks for its own offer in the phase: if it comes before
the offer is stored, its outcome is lost and the offer stays in the phase for good. If the
offer has been cancelled, a task that has its peer by then announces it all the same.

In the runs in which a task looks at the phase only when its offer has been stored, and
with a peer only while the offer stands, an offer is in the phase no longer than its task
runs, and every task ends as it should.
-/

namespace ClipSync

open Lib Program CoreHandle Function

/-! ## What the threads have done -/

def PairingPhase.offer : PairingPhase → Option ℕ
  | .offering _ wait => some wait
  | _ => none

def HandleState.offer : HandleState → Option ℕ
  | .active running => running.phase.offer
  | _ => none

/-- What a thread has done: the outcome it has waited for, the accesses to the state with
what was found and what was left, and the statuses it has reported. -/
structure ThreadLog where
  outcome : Option (Except String PendingConfirmation) := none
  changes : List (HandleState × HandleState) := []
  emitted : List CoreStatus := []

namespace ThreadLog

def next (a : ThreadLog) : (op : HandleOp) → op.Res → ThreadLog
  | .state update, found => { a with changes := a.changes ++ [(found, update found)] }
  | .emit status, _ => { a with emitted := a.emitted ++ [status] }
  | .waitPeer, r => { a with outcome := some r }
  | _, _ => a

/-- The phase is `Busy` on account of the thread. -/
def owes (a : ThreadLog) : Bool :=
  a.changes.foldl (fun owed c => if c.2 = c.1 then owed else c.2.busy) false

def Stored (a : ThreadLog) (n : ℕ) : Prop := ∃ c ∈ a.changes, c.2.offer = some n

def SetReady (a : ThreadLog) (n : ℕ) : Prop :=
  ∃ c ∈ a.changes, c.1.offer = some n ∧ c.2.ready = some n

def SetUnpaired (a : ThreadLog) (n : ℕ) : Prop :=
  ∃ c ∈ a.changes, c.1.offer = some n ∧ ∃ dispatcher, c.2 = .active ⟨dispatcher, .unpaired⟩

end ThreadLog

/-- The handle with what its threads have done. -/
structure OfferWorld where
  handle : HandleWorld
  logs : HandleThread → ThreadLog

def offerSystem (crates : HandleCrates) (calls : ℕ → HandleCall) :
    Threads.System HandleOp HandleOp.Res (HandleThread.Value calls) OfferWorld where
  exec t op w r w' := HandleWorld.exec op w.handle r w'.handle ∧
    w'.logs = Function.update w.logs t ((w.logs t).next op r)
  enter t a w p w' := (handleSystem crates calls).enter t a w.handle p w'.handle ∧ w'.logs = w.logs

abbrev OfferThreads (calls : ℕ → HandleCall) :=
  Threads HandleOp HandleOp.Res (HandleThread.Value calls) OfferWorld

def OfferThreads.start (calls : ℕ → HandleCall) : OfferThreads calls where
  shared := ⟨(HandleThreads.start calls).shared, fun _ => {}⟩
  threads _ := none

def OfferThreads.Quiet {calls : ℕ → HandleCall} (x : OfferThreads calls) : Prop :=
  ∀ n p, x.threads (.call n) = some p → ∃ value, p = done value

namespace OfferWorld

def Stored (w : OfferWorld) (n : ℕ) : Prop := (w.logs (.call n)).Stored n

def Cancelled (calls : ℕ → HandleCall) (w : OfferWorld) (n : ℕ) : Prop :=
  ∃ m, calls m = .pairCancel ∧
    ∃ c ∈ (w.logs (.call m)).changes, c.1.offer = some n ∧ c.2.offer = none

/-- A task looks at the phase when its offer has been stored, and with a peer while the
offer stands. -/
def Timely (t : HandleThread) (op : HandleOp) (w : OfferWorld) : Prop :=
  ∀ n update, t = .wait n → op = .state update → w.Stored n ∧
    ∀ channel, (w.logs t).outcome = some (.ok channel) → w.handle.state.offer = some n

end OfferWorld

def HandleCall.IsOfferCall : HandleCall → Prop
  | .pairBegin _ | .pairCancel | .pairConfirm _ => True
  | _ => False

/-! ## The tasks -/

section Tasks

variable (crates : HandleCrates) (n : ℕ)

def settledState (r : Except String PendingConfirmation) (found : HandleState) : HandleState :=
  match found with
  | .active running =>
    if running.phase.offer = some n then
      match r with
      | .ok channel => .active { running with phase := .sasReady (channel.sas crates.prim) n }
      | .error _ => .active { running with phase := .unpaired }
    else found
  | _ => found

def announcement (r : Except String PendingConfirmation) (found : HandleState) :
    Option CoreStatus :=
  match r, found with
  | .ok _, .active _ => some .sasReady
  | .error message, _ => if found.offer = some n then some (.error message) else none
  | _, _ => none

def report : Option CoreStatus → HandleProgram Unit
  | some status => CoreHandle.emit status
  | none => return ()

def TaskPermits (a : ThreadLog) : HandleOp → Prop
  | .state update => a.changes = [] ∧ a.emitted = [] ∧
      ∃ r, a.outcome = some r ∧ ∀ found, update found = settledState crates n r found
  | .emit status => a.emitted = [] ∧ ∃ r found, a.outcome = some r ∧
      a.changes = [(found, settledState crates n r found)] ∧ announcement n r found = some status
  | .waitPeer => a.outcome = none ∧ a.changes = [] ∧ a.emitted = []
  | _ => True

def TaskEnds (a : ThreadLog) (_ : Unit) : Prop :=
  ∃ r found, a.outcome = some r ∧ a.changes = [(found, settledState crates n r found)] ∧
    a.emitted = (announcement n r found).toList

variable {r : Except String PendingConfirmation}

theorem settledState_of_ne {found : HandleState} (h : found.offer ≠ some n) :
    settledState crates n r found = found := by
  cases found with
  | active running => exact if_neg h
  | _ => rfl

theorem withActive_conforms {R : Type} {f : Active → Except CoreError R × Active}
    {k : Except CoreError R → HandleProgram Unit} {a : ThreadLog} (houtcome : a.outcome = some r)
    (hchanges : a.changes = []) (hemitted : a.emitted = [])
    (hupdate : ∀ active, .active (f active).2 = settledState crates n r (.active active))
    (hreport : ∀ active, k (f active).1 = report (announcement n r (.active active)))
    (hbusy : k (.error .busy) = done ()) (hshutdown : k (.error .shutdown) = done ()) :
    Conforms (TaskPermits crates n) ThreadLog.next (TaskEnds crates n) a (withActive f >>= k) := by
  have hsettled : ∀ found, onActive (fun active => (f active).2) found =
      settledState crates n r found := by
    intro found
    cases found with
    | active active => exact hupdate active
    | _ => rfl
  have hlog : ∀ found, (a.next (.state (onActive fun active => (f active).2)) found).changes =
      [(found, settledState crates n r found)] := by
    intro found
    rw [← hsettled]
    exact congrArg (· ++ [(found, onActive (fun active => (f active).2) found)]) hchanges
  have hsilent : ∀ found, announcement n r found = none → TaskEnds crates n
      (a.next (.state (onActive fun active => (f active).2)) found) () := by
    intro found hnone
    refine ⟨r, found, houtcome, hlog found, ?_⟩
    rw [hnone]
    exact hemitted
  refine ⟨⟨hchanges, hemitted, r, houtcome, hsettled⟩, fun found => ?_⟩
  cases found with
  | active active =>
    change Conforms _ _ _ _ (k (f active).1)
    rw [hreport]
    cases hstatus : announcement n r (.active active) with
    | none => exact hsilent (.active active) hstatus
    | some status =>
      refine ⟨⟨hemitted, r, .active active, houtcome, hlog _, hstatus⟩, fun _ => ?_⟩
      refine ⟨r, .active active, houtcome, hlog _, ?_⟩
      rw [hstatus]
      exact congrArg (· ++ [status]) hemitted
  | transitioning =>
    change Conforms _ _ _ _ (k (.error .busy))
    rw [hbusy]
    refine hsilent .transitioning ?_
    cases r <;> rfl
  | shutdown =>
    change Conforms _ _ _ _ (k (.error .shutdown))
    rw [hshutdown]
    refine hsilent .shutdown ?_
    cases r <;> rfl

theorem waitForPeer_conforms :
    Conforms (TaskPermits crates n) ThreadLog.next (TaskEnds crates n) {}
      (waitForPeer crates n) := by
  refine ⟨⟨rfl, rfl, rfl⟩, ?_⟩
  rintro (message | channel)
  · refine withActive_conforms crates n rfl rfl rfl ?_ ?_ rfl rfl
    · rintro ⟨dispatcher, phase⟩
      cases phase with
      | offering qrJson slot =>
        by_cases hslot : slot = n <;> simp [settledState, PairingPhase.offer, hslot]
      | _ => rfl
    · rintro ⟨dispatcher, phase⟩
      cases phase with
      | offering qrJson slot =>
        by_cases hslot : slot = n <;>
          simp [report, announcement, HandleState.offer, PairingPhase.offer, hslot]
      | _ => rfl
  · refine ⟨trivial, fun _ => ?_⟩
    refine withActive_conforms crates n rfl rfl rfl ?_ ?_ rfl rfl
    · rintro ⟨dispatcher, phase⟩
      cases phase with
      | offering qrJson slot =>
        by_cases hslot : slot = n <;> simp [settledState, PairingPhase.offer, hslot]
      | _ => rfl
    · rintro ⟨dispatcher, phase⟩
      cases phase with
      | offering qrJson slot =>
        by_cases hslot : slot = n <;> simp [report, announcement, hslot]
      | _ => rfl

end Tasks

/-! ## The calls -/

section Calls

variable (calls : ℕ → HandleCall) (n : ℕ)

/-- What a call may make of a running handle: a phase that is not `Busy` is changed without
its offer, the phase that is `Busy` on account of the call is set, with the offer of the call
at most once, and an offer is taken out by a call to cancel. -/
inductive CallChange (a : ThreadLog) (running : Active) : Active → Prop where
  | kept : CallChange a running running
  | taken {phase : PairingPhase} (free : running.phase ≠ .busy)
      (offer : phase.offer = running.phase.offer) :
      CallChange a running { running with phase := phase }
  | set {phase : PairingPhase} (owes : a.owes = true) (free : phase ≠ .busy)
      (offer : ∀ m, phase.offer = some m → m = n ∧ ¬ a.Stored n) :
      CallChange a running { running with phase := phase }
  | cancelled (cancel : calls n = .pairCancel) (free : running.phase ≠ .busy) :
      CallChange a running { running with phase := .unpaired }

def CallPermits (a : ThreadLog) : HandleOp → Prop
  | .state update => ∀ running, ∃ left, update (.active running) = .active left ∧
      CallChange calls n a running left
  | _ => True

abbrev CallRuns {α : Type} (a : ThreadLog) (p : HandleProgram α) : Prop :=
  Conforms (CallPermits calls n) ThreadLog.next (fun _ _ => True) a p

variable {calls n} {crates : HandleCrates} {a : ThreadLog} {c c' : CallPoint} {op : HandleOp}

theorem ThreadLog.owes_next (a : ThreadLog) (update : HandleState → HandleState)
    (found : HandleState) : (a.next (.state update) found).owes =
      if update found = found then a.owes else (update found).busy := by
  simp [owes, next]

theorem ThreadLog.owes_congr {a b : ThreadLog} (h : b.changes = a.changes) : b.owes = a.owes := by
  rw [owes, owes, h]

theorem changes_next (hop : op.IsRemote) (r : op.Res) : (a.next op r).changes = a.changes := by
  cases op <;> first | rfl | exact hop.elim

/-- What a call has done at the points it can be at. -/
def CallPoint.Logs (n : ℕ) : CallPoint → ThreadLog → Prop
  | .idle, a | .loaded _, a => a.changes = []
  | .busy _, a | .held _, a => a.owes = true ∧ ¬ a.Stored n
  | .filled, a | .connecting .., a => a.owes = true
  | .taken, _ | .spawned _, _ => False
  | _, _ => True

theorem CallPoint.Logs.congr {b : ThreadLog} (h : c.Logs n a) (hb : b.changes = a.changes) :
    c.Logs n b := by
  have howes : b.owes = a.owes := ThreadLog.owes_congr hb
  have hstored : b.Stored n ↔ a.Stored n := by
    rw [ThreadLog.Stored, ThreadLog.Stored, hb]
  cases c with
  | busy | held => exact ⟨howes.trans h.1, fun hb => h.2 (hstored.1 hb)⟩
  | filled | connecting => exact howes.trans h
  | idle | loaded => exact hb.trans h
  | taken | spawned => exact h.elim
  | _ => trivial

theorem CallPoint.Moves.change (hcall : (calls n).IsOfferCall) {running : Active}
    {left : HandleState} (h : c.Moves crates calls (.call n) (.active running) left c')
    (ha : c.Logs n a) : ∃ active, left = .active active ∧ CallChange calls n a running active := by
  cases h with
  | kept | missed | read => exact ⟨running, rfl, .kept⟩
  | begun | started | confirmed | loaded => exact ⟨_, rfl, .taken (by simp) rfl⟩
  | cancelled ht hcancel free =>
    cases ht
    exact ⟨_, rfl, .cancelled hcancel free⟩
  | set sets =>
    cases sets with
    | aborted | restored => exact ⟨_, rfl, .set ha.1 (by simp) (by rintro _ ⟨⟩)⟩
    | offered ht =>
      cases ht
      refine ⟨_, rfl, .set ha.1 (by simp) ?_⟩
      rintro _ ⟨⟩
      exact ⟨rfl, ha.2⟩
    | readied | connected => exact ⟨_, rfl, .set ha (by simp) (by rintro _ ⟨⟩)⟩
  | taken ht hreset =>
    cases ht
    obtain hreset | hreset := hreset <;> exact (hreset ▸ hcall).elim
  | installed | closed => exact ha.elim
  | announced ht | dropped ht => cases ht

theorem ThreadLog.taken {found : HandleState} {update : HandleState → HandleState}
    {dispatcher : ℕ} (ha : a.changes = []) (hleft : update found = .active ⟨dispatcher, .busy⟩)
    (hfound : found ≠ .active ⟨dispatcher, .busy⟩) :
    (a.next (.state update) found).owes = true ∧ ¬ (a.next (.state update) found).Stored n := by
  rw [ThreadLog.owes_next, hleft, if_neg hfound.symm]
  refine ⟨rfl, ?_⟩
  rintro ⟨e, he, hoffer⟩
  simp only [next, ha, List.nil_append, List.mem_singleton] at he
  rw [he, hleft] at hoffer
  cases hoffer

theorem CallPoint.Moves.logs (hcall : (calls n).IsOfferCall) {found : HandleState}
    {update : HandleState → HandleState} {left : HandleState} (hleft : update found = left)
    (h : c.Moves crates calls (.call n) found left c') (ha : c.Logs n a) :
    c'.Logs n (a.next (.state update) found) := by
  cases h with
  | read => exact (ThreadLog.owes_next a update _).trans ((if_pos hleft).trans ha)
  | begun | started | confirmed => exact ThreadLog.taken ha hleft (by simp)
  | taken ht hreset =>
    cases ht
    obtain hreset | hreset := hreset <;> exact (hreset ▸ hcall).elim
  | _ => trivial

theorem CallPoint.Flow.callPermits (hcall : (calls n).IsOfferCall) (ha : c.Logs n a)
    (h : ∀ r, ∃ c', c.Flow crates calls (.call n) op r c') : CallPermits calls n a op := by
  cases op with
  | state update =>
    intro running
    obtain ⟨c', hflow⟩ := h (.active running)
    cases hflow with
    | state moves => exact moves.change hcall ha
    | plain hop | fails hop => exact hop.elim
  | _ => trivial

theorem CallPoint.Flow.logs (hcall : (calls n).IsOfferCall) {r : op.Res} (ha : c.Logs n a)
    (h : c.Flow crates calls (.call n) op r c') : c'.Logs n (a.next op r) := by
  cases h with
  | state moves => exact moves.logs hcall rfl ha
  | plain hop =>
    refine ha.congr (changes_next ?_ r)
    cases op <;> trivial
  | load r => cases r <;> first | exact ha | trivial
  | join r | confirm r =>
    cases r with
    | error e => exact ha
    | ok record => exact ha.1
  | connect r | take r => cases r <;> first | exact ha | trivial
  | spawnWait => exact ha
  | fill => exact ha.1
  | reset | spawn => exact ha.elim
  | _ => trivial

/-- The calls that pair change the phase only in these ways. -/
theorem callRuns_program (crates : HandleCrates) (hcall : (calls n).IsOfferCall) :
    CallRuns calls n {} ((calls n).program crates n) :=
  (runs_program crates rfl).conforms (CallPoint.Logs n) rfl (CallPoint.Flow.callPermits hcall)
    (CallPoint.Flow.logs hcall) fun _ _ => trivial

end Calls

/-! ## All threads together -/

section Runs

variable (calls : ℕ → HandleCall)

/-- At most one call owes, and the phase is `Busy` then. An offer in the phase has been
stored by its call and not been looked for by its task yet; one that was stored is in the
phase, or its task has found it, or it was cancelled. -/
structure Offers (w : OfferWorld) : Prop where
  running : ∃ running, w.handle.state = .active running
  busy : ∀ m, (w.logs (.call m)).owes = true → w.handle.state.busy = true
  unique : ∀ m m', (w.logs (.call m)).owes = true → (w.logs (.call m')).owes = true → m = m'
  stored : ∀ n, w.handle.state.offer = some n → w.Stored n
  looked : ∀ n, (w.logs (.wait n)).changes ≠ [] → w.Stored n ∧ w.handle.state.offer ≠ some n
  fate : ∀ n, w.Stored n → w.handle.state.offer = some n ∨
    (∃ c ∈ (w.logs (.wait n)).changes, c.1.offer = some n) ∨ w.Cancelled calls n
  found : ∀ n, ∀ c ∈ (w.logs (.wait n)).changes, (∃ running, c.1 = .active running) ∧
    ∀ channel, (w.logs (.wait n)).outcome = some (.ok channel) → c.1.offer = some n
  reported : ∀ n, .sasReady ∈ (w.logs (.wait n)).emitted → (w.logs (.wait n)).SetReady n

variable {calls} {w w' : OfferWorld}

theorem Offers.of_changes (h : Offers calls w) (hstate : w'.handle.state = w.handle.state)
    (hchanges : ∀ u, (w'.logs u).changes = (w.logs u).changes)
    (hfound : ∀ n, ∀ c ∈ (w.logs (.wait n)).changes, ∀ channel,
      (w'.logs (.wait n)).outcome = some (.ok channel) → c.1.offer = some n)
    (hreported : ∀ n, .sasReady ∈ (w'.logs (.wait n)).emitted → (w.logs (.wait n)).SetReady n) :
    Offers calls w' := by
  have howes : ∀ u, (w'.logs u).owes = (w.logs u).owes :=
    fun u => ThreadLog.owes_congr (hchanges u)
  have hstored : ∀ n, w'.Stored n ↔ w.Stored n := by
    intro n
    rw [OfferWorld.Stored, OfferWorld.Stored, ThreadLog.Stored, ThreadLog.Stored, hchanges]
  constructor
  · rw [hstate]
    exact h.running
  · intro m hm
    rw [hstate]
    exact h.busy m (howes _ ▸ hm)
  · intro m m' hm hm'
    exact h.unique m m' (howes _ ▸ hm) (howes _ ▸ hm')
  · intro n hn
    rw [hstate] at hn
    exact (hstored n).2 (h.stored n hn)
  · intro n hn
    rw [hchanges] at hn
    rw [hstored, hstate]
    exact h.looked n hn
  · intro n hn
    rw [hstate, hchanges]
    refine (h.fate n ((hstored n).1 hn)).imp id (Or.imp id ?_)
    rintro ⟨m, hm, c, hc, hrest⟩
    exact ⟨m, hm, c, (hchanges _).symm ▸ hc, hrest⟩
  · intro n c hc
    rw [hchanges] at hc
    exact ⟨(h.found n c hc).1, hfound n c hc⟩
  · intro n hn
    rw [ThreadLog.SetReady, hchanges]
    exact hreported n hn

/-- What an access to the state adds to the logs. -/
structure Logged (t : HandleThread) (found left : HandleState) (w w' : OfferWorld) : Prop where
  others : ∀ u, u ≠ t → w'.logs u = w.logs u
  changes : (w'.logs t).changes = (w.logs t).changes ++ [(found, left)]
  outcome : (w'.logs t).outcome = (w.logs t).outcome
  emitted : (w'.logs t).emitted = (w.logs t).emitted

namespace Logged

variable {t : HandleThread} {found left : HandleState}

variable {u : HandleThread}

theorem mem_changes (h : Logged t found left w w') {c : HandleState × HandleState}
    (hc : c ∈ (w.logs u).changes) : c ∈ (w'.logs u).changes := by
  by_cases hut : u = t
  · subst hut
    rw [h.changes]
    exact List.mem_append_left _ hc
  · rw [h.others u hut]
    exact hc

theorem stored (h : Logged t found left w w') {n : ℕ} (hn : w.Stored n) : w'.Stored n := by
  obtain ⟨c, hc, hoffer⟩ := hn
  exact ⟨c, h.mem_changes hc, hoffer⟩

theorem stored_cases (h : Logged t found left w w') {n : ℕ} (hn : w'.Stored n) :
    w.Stored n ∨ left.offer = some n ∧ t = .call n := by
  obtain ⟨c, hc, hoffer⟩ := hn
  by_cases ht : HandleThread.call n = t
  · rw [ht, h.changes, List.mem_append, List.mem_singleton] at hc
    obtain hc | rfl := hc
    · exact .inl ⟨c, ht ▸ hc, hoffer⟩
    · exact .inr ⟨hoffer, ht.symm⟩
  · rw [h.others _ ht] at hc
    exact .inl ⟨c, hc, hoffer⟩

theorem cancelled (h : Logged t found left w w') {n : ℕ} (hn : w.Cancelled calls n) :
    w'.Cancelled calls n := by
  obtain ⟨m, hm, c, hc, hrest⟩ := hn
  exact ⟨m, hm, c, h.mem_changes hc, hrest⟩

theorem owes_cases (h : Logged t found left w w') (hu : (w'.logs u).owes = true) :
    (w.logs u).owes = true ∧ (u = t → left = found) ∨ u = t ∧ left ≠ found ∧ left.busy = true := by
  by_cases hut : u = t
  · subst hut
    rw [ThreadLog.owes, h.changes, List.foldl_append] at hu
    change (if left = found then (w.logs u).owes else left.busy) = true at hu
    by_cases hsame : left = found
    · rw [if_pos hsame] at hu
      exact .inl ⟨hu, fun _ => hsame⟩
    · rw [if_neg hsame] at hu
      exact .inr ⟨rfl, hsame, hu⟩
  · rw [h.others u hut] at hu
    exact .inl ⟨hu, fun heq => absurd heq hut⟩

end Logged

variable {running : Active} {op : HandleOp} {r : op.Res} {m : ℕ}

theorem Offers.of_call {found : HandleState} {left : Active} (h : Offers calls w)
    (hlog : Logged (.call m) found (.active left) w w') (hfound : w.handle.state = found)
    (hstate : w'.handle.state = .active left)
    (hbusy : ∀ u, (w'.logs (.call u)).owes = true → left.phase = .busy)
    (hunique : ∀ u v, (w'.logs (.call u)).owes = true → (w'.logs (.call v)).owes = true → u = v)
    (hoffer : ∀ n, left.phase.offer = some n → found.offer = some n ∨ n = m ∧
      ¬ (w.logs (.call m)).Stored m)
    (hgone : ∀ n, found.offer = some n → left.phase.offer = some n ∨ w'.Cancelled calls n) :
    Offers calls w' := by
  have hwait : ∀ n, w'.logs (.wait n) = w.logs (.wait n) := fun n => hlog.others _ (by simp)
  subst hfound
  constructor
  · exact ⟨left, hstate⟩
  · intro u hu
    rw [hstate]
    exact decide_eq_true (hbusy u hu)
  · exact hunique
  · intro n hn
    rw [hstate] at hn
    obtain hbefore | ⟨rfl, -⟩ := hoffer n hn
    · exact hlog.stored (h.stored n hbefore)
    · refine ⟨(w.handle.state, .active left), ?_, hn⟩
      rw [hlog.changes]
      exact List.mem_append_right _ (List.mem_singleton_self _)
  · intro n hn
    rw [hwait] at hn
    obtain ⟨hstored, hgone⟩ := h.looked n hn
    refine ⟨hlog.stored hstored, ?_⟩
    rw [hstate]
    intro hleft
    obtain hbefore | ⟨rfl, hunstored⟩ := hoffer n hleft
    · exact hgone hbefore
    · exact hunstored hstored
  · intro n hn
    rw [hwait, hstate]
    obtain hbefore | ⟨hleft, -⟩ := hlog.stored_cases hn
    · obtain hthere | hfate | hcancelled := h.fate n hbefore
      · exact (hgone n hthere).imp id .inr
      · exact .inr (.inl hfate)
      · exact .inr (.inr (hlog.cancelled hcancelled))
    · exact .inl hleft
  · intro n
    rw [hwait]
    exact h.found n
  · intro n
    rw [hwait]
    exact h.reported n

theorem Offers.call {left : Active} (h : Offers calls w)
    (hlog : Logged (.call m) (.active running) (.active left) w w')
    (hfound : w.handle.state = .active running) (hstate : w'.handle.state = .active left)
    (hchange : CallChange calls m (w.logs (.call m)) running left) : Offers calls w' := by
  have hbefore : ∀ u, (w.logs (.call u)).owes = true → running.phase = .busy := by
    intro u hu
    have hbusy := h.busy u hu
    rw [hfound] at hbusy
    exact of_decide_eq_true hbusy
  cases hchange with
  | kept =>
    have howes : ∀ u, (w'.logs (.call u)).owes = true → (w.logs (.call u)).owes = true := by
      intro u hu
      obtain ⟨hu, -⟩ | ⟨-, hne, -⟩ := hlog.owes_cases hu
      · exact hu
      · exact absurd rfl hne
    refine h.of_call hlog hfound hstate (fun u hu => hbefore u (howes u hu))
      (fun u v hu hv => h.unique u v (howes u hu) (howes v hv)) (fun n hn => .inl hn)
      fun n hn => .inl hn
  | @taken phase hfree hoffer =>
    have howes : ∀ u, (w'.logs (.call u)).owes = true → u = m ∧ phase = .busy := by
      intro u hu
      obtain ⟨hu, -⟩ | ⟨heq, -, hbusy⟩ := hlog.owes_cases hu
      · exact absurd (hbefore u hu) hfree
      · exact ⟨HandleThread.call.inj heq, of_decide_eq_true hbusy⟩
    refine h.of_call hlog hfound hstate (fun u hu => (howes u hu).2)
      (fun u v hu hv => (howes u hu).1.trans (howes v hv).1.symm) (fun n hn => .inl ?_)
      fun n hn => .inl ?_
    · exact hoffer.symm.trans hn
    · exact hoffer.trans hn
  | @set phase howner hfree hoffer =>
    have hbusy := hbefore m howner
    have howes : ∀ u, (w'.logs (.call u)).owes = true → False := by
      intro u hu
      obtain ⟨hu, hsame⟩ | ⟨-, -, hleft⟩ := hlog.owes_cases hu
      · have hum := h.unique u m hu howner
        subst hum
        have hphase := congrArg Active.phase (HandleState.active.inj (hsame rfl))
        exact hfree (hphase.trans hbusy)
      · exact hfree (of_decide_eq_true hleft)
    refine h.of_call hlog hfound hstate (fun u hu => (howes u hu).elim)
      (fun u v hu hv => (howes u hu).elim) (fun n hn => .inr ?_) fun n hn => ?_
    · obtain ⟨rfl, hunstored⟩ := hoffer n hn
      exact ⟨rfl, hunstored⟩
    · rw [HandleState.offer, hbusy] at hn
      cases hn
  | cancelled hcancel hfree =>
    have howes : ∀ u, (w'.logs (.call u)).owes = true → False := by
      intro u hu
      obtain ⟨hu, -⟩ | ⟨-, -, hleft⟩ := hlog.owes_cases hu
      · exact hfree (hbefore u hu)
      · cases hleft
    refine h.of_call hlog hfound hstate (fun u hu => (howes u hu).elim)
      (fun u v hu hv => (howes u hu).elim) (by rintro n ⟨⟩) fun n hn => .inr ?_
    refine ⟨m, hcancel, (.active running, .active { running with phase := .unpaired }), ?_, hn,
      rfl⟩
    rw [hlog.changes]
    exact List.mem_append_right _ (List.mem_singleton_self _)

theorem settledState_of_offer (crates : HandleCrates) {n : ℕ}
    (r : Except String PendingConfirmation) (hoffer : running.phase.offer = some n) :
    ∃ phase, settledState crates n r (.active running) = .active { running with phase := phase } ∧
      phase.offer = none ∧ phase ≠ .busy ∧ (∀ channel, r = .ok channel → phase.ready = some n) ∧
      ∀ message, r = .error message → phase = .unpaired := by
  cases r with
  | error message =>
    refine ⟨.unpaired, by simp [settledState, hoffer], rfl, by simp, ?_, fun _ _ => rfl⟩
    rintro _ ⟨⟩
  | ok channel =>
    refine ⟨.sasReady (channel.sas crates.prim) n, by simp [settledState, hoffer], rfl, by simp,
      fun _ _ => rfl, ?_⟩
    rintro _ ⟨⟩

theorem Offers.task {crates : HandleCrates} {n : ℕ} {r : Except String PendingConfirmation}
    (h : Offers calls w)
    (hlog : Logged (.wait n) (.active running) (settledState crates n r (.active running)) w w')
    (hfound : w.handle.state = .active running)
    (hstate : w'.handle.state = settledState crates n r (.active running))
    (hchanges : (w.logs (.wait n)).changes = []) (hemitted : (w.logs (.wait n)).emitted = [])
    (hstored : w.Stored n)
    (hpeer : ∀ channel, (w.logs (.wait n)).outcome = some (.ok channel) →
      running.phase.offer = some n) :
    Offers calls w' := by
  have hcall : ∀ m, w'.logs (.call m) = w.logs (.call m) := fun m => hlog.others _ (by simp)
  have howes : ∀ m, (w'.logs (.call m)).owes = (w.logs (.call m)).owes := by
    intro m
    rw [hcall]
  have hlog' : (w'.logs (.wait n)).changes =
      [(.active running, settledState crates n r (.active running))] := by
    rw [hlog.changes, hchanges]
    rfl
  -- The state is left as it was found, or the offer of the task was in it.
  have hleft : w'.handle.state = w.handle.state ∧ running.phase.offer ≠ some n ∨
      running.phase.offer = some n ∧ w'.handle.state.offer = none ∧
        ∃ left, w'.handle.state = .active left := by
    by_cases hoffer : running.phase.offer = some n
    · obtain ⟨phase, hphase, hnone, -⟩ := settledState_of_offer crates r hoffer
      rw [hstate, hphase]
      exact .inr ⟨hoffer, hnone, _, rfl⟩
    · rw [hstate, hfound]
      exact .inl ⟨settledState_of_ne crates n hoffer, hoffer⟩
  constructor
  · obtain ⟨hsame, -⟩ | ⟨-, -, hactive⟩ := hleft
    · rw [hsame]
      exact h.running
    · exact hactive
  · intro m hm
    rw [howes] at hm
    have hbusy := h.busy m hm
    obtain ⟨hsame, -⟩ | ⟨hoffer, -⟩ := hleft
    · rw [hsame]
      exact hbusy
    · rw [hfound] at hbusy
      rw [of_decide_eq_true hbusy] at hoffer
      cases hoffer
  · intro m m' hm hm'
    rw [howes] at hm hm'
    exact h.unique m m' hm hm'
  · intro m hm
    obtain ⟨hsame, -⟩ | ⟨-, hnone, -⟩ := hleft
    · rw [hsame] at hm
      exact hlog.stored (h.stored m hm)
    · rw [hnone] at hm
      cases hm
  · intro m hm
    by_cases hmn : m = n
    · subst hmn
      refine ⟨hlog.stored hstored, ?_⟩
      obtain ⟨hsame, hne⟩ | ⟨-, hnone, -⟩ := hleft
      · rw [hsame, hfound]
        exact hne
      · rw [hnone]
        simp
    · rw [hlog.others _ (by simpa using hmn)] at hm
      obtain ⟨hm, hne⟩ := h.looked m hm
      refine ⟨hlog.stored hm, ?_⟩
      obtain ⟨hsame, -⟩ | ⟨-, hnone, -⟩ := hleft
      · rw [hsame]
        exact hne
      · rw [hnone]
        simp
  · intro m hm
    obtain hm | ⟨-, ht⟩ := hlog.stored_cases hm
    · obtain hthere | ⟨c, hc, hfate⟩ | hcancelled := h.fate m hm
      · obtain ⟨hsame, -⟩ | ⟨hoffer, -⟩ := hleft
        · rw [hsame]
          exact .inl hthere
        · rw [hfound] at hthere
          have hmn : m = n := Option.some.inj (hthere.symm.trans hoffer)
          subst hmn
          refine .inr (.inl ⟨(.active running, settledState crates m r (.active running)), ?_,
            hoffer⟩)
          rw [hlog']
          exact List.mem_singleton_self _
      · exact .inr (.inl ⟨c, hlog.mem_changes hc, hfate⟩)
      · exact .inr (.inr (hlog.cancelled hcancelled))
    · cases ht
  · intro m c hc
    by_cases hmn : m = n
    · subst hmn
      rw [hlog', List.mem_singleton] at hc
      subst hc
      refine ⟨⟨running, rfl⟩, fun channel hchannel => ?_⟩
      rw [hlog.outcome] at hchannel
      exact hpeer channel hchannel
    · rw [hlog.others _ (by simpa using hmn)] at hc ⊢
      exact h.found m c hc
  · intro m hm
    by_cases hmn : m = n
    · subst hmn
      rw [hlog.emitted, hemitted] at hm
      cases hm
    · rw [hlog.others _ (by simpa using hmn)] at hm ⊢
      exact h.reported m hm

variable (crates : HandleCrates)

def Continues : (t : HandleThread) → ThreadLog → HandleProgram (t.Value calls) → Prop
  | .call n, a, p => CallRuns calls n a p
  | .wait n, a, p => Conforms (TaskPermits crates n) ThreadLog.next (TaskEnds crates n) a p

variable {crates}

variable (calls) in
def OffersStaged (stages : HandleThread → Option ThreadLog) (w : OfferWorld) : Prop :=
  (∀ t, w.logs t = (stages t).getD {}) ∧ Offers calls w

theorem getD_update {stages : HandleThread → Option ThreadLog}
    (h : ∀ u, w.logs u = (stages u).getD {}) {t : HandleThread} {a : ThreadLog}
    (hlogs : w'.logs = Function.update w.logs t a) (u : HandleThread) :
    w'.logs u = (Function.update stages t (some a) u).getD {} := by
  rw [hlogs]
  by_cases hut : u = t
  · subst hut
    rw [update_self, update_self]
    rfl
  · rw [update_of_ne hut, update_of_ne hut]
    exact h u

theorem logged_of_update {t : HandleThread} {update : HandleState → HandleState}
    {found : HandleState}
    (hlogs : w'.logs = Function.update w.logs t ((w.logs t).next (.state update) found)) :
    Logged t found (update found) w w' where
  others u hu := by rw [hlogs, update_of_ne hu]
  changes := by rw [hlogs, update_self]; rfl
  outcome := by rw [hlogs, update_self]; rfl
  emitted := by rw [hlogs, update_self]; rfl

theorem Offers.setReady_of_emit {n : ℕ} (h : Offers calls w)
    (hop : TaskPermits crates n (w.logs (.wait n)) (.emit .sasReady)) :
    (w.logs (.wait n)).SetReady n := by
  obtain ⟨-, r, found, houtcome, hchanges, hstatus⟩ := hop
  have hmem : (found, settledState crates n r found) ∈ (w.logs (.wait n)).changes := by
    rw [hchanges]
    exact List.mem_singleton_self _
  obtain ⟨⟨running, hrunning⟩, hpeer⟩ := h.found n _ hmem
  cases r with
  | error message =>
    rw [announcement] at hstatus
    split at hstatus
    · cases hstatus
    · cases hstatus
  | ok channel =>
    have hoffer := hpeer channel houtcome
    refine ⟨_, hmem, hoffer, ?_⟩
    dsimp only at hrunning hoffer ⊢
    rw [hrunning] at hoffer ⊢
    obtain ⟨phase, hphase, -, -, hready, -⟩ :=
      settledState_of_offer crates (.ok channel) hoffer
    rw [hphase]
    exact hready channel rfl

theorem Offers.remote {t : HandleThread} (h : Offers calls w) (hop : op.IsRemote)
    (hstate : w'.handle.state = w.handle.state)
    (hlogs : w'.logs = Function.update w.logs t ((w.logs t).next op r))
    (htask : ∀ n, t = .wait n → TaskPermits crates n (w.logs t) op) : Offers calls w' := by
  have hown : w'.logs t = (w.logs t).next op r := by
    rw [hlogs, update_self]
  have hothers : ∀ u, u ≠ t → w'.logs u = w.logs u := by
    intro u hu
    rw [hlogs, update_of_ne hu]
  refine h.of_changes hstate (fun u => ?_) (fun n c hc channel hchannel => ?_) fun n hn => ?_
  · by_cases hut : u = t
    · subst hut
      rw [hown, changes_next hop]
    · rw [hothers u hut]
  · by_cases ht : HandleThread.wait n = t
    · subst ht
      rw [hown] at hchannel
      cases op with
      | waitPeer =>
        obtain ⟨-, hnone, -⟩ := htask n rfl
        rw [hnone] at hc
        cases hc
      | state update => exact hop.elim
      | _ => exact (h.found n c hc).2 channel hchannel
    · rw [hothers _ ht] at hchannel
      exact (h.found n c hc).2 channel hchannel
  · by_cases ht : HandleThread.wait n = t
    · subst ht
      rw [hown] at hn
      cases op with
      | emit status =>
        have hpermits := htask n rfl
        change _ ∈ (w.logs (.wait n)).emitted ++ [status] at hn
        rw [hpermits.1, List.nil_append, List.mem_singleton] at hn
        subst hn
        exact h.setReady_of_emit hpermits
      | state update => exact hop.elim
      | _ => exact h.reported n hn
    · rw [hothers _ ht] at hn
      exact h.reported n hn

/-- A thread performs its next operation. -/
theorem Offers.access {t : HandleThread} (h : Offers calls w)
    {k : op.Res → HandleProgram (t.Value calls)}
    (hcontinues : Continues crates t (w.logs t) (.call op k)) (htimely : OfferWorld.Timely t op w)
    (hexec : HandleWorld.exec op w.handle r w'.handle)
    (hlogs : w'.logs = Function.update w.logs t ((w.logs t).next op r)) : Offers calls w' := by
  by_cases hop : op.IsRemote
  · have htask : ∀ n, t = .wait n → TaskPermits crates n (w.logs t) op := by
      rintro n rfl
      exact hcontinues.1
    exact h.remote hop (state_of_isRemote hop hexec) hlogs htask
  cases op with
  | state update =>
    obtain ⟨rfl, hhandle⟩ := hexec
    have hstate : w'.handle.state = update w.handle.state := by
      rw [hhandle]
    have hlog := logged_of_update hlogs
    obtain ⟨running, hrunning⟩ := h.running
    rw [hrunning] at hlog hstate
    cases t with
    | call n =>
      obtain ⟨left, hleft, hchange⟩ := hcontinues.1 running
      rw [hleft] at hlog hstate
      exact h.call hlog hrunning hstate hchange
    | wait n =>
      obtain ⟨hchanges, hemitted, r, houtcome, hupdate⟩ := hcontinues.1
      obtain ⟨hstored, hpeer⟩ := htimely n update rfl rfl
      rw [hupdate] at hlog hstate
      rw [hrunning] at hpeer
      exact h.task hlog hrunning hstate hchanges hemitted hstored hpeer
  | _ => exact absurd trivial hop

theorem offers_staging (crates : HandleCrates) (hcalls : ∀ n, (calls n).IsOfferCall) :
    Threads.Staging ((offerSystem crates calls).guarded OfferWorld.Timely)
      (fun t a p => Continues crates t a p) (OffersStaged calls) where
  enter {stages t w p w'} h hnone henter := by
    obtain ⟨henter, hlogs⟩ := henter
    have hstaged : w'.handle = w.handle →
        OffersStaged calls (Function.update stages t (some {})) w' := by
      intro hhandle
      have hsame : w' = w := by
        cases w'
        cases hhandle
        cases hlogs
        rfl
      subst hsame
      refine ⟨getD_update h.1 ?_, h.2⟩
      have hempty : w'.logs t = {} := by
        rw [h.1, hnone]
        rfl
      rw [← hempty, update_eq_self]
    cases t with
    | call n =>
      obtain ⟨rfl, hhandle⟩ := henter
      exact ⟨{}, callRuns_program crates (hcalls n), hstaged hhandle⟩
    | wait n =>
      obtain ⟨-, rfl, hhandle⟩ := henter
      exact ⟨{}, waitForPeer_conforms crates n, hstaged hhandle⟩
  again {stages t a v w p w'} _ _ _ henter := by
    cases t with
    | call n => exact henter.1.elim
    | wait n => exact henter.1.elim
  access {stages t a op k w r w'} h ha hcontinues hexec := by
    obtain ⟨htimely, hexec, hlogs⟩ := hexec
    have hlog : w.logs t = a := by
      rw [h.1, ha]
      rfl
    subst hlog
    have hstaged : OffersStaged calls
        (Function.update stages t (some ((w.logs t).next op r))) w' :=
      ⟨getD_update h.1 hlogs, h.2.access hcontinues htimely hexec hlogs⟩
    cases t with
    | call n => exact ⟨_, hcontinues.2 r, hstaged⟩
    | wait n => exact ⟨_, hcontinues.2 r, hstaged⟩

theorem offers_start : Offers calls (OfferThreads.start calls).shared := by
  have howes : ¬ (ThreadLog.owes {} = true) := by
    simp [ThreadLog.owes]
  refine ⟨⟨_, rfl⟩, fun _ hm => absurd hm howes, fun _ _ hm => absurd hm howes, ?_, ?_, ?_, ?_, ?_⟩
  · rintro n ⟨⟩
  · exact fun n hn => absurd rfl hn
  · rintro n ⟨c, hc, -⟩
    cases hc
  · rintro n c hc
    cases hc
  · rintro n hn
    cases hn

/-- In the runs in which a task looks at the phase only when its offer has been stored, and
with a peer only while the offer stands, the phase has an offer only while its task has not
finished. The arrival of a peer leads to a pending confirmation that is reported, and a
failure to no pairing and a report of it, unless the offer was cancelled; and a pending
confirmation is reported by a task only if it was put into the phase. -/
theorem offers_settled (crates : HandleCrates) (hcalls : ∀ n, (calls n).IsOfferCall)
    {x : OfferThreads calls}
    (hrun : Threads.Reaches ((offerSystem crates calls).guarded OfferWorld.Timely)
      (OfferThreads.start calls) x) :
    (∀ n, x.shared.handle.state.offer = some n → x.threads (.wait n) ≠ some (done ())) ∧
      (∀ n channel, x.threads (.wait n) = some (done ()) →
        (x.shared.logs (.wait n)).outcome = some (.ok channel) →
        (x.shared.logs (.wait n)).SetReady n ∧
            .sasReady ∈ (x.shared.logs (.wait n)).emitted ∨
          x.shared.Cancelled calls n) ∧
      (∀ n message, x.threads (.wait n) = some (done ()) →
        (x.shared.logs (.wait n)).outcome = some (.error message) →
        (x.shared.logs (.wait n)).SetUnpaired n ∧
            .error message ∈ (x.shared.logs (.wait n)).emitted ∨
          x.shared.Cancelled calls n) ∧
      ∀ n, .sasReady ∈ (x.shared.logs (.wait n)).emitted →
        (x.shared.logs (.wait n)).SetReady n := by
  have hstart : Threads.Staged (fun t a p => Continues crates t a p) (OffersStaged calls)
      (OfferThreads.start calls) :=
    ⟨fun _ => none, ⟨fun _ => rfl, offers_start⟩, fun _ _ => rfl, by rintro _ _ ⟨⟩⟩
  obtain ⟨stages, ⟨hlogs, h⟩, -, hsome⟩ := (offers_staging crates hcalls).reaches hstart hrun
  have hends : ∀ n, x.threads (.wait n) = some (done ()) →
      TaskEnds crates n (x.shared.logs (.wait n)) () := by
    intro n hdone
    obtain ⟨a, ha, hends⟩ := hsome _ _ hdone
    rw [hlogs, ha]
    exact hends
  refine ⟨fun n hoffer hdone => ?_, fun n channel hdone houtcome => ?_,
    fun n message hdone houtcome => ?_, h.reported⟩
  · obtain ⟨r, found, -, hchanges, -⟩ := hends n hdone
    have hlooked : (x.shared.logs (.wait n)).changes ≠ [] := by
      rw [hchanges]
      simp
    exact (h.looked n hlooked).2 hoffer
  · obtain ⟨r, found, hr, hchanges, hemitted⟩ := hends n hdone
    obtain rfl : r = .ok channel := Option.some.inj (hr.symm.trans houtcome)
    have hfound := h.found n (found, settledState crates n (.ok channel) found)
      (by rw [hchanges]; exact List.mem_singleton_self _)
    obtain ⟨running, rfl⟩ : ∃ running, found = .active running := hfound.1
    have hready : .sasReady ∈ (x.shared.logs (.wait n)).emitted := by
      rw [hemitted]
      exact List.mem_singleton_self _
    exact .inl ⟨h.reported n hready, hready⟩
  · obtain ⟨r, found, hr, hchanges, hemitted⟩ := hends n hdone
    obtain rfl : r = .error message := Option.some.inj (hr.symm.trans houtcome)
    have hmem : (found, settledState crates n (.error message) found) ∈
        (x.shared.logs (.wait n)).changes := by
      rw [hchanges]
      exact List.mem_singleton_self _
    obtain ⟨running, rfl⟩ : ∃ running, found = .active running := (h.found n _ hmem).1
    have hlooked : (x.shared.logs (.wait n)).changes ≠ [] := by
      rw [hchanges]
      simp
    obtain ⟨hstored, hgone⟩ := h.looked n hlooked
    by_cases hoffer : running.phase.offer = some n
    · refine .inl ⟨⟨_, hmem, hoffer, running.dispatcher, ?_⟩, ?_⟩
      · simp [settledState, hoffer]
      · rw [hemitted]
        simp [announcement, HandleState.offer, hoffer]
    · -- The offer had been stored and was not there any more.
      obtain hthere | ⟨c, hc, hcoffer⟩ | hcancelled := h.fate n hstored
      · exact absurd hthere hgone
      · rw [hchanges, List.mem_singleton] at hc
        rw [hc] at hcoffer
        exact absurd hcoffer hoffer
      · exact .inr hcancelled

end Runs

/-! ## A task that comes too early, and one that comes too late -/

def offerReplay (crates : HandleCrates) (calls : ℕ → HandleCall) :
    Threads.Replay (offerSystem crates calls) HandleAnswers where
  access answers t op w := some ((w.handle.run answers op).1,
    ⟨(w.handle.run answers op).2,
      Function.update w.logs t ((w.logs t).next op (w.handle.run answers op).1)⟩)
  enter _ t value w := (t.launch crates calls w.handle value).map (·, w)
  exec_of_access {answers t op w r w'} h := by
    cases h
    exact ⟨w.handle.exec_run answers op, rfl⟩
  enter_of_enter h := by
    obtain ⟨p, hlaunch, heq⟩ := Option.map_eq_some_iff.1 h
    cases heq
    exact ⟨enter_of_launch hlaunch, rfl⟩

namespace OfferSample

def calls : ℕ → HandleCall
  | 0 => .pairBegin "wss://relay"
  | _ => .pairCancel

theorem isOfferCall (n : ℕ) : (calls n).IsOfferCall := by
  cases n <;> trivial

def bundle : PubBundle := ⟨.replicate 32 0, .replicate 32 0⟩

def channel : PendingConfirmation :=
  ⟨⟨1, "wss://relay", bundle, bundle⟩, .replicate qrNonceBytes 0⟩

/-- Everything succeeds, and the peer of an offer arrives or not. -/
def answers (peer : Except String PendingConfirmation) : HandleAnswers
  | .waitPeer => peer
  | .offer _ => .ok ⟨"wss://relay", "234567", bundle, .replicate qrNonceBytes 0⟩
  | .qrToJson _ => .ok "qr"
  | op => HandleSample.answers op

def goes (t : HandleThread) (count : ℕ) : Threads.Move HandleThread HandleAnswers :=
  ⟨t, count, answers (.ok channel)⟩

def replay : Threads.Replay (offerSystem HandleSample.crates calls) HandleAnswers :=
  offerReplay HandleSample.crates calls

def timelyReplay : Threads.Replay
    ((offerSystem HandleSample.crates calls).guarded OfferWorld.Timely) HandleAnswers :=
  replay.guarded (fun t op w => match t, op with
    | .wait n, .state _ => (w.logs (.call n)).changes.any (·.2.offer == some n) &&
        w.handle.state.offer == some n
    | _, _ => true) (by
  rintro t op w h n update rfl rfl
  simp only [Bool.and_eq_true, List.any_eq_true, beq_iff_eq] at h
  exact ⟨h.1, fun _ _ => h.2⟩)

def announced : OfferThreads calls :=
  timelyReplay.final [goes (.call 0) 9, goes (.wait 0) 9] (OfferThreads.start calls)

/-- The peer arrives while its offer is in the phase. -/
theorem offers_settled_sample :
    ∃ x : OfferThreads calls,
      Threads.Reaches ((offerSystem HandleSample.crates calls).guarded OfferWorld.Timely)
        (OfferThreads.start calls) x ∧
      ((x.shared.logs (.wait 0)).SetReady 0 ∧ .sasReady ∈ (x.shared.logs (.wait 0)).emitted ∨
        x.shared.Cancelled calls 0) :=
  ⟨announced, Threads.Replay.reaches_final, (offers_settled HandleSample.crates isOfferCall
    Threads.Replay.reaches_final).2.1 0 channel rfl rfl⟩

def lost : OfferThreads calls :=
  replay.final [goes (.call 0) 5, ⟨.wait 0, 9, answers (.error "closed")⟩, goes (.call 0) 9]
    (OfferThreads.start calls)

def late : OfferThreads calls :=
  replay.final [goes (.call 0) 9, goes (.wait 0) 2, goes (.call 1) 9, goes (.wait 0) 9]
    (OfferThreads.start calls)

/-- A task that fails before its offer is stored leaves an offer behind that nobody waits
for. A task whose peer has arrived when its offer is cancelled reports a pending confirmation
that there is not. -/
theorem offers_lost_or_late :
    (∃ x : OfferThreads calls,
      Threads.Reaches (offerSystem HandleSample.crates calls) (OfferThreads.start calls) x ∧
      x.Quiet ∧ x.shared.handle.state.offer = some 0 ∧ x.threads (.wait 0) = some (done ())) ∧
    ∃ x : OfferThreads calls,
      Threads.Reaches (offerSystem HandleSample.crates calls) (OfferThreads.start calls) x ∧
      .sasReady ∈ (x.shared.logs (.wait 0)).emitted ∧ ¬ (x.shared.logs (.wait 0)).SetReady 0 := by
  refine ⟨⟨lost, Threads.Replay.reaches_final, fun n p hp => ?_, by decide +kernel, rfl⟩, late,
    Threads.Replay.reaches_final, by decide +kernel, ?_⟩
  · cases n with
    | zero => exact ⟨.ok "qr", (Option.some.inj hp).symm⟩
    | succ n =>
      rw [lost, Threads.Replay.threads_final (by simp [goes])] at hp
      cases hp
  · have hchanges : (late.shared.logs (.wait 0)).changes =
      [(.active ⟨0, .unpaired⟩, .active ⟨0, .unpaired⟩)] := by
      decide +kernel
    rintro ⟨c, hc, hoffer, -⟩
    rw [hchanges, List.mem_singleton] at hc
    rw [hc] at hoffer
    cases hoffer

end OfferSample

end ClipSync
