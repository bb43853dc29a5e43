import ClipSync.Core.HandleFlow
import ClipSync.Lib.Schedule

/-!
# Calls to a handle

Calls are made from any number of threads, and offers are waited for in the background.
`Busy` and `Transitioning` are there to be undone by the call that has set them. Some
exits do not do so; in the runs that do not take them, a handle that no call is working on
is usable.

Each thread has a stage that says what it owes. A thread that takes the channel of a
pending confirmation has first taken the confirmation out of the phase, so it finds the
channel.
-/

namespace ClipSync

open Lib Program CoreHandle Function

/-! ## Runs -/

/-- The handle, the places for channels, and the waiting tasks that were spawned. -/
structure HandleWorld where
  state : HandleState
  channels : ℕ → Option PendingConfirmation
  waits : Finset ℕ

/-- Everything but the accesses to the state has any outcome. An aborted task may have been
past the only point where it can be stopped. -/
def HandleWorld.exec : (op : HandleOp) → HandleWorld → op.Res → HandleWorld → Prop
  | .state update, w, found, w' => found = w.state ∧ w' = { w with state := update w.state }
  | .putChannel slot channel, w, _, w' =>
    w' = { w with channels := update w.channels slot (some channel) }
  | .takeChannel slot, w, found, w' => found = w.channels slot ∧
      w' = { w with channels := update w.channels slot none }
  | .spawnWait wait, w, _, w' => w' = { w with waits := insert wait w.waits }
  | _, w, _, w' => w' = w

def HandleOp.IsRemote : HandleOp → Prop
  | .state _ => False
  | _ => True

theorem state_of_isRemote {op : HandleOp} (hop : op.IsRemote) {r : op.Res} {v v' : HandleWorld}
    (hexec : HandleWorld.exec op v r v') : v'.state = v.state := by
  cases op with
  | state update => exact hop.elim
  | takeChannel slot =>
    obtain ⟨-, rfl⟩ := hexec
    rfl
  | _ =>
    cases hexec
    rfl

def handleSystem (crates : HandleCrates) (calls : ℕ → HandleCall) :
    Threads.System HandleOp HandleOp.Res (HandleThread.Value calls) HandleWorld where
  exec _ := HandleWorld.exec
  enter
    | .call n, none, w, p, w' => p = (calls n).program crates n ∧ w' = w
    | .wait n, none, w, p, w' => n ∈ w.waits ∧ p = waitForPeer crates n ∧ w' = w
    | _, some _, _, _, _ => False

/-- A thread that begins goes its course. -/
theorem runs_of_enter {crates : HandleCrates} {calls : ℕ → HandleCall} {t : HandleThread}
    {value : Option (t.Value calls)} {w w' : HandleWorld} {p : HandleProgram (t.Value calls)}
    (h : (handleSystem crates calls).enter t value w p w') :
    Runs crates calls t (fun b _ => b.Ends) .idle p ∧ w' = w := by
  cases value with
  | some value => cases t <;> exact h.elim
  | none =>
    cases t with
    | call n => exact ⟨h.1 ▸ runs_program crates rfl, h.2⟩
    | wait n => exact ⟨h.2.1 ▸ runs_waitForPeer crates, h.2.2⟩

abbrev HandleThreads (calls : ℕ → HandleCall) :=
  Threads HandleOp HandleOp.Res (HandleThread.Value calls) HandleWorld

/-- A handle as `CoreHandle::new` returns it. -/
def HandleThreads.start (calls : ℕ → HandleCall) : HandleThreads calls where
  shared := ⟨.active ⟨0, .unpaired⟩, fun _ => none, ∅⟩
  threads _ := none

def HandleThreads.Quiet {calls : ℕ → HandleCall} (x : HandleThreads calls) : Prop :=
  ∀ n p, x.threads (.call n) = some p → ∃ value, p = done value

def PairingPhase.ready : PairingPhase → Option ℕ
  | .sasReady _ channel => some channel
  | _ => none

namespace HandleState

def moving : HandleState → Bool
  | .transitioning => true
  | _ => false

def ready : HandleState → Option ℕ
  | .active running => running.phase.ready
  | _ => none

/-- The state is `Active` or `Shutdown`, and the phase is not `Busy`. -/
def Usable : HandleState → Prop
  | .active running => running.phase ≠ .busy
  | .transitioning => False
  | .shutdown => True

theorem usable_of_not {state : HandleState} (hbusy : state.busy = false)
    (hmoving : state.moving = false) : state.Usable := by
  cases state with
  | active running => exact of_decide_eq_false hbusy
  | transitioning => cases hmoving
  | shutdown => trivial

end HandleState

/-! ## Stages -/

/-- What a thread owes: the phase is `Busy` or the state `Transitioning` on its account;
the place whose confirmation it has taken out of the phase; whether it has put a channel
into its own place, and announced it. -/
structure HandleStage where
  owes : Bool
  moves : Bool
  excused : Bool
  held : Option ℕ
  filled : Bool
  announced : Bool

namespace HandleStage

def fresh : HandleStage := ⟨false, false, false, none, false, false⟩

def after (a : HandleStage) (slot : ℕ) (found left : HandleState) : HandleStage where
  owes := left.busy && (!found.busy || a.owes)
  moves := left.moving && (!found.moving || a.moves)
  excused := a.excused
  held := if left.ready = found.ready then a.held else found.ready.or a.held
  filled := a.filled
  announced := a.announced || (left.ready == some slot && found.ready != some slot)

def Settled (a : HandleStage) : Prop := a.excused = true ∨ a.owes = false ∧ a.moves = false

end HandleStage

section Obeys

variable (calls : ℕ → HandleCall) (t : HandleThread)

/-- A confirmation becomes pending only by the thread that has filled the place and not
announced it yet, and tasks neither set `Busy` nor `Transitioning`. -/
def HandleStage.Permits (a : HandleStage) : HandleOp → Prop
  | .state update =>
    (∀ found m, (update found).ready = some m →
      found.ready = some m ∨ m = t.slot ∧ a.filled = true ∧ a.announced = false) ∧
    ∀ n, t = .wait n → ∀ found, ((update found).busy = true → found.busy = true) ∧
      ((update found).moving = true → found.moving = true)
  | .putChannel slot _ => slot = t.slot ∧ ∀ n, t = .call n → ∃ qr, calls n = .pairClaim qr
  | .takeChannel slot => a.held = some slot
  | .spawnWait wait => ∃ url, t = .call wait ∧ calls wait = .pairBegin url
  | _ => True

def HandleStage.next (a : HandleStage) : (op : HandleOp) → op.Res → HandleStage
  | .state update, found => a.after t.slot found (update found)
  | .putChannel .., _ => { a with filled := true }
  | .takeChannel _, r => { a with held := none, excused := a.excused || r.isNone }
  | op, r => { a with excused := a.excused || (t.demands calls op && !op.succeeds r) }

abbrev Proceeds {α : Type} (final : HandleStage → α → Prop) (a : HandleStage)
    (p : HandleProgram α) : Prop :=
  Conforms (HandleStage.Permits calls t) (HandleStage.next calls t) final a p

abbrev Obeys {α : Type} (a : HandleStage) (p : HandleProgram α) : Prop :=
  Proceeds calls t (fun b _ => b.Settled) a p

end Obeys

/-! ## Every call settles what it owes -/

section Calls

variable {calls : ℕ → HandleCall} {t : HandleThread} {a : HandleStage}

namespace HandleStage

theorem settled_fresh : fresh.Settled := .inr ⟨rfl, rfl⟩

variable {found left : HandleState}

theorem settled_after {slot : ℕ} (ha : a.moves = false) (hbusy : left.busy = false)
    (hmoving : left.moving = true → found.moving = true) : (a.after slot found left).Settled := by
  refine .inr ⟨by simp [after, hbusy], ?_⟩
  cases hleft : left.moving with
  | false => simp [after, hleft]
  | true => simp [after, hmoving hleft, ha]

theorem Settled.after (ha : a.Settled) (slot : ℕ) (hbusy : left.busy = true → found.busy = true)
    (hmoving : left.moving = true → found.moving = true) : (a.after slot found left).Settled := by
  obtain h | ⟨howes, hmoves⟩ := ha
  · exact .inl h
  · refine .inr ⟨?_, ?_⟩
    · cases hleft : left.busy with
      | false => simp [HandleStage.after, hleft]
      | true => simp [HandleStage.after, hbusy hleft, howes]
    · cases hleft : left.moving with
      | false => simp [HandleStage.after, hleft]
      | true => simp [HandleStage.after, hmoving hleft, hmoves]

theorem Settled.after_self (ha : a.Settled) (slot : ℕ) (found : HandleState) :
    (a.after slot found found).Settled :=
  ha.after slot id id

end HandleStage

theorem next_of_isPlain {op : HandleOp} (hop : op.IsPlain) : a.next calls t op = fun r =>
    { a with excused := a.excused || (t.demands calls op && !op.succeeds r) } := by
  cases op <;> first | rfl | exact hop.elim

theorem next_of_accepts {op : HandleOp} (hop : a.next calls t op = fun r =>
    { a with excused := a.excused || (t.demands calls op && !op.succeeds r) }) {r : op.Res}
    (haccepts : t.Accepts calls op r) : a.next calls t op r = a := by
  rw [hop]
  cases hdemands : t.demands calls op with
  | false => simp
  | true => simp [haccepts hdemands]

/-- What a thread owes at the points of its call. -/
def CallPoint.Stage : CallPoint → HandleStage → Prop
  | .idle, a | .loaded _, a | .waited _, a => a = .fresh
  | .arrived _, a => a = { HandleStage.fresh with filled := true }
  | .busy _, a => a.moves = false ∧ a.announced = false
  | .held slot, a => a.moves = false ∧ a.announced = false ∧ a.held = some slot
  | .filled, a => a.moves = false ∧ a.announced = false ∧ a.filled = true
  | .connecting .., a => a.moves = false
  | .taken, _ | .spawned _, _ => True
  | .ended, a => a.Settled
  | .failed, a => a.excused = true

variable {crates : HandleCrates} {c c' : CallPoint} {found left : HandleState}

theorem CallPoint.Moves.ready {m : ℕ} (h : c.Moves crates calls t found left c') (ha : c.Stage a)
    (hready : left.ready = some m) :
    found.ready = some m ∨ m = t.slot ∧ a.filled = true ∧ a.announced = false := by
  cases h with
  | kept | missed | read => exact .inl hready
  | set sets =>
    cases sets with
    | readied => exact .inr ⟨Option.some.inj hready.symm, ha.2.2, ha.2.1⟩
    | _ => cases hready
  | announced ht =>
    subst ht ha
    exact .inr ⟨Option.some.inj hready.symm, rfl, rfl⟩
  | _ => cases hready

theorem CallPoint.Moves.task {n : ℕ} (h : c.Moves crates calls (.wait n) found left c') :
    (left.busy = true → found.busy = true) ∧ (left.moving = true → found.moving = true) := by
  cases h with
  | kept | missed | read => exact ⟨id, id⟩
  | set sets => cases sets <;> exact ⟨by rintro ⟨⟩, by rintro ⟨⟩⟩
  | begun ht | started ht | confirmed ht | cancelled ht | taken ht => cases ht
  | _ => exact ⟨by rintro ⟨⟩, by rintro ⟨⟩⟩

theorem CallPoint.Moves.after (h : c.Moves crates calls t found left c') (ha : c.Stage a) :
    c'.Stage (a.after t.slot found left) := by
  cases h with
  | kept idle =>
    cases c with
    | idle | loaded _ | waited _ | arrived _ =>
      subst ha
      exact HandleStage.Settled.after_self (.inr ⟨rfl, rfl⟩) _ _
    | _ => exact idle.elim
  | missed busy gone =>
    have hmoves : a.moves = false := by
      cases c with
      | busy record | filled => exact ha.1
      | connecting record dispatcher => exact ha
      | _ => exact busy.elim
    exact HandleStage.settled_after hmoves gone id
  | read => rfl
  | begun | started =>
    subst ha
    exact ⟨rfl, rfl⟩
  | confirmed =>
    subst ha
    exact ⟨rfl, rfl, rfl⟩
  | set sets =>
    have hmoves : a.moves = false := by
      cases sets with
      | connected => exact ha
      | _ => exact ha.1
    refine HandleStage.settled_after hmoves ?_ (by rintro ⟨⟩)
    cases sets <;> rfl
  | taken => trivial
  | installed => exact .inr ⟨rfl, rfl⟩
  | closed => exact .inr ⟨rfl, rfl⟩
  | _ =>
    subst ha
    exact .inr ⟨rfl, rfl⟩

theorem CallPoint.Flow.permits {op : HandleOp} (ha : c.Stage a)
    (h : ∀ r, ∃ c', c.Flow crates calls t op r c') : a.Permits calls t op := by
  cases op with
  | state update =>
    have hmoves : ∀ found, ∃ c', c.Moves crates calls t found (update found) c' := by
      intro found
      obtain ⟨c', hflow⟩ := h found
      cases hflow with
      | state moves => exact ⟨c', moves⟩
      | plain hop | fails hop => exact hop.elim
    refine ⟨fun found m hready => ?_, fun n ht found => ?_⟩
    · obtain ⟨c', hmove⟩ := hmoves found
      exact hmove.ready ha hready
    · subst ht
      obtain ⟨c', hmove⟩ := hmoves found
      exact hmove.task
  | putChannel slot channel =>
    obtain ⟨c', hflow⟩ := h ()
    cases hflow with
    | fill ht hcall =>
      subst ht
      refine ⟨rfl, ?_⟩
      rintro _ ⟨⟩
      exact ⟨_, hcall⟩
    | arrive ht =>
      subst ht
      exact ⟨rfl, by rintro _ ⟨⟩⟩
    | plain hop | fails hop => exact hop.elim
  | takeChannel slot =>
    obtain ⟨c', hflow⟩ := h none
    cases hflow with
    | take => exact ha.2.2
    | plain hop | fails hop => exact hop.elim
  | spawnWait wait =>
    obtain ⟨c', hflow⟩ := h ()
    cases hflow with
    | spawnWait ht hcall => exact ⟨_, ht, hcall⟩
    | plain hop | fails hop => exact hop.elim
  | _ => trivial

theorem CallPoint.Flow.next {op : HandleOp} {r : op.Res} (ha : c.Stage a)
    (h : c.Flow crates calls t op r c') : c'.Stage (a.next calls t op r) := by
  cases h with
  | state moves => exact moves.after ha
  | plain hop accepts =>
    rw [next_of_accepts (next_of_isPlain hop) accepts]
    exact ha
  | fails hop refused =>
    rw [next_of_isPlain hop]
    simp only [HandleThread.Accepts, Classical.not_imp, Bool.not_eq_true] at refused
    simp [CallPoint.Stage, refused.1, refused.2]
  | load r =>
    rw [next_of_accepts rfl fun _ => rfl]
    subst ha
    cases r with
    | error e => exact .inr ⟨rfl, rfl⟩
    | ok record => rfl
  | join r | confirm r =>
    rw [next_of_accepts rfl fun _ => rfl]
    cases r with
    | error e => exact ha
    | ok record => exact ha.1
  | connect r demanded =>
    cases r with
    | error e => simp [CallPoint.Stage, HandleStage.next, demanded, HandleOp.succeeds, Except.isOk,
        Except.toBool]
    | ok u =>
      rw [next_of_accepts rfl fun _ => rfl]
      exact ha
  | take r =>
    cases r with
    | none => exact Bool.or_true _
    | some channel => exact ⟨ha.1, ha.2.1⟩
  | fill => exact ⟨ha.1, ha.2, rfl⟩
  | arrive =>
    subst ha
    rfl
  | reset => trivial
  | spawn r => cases r <;> trivial
  | spawnWait | waitPeer =>
    rw [next_of_accepts rfl fun _ => rfl]
    exact ha

/-- Every call settles what it owes. -/
theorem obeys_of_runs {α : Type} {p : HandleProgram α}
    (hp : Runs crates calls t (fun b _ => b.Ends) .idle p) : Obeys calls t .fresh p := by
  refine hp.conforms CallPoint.Stage rfl CallPoint.Flow.permits CallPoint.Flow.next ?_
  intro c a x ha hends
  cases c with
  | idle =>
    subst ha
    exact HandleStage.settled_fresh
  | ended => exact ha
  | failed => exact .inl ha
  | _ => exact hends.elim

end Calls

/-! ## All threads together -/

section Runs

variable (crates : HandleCrates) (calls : ℕ → HandleCall)

def Announced (stages : HandleThread → Option HandleStage) (m : ℕ) : Prop :=
  ∃ t a, stages t = some a ∧ t.slot = m ∧ a.filled = true ∧ a.announced = true

/-- Whoever has taken a pending confirmation out of the phase finds its channel: it was put
there before it was announced, and only one thread has taken the confirmation. -/
structure Places (stages : HandleThread → Option HandleStage) (w : HandleWorld) : Prop where
  waits : ∀ n ∈ w.waits, ∃ url, calls n = .pairBegin url
  started : ∀ n a, stages (.wait n) = some a → n ∈ w.waits
  claims : ∀ n a, stages (.call n) = some a → a.filled = true → ∃ qr, calls n = .pairClaim qr
  unannounced : ∀ t a, stages t = some a → a.filled = true → a.announced = false →
    (w.channels t.slot).isSome = true
  ready : ∀ m, w.state.ready = some m → (w.channels m).isSome = true ∧ Announced stages m ∧
    ∀ t a, stages t = some a → a.held ≠ some m
  held : ∀ t a m, stages t = some a → a.held = some m →
    (w.channels m).isSome = true ∧ Announced stages m
  unique : ∀ t t' a a' m, stages t = some a → stages t' = some a' → a.held = some m →
    a'.held = some m → t = t'

def Owed (owed : HandleStage → Bool) (stages : HandleThread → Option HandleStage) : Prop :=
  ∃ n a, stages (.call n) = some a ∧ owed a = true

structure Accounted (stages : HandleThread → Option HandleStage) (w : HandleWorld) : Prop where
  trusted : ∀ t a, stages t = some a → a.excused = false
  busy : w.state.busy = true → Owed HandleStage.owes stages
  moving : w.state.moving = true → Owed HandleStage.moves stages
  places : Places calls stages w

variable {crates calls} {stages : HandleThread → Option HandleStage} {w : HandleWorld}
  {t : HandleThread} {a a' : HandleStage}

variable {b : HandleStage} {owed : HandleStage → Bool} {u : HandleThread} {m : ℕ}

/-- A place is filled by one thread. -/
theorem Places.filler_unique (h : Places calls stages w) (ha : stages t = some a)
    (hb : stages u = some b) (hslot : t.slot = u.slot) (hfilled : a.filled = true)
    (hfilled' : b.filled = true) : t = u := by
  have hclash : ∀ {n a b}, stages (.call n) = some a → stages (.wait n) = some b →
      a.filled = true → False := by
    intro n a b ha hb hfilled
    obtain ⟨qr, hclaim⟩ := h.claims n a ha hfilled
    obtain ⟨url, hbegin⟩ := h.waits n (h.started n b hb)
    rw [hclaim] at hbegin
    cases hbegin
  cases t with
  | call n =>
    cases u with
    | call m => exact congrArg _ hslot
    | wait m =>
      cases hslot
      exact (hclash ha hb hfilled).elim
  | wait n =>
    cases u with
    | call m =>
      cases hslot
      exact (hclash hb ha hfilled').elim
    | wait m => exact congrArg _ hslot

theorem Announced.update (h : Announced stages m) (ha : stages t = some a)
    (hfilled : a.filled = true → a'.filled = true)
    (hannounced : a.announced = true → a'.announced = true) :
    Announced (update stages t (some a')) m := by
  obtain ⟨u, b, hb, hslot, hbf, hba⟩ := h
  by_cases hut : u = t
  · subst hut
    rw [ha] at hb
    cases hb
    exact ⟨u, a', update_self _ _ _, hslot, hfilled hbf, hannounced hba⟩
  · exact ⟨u, b, by rw [update_of_ne hut, hb], hslot, hbf, hba⟩

theorem forall_update {P : HandleThread → HandleStage → Prop} (hnew : P t a')
    (hold : ∀ u b, u ≠ t → stages u = some b → P u b) :
    ∀ u b, update stages t (some a') u = some b → P u b := by
  intro u b hb
  by_cases hut : u = t
  · subst hut
    rw [update_self] at hb
    cases hb
    exact hnew
  · rw [update_of_ne hut] at hb
    exact hold u b hut hb

theorem Owed.update (h : Owed owed stages) (ha : stages t = some a)
    (hsame : owed a = true → owed a' = true) : Owed owed (update stages t (some a')) := by
  obtain ⟨n, b, hb, howed⟩ := h
  by_cases ht : HandleThread.call n = t
  · subst ht
    rw [ha] at hb
    cases hb
    exact ⟨n, a', update_self _ _ _, hsame howed⟩
  · exact ⟨n, b, by rw [update_of_ne ht, hb], howed⟩

theorem Owed.after_state {found left : Bool} (h : found = true → Owed owed stages)
    (ha : stages t = some a) (howed : owed a' = (left && (!found || owed a)))
    (hleft : left = true) (hwait : ∀ n, t = .wait n → found = true) :
    Owed owed (Function.update stages t (some a')) := by
  cases found with
  | true =>
    refine (h rfl).update ha fun hsame => ?_
    rw [howed, hleft, hsame]
    rfl
  | false =>
    cases t with
    | call n => exact ⟨n, a', update_self _ _ _, by rw [howed, hleft]; rfl⟩
    | wait n => cases hwait n rfl

/-- Nobody holds a place that has not been announced. -/
theorem Places.unheld (h : Places calls stages w) (ha : stages t = some a)
    (hfilled : a.filled = true) (hfalse : a.announced = false) (hb : stages u = some b) :
    b.held ≠ some t.slot := by
  intro hheld
  obtain ⟨-, v, c, hc, hslot, hcf, hca⟩ := h.held u b _ hb hheld
  have hvt := h.filler_unique hc ha hslot hcf hfilled
  subst hvt
  rw [ha] at hc
  cases hc
  rw [hca] at hfalse
  cases hfalse

theorem HandleStage.held_after {slot : ℕ} {found left : HandleState}
    (hm : (a.after slot found left).held = some m) :
    found.ready = some m ∧ left.ready ≠ some m ∨ a.held = some m := by
  simp only [HandleStage.after] at hm
  split at hm
  · exact .inr hm
  · rename_i hne
    cases hready : found.ready with
    | none =>
      rw [hready, Option.none_or] at hm
      exact .inr hm
    | some m' =>
      rw [hready, Option.some_or] at hm
      cases hm
      exact .inl ⟨rfl, fun heq => hne (heq.trans hready.symm)⟩

section Updates

variable (h : Places calls stages w) (ha : stages t = some a)

include h ha in
theorem Places.started_update (w' : HandleWorld) (hwaits : w.waits ⊆ w'.waits) (n : ℕ)
    (b : HandleStage) (hb : update stages t (some a') (.wait n) = some b) :
    n ∈ w'.waits := by
  refine hwaits (forall_update (P := fun u _ => ∀ n, u = .wait n → n ∈ w.waits) ?_ ?_ _ _ hb n rfl)
  · rintro n rfl
    exact h.started n a ha
  · rintro u b - hb n rfl
    exact h.started n b hb

include h ha in
theorem Places.claims_update
    (hclaims : ∀ n, t = .call n → a'.filled = true → a.filled = true ∨
      ∃ qr, calls n = .pairClaim qr)
    (n : ℕ) (b : HandleStage) (hb : update stages t (some a') (.call n) = some b)
    (hfilled : b.filled = true) : ∃ qr, calls n = .pairClaim qr := by
  refine forall_update (P := fun u b => ∀ n, u = .call n → b.filled = true →
    ∃ qr, calls n = .pairClaim qr) ?_ ?_ _ _ hb n rfl hfilled
  · rintro n rfl hfilled
    exact (hclaims n rfl hfilled).elim (h.claims n a ha) id
  · rintro u b - hb n rfl
    exact h.claims n b hb

include h in
theorem Places.unique_update
    (hmoved : ∀ u b m, u ≠ t → stages u = some b → b.held = some m → a'.held ≠ some m)
    (u v : HandleThread) (b c : HandleStage) (m : ℕ)
    (hb : update stages t (some a') u = some b)
    (hc : update stages t (some a') v = some c) (hbm : b.held = some m)
    (hcm : c.held = some m) : u = v := by
  by_cases hut : u = t
  · by_cases hvt : v = t
    · rw [hut, hvt]
    · rw [hut, update_self] at hb
      rw [update_of_ne hvt] at hc
      cases hb
      exact absurd hbm (hmoved v c m hvt hc hcm)
  · rw [update_of_ne hut] at hb
    by_cases hvt : v = t
    · rw [hvt, update_self] at hc
      cases hc
      exact absurd hcm (hmoved u b m hut hb hbm)
    · rw [update_of_ne hvt] at hc
      exact h.unique u v b c m hb hc hbm hcm

include h ha in
theorem Places.after_state {update : HandleState → HandleState}
    (hpublish : ∀ m, (update w.state).ready = some m → w.state.ready = some m ∨ m = t.slot ∧
      a.filled = true ∧ a.announced = false) :
    Places calls (Function.update stages t (some (a.after t.slot w.state (update w.state))))
      { w with state := update w.state } where
  waits := h.waits
  started := h.started_update ha _ fun _ hn => hn
  claims := h.claims_update ha fun _ _ hfilled => .inl hfilled
  unannounced := by
    refine forall_update (fun hfilled hfalse => ?_) fun u b _ => h.unannounced u b
    exact h.unannounced t a ha hfilled (Bool.or_eq_false_iff.1 hfalse).1
  ready m hready := by
    by_cases hbefore : w.state.ready = some m
    · obtain ⟨hchannel, hm, hnot⟩ := h.ready m hbefore
      refine ⟨hchannel, hm.update ha id fun hm => by simp [HandleStage.after, hm],
        forall_update (fun hnew => ?_) fun u b _ => hnot u b⟩
      obtain ⟨-, hgone⟩ | hold := HandleStage.held_after hnew
      · exact hgone hready
      · exact hnot t a ha hold
    · obtain ⟨rfl, hfilled, hfalse⟩ := (hpublish m hready).resolve_left hbefore
      have hleft : (update w.state).ready = some t.slot := hready
      refine ⟨h.unannounced t a ha hfilled hfalse,
        ⟨t, _, update_self _ _ _, rfl, hfilled, by simp [HandleStage.after, hleft, hbefore]⟩,
        forall_update (fun hnew => ?_) fun u b _ hb => h.unheld ha hfilled hfalse hb⟩
      obtain ⟨hfound, -⟩ | hold := HandleStage.held_after hnew
      · exact hbefore hfound
      · exact h.unheld ha hfilled hfalse ha hold
  held u b m hb hm := by
    have hfind : (w.channels m).isSome = true ∧ Announced stages m := by
      refine forall_update (P := fun _ b => b.held = some m →
        (w.channels m).isSome = true ∧ Announced stages m) (fun hnew => ?_)
        (fun u b _ hb => h.held u b m hb) u b hb hm
      obtain ⟨hfound, -⟩ | hold := HandleStage.held_after hnew
      · exact ⟨(h.ready m hfound).1, (h.ready m hfound).2.1⟩
      · exact h.held t a m ha hold
    exact ⟨hfind.1, hfind.2.update ha id fun hm => by simp [HandleStage.after, hm]⟩
  unique := by
    refine h.unique_update fun u b m hne hb hm hnew => ?_
    obtain ⟨hfound, -⟩ | hold := HandleStage.held_after hnew
    · exact (h.ready m hfound).2.2 u b hb hm
    · exact hne (h.unique u t b a m hb ha hm hold)

include h ha in
theorem Places.after_put {channel : PendingConfirmation}
    (hclaims : ∀ n, t = .call n → ∃ qr, calls n = .pairClaim qr) :
    Places calls (update stages t (some { a with filled := true }))
      { w with channels := update w.channels t.slot (some channel) } := by
  have hmono : ∀ m, (w.channels m).isSome = true →
      (update w.channels t.slot (some channel) m).isSome = true := by
    intro m hm
    by_cases hslot : m = t.slot
    · rw [hslot, update_self]
      rfl
    · rw [update_of_ne hslot]
      exact hm
  have hannounced : ∀ {m}, Announced stages m →
      Announced (update stages t (some { a with filled := true })) m :=
    fun hm => hm.update ha (fun _ => rfl) id
  constructor
  · exact h.waits
  · exact h.started_update ha _ fun _ hn => hn
  · exact h.claims_update ha fun n hn _ => .inr (hclaims n hn)
  · have hfilled : (update w.channels t.slot (some channel) t.slot).isSome = true := by
      rw [update_self]
      rfl
    exact forall_update (fun _ _ => hfilled) fun u b _ hb hf hfalse =>
      hmono _ (h.unannounced u b hb hf hfalse)
  · intro m hready
    obtain ⟨hchannel, hm, hnot⟩ := h.ready m hready
    exact ⟨hmono m hchannel, hannounced hm, forall_update (hnot t a ha) fun u b _ => hnot u b⟩
  · intro u b m hb hm
    have hfind : (w.channels m).isSome = true ∧ Announced stages m := by
      refine forall_update (P := fun _ b => b.held = some m →
        (w.channels m).isSome = true ∧ Announced stages m) ?_ ?_ u b hb hm
      · exact h.held t a m ha
      · exact fun u b _ hb => h.held u b m hb
    exact ⟨hmono m hfind.1, hannounced hfind.2⟩
  · exact h.unique_update fun u b m hne hb hm hnew => hne (h.unique u t b a m hb ha hm hnew)

include h ha in
theorem Places.after_take {m : ℕ} (hheld : a.held = some m) (excused : Bool) :
    Places calls (update stages t (some { a with held := none, excused := excused }))
      { w with channels := update w.channels m none } := by
  have hannounced : ∀ {m}, Announced stages m → Announced
      (update stages t (some { a with held := none, excused := excused })) m :=
    fun hm => hm.update ha id id
  have hother : ∀ {m'}, m' ≠ m → (w.channels m').isSome = true →
      (update w.channels m none m').isSome = true := by
    intro m' hne hm'
    rw [update_of_ne hne]
    exact hm'
  have hunannounced : ∀ u b, stages u = some b → b.filled = true → b.announced = false →
      (update w.channels m none u.slot).isSome = true := by
    intro u b hb hfilled hfalse
    refine hother ?_ (h.unannounced u b hb hfilled hfalse)
    rintro rfl
    exact h.unheld hb hfilled hfalse ha hheld
  constructor
  · exact h.waits
  · exact h.started_update ha _ fun _ hn => hn
  · exact h.claims_update ha fun _ _ hfilled => .inl hfilled
  · exact forall_update (hunannounced t a ha) fun u b _ => hunannounced u b
  · intro m' hready
    obtain ⟨hchannel, hm', hnot⟩ := h.ready m' hready
    refine ⟨hother ?_ hchannel, hannounced hm', forall_update nofun fun u b _ => hnot u b⟩
    rintro rfl
    exact hnot t a ha hheld
  · intro u b m' hb hm'
    refine forall_update (P := fun _ b => b.held = some m' → _) nofun ?_ u b hb hm'
    intro u b hne hb hbm
    obtain ⟨hchannel, hfound⟩ := h.held u b m' hb hbm
    refine ⟨hother ?_ hchannel, hannounced hfound⟩
    rintro rfl
    exact hne (h.unique u t b a _ hb ha hbm hheld)
  · exact h.unique_update fun _ _ _ _ _ _ => nofun

include h in
theorem Places.after_spawn {wait : ℕ} (hbegin : ∃ url, calls wait = .pairBegin url) :
    Places calls stages { w with waits := insert wait w.waits } :=
  { h with
    waits := fun n hn => by
      obtain rfl | hn := Finset.mem_insert.1 hn
      · exact hbegin
      · exact h.waits n hn
    started := fun n a ha => Finset.mem_insert_of_mem (h.started n a ha) }

end Updates

/-- A thread starts with nothing to account for. -/
theorem Accounted.begin (h : Accounted calls stages w) (hnone : stages t = none)
    (hwait : ∀ n, t = .wait n → n ∈ w.waits) :
    Accounted calls (update stages t (some .fresh)) w := by
  have hkept : ∀ {u b}, stages u = some b → update stages t (some .fresh) u = some b := by
    intro u b hb
    have hut : u ≠ t := by
      rintro rfl
      rw [hnone] at hb
      cases hb
    rw [update_of_ne hut, hb]
  have howed : ∀ {owed}, Owed owed stages → Owed owed (update stages t (some .fresh)) :=
    fun ⟨n, b, hb, hdebt⟩ => ⟨n, b, hkept hb, hdebt⟩
  have hannounced : ∀ {m}, Announced stages m →
      Announced (update stages t (some .fresh)) m :=
    fun ⟨u, b, hb, hrest⟩ => ⟨u, b, hkept hb, hrest⟩
  have hplaces := h.places
  refine ⟨forall_update rfl fun u b _ => h.trusted u b, fun hbusy => howed (h.busy hbusy),
    fun hmoving => howed (h.moving hmoving), hplaces.waits, fun n b hb => ?_, fun n b hb => ?_,
    forall_update nofun fun u b _ => hplaces.unannounced u b, fun m hready => ?_,
    fun u b m hb => ?_, hplaces.unique_update fun _ _ _ _ _ _ => nofun⟩
  · refine forall_update (P := fun u _ => ∀ n, u = .wait n → n ∈ w.waits) hwait ?_ _ _ hb n rfl
    rintro u b - hb n rfl
    exact hplaces.started n b hb
  · refine forall_update (P := fun u b => ∀ n, u = .call n → b.filled = true →
      ∃ qr, calls n = .pairClaim qr) ?_ ?_ _ _ hb n rfl
    · exact fun _ _ => nofun
    · rintro u b - hb n rfl
      exact hplaces.claims n b hb
  · obtain ⟨hchannel, hm, hnot⟩ := hplaces.ready m hready
    exact ⟨hchannel, hannounced hm, forall_update nofun fun u b _ => hnot u b⟩
  · refine forall_update (P := fun _ b => b.held = some m → _) nofun ?_ u b hb
    intro u b _ hb hheld
    obtain ⟨hchannel, hm⟩ := hplaces.held u b m hb hheld
    exact ⟨hchannel, hannounced hm⟩

variable {w' : HandleWorld}

theorem Accounted.of_places (h : Accounted calls stages w) (ha : stages t = some a)
    (hstate : w'.state = w.state) (hexcused : a'.excused = false) (howes : a'.owes = a.owes)
    (hmoves : a'.moves = a.moves) (hplaces : Places calls (update stages t (some a')) w') :
    Accounted calls (update stages t (some a')) w' where
  trusted := forall_update hexcused fun u b _ => h.trusted u b
  busy hbusy := (h.busy (hstate ▸ hbusy)).update ha fun hdebt => howes.trans hdebt
  moving hmoving := (h.moving (hstate ▸ hmoving)).update ha fun hdebt => hmoves.trans hdebt
  places := hplaces

theorem Accounted.access (h : Accounted calls stages w) (ha : stages t = some a) {op : HandleOp}
    (hpermits : a.Permits calls t op) {r : op.Res} (haccepts : t.Accepts calls op r)
    (hexec : HandleWorld.exec op w r w') :
    Accounted calls (update stages t (some (a.next calls t op r))) w' := by
  have hexcused := h.trusted t a ha
  cases op with
  | state update =>
    obtain ⟨rfl, rfl⟩ := hexec
    exact ⟨forall_update hexcused fun u b _ => h.trusted u b,
      fun hbusy => Owed.after_state h.busy ha rfl hbusy
        fun n hn => (hpermits.2 n hn w.state).1 hbusy,
      fun hmoving => Owed.after_state h.moving ha rfl hmoving
        fun n hn => (hpermits.2 n hn w.state).2 hmoving,
      h.places.after_state ha fun m => hpermits.1 w.state m⟩
  | putChannel slot channel =>
    obtain ⟨rfl, hclaims⟩ := hpermits
    cases hexec
    exact h.of_places ha rfl hexcused rfl rfl (h.places.after_put ha hclaims)
  | takeChannel slot =>
    obtain ⟨rfl, rfl⟩ := hexec
    -- The channel of a confirmation that was taken out of the phase is there.
    have hsome := (h.places.held t a slot ha hpermits).1
    refine h.of_places ha rfl ?_ rfl rfl (h.places.after_take ha hpermits _)
    change (a.excused || (w.channels slot).isNone) = false
    rw [hexcused, Bool.false_or, Option.isNone_eq_false_iff]
    exact hsome
  | spawnWait wait =>
    obtain ⟨url, rfl, hbegin⟩ := hpermits
    cases hexec
    rw [next_of_accepts rfl haccepts, ← ha, update_eq_self]
    exact { h with places := h.places.after_spawn ⟨url, hbegin⟩ }
  | _ =>
    cases hexec
    rw [next_of_accepts rfl haccepts, ← ha, update_eq_self]
    exact h

theorem accounted_start :
    Accounted calls (fun _ => none) ⟨.active ⟨0, .unpaired⟩, fun _ => none, ∅⟩ where
  trusted _ _ ha := nomatch ha
  busy hbusy := absurd hbusy (by decide)
  moving hmoving := absurd hmoving (by decide)
  places :=
    { waits := fun _ hn => absurd hn (Finset.notMem_empty _)
      started := fun _ _ ha => nomatch ha
      claims := fun _ _ ha => nomatch ha
      unannounced := fun _ _ ha => nomatch ha
      ready := fun _ hready => nomatch hready
      held := fun _ _ _ ha => nomatch ha
      unique := fun _ _ _ _ _ ha => nomatch ha }

theorem accounted_staging (crates : HandleCrates) (calls : ℕ → HandleCall) :
    Threads.Staging ((handleSystem crates calls).accepting (HandleThread.Accepts calls))
      (fun t a p => Obeys calls t a p) (Accounted calls) where
  enter {stages t s p s'} h hnone henter := by
    obtain ⟨hruns, rfl⟩ := runs_of_enter henter
    refine ⟨.fresh, obeys_of_runs hruns, h.begin hnone ?_⟩
    rintro n rfl
    exact henter.1
  again {stages t a v s p s'} _ _ _ henter := by
    cases t <;> exact henter.elim
  access h ha hobeys hexec := ⟨_, hobeys.2 _, h.access ha hobeys.1 hexec.1 hexec.2⟩

/-- Whenever no call is in progress the handle is usable, in the runs in which nothing
fails that a call does not recover from. -/
theorem usable_of_quiet (crates : HandleCrates) (calls : ℕ → HandleCall) {x : HandleThreads calls}
    (hrun : Threads.Reaches
      ((handleSystem crates calls).accepting (HandleThread.Accepts calls))
      (HandleThreads.start calls) x)
    (hquiet : x.Quiet) : x.shared.state.Usable := by
  have hstart : Threads.Staged (fun t a p => Obeys calls t a p) (Accounted calls)
      (HandleThreads.start calls) :=
    ⟨fun _ => none, accounted_start, fun _ _ => rfl, nofun⟩
  obtain ⟨stages, h, hnone, hsome⟩ := (accounted_staging crates calls).reaches hstart hrun
  have hsettled : ∀ n a, stages (.call n) = some a → a.owes = false ∧ a.moves = false := by
    intro n a ha
    cases hthread : x.threads (.call n) with
    | none =>
      rw [hnone _ hthread] at ha
      cases ha
    | some p =>
      obtain ⟨b, hb, hobeys⟩ := hsome _ p hthread
      rw [ha] at hb
      cases hb
      obtain ⟨value, rfl⟩ := hquiet n p hthread
      exact hobeys.resolve_left (by simp [h.trusted _ a ha])
  refine HandleState.usable_of_not ?_ ?_
  · by_contra hbusy
    obtain ⟨n, a, ha, howes⟩ := h.busy (Bool.not_eq_false _ ▸ hbusy)
    rw [(hsettled n a ha).1] at howes
    cases howes
  · by_contra hmoving
    obtain ⟨n, a, ha, hmoves⟩ := h.moving (Bool.not_eq_false _ ▸ hmoving)
    rw [(hsettled n a ha).2] at hmoves
    cases hmoves

end Runs

/-! ## Computed runs -/

/-- The results of the operations that can have any. -/
abbrev HandleAnswers := (op : HandleOp) → op.Res

def HandleWorld.run (answers : HandleAnswers) : (op : HandleOp) → HandleWorld → op.Res × HandleWorld
  | .state update, w => (w.state, { w with state := update w.state })
  | .putChannel slot channel, w =>
    ((), { w with channels := update w.channels slot (some channel) })
  | .takeChannel slot, w =>
    (w.channels slot, { w with channels := update w.channels slot none })
  | .spawnWait wait, w => ((), { w with waits := insert wait w.waits })
  | op, w => (answers op, w)

theorem HandleWorld.exec_run (answers : HandleAnswers) (op : HandleOp) (w : HandleWorld) :
    exec op w (run answers op w).1 (run answers op w).2 := by
  cases op <;> first | rfl | exact ⟨rfl, rfl⟩

section Replay

variable (crates : HandleCrates) (calls : ℕ → HandleCall)

def HandleThread.launch (w : HandleWorld) : (t : HandleThread) → Option (t.Value calls) →
    Option (HandleProgram (t.Value calls))
  | .call n, none => some ((calls n).program crates n)
  | .wait n, none => if n ∈ w.waits then some (waitForPeer crates n) else none
  | _, some _ => none

variable {crates calls}

theorem enter_of_launch {t : HandleThread} {value : Option (t.Value calls)} {w : HandleWorld}
    {p : HandleProgram (t.Value calls)} (h : t.launch crates calls w value = some p) :
    (handleSystem crates calls).enter t value w p w := by
  cases value with
  | some value => cases t <;> cases h
  | none =>
    cases t with
    | call n =>
      cases h
      exact ⟨rfl, rfl⟩
    | wait n =>
      obtain ⟨hn, heq⟩ := Option.ite_none_right_eq_some.1 h
      cases heq
      exact ⟨hn, rfl, rfl⟩

end Replay

/-! ## A store that cannot be opened -/

namespace HandleSample

def crates : HandleCrates := ⟨.sample, false, fun _ => .error .json, fun _ => .error ""⟩

/-- Everything succeeds, as far as a value is at hand. -/
def answers : HandleAnswers
  | .state _ => .shutdown
  | .nowMs => 0
  | .loadPairing => .ok none
  | .pairingStore | .sessionStore | .historyStore | .newSession _ | .resetPairingState
  | .trySend .. => .ok ()
  | .loadIdentity => .error .json
  | .offer _ => .error .notPaired
  | .claim _ => .error .notPaired
  | .confirmPair .. | .join => .error .notPaired
  | .qrToJson _ => .error .json
  | .waitPeer => .error ""
  | .takeChannel _ => none
  | .spawnActive => .ok 1
  | .recv .disconnect => some ()
  | .recv _ => none
  | .joined _ | .stopped _ => true
  | .emit _ | .spawnWait _ | .abortWait _ | .putChannel .. | .sleep | .shutdownRuntime _ => ()

def calls : ℕ → HandleCall
  | 0 => .pairLoad
  | _ => .start

def record : PairingRecord :=
  ⟨1, "wss://relay", "room", "local", ⟨.replicate 32 0, .replicate 32 0⟩, "peer"⟩

def world (phase : PairingPhase) : HandleWorld := ⟨.active ⟨0, phase⟩, fun _ => none, ∅⟩

def loaded : HandleThreads calls :=
  (HandleThreads.start calls).set (.call 0) (done (.ok true)) (world (.paired record))

theorem reaches_loaded : Threads.Reaches
    ((handleSystem crates calls).accepting (HandleThread.Accepts calls))
    (HandleThreads.start calls) loaded := by
  refine Threads.reaches_begin (t := HandleThread.call 0) rfl ⟨rfl, rfl⟩ ?_
  refine .call (.ok ()) ⟨fun _ => rfl, rfl⟩ (.call (.ok (some record)) ⟨fun _ => rfl, rfl⟩ ?_)
  exact .call (.active ⟨0, .unpaired⟩) ⟨fun _ => rfl, rfl, rfl⟩ (.refl _ _)

theorem quiet_set {value : (calls 1).Value} {w : HandleWorld} :
    HandleThreads.Quiet (loaded.set (.call 1) (done value) w) := by
  intro n p hp
  by_cases hn : HandleThread.call n = .call 1
  · cases hn
    rw [Threads.set_threads_self] at hp
    exact ⟨value, (Option.some.inj hp).symm⟩
  · rw [Threads.set_threads_of_ne _ hn] at hp
    by_cases hn : HandleThread.call n = .call 0
    · cases hn
      rw [loaded, Threads.set_threads_self] at hp
      exact ⟨.ok true, (Option.some.inj hp).symm⟩
    · rw [loaded, Threads.set_threads_of_ne _ hn] at hp
      cases hp

/-- The relay refuses to be joined. -/
theorem usable_of_quiet_sample :
    ∃ x : HandleThreads calls, x.threads (.call 1) = some (done (.error .notPaired)) ∧ x.Quiet ∧
      x.shared.state.Usable := by
  have hstart : Threads.Reaches
      ((handleSystem crates calls).accepting (HandleThread.Accepts calls)) loaded
      (loaded.set (.call 1) (done (.error .notPaired)) (world (.paired record))) := by
    refine Threads.reaches_begin (t := HandleThread.call 1) rfl ⟨rfl, rfl⟩ ?_
    refine .call () ⟨fun _ => rfl, rfl⟩
      (.call (.active ⟨0, .paired record⟩) ⟨fun _ => rfl, rfl, rfl⟩ ?_)
    refine .call (.ok ()) ⟨fun _ => rfl, rfl⟩
      (.call (.error .notPaired) ⟨fun _ => rfl, rfl⟩ ?_)
    exact .call (.active ⟨0, .busy⟩) ⟨fun _ => rfl, rfl, rfl⟩
      (.call () ⟨fun _ => rfl, rfl⟩ (.refl _ _))
  exact ⟨_, Threads.set_threads_self _ _ _ _, quiet_set,
    usable_of_quiet crates calls (reaches_loaded.trans hstart) quiet_set⟩

/-- The store cannot be opened when the endpoint connects: the call returns and leaves the
phase `Busy`. -/
theorem start_leaves_busy :
    ∃ x : HandleThreads calls,
      Threads.Reaches (handleSystem crates calls) (HandleThreads.start calls) x ∧ x.Quiet ∧
      ¬ x.shared.state.Usable := by
  have hloaded : Threads.Reaches (handleSystem crates calls) (HandleThreads.start calls) loaded :=
    Threads.Reaches.of_accepting reaches_loaded
  have hstart : Threads.Reaches (handleSystem crates calls) loaded
      (loaded.set (.call 1) (done (.error (.internal "pairing I/O failed"))) (world .busy)) := by
    refine Threads.reaches_begin (t := HandleThread.call 1) rfl ⟨rfl, rfl⟩ ?_
    refine .call () rfl (.call (.active ⟨0, .paired record⟩) ⟨rfl, rfl⟩ ?_)
    exact .call (.error (.io .notFound)) rfl (.refl _ _)
  exact ⟨_, hloaded.trans hstart, quiet_set, fun h => h rfl⟩

end HandleSample

end ClipSync
