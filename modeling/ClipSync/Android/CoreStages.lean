import ClipSync.Android.CoreSlot

/-!
# What the programs of the application have in hand

A program that has taken sends out of the slot has to complete them or pass them on, one
that has announced a start has to queue it, and a start that has been taken from the queue
has to come back to the slot. The stage of a program is what it has in hand; when it ends,
it has nothing left, unless an exception has made it drop a list of sends.
-/

namespace ClipSync

namespace AndroidApp

open Lib Program

/-- What a thread has in hand: sends to complete or pass on, a start to queue, a start to
settle, a retry to plan or to carry out. -/
structure Stage where
  holding : List PendingSend := []
  launching : Option Int64 := none
  starting : Option Int64 := none
  retrying : Option (Int64 × Int32) := none

namespace Stage

def next (a : Stage) (op : CoreOp) (r : op.Res) : Stage where
  holding := match op, r with
    | .history _, .error _ => []
    | op, r => CoreApp.holdingAfter a.holding op r
  launching := CoreApp.launchingAfter a.launching op r
  starting := CoreApp.startingAfter a.starting op r
  retrying := CoreApp.retryingAfter a.retrying op r

def Permits (a : Stage) : CoreOp → Prop
  | .scheduleStart => a.holding = [] ∧ a.launching = none ∧ a.starting = none
  | .openGateway generation | .becomeReady generation => a = { starting := some generation }
  | .failStart generation => a = {} ∨ a = { starting := some generation }
  | .shouldRetry generation retryToken | .schedule generation retryToken =>
    a = { retrying := some (generation, retryToken) }
  | .stop | .execute (.shutdown _) => a = {}
  | .offer send | .execute (.send _ send) => a = { holding := [send] }
  | .execute (.start generation) => a = { launching := some generation }
  | .onComplete send _ => ∃ rest, a.holding = send :: rest
  | .loadPairingAndStart _ | .pairingSnapshot _ | .history _ | .sendText .. | .sendImage ..
  | .shutdown _ => True

def Runs {α : Type} (final : Stage → α → Prop) (a : Stage) (p : CoreProgram α) : Prop :=
  Conforms Permits next final a p

def EmptyHanded (a : Stage) (_ : Unit) : Prop := a = {}

end Stage

open Stage

/-! ## What the operations change of a stage -/

section Next

variable (a : Stage)

theorem next_onComplete (send : PendingSend) (result : SendResult) :
    a.next (.onComplete send result) () = { a with holding := a.holding.erase send } := rfl

theorem next_execute_send (gateway : ℕ) (send : PendingSend) :
    a.next (.execute (.send gateway send)) () = { a with holding := a.holding.erase send } := rfl

theorem next_offer (send : PendingSend) (r : Offered) :
    a.next (.offer send) r =
      { a with holding := if r = .queued then a.holding.erase send else a.holding } := rfl

theorem next_history (gateway : ℕ) (r : Except String Unit) :
    a.next (.history gateway) r = match r with
      | .ok () => a
      | .error _ => { a with holding := [] } := by
  cases r <;> rfl

end Next

/-! ## The programs -/

theorem startCoreAfterForeground_runs (retrying : Option (Int64 × Int32)) :
    Runs EmptyHanded { retrying := retrying } startCoreAfterForeground := by
  refine ⟨⟨rfl, rfl, rfl⟩, fun r => ?_⟩
  cases r with
  | none => rfl
  | some generation => exact ⟨rfl, fun _ => rfl⟩

theorem completeAll_runs (result : SendResult) (sends : List PendingSend)
    (retrying : Option (Int64 × Int32)) :
    Runs (fun b _ => b = { retrying := retrying }) { holding := sends, retrying := retrying }
      (completeAll result sends) := by
  induction sends with
  | nil => rfl
  | cons send sends ih =>
    refine ⟨⟨sends, rfl⟩, fun _ => ?_⟩
    rw [next_onComplete, List.erase_cons_head]
    exact ih

theorem stopCore_runs : Runs EmptyHanded {} stopCore := by
  refine conforms_perform_bind rfl fun r => ?_
  refine conforms_bind (completeAll_runs .serviceUnavailable r.2 none) ?_
  rintro _ _ rfl
  cases r.1 with
  | none => rfl
  | some gateway => exact ⟨rfl, fun _ => rfl⟩

theorem send_runs (self : PendingSend) : Runs EmptyHanded { holding := [self] } (send self) := by
  refine ⟨rfl, fun r => ?_⟩
  rw [next_offer]
  cases r with
  | queued =>
    rw [if_pos rfl, List.erase_cons_head]
    exact rfl
  | unavailable =>
    refine ⟨⟨[], rfl⟩, fun _ => ?_⟩
    rw [next_onComplete, if_neg (by decide), List.erase_cons_head]
    exact rfl
  | sendBy gateway =>
    refine ⟨rfl, fun _ => ?_⟩
    rw [next_execute_send, if_neg (by simp), List.erase_cons_head]
    exact rfl

theorem sendWithGateway_runs (gateway : ℕ) (send : PendingSend) (rest : List PendingSend) :
    Runs (fun b r => b = { holding := if r = .ok () then rest else [] })
      { holding := send :: rest } (sendWithGateway gateway send) := by
  have hpayload : Runs (fun b _ => b = { holding := send :: rest }) { holding := send :: rest }
      (sendPayload gateway send.payload) := by
    cases send.payload <;> exact ⟨trivial, fun _ => rfl⟩
  refine conforms_bind hpayload ?_
  rintro _ r rfl
  cases r with
  | ok sequence =>
    refine ⟨⟨rest, rfl⟩, fun _ => ⟨trivial, fun r => ?_⟩⟩
    rw [next_onComplete, List.erase_cons_head, next_history]
    cases r <;> rfl
  | error detail =>
    refine ⟨⟨rest, rfl⟩, fun _ => ?_⟩
    rw [next_onComplete, List.erase_cons_head]
    exact rfl

theorem sendAll_runs (gateway : ℕ) (sends : List PendingSend) :
    Runs (fun b _ => b = {}) { holding := sends } (sendAll gateway sends) := by
  induction sends with
  | nil => rfl
  | cons send sends ih =>
    refine conforms_bind (sendWithGateway_runs gateway send sends) ?_
    rintro _ r rfl
    cases r with
    | error error => rfl
    | ok u => exact ih

theorem tryStart_runs (generation : Int64) (gateway : ℕ) :
    Runs (fun b r => b = {} ∨ r ≠ .ok () ∧ b = { starting := some generation })
      { starting := some generation } (tryStart generation gateway) := by
  refine conforms_perform_bind trivial fun r => ?_
  cases r with
  | error error => exact .inr ⟨by simp, rfl⟩
  | ok paired =>
  have hpairing : Runs (fun b _ => b = { starting := some generation })
      { starting := some generation } (readPairing gateway paired) := by
    cases paired
    · rfl
    · exact ⟨trivial, fun _ => rfl⟩
  refine conforms_bind hpairing ?_
  rintro _ r rfl
  cases r with
  | error error => exact .inr ⟨by simp, rfl⟩
  | ok u =>
  refine ⟨trivial, fun r => ?_⟩
  cases r with
  | error error => exact .inr ⟨by simp, rfl⟩
  | ok u =>
  refine ⟨rfl, fun r => ?_⟩
  cases r with
  | none => exact .inl rfl
  | some pendingSends =>
    exact conforms_mono (fun _ _ h => h) (fun _ _ h => .inl h) (sendAll_runs gateway pendingSends)

theorem planRetry_runs (generation : Int64) {a : Stage}
    (ha : a = {} ∨ a = { starting := some generation }) :
    Runs EmptyHanded a (planRetry generation) := by
  refine conforms_perform_bind ha fun plan => ?_
  have hnext : a.next (.failStart generation) plan = {
      holding := (plan.map (·.pendingSends)).getD []
      retrying := plan.map fun plan => (generation, plan.retryToken) } := by
    rcases ha with rfl | rfl <;> rfl
  rw [hnext]
  cases plan with
  | none => rfl
  | some plan =>
    refine conforms_bind (completeAll_runs .serviceUnavailable plan.pendingSends
      (some (generation, plan.retryToken))) ?_
    rintro _ _ rfl
    exact ⟨rfl, fun _ => rfl⟩

theorem startTask_runs (generation : Int64) :
    Runs EmptyHanded { starting := some generation } (startTask generation) := by
  refine conforms_perform_bind rfl fun r => ?_
  match r with
  | .error _ => rfl
  | .ok none => rfl
  | .ok (some gateway) =>
    refine conforms_bind (tryStart_runs generation gateway) ?_
    rintro b r hb
    cases r with
    | ok u =>
      rcases hb with rfl | ⟨hne, -⟩
      · rfl
      · exact absurd rfl hne
    | error error => exact planRetry_runs generation (hb.imp id And.right)

theorem retryTask_runs (generation : Int64) (retryToken : Int32) :
    Runs EmptyHanded { retrying := some (generation, retryToken) }
      (retryTask generation retryToken) := by
  refine ⟨rfl, fun r => ?_⟩
  cases r with
  | false => rfl
  | true => exact startCoreAfterForeground_runs (some (generation, retryToken))

def CoreTask.stage : CoreTask → Stage
  | .start generation => { starting := some generation }
  | .send _ pending => { holding := [pending] }
  | .shutdown _ => {}

theorem run_runs (task : CoreTask) : Runs EmptyHanded task.stage task.run := by
  cases task with
  | start generation => exact startTask_runs generation
  | send gateway pending =>
    refine conforms_bind (sendWithGateway_runs gateway pending []) ?_
    rintro _ r rfl
    cases r <;> rfl
  | shutdown gateway => exact ⟨trivial, fun _ => rfl⟩

end AndroidApp

end ClipSync
