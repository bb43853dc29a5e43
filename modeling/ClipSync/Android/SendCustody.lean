import ClipSync.Android.CoreStages
import ClipSync.Lib.Custody

/-!
# Sends of the Android application

A send is completed once, or somebody has it: it waits in the slot or in a queued task, or
a thread that is still running has taken it. The exception is the list that a start has
taken out of the slot: the history is read again after every send of the list, and if that
throws, the rest of the list is dropped without being completed.
-/

namespace ClipSync

namespace AndroidApp

open Lib Program Stage Function

/-! ## Where a send is -/

inductive Place where
  | pending
  | queued
  | held (t : CoreThread)
  | completed
deriving DecidableEq

def CoreTask.sendId : CoreTask → Option ℕ
  | .send _ pending => some pending.id
  | .start _ | .shutdown _ => none

namespace CoreApp

def places (s : CoreApp) : Place → List ℕ
  | .pending => s.slot.pendingSends.map (·.id)
  | .queued => s.queue.filterMap CoreTask.sendId
  | .held t => (s.holding t).map (·.id)
  | .completed => s.completed.map (·.1)

/-- Every send that was called for is at one place. -/
structure Accounted (s : CoreApp) : Prop where
  custody : Custody s.places
  issued : ∀ id, id ∈ s.issued ↔ ∃ p, id ∈ s.places p

variable {s s' : CoreApp}

theorem Accounted.of_places (h : s.Accounted) (hplaces : s'.places = s.places)
    (hissued : s'.issued = s.issued) : s'.Accounted := by
  refine ⟨hplaces ▸ h.custody, fun id => ?_⟩
  rw [hissued, hplaces]
  exact h.issued id

variable {before rest : List PendingSend} {q : Place}

theorem Accounted.hand (h : s.Accounted) {p : Place} {part : List ℕ}
    (hhanded : Handed s.places s'.places p q part) (hissued : s'.issued = s.issued) :
    s'.Accounted := by
  refine ⟨h.custody.hand hhanded, fun id => ?_⟩
  rw [hissued, h.issued id]
  exact ⟨fun ⟨_, hid⟩ => hhanded.exists_mem hid, fun ⟨_, hid⟩ => hhanded.exists_mem_of_mem hid⟩

theorem Accounted.of_quiet (h : s.Accounted)
    (hpending : s'.slot.pendingSends = s.slot.pendingSends)
    (hqueue : s'.queue.filterMap CoreTask.sendId = s.queue.filterMap CoreTask.sendId)
    (hcompleted : s'.completed = s.completed) (hholding : s'.holding = s.holding)
    (hissued : s'.issued = s.issued) : s'.Accounted := by
  refine h.of_places (funext fun p => ?_) hissued
  cases p with
  | pending => rw [places, places, hpending]
  | queued => rw [places, places, hqueue]
  | held t => rw [places, places, hholding]
  | completed => rw [places, places, hcompleted]

theorem Accounted.take_pending (h : s.Accounted) {t : CoreThread}
    (hslot : s'.slot.pendingSends = []) (hqueue : s'.queue = s.queue)
    (hcompleted : s'.completed = s.completed)
    (hholding : s'.holding = update s.holding t (s.holding t ++ s.slot.pendingSends))
    (hissued : s'.issued = s.issued) : s'.Accounted := by
  have hhanded : Handed s.places s'.places .pending (.held t)
      (s.slot.pendingSends.map (·.id)) := by
    refine ⟨by simp, ?_, ?_, fun r hr hr' => ?_⟩
    · rw [places, places, hslot]
      exact .refl _
    · rw [places, places, hholding, update_self, List.map_append]
    · cases r with
      | pending => exact absurd rfl hr
      | queued => rw [places, places, hqueue]
      | completed => rw [places, places, hcompleted]
      | held u =>
        have hu : u ≠ t := fun heq => hr' (heq ▸ rfl)
        rw [places, places, hholding, update_of_ne hu]
  exact h.hand hhanded hissued

theorem Accounted.pass_on (h : s.Accounted) {t : CoreThread} {send : PendingSend}
    (hheld : s.holding t = before ++ send :: rest)
    (hholding : s'.holding = update s.holding t (before ++ rest)) (hq : ∀ u, q ≠ .held u)
    (hgiven : s'.places q = s.places q ++ [send.id])
    (hothers : ∀ r, r ≠ q → (∀ u, r ≠ .held u) → s'.places r = s.places r)
    (hissued : s'.issued = s.issued) : s'.Accounted := by
  have hhanded : Handed s.places s'.places (.held t) q [send.id] := by
    refine ⟨(hq t).symm, ?_, ?_, fun r hr hr' => ?_⟩
    · rw [places, places, hheld, hholding, update_self, List.map_append, List.map_cons,
        List.map_append]
      exact List.perm_middle.trans (List.perm_append_singleton _ _).symm
    · rw [hgiven]
    · cases r with
      | held u =>
        have hu : u ≠ t := fun heq => hr (heq ▸ rfl)
        rw [places, places, hholding, update_of_ne hu]
      | pending | queued | completed => exact hothers _ hr' (by simp)
  exact h.hand hhanded hissued

theorem Accounted.erase_held (h : s.Accounted) {t : CoreThread} {send : PendingSend}
    (hheld : s.holding t = before ++ send :: rest) : (s.holding t).erase send = before ++ rest := by
  have hnodup := h.custody.nodup (.held t)
  rw [places, hheld, List.map_append, List.map_cons] at hnodup
  have hnot : send ∉ before := by
    intro hmem
    have hdisjoint := List.disjoint_of_nodup_append hnodup
    exact hdisjoint (List.mem_map_of_mem hmem) List.mem_cons_self
  rw [hheld, List.erase_append_right _ hnot, List.erase_cons_head]

end CoreApp

open CoreApp

/-! ## Operations -/

theorem pendingSends_scheduleStart (slot : CoreSlot) :
    slot.scheduleStart.2.pendingSends = slot.pendingSends := by
  unfold CoreSlot.scheduleStart
  split <;> rfl

theorem pendingSends_openedSlot (slot : CoreSlot) (r : Except String (Option ℕ)) :
    (openedSlot slot r).pendingSends = slot.pendingSends := by
  unfold openedSlot
  split <;> rfl

theorem becomeReady_cases (slot : CoreSlot) (generation : Int64) :
    slot.becomeReady generation = (none, slot) ∨
      (slot.becomeReady generation).1 = some slot.pendingSends ∧
        (slot.becomeReady generation).2.pendingSends = [] := by
  unfold CoreSlot.becomeReady
  split
  · exact .inl rfl
  · exact .inr ⟨rfl, rfl⟩

theorem failStart_cases (slot : CoreSlot) (generation : Int64) :
    slot.failStart generation = (none, slot) ∨
      (slot.failStart generation).1 = some ⟨slot.retryAttempt + 1, slot.pendingSends⟩ ∧
        (slot.failStart generation).2.pendingSends = [] := by
  unfold CoreSlot.failStart
  split
  · exact .inr ⟨rfl, rfl⟩
  · exact .inl rfl

theorem offer_cases (slot : CoreSlot) (send : PendingSend) :
    (slot.offer send).1 ≠ .queued ∧ (slot.offer send).2 = slot ∨
      (slot.offer send).1 = .queued ∧
        (slot.offer send).2.pendingSends = slot.pendingSends ++ [send] := by
  unfold CoreSlot.offer
  split
  · split <;> exact .inl ⟨by simp, rfl⟩
  · split
    · exact .inr ⟨rfl, rfl⟩
    · exact .inl ⟨by simp, rfl⟩

variable {s : CoreApp} {t : CoreThread} {a : Stage} {dropped : List PendingSend}

variable {op : CoreOp} {r : op.Res}

/-- The operations leave every send at one place. -/
theorem Accounted.after (h : s.Accounted) (hpermits : a.Permits op)
    (hheld : s.holding t = dropped ++ a.holding) (hanswers : Answers op s r) :
    (s.after t op r).Accounted := by
  have hsame : ∀ {held : List PendingSend}, held = s.holding t →
      update s.holding t held = s.holding := by
    rintro _ rfl
    exact update_eq_self _ _
  cases op with
  | scheduleStart =>
    exact h.of_quiet (pendingSends_scheduleStart _) rfl rfl (hsame rfl) rfl
  | openGateway generation =>
    exact h.of_quiet (pendingSends_openedSlot _ r) rfl rfl (hsame rfl) rfl
  | becomeReady generation =>
    cases hanswers
    rcases becomeReady_cases s.slot generation with hnone | ⟨hsome, hempty⟩
    · refine h.of_quiet (congrArg (fun r => r.2.pendingSends) hnone) rfl rfl (hsame ?_) rfl
      rw [holdingAfter, hnone]
      exact List.append_nil _
    · refine h.take_pending hempty rfl rfl (congrArg (update s.holding t) ?_) rfl
      rw [holdingAfter, hsome]
      rfl
  | failStart generation =>
    cases hanswers
    rcases failStart_cases s.slot generation with hnone | ⟨hsome, hempty⟩
    · refine h.of_quiet (congrArg (fun r => r.2.pendingSends) hnone) rfl rfl (hsame ?_) rfl
      rw [holdingAfter, hnone]
      exact List.append_nil _
    · refine h.take_pending hempty rfl rfl (congrArg (update s.holding t) ?_) rfl
      rw [holdingAfter, hsome]
      rfl
  | stop =>
    cases hanswers
    exact h.take_pending rfl rfl rfl rfl rfl
  | offer send =>
    cases hanswers
    cases hpermits
    rcases offer_cases s.slot send with ⟨hne, hslot⟩ | ⟨hqueued, hslot⟩
    · refine h.of_quiet (congrArg CoreSlot.pendingSends hslot) rfl rfl (hsame ?_) rfl
      rw [holdingAfter, if_neg hne]
    · refine h.pass_on (q := .pending) hheld (congrArg (update s.holding t) ?_)
        (by simp) ?_ ?_ rfl
      · rw [holdingAfter, if_pos hqueued]
        exact h.erase_held hheld
      · exact (congrArg (List.map (·.id)) hslot).trans List.map_append
      · intro r hr hnot
        cases r with
        | pending => exact absurd rfl hr
        | held u => exact absurd rfl (hnot u)
        | queued | completed => rfl
  | execute task =>
    cases task with
    | send gateway pending =>
      cases hpermits
      refine h.pass_on (q := .queued) hheld
        (congrArg (update s.holding t) (h.erase_held hheld)) (by simp) ?_ ?_ rfl
      · exact List.filterMap_append
      · intro r hr hnot
        cases r with
        | queued => exact absurd rfl hr
        | held u => exact absurd rfl (hnot u)
        | pending | completed => rfl
    | start generation | shutdown gateway =>
      refine h.of_quiet rfl ?_ rfl (hsame rfl) rfl
      exact List.filterMap_append.trans (List.append_nil _)
  | onComplete send result =>
    obtain ⟨rest, hrest⟩ := hpermits
    rw [hrest] at hheld
    refine h.pass_on (q := .completed) hheld
      (congrArg (update s.holding t) (h.erase_held hheld)) (by simp) ?_ ?_ rfl
    · exact List.map_append
    · intro r hr hnot
      cases r with
      | completed => exact absurd rfl hr
      | held u => exact absurd rfl (hnot u)
      | pending | queued => rfl
  | _ => exact h.of_quiet rfl rfl rfl (hsame rfl) rfl

def CoreOp.historyThrows : (op : CoreOp) → op.Res → Bool
  | .history _, .error _ => true
  | _, _ => false

def ReadsHistory (t : CoreThread) (op : CoreOp) (s : CoreApp) (r : op.Res) : Prop :=
  op.historyThrows r = true → s.holding t = []

instance (t : CoreThread) (op : CoreOp) (s : CoreApp) (r : op.Res) :
    Decidable (ReadsHistory t op s r) :=
  inferInstanceAs (Decidable (_ → _))

theorem exists_holdingAfter (h : s.Accounted) (hpermits : a.Permits op)
    (hheld : s.holding t = dropped ++ a.holding) :
    ∃ dropped', holdingAfter (s.holding t) op r = dropped' ++ (a.next op r).holding ∧
      (dropped = [] → ReadsHistory t op s r → dropped' = []) := by
  cases op with
  | becomeReady generation | failStart generation | stop =>
    refine ⟨dropped, ?_, fun hnil _ => hnil⟩
    rw [holdingAfter, hheld, List.append_assoc]
    rfl
  | offer send =>
    cases hpermits
    refine ⟨dropped, ?_, fun hnil _ => hnil⟩
    rw [next_offer, holdingAfter]
    split
    · rw [h.erase_held hheld, List.erase_cons_head]
    · exact hheld
  | execute task =>
    refine ⟨dropped, ?_, fun hnil _ => hnil⟩
    cases task with
    | send gateway pending =>
      cases hpermits
      rw [next_execute_send, holdingAfter, h.erase_held hheld, List.erase_cons_head]
    | start generation | shutdown gateway => exact hheld
  | onComplete send result =>
    obtain ⟨rest, hrest⟩ := hpermits
    refine ⟨dropped, ?_, fun hnil _ => hnil⟩
    rw [hrest] at hheld
    rw [next_onComplete, holdingAfter, h.erase_held hheld, hrest, List.erase_cons_head]
  | history gateway =>
    cases r with
    | ok u => exact ⟨dropped, hheld, fun hnil _ => hnil⟩
    | error e => exact ⟨s.holding t, (List.append_nil _).symm, fun _ hreads => hreads rfl⟩
  | _ => exact ⟨dropped, hheld, fun hnil _ => hnil⟩

/-! ## Tasks and calls -/

theorem Accounted.take (h : s.Accounted) {before rest : List CoreTask} {task : CoreTask}
    (hqueue : s.queue = before ++ task :: rest) : (s.take task (before ++ rest)).Accounted := by
  have hquiet : task.sendId = none →
      (before ++ rest).filterMap CoreTask.sendId = s.queue.filterMap CoreTask.sendId := by
    intro hnone
    rw [hqueue, List.filterMap_append, List.filterMap_append, List.filterMap_cons_none hnone]
  cases task with
  | start generation | shutdown gateway => exact h.of_quiet rfl (hquiet rfl) rfl rfl rfl
  | send gateway pending =>
    have hhanded : Handed s.places (s.take (.send gateway pending) (before ++ rest)).places
        .queued (.held .executor) [pending.id] := by
      refine ⟨by simp, ?_, ?_, fun r hr hr' => ?_⟩
      · have hsend : (CoreTask.send gateway pending).sendId = some pending.id := rfl
        rw [places, places, hqueue, List.filterMap_append,
          List.filterMap_cons_some hsend]
        refine List.perm_middle.trans ?_
        rw [← List.filterMap_append]
        exact (List.perm_append_singleton _ _).symm
      · have hholding : (s.take (.send gateway pending) (before ++ rest)).holding .executor =
            s.holding .executor ++ [pending] := by simp only [CoreApp.take, update_self]
        rw [places, places, hholding, List.map_append]
        rfl
      · cases r with
        | queued => exact absurd rfl hr
        | pending | completed => rfl
        | held u =>
          have hu : u ≠ .executor := fun heq => hr' (heq ▸ rfl)
          simp only [places, CoreApp.take, update_of_ne hu]
    exact h.hand hhanded rfl

theorem Accounted.issue (h : s.Accounted) {send : PendingSend} (hfresh : send.id ∉ s.issued) :
    (s.issue t send).Accounted := by
  have hnowhere : ∀ p, send.id ∉ s.places p := fun p hmem => hfresh ((h.issued _).2 ⟨p, hmem⟩)
  have hheld : (s.issue t send).places (.held t) = s.places (.held t) ++ [send.id] := by
    have hholding : (s.issue t send).holding t = s.holding t ++ [send] := update_self _ _ _
    rw [places, hholding, List.map_append]
    rfl
  have hothers : ∀ p, p ≠ .held t → (s.issue t send).places p = s.places p := by
    intro p hp
    cases p with
    | held u =>
      have hu : u ≠ t := fun heq => hp (heq ▸ rfl)
      simp only [places, CoreApp.issue, update_of_ne hu]
    | pending | queued | completed => rfl
  refine ⟨h.custody.insert hnowhere ?_ hothers, fun id => ?_⟩
  · rw [hheld]
    exact List.perm_append_singleton _ _
  · have hissued : id ∈ (s.issue t send).issued ↔ id = send.id ∨ id ∈ s.issued := List.mem_cons
    rw [hissued, h.issued id]
    constructor
    · rintro (rfl | ⟨p, hid⟩)
      · exact ⟨.held t, by rw [hheld]; simp⟩
      · by_cases hp : p = .held t
        · exact ⟨.held t, by rw [hheld, ← hp]; exact List.mem_append_left _ hid⟩
        · exact ⟨p, by rwa [hothers p hp]⟩
    · rintro ⟨p, hid⟩
      by_cases hp : p = .held t
      · rw [hp, hheld] at hid
        rcases List.mem_append.1 hid with hold | hnew
        · exact .inr ⟨_, hold⟩
        · exact .inl (List.mem_singleton.1 hnew)
      · exact .inr ⟨p, by rwa [hothers p hp] at hid⟩

/-! ## Runs -/

variable {allow : CoreThread → (op : CoreOp) → CoreApp → op.Res → Prop}

def Carries (allow : CoreThread → (op : CoreOp) → CoreApp → op.Res → Prop) (t : CoreThread)
    (p : CoreProgram Unit) (s : CoreApp) : Prop :=
  ∃ a dropped, Runs EmptyHanded a p ∧ s.holding t = dropped ++ a.holding ∧
    ((∀ t op s r, allow t op s r → ReadsHistory t op s r) → dropped = [])

theorem Carries.of_holding {p : CoreProgram Unit} {s s' : CoreApp} (h : Carries allow t p s)
    (hholding : s'.holding t = s.holding t) : Carries allow t p s' := by
  obtain ⟨a, dropped, hruns, hheld, hcareful⟩ := h
  exact ⟨a, dropped, hruns, hholding.trans hheld, hcareful⟩

theorem Carries.idle {s : CoreApp} (h : Carries allow t (.done ()) s) :
    ∃ dropped, s.holding t = dropped ∧
      ((∀ t op s r, allow t op s r → ReadsHistory t op s r) → dropped = []) := by
  obtain ⟨a, dropped, hruns, hheld, hcareful⟩ := h
  cases (show a = {} from hruns)
  exact ⟨dropped, hheld.trans (List.append_nil _), hcareful⟩

theorem holding_take (s : CoreApp) (task : CoreTask) (queue : List CoreTask) :
    (s.take task queue).holding .executor = s.holding .executor ++ task.stage.holding := by
  cases task with
  | send gateway pending => simp only [CoreApp.take, update_self]; rfl
  | start generation | shutdown gateway => exact (List.append_nil _).symm

theorem holding_take_of_ne (s : CoreApp) (task : CoreTask) (queue : List CoreTask)
    {u : CoreThread} (hu : u ≠ .executor) : (s.take task queue).holding u = s.holding u := by
  cases task with
  | send gateway pending => simp only [CoreApp.take, update_of_ne hu]
  | start generation | shutdown gateway => rfl

theorem carries_invariant : Threads.Invariant (system allow) CoreApp.Accounted (Carries allow) where
  enter {t b s p s'} hI hlast henter := by
    match t, b, henter with
    | .executor, some _, henter =>
      obtain ⟨dropped, hheld, hcareful⟩ := (hlast _ rfl).idle
      rcases henter with ⟨before, task, rest, hqueue, rfl, rfl⟩ |
        ⟨before, generation, retryToken, rest, -, rfl, rfl⟩
      · refine ⟨Accounted.take hI hqueue, ⟨task.stage, dropped, run_runs task, ?_, hcareful⟩,
          fun u hu q hq => hq.of_holding (holding_take_of_ne s task _ hu)⟩
        rw [holding_take, hheld]
      · exact ⟨hI.of_quiet rfl rfl rfl rfl rfl,
          ⟨_, dropped, retryTask_runs generation retryToken,
            hheld.trans (List.append_nil _).symm, hcareful⟩,
          fun u hu q hq => hq.of_holding rfl⟩
    | .host n, some _, henter =>
      obtain ⟨dropped, hheld, hcareful⟩ := (hlast _ rfl).idle
      rcases henter with ⟨rfl, rfl⟩ | ⟨rfl, rfl⟩ | ⟨pending, hfresh, rfl, rfl⟩
      · exact ⟨hI, ⟨{}, dropped, startCoreAfterForeground_runs none,
          hheld.trans (List.append_nil _).symm, hcareful⟩, fun u hu q hq => hq⟩
      · exact ⟨hI, ⟨{}, dropped, stopCore_runs, hheld.trans (List.append_nil _).symm,
          hcareful⟩, fun u hu q hq => hq⟩
      · refine ⟨Accounted.issue hI hfresh, ⟨_, dropped, send_runs pending, ?_, hcareful⟩,
          fun u hu q hq => hq.of_holding (update_of_ne hu _ _)⟩
        rw [← hheld]
        exact update_self _ _ _
    | .executor, none, henter => exact henter.elim
    | .host _, none, henter => exact henter.elim
  access {t op k s r s'} hI hL hexec := by
    obtain ⟨a, dropped, hruns, hheld, hcareful⟩ := hL
    obtain ⟨hanswers, hallow, rfl⟩ := hexec
    obtain ⟨dropped', hheld', hdropped⟩ := exists_holdingAfter (r := r) hI hruns.1 hheld
    refine ⟨Accounted.after hI hruns.1 hheld hanswers, ⟨a.next op r, dropped', hruns.2 r, ?_, ?_⟩,
      fun u hu q hq => hq.of_holding (update_of_ne hu _ _)⟩
    · exact (update_self _ _ _).trans hheld'
    · exact fun hreads => hdropped (hcareful hreads) (hreads t op s r hallow)

theorem holds_launched : Threads.Holds CoreApp.Accounted (Carries allow) launched := by
  have hplaces : CoreApp.initial.places = fun _ => [] := by
    funext p
    cases p <;> rfl
  refine ⟨⟨?_, fun id => ?_⟩, fun t p hp => ?_⟩
  · change Custody CoreApp.initial.places
    rw [hplaces]
    exact ⟨fun _ => .nil, by simp⟩
  · change id ∈ [] ↔ ∃ p, id ∈ CoreApp.initial.places p
    simp [hplaces]
  · cases hp
    exact ⟨{}, [], rfl, rfl, fun _ => rfl⟩

variable {x : Threads CoreOp CoreOp.Res (fun _ : CoreThread => Unit) CoreApp}

/-- In every run a send is at one place. -/
theorem accounted (hrun : Threads.Reaches (system allow) launched x) : x.shared.Accounted :=
  (carries_invariant.reaches holds_launched hrun).1

theorem running_of_holding (hrun : Threads.Reaches (system ReadsHistory) launched x)
    {t : CoreThread} (hheld : x.shared.holding t ≠ []) : Running x t := by
  obtain ⟨p, hp⟩ := Option.isSome_iff_exists.1 (hrun.threads_isSome (t := t) rfl)
  cases p with
  | call op k => exact ⟨op, k, hp⟩
  | done v =>
    obtain ⟨dropped, hdropped, hcareful⟩ :=
      ((carries_invariant.reaches holds_launched hrun).2 t _ hp).idle
    exact absurd (hdropped.trans (hcareful fun _ _ _ _ h => h)) hheld

/-- A send is completed at most once, and until then it waits in the slot or in a queued
task, or a thread that is still running has it. -/
theorem sends_completed_or_held (hrun : Threads.Reaches (system ReadsHistory) launched x) :
    (x.shared.completed.map (·.1)).Nodup ∧
      ∀ id ∈ x.shared.issued, id ∉ x.shared.completed.map (·.1) →
        (∃ pending ∈ x.shared.slot.pendingSends, pending.id = id) ∨
        (∃ gateway pending, CoreTask.send gateway pending ∈ x.shared.queue ∧ pending.id = id) ∨
        ∃ t, Running x t ∧ ∃ pending ∈ x.shared.holding t, pending.id = id := by
  have haccounted := accounted hrun
  refine ⟨haccounted.custody.nodup .completed, fun id hissued hopen => ?_⟩
  obtain ⟨place, hplace⟩ := (haccounted.issued id).1 hissued
  cases place with
  | pending => exact .inl (List.mem_map.1 hplace)
  | queued =>
    obtain ⟨task, htask, hid⟩ := List.mem_filterMap.1 hplace
    cases task with
    | send gateway pending => exact .inr (.inl ⟨gateway, pending, htask, Option.some.inj hid⟩)
    | start generation => cases hid
    | shutdown gateway => cases hid
  | held t =>
    obtain ⟨pending, hpending, hid⟩ := List.mem_map.1 hplace
    have hrunning := running_of_holding hrun (List.ne_nil_of_mem hpending)
    exact .inr (.inr ⟨t, hrunning, pending, hpending, hid⟩)
  | completed => exact absurd hplace hopen

/-! ## Sample runs -/

def sampleSend (n : ℕ) : PendingSend := ⟨n, .text "clip"⟩

/-- Two sends wait in the slot; the core is started, and the executor has completed the
first of them. -/
def sampleMoves : List (Threads.Move CoreThread CoreChoice) :=
  [⟨.host 0, 1, { request := .send (sampleSend 1) }⟩,
    ⟨.host 0, 1, { request := .send (sampleSend 2) }⟩,
    ⟨.host 0, 2, { request := .start }⟩,
    ⟨.executor, 6, {}⟩]

theorem sampleMoves_play : ((replay ReadsHistory).play sampleMoves launched).any (fun x =>
    x.shared.completed.map (·.1) = [1] ∧ 2 ∈ x.shared.issued) = true := by
  decide +kernel

/-- The second send is still waiting. -/
theorem sends_completed_or_held_sample :
    ∃ x, Threads.Reaches (system ReadsHistory) launched x ∧
      x.shared.completed.map (·.1) = [1] ∧ 2 ∈ x.shared.issued ∧
      ((∃ pending ∈ x.shared.slot.pendingSends, pending.id = 2) ∨
        (∃ gateway pending, CoreTask.send gateway pending ∈ x.shared.queue ∧ pending.id = 2) ∨
        ∃ t, Running x t ∧ ∃ pending ∈ x.shared.holding t, pending.id = 2) := by
  obtain ⟨x, hrun, htest⟩ := Threads.Replay.exists_reaches sampleMoves_play
  obtain ⟨hcompleted, hissued⟩ := of_decide_eq_true htest
  refine ⟨x, hrun, hcompleted, hissued, (sends_completed_or_held hrun).2 2 hissued ?_⟩
  rw [hcompleted]
  decide

def sampleFailure : List (Threads.Move CoreThread CoreChoice) :=
  sampleMoves ++ [⟨.executor, 1, { throws := true }⟩, ⟨.executor, 2, {}⟩]

theorem sampleFailure_play :
    ((replay fun _ _ _ _ => True).play sampleFailure launched).any (fun x =>
      2 ∈ x.shared.issued ∧ x.shared.completed.map (·.1) = [1] ∧
      x.shared.slot.pendingSends = [] ∧ x.shared.queue = [] ∧
      x.shared.holding .executor = [sampleSend 2] ∧ waits x .executor) = true := by
  decide +kernel

/-- The second send is forgotten. -/
theorem send_never_completed :
    ∃ x, Threads.Reaches (system fun _ _ _ _ => True) launched x ∧ 2 ∈ x.shared.issued ∧
      2 ∉ x.shared.completed.map (·.1) ∧
      (∀ pending ∈ x.shared.slot.pendingSends, pending.id ≠ 2) ∧
      (∀ gateway pending, CoreTask.send gateway pending ∈ x.shared.queue → pending.id ≠ 2) ∧
      ∀ t, Running x t → ∀ pending ∈ x.shared.holding t, pending.id ≠ 2 := by
  obtain ⟨x, hrun, htest⟩ := Threads.Replay.exists_reaches sampleFailure_play
  obtain ⟨hissued, hcompleted, hpending, hqueue, hheld, hdone⟩ := of_decide_eq_true htest
  refine ⟨x, hrun, hissued, by rw [hcompleted]; decide, by rw [hpending]; simp,
    by rw [hqueue]; simp, ?_⟩
  rintro t hrunning pending hmem hid
  have hunique := (accounted hrun).custody.unique (.held t) (.held .executor) 2
    (List.mem_map.2 ⟨pending, hmem, hid⟩) (by rw [CoreApp.places, hheld]; decide)
  cases hunique
  exact not_running_of_waits hdone hrunning

end AndroidApp

end ClipSync
