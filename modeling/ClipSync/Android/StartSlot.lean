import ClipSync.Android.CoreStages

/-!
# Starts of the Android application

The flag of a scheduled start keeps every other start from being scheduled, so somebody has
to clear it: as long as it is set, a start of its generation is queued or taken, or about
to be queued. A start that has failed leaves a retry behind. Both hold as long as the native
handle can be constructed. Its constructor runs before the `try` block of the task; if it
throws, the flag stays set and no start is ever scheduled again until the core is stopped.
-/

namespace ClipSync

namespace AndroidApp

open Lib Program Stage CoreApp Function

/-! ## What is to be done about the slot -/

/-- Somebody sees to the flag, and to a start that has failed. -/
structure Attended (s : CoreApp) : Prop where
  flag : s.slot.startScheduled = true → .start s.slot.generation ∈ s.queue ∨
    s.starting = some s.slot.generation ∨ ∃ t, s.launching t = some s.slot.generation
  retry : s.failed = true → s.slot.ready = false → s.slot.startScheduled = false →
    (s.slot.generation, s.slot.retryAttempt) ∈ s.retries ∨
      s.retrying = some (s.slot.generation, s.slot.retryAttempt)

def CoreOp.openThrows : (op : CoreOp) → op.Res → Bool
  | .openGateway _, .error _ => true
  | _, _ => false

def Constructs (_ : CoreThread) (op : CoreOp) (_ : CoreApp) (r : op.Res) : Prop :=
  op.openThrows r = false

instance (t : CoreThread) (op : CoreOp) (s : CoreApp) (r : op.Res) :
    Decidable (Constructs t op s r) :=
  inferInstanceAs (Decidable (_ = _))

variable {s s' : CoreApp} {t : CoreThread} {a : Stage}

theorem Attended.of_slot (h : Attended s) (hgeneration : s'.slot.generation = s.slot.generation)
    (hscheduled : s'.slot.startScheduled = s.slot.startScheduled)
    (hready : s'.slot.ready = s.slot.ready)
    (hattempt : s'.slot.retryAttempt = s.slot.retryAttempt) (hfailed : s'.failed = s.failed)
    (hqueue : ∀ generation, .start generation ∈ s.queue → .start generation ∈ s'.queue)
    (hstarting : s'.starting = s.starting) (hlaunching : s'.launching = s.launching)
    (hretries : s'.retries = s.retries) (hretrying : s'.retrying = s.retrying) : Attended s' := by
  refine ⟨fun hset => ?_, fun hfails hnot hclear => ?_⟩
  · rw [hscheduled] at hset
    rw [hgeneration, hstarting, hlaunching]
    exact (h.flag hset).imp (hqueue _) id
  · rw [hfailed] at hfails
    rw [hready] at hnot
    rw [hscheduled] at hclear
    rw [hgeneration, hattempt, hretries, hretrying]
    exact h.retry hfails hnot hclear

def HostOp (op : CoreOp) : Prop := ∀ generation, op ≠ .failStart generation

/-- What a program has in hand of starts and retries; only the executor takes any. -/
structure Minds (t : CoreThread) (a : Stage) (s : CoreApp) : Prop where
  launching : s.launching t = a.launching
  executor : t = .executor → s.starting = a.starting ∧ s.retrying = a.retrying
  host : t ≠ .executor → a.starting = none ∧ a.retrying = none

variable {op : CoreOp} {generation : Int64}

theorem Minds.executor_of_starting (h : Minds t a s) (hstarting : a.starting = some generation) :
    t = .executor := by
  by_contra hne
  cases (h.host hne).1.symm.trans hstarting

variable {p : CoreProgram Unit} {retryToken : Int32} {retry : Int64 × Int32} {r : op.Res}

theorem Minds.executor_of_retrying (h : Minds t a s) (hretrying : a.retrying = some retry) :
    t = .executor := by
  by_contra hne
  cases (h.host hne).2.symm.trans hretrying

theorem Minds.other (h : Minds t a s) {u : CoreThread} (hu : t ≠ u) (op : CoreOp) (r : op.Res) :
    Minds t a (s.after u op r) := by
  refine ⟨(update_of_ne hu _ _).trans h.launching, fun ht => ?_, h.host⟩
  have hne : u ≠ .executor := fun heq => hu (ht.trans heq.symm)
  have hstarting : (s.after u op r).starting = s.starting := if_neg hne
  have hretrying : (s.after u op r).retrying = s.retrying := if_neg hne
  rw [hstarting, hretrying]
  exact h.executor ht

theorem Minds.next (h : Minds t a s) (r : op.Res) (hop : t ≠ .executor → HostOp op) :
    Minds t (a.next op r) (s.after t op r) := by
  refine ⟨?_, fun ht => ?_, fun ht => ?_⟩
  · have hlaunching : (s.after t op r).launching t = launchingAfter (s.launching t) op r :=
      update_self _ _ _
    rw [hlaunching, h.launching]
    rfl
  · have hstarting : (s.after t op r).starting = startingAfter s.starting op r := if_pos ht
    have hretrying : (s.after t op r).retrying = retryingAfter s.retrying op r := if_pos ht
    rw [hstarting, hretrying, (h.executor ht).1, (h.executor ht).2]
    exact ⟨rfl, rfl⟩
  · obtain ⟨hstarting, hretrying⟩ := h.host ht
    have hstarting' : startingAfter a.starting op r = none := by
      rw [hstarting]
      unfold startingAfter
      split <;> rfl
    have hretrying' : retryingAfter a.retrying op r = none := by
      rw [hretrying]
      unfold retryingAfter
      split
      · exact absurd rfl (hop ht _)
      · rfl
      · rfl
      · split <;> rfl
      · rfl
    exact ⟨hstarting', hretrying'⟩

/-! ## Operations -/

theorem Attended.after_quiet (h : Attended s)
    (hgeneration : (s.slotAfter op r).generation = s.slot.generation)
    (hscheduled : (s.slotAfter op r).startScheduled = s.slot.startScheduled)
    (hready : (s.slotAfter op r).ready = s.slot.ready)
    (hattempt : (s.slotAfter op r).retryAttempt = s.slot.retryAttempt)
    (hfailed : failedAfter s.failed op r = s.failed)
    (hqueue : ∀ task ∈ s.queue, task ∈ (s.after t op r).queue)
    (hstarting : startingAfter s.starting op r = s.starting)
    (hlaunching : launchingAfter (s.launching t) op r = s.launching t)
    (hretries : (s.after t op r).retries = s.retries)
    (hretrying : retryingAfter s.retrying op r = s.retrying) : Attended (s.after t op r) := by
  refine h.of_slot hgeneration hscheduled hready hattempt hfailed (fun _ => hqueue _) ?_ ?_
    hretries ?_
  · simp only [CoreApp.after, hstarting, ite_self]
  · simp only [CoreApp.after, hlaunching, update_eq_self]
  · simp only [CoreApp.after, hretrying, ite_self]

theorem Attended.scheduleStart (h : Attended s) (hlaunching : s.launching t = none) :
    Attended (s.after t .scheduleStart s.slot.scheduleStart.1) := by
  have hstarting : (s.after t .scheduleStart s.slot.scheduleStart.1).starting = s.starting :=
    ite_self _
  by_cases hbusy : (s.slot.ready || s.slot.startScheduled) = true
  · -- nothing is scheduled, and the thread has no start in hand before or after
    have hnone : s.slot.scheduleStart = (none, s.slot) := if_pos hbusy
    have hsame : (s.after t .scheduleStart s.slot.scheduleStart.1).launching = s.launching := by
      simp only [CoreApp.after, launchingAfter, hnone]
      rw [← hlaunching, update_eq_self]
    have hslot : (s.after t .scheduleStart s.slot.scheduleStart.1).slot = s.slot :=
      congrArg Prod.snd hnone
    refine ⟨fun hset => ?_, fun _ hnot hclear => ?_⟩
    · rw [hslot] at hset
      rw [hslot, hstarting, hsame]
      exact h.flag hset
    · rw [hslot] at hnot hclear
      rw [hnot, hclear] at hbusy
      cases hbusy
  · have hsome : s.slot.scheduleStart =
        (some s.slot.generation, { s.slot with startScheduled := true }) := if_neg hbusy
    have hslot : (s.after t .scheduleStart s.slot.scheduleStart.1).slot =
        { s.slot with startScheduled := true } := congrArg Prod.snd hsome
    refine ⟨fun _ => .inr (.inr ⟨t, ?_⟩), fun _ _ hclear => ?_⟩
    · rw [hslot]
      simp only [CoreApp.after, launchingAfter, hsome, update_self]
    · rw [hslot] at hclear
      cases hclear

theorem Attended.give_up (h : Attended s) (hstarting : s.starting = some generation)
    (hother : s.slot.generation ≠ generation) (hslot : s'.slot = s.slot)
    (hqueue : s'.queue = s.queue) (hlaunching : s'.launching = s.launching)
    (hfailed : s'.failed = s.failed) (hretries : s'.retries = s.retries)
    (hretrying : s'.retrying = s.retrying) : Attended s' := by
  refine ⟨fun hset => ?_, fun hfails hnot hclear => ?_⟩
  · rw [hslot] at hset ⊢
    rw [hqueue, hlaunching]
    rcases h.flag hset with hqueued | htaken | hlaunched
    · exact .inl hqueued
    · exact absurd (Option.some.inj (htaken.symm.trans hstarting)) hother
    · exact .inr (.inr hlaunched)
  · rw [hfailed] at hfails
    rw [hslot] at hnot hclear ⊢
    rw [hretries, hretrying]
    exact h.retry hfails hnot hclear

theorem Attended.openGateway (h : Attended s) {r : Except String (Option ℕ)}
    (hstarting : s.starting = some generation) (hanswers : Answers (.openGateway generation) s r)
    (hconstructs : CoreOp.openThrows (.openGateway generation) r = false) :
    Attended (s.after .executor (.openGateway generation) r) := by
  match r with
  | .error error => cases hconstructs
  | .ok (some gateway) =>
    exact h.after_quiet rfl rfl rfl rfl rfl (fun _ => id) rfl rfl rfl rfl
  | .ok none =>
    by_cases hwants : s.slot.wantsStart generation = true
    · rw [Answers, if_pos hwants] at hanswers
      split at hanswers
      · cases hanswers
      · rcases hanswers with heq | ⟨error, heq⟩ <;> cases heq
    · by_cases hother : s.slot.generation = generation
      · have hclear : s.slot.startScheduled = false := by
          rw [CoreSlot.wantsStart, hother, decide_eq_true rfl, Bool.true_and] at hwants
          exact eq_false_of_ne_true hwants
        refine ⟨fun hset => ?_, h.retry⟩
        cases hclear.symm.trans hset
      · refine h.give_up hstarting hother rfl rfl ?_ rfl rfl rfl
        exact update_eq_self _ _

theorem Attended.becomeReady (h : Attended s) (hstarting : s.starting = some generation) :
    Attended (s.after .executor (.becomeReady generation)
      (s.slot.becomeReady generation).1) := by
  by_cases hother : s.slot.generation ≠ generation
  · have hnone : s.slot.becomeReady generation = (none, s.slot) := if_pos hother
    refine h.give_up hstarting hother (congrArg Prod.snd hnone) rfl
      (update_eq_self _ _) ?_ rfl rfl
    simp only [CoreApp.after, failedAfter, hnone, Option.isNone_none, Bool.and_true]
  · have hready : (s.slot.becomeReady generation).2.ready = true ∧
        (s.slot.becomeReady generation).2.startScheduled = false := by
      rw [CoreSlot.becomeReady, if_neg hother]
      exact ⟨rfl, rfl⟩
    refine ⟨fun hset => ?_, fun _ hnot _ => ?_⟩
    · cases hready.2.symm.trans hset
    · cases hready.1.symm.trans hnot

theorem Attended.failStart (h : Attended s)
    (hstarting : s.starting = none ∨ s.starting = some generation) (hretrying : s.retrying = none) :
    Attended (s.after .executor (.failStart generation) (s.slot.failStart generation).1) := by
  by_cases hsame : s.slot.generation = generation
  · -- the flag is cleared, and the executor is about to plan the retry
    subst hsame
    refine ⟨fun hset => ?_, fun _ _ _ => .inr ?_⟩
    · simp only [CoreApp.after, slotAfter, CoreSlot.failStart, if_true] at hset
      cases hset
    · simp only [CoreApp.after, slotAfter, retryingAfter, CoreSlot.failStart, if_true]
      rfl
  · have hnone : s.slot.failStart generation = (none, s.slot) := if_neg hsame
    have hslot : (s.after .executor (.failStart generation)
        (s.slot.failStart generation).1).slot = s.slot := congrArg Prod.snd hnone
    have hfailed : failedAfter s.failed (.failStart generation)
        (s.slot.failStart generation).1 = s.failed := by
      simp only [failedAfter, hnone, Option.isSome_none, Bool.or_false]
    refine ⟨fun hset => ?_, fun hfails hnot hclear => ?_⟩
    · rw [hslot] at hset ⊢
      rcases h.flag hset with hqueued | htaken | ⟨u, hlaunched⟩
      · exact .inl hqueued
      · rcases hstarting with hidle | htask
        · cases hidle.symm.trans htaken
        · exact absurd (Option.some.inj (htaken.symm.trans htask)) hsame
      · refine .inr (.inr ⟨u, ?_⟩)
        simp only [CoreApp.after, launchingAfter, update_eq_self]
        exact hlaunched
    · rw [hslot] at hnot hclear ⊢
      rcases h.retry (hfailed.symm.trans hfails) hnot hclear with hplanned | hretry
      · exact .inl hplanned
      · cases hretrying.symm.trans hretry

theorem Attended.shouldRetry (h : Attended s)
    (hretrying : s.retrying = some (generation, retryToken)) :
    Attended (s.after .executor (.shouldRetry generation retryToken)
      (s.slot.shouldRetry generation retryToken)) := by
  cases hretry : s.slot.shouldRetry generation retryToken with
  | true => exact h.after_quiet rfl rfl rfl rfl rfl (fun _ => id) rfl rfl rfl rfl
  | false =>
    refine ⟨fun hset => ?_, fun hfails hnot hclear => .inl ?_⟩
    · simp only [CoreApp.after, launchingAfter, update_eq_self]
      exact h.flag hset
    · rcases h.retry hfails hnot hclear with hplanned | hcurrent
      · exact hplanned
      · -- the retry is the one that is due, so it would have been carried out
        obtain ⟨rfl, rfl⟩ : s.slot.generation = generation ∧
            s.slot.retryAttempt = retryToken := by
          rw [hretrying] at hcurrent
          cases hcurrent
          exact ⟨rfl, rfl⟩
        have hnot' : s.slot.ready = false := hnot
        have hclear' : s.slot.startScheduled = false := hclear
        simp [CoreSlot.shouldRetry, hnot', hclear'] at hretry

theorem Attended.stop (s : CoreApp) (t : CoreThread) :
    Attended (s.after t .stop s.slot.stop.1) := by
  constructor
  · intro hset
    cases hset
  · intro hfails
    cases hfails

theorem Attended.offer (h : Attended s) (send : PendingSend) :
    Attended (s.after t (.offer send) (s.slot.offer send).1) := by
  have hslot : (s.slot.offer send).2.generation = s.slot.generation ∧
      (s.slot.offer send).2.startScheduled = s.slot.startScheduled ∧
      (s.slot.offer send).2.ready = s.slot.ready ∧
      (s.slot.offer send).2.retryAttempt = s.slot.retryAttempt := by
    unfold CoreSlot.offer
    split
    · split <;> exact ⟨rfl, rfl, rfl, rfl⟩
    · split <;> exact ⟨rfl, rfl, rfl, rfl⟩
  exact h.after_quiet hslot.1 hslot.2.1 hslot.2.2.1 hslot.2.2.2 rfl (fun _ => id) rfl rfl rfl rfl

theorem Attended.execute_start (h : Attended s) (hlaunching : s.launching t = some generation) :
    Attended (s.after t (.execute (.start generation)) ()) := by
  refine ⟨fun hset => ?_, fun hfails hnot hclear => ?_⟩
  · rcases h.flag hset with hqueued | htaken | ⟨u, hlaunched⟩
    · exact .inl (List.mem_append_left _ hqueued)
    · exact .inr (.inl ((ite_self _).trans htaken))
    · by_cases hu : u = t
      · subst hu
        cases hlaunching.symm.trans hlaunched
        exact .inl (List.mem_append_right _ List.mem_cons_self)
      · exact .inr (.inr ⟨u, (update_of_ne hu _ _).trans hlaunched⟩)
  · have hretrying : (s.after t (.execute (.start generation)) ()).retrying = s.retrying :=
      ite_self _
    rw [hretrying]
    exact h.retry hfails hnot hclear

theorem Attended.schedule (h : Attended s)
    (hretrying : s.retrying = some (generation, retryToken)) :
    Attended (s.after .executor (.schedule generation retryToken) ()) := by
  refine ⟨fun hset => ?_, fun hfails hnot hclear => .inl ?_⟩
  · simp only [CoreApp.after, launchingAfter, update_eq_self]
    exact h.flag hset
  · rcases h.retry hfails hnot hclear with hplanned | hcurrent
    · exact List.mem_append_left _ hplanned
    · cases hretrying.symm.trans hcurrent
      exact List.mem_append_right _ List.mem_cons_self

theorem Attended.after (h : Attended s) (hpermits : a.Permits op) (hminds : Minds t a s)
    (hanswers : Answers op s r) (hconstructs : Constructs t op s r)
    (hhost : t ≠ .executor → HostOp op) : Attended (s.after t op r) := by
  cases op with
  | scheduleStart =>
    cases hanswers
    exact h.scheduleStart (hminds.launching.trans hpermits.2.1)
  | openGateway generation =>
    cases hpermits
    cases hminds.executor_of_starting rfl
    exact h.openGateway (hminds.executor rfl).1 hanswers hconstructs
  | becomeReady generation =>
    cases hpermits
    cases hminds.executor_of_starting rfl
    cases hanswers
    exact h.becomeReady (hminds.executor rfl).1
  | failStart generation =>
    have ht : t = .executor := by
      by_contra hne
      exact hhost hne generation rfl
    subst ht
    cases hanswers
    obtain ⟨hstarting, hretrying⟩ := hminds.executor rfl
    rcases hpermits with rfl | rfl
    · exact h.failStart (.inl hstarting) hretrying
    · exact h.failStart (.inr hstarting) hretrying
  | shouldRetry generation retryToken =>
    cases hpermits
    cases hminds.executor_of_retrying rfl
    cases hanswers
    exact h.shouldRetry (hminds.executor rfl).2
  | stop =>
    cases hanswers
    exact .stop s t
  | offer send =>
    cases hanswers
    exact h.offer send
  | execute task =>
    cases task with
    | start generation =>
      cases hpermits
      exact h.execute_start hminds.launching
    | send gateway pending | shutdown gateway =>
      exact h.after_quiet rfl rfl rfl rfl rfl (fun _ => List.mem_append_left _) rfl rfl rfl rfl
  | schedule generation retryToken =>
    cases hpermits
    cases hminds.executor_of_retrying rfl
    exact h.schedule (hminds.executor rfl).2
  | _ => exact h.after_quiet rfl rfl rfl rfl rfl (fun _ => id) rfl rfl rfl rfl

/-! ## Tasks and calls -/

theorem Attended.take (h : Attended s) (hstarting : s.starting = none)
    {before rest : List CoreTask} {task : CoreTask} (hqueue : s.queue = before ++ task :: rest) :
    Attended (s.take task (before ++ rest)) := by
  have hqueued : ∀ generation, .start generation ∈ s.queue →
      .start generation ∈ before ++ rest ∨ .start generation = task := by
    intro generation hmem
    rw [hqueue] at hmem
    simp only [List.mem_append, List.mem_cons] at hmem ⊢
    tauto
  cases task with
  | start generation =>
    refine ⟨fun hset => ?_, h.retry⟩
    rcases h.flag hset with hmem | htaken | hlaunched
    · rcases hqueued _ hmem with hrest | heq
      · exact .inl hrest
      · cases heq
        exact .inr (.inl rfl)
    · cases hstarting.symm.trans htaken
    · exact .inr (.inr hlaunched)
  | send gateway pending | shutdown gateway =>
    refine h.of_slot rfl rfl rfl rfl rfl (fun generation hmem => ?_) rfl rfl rfl rfl
    exact (hqueued generation hmem).resolve_right CoreTask.noConfusion

theorem Attended.take_retry (h : Attended s) (hretrying : s.retrying = none)
    {before rest : List (Int64 × Int32)} (hretries : s.retries = before ++ retry :: rest) :
    Attended { s with retries := before ++ rest, retrying := some retry } := by
  refine ⟨h.flag, fun hfails hnot hclear => ?_⟩
  rcases h.retry hfails hnot hclear with hplanned | hcurrent
  · rw [hretries] at hplanned
    rcases List.mem_append.1 hplanned with hbefore | htail
    · exact .inl (List.mem_append_left _ hbefore)
    rcases List.mem_cons.1 htail with heq | hrest
    · exact .inr (congrArg some heq.symm)
    · exact .inl (List.mem_append_right _ hrest)
  · cases hretrying.symm.trans hcurrent

theorem startCoreAfterForeground_hostOps : startCoreAfterForeground.AllOps HostOp := by
  refine ⟨by rintro _ ⟨⟩, fun r => ?_⟩
  cases r with
  | none => trivial
  | some generation => exact ⟨by rintro _ ⟨⟩, fun _ => trivial⟩

theorem completeAll_hostOps (result : SendResult) (sends : List PendingSend) :
    (completeAll result sends).AllOps HostOp := by
  induction sends with
  | nil => trivial
  | cons send sends ih => exact ⟨by rintro _ ⟨⟩, fun _ => ih⟩

theorem stopCore_hostOps : stopCore.AllOps HostOp := by
  refine allOps_bind ⟨by rintro _ ⟨⟩, fun _ => trivial⟩ fun r => ?_
  refine allOps_bind (completeAll_hostOps _ _) fun _ => ?_
  cases r.1 with
  | none => trivial
  | some gateway => exact ⟨by rintro _ ⟨⟩, fun _ => trivial⟩

theorem send_hostOps (self : PendingSend) : (send self).AllOps HostOp := by
  refine ⟨by rintro _ ⟨⟩, fun r => ?_⟩
  cases r with
  | queued => trivial
  | unavailable | sendBy gateway => exact ⟨by rintro _ ⟨⟩, fun _ => trivial⟩

/-! ## Runs -/

variable {allow : CoreThread → (op : CoreOp) → CoreApp → op.Res → Prop}

def Watched (allow : CoreThread → (op : CoreOp) → CoreApp → op.Res → Prop) (s : CoreApp) : Prop :=
  (∀ t op s r, allow t op s r → Constructs t op s r) → Attended s

def Tends (t : CoreThread) (p : CoreProgram Unit) (s : CoreApp) : Prop :=
  ∃ a, Runs EmptyHanded a p ∧ Minds t a s ∧ (t ≠ .executor → p.AllOps HostOp)

theorem Tends.idle (h : Tends t (.done ()) s) : Minds t {} s := by
  obtain ⟨a, hruns, hminds, -⟩ := h
  cases (show a = {} from hruns)
  exact hminds

theorem Tends.of_launching (h : Tends t p s) (ht : t ≠ .executor)
    (hlaunching : s'.launching t = s.launching t) : Tends t p s' := by
  obtain ⟨a, hruns, hminds, hops⟩ := h
  exact ⟨a, hruns, ⟨hlaunching.trans hminds.launching, fun heq => absurd heq ht, hminds.host⟩, hops⟩

theorem Tends.of_eq (h : Tends t p s) (hlaunching : s'.launching = s.launching)
    (hstarting : s'.starting = s.starting) (hretrying : s'.retrying = s.retrying) :
    Tends t p s' := by
  obtain ⟨a, hruns, hminds, hops⟩ := h
  refine ⟨a, hruns, ⟨?_, ?_, hminds.host⟩, hops⟩
  · rw [hlaunching]
    exact hminds.launching
  · rw [hstarting, hretrying]
    exact hminds.executor

theorem Minds.take (h : Minds .executor {} s) (task : CoreTask) (queue : List CoreTask) :
    Minds .executor task.stage (s.take task queue) := by
  obtain ⟨hstarting, hretrying⟩ := h.executor rfl
  cases task with
  | start generation => exact ⟨h.launching, fun _ => ⟨rfl, hretrying⟩, fun hne => absurd rfl hne⟩
  | send gateway pending | shutdown gateway =>
    exact ⟨h.launching, fun _ => ⟨hstarting, hretrying⟩, fun hne => absurd rfl hne⟩

theorem launching_take (s : CoreApp) (task : CoreTask) (queue : List CoreTask) :
    (s.take task queue).launching = s.launching := by
  cases task <;> rfl

theorem tends_invariant : Threads.Invariant (system allow) (Watched allow) Tends where
  enter {t b s p s'} hI hlast henter := by
    match t, b, henter with
    | .executor, some _, henter =>
      have hidle := (hlast _ rfl).idle
      rcases henter with ⟨before, task, rest, hqueue, rfl, rfl⟩ |
        ⟨before, generation, retryToken, rest, hretries, rfl, rfl⟩
      · exact ⟨fun hallow => (hI hallow).take (hidle.executor rfl).1 hqueue,
          ⟨task.stage, run_runs task, hidle.take task _, fun hne => absurd rfl hne⟩,
          fun u hu q hq => hq.of_launching hu (congrFun (launching_take s task _) u)⟩
      · refine ⟨fun hallow => (hI hallow).take_retry (hidle.executor rfl).2 hretries,
          ⟨_, retryTask_runs generation retryToken, ?_, fun hne => absurd rfl hne⟩,
          fun u hu q hq => hq.of_launching hu rfl⟩
        exact ⟨hidle.launching, fun _ => ⟨(hidle.executor rfl).1, rfl⟩, fun hne => absurd rfl hne⟩
    | .host n, some _, henter =>
      have hidle := (hlast _ rfl).idle
      rcases henter with ⟨rfl, rfl⟩ | ⟨rfl, rfl⟩ | ⟨pending, -, rfl, rfl⟩
      · exact ⟨hI, ⟨{}, startCoreAfterForeground_runs none, hidle,
          fun _ => startCoreAfterForeground_hostOps⟩, fun u hu q hq => hq⟩
      · exact ⟨hI, ⟨{}, stopCore_runs, hidle, fun _ => stopCore_hostOps⟩, fun u hu q hq => hq⟩
      · refine ⟨fun hallow =>
            (hI hallow).of_slot rfl rfl rfl rfl rfl (fun _ => id) rfl rfl rfl rfl,
          ⟨_, send_runs pending, ⟨hidle.launching, hidle.executor, hidle.host⟩,
            fun _ => send_hostOps pending⟩, fun u hu q hq => hq.of_eq rfl rfl rfl⟩
    | .executor, none, henter => exact henter.elim
    | .host _, none, henter => exact henter.elim
  access {t op k s r s'} hI hL hexec := by
    obtain ⟨a, hruns, hminds, hops⟩ := hL
    obtain ⟨hanswers, hallow, rfl⟩ := hexec
    have hhost : t ≠ .executor → HostOp op := fun ht => (hops ht).1
    refine ⟨fun hconstructs => (hI hconstructs).after hruns.1 hminds hanswers
        (hconstructs t op s r hallow) hhost,
      ⟨a.next op r, hruns.2 r, hminds.next r hhost, fun ht => (hops ht).2 r⟩, ?_⟩
    rintro u hu q ⟨b, hruns', hminds', hops'⟩
    exact ⟨b, hruns', hminds'.other hu op r, hops'⟩

theorem tends_launched : Threads.Holds (Watched allow) Tends launched := by
  refine ⟨fun _ => ⟨?_, ?_⟩, fun t p hp => ?_⟩
  · intro hset
    cases hset
  · intro hfails
    cases hfails
  · cases hp
    exact ⟨{}, rfl, ⟨rfl, fun _ => ⟨rfl, rfl⟩, fun _ => ⟨rfl, rfl⟩⟩, fun _ => trivial⟩

variable {x : Threads CoreOp CoreOp.Res (fun _ : CoreThread => Unit) CoreApp}

/-- A thread that waits has nothing in hand. -/
theorem running_or_minds (hrun : Threads.Reaches (system allow) launched x) (t : CoreThread) :
    Running x t ∨ Minds t {} x.shared := by
  obtain ⟨p, hp⟩ := Option.isSome_iff_exists.1 (hrun.threads_isSome (t := t) rfl)
  cases p with
  | call op k => exact .inl ⟨op, k, hp⟩
  | done v => exact .inr ((tends_invariant.reaches tends_launched hrun).2 t _ hp).idle

/-- As long as the flag is set and no call is about to queue a start, the executor has a
start of this generation queued or runs it; a start that has failed leaves its retry. -/
theorem start_slot_never_wedges (hrun : Threads.Reaches (system Constructs) launched x) :
    (x.shared.slot.startScheduled = true →
      (∀ t, x.shared.launching t ≠ some x.shared.slot.generation) →
        .start x.shared.slot.generation ∈ x.shared.queue ∨
          Running x .executor ∧ x.shared.starting = some x.shared.slot.generation) ∧
    (¬ Running x .executor → x.shared.failed = true → x.shared.slot.ready = false →
      x.shared.slot.startScheduled = false →
        (x.shared.slot.generation, x.shared.slot.retryAttempt) ∈ x.shared.retries) := by
  have hattended := (tends_invariant.reaches tends_launched hrun).1 fun _ _ _ _ h => h
  have hexecutor := running_or_minds hrun .executor
  constructor
  · intro hset hlaunched
    rcases hattended.flag hset with hqueued | hstarting | ⟨t, hlaunching⟩
    · exact .inl hqueued
    · rcases hexecutor with hrunning | hidle
      · exact .inr ⟨hrunning, hstarting⟩
      · cases (hidle.executor rfl).1.symm.trans hstarting
    · exact absurd hlaunching (hlaunched t)
  · intro hnot hfails hready hclear
    rcases hattended.retry hfails hready hclear with hplanned | hretrying
    · exact hplanned
    · rcases hexecutor with hrunning | hidle
      · exact absurd hrunning hnot
      · cases (hidle.executor rfl).2.symm.trans hretrying

/-! ## Sample runs -/

def sampleRetry : List (Threads.Move CoreThread CoreChoice) :=
  [⟨.host 0, 2, {}⟩, ⟨.executor, 1, {}⟩, ⟨.executor, 1, { throws := true }⟩, ⟨.executor, 2, {}⟩]

theorem sampleRetry_play : ((replay Constructs).play sampleRetry launched).any (fun x =>
    waits x .executor ∧ x.shared.failed = true ∧ x.shared.slot.ready = false ∧
    x.shared.slot.startScheduled = false ∧ x.shared.slot.retryAttempt = 1) = true := by
  decide +kernel

theorem start_slot_never_wedges_sample :
    ∃ x, Threads.Reaches (system Constructs) launched x ∧ x.shared.slot.retryAttempt = 1 ∧
      (x.shared.slot.generation, 1) ∈ x.shared.retries := by
  obtain ⟨x, hrun, htest⟩ := Threads.Replay.exists_reaches sampleRetry_play
  obtain ⟨hwaits, hfails, hready, hclear, hattempt⟩ := of_decide_eq_true htest
  have hplanned := (start_slot_never_wedges hrun).2 (not_running_of_waits hwaits) hfails hready
    hclear
  rw [hattempt] at hplanned
  exact ⟨x, hrun, hattempt, hplanned⟩

def sampleWedge : List (Threads.Move CoreThread CoreChoice) :=
  [⟨.host 0, 2, {}⟩, ⟨.executor, 1, { throws := true }⟩]

theorem sampleWedge_play :
    ((replay fun _ _ _ _ => True).play sampleWedge launched).any (fun x =>
      waits x .executor ∧ waits x (.host 0) ∧ x.shared.slot.startScheduled = true ∧
      x.shared.queue = [] ∧ x.shared.retries = []) = true := by
  decide +kernel

/-- The flag stays set, and nobody is left to clear it. -/
theorem start_slot_wedged :
    ∃ x, Threads.Reaches (system fun _ _ _ _ => True) launched x ∧ (∀ t, ¬ Running x t) ∧
      x.shared.slot.startScheduled = true ∧ (∀ t, x.shared.launching t = none) ∧
      x.shared.queue = [] ∧ x.shared.retries = [] := by
  obtain ⟨x, hplay, htest⟩ := (Option.any_eq_true _ _).1 sampleWedge_play
  obtain ⟨hexecutor, hhost, hset, hqueue, hretries⟩ := of_decide_eq_true htest
  have hrun := Threads.Replay.reaches_of_play hplay
  have hwait : ∀ t, ¬ Running x t := by
    intro t
    by_cases ht : t = .executor ∨ t = .host 0
    · rcases ht with rfl | rfl
      · exact not_running_of_waits hexecutor
      · exact not_running_of_waits hhost
    · have hidle : x.threads t = some (.done ()) := by
        refine Threads.Replay.threads_of_play hplay fun m hm => ?_
        simp only [sampleWedge, List.mem_cons, List.not_mem_nil, or_false] at hm
        rcases hm with rfl | rfl
        · exact fun heq => ht (.inr heq.symm)
        · exact fun heq => ht (.inl heq.symm)
      rintro ⟨op, k, hrunning⟩
      cases hidle.symm.trans hrunning
  refine ⟨x, hrun, hwait, hset, fun t => ?_, hqueue, hretries⟩
  exact ((running_or_minds hrun t).resolve_left (hwait t)).launching

end AndroidApp

end ClipSync
