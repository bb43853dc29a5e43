import ClipSync.Core.Documents
import ClipSync.Core.HistoryImages
import ClipSync.Lib.Client
import Mathlib.Data.Set.Finite.Basic

/-!
# Runs of the history

A host adds items, sets their sources, clears the history and opens it again. Every
access to the files can fail, and the process can stop between any two of them. The list
that is found afterwards is the one before the call that was cut off or the one after it,
and the images of its items are where they belong.
-/

namespace ClipSync

open Lib Program FsProgram

namespace HistoryStore

variable {added : List NewHistoryItem}

/-! ## How the list develops -/

/-- The later list has the items that are in both as they were, but for a deferred one that
has been applied. -/
def Follows (items items' : List HistoryItem) : Prop :=
  ∀ item ∈ items, ∀ item' ∈ items', item'.id = item.id →
    item' = item ∨ item.source = .remoteDeferred ∧ item' = { item with source := .remote }

variable {items : List HistoryItem}

theorem WellFormed.follows (h : WellFormed items) : Follows items items :=
  fun _ hitem _ hitem' hid => .inl (List.inj_on_of_nodup_map h.nodup hitem' hitem hid)

theorem follows_adding (h : WellFormed items) (item : NewHistoryItem) :
    Follows items (adding items item) := by
  unfold adding
  split
  · exact h.follows
  rename_i hnew
  have hfresh : ∀ known ∈ items, known.id ≠ item.id := by simpa using hnew
  intro known hknown other hother hid
  have hmem := (recent_sublist _).subset hother
  rcases List.mem_append.1 hmem with hold | hlast
  · exact h.follows known hknown other hold hid
  · rw [List.mem_singleton.1 hlast] at hid
    exact absurd hid.symm (hfresh known hknown)

theorem follows_promoting (h : WellFormed items) {item : HistoryItem} (hitem : item ∈ items)
    (hsource : item.source = .remoteDeferred) : Follows items (promoting items item.id) := by
  rcases promoting_cases items item.id with hsame | ⟨old, before, after, rfl, hid, hnew⟩
  · rw [hsame]
    exact h.follows
  have hold : old = item := List.inj_on_of_nodup_map h.nodup (by simp) hitem hid
  subst hold
  rw [hnew]
  intro known hknown other hother hsame
  rcases List.mem_append.1 hother with hbefore | hrest
  · exact h.follows known hknown other (by simp [hbefore]) hsame
  rcases List.mem_cons.1 hrest with rfl | hafter
  · have heq : known = old := List.inj_on_of_nodup_map h.nodup hknown hitem hsame.symm
    subst heq
    exact .inr ⟨hsource, rfl⟩
  · exact h.follows known hknown other (by simp [hafter]) hsame

def Ordered (added : List NewHistoryItem) (items : List HistoryItem) : Prop :=
  (items.map (·.id)).Sublist (added.map (·.id)).reverse

theorem Ordered.cons (h : Ordered added items) (item : NewHistoryItem) :
    Ordered (item :: added) items := by
  rw [Ordered, List.map_cons, List.reverse_cons]
  exact h.trans (List.sublist_append_left _ _)

/-- The added item is the last one of the list. -/
theorem Ordered.adding (h : Ordered added items) (item : NewHistoryItem) :
    Ordered (item :: added) (adding items item) := by
  unfold HistoryStore.adding
  split
  · exact h.cons item
  · refine ((recent_sublist _).map _).trans ?_
    have hreverse : ((item :: added).map (·.id)).reverse =
        (added.map (·.id)).reverse ++ [item.id] := List.reverse_cons
    rw [List.map_append, hreverse]
    exact h.append (.refl _)

theorem Ordered.promoting (h : Ordered added items) (id : Uuid) :
    Ordered added (promoting items id) := by
  rcases promoting_cases items id with hsame | ⟨old, before, after, rfl, -, hnew⟩
  · rwa [hsame]
  · rw [hnew]
    simpa [Ordered] using h

end HistoryStore

open HistoryStore

/-- The calls of a host. -/
inductive HistoryCall where
  | add (item : NewHistoryItem)
  | setSource (id : Uuid) (source : HistorySource)
  | clear
  | reopen

namespace HistoryCall

def after : HistoryCall → List HistoryItem → List HistoryItem
  | .add item, items => adding items item
  | .setSource id source, items => sourcing items id source
  | .clear, _ => []
  | .reopen, items => items

def adds (items : List HistoryItem) (added : List NewHistoryItem) :
    HistoryCall → List NewHistoryItem
  | .add item => if items.any fun known => known.id = item.id then added else item :: added
  | .setSource .. | .clear | .reopen => added

abbrev Outcome := Except HistoryError Unit × Option HistoryStore

def program (codec : LineCodec) :
    HistoryCall → Option HistoryStore → Option (FsProgram Dir Outcome)
  | .add item, some self => some do
      let (r, self) ← self.add codec item
      return (r, some self)
  | .setSource id source, some self => some do
      let (r, self) ← self.setSource codec id source
      return (r, some self)
  | .clear, some self => some do
      let (r, self) ← self.clear codec
      return (r, some self)
  | .reopen, _ => some do
      match ← HistoryStore.new codec with
      | .ok self => return (.ok (), some self)
      | .error error => return (.error error, none)
  | .add _, none | .setSource .., none | .clear, none => none

end HistoryCall

/-- `memory` is the list that was last in memory, `cut` the call that was cut off since, and
`added` the items that calls have begun to add, newest first. -/
structure HistoryRecord where
  memory : List HistoryItem
  cut : Option HistoryCall
  added : List NewHistoryItem

/-- A host with its files and the open store. -/
abbrev HistoryRun := Client (FsOp Dir) FsOp.Res HistoryCall (Option HistoryStore)
  (Except HistoryError Unit) (Fs Dir) HistoryRecord

namespace HistoryRun

def initial : HistoryRun := ⟨⟨fun _ => none, fun _ => []⟩, none, none, ⟨[], none, []⟩⟩

def cutCall (σ : HistoryRun) : Option HistoryCall :=
  if σ.object.isSome then σ.running.map Prod.fst else σ.record.cut

/-- The calls, where accesses end in the given ways and the process stops with the given
files. -/
def service (codec : LineCodec) (fine : (op : FsOp Dir) → op.Res → Prop) (stops : Fs Dir → Prop) :
    Service (FsOp Dir) FsOp.Res HistoryCall (Option HistoryStore) (Except HistoryError Unit)
      (Fs Dir) HistoryRecord where
  program := HistoryCall.program codec
  exec op s r s' := Fs.exec op s r s' ∧ fine op r
  begins request _ _ record := { record with added := request.adds record.memory record.added }
  returns outcome record := { record with
    memory := (outcome.2.map (·.items)).getD record.memory
    cut := if outcome.2.isSome then none else record.cut }
  cut σ disk store record :=
    stops σ.state ∧ disk = σ.state ∧ store = none ∧ record = { σ.record with cut := cutCall σ }

abbrev Reaches (codec : LineCodec) (fine : (op : FsOp Dir) → op.Res → Prop)
    (stops : Fs Dir → Prop) : HistoryRun → HistoryRun → Prop :=
  Client.Reaches (service codec fine stops)

def shown (codec : LineCodec) (σ : HistoryRun) : List HistoryItem :=
  (σ.object.map (·.items)).getD (listed codec σ.state)

end HistoryRun

/-! ## Calls -/

namespace HistoryCall

variable {codec : LineCodec} {added : List NewHistoryItem} {s : Fs Dir}

variable {request : HistoryCall} {self : HistoryStore} {items : List HistoryItem}

theorem follows_after (h : WellFormed items) (request : HistoryCall) :
    Follows items (request.after items) := by
  cases request with
  | add item => exact follows_adding h item
  | setSource id source =>
    rw [after, sourcing]
    split
    · rename_i hany
      obtain ⟨item, hitem, rfl, htransition⟩ :
          ∃ item ∈ items, item.id = id ∧ transition item.source source = true := by
        simpa using hany
      refine follows_promoting h hitem ?_
      cases hsource : item.source <;> rw [hsource] at htransition <;>
        first | rfl | cases htransition
    · exact h.follows
  | clear => exact fun _ _ _ => nofun
  | reopen => exact h.follows

theorem Ordered.adds (h : Ordered added items) (request : HistoryCall) :
    Ordered (request.adds items added) items := by
  cases request with
  | add item =>
    rw [HistoryCall.adds]
    split
    · exact h
    · exact h.cons item
  | _ => exact h

theorem ordered_after (h : Ordered added items) (request : HistoryCall) :
    Ordered (request.adds items added) (request.after items) := by
  cases request with
  | add item =>
    by_cases hknown : items.any fun known => known.id = item.id
    · rw [after, adds, if_pos hknown, adding, if_pos hknown]
      exact h
    · rw [after, adds, if_neg hknown]
      exact h.adding item
  | setSource id source =>
    rw [after, adds, sourcing]
    split
    · exact h.promoting id
    · exact h
  | clear => exact List.nil_sublist _
  | reopen => exact h

theorem Sound.adds (h : Sound codec added s) (request : HistoryCall) :
    Sound codec (request.adds (listed codec s) added) s := by
  cases request with
  | add item =>
    rw [HistoryCall.adds]
    split
    · exact h
    · rename_i hnew
      exact Backed.cons h (by simpa using hnew)
  | _ => exact h

def Passing (codec : LineCodec) (added : List NewHistoryItem) (request : HistoryCall)
    (items : List HistoryItem) (s : Fs Dir) : Prop :=
  Sound codec added s ∧ (listed codec s = items ∨ listed codec s = request.after items)

def Ending (codec : LineCodec) (request : HistoryCall) (items : List HistoryItem) :
    Outcome → Fs Dir → Prop
  | (r, some self), s => self.items = listed codec s ∧
      (r = .ok () → self.items = request.after items) ∧
      (request = .reopen → Tidy s self.items)
  | (_, none), _ => request = .reopen

theorem safe_return {p : FsProgram Dir (Except HistoryError Unit × HistoryStore)}
    (hrequest : request ≠ .reopen) (hself : self.items = listed codec s)
    (hsound : Safe Fs.exec (Sound codec added) (fun _ _ => True) p s)
    (hlist : Updates codec self (request.after self.items) p s) :
    Safe Fs.exec (Passing codec added request self.items) (Ending codec request self.items)
      (do let (r, self) ← p
          return (r, some self)) s := by
  rw [Updates, ← hself] at hlist
  refine (hsound.inter hlist).bind ?_
  rintro ⟨r, self'⟩ s' hpassing ⟨-, hsettled, -, hok⟩
  exact ⟨hpassing, hsettled.shown hself, hok, fun heq => absurd heq hrequest⟩

/-- What a call does to the list and to the images. -/
theorem safe_program {store : Option HistoryStore} {p : FsProgram Dir Outcome}
    (hcall : request.program codec store = some p)
    (hstore : ∀ self, store = some self → self.items = listed codec s)
    (hsound : Sound codec added s) :
    Safe Fs.exec (Passing codec (request.adds (listed codec s) added) request (listed codec s))
      (Ending codec request (listed codec s)) p s := by
  have hadds := Sound.adds hsound request
  unfold program at hcall
  split at hcall
  · rename_i item self
    cases hcall
    have hself := hstore self rfl
    rw [← hself] at hadds ⊢
    refine safe_return (by rintro ⟨⟩) hself (safe_add_sound hself hadds fun hfresh => ?_)
      (safe_add (hself ▸ wellFormed_listed codec s) item s)
    rw [adds, if_neg (by simpa using hfresh)]
    exact origin_cons_self added item
  · rename_i id source self
    cases hcall
    have hself := hstore self rfl
    rw [← hself] at hadds ⊢
    exact safe_return (by rintro ⟨⟩) hself (safe_setSource_sound hself hadds id source)
      (safe_setSource (hself ▸ wellFormed_listed codec s) id source s)
  · rename_i self
    cases hcall
    have hself := hstore self rfl
    rw [← hself] at hadds ⊢
    exact safe_return (by rintro ⟨⟩) hself (safe_clear_sound self hadds) (safe_clear self s)
  · cases hcall
    refine ((safe_open_sound hadds).inter (safe_open s)).bind_of_imp
      (fun _ h => ⟨h.1.sound, .inl h.1.listed⟩) ?_
    rintro r s₁ ⟨hpruned, -⟩ ⟨htidy, hlisted⟩
    have hpassing : Passing codec (reopen.adds (listed codec s) added) reopen (listed codec s) s₁ :=
      ⟨hpruned.sound, .inl hpruned.listed⟩
    cases r with
    | error e => exact ⟨hpassing, rfl⟩
    | ok self =>
      have hself := hlisted self rfl
      exact ⟨hpassing, hself.trans hpruned.listed.symm, fun _ => hself, fun _ => htidy self rfl⟩
  all_goals cases hcall

theorem eq_reopen_of_none {p : FsProgram Dir Outcome}
    (hcall : request.program codec none = some p) : request = .reopen := by
  cases request with
  | reopen => rfl
  | _ => cases hcall

end HistoryCall

/-! ## Runs -/

namespace HistoryRun

variable {codec : LineCodec} {fine : (op : FsOp Dir) → op.Res → Prop} {stops : Fs Dir → Prop}

def Found (σ : HistoryRun) (items : List HistoryItem) : Prop :=
  items = σ.record.memory ∨ ∃ request ∈ σ.cutCall, items = request.after σ.record.memory

structure Consistent (codec : LineCodec) (σ : HistoryRun) : Prop where
  memory : ∀ self, σ.object = some self → self.items = σ.record.memory
  wellFormed : WellFormed σ.record.memory
  sound : Sound codec σ.record.added σ.state
  found : σ.Found (listed codec σ.state)
  ordered : Ordered σ.record.added (listed codec σ.state)
  orderedMemory : Ordered σ.record.added σ.record.memory
  idle : σ.running = none → ∀ self, σ.object = some self → self.items = listed codec σ.state
  closed : ∀ request p, σ.object = none → σ.running = some (request, p) → request = .reopen
  rest : ∀ request p, σ.running = some (request, p) →
    Ordered σ.record.added (request.after (σ.shown codec)) ∧
    Safe Fs.exec (request.Passing codec σ.record.added (σ.shown codec))
      (request.Ending codec (σ.shown codec)) p σ.state

theorem shown_of_some {σ : HistoryRun} {self : HistoryStore} (h : σ.object = some self) :
    σ.shown codec = self.items := by
  rw [shown, h]
  rfl

theorem shown_of_none {σ : HistoryRun} (h : σ.object = none) :
    σ.shown codec = listed codec σ.state := by
  rw [shown, h]
  rfl

theorem cutCall_of_some {σ : HistoryRun} {self : HistoryStore} (h : σ.object = some self) :
    σ.cutCall = σ.running.map Prod.fst := by
  rw [cutCall, h]
  rfl

theorem cutCall_of_none {σ : HistoryRun} (h : σ.object = none) : σ.cutCall = σ.record.cut := by
  rw [cutCall, h]
  rfl

theorem Found.of_none {σ σ' : HistoryRun} {items : List HistoryItem} (h : σ.Found items)
    (hstore : σ.object = none) (hstore' : σ'.object = none)
    (hmemory : σ'.record.memory = σ.record.memory) (hcut : σ'.record.cut = σ.record.cut) :
    σ'.Found items := by
  rw [Found, cutCall_of_none hstore', hmemory, hcut]
  rwa [Found, cutCall_of_none hstore] at h

theorem consistent_initial : initial.Consistent codec where
  memory := nofun
  wellFormed := .nil
  sound := nofun
  found := .inl rfl
  ordered := List.nil_sublist _
  orderedMemory := List.nil_sublist _
  idle := fun _ => nofun
  closed := fun _ _ _ => nofun
  rest := nofun

variable {σ σ' : HistoryRun}

theorem Consistent.shown_of_idle (h : σ.Consistent codec) (hidle : σ.running = none) :
    σ.shown codec = listed codec σ.state := by
  cases hstore : σ.object with
  | none => exact shown_of_none hstore
  | some self => exact (shown_of_some hstore).trans (h.idle hidle self hstore)

theorem Consistent.wellFormed_shown (h : σ.Consistent codec) : WellFormed (σ.shown codec) := by
  cases hstore : σ.object with
  | none =>
    rw [shown_of_none hstore]
    exact wellFormed_listed codec _
  | some self =>
    rw [shown_of_some hstore, h.memory self hstore]
    exact h.wellFormed

variable {disk : Fs Dir} {p : FsProgram Dir HistoryCall.Outcome} {request : HistoryCall}

theorem Consistent.listed_of_passing (h : σ.Consistent codec)
    (hrunning : σ.running = some (request, p)) (hstore : σ.object = none)
    (hpassing : request.Passing codec σ.record.added (σ.shown codec) disk) :
    listed codec disk = listed codec σ.state := by
  cases h.closed request p hstore hrunning
  rcases hpassing.2 with hsame | hsame
  · exact hsame.trans (shown_of_none hstore)
  · exact hsame.trans (shown_of_none hstore)

theorem Consistent.shown_access (h : σ.Consistent codec)
    (hrunning : σ.running = some (request, p))
    (hpassing : request.Passing codec σ.record.added (σ.shown codec) disk)
    (rest : FsProgram Dir HistoryCall.Outcome) :
    shown codec { σ with state := disk, running := some (request, rest) } = σ.shown codec := by
  rw [shown, shown]
  rcases Option.eq_none_or_eq_some σ.object with hstore | ⟨self, hstore⟩
  · have hlisted := h.listed_of_passing hrunning hstore hpassing
    simp only [hstore, hlisted]
  · simp only [hstore]
    rfl

theorem Consistent.begin (h : σ.Consistent codec) (hidle : σ.running = none)
    (hcall : request.program codec σ.object = some p) :
    Consistent codec
      { σ with
        running := some (request, p)
        record.added := request.adds σ.record.memory σ.record.added } := by
  have hmemory : ∀ self, σ.object = some self → σ.record.memory = listed codec σ.state :=
    fun self hstore => (h.memory self hstore).symm.trans (h.idle hidle self hstore)
  have hlisted : request.adds σ.record.memory σ.record.added =
      request.adds (listed codec σ.state) σ.record.added := by
    cases hstore : σ.object with
    | none =>
      rw [hstore] at hcall
      rw [HistoryCall.eq_reopen_of_none hcall]
      rfl
    | some self => rw [hmemory self hstore]
  have hshown := h.shown_of_idle hidle
  have hsafe := HistoryCall.safe_program hcall (h.idle hidle) h.sound
  rw [← hlisted] at hsafe
  refine ⟨h.memory, h.wellFormed, ?_, ?_, ?_, HistoryCall.Ordered.adds h.orderedMemory request,
    nofun, ?_, ?_⟩
  · rw [hlisted]
    exact HistoryCall.Sound.adds h.sound request
  · rcases Option.eq_none_or_eq_some σ.object with hstore | ⟨self, hstore⟩
    · exact h.found.of_none hstore hstore rfl rfl
    · exact .inl (hmemory self hstore).symm
  · rw [hlisted]
    exact HistoryCall.Ordered.adds h.ordered request
  · rintro request' p' hstore ⟨⟩
    exact HistoryCall.eq_reopen_of_none (hstore ▸ hcall)
  · rintro request' p' ⟨⟩
    have hordered := HistoryCall.ordered_after h.ordered request
    rw [← hlisted] at hordered
    rw [← hshown] at hordered hsafe
    exact ⟨hordered, hsafe⟩

theorem Consistent.access (h : σ.Consistent codec) {op : FsOp Dir}
    {k : op.Res → FsProgram Dir HistoryCall.Outcome} {r : op.Res}
    (hrunning : σ.running = some (request, .call op k)) (hexec : Fs.exec op σ.state r disk) :
    Consistent codec { σ with state := disk, running := some (request, k r) } := by
  obtain ⟨hafter, -, hsafe⟩ := h.rest request _ hrunning
  have hnext := hsafe r disk hexec
  have hpassing := hnext.inv
  refine ⟨h.memory, h.wellFormed, hpassing.1, ?_, ?_, h.orderedMemory, nofun, ?_, ?_⟩
  · rcases Option.eq_none_or_eq_some σ.object with hstore | ⟨self, hstore⟩
    · have hfound := h.found
      rw [← h.listed_of_passing hrunning hstore hpassing] at hfound
      exact hfound.of_none hstore hstore rfl rfl
    · have hlisted := hpassing.2
      rw [shown_of_some hstore, h.memory self hstore] at hlisted
      rcases hlisted with hsame | hdone
      · exact .inl hsame
      · exact .inr ⟨request, cutCall_of_some hstore, hdone⟩
  · rcases hpassing.2 with hsame | hdone
    · rw [hsame]
      rcases Option.eq_none_or_eq_some σ.object with hstore | ⟨self, hstore⟩
      · rw [shown_of_none hstore]
        exact h.ordered
      · rw [shown_of_some hstore, h.memory self hstore]
        exact h.orderedMemory
    · rw [hdone]
      exact hafter
  · rintro request' p' hstore ⟨⟩
    exact h.closed _ _ hstore hrunning
  · rintro request' p' ⟨⟩
    rw [h.shown_access hrunning hpassing]
    exact ⟨hafter, hnext⟩

theorem Consistent.finish (h : σ.Consistent codec) {r : Except HistoryError Unit}
    {store : Option HistoryStore} (hrunning : σ.running = some (request, .done (r, store))) :
    Consistent codec { σ with
      object := store
      running := none
      record := (service codec fine stops).returns (r, store) σ.record } := by
  obtain ⟨-, hpassing, hending⟩ := h.rest request _ hrunning
  cases store with
  | some self =>
    have hself : self.items = listed codec σ.state := hending.1
    have hwell : WellFormed self.items := hself ▸ wellFormed_listed codec σ.state
    have hordered : Ordered σ.record.added self.items := hself ▸ h.ordered
    refine ⟨?_, hwell, h.sound, .inl hself.symm, h.ordered, hordered, ?_, nofun, nofun⟩
    · rintro _ ⟨⟩
      rfl
    · rintro - _ ⟨⟩
      exact hself
  | none =>
    cases hending
    refine ⟨nofun, h.wellFormed, h.sound, ?_, h.ordered, h.orderedMemory, fun _ => nofun,
      fun _ _ _ => nofun, nofun⟩
    rcases Option.eq_none_or_eq_some σ.object with hstore | ⟨self, hstore⟩
    · exact h.found.of_none hstore rfl rfl rfl
    · have hlisted := hpassing.2
      rw [shown_of_some hstore, h.memory self hstore] at hlisted
      exact .inl (hlisted.elim id id)

theorem Consistent.stop (h : σ.Consistent codec) :
    Consistent codec ⟨σ.state, none, none, { σ.record with cut := σ.cutCall }⟩ :=
  ⟨nofun, h.wellFormed, h.sound, h.found, h.ordered, h.orderedMemory, fun _ => nofun,
    fun _ _ _ => nofun, nofun⟩

theorem Consistent.step (h : σ.Consistent codec)
    (hstep : Client.Step (service codec fine stops) σ σ') : σ'.Consistent codec := by
  cases hstep with
  | begin hidle hcall => exact h.begin hidle hcall
  | access hrunning hexec => exact h.access hrunning hexec.1
  | finish hrunning => exact h.finish hrunning
  | cut hcut =>
    obtain ⟨-, rfl, rfl, rfl⟩ := hcut
    exact h.stop

theorem Reaches.consistent (hrun : initial.Reaches codec fine stops σ) : σ.Consistent codec := by
  induction hrun with
  | refl => exact consistent_initial
  | tail _ hstep ih => exact ih.step hstep

theorem Consistent.shown_step (h : σ.Consistent codec)
    (hstep : Client.Step (service codec fine stops) σ σ') :
    σ'.shown codec = σ.shown codec ∨ ∃ request : HistoryCall,
      σ'.shown codec = request.after (σ.shown codec) := by
  cases hstep with
  | begin hidle hcall => exact .inl rfl
  | access hrunning hexec =>
    obtain ⟨-, -, hsafe⟩ := h.rest _ _ hrunning
    exact .inl (h.shown_access hrunning (hsafe _ _ hexec.1).inv _)
  | finish hrunning =>
    rename_i request outcome
    obtain ⟨r, store⟩ := outcome
    obtain ⟨-, hpassing, hending⟩ := h.rest _ _ hrunning
    cases store with
    | none => exact hpassing.2.imp id fun hdone => ⟨request, hdone⟩
    | some self =>
      have hself : self.items = listed codec σ.state := hending.1
      rw [shown_of_some rfl, hself]
      exact hpassing.2.imp id fun hdone => ⟨request, hdone⟩
  | cut hcut =>
    obtain ⟨-, rfl, rfl, rfl⟩ := hcut
    change listed codec σ.state = _ ∨ ∃ request : HistoryCall, listed codec σ.state = _
    cases hrunning : σ.running with
    | none => exact .inl (h.shown_of_idle hrunning).symm
    | some running =>
      obtain ⟨-, hsafe⟩ := h.rest running.1 running.2 hrunning
      exact hsafe.inv.2.imp id fun hdone => ⟨running.1, hdone⟩

end HistoryRun

/-! ## Opening what is there -/

namespace HistoryStore

variable {codec : LineCodec} {s : Fs Dir}

theorem total_removeFileIfExists (path : Path Dir) :
    Total Fs.succeed (fun r _ => r = .ok ()) (removeFileIfExists path) s := by
  refine ⟨⟨.ok (), _, rfl, nofun⟩, ?_⟩
  rintro r s' ⟨-, hsucceeds⟩
  match r with
  | .ok () => rfl
  | .error .notFound => rfl
  | .error (.other message) => exact absurd rfl (hsucceeds message)

theorem total_removeFiles (names : List String) :
    Total Fs.succeed (fun r _ => r = .ok ()) (removeFiles names) s := by
  induction names generalizing s with
  | nil => rfl
  | cons name names ih =>
    refine (total_removeFileIfExists _).bind ?_
    rintro _ s₁ rfl
    exact ih

theorem total_loadItems :
    Total Fs.succeed (fun r s' => s' = s ∧ ∃ items, r = .ok items ∧ recent items = listed codec s)
      (loadItems codec) s := by
  constructor
  · cases hfile : s.files metadataFile with
    | none => exact ⟨.error .notFound, s, ⟨rfl, hfile⟩, nofun⟩
    | some contents => exact ⟨.ok contents, s, ⟨rfl, hfile⟩, nofun⟩
  rintro r s' ⟨hread, hsucceeds⟩
  match r, hread with
  | .ok contents, ⟨hs, hfile⟩ => exact ⟨hs, _, rfl, by rw [listed, hfile]⟩
  | .error .notFound, ⟨hs, hfile⟩ => exact ⟨hs, _, rfl, by rw [listed, hfile]; rfl⟩
  | .error (.other message), _ => exact absurd rfl (hsucceeds message)

theorem total_new (hfinite : {name | (s.files (imagePath name)).isSome}.Finite) :
    Total Fs.succeed (fun r _ => ∃ self, r = .ok self ∧ self.items = listed codec s)
      (HistoryStore.new codec) s := by
  refine ⟨⟨.ok (), s, rfl, rfl⟩, ?_⟩
  rintro _ _ ⟨hcreate, rfl⟩
  cases hcreate
  change Total _ _ (loadItems codec >>= _) s
  refine total_loadItems.bind ?_
  rintro _ s₁ ⟨hs, items, rfl, hitems⟩
  subst hs
  have hcleanup : Total Fs.succeed (fun r _ => r = .ok ()) (cleanupOrphanImages (recent items))
      s₁ := by
    constructor
    · refine ⟨.ok hfinite.toFinset.toList, s₁, ⟨rfl, fun name => ?_⟩, rfl⟩
      rw [Finset.mem_toList, Set.Finite.mem_toFinset]
      rfl
    · rintro (e | names) s' ⟨-, hsucceeds⟩
      · cases hsucceeds
      · change Total _ _ (removeOrphans _ names) s'
        rw [removeOrphans_eq]
        exact total_removeFiles _
  refine hcleanup.bind ?_
  rintro _ s₂ rfl
  exact ⟨⟨recent items⟩, rfl, hitems⟩

theorem exec_imageBytes {self : HistoryStore} (hself : (self.items.map (·.id)).Nodup)
    {item : HistoryItem} (hitem : item ∈ self.items) {name : String}
    (hkind : item.kind = .image name) {bytes : Bytes}
    (hfile : s.files (imagePath name) = some bytes) {r : Except HistoryError Bytes} {s' : Fs Dir} :
    Exec Fs.succeed (self.imageBytes item.id) s r s' ↔ r = .ok bytes ∧ s' = s := by
  have hfind : self.items.find? (·.id = item.id) = some item := by
    obtain ⟨found, hfound⟩ : ∃ found, self.items.find? (·.id = item.id) = some found := by
      refine Option.isSome_iff_exists.1 (List.find?_isSome.2 ⟨item, hitem, ?_⟩)
      simp
    have hid : found.id = item.id := by simpa using List.find?_some hfound
    rw [hfound, List.inj_on_of_nodup_map hself (List.mem_of_find?_eq_some hfound) hitem hid]
  rw [imageBytes, hfind]
  dsimp only
  rw [hkind]
  constructor
  · intro h
    obtain ⟨r₁, s₁, hread, hrest⟩ := exec_bind.1 h
    obtain ⟨r₂, s₂, ⟨hexec, hsucceeds⟩, hdone⟩ := exec_call.1 hread
    obtain ⟨rfl, rfl⟩ := exec_done.1 hdone
    match r₁, hexec with
    | .ok found, ⟨hs, hfound⟩ =>
      obtain ⟨rfl, rfl⟩ := exec_done.1 hrest
      rw [hfile] at hfound
      cases hfound
      exact ⟨rfl, hs⟩
    | .error .notFound, ⟨_, hnone⟩ => cases hfile.symm.trans hnone
    | .error (.other message), _ => exact absurd rfl (hsucceeds message)
  · rintro ⟨rfl, rfl⟩
    have hread : Fs.succeed (.read (imagePath name)) s' (.ok bytes) s' := ⟨⟨rfl, hfile⟩, nofun⟩
    exact .call hread (.done _ _)

end HistoryStore

namespace HistoryRun

variable {codec : LineCodec} {fine : (op : FsOp Dir) → op.Res → Prop} {stops : Fs Dir → Prop}

/-- What a host finds, in whatever state a run is. -/
structure Faithful (codec : LineCodec) (fine : (op : FsOp Dir) → op.Res → Prop)
    (stops : Fs Dir → Prop) (σ : HistoryRun) : Prop where
  /-- A call that has returned leaves its list in memory. -/
  returned : ∀ request self, σ.object.isSome →
    σ.running = some (request, .done (.ok (), some self)) →
    self.items = request.after σ.record.memory
  /-- The list of a reopened store is the one before the call that was cut off, or the one
  after it. -/
  reopened : ∀ r self, σ.running = some (.reopen, .done (r, some self)) → σ.Found self.items
  listed : ∀ self, σ.object = some self → self.items.length ≤ historyCap ∧
    (self.items.map (·.id)).Nodup ∧ Ordered σ.record.added self.items
  sources : ∀ σ' : HistoryRun, Client.Step (service codec fine stops) σ σ' →
    Follows (σ.shown codec) (σ'.shown codec)
  /-- A listed image is read as it was added. -/
  images : ∀ self, σ.object = some self → σ.running = none → ∀ item ∈ self.items,
    ∀ name, item.kind = .image name → ∃ bytes,
      (origin σ.record.added item.id).map (·.content) = some (.image bytes) ∧
      ∀ r s, Exec Fs.succeed (self.imageBytes item.id) σ.state r s ↔ r = .ok bytes ∧ s = σ.state
  /-- A reopened store has the images of its items and no others. -/
  tidy : ∀ self, σ.running = some (.reopen, .done (.ok (), some self)) →
    ∀ name, (σ.state.files (imagePath name)).isSome ↔ Names self.items name

variable {σ : HistoryRun}

theorem exists_image {added : List NewHistoryItem} {s : Fs Dir} (h : Sound codec added s)
    {item : HistoryItem} (hitem : item ∈ listed codec s) {name : String}
    (hkind : item.kind = .image name) : ∃ bytes,
      (origin added item.id).map (·.content) = some (.image bytes) ∧
      s.files (imagePath name) = some bytes := by
  obtain ⟨origin, horigin, hbacks⟩ := h item hitem
  have hsame := hbacks.kind
  rw [hkind, kindOf] at hsame
  cases hcontent : origin.content with
  | text content =>
    rw [hcontent] at hsame
    cases hsame
  | image bytes =>
    rw [hcontent] at hsame
    cases hsame
    refine ⟨bytes, ?_, hbacks.image bytes hcontent⟩
    rw [horigin]
    exact congrArg some hcontent

theorem Consistent.faithful (h : σ.Consistent codec) : σ.Faithful codec fine stops where
  returned request self hstore hrunning := by
    obtain ⟨old, hold⟩ := Option.isSome_iff_exists.1 hstore
    obtain ⟨-, -, -, hok, -⟩ := h.rest _ _ hrunning
    rw [hok rfl, shown_of_some hold, h.memory old hold]
  reopened r self hrunning := by
    obtain ⟨-, -, hself, -⟩ := h.rest _ _ hrunning
    exact hself ▸ h.found
  listed self hstore := by
    have hmemory := h.memory self hstore
    rw [hmemory]
    exact ⟨h.wellFormed.bounded, h.wellFormed.nodup, h.orderedMemory⟩
  sources σ' hstep := by
    rcases h.shown_step hstep with hsame | ⟨request, hafter⟩
    · rw [hsame]
      exact h.wellFormed_shown.follows
    · rw [hafter]
      exact HistoryCall.follows_after h.wellFormed_shown request
  images self hstore hidle item hitem name hkind := by
    have hself := h.idle hidle self hstore
    obtain ⟨bytes, horigin, hfile⟩ := exists_image h.sound (hself ▸ hitem) hkind
    have hnodup : (self.items.map (·.id)).Nodup := hself ▸ (wellFormed_listed codec _).nodup
    exact ⟨bytes, horigin, fun r s => exec_imageBytes hnodup hitem hkind hfile⟩
  tidy self hrunning name := by
    obtain ⟨-, -, hself, -, htidy⟩ := h.rest _ _ hrunning
    refine ⟨htidy rfl name, ?_⟩
    rintro ⟨item, hitem, hname⟩
    have hkind : item.kind = .image name := by
      cases hkind : item.kind with
      | text content =>
        rw [hkind] at hname
        cases hname
      | image fileName =>
        rw [hkind] at hname
        cases hname
        rfl
    obtain ⟨bytes, -, hfile⟩ := exists_image h.sound (hself ▸ hitem) hkind
    rw [hfile]
    rfl

/-- Cut off between any two accesses, the history is found as it was before the call or as
it is after it; and whatever the metadata file contains, the history can be opened. -/
theorem history_survives_stops
    (hrun : initial.Reaches codec (fun _ _ => True) (fun _ => True) σ) :
    σ.Faithful codec (fun _ _ => True) (fun _ => True) ∧
      ∀ s : Fs Dir, {name | (s.files (imagePath name)).isSome}.Finite →
        Program.Total Fs.succeed (fun r _ => ∃ self, r = .ok self ∧
          self.items.length ≤ historyCap ∧ (self.items.map (·.id)).Nodup)
          (HistoryStore.new codec) s := by
  refine ⟨hrun.consistent.faithful, fun s hfinite => (total_new hfinite).mono ?_⟩
  rintro _ _ ⟨self, rfl, hself⟩
  have hwell := wellFormed_listed codec s
  rw [← hself] at hwell
  exact ⟨self, rfl, hwell.bounded, hwell.nodup⟩

/-! ## A sample run -/

theorem exec_write (path : Path Dir) (contents : Bytes) (suffix : String) (s : Fs Dir) :
    Exec Fs.succeed (HistoryStore.atomicWrite path contents) s (.ok ())
      (s.replace (tempOf path suffix) path contents) := by
  have hname : Fs.succeed .uniqueName s suffix s := ⟨rfl, trivial⟩
  have hwrite : Exec Fs.succeed (FsProgram.atomicWrite ⟨false, false, false⟩ (tempOf path suffix)
      path contents) s (.ok ()) _ := exec_atomicWrite nofun
  exact .call hname (hwrite.bind (.done _ _))

/-- Opening a store whose images are all listed. -/
theorem exec_open {s : Fs Dir} {items : List HistoryItem} (names : List String)
    (hlisted : listed codec s = items)
    (hnames : ∀ name, name ∈ names ↔ (s.files (imagePath name)).isSome)
    (htidy : ∀ name ∈ names, Names items name) :
    Exec Fs.succeed (HistoryStore.new codec) s (.ok ⟨items⟩) s := by
  have hloads : Program.Total Fs.succeed _ (loadItems codec) s := total_loadItems
  obtain ⟨_, s', hload, hs, loaded, rfl, hloaded⟩ := hloads.exists_exec
  subst hs
  have hcreate : Fs.succeed (.createDirAll .images) s' (.ok ()) s' := ⟨rfl, rfl⟩
  have hread : Fs.succeed (.readDir .images) s' (.ok names) s' := ⟨⟨rfl, hnames⟩, rfl⟩
  have hkeep : removeOrphans (items.filterMap (·.kind.imageFileName)) names = pure (.ok ()) := by
    rw [removeOrphans_eq, List.filter_eq_nil_iff.2]
    · rfl
    · intro name hname
      simpa [Names] using htidy name hname
  have hitems : recent loaded = items := hloaded.trans hlisted
  refine .call hcreate (hload.bind ?_)
  dsimp only
  rw [show loaded.drop (loaded.length - historyCap) = items from hitems]
  have hcleanup : Exec Fs.succeed (cleanupOrphanImages items) s' (.ok ()) s' := by
    refine (exec_perform hread).bind ?_
    dsimp only
    rw [hkeep]
    exact .done _ _
  exact hcleanup.bind (.done _ _)

section Calls

variable (request : HistoryCall) {r : Except HistoryError Unit} {store : Option HistoryStore}
  {disk : Fs Dir}
  {exec : (op : FsOp Dir) → Fs Dir → op.Res → Fs Dir → Prop}
  (hexec : ∀ op s r s', exec op s r s' → Fs.exec op s r s' ∧ fine op r)
  (hidle : σ.running = none)
  (hcall : ∃ p, request.program codec σ.object = some p ∧ Exec exec p σ.state (r, store) disk)

include hexec hidle hcall

theorem reaches_return : σ.Reaches codec fine stops { σ with
    state := disk
    running := some (request, .done (r, store))
    record.added := request.adds σ.record.memory σ.record.added } := by
  obtain ⟨p, hp, hrun⟩ := hcall
  exact Client.reaches_return hidle hp (hrun.mono hexec)

theorem reaches_call : σ.Reaches codec fine stops ⟨disk, store, none,
    (service codec fine stops).returns (r, store)
      { σ.record with added := request.adds σ.record.memory σ.record.added }⟩ :=
  (reaches_return request hexec hidle hcall).tail (.finish (r := (r, store)) rfl)

end Calls

theorem reaches_opened (hfine : ∀ op s r s', Fs.succeed op s r s' → Fs.exec op s r s' ∧ fine op r) :
    initial.Reaches codec fine stops ⟨initial.state, some ⟨[]⟩, none, ⟨[], none, []⟩⟩ := by
  have hopen : Exec Fs.succeed (HistoryStore.new codec) initial.state (.ok ⟨[]⟩) initial.state :=
    exec_open [] rfl (by simp [initial]) nofun
  exact reaches_call .reopen hfine rfl ⟨_, rfl, hopen.bind (.done _ _)⟩

def sampleItem : NewHistoryItem :=
  ⟨⟨⟨List.replicate 16 0, rfl⟩⟩, 0, .remote, .image [1, 2, 3]⟩

/-- The process stops after the list with a new image has been written; the list is found
with the image when the store is opened again. -/
theorem history_survives_stops_sample :
    ∃ σ self, initial.Reaches .standard (fun _ _ => True) (fun _ => True) σ ∧
      σ.running = some (.reopen, .done (.ok (), some self)) ∧ self.items = [entryOf sampleItem] ∧
      σ.record.cut.isSome ∧ σ.Faithful .standard (fun _ _ => True) (fun _ => True) := by
  let codec := LineCodec.standard
  let image := imagePath (imageName sampleItem.id)
  let s₀ : Fs Dir := initial.state
  let s₁ := s₀.replace (tempOf image "") image [1, 2, 3]
  let s₂ := s₁.replace (tempOf metadataFile "") metadataFile
    (encodeItems codec [entryOf sampleItem])
  have hfine : ∀ (op : FsOp Dir) s r s', Fs.succeed op s r s' → Fs.exec op s r s' ∧ True :=
    fun _ _ _ _ hop => ⟨hop.1, trivial⟩
  have hadd : Exec Fs.succeed ((⟨[]⟩ : HistoryStore).add codec sampleItem) s₀
      (.ok (), ⟨[entryOf sampleItem]⟩) s₂ := by
    refine .bind ((exec_write image _ "" s₀).bind (.done _ _)) ?_
    exact (exec_write metadataFile _ "" s₁).bind (.done _ _)
  have hopen₂ : Exec Fs.succeed (HistoryStore.new codec) s₂ (.ok ⟨[entryOf sampleItem]⟩) s₂ := by
    refine exec_open [imageName sampleItem.id] ?_ (fun name => ?_) fun name hname => ?_
    · exact listed_replace codec (WellFormed.nil.adding sampleItem) s₁ _
    · have hsame : s₂.files (imagePath name) = s₁.files (imagePath name) :=
        Fs.replace_files_of_ne nofun (ne_metadataFile rfl)
      rw [hsame, List.mem_singleton]
      by_cases hname : name = imageName sampleItem.id
      · rw [hname]
        have hfile : s₁.files image = some [1, 2, 3] := Fs.replace_files_target
        simp [image, hfile]
      · have hother : imagePath name ≠ image := fun heq => hname (congrArg Path.name heq)
        have hnone : s₁.files (imagePath name) = none := by
          by_cases htemp : imagePath name = tempOf image ""
          · rw [htemp]
            exact Fs.replace_files_source (tempOf_imageName_ne _ _ "")
          · exact Fs.replace_files_of_ne htemp hother
        simp [hname, hnone]
    · rw [List.mem_singleton.1 hname]
      exact ⟨entryOf sampleItem, by simp, rfl⟩
  have hstopped : initial.Reaches codec (fun _ _ => True) (fun _ => True)
      ⟨s₂, none, none, ⟨[], some (.add sampleItem), [sampleItem]⟩⟩ :=
    ((reaches_opened hfine).trans (reaches_return (.add sampleItem) hfine rfl
      ⟨_, rfl, hadd.bind (.done _ _)⟩)).tail (.cut ⟨trivial, rfl, rfl, rfl⟩)
  have hrun := hstopped.trans (reaches_return .reopen hfine rfl
    ⟨_, rfl, hopen₂.bind (.done _ _)⟩)
  exact ⟨_, _, hrun, rfl, rfl, rfl, (history_survives_stops hrun).1⟩

end HistoryRun

end ClipSync
