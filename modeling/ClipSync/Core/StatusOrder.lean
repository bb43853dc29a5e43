import ClipSync.Core.Dispatcher
import ClipSync.Lib.Schedule

/-!
# What the host is told about a connection

The dispatcher reports `Connected` for a connection it has got in one of three ways. With a
`Connect` command and with a send that joins again, the bootstrap clip of the connection has
been handed to the host before, and `Disconnected` or `Reconnecting` was reported since the
last `Connected`. A connection that is joined again while the dispatcher waits for an event is
reported first, and nothing was reported when the former one was lost.
-/

namespace ClipSync

open Lib Program Dispatcher

/-! ## The trace -/

/-- What the host gets to know: statuses and clips. `joined` tells where a connection begins. -/
inductive HostEvent where
  | joined (way : Joining) (bootstrapClip : Option (String × String))
  | clip (roomId ciphertextB64 : String) (mailbox : Bool)
  | status (status : CoreStatus)
deriving DecidableEq

def DispatcherOp.events : DispatcherOp → List HostEvent
  | .adopt way bootstrapClip => [.joined way bootstrapClip]
  | .handleClip roomId ciphertextB64 mailbox => [.clip roomId ciphertextB64 mailbox]
  | .emit status => [.status status]
  | _ => []

/-- What the dispatcher has heard: whether the last frame was `mailbox_empty`, whether a clip has
been sealed that is not yet on its way, and whether the first transmission of a clip has failed
since the connection was joined. -/
structure Heard where
  empty : Bool := false
  pending : Bool := false
  failed : Bool := false
deriving DecidableEq

def Heard.next (heard : Heard) : (op : DispatcherOp) → op.Res → Heard
  | .receive _, .ok .mailboxEmpty => { heard with empty := true }
  | .receive _, _ => { heard with empty := false }
  | .sendClip .., result => { heard with pending := result.isOk }
  | .send .., .ok () => { heard with pending := false }
  | .send .., .error error =>
    { heard with pending := false, failed := heard.failed || heard.pending && error.transient }
  | .adopt .., _ => { heard with failed := false }
  | _, _ => heard

structure Reports where
  events : List HostEvent := []
  heard : Heard := {}
deriving DecidableEq

def Reports.next (s : Reports) (op : DispatcherOp) (r : op.Res) : Reports :=
  ⟨s.events ++ op.events, s.heard.next op r⟩

def dispatcherSystem (crates : LinkCrates) :
    Threads.System DispatcherOp DispatcherOp.Res (fun _ : Unit => Option (Option LiveLink))
      Reports where
  exec _ op s r s' := s' = s.next op r
  enter
    | _, none, s, p, s' => ∃ fuel, p = turn crates fuel none ∧ s = {} ∧ s' = {}
    | _, some (some connection), s, p, s' => ∃ fuel, p = turn crates fuel connection ∧ s' = s
    | _, some none, _, _, _ => False

abbrev DispatcherThread :=
  Threads DispatcherOp DispatcherOp.Res (fun _ : Unit => Option (Option LiveLink)) Reports

def DispatcherThread.start : DispatcherThread where
  shared := {}
  threads _ := none

def HandedOver (events : List HostEvent) : Prop :=
  ∀ before between way clip, events = before ++ .joined way (some clip) :: between →
    (∀ way' clip', .joined way' clip' ∉ between) → .clip clip.1 clip.2 true ∈ between

def Down (events : List HostEvent) : Prop :=
  ∀ before between, events = before ++ .status .connected :: between →
    .status .reconnecting ∈ between ∨ .status .disconnected ∈ between

/-- Wherever `Connected` is reported, the bootstrap clip of the connection has been handed to
the host, and the former connection was reported lost. -/
def ReportedInOrder (events : List HostEvent) : Prop :=
  ∀ before after, events = before ++ .status .connected :: after → HandedOver before ∧ Down before

/-- A connection is joined again while an event is waited for only if the relay answers that
there is no clip for it, and a clip could not be transmitted over the former connection. -/
def Foretold : DispatcherOp → Reports → Prop
  | .adopt .rejoin _, s => s.heard.empty = true ∧ s.heard.failed = true
  | _, _ => True

/-! ## The trace in brief -/

/-- The clip that the host has still to be given, and whether `Connected` is the last report on
the connection. -/
structure Shown where
  owed : Option (String × String) := none
  up : Bool := false

namespace Shown

def next (a : Shown) : HostEvent → Shown
  | .joined _ bootstrapClip => { a with owed := bootstrapClip }
  | .clip roomId ciphertextB64 true =>
    if a.owed = some (roomId, ciphertextB64) then { a with owed := none } else a
  | .status .connected => { a with up := true }
  | .status .reconnecting | .status .disconnected => { a with up := false }
  | _ => a

def of (events : List HostEvent) : Shown := events.foldl next {}

theorem of_append (events events' : List HostEvent) :
    of (events ++ events') = events'.foldl next (of events) :=
  List.foldl_append

theorem of_concat (events : List HostEvent) (e : HostEvent) :
    of (events ++ [e]) = (of events).next e :=
  of_append events [e]

theorem up_clip (a : Shown) (roomId ciphertextB64 : String) (mailbox : Bool) :
    (a.next (.clip roomId ciphertextB64 mailbox)).up = a.up := by
  cases mailbox with
  | false => rfl
  | true =>
    rw [next]
    split <;> rfl

end Shown

variable {e : HostEvent}

theorem eq_of_concat_eq {events before between : List HostEvent} {e' : HostEvent}
    (h : events ++ [e] = before ++ e' :: between) :
    (between = [] ∧ e' = e ∧ before = events) ∨
      ∃ between', between = between' ++ [e] ∧ events = before ++ e' :: between' := by
  rcases List.eq_nil_or_concat between with rfl | ⟨between', last, rfl⟩
  · obtain ⟨rfl, hlast⟩ := List.append_inj' h rfl
    exact .inl ⟨rfl, (List.singleton_inj.1 hlast).symm, rfl⟩
  · rw [List.concat_eq_append, ← List.cons_append, ← List.append_assoc] at h
    obtain ⟨rfl, hlast⟩ := List.append_inj' h rfl
    cases List.singleton_inj.1 hlast
    exact .inr ⟨between', List.concat_eq_append, rfl⟩

theorem Down.concat {events : List HostEvent} (h : Down events) (he : e ≠ .status .connected) :
    Down (events ++ [e]) := by
  intro before between heq
  obtain ⟨-, he', -⟩ | ⟨between', rfl, hrest⟩ := eq_of_concat_eq heq
  · exact (he he'.symm).elim
  · exact (h before between' hrest).imp (List.mem_append_left _) (List.mem_append_left _)

theorem down_of_last {events : List HostEvent}
    (he : e = .status .reconnecting ∨ e = .status .disconnected) : Down (events ++ [e]) := by
  intro before between heq
  obtain ⟨-, he', -⟩ | ⟨between', rfl, -⟩ := eq_of_concat_eq heq
  · rw [← he'] at he
    obtain he | he := he
    · cases he
    · cases he
  · have hmem : e ∈ between' ++ [e] := List.mem_append_right _ (List.mem_singleton_self e)
    obtain rfl | rfl := he
    · exact .inl hmem
    · exact .inr hmem

theorem down_of_up {events : List HostEvent} (h : (Shown.of events).up = false) : Down events := by
  induction events using List.reverseRecOn with
  | nil =>
    intro before between heq
    simp at heq
  | append_singleton events e ih =>
    rw [Shown.of_concat] at h
    cases e with
    | joined way bootstrapClip => exact (ih h).concat (by simp)
    | clip roomId ciphertextB64 mailbox =>
      rw [Shown.up_clip] at h
      exact (ih h).concat (by simp)
    | status status =>
      cases status with
      | connected => cases h
      | reconnecting => exact down_of_last (.inl rfl)
      | disconnected => exact down_of_last (.inr rfl)
      | _ => exact (ih h).concat (by simp)

/-- A bootstrap clip is owed until it is handed to the host. -/
theorem owed_or_mem (events : List HostEvent) :
    ∀ before between way clip, events = before ++ .joined way (some clip) :: between →
      (∀ way' clip', .joined way' clip' ∉ between) →
      (Shown.of events).owed = some clip ∨ .clip clip.1 clip.2 true ∈ between := by
  induction events using List.reverseRecOn with
  | nil => simp
  | append_singleton events e ih =>
    intro before between way clip heq hlast
    rw [Shown.of_concat]
    obtain ⟨-, rfl, -⟩ | ⟨between', rfl, hrest⟩ := eq_of_concat_eq heq
    · exact .inl rfl
    have hbefore := ih before between' way clip hrest fun way' clip' hmem =>
      hlast way' clip' (List.mem_append_left _ hmem)
    have hmem : e ∈ between' ++ [e] := List.mem_append_right _ (List.mem_singleton_self e)
    obtain howed | hgiven := hbefore
    · cases e with
      | joined way' clip' => exact (hlast way' clip' hmem).elim
      | clip roomId ciphertextB64 mailbox =>
        cases mailbox with
        | false => exact .inl howed
        | true =>
          rw [Shown.next]
          split
          · rename_i hsame
            cases howed.symm.trans hsame
            exact .inr hmem
          · exact .inl howed
      | status status => cases status <;> exact .inl howed
    · exact .inr (List.mem_append_left _ hgiven)

theorem handedOver_of_owed {events : List HostEvent} (h : (Shown.of events).owed = none) :
    HandedOver events := by
  intro before between way clip heq hlast
  refine (owed_or_mem events before between way clip heq hlast).resolve_left ?_
  rw [h]
  simp

theorem ReportedInOrder.concat {events : List HostEvent} (h : ReportedInOrder events)
    (he : e = .status .connected → HandedOver events ∧ Down events) :
    ReportedInOrder (events ++ [e]) := by
  intro before after heq
  obtain ⟨-, he', rfl⟩ | ⟨after', -, heq⟩ := eq_of_concat_eq heq
  · exact he he'.symm
  · exact h before after' heq

/-! ## The link -/

namespace Reports

theorem next_events {s : Reports} {op : DispatcherOp} {r : op.Res} (h : op.events = []) :
    (s.next op r).events = s.events := by
  rw [next, h, List.append_nil]

/-- What holds whenever the dispatcher waits: a clip that could not be transmitted has been
reported. -/
structure Steady (s : Reports) : Prop where
  ordered : ReportedInOrder s.events
  pending : s.heard.pending = false
  failed : s.heard.failed = true → (Shown.of s.events).up = false

/-- Nothing has been reported. -/
structure Quiet (s s' : Reports) : Prop where
  events : s'.events = s.events
  pending : s'.heard.pending = false
  failed : s'.heard.failed = s.heard.failed

abbrev ForetoldExec (op : DispatcherOp) (s : Reports) (r : op.Res) (s' : Reports) : Prop :=
  Foretold op s ∧ s' = s.next op r

/-- A part of the dispatcher that may be dropped wherever it waits. -/
abbrev Waits {α : Type} (Q : α → Reports → Prop) (p : DispatcherProgram α) (s : Reports) : Prop :=
  Safe ForetoldExec Steady Q p s

def IsSilent : DispatcherOp → Prop
  | .adopt .. | .handleClip .. | .emit _ | .sendClip .. => False
  | _ => True

section Programs

variable {α : Type} {Q : α → Reports → Prop} {s s' s₁ : Reports} {op : DispatcherOp}

theorem Quiet.trans (h : Quiet s s₁) (h' : Quiet s₁ s') : Quiet s s' :=
  ⟨h'.events.trans h.events, h'.pending, h'.failed.trans h.failed⟩

theorem Quiet.steady (h : Quiet s s') (hs : Steady s) : Steady s' := by
  refine ⟨h.events ▸ hs.ordered, h.pending, fun hfailed => ?_⟩
  rw [h.events]
  exact hs.failed (h.failed ▸ hfailed)

theorem quiet_next (hop : IsSilent op) (hs : s.heard.pending = false) (r : op.Res) :
    Quiet s (s.next op r) := by
  have hevents : ∀ heard : Heard, heard.pending = false → heard.failed = s.heard.failed →
      Quiet s ⟨s.events ++ [], heard⟩ := fun heard hpending hfailed =>
    ⟨List.append_nil _, hpending, hfailed⟩
  cases op with
  | adopt _ _ | handleClip _ _ _ | emit _ | sendClip _ _ => exact hop.elim
  | receive socket =>
    rcases r with error | frame
    · exact hevents _ hs rfl
    · cases frame <;> exact hevents _ hs rfl
  | send socket frame =>
    rcases r with error | _
    · exact hevents _ rfl (by simp [Heard.next, hs])
    · exact hevents _ rfl rfl
  | _ => exact hevents _ hs rfl

theorem waits_call (op : DispatcherOp) {k : op.Res → DispatcherProgram α} (hop : IsSilent op)
    (hs : Steady s)
    (hk : ∀ r, Quiet s (s.next op r) → Waits Q (k r) (s.next op r)) : Waits Q (.call op k) s := by
  refine ⟨hs, ?_⟩
  rintro r _ ⟨-, rfl⟩
  exact hk r (quiet_next hop hs.pending r)

theorem waits_of_isSilent {p : DispatcherProgram α} (hp : p.AllOps IsSilent) (hs : Steady s) :
    Waits (fun _ => Quiet s) p s := by
  induction p generalizing s with
  | done a => exact ⟨hs, rfl, hs.pending, rfl⟩
  | call op k ih =>
    refine waits_call op hp.1 hs fun r hquiet => ?_
    exact (ih r (hp.2 r) (hquiet.steady hs)).imp fun _ _ _ h => hquiet.trans h

/-- What is known of a connection that is joined. -/
def Bootstraps (s : Reports) (r : Except TransportError LiveLink) (s' : Reports) : Prop :=
  Quiet s s' ∧ ∀ link, r = .ok link → s'.heard.empty = true → link.bootstrapClip = none

theorem Bootstraps.after {r : Except TransportError LiveLink} (hquiet : Quiet s s₁)
    (h : Bootstraps s₁ r s') : Bootstraps s r s' :=
  ⟨hquiet.trans h.1, h.2⟩

variable (crates : LinkCrates) {identity : Identity} {record : PairingRecord} {challenge : Bytes}
  {socket : ℕ}

theorem waits_receiveJoinOk (hs : Steady s) :
    Waits (Bootstraps s) (receiveJoinOk crates identity record socket) s := by
  refine waits_call _ trivial hs fun r hquiet => ?_
  have hs₁ := hquiet.steady hs
  rcases r with error | frame
  · exact ⟨hs₁, hquiet, by rintro _ ⟨⟩⟩
  cases frame with
  | joinOk =>
    refine waits_call (.receive socket) trivial hs₁ fun r hquiet₂ => ?_
    have hs₂ := hquiet₂.steady hs₁
    have hboth := hquiet.trans hquiet₂
    rcases r with error | frame
    · exact ⟨hs₂, hboth, by rintro _ ⟨⟩⟩
    cases frame with
    | mailboxEmpty =>
      refine ⟨hs₂, hboth, ?_⟩
      rintro _ ⟨⟩ -
      rfl
    | clip roomId ciphertextB64 originDevice mailbox =>
      cases mailbox with
      | false => exact ⟨hs₂, hboth, by rintro _ ⟨⟩⟩
      | true => exact ⟨hs₂, hboth, by rintro _ ⟨⟩ ⟨⟩⟩
    | _ => exact ⟨hs₂, hboth, by rintro _ ⟨⟩⟩
  | _ => exact ⟨hs₁, hquiet, by rintro _ ⟨⟩⟩

theorem waits_joinLive (hs : Steady s) :
    Waits (Bootstraps s) (joinLive crates identity record challenge socket) s := by
  unfold joinLive
  dsimp only
  split
  · exact ⟨hs, ⟨rfl, hs.pending, rfl⟩, by rintro _ ⟨⟩⟩
  refine waits_call _ trivial hs fun r hquiet => ?_
  rcases r with error | _
  · exact ⟨hquiet.steady hs, hquiet, by rintro _ ⟨⟩⟩
  · exact (waits_receiveJoinOk crates (hquiet.steady hs)).imp
      fun _ _ _ h => h.after hquiet

theorem waits_join (hs : Steady s) : Waits (Bootstraps s) (join crates) s := by
  refine waits_call _ trivial hs fun r hquiet => ?_
  have hs₁ := hquiet.steady hs
  rcases r with error | _ | record
  · exact ⟨hs₁, hquiet, by rintro _ ⟨⟩⟩
  · exact ⟨hs₁, hquiet, by rintro _ ⟨⟩⟩
  refine waits_call .loadIdentity trivial hs₁ fun r hquiet₂ => ?_
  have hs₂ := hquiet₂.steady hs₁
  replace hquiet := hquiet.trans hquiet₂
  rcases r with error | identity
  · exact ⟨hs₂, hquiet, by rintro _ ⟨⟩⟩
  refine waits_call (.connect record.server) trivial hs₂ fun r hquiet₃ => ?_
  have hs₃ := hquiet₃.steady hs₂
  replace hquiet := hquiet.trans hquiet₃
  rcases r with error | socket
  · exact ⟨hs₃, hquiet, by rintro _ ⟨⟩⟩
  refine Safe.bind (p := handshake crates identity socket) (waits_of_isSilent
    (allOps_handshake (fun _ _ _ => trivial) trivial) hs₃) fun r s₄ hs₄ hquiet₄ => ?_
  rcases r with error | challenge
  · exact ⟨hs₄, hquiet.trans hquiet₄, by rintro _ ⟨⟩⟩
  · exact (waits_joinLive crates hs₄).imp
      fun _ _ _ h => h.after (hquiet.trans hquiet₄)

/-- What is known after the attempts to join again. -/
def Rejoins (way : Joining) (s : Reports) : Except TransportError LiveLink → Reports → Prop
  | .ok link, s' => s'.events = s.events ++ [.joined way link.bootstrapClip] ∧
    s'.heard.failed = false ∧ (way = .rejoin → link.bootstrapClip = none ∧ s.heard.failed = true)
  | .error _, s' => Quiet s s'

theorem Rejoins.after {way : Joining} {r : Except TransportError LiveLink} (hquiet : Quiet s s₁)
    (h : Rejoins way s₁ r s') : Rejoins way s r s' := by
  cases r with
  | error e => exact hquiet.trans h
  | ok link => exact ⟨hquiet.events ▸ h.1, h.2.1, hquiet.failed ▸ h.2.2⟩

theorem waits_reconnect (way : Joining) (fuel attempt : ℕ) (hs : Steady s) :
    Waits (Rejoins way s) (reconnect crates way fuel attempt) s := by
  induction fuel generalizing attempt s with
  | zero => exact waits_call .diverge trivial hs fun never => never.elim
  | succ fuel ih =>
    refine Safe.bind (p := join crates) (waits_join crates hs) ?_
    rintro (error | link) s₁ hs₁ ⟨hquiet, hempty⟩
    · dsimp only
      split
      · refine waits_call (.sleep attempt) trivial hs₁ fun _ hquiet₂ => ?_
        exact (ih (attempt + 1) (hquiet₂.steady hs₁)).imp
          fun _ _ _ h => h.after (hquiet.trans hquiet₂)
      · exact ⟨hs₁, hquiet⟩
    · refine ⟨hs₁, ?_⟩
      rintro _ _ ⟨hforetold, rfl⟩
      refine ⟨⟨hs₁.ordered.concat (by rintro ⟨⟩), hs₁.pending, by rintro ⟨⟩⟩,
        congrArg (· ++ _) hquiet.events, rfl, ?_⟩
      rintro rfl
      exact ⟨hempty link rfl hforetold.1, hquiet.failed ▸ hforetold.2⟩

/-- What is known of an event. -/
def Awaited (s : Reports) : Except TransportError (LiveEvent × LiveLink) → Reports → Prop
  | .ok (.reconnected bootstrapClip, _), s' => bootstrapClip = none ∧
    (Shown.of s'.events).owed = none ∧
    (Shown.of s'.events).up = false ∧ s'.heard.failed = false
  | _, s' => Quiet s s'

theorem waits_recvReconnecting (fuel : ℕ) (link : LiveLink) (hs : Steady s) :
    Waits (Awaited s) (recvReconnecting crates fuel link) s := by
  refine Safe.bind (p := recv crates link) (waits_of_isSilent (allOps_recv trivial) hs) ?_
  rintro (error | frame) s₁ hs₁ hquiet
  · dsimp only
    split
    · refine Safe.bind (p := reconnect crates .rejoin fuel 0)
        (waits_reconnect crates .rejoin fuel 0 hs₁) ?_
      rintro (error | fresh) s₂ hs₂ hrejoins
      · exact ⟨hs₂, hquiet.trans hrejoins⟩
      · obtain ⟨hevents, hfailed, hforetold⟩ := hrejoins
        obtain ⟨hnone, hlost⟩ := hforetold rfl
        have hshown : Shown.of s₂.events = (Shown.of s₁.events).next (.joined .rejoin none) := by
          rw [hevents, hnone, Shown.of_concat]
        exact ⟨hs₂, hnone, by rw [hshown]; rfl, by rw [hshown]; exact hs₁.failed hlost, hfailed⟩
    · exact ⟨hs₁, hquiet⟩
  · exact ⟨hs₁, hquiet⟩

theorem next_of_eq {r : op.Res} (hevents : op.events = [])
    (hheard : s.heard.next op r = s.heard) : s.next op r = s := by
  rw [next, hevents, hheard, List.append_nil]

theorem waits_racing {p : DispatcherProgram α} (hp : Waits Q p s) :
    Waits (fun r s' => ∀ x, r = .inl x → Q x s') (racing p) s := by
  induction p generalizing s with
  | done a =>
    refine ⟨hp.1, ?_⟩
    rintro _ ⟨⟩
    exact hp.2
  | call op k ih =>
    rw [racing]
    split
    · refine ⟨hp.1, ?_⟩
      rintro ready _ ⟨-, rfl⟩
      rw [Reports.next_of_eq rfl rfl]
      cases ready with
      | none => exact ⟨hp.1, fun r s₁ hexec => ih r (hp.2 r s₁ hexec)⟩
      | some command =>
        refine ⟨hp.1, ?_⟩
        rintro _ _ ⟨-, rfl⟩
        rw [Reports.next_of_eq rfl rfl]
        exact ⟨hp.1, by rintro _ ⟨⟩⟩
    · exact ⟨hp.1, fun r s₁ hexec => ih r (hp.2 r s₁ hexec)⟩

/-! ## Commands and events -/

/-- A part of the dispatcher that is not dropped. -/
abbrev Goes (Q : α → Reports → Prop) (p : DispatcherProgram α) (s : Reports) : Prop :=
  Safe ForetoldExec (fun s => ReportedInOrder s.events) Q p s

/-- The reports in brief, and whether a clip could not be transmitted. -/
structure Has (a : Shown) (failed : Bool) (s : Reports) : Prop where
  ordered : ReportedInOrder s.events
  pending : s.heard.pending = false
  shown : Shown.of s.events = a
  failed : s.heard.failed = failed

theorem Has.steady {a : Shown} {failed : Bool} (h : Has a failed s)
    (hfailed : failed = true → a.up = false) : Steady s :=
  ⟨h.ordered, h.pending, by rwa [h.failed, h.shown]⟩

theorem Steady.has (h : Steady s) : Has (Shown.of s.events) s.heard.failed s :=
  ⟨h.ordered, h.pending, rfl, rfl⟩

variable {a : Shown} {failed : Bool} {connection : Option LiveLink}

theorem goes_emit {status : CoreStatus} (h : Has a failed s) (hstatus : status ≠ .connected) :
    Goes (fun _ => Has (a.next (.status status)) failed) (emit status) s := by
  refine ⟨h.ordered, ?_⟩
  rintro _ _ ⟨-, rfl⟩
  have hordered := h.ordered.concat (e := .status status) fun he =>
    (hstatus (HostEvent.status.inj he)).elim
  refine ⟨hordered, hordered, h.pending, ?_, h.failed⟩
  rw [← h.shown]
  exact Shown.of_concat _ _

theorem goes_emit_connected (h : Has a failed s) (howed : a.owed = none) (hup : a.up = false) :
    Goes (fun _ => Has { a with up := true } failed) (emit .connected) s := by
  refine ⟨h.ordered, ?_⟩
  rintro _ _ ⟨-, rfl⟩
  have hordered := h.ordered.concat (e := .status .connected) fun _ =>
    ⟨handedOver_of_owed (h.shown ▸ howed), down_of_up (h.shown ▸ hup)⟩
  refine ⟨hordered, hordered, h.pending, ?_, h.failed⟩
  rw [← h.shown]
  exact Shown.of_concat _ _

theorem goes_handleInboundClip {roomId ciphertextB64 : String} {mailbox : Bool}
    (h : Has a failed s) :
    Goes (fun _ => Has (a.next (.clip roomId ciphertextB64 mailbox)) failed)
      (handleInboundClip roomId ciphertextB64 mailbox) s := by
  refine ⟨h.ordered, ?_⟩
  rintro r _ ⟨-, rfl⟩
  have hordered := h.ordered.concat (e := .clip roomId ciphertextB64 mailbox) (by rintro ⟨⟩)
  have hgiven : Has (a.next (.clip roomId ciphertextB64 mailbox)) failed
      (s.next (.handleClip roomId ciphertextB64 mailbox) r) := by
    refine ⟨hordered, h.pending, ?_, h.failed⟩
    rw [← h.shown]
    exact Shown.of_concat _ _
  rcases r with message | _
  · exact goes_emit hgiven (by rintro ⟨⟩)
  · exact ⟨hordered, hgiven⟩

theorem goes_handleBootstrap {bootstrapClip : Option (String × String)} (h : Has a failed s)
    (howed : a.owed = bootstrapClip) :
    Goes (fun _ => Has { a with owed := none } failed) (handleBootstrap bootstrapClip) s := by
  obtain _ | ⟨roomId, ciphertextB64⟩ := bootstrapClip
  · obtain ⟨owed, up⟩ := a
    cases howed
    exact ⟨h.ordered, h⟩
  · refine (goes_handleInboundClip h).imp fun _ _ _ hgiven => ?_
    rw [Shown.next, if_pos howed] at hgiven
    exact hgiven

theorem goes_silent {k : op.Res → DispatcherProgram α} (hop : IsSilent op) (h : Has a failed s)
    (hk : ∀ r s', Has a failed s' → Goes Q (k r) s') : Goes Q (.call op k) s := by
  refine ⟨h.ordered, ?_⟩
  rintro r _ ⟨-, rfl⟩
  have hquiet := quiet_next hop h.pending r
  refine hk r _ ⟨hquiet.events ▸ h.ordered, hquiet.pending, ?_, hquiet.failed.trans h.failed⟩
  rw [hquiet.events]
  exact h.shown

theorem goes_closeConnection (link : LiveLink) (h : Has a failed s) :
    Goes (fun _ => Has { a with up := false } failed) (closeConnection link) s :=
  goes_silent trivial h fun _ _ h => goes_emit h (by rintro ⟨⟩)

theorem goes_closePrevious (connection : Option LiveLink) (h : Has a failed s)
    (hnone : connection = none → a.up = false) :
    Goes (fun _ => Has { a with up := false } failed) (closePrevious connection) s := by
  cases connection with
  | none =>
    obtain ⟨owed, up⟩ := a
    cases hnone rfl
    exact ⟨h.ordered, h⟩
  | some link => exact goes_closeConnection link h

theorem goes_handleLiveEvent {event : LiveEvent} {link : LiveLink} (hs₁ : Steady s₁)
    (hawaited : Awaited s (.ok (event, link)) s₁) :
    Goes (fun _ => Steady) (handleLiveEvent event) s₁ := by
  cases event with
  | frame frame =>
    cases frame with
    | clip roomId ciphertextB64 originDevice mailbox =>
      refine (goes_handleInboundClip hs₁.has).imp fun _ _ _ h =>
        h.steady fun hfailed => ?_
      rw [Shown.up_clip]
      exact hs₁.failed hfailed
    | _ => exact ⟨hs₁.ordered, hs₁⟩
  | reconnected bootstrapClip =>
    obtain ⟨rfl, howed, hup, hfailed⟩ := hawaited
    refine Safe.bind (p := emit .connected) (goes_emit_connected hs₁.has howed hup)
      fun _ _ hordered h => ⟨hordered, h.steady fun htrue => ?_⟩
    rw [hfailed] at htrue
    cases htrue

/-- The frame of a clip is on its way, or could not be transmitted. -/
theorem goes_transmit {content : ClipContent} {tsMs : Int64} {result : String × String}
    {frame : Frame} {k : Except TransportError Unit → DispatcherProgram α} (hs : Steady s)
    (hsent : ∀ s', Steady s' → Goes Q (k (.ok ())) s')
    (hfailed : ∀ error s', Has (Shown.of s.events) (s.heard.failed || error.transient) s' →
      Goes Q (k (.error error)) s') :
    Goes Q (.call (.send socket frame) k) (s.next (.sendClip content tsMs) (.ok result)) := by
  have hsealed : (s.next (.sendClip content tsMs) (.ok result)).events = s.events :=
    Reports.next_events rfl
  have hevents : ∀ r, ((s.next (.sendClip content tsMs) (.ok result)).next
      (.send socket frame) r).events = s.events := fun r => (Reports.next_events rfl).trans hsealed
  have hordered : ∀ r, ReportedInOrder ((s.next (.sendClip content tsMs) (.ok result)).next
      (.send socket frame) r).events := fun r => (hevents r).symm ▸ hs.ordered
  refine ⟨?_, ?_⟩
  · dsimp only
    rw [hsealed]
    exact hs.ordered
  rintro (error | _) _ ⟨-, rfl⟩
  · exact hfailed error _ ⟨hordered _, rfl, congrArg Shown.of (hevents _), rfl⟩
  · refine hsent _ ⟨hordered _, rfl, fun hfailed => ?_⟩
    rw [hevents]
    exact hs.failed hfailed

theorem goes_sendOverConnection (fuel : ℕ) (link : LiveLink) (content : ClipContent)
    (tsMs : Int64) (hs : Steady s) :
    Goes (fun _ => Steady) (sendOverConnection crates fuel link content tsMs) s := by
  refine goes_silent trivial hs.has fun seq s₁ h₁ => ?_
  have hs₁ := h₁.steady hs.failed
  refine ⟨hs₁.ordered, ?_⟩
  rintro (message | ⟨roomId, ciphertextB64⟩) _ ⟨-, rfl⟩
  · have hevents : (s₁.next (.sendClip content tsMs) (.error message)).events = s₁.events :=
      List.append_nil _
    have hs₂ : Steady (s₁.next (.sendClip content tsMs) (.error message)) :=
      Quiet.steady ⟨hevents, rfl, rfl⟩ hs₁
    exact ⟨hs₂.ordered, hs₂⟩
  refine goes_transmit hs₁ (fun s₂ hs₂ => ⟨hs₂.ordered, hs₂⟩) fun error s₂ h₂ => ?_
  simp only [Program.bind]
  split
  · rename_i htransient
    refine Safe.bind (p := emit .reconnecting) (goes_emit h₂ (by rintro ⟨⟩)) fun _ s₃ _ h₃ => ?_
    refine Safe.bind_of_imp (p := reconnect crates .send fuel 0)
      (waits_reconnect crates .send fuel 0
      (h₃.steady fun _ => rfl)) (fun _ h => h.ordered) fun r s₄ hs₄ hrejoins => ?_
    rcases r with error | fresh
    · exact ⟨hs₄.ordered, hs₄⟩
    obtain ⟨hevents, hfailed, -⟩ := hrejoins
    have h₄ : Has ⟨fresh.bootstrapClip, false⟩ false s₄ := by
      refine ⟨hs₄.ordered, hs₄.pending, ?_, hfailed⟩
      rw [hevents, Shown.of_concat, h₃.shown]
      rfl
    refine Safe.bind (p := handleBootstrap fresh.bootstrapClip) (goes_handleBootstrap h₄ rfl)
      fun _ s₅ _ h₅ => ?_
    refine Safe.bind (p := emit .connected) (goes_emit_connected h₅ rfl rfl) fun _ s₆ _ h₆ => ?_
    refine goes_silent trivial h₆ fun r s₇ h₇ => ?_
    have hs₇ := h₇.steady (by rintro ⟨⟩)
    cases r with
    | error e | ok u => exact ⟨hs₇.ordered, hs₇⟩
  · rename_i htransient
    refine ⟨h₂.ordered, h₂.steady ?_⟩
    rw [Bool.eq_false_iff.2 htransient, Bool.or_false]
    exact hs₁.failed

def Rests (connection : Option LiveLink) (s : Reports) : Prop :=
  Steady s ∧ (connection = none → (Shown.of s.events).up = false)

theorem rests_some {link : LiveLink} (hs : Steady s) : Rests (some link) s := ⟨hs, by rintro ⟨⟩⟩

theorem goes_handleCommand (fuel : ℕ) (command : DispatcherCommand) (hrests : Rests connection s) :
    Goes Rests (handleCommand crates fuel connection command) s := by
  obtain ⟨hs, hnone⟩ := hrests
  cases command with
  | disconnect =>
    refine Safe.bind (p := closePrevious connection) (goes_closePrevious connection hs.has hnone)
      fun _ s₁ _ h₁ => goes_silent trivial h₁ fun _ s₂ h₂ => ?_
    exact ⟨h₂.ordered, h₂.steady fun _ => rfl, fun _ => by rw [h₂.shown]⟩
  | send content tsMs =>
    cases connection with
    | none =>
      refine goes_silent trivial hs.has fun _ s₁ h₁ => ?_
      exact ⟨h₁.ordered, h₁.steady hs.failed, fun _ => h₁.shown ▸ hnone rfl⟩
    | some link =>
      refine Safe.bind (p := sendOverConnection crates fuel link content tsMs)
        (goes_sendOverConnection crates fuel link content tsMs hs) fun ⟨_, link⟩ s₁ _ hs₁ => ?_
      refine goes_silent trivial hs₁.has fun _ s₂ h₂ => ?_
      exact ⟨h₂.ordered, rests_some (h₂.steady hs₁.failed)⟩
  | query command =>
    refine goes_silent trivial hs.has fun _ s₁ h₁ => goes_silent trivial h₁ fun _ s₂ h₂ => ?_
    exact ⟨h₂.ordered, h₂.steady hs.failed, fun h => h₂.shown ▸ hnone h⟩
  | connect fresh =>
    refine Safe.bind (p := closePrevious connection) (goes_closePrevious connection hs.has hnone)
      fun _ s₁ hordered h₁ => ⟨hordered, ?_⟩
    rintro _ _ ⟨-, rfl⟩
    have hjoined : Has ⟨fresh.bootstrapClip, false⟩ false
        (s₁.next (.adopt .connect fresh.bootstrapClip) ()) := by
      refine ⟨h₁.ordered.concat (by rintro ⟨⟩), h₁.pending, ?_, rfl⟩
      refine (Shown.of_concat _ _).trans ?_
      rw [h₁.shown]
      rfl
    refine Safe.bind (p := handleBootstrap fresh.bootstrapClip)
      (goes_handleBootstrap hjoined rfl) fun _ s₂ _ h₂ => ?_
    refine goes_silent trivial h₂ fun _ s₃ h₃ => ?_
    refine Safe.bind (p := emit .connected) (goes_emit_connected h₃ rfl rfl) fun _ s₄ _ h₄ => ?_
    exact ⟨h₄.ordered, rests_some (h₄.steady (by rintro ⟨⟩))⟩

/-- What a turn leaves. -/
def TurnEnds (r : Option (Option LiveLink)) (s : Reports) : Prop :=
  ∀ connection, r = some connection → Rests connection s

theorem turnEnds_some (h : Rests connection s) : TurnEnds (some connection) s := by
  rintro _ ⟨⟩
  exact h

theorem goes_turn (fuel : ℕ) (hrests : Rests connection s) :
    Goes TurnEnds (turn crates fuel connection) s := by
  have hcommand : ∀ {s : Reports} {connection : Option LiveLink} (command : DispatcherCommand),
      Rests connection s → Goes TurnEnds
        (handleCommand crates fuel connection command >>= fun left => pure (some left)) s := by
    intro s connection command hrests
    exact Safe.bind (goes_handleCommand crates fuel command hrests)
      fun _ _ hordered h => ⟨hordered, turnEnds_some h⟩
  cases connection with
  | none =>
    refine goes_silent trivial hrests.1.has fun r s₁ h₁ => ?_
    cases r with
    | none => exact ⟨h₁.ordered, by rintro _ ⟨⟩⟩
    | some command =>
      exact hcommand command ⟨h₁.steady hrests.1.failed, fun _ => h₁.shown ▸ hrests.2 rfl⟩
  | some link =>
    refine Safe.bind_of_imp (p := racing (recvReconnecting crates fuel link))
      (waits_racing (waits_recvReconnecting crates fuel link hrests.1)) (fun _ h => h.ordered) ?_
    rintro ((error | ⟨event, fresh⟩) | (_ | command)) s₁ hs₁ hawaited
    · refine Safe.bind (goes_closeConnection link hs₁.has) fun _ s₂ _ h₂ => ?_
      refine Safe.bind (p := emit .disconnected) (goes_emit h₂ (by rintro ⟨⟩)) fun _ s₃ _ h₃ => ?_
      exact ⟨h₃.ordered, turnEnds_some ⟨h₃.steady fun _ => rfl, fun _ => by rw [h₃.shown]; rfl⟩⟩
    · refine Safe.bind (p := handleLiveEvent event)
        (goes_handleLiveEvent hs₁ (hawaited _ rfl)) fun _ s₂ hordered hs₂ => ?_
      exact ⟨hordered, turnEnds_some (rests_some hs₂)⟩
    · exact ⟨hs₁.ordered, by rintro _ ⟨⟩⟩
    · exact hcommand command (rests_some hs₁)

end Programs

/-! ## Runs -/

theorem goes_invariant (crates : LinkCrates) : Threads.Invariant
    ((dispatcherSystem crates).guarded fun _ => Foretold) (fun s => ReportedInOrder s.events)
    (fun _ => Goes TurnEnds) where
  enter {t value s p s'} hordered hdone henter := by
    have hrest : ReportedInOrder s'.events ∧ Goes TurnEnds p s' := by
      obtain _ | _ | connection := value
      · obtain ⟨fuel, rfl, rfl, rfl⟩ := henter
        exact ⟨hordered, goes_turn crates fuel ⟨⟨hordered, rfl, by rintro ⟨⟩⟩, fun _ => rfl⟩⟩
      · exact henter.elim
      · obtain ⟨fuel, rfl, rfl⟩ := henter
        exact ⟨hordered, goes_turn crates fuel ((hdone _ rfl).2 connection rfl)⟩
    exact ⟨hrest.1, hrest.2, fun u hu => (hu (Subsingleton.elim u t)).elim⟩
  access {t op k s r s'} _ hgoes hexec := by
    have hrest := hgoes.2 r s' hexec
    exact ⟨hrest.inv, hrest, fun u hu => (hu (Subsingleton.elim u t)).elim⟩

end Reports

/-- If the relay has no clip for a connection that is joined again while an event is waited for,
and a clip could not be transmitted over the former connection, then in every run `Connected` is
reported only after the bootstrap clip of the connection has been handed over, and only after
the former connection was reported lost. -/
theorem reports_in_order (crates : LinkCrates) {x : DispatcherThread}
    (hrun : Threads.Reaches ((dispatcherSystem crates).guarded fun _ => Foretold)
      DispatcherThread.start x) : ReportedInOrder x.shared.events := by
  have hstart : Threads.Holds (fun s => ReportedInOrder s.events) (fun _ =>
    Reports.Goes Reports.TurnEnds)
      DispatcherThread.start := by
    refine ⟨?_, ?_⟩
    · intro before after heq
      exact absurd heq (by simp [DispatcherThread.start])
    · rintro _ _ ⟨⟩
  exact ((Reports.goes_invariant crates).reaches hstart hrun).1

namespace StatusSample

open LinkSample

/-- What comes of waiting: the frame that is received, the command that is ready, and whether
the endpoint is paired and the link transmits. -/
structure Choice where
  frame : Except TransportError Frame := .error .closed
  command : Option DispatcherCommand := none
  up : Bool := true

def Choice.result (c : Choice) : (op : DispatcherOp) → Option op.Res
  | .recvCommand => some c.command
  | .pollCommand => some (c.command.map some)
  | .loadPairing => some (.ok (if c.up = true then some record else none))
  | .loadIdentity => some (.ok identity)
  | .connect _ => some (.ok 0)
  | .send .. => some (if c.up = true then .ok () else .error .closed)
  | .receive _ => some c.frame
  | .close _ | .handleClip .. => some (.ok ())
  | .sendClip .. => some (.ok ("room", "clip"))
  | .nextSeq => some 1
  | .dropFuture | .adopt .. | .emit _ | .answer _ | .reply | .sleep _ => some ()
  | .diverge => none

def replay : Threads.Replay (dispatcherSystem crates) Choice where
  access c _ op s := (c.result op).map fun r => (r, s.next op r)
  enter _ _ value s := match value with
    | none => if s = {} then some (turn crates 1 none, {}) else none
    | some (some connection) => some (turn crates 1 connection, s)
    | some none => none
  exec_of_access h := by
    obtain ⟨r, -, heq⟩ := Option.map_eq_some_iff.1 h
    cases heq
    rfl
  enter_of_enter {c t value w p w'} h := by
    obtain _ | _ | connection := value
    · obtain ⟨hfresh, heq⟩ := Option.ite_none_right_eq_some.1 h
      cases heq
      exact ⟨1, rfl, hfresh, rfl⟩
    · cases h
    · cases h
      exact ⟨1, rfl, rfl⟩

def foretoldReplay : Threads.Replay ((dispatcherSystem crates).guarded fun _ => Foretold) Choice :=
  replay.guarded (fun _ op s => match op with
    | .adopt .rejoin _ => s.heard.empty && s.heard.failed
    | _ => true) (by
  intro t op s h
  unfold Foretold
  split
  · exact Bool.and_eq_true_iff.1 h
  · trivial)

def connects (clip : Option (String × String)) : Threads.Move Unit Choice :=
  ⟨(), 9, { command := some (.connect ⟨identity, record, 0, clip⟩) }⟩

/-- The connection is lost and joined again. -/
def rejoins (frame : Frame) : List (Threads.Move Unit Choice) :=
  [⟨(), 2, {}⟩, ⟨(), 8, { frame := .ok helloOk }⟩, ⟨(), 4, { frame := .ok .joinOk }⟩,
    ⟨(), 9, { frame := .ok frame }⟩]

def rejoined : DispatcherThread := foretoldReplay.final
  (connects none :: ⟨(), 2, { command := some (.send (.text "a") 0) }⟩ ::
    ⟨(), 9, { up := false }⟩ :: rejoins .mailboxEmpty) DispatcherThread.start

/-- A clip cannot be transmitted and the endpoint is not paired any more, so that the connection
stays; then the connection is lost, and joined again with an empty mailbox. -/
theorem reports_in_order_rejoined :
    ∃ x, Threads.Reaches ((dispatcherSystem crates).guarded fun _ => Foretold)
        DispatcherThread.start x ∧
      x.shared.events = [.joined .connect none, .status .connected, .status .reconnecting,
        .joined .rejoin none, .status .connected] ∧ ReportedInOrder x.shared.events :=
  ⟨rejoined, Threads.Replay.reaches_final, by decide +kernel,
    reports_in_order crates Threads.Replay.reaches_final⟩

def clip : String × String := ("room", "clip")

def twice : DispatcherThread := replay.final
  (connects (some clip) :: rejoins (.clip "room" "clip" "peer" true)) DispatcherThread.start

/-- The connection is lost and joined again: the host is told of it twice in a row, and the
second time before the bootstrap clip is handed over. -/
theorem reports_out_of_order : ∃ x, Threads.Reaches (dispatcherSystem crates)
    DispatcherThread.start x ∧ ∃ before after,
      x.shared.events = before ++ .status .connected :: after ∧
        ¬ HandedOver before ∧ ¬ Down before := by
  refine ⟨twice, Threads.Replay.reaches_final, [.joined .connect (some clip),
    .clip "room" "clip" true, .status .connected, .joined .rejoin (some clip)],
    [.clip "room" "clip" true], by decide +kernel, fun hhanded => ?_, fun hdown => ?_⟩
  · exact absurd (hhanded [.joined .connect (some clip), .clip "room" "clip" true,
      .status .connected] [] .rejoin clip rfl (by simp)) (by simp)
  · exact absurd (hdown [.joined .connect (some clip), .clip "room" "clip" true]
      [.joined .rejoin (some clip)] rfl) (by simp)

end StatusSample

end ClipSync
