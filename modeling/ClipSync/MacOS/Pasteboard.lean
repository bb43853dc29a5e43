import ClipSync.Core.Crypto
import ClipSync.Lib.Outline
import ClipSync.Lib.Schedule

/-!
# The pasteboard monitor

`PasteboardMonitor` of the macOS app: it polls the change count of the pasteboard to
report what the user has copied, and writes what the peer has sent. A write leaves a
token of its change count and digest, by which the next poll tells it from a copy; a
clip from the mailbox is written only if the change count is still the baseline that
was taken when the connection was lost.

The calls of the monitor are made one after the other, and the user copies at any time.
Of every run, the pasteboard remembers who made its last change, what was reported, and
how many copies of an outage were overwritten from the mailbox.
-/

namespace ClipSync

open Lib Program Threads

inductive ClipboardPayload where
  | text (text : String)
  | image (png : Bytes) (semanticDigest : String)
deriving DecidableEq

def ClipboardPayload.semanticDigest (prim : Primitives) : ClipboardPayload → String
  | .text content => hexLower (prim.sha256 (utf8Bytes content)).toList
  | .image _ semanticDigest => semanticDigest

structure ReadResult where
  payload : ClipboardPayload
  markedSensitive : Bool
deriving DecidableEq

inductive RemoteApplyResult where
  | applied
  | deferred
deriving DecidableEq

structure OwnershipToken where
  changeCount : ℕ
  semanticDigest : String
deriving DecidableEq

structure PasteboardMonitor where
  observedChangeCount : ℕ
  ownershipToken : Option OwnershipToken
  disconnectBaseline : Option ℕ
deriving DecidableEq

/-! ## Accesses -/

/-- The accesses to the pasteboard, and the copies of the user. `outageBegins` reads the
change count like `changeCount`, and `outageEnds` has no effect: both only matter to what
is remembered of a run. -/
inductive ClipboardOp where
  | changeCount
  | outageBegins
  | outageEnds
  | readPayload
  | write (payload : ClipboardPayload) (expected : Option ℕ)
  | onLocalChange (payload : ClipboardPayload) (markedSensitive : Bool)
  | userCopy (contents : Option ReadResult)

abbrev ClipboardOp.Res : ClipboardOp → Type
  | .changeCount | .outageBegins => ℕ
  | .readPayload => Except String (Option ReadResult)
  | .write .. => Except String (Option ℕ)
  | .outageEnds | .onLocalChange .. | .userCopy _ => Unit

abbrev ClipboardProgram := Program ClipboardOp ClipboardOp.Res

namespace PasteboardMonitor

variable (prim : Primitives)

def init : ClipboardProgram PasteboardMonitor := do
  let changeCount ← perform (.changeCount : ClipboardOp)
  return ⟨changeCount, none, none⟩

def poll (self : PasteboardMonitor) :
    ClipboardProgram (Except String Unit × PasteboardMonitor) := do
  let changeCount ← perform (.changeCount : ClipboardOp)
  if changeCount = self.observedChangeCount then
    return (.ok (), self)
  let self := { self with observedChangeCount := changeCount }
  match ← perform (.readPayload : ClipboardOp) with
  | .error error => return (.error error, self)
  | .ok none => return (.ok (), { self with ownershipToken := none })
  | .ok (some result) =>
    if self.ownershipToken = some ⟨changeCount, result.payload.semanticDigest prim⟩ then
      return (.ok (), { self with ownershipToken := none })
    perform (.onLocalChange result.payload result.markedSensitive : ClipboardOp)
    return (.ok (), { self with ownershipToken := none })

def markDisconnected (self : PasteboardMonitor) : ClipboardProgram PasteboardMonitor := do
  let changeCount ← perform (.outageBegins : ClipboardOp)
  return { self with disconnectBaseline := some changeCount }

def markConnected (self : PasteboardMonitor) : ClipboardProgram PasteboardMonitor := do
  perform (.outageEnds : ClipboardOp)
  return { self with disconnectBaseline := none }

def writeRemote (self : PasteboardMonitor) (payload : ClipboardPayload) (mailbox : Bool)
    (expected : Option ℕ) :
    ClipboardProgram (Except String RemoteApplyResult × PasteboardMonitor) := do
  match ← perform (.write payload expected : ClipboardOp) with
  | .error error => return (.error error, self)
  | .ok none => return (.ok .deferred, self)
  | .ok (some written) =>
    return (.ok .applied, { self with
      ownershipToken := some ⟨written, payload.semanticDigest prim⟩
      disconnectBaseline := if mailbox then some written else self.disconnectBaseline })

def applyRemote (self : PasteboardMonitor) (payload : ClipboardPayload) (mailbox : Bool) :
    ClipboardProgram (Except String RemoteApplyResult × PasteboardMonitor) := do
  if mailbox then
    match self.disconnectBaseline with
    | none => return (.ok .deferred, self)
    | some baseline =>
      if (← perform (.changeCount : ClipboardOp)) ≠ baseline then
        return (.ok .deferred, self)
      self.writeRemote prim payload mailbox (some baseline)
  else
    self.writeRemote prim payload mailbox none

end PasteboardMonitor

/-! ## Runs -/

/-- The pasteboard, with what is remembered: whether its last change is a write of the
monitor, whether the connection is lost, whether it holds a copy that was made since, who
had made what was read last and what has been reported, and the number of such copies that
mailbox writes have overwritten. -/
structure Pasteboard where
  changeCount : ℕ
  contents : Option ReadResult
  remote : Bool
  outage : Bool
  copied : Bool
  lastRead : Bool
  reports : List Bool
  lost : ℕ

namespace Pasteboard

def written (s : Pasteboard) (count : ℕ) (contents : Option ReadResult) (expected : Option ℕ) :
    Pasteboard :=
  { s with
    changeCount := count, contents, remote := true, copied := false
    lost := if expected.isSome && s.copied then s.lost + 1 else s.lost }

def copiedBy (s : Pasteboard) (count : ℕ) (contents : Option ReadResult) : Pasteboard :=
  { s with changeCount := count, contents, remote := false, copied := s.outage }

end Pasteboard

/-- What the accesses do. What is read has the digest of what is there, or nothing can be
read; a write is atomic and fails without an effect, but may clear the pasteboard before it
throws. -/
def ClipboardOp.exec (prim : Primitives) :
    (op : ClipboardOp) → Pasteboard → op.Res → Pasteboard → Prop
  | .changeCount, s, r, s' => r = s.changeCount ∧ s' = s
  | .outageBegins, s, r, s' => r = s.changeCount ∧ s' = { s with outage := true }
  | .outageEnds, s, _, s' => s' = { s with outage := false, copied := false }
  | .readPayload, s, .ok (some result), s' =>
    (∃ known, s.contents = some known ∧
      result.payload.semanticDigest prim = known.payload.semanticDigest prim) ∧
    s' = { s with lastRead := s.remote }
  | .readPayload, s, _, s' => s' = s
  | .write payload expected, s, .ok (some count), s' =>
    (∀ baseline, expected = some baseline → s.changeCount = baseline) ∧ s.changeCount < count ∧
      s' = s.written count (some ⟨payload, false⟩) expected
  | .write .., s, .ok none, s' => s' = s
  | .write _ expected, s, .error _, s' =>
    s' = s ∨ (∀ baseline, expected = some baseline → s.changeCount = baseline) ∧
      ∃ count, s.changeCount < count ∧ s' = s.written count none expected
  | .onLocalChange .., s, _, s' => s' = { s with reports := s.reports ++ [s.lastRead] }
  | .userCopy contents, s, _, s' => ∃ count, s.changeCount < count ∧ s' = s.copiedBy count contents

/-- The main actor makes the calls of the monitor, one after the other. -/
inductive ClipboardThread where
  | main
  | user
deriving DecidableEq

abbrev ClipboardThread.Value : ClipboardThread → Type
  | .main => PasteboardMonitor
  | .user => Unit

inductive MonitorCall where
  | poll
  | markDisconnected
  | markConnected
  | applyRemote (payload : ClipboardPayload) (mailbox : Bool)

def MonitorCall.program (prim : Primitives) (self : PasteboardMonitor) :
    MonitorCall → ClipboardProgram PasteboardMonitor
  | .poll => do
    let (_, self) ← self.poll prim
    return self
  | .markDisconnected => self.markDisconnected
  | .markConnected => self.markConnected
  | .applyRemote payload mailbox => do
    let (_, self) ← self.applyRemote prim payload mailbox
    return self

namespace Pasteboard

variable (prim : Primitives)

def system : System ClipboardOp ClipboardOp.Res ClipboardThread.Value Pasteboard where
  exec _ := ClipboardOp.exec prim
  enter
    | .main, none, s, p, s' => s' = s ∧ p = PasteboardMonitor.init
    | .main, some self, s, p, s' => s' = s ∧ ∃ call : MonitorCall, p = call.program prim self
    | .user, _, s, p, s' => s' = s ∧ ∃ contents, p = perform (.userCopy contents : ClipboardOp)

/-- The monitor has not been made, and nothing is remembered yet. -/
structure Start (x : Threads ClipboardOp ClipboardOp.Res ClipboardThread.Value Pasteboard) :
    Prop where
  idle : ∀ t, x.threads t = none
  remote : x.shared.remote = false
  connected : x.shared.outage = false
  copied : x.shared.copied = false
  reports : x.shared.reports = []
  lost : x.shared.lost = 0

/-- The user has copied, or has done nothing. -/
structure UserStep (s s' : Pasteboard) : Prop where
  outage : s'.outage = s.outage
  lastRead : s'.lastRead = s.lastRead
  change : s' = s ∨ s.changeCount < s'.changeCount ∧ s'.remote = false ∧ s'.copied = s.outage

theorem UserStep.refl (s : Pasteboard) : UserStep s s := ⟨rfl, rfl, .inl rfl⟩

theorem UserStep.trans {a b c : Pasteboard} (h : UserStep a b) (h' : UserStep b c) :
    UserStep a c := by
  refine ⟨h'.outage.trans h.outage, h'.lastRead.trans h.lastRead, ?_⟩
  rcases h'.change with rfl | ⟨hcount', hremote', hcopied'⟩
  · exact h.change
  · rcases h.change with rfl | ⟨hcount, -⟩
    · exact .inr ⟨hcount', hremote', hcopied'⟩
    · exact .inr ⟨hcount.trans hcount', hremote', hcopied'.trans h.outage⟩

/-! ## Own changes and copies -/

/-- A change that the monitor has made has been seen by a poll, or has left its token, or
nothing. -/
def Owns (self : PasteboardMonitor) (s : Pasteboard) : Prop :=
  s.remote = true → s.contents = none ∨ self.observedChangeCount = s.changeCount ∨
    ∃ known, s.contents = some known ∧
      self.ownershipToken = some ⟨s.changeCount, known.payload.semanticDigest prim⟩

def Based (self : PasteboardMonitor) (s : Pasteboard) : Prop :=
  ∀ baseline, self.disconnectBaseline = some baseline →
    baseline ≤ s.changeCount ∧ (s.copied = true → baseline < s.changeCount)

variable {prim} {self : PasteboardMonitor} {s s' : Pasteboard}

theorem Owns.stable (h : Owns prim self s) (hstep : UserStep s s') : Owns prim self s' := by
  rcases hstep.change with rfl | ⟨-, hremote, -⟩
  · exact h
  · intro hown
    rw [hremote] at hown
    cases hown

theorem Based.stable (h : Based self s) (hstep : UserStep s s') : Based self s' := by
  rcases hstep.change with rfl | ⟨hcount, -⟩
  · exact h
  · intro baseline hbaseline
    have hle := (h baseline hbaseline).1
    exact ⟨by omega, fun _ => by omega⟩

def Careful (_ : ClipboardThread) (op : ClipboardOp) (s : Pasteboard) : Prop :=
  op = .outageBegins → s.copied = false

section Rules

variable (prim) (careful : Prop)

/-- Nothing that the monitor has written is reported, and from the mailbox it overwrites no
copy to be kept. -/
def Harmless (t : ClipboardThread) (op : ClipboardOp) (s : Pasteboard) : Prop :=
  match t, op with
  | .main, .onLocalChange .. => s.lastRead = false
  | .main, .write _ (some baseline) => careful → s.copied = true → s.changeCount ≠ baseline
  | .user, op => ∃ contents, op = .userCopy contents
  | .main, _ => True

def Unharmed (s : Pasteboard) : Prop := true ∉ s.reports ∧ (careful → s.lost = 0)

def Knows (self : PasteboardMonitor) (s : Pasteboard) : Prop :=
  Owns prim self s ∧ (careful → Based self s)

def carefulSystem : System ClipboardOp ClipboardOp.Res ClipboardThread.Value Pasteboard :=
  (system prim).guarded fun t op s => careful → Careful t op s

variable {prim careful}

theorem Unharmed.exec {t : ClipboardThread} {op : ClipboardOp} {r : op.Res}
    (h : Unharmed careful s) (hharmless : Harmless careful t op s)
    (hexec : ClipboardOp.exec prim op s r s') : Unharmed careful s' := by
  have hwritten : ∀ {payload expected} count contents,
      Harmless careful t (.write payload expected) s →
      (∀ baseline, expected = some baseline → s.changeCount = baseline) →
      Unharmed careful (s.written count contents expected) := by
    intro payload expected count contents hharmless hbaseline
    refine ⟨h.1, fun hcareful => ?_⟩
    have hkept : (expected.isSome && s.copied) = false := by
      cases t with
      | user =>
        obtain ⟨_, ⟨⟩⟩ := hharmless
      | main =>
        cases expected with
        | none => rfl
        | some baseline =>
          by_contra hcopied
          refine hharmless hcareful ?_ (hbaseline baseline rfl)
          simpa using hcopied
    simp only [written, hkept]
    exact h.2 hcareful
  cases op with
  | changeCount => exact hexec.2 ▸ h
  | outageBegins => exact hexec.2 ▸ h
  | outageEnds => exact hexec ▸ h
  | readPayload =>
    rcases r with error | _ | result
    · exact hexec ▸ h
    · exact hexec ▸ h
    · exact hexec.2 ▸ h
  | write payload expected =>
    rcases r with error | _ | count
    · rcases hexec with rfl | ⟨hbaseline, count, -, rfl⟩
      · exact h
      · exact hwritten count none hharmless hbaseline
    · exact hexec ▸ h
    · obtain ⟨hbaseline, -, rfl⟩ := hexec
      exact hwritten count _ hharmless hbaseline
  | onLocalChange payload markedSensitive =>
    cases t with
    | user => obtain ⟨_, ⟨⟩⟩ := hharmless
    | main =>
      rw [hexec]
      refine ⟨?_, h.2⟩
      simp only [List.mem_append, List.mem_singleton, not_or]
      exact ⟨h.1, by rw [show s.lastRead = false from hharmless]; simp⟩
  | userCopy contents =>
    obtain ⟨count, -, rfl⟩ := hexec
    exact h

theorem UserStep.of_exec {contents : Option ReadResult}
    (hexec : ClipboardOp.exec prim (.userCopy contents) s () s') : UserStep s s' := by
  obtain ⟨count, hcount, rfl⟩ := hexec
  exact ⟨rfl, rfl, .inr ⟨hcount, rfl, rfl⟩⟩

def relies : ClipboardThread → Pasteboard → Pasteboard → Prop
  | .main => UserStep
  | .user => fun _ _ => True

variable (prim careful) in
def knows : (t : ClipboardThread) → t.Value → Pasteboard → Prop
  | .main => Knows prim careful
  | .user => fun _ _ => True

variable (prim careful) in
abbrev Leaves {α : Type} (monitor : α → PasteboardMonitor) (p : ClipboardProgram α)
    (s : Pasteboard) : Prop :=
  Outline ((carefulSystem prim careful).exec .main) (Unharmed careful) UserStep
    (Harmless careful .main) (fun a s => Knows prim careful (monitor a) s) p s

theorem Knows.leaves {α : Type} {monitor : α → PasteboardMonitor} {a : α}
    (h : Knows prim careful (monitor a) s) : Leaves prim careful monitor (done a) s :=
  fun _ _ hstep => ⟨h.1.stable hstep, fun hcareful => (h.2 hcareful).stable hstep⟩

theorem leaves_init (s : Pasteboard) : Leaves prim careful id PasteboardMonitor.init s := by
  rintro s₁ - -
  refine ⟨trivial, ?_⟩
  rintro _ _ ⟨-, rfl, rfl⟩ -
  exact Knows.leaves ⟨fun _ => .inr (.inl rfl), fun _ => nofun⟩

theorem leaves_markDisconnected (h : Knows prim careful self s) :
    Leaves prim careful id self.markDisconnected s := by
  intro s₁ _ hstep
  have howns : Owns prim self s₁ := h.1.stable hstep
  refine ⟨trivial, ?_⟩
  rintro _ _ ⟨hguard, rfl, rfl⟩ -
  refine Knows.leaves ⟨howns, fun hcareful => ?_⟩
  rintro _ ⟨⟩
  refine ⟨Nat.le_refl _, fun hcopied => ?_⟩
  cases hcopied.symm.trans (hguard hcareful rfl)

theorem leaves_markConnected (h : Knows prim careful self s) :
    Leaves prim careful id self.markConnected s := by
  intro s₁ _ hstep
  have howns : Owns prim self s₁ := h.1.stable hstep
  refine ⟨trivial, ?_⟩
  rintro _ _ ⟨-, rfl⟩ -
  exact Knows.leaves ⟨howns, fun _ => nofun⟩

variable {s₁ : Pasteboard}

theorem Owns.of_observed (hobserved : self.observedChangeCount = s.changeCount)
    (hstep : UserStep s s₁) : Owns prim self s₁ :=
  Owns.stable (fun _ => .inr (.inl hobserved)) hstep

theorem remote_of_unclaimed {known : ReadResult} {digest : String} (howns : Owns prim self s)
    (hchange : s.changeCount ≠ self.observedChangeCount) (hstep : UserStep s s₁)
    (hknown : s₁.contents = some known) (hdigest : digest = known.payload.semanticDigest prim)
    (htoken : self.ownershipToken ≠ some ⟨s.changeCount, digest⟩) : s₁.remote = false := by
  rcases hstep.change with rfl | ⟨-, hremote, -⟩
  · by_contra hremote
    rcases howns (by simpa using hremote) with hnone | hobserved | ⟨known', hknown', htoken'⟩
    · cases hnone.symm.trans hknown
    · exact hchange hobserved.symm
    · cases hknown'.symm.trans hknown
      rw [hdigest] at htoken
      exact htoken htoken'
  · exact hremote

theorem leaves_poll (h : Knows prim careful self s) :
    Leaves prim careful Prod.snd (self.poll prim) s := by
  simp only [PasteboardMonitor.poll, perform_bind, pure_eq]
  intro s₁ _ hstep₁
  have howns : Owns prim self s₁ := h.1.stable hstep₁
  have hbased : careful → Based self s₁ := fun hcareful => (h.2 hcareful).stable hstep₁
  refine ⟨trivial, ?_⟩
  rintro _ s₁ ⟨-, rfl, rfl⟩ -
  beta_reduce
  split
  · exact Knows.leaves ⟨howns, hbased⟩
  rename_i hchange
  intro s₂ _ hstep₂
  have hbased₂ : careful → Based self s₂ := fun hcareful => (hbased hcareful).stable hstep₂
  refine ⟨trivial, fun r s₃ hread _ => ?_⟩
  rcases r with error | _ | result
  · obtain ⟨-, rfl⟩ := hread
    exact Knows.leaves ⟨.of_observed rfl hstep₂, hbased₂⟩
  · obtain ⟨-, rfl⟩ := hread
    exact Knows.leaves ⟨.of_observed rfl hstep₂, hbased₂⟩
  obtain ⟨-, ⟨known, hknown, hdigest⟩, rfl⟩ := hread
  have hobserved : ∀ token, Owns prim ⟨s₁.changeCount, token, self.disconnectBaseline⟩ s₂ :=
    fun token => .of_observed rfl hstep₂
  dsimp only
  split
  · exact Knows.leaves ⟨hobserved none, hbased₂⟩
  rename_i htoken
  have hremote := remote_of_unclaimed howns hchange hstep₂ hknown hdigest htoken
  intro s₄ _ hstep₄
  refine ⟨hstep₄.lastRead.trans hremote, ?_⟩
  rintro _ _ ⟨-, rfl⟩ -
  have howns₄ : Owns prim ⟨s₁.changeCount, none, self.disconnectBaseline⟩ s₄ :=
    Owns.stable (s := { s₂ with lastRead := s₂.remote }) (hobserved none) hstep₄
  have hbased₄ : careful → Based self s₄ := fun hcareful =>
    Based.stable (s := { s₂ with lastRead := s₂.remote }) (hbased₂ hcareful) hstep₄
  exact Knows.leaves ⟨howns₄, hbased₄⟩

theorem leaves_writeRemote (h : Knows prim careful self s) (payload : ClipboardPayload)
    {mailbox : Bool} {expected : Option ℕ}
    (hexpected : ∀ baseline, expected = some baseline → self.disconnectBaseline = some baseline) :
    Leaves prim careful Prod.snd (self.writeRemote prim payload mailbox expected) s := by
  intro s₁ _ hstep
  have howns : Owns prim self s₁ := h.1.stable hstep
  have hbased : careful → Based self s₁ := fun hcareful => (h.2 hcareful).stable hstep
  refine ⟨?_, fun r s₂ hwrite _ => ?_⟩
  · cases expected with
    | none => trivial
    | some baseline =>
      intro hcareful hcopied
      exact ((hbased hcareful baseline (hexpected baseline rfl)).2 hcopied).ne'
  have hlater : ∀ {count contents}, s₁.changeCount < count → careful →
      Based self (s₁.written count contents expected) := by
    intro count contents hcount hcareful baseline hbaseline
    have hle := (hbased hcareful baseline hbaseline).1
    exact ⟨hle.trans hcount.le, nofun⟩
  rcases r with error | _ | count
  · obtain ⟨-, rfl | ⟨-, count, hcount, rfl⟩⟩ := hwrite
    · exact Knows.leaves ⟨howns, hbased⟩
    · exact Knows.leaves ⟨fun _ => .inl rfl, hlater hcount⟩
  · obtain ⟨-, rfl⟩ := hwrite
    exact Knows.leaves ⟨howns, hbased⟩
  obtain ⟨-, -, hcount, rfl⟩ := hwrite
  refine Knows.leaves ⟨fun _ => .inr (.inr ⟨_, rfl, rfl⟩), fun hcareful => ?_⟩
  cases mailbox with
  | false => exact hlater hcount hcareful
  | true =>
    rintro _ ⟨⟩
    exact ⟨Nat.le_refl _, nofun⟩

theorem leaves_applyRemote (h : Knows prim careful self s) (payload : ClipboardPayload)
    (mailbox : Bool) : Leaves prim careful Prod.snd (self.applyRemote prim payload mailbox) s := by
  cases mailbox with
  | false => exact leaves_writeRemote h payload nofun
  | true =>
  cases hbaseline : self.disconnectBaseline with
  | none =>
    simp only [PasteboardMonitor.applyRemote, hbaseline, if_true]
    exact Knows.leaves h
  | some baseline =>
    simp only [PasteboardMonitor.applyRemote, hbaseline, if_true, perform_bind, pure_eq]
    intro s₁ _ hstep
    have hknows : Knows prim careful self s₁ :=
      ⟨h.1.stable hstep, fun hcareful => (h.2 hcareful).stable hstep⟩
    refine ⟨trivial, ?_⟩
    rintro _ s₁ ⟨-, rfl, rfl⟩ -
    beta_reduce
    split
    · exact Knows.leaves hknows
    · refine leaves_writeRemote hknows payload ?_
      rintro _ ⟨⟩
      exact hbaseline

theorem leaves_call (hs : Unharmed careful s) (h : Knows prim careful self s)
    (call : MonitorCall) : Leaves prim careful id (call.program prim self) s := by
  cases call with
  | poll => exact Outline.bind UserStep.refl hs (leaves_poll h) fun _ _ _ h => Knows.leaves h
  | markDisconnected => exact leaves_markDisconnected h
  | markConnected => exact leaves_markConnected h
  | applyRemote payload mailbox =>
    exact Outline.bind UserStep.refl hs (leaves_applyRemote h payload mailbox)
      fun _ _ _ h => Knows.leaves h

theorem relyGuarantee : RelyGuarantee (carefulSystem prim careful) (Unharmed careful) relies
    (Harmless careful) (knows prim careful) where
  refl t s := by
    cases t with
    | main => exact .refl s
    | user => trivial
  trans t a b c hab hbc := by
    cases t with
    | main => exact hab.trans hbc
    | user => trivial
  access {t op s r s'} hs hharmless hexec := by
    refine ⟨hs.exec hharmless hexec.2, fun u hu => ?_⟩
    cases u with
    | user => trivial
    | main =>
      cases t with
      | main => exact absurd rfl hu
      | user =>
        obtain ⟨contents, rfl⟩ := hharmless
        have hcopy : ClipboardOp.exec prim (.userCopy contents) s () s' := hexec.2
        exact .of_exec hcopy
  enter {t a s p s'} hs hlast henter := by
    cases t with
    | main =>
      cases a with
      | none =>
        obtain ⟨rfl, rfl⟩ := henter
        exact ⟨hs, fun u hu => by cases u <;> [exact absurd rfl hu; trivial], leaves_init _⟩
      | some self =>
        obtain ⟨rfl, call, rfl⟩ := henter
        exact ⟨hs, fun u hu => by cases u <;> [exact absurd rfl hu; trivial],
          leaves_call hs (hlast self rfl) call⟩
    | user =>
      obtain ⟨rfl, contents, rfl⟩ := henter
      refine ⟨hs, fun u hu => ?_, fun _ _ _ => ⟨⟨contents, rfl⟩, fun _ _ _ _ _ _ _ => trivial⟩⟩
      cases u with
      | main => exact .refl _
      | user => exact absurd rfl hu

end Rules

variable {x y : Threads ClipboardOp ClipboardOp.Res ClipboardThread.Value Pasteboard}

theorem Start.unharmed (h : Start x) (careful : Prop) : Unharmed careful x.shared := by
  refine ⟨?_, fun _ => h.lost⟩
  rw [h.reports]
  exact List.not_mem_nil

/-- A poll reports no change that the monitor has made. If no disconnect is marked while
the pasteboard holds a copy made since the first of the outage, no clip from the mailbox
overwrites such a copy. -/
theorem changes_kept_apart (hstart : Start x) (hrun : Reaches (system prim) x y) :
    true ∉ y.shared.reports ∧
      (Reaches ((system prim).guarded Careful) x y → y.shared.lost = 0) := by
  constructor
  · have hfree : Reaches (carefulSystem prim False) x y := hrun.guarded fun _ _ _ => False.elim
    exact (relyGuarantee.reaches (hstart.unharmed False) hstart.idle hfree).1.1
  · intro hcareful
    have hguarded : Reaches (carefulSystem prim True) x y := by
      simpa only [carefulSystem, true_imp_iff] using hcareful
    exact (relyGuarantee.reaches (hstart.unharmed True) hstart.idle hguarded).1.2 trivial

/-! ## Schedules -/

def undisturbed : (op : ClipboardOp) → Pasteboard → op.Res × Pasteboard
  | .changeCount, s => (s.changeCount, s)
  | .outageBegins, s => (s.changeCount, { s with outage := true })
  | .outageEnds, s => ((), { s with outage := false, copied := false })
  | .readPayload, s =>
    match s.contents with
    | none => (.ok none, s)
    | some known => (.ok (some known), { s with lastRead := s.remote })
  | .write payload expected, s =>
    if expected.all (· == s.changeCount) then
      (.ok (some (s.changeCount + 1)),
        s.written (s.changeCount + 1) (some ⟨payload, false⟩) expected)
    else
      (.ok none, s)
  | .onLocalChange .., s => ((), { s with reports := s.reports ++ [s.lastRead] })
  | .userCopy contents, s => ((), s.copiedBy (s.changeCount + 1) contents)

theorem exec_undisturbed (op : ClipboardOp) (s : Pasteboard) :
    op.exec prim s (undisturbed op s).1 (undisturbed op s).2 := by
  cases op with
  | changeCount => exact ⟨rfl, rfl⟩
  | outageBegins => exact ⟨rfl, rfl⟩
  | outageEnds => exact rfl
  | onLocalChange payload markedSensitive => exact rfl
  | userCopy contents => exact ⟨s.changeCount + 1, Nat.lt_succ_self _, rfl⟩
  | readPayload =>
    rw [undisturbed]
    split
    · exact rfl
    · rename_i known hknown
      exact ⟨⟨known, hknown, rfl⟩, rfl⟩
  | write payload expected =>
    rw [undisturbed]
    split
    · rename_i hexpected
      refine ⟨?_, Nat.lt_succ_self _, rfl⟩
      rintro baseline rfl
      simpa using Eq.symm (by simpa using hexpected)
    · exact rfl

/-- What a thread does next: the main actor makes a call, or the user copies. -/
inductive Event where
  | ask (request : MonitorCall)
  | copy (contents : Option ReadResult)

def start (prim : Primitives) : Event → (t : ClipboardThread) → Option t.Value → Pasteboard →
    Option (ClipboardProgram t.Value × Pasteboard)
  | _, .main, none, s => some (PasteboardMonitor.init, s)
  | .ask request, .main, some self, s => some (request.program prim self, s)
  | .copy contents, .user, _, s => some (perform (.userCopy contents : ClipboardOp), s)
  | _, _, _, _ => none

theorem enter_of_start {event : Event} {t : ClipboardThread} {a : Option t.Value}
    {p : ClipboardProgram t.Value} (h : start prim event t a s = some (p, s')) :
    (system prim).enter t a s p s' := by
  cases t with
  | main =>
    cases a with
    | none =>
      cases h
      exact ⟨rfl, rfl⟩
    | some self =>
      cases event with
      | ask request =>
        cases h
        exact ⟨rfl, request, rfl⟩
      | copy contents => cases h
  | user =>
    cases event with
    | ask request => cases h
    | copy contents =>
      cases h
      exact ⟨rfl, contents, rfl⟩

def replay (prim : Primitives) (test : ClipboardThread → ClipboardOp → Pasteboard → Prop)
    [∀ t op s, Decidable (test t op s)] : Replay ((system prim).guarded test) Event where
  access _ t op s := if test t op s then some (undisturbed op s) else none
  enter := start prim
  exec_of_access {event t op s r s'} h := by
    split at h
    · rename_i htest
      have hexec : op.exec prim s (undisturbed op s).1 (undisturbed op s).2 :=
        exec_undisturbed op s
      rw [Option.some.inj h] at hexec
      exact ⟨htest, hexec⟩
    · cases h
  enter_of_enter := enter_of_start

instance (t : ClipboardThread) (op : ClipboardOp) (s : Pasteboard) :
    Decidable (Careful t op s) :=
  match op with
  | .outageBegins => decidable_of_iff (s.copied = false) (by simp [Careful])
  | .changeCount | .outageEnds | .readPayload | .write .. | .onLocalChange .. | .userCopy _ =>
    isTrue nofun

def unused : Threads ClipboardOp ClipboardOp.Res ClipboardThread.Value Pasteboard :=
  ⟨⟨0, none, false, false, false, false, [], 0⟩, fun _ => none⟩

theorem start_unused : Start unused := ⟨fun _ => rfl, rfl, rfl, rfl, rfl, rfl⟩

def calls (request : MonitorCall) : Move ClipboardThread Event := ⟨.main, 4, .ask request⟩

def copies (content : String) : Move ClipboardThread Event :=
  ⟨.user, 1, .copy (some ⟨.text content, false⟩)⟩

/-- A copy is reported, and a clip from the mailbox, written after it, is not. -/
theorem changes_kept_apart_sample : ∃ y, Reaches ((system .sample).guarded Careful) unused y ∧
    y.shared.reports = [false] ∧ y.shared.remote = true ∧ y.shared.lost = 0 := by
  have hplay : ((replay .sample Careful).play
      [calls .poll, copies "a", calls .poll, calls .markDisconnected,
        calls (.applyRemote (.text "b") true), calls .poll] unused).any
      (fun y => y.shared.reports == [false] && y.shared.remote) = true := by
    decide +kernel
  obtain ⟨y, hrun, htest⟩ := Replay.exists_reaches hplay
  simp only [Bool.and_eq_true, beq_iff_eq] at htest
  exact ⟨y, hrun, htest.1, htest.2,
    (changes_kept_apart start_unused hrun.of_guarded).2 hrun⟩

/-- The connection is lost, the user copies, and the core tells of the loss once more: the
baseline is that of the copy, which the next clip from the mailbox overwrites. -/
theorem copy_overwritten : ∃ y, Start unused ∧ Reaches (system .sample) unused y ∧
    y.shared.outage = true ∧ y.shared.lost = 1 := by
  have hplay : ((replay .sample fun _ _ _ => True).play
      [calls .poll, calls .markDisconnected, copies "a", calls .markDisconnected,
        calls (.applyRemote (.text "b") true)] unused).any
      (fun y => y.shared.outage && y.shared.lost == 1) = true := by
    decide +kernel
  obtain ⟨y, hrun, htest⟩ := Replay.exists_reaches hplay
  simp only [Bool.and_eq_true, beq_iff_eq] at htest
  exact ⟨y, start_unused, hrun.of_guarded, htest.1, htest.2⟩

end Pasteboard

end ClipSync
