import ClipSync.Core.SendSize
import ClipSync.Core.SessionOutline
import ClipSync.Lib.Recency

/-!
# The echo ring of a session

A session registers the hash of every text it has sent or applied, so that the host can
tell its own clips from the user's. The ring has at most 64 hashes, and nothing is in it
that was not registered. A hash that is registered again stays where it is: the ring has
the texts that were used last as long as a hash leaves it only when all the others in it
have been used since.
-/

namespace ClipSync

open Lib Program FsProgram SessionProgram SessionStore HistoryStore Recency

/-- The calls on one session that may register a text, and clearing its history. -/
inductive EchoCall where
  | send (content : ClipContent) (tsMs : Int64)
  | handle (roomId ciphertextB64 : String) (mailbox : Bool) (nowMs : Int64)
  | applyDeferred (id : Uuid)
  | clearHistory

def ClipContent.text? : ClipContent → Option String
  | .text content => some content
  | .image _ => none

def HistoryKind.text? : HistoryKind → Option String
  | .text content => some content
  | .image _ => none

def appliedText (content : ClipContent) : Except SessionError InboundOutcome → Option String
  | .ok .liveApplied | .ok .mailboxApplied => content.text?
  | _ => none

section Life

variable (crates : Crates)

def EchoCall.program : EchoCall → Session → SessionProgram (Option String × Session)
  | .send content tsMs, self => do
    let (result, self) ← self.sendClip crates content tsMs
    return (if result.isOk then content.text? else none, self)
  | .handle roomId ciphertextB64 mailbox nowMs, self => do
    let item := self.authenticate crates roomId ciphertextB64
    let (result, self) ← self.handleClip crates roomId ciphertextB64 mailbox nowMs
    return (item.bind fun item => appliedText item.content result, self)
  | .applyDeferred id, self => do
    let (result, self) ← self.applyDeferred crates id
    let entry := self.history.items.find? (·.id = id)
    return (if result.isOk then entry.bind (·.kind.text?) else none, self)
  | .clearHistory, self => do
    let (_, self) ← self.clearHistory crates
    return (none, self)

/-- A session in use, and the texts it has sent or applied, the oldest first. -/
structure EchoLife where
  session : Session
  world : World
  uses : List String

/-- A call that returns. -/
inductive EchoLife.Step : EchoLife → EchoLife → Prop where
  | call {σ : EchoLife} (call : EchoCall) {used : Option String} {self' : Session} {w' : World}
      (hexec : Exec (SessionOp.exec crates) (call.program crates σ.session) σ.world
        (used, self') w') :
      Step σ ⟨self', w', σ.uses ++ used.toList⟩

def EchoLife.TimelyStep (σ σ' : EchoLife) : Prop :=
  σ.Step crates σ' ∧ ∀ text, σ'.uses = σ.uses ++ [text] →
    Timely echoRing (σ.uses.map (textHash crates.prim)) σ.session.echoHashes
      (textHash crates.prim text)

variable {crates}

/-! ## What a call registers -/

def Registers (crates : Crates) (self : Session) (used : Option String) (self' : Session) : Prop :=
  self'.echoHashes = used.elim self.echoHashes fun text =>
    register echoRing self.echoHashes (textHash crates.prim text)

theorem registers_registerEcho (self : Session) (text : String) :
    Registers crates self (some text) (self.registerEcho (textHash crates.prim text)) := by
  unfold Session.registerEcho
  split
  · rename_i hknown
    exact (if_pos (by simpa using hknown)).symm
  · rename_i hnew
    exact (if_neg (by simpa using hnew)).symm

theorem registers_registerText (self : Session) (content : ClipContent) :
    Registers crates self content.text? (self.registerText crates content) := by
  cases content with
  | text text => exact registers_registerEcho self text
  | image bytes => rfl

theorem Registers.registerText {self self' : Session} (h : Registers crates self none self')
    (content : ClipContent) :
    Registers crates self content.text? (self'.registerText crates content) := by
  have hregisters : Registers crates self' _ _ := registers_registerText self' content
  rw [Registers, h] at hregisters
  exact hregisters

theorem safe_sendClip_registers (self : Session) (content : ClipContent) (tsMs : Int64)
    (w : World) :
    Safe (SessionOp.exec crates) (fun _ => True)
      (fun (result, self') _ => Registers crates self
        (if result.isOk then content.text? else none) self')
      (self.sendClip crates content tsMs) w := by
  have hsends : Session.Sends (.safe (SessionOp.exec crates) fun _ => True) crates self content tsMs
      (fun _ => True) (fun _ => True) (fun _ _ _ => True) (fun result self' _ =>
        Registers crates self
        (if result.isOk then content.text? else none) self') :=
    { finish := fun hw h => ⟨hw, h⟩
      reject := fun _ _ => rfl
      reserve := fun _ _ _ _ => safe_of_forall (fun _ _ => .intro (fun _ => trivial) fun _ =>
        rfl) _ _
      refuse := fun _ _ => rfl
      draw := fun _ _ => safe_true _ _
      encrypt := fun _ _ _ => safe_of_forall (fun r _ => by cases r <;> trivial) _ _
      add := fun _ _ => safe_of_forall (fun r _ => .intro (fun _ => .registerText rfl content)
        fun _ => rfl) _ _ }
  exact hsends.sendClip none trivial trivial

theorem receives_registers (self : Session) (item : ClipItem) (fresh : Bool) :
    Session.Receives (.safe (SessionOp.exec crates) fun _ => True) crates item fresh none
      (fun _ self' _ => Registers crates self none self')
      (fun result self' _ => Registers crates self (appliedText item.content result) self') where
  finish hw h := ⟨hw, h⟩
  mark _ h := safe_of_forall (fun _ _ => h) _ _
  fault h := by cases h
  add _ h := safe_of_forall (fun _ _ => .intro (fun _ => h) fun _ => h) _ _
  clear _ h := safe_of_forall (fun _ _ => .intro (fun _ => h) fun _ => h) _ _
  callback _ h :=
    safe_of_forall (fun r _ => .intro crates h h (fun _ => h) (h.registerText _) r) _ _
  promote _ h := safe_of_forall (fun _ _ => .intro (fun _ => h) fun _ => h) _ _
  applied h := h.registerText _

theorem safe_handleClip_registers (self : Session) (roomId ciphertextB64 : String) (mailbox : Bool)
    (nowMs : Int64) (w : World) :
    Safe (SessionOp.exec crates) (fun _ => True)
      (fun (result, self') _ => Registers crates self
        ((self.authenticate crates roomId ciphertextB64).bind fun item =>
           appliedText item.content result) self')
      (self.handleClip crates roomId ciphertextB64 mailbox nowMs) w := by
  rw [Session.handleClip]
  rcases self.handleClip_cases crates roomId ciphertextB64 mailbox nowMs none with
    ⟨outcome, hrefused, houtcome⟩ | ⟨item, hauthentic, -, -, hdelivered⟩
  · rw [hrefused]
    refine ⟨trivial, ?_⟩
    cases self.authenticate crates roomId ciphertextB64 with
    | none => rfl
    | some item =>
      simp only [List.mem_cons, List.not_mem_nil, or_false] at houtcome
      rcases houtcome with rfl | rfl | rfl <;> rfl
  · rw [hdelivered, hauthentic]
    exact (receives_registers self item _).deliverClip trivial
      (safe_of_forall (fun _ _ => .intro (fun _ => rfl) fun _ => rfl) _ _)

theorem safe_applyDeferred_registers (self : Session) (id : Uuid) (w : World) :
    Safe (SessionOp.exec crates) (fun _ => True)
      (fun (result, self') _ => Registers crates self
        (if result.isOk then (self'.history.items.find? (·.id = id)).bind (·.kind.text?)
          else none) self')
      (self.applyDeferred crates id) w := by
  refine Safe.bind (safe_filesOnly _ _) ?_
  rintro ⟨r, history⟩ w₁ - -
  cases r with
  | error e => exact ⟨trivial, rfl⟩
  | ok u =>
  dsimp only
  cases hentry : history.items.find? (·.id = id) with
  | none => exact ⟨trivial, by simp [hentry, Registers]⟩
  | some entry =>
  obtain ⟨entryId, tsMs, kind, source⟩ := entry
  cases kind with
  | text content =>
    have hregisters : Registers crates { self with history } (some content) _ :=
      registers_registerEcho _ content
    obtain ⟨hashes, hself⟩ := Session.registerText_eq crates { self with history }
      (.text content)
    have hhistory : ({ self with history }.registerEcho
        (textHash crates.prim content)).history = history :=
      congrArg Session.history hself
    refine ⟨trivial, ?_⟩
    dsimp only
    rw [hhistory, hentry]
    exact hregisters
  | image fileName => exact ⟨trivial, by simp [hentry, Registers, HistoryKind.text?]⟩

theorem safe_clearHistory_registers (self : Session) (w : World) :
    Safe (SessionOp.exec crates) (fun _ => True) (fun (_, self') _ =>
      Registers crates self none self')
      (self.clearHistory crates) w :=
  Safe.bind (safe_filesOnly _ _) fun _ _ _ _ => ⟨trivial, rfl⟩

theorem safe_program_registers (call : EchoCall) (self : Session) (w : World) :
    Safe (SessionOp.exec crates) (fun _ => True)
      (fun (used, self') _ => Registers crates self used self') (call.program crates self) w := by
  cases call with
  | send content tsMs =>
    refine Safe.bind (safe_sendClip_registers self content tsMs w) ?_
    exact fun _ _ _ h => ⟨trivial, h⟩
  | handle roomId ciphertextB64 mailbox nowMs =>
    refine Safe.bind (safe_handleClip_registers self roomId ciphertextB64 mailbox nowMs w) ?_
    exact fun _ _ _ h => ⟨trivial, h⟩
  | applyDeferred id =>
    refine Safe.bind (safe_applyDeferred_registers self id w) ?_
    exact fun _ _ _ h => ⟨trivial, h⟩
  | clearHistory =>
    refine Safe.bind (safe_clearHistory_registers self w) ?_
    exact fun _ _ _ h => ⟨trivial, h⟩

/-! ## Runs -/

variable {σ σ₀ : EchoLife}

theorem EchoLife.Step.echoHashes {σ' : EchoLife} (h : σ.Step crates σ') :
    ∃ used : Option String, σ'.uses = σ.uses ++ used.toList ∧
      Registers crates σ.session used σ'.session := by
  obtain ⟨call, hexec⟩ := h
  exact ⟨_, rfl, (safe_program_registers call _ _).post hexec⟩

/-- The ring is what the uses leave in it. -/
theorem EchoLife.echoHashes_eq (hring : σ₀.session.echoHashes = []) (huses : σ₀.uses = [])
    (hrun : Relation.ReflTransGen (EchoLife.Step crates) σ₀ σ) :
    σ.session.echoHashes = ring echoRing (σ.uses.map (textHash crates.prim)) := by
  induction hrun with
  | refl =>
    rw [hring, huses]
    rfl
  | tail _ hstep ih =>
    obtain ⟨used, huses', hregisters⟩ := hstep.echoHashes
    rw [hregisters, huses', ih]
    cases used with
    | none => simp
    | some text => simp [ring_concat]

theorem EchoLife.run_of_timely (hrun : Relation.ReflTransGen (EchoLife.TimelyStep crates) σ₀ σ) :
    Relation.ReflTransGen (EchoLife.Step crates) σ₀ σ :=
  hrun.lift id fun _ _ hstep => hstep.1

theorem EchoLife.mem_echoHashes_of_recent (hring : σ₀.session.echoHashes = [])
    (huses : σ₀.uses = []) (hrun : Relation.ReflTransGen (EchoLife.TimelyStep crates) σ₀ σ)
    {hash : String} (h : Recent echoRing (σ.uses.map (textHash crates.prim)) hash) :
    hash ∈ σ.session.echoHashes := by
  rw [echoHashes_eq hring huses (run_of_timely hrun)]
  induction hrun generalizing hash with
  | refl =>
    rw [huses] at h
    obtain ⟨older, newer, hnil, -⟩ := h
    simp at hnil
  | tail hrun hstep ih =>
    obtain ⟨hstep, htimely⟩ := hstep
    obtain ⟨used, huses', -⟩ := hstep.echoHashes
    cases used with
    | none =>
      rw [huses', Option.toList_none, List.append_nil] at h ⊢
      exact ih h
    | some text =>
      have htext := htimely text huses'
      rw [echoHashes_eq hring huses (run_of_timely hrun)] at htext
      rw [huses', Option.toList_some, List.map_append, List.map_singleton] at h ⊢
      exact mem_ring_concat (fun _ => ih) htext h

/-- In every run the ring has at most 64 hashes, and only of texts that have been sent or
applied. While a hash leaves the ring only when all the others in it have been used since,
every text that is one of the 64 used last is an echo. -/
theorem EchoLife.echoes_of_run {σ₀ σ : EchoLife} (hring : σ₀.session.echoHashes = [])
    (huses : σ₀.uses = []) (hrun : Relation.ReflTransGen (EchoLife.Step crates) σ₀ σ) :
    σ.session.echoHashes.length ≤ 64 ∧
      (∀ hash, (∀ text ∈ σ.uses, textHash crates.prim text ≠ hash) →
        σ.session.isEcho hash = false) ∧
      (Relation.ReflTransGen (EchoLife.TimelyStep crates) σ₀ σ →
        ∀ text, Recent 64 σ.uses text → σ.session.isEcho (textHash crates.prim text) = true) := by
  have heq := echoHashes_eq hring huses hrun
  refine ⟨heq ▸ length_ring_le _ _, fun hash hnever => ?_, fun htimely text hrecent => ?_⟩
  · rw [Session.isEcho, heq, ← Bool.not_eq_true, List.contains_iff_mem]
    intro hmem
    obtain ⟨text, htext, hhash⟩ := List.mem_map.1 ((ring_sublist _ _).subset hmem)
    exact hnever text htext hhash
  · rw [Session.isEcho, List.contains_iff_mem]
    exact mem_echoHashes_of_recent hring huses htimely (hrecent.map (textHash crates.prim))

/-- Nothing leaves the ring before 64 texts have been used. -/
theorem EchoLife.timely_of_length_le (hring : σ₀.session.echoHashes = []) (huses : σ₀.uses = [])
    (hrun : Relation.ReflTransGen (EchoLife.Step crates) σ₀ σ) (h : σ.uses.length ≤ echoRing) :
    Relation.ReflTransGen (EchoLife.TimelyStep crates) σ₀ σ := by
  induction hrun with
  | refl => exact .refl
  | @tail σ₁ σ₂ hrun hstep ih =>
    obtain ⟨used, huses', -⟩ := hstep.echoHashes
    have hlength : σ₁.uses.length ≤ σ₂.uses.length := by simp [huses']
    refine (ih (hlength.trans h)).tail ⟨hstep, fun text htext _ hfull => ?_⟩
    rw [echoHashes_eq hring huses hrun] at hfull
    have hle := (ring_sublist echoRing (σ₁.uses.map (textHash crates.prim))).length_le
    rw [hfull, List.length_map] at hle
    rw [htext, List.length_append, List.length_singleton] at h
    omega

end Life

/-! ## A text that is forgotten -/

namespace EchoLife

/-- A session that has no history and can send. -/
def Open (σ : EchoLife) : Prop :=
  σ.session.Current Pairing.sample σ.world.fs ∧ σ.session.history.items = []

variable {σ : EchoLife}

theorem Open.exists_sent (h : σ.Open) {text : String} (hshort : (utf8Bytes text).length ≤ 1000)
    (hseq : σ.session.sendState.nextSeq.toNat + 1 ≠ UInt64.size) :
    ∃ σ₁ σ₂ : EchoLife, σ.Step Crates.sample σ₁ ∧ σ₁.Step Crates.sample σ₂ ∧
      σ₂.uses = σ.uses ++ [text] ∧ σ₂.Open ∧
      σ₂.session.sendState.nextSeq = σ.session.sendState.nextSeq + 1 := by
  obtain ⟨hcurrent, hempty⟩ := h
  obtain ⟨bytes, fs₁, hsend, h₁⟩ := hcurrent.sendShort 0 (by decide) hshort hseq
    (by simp [hempty]) (by simp [hempty, historyCap])
  have htexts : (σ.session.sent Crates.sample (.text text) 0
      (.sample 0)).history.items.filterMap (·.kind.imageFileName) = [] := by
    simp [Session.sent, hempty, entryOf, kindOf, historyContent, HistoryKind.imageFileName]
  obtain ⟨fs₂, hclear, h₂⟩ := Session.Current.clearHistory (w := { σ.world with
    fs := fs₁
    sealedClips := σ.world.sealedClips ++ [(Session.envelope (.text text) (.sample 0)
      σ.session.sendState.nextSeq 0, bytes)] }) h₁ htexts
  refine ⟨⟨_, _, σ.uses ++ [text]⟩, ⟨_, _, σ.uses ++ [text] ++ []⟩,
    .call (.send (.text text) 0) (exec_bind.2 ⟨_, _, exec_of_quietly hsend, .done _ _⟩),
    .call .clearHistory (exec_bind.2 ⟨_, _, hclear, .done _ _⟩), by simp, ⟨h₂, rfl⟩, ?_⟩
  simp [Session.sent, Session.reserved]

theorem Open.exists_run (h : σ.Open) (texts : List String)
    (hshort : ∀ text ∈ texts, (utf8Bytes text).length ≤ 1000)
    (hseq : σ.session.sendState.nextSeq.toNat + texts.length < UInt64.size) :
    ∃ σ' : EchoLife, Relation.ReflTransGen (EchoLife.Step Crates.sample) σ σ' ∧
      σ'.uses = σ.uses ++ texts := by
  induction texts generalizing σ with
  | nil => exact ⟨σ, .refl, by simp⟩
  | cons text texts ih =>
    rw [List.length_cons] at hseq
    obtain ⟨σ₁, σ₂, hstep₁, hstep₂, huses₂, h₂, hseq₂⟩ :=
      h.exists_sent (hshort text List.mem_cons_self) (by omega)
    have hnext : σ₂.session.sendState.nextSeq.toNat =
        σ.session.sendState.nextSeq.toNat + 1 := by
      rw [hseq₂, UInt64.toNat_add, UInt64.toNat_one, Nat.mod_eq_of_lt]
      simp only [UInt64.size] at hseq
      omega
    obtain ⟨σ', hrun, huses⟩ := ih h₂ (fun other hother => hshort other
      (List.mem_cons_of_mem text hother)) (by omega)
    refine ⟨σ', .head hstep₁ (.head hstep₂ hrun), ?_⟩
    rw [huses, huses₂, List.append_assoc]
    rfl

/-- The texts are sent one after the other by a session that has just been opened. -/
theorem exists_sending (texts : List String)
    (hshort : ∀ text ∈ texts, (utf8Bytes text).length ≤ 1000) (hfew : texts.length ≤ 1000) :
    ∃ σ₀ σ : EchoLife, σ₀.session.echoHashes = [] ∧ σ₀.uses = [] ∧
      Relation.ReflTransGen (EchoLife.Step Crates.sample) σ₀ σ ∧ σ.uses = texts := by
  let w : World := ⟨⟨fun _ => none, fun _ => []⟩, [], [], []⟩
  obtain ⟨keys, hself⟩ := exists_session_sample .sample
  have hopen : Open ⟨.sample .sample keys, w, []⟩ := ⟨hself w.fs fun _ => rfl, rfl⟩
  have hseq : (1 : UInt64).toNat + texts.length < UInt64.size := by
    simp only [UInt64.toNat_one, UInt64.size]
    omega
  obtain ⟨σ, hrun, huses⟩ := hopen.exists_run texts hshort hseq
  exact ⟨_, σ, rfl, rfl, hrun, huses⟩

/-- An older text is sent again. -/
theorem echoes_of_run_small :
    ∃ σ₀ σ : EchoLife, Relation.ReflTransGen (EchoLife.TimelyStep Crates.sample) σ₀ σ ∧
      σ.uses = ["a", "b", "a"] ∧ ∀ text ∈ ["a", "b"],
        σ.session.isEcho (textHash Crates.sample.prim text) = true := by
  obtain ⟨σ₀, σ, hring, huses, hrun, huses'⟩ :=
    exists_sending ["a", "b", "a"] (by decide) (by decide)
  have htimely := timely_of_length_le hring huses hrun (by rw [huses']; decide)
  have hecho := (echoes_of_run hring huses hrun).2.2 htimely
  rw [huses'] at hecho
  refine ⟨σ₀, σ, htimely, huses', fun text htext => hecho text ?_⟩
  rcases List.mem_cons.1 htext with rfl | htext
  · exact ⟨["a", "b"], [], rfl, by decide⟩
  · exact ⟨["a"], ["a"], by rw [List.mem_singleton.1 htext]; rfl, by decide⟩

def sampleText (n : Fin 65) : String := String.ofList [Char.ofNat (n + 33)]

theorem utf8Bytes_sampleText (n : Fin 65) : utf8Bytes (sampleText n) = [UInt8.ofNat (n + 33)] := by
  have hall : ∀ n : Fin 65, (Char.ofNat (n + 33)).toNat = n + 33 := by decide
  rw [sampleText, utf8Bytes_of_ascii]
  · rw [List.map_singleton, hall]
  · intro c hc
    rw [List.mem_singleton.1 hc, hall]
    omega

theorem textHash_sampleText_injective :
    Function.Injective (textHash Crates.sample.prim ∘ sampleText) := by
  intro m n h
  have hchars := congrArg (fun text => Hex.decodeChars text.toList) h
  simp only [Function.comp_apply, textHash, hexLower, Hex.encode, String.toList_ofList,
    Hex.decodeChars_encodeChars, Option.some.injEq, utf8Bytes_sampleText] at hchars
  have hfirst := congrArg (fun digest : List.Vector UInt8 32 => digest.get 0)
    (List.Vector.eq _ _ hchars)
  simp only [Crates.sample, Primitives.sample, List.Vector.get_ofFn] at hfirst
  have hnat := congrArg UInt8.toNat hfirst
  simp at hnat
  omega

/-- A text that is sent, sent again after 63 others and followed by one more has left the
ring, though it is one of the last two. -/
theorem echo_forgotten :
    ∃ σ₀ σ : EchoLife, σ₀.session.echoHashes = [] ∧ σ₀.uses = [] ∧
      Relation.ReflTransGen (EchoLife.Step Crates.sample) σ₀ σ ∧
      ∃ text, Recent 64 σ.uses text ∧
        σ.session.isEcho (textHash Crates.sample.prim text) = false := by
  let order : List (Fin 65) := (List.finRange 65).dropLast ++ [0, 64]
  obtain ⟨σ₀, σ, hring, huses, hrun, huses'⟩ := exists_sending (order.map sampleText) (by
    intro text htext
    obtain ⟨n, -, rfl⟩ := List.mem_map.1 htext
    rw [utf8Bytes_sampleText, List.length_singleton]
    omega) (by rw [List.length_map]; decide)
  have hforgotten : (0 : Fin 65) ∉ ring 64 order := by decide +kernel
  refine ⟨σ₀, σ, hring, huses, hrun, sampleText 0, ?_, ?_⟩
  · refine ⟨(List.finRange 65).dropLast.map sampleText, [sampleText 64], ?_, by simp⟩
    rw [huses', List.map_append]
    rfl
  · rw [Session.isEcho, echoHashes_eq hring huses hrun, huses', ← Bool.not_eq_true,
      List.contains_iff_mem, List.map_map]
    rw [echoRing, ring_map textHash_sampleText_injective]
    intro hmem
    obtain ⟨n, hn, hhash⟩ := List.mem_map.1 hmem
    exact hforgotten (textHash_sampleText_injective hhash ▸ hn)

end EchoLife

end ClipSync
