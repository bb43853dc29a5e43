import ClipSync.Core.PairingStore

/-!
# Resetting a pairing

`reset_with_observer` of `crates/core/src/pairing.rs` replaces the identity and then removes
the record of the pairing. A reset can fail or be cut off between the two, so a record of a
former identity may be left on disk. It is never loaded: a record counts only with the
generation of the identity on disk, and every reset increases the generation.
-/

namespace ClipSync

open Lib Lib.Json Program

/-! ## Resets -/

inductive ResetStage where
  | tempWritten
  | fileSynced
  | identityRenamed
  | identityDirectorySynced

namespace PairingStore

variable {D : Type} (self : PairingStore D)

def dropPending (temp : Path D) (error : PairingError) :
    FsProgram D (Except PairingError Identity) := do
  let _ ← FsProgram.access (.remove temp)
  return .error error

def cleanupOldPairingState : FsProgram D Unit := do
  match ← FsProgram.access (.remove self.pairingPath) with
  | .ok () => do
    let _ ← FsProgram.access (.syncDir self.root)
  | .error _ => return ()

def finishReset (observer : ResetStage → Option PairingError) (replacement : Identity) :
    FsProgram D (Except PairingError Identity) := do
  match observer .identityRenamed with
  | some error => return .error error
  | none =>
  match ← FsProgram.access (.syncDir self.root) with
  | .error error => return .error (.io error)
  | .ok () =>
  match observer .identityDirectorySynced with
  | some error => return .error error
  | none => do
  self.cleanupOldPairingState
  return .ok replacement

/-- Rotates the identity. The observer may stop the reset at its stages; `secrets` are drawn
for the new identity, and `fresh` for one that has to be created before. -/
def resetWithObserver (observer : ResetStage → Option PairingError) (fresh secrets : Key × Key) :
    FsProgram D (Except PairingError Identity) := do
  match ← self.loadIdentity fresh with
  | .error error => return .error error
  | .ok current =>
  if UInt64.size ≤ current.generation.toNat + 1 then
    return .error .generationOverflow
  match Identity.fromSecretBytes secrets.1 secrets.2 (current.generation + 1) with
  | .error error => return .error (.crypto error)
  | .ok replacement =>
  let suffix ← FsProgram.access .uniqueName
  let temp : Path D := ⟨self.root, ".identity.json." ++ suffix ++ ".tmp"⟩
  match ← FsProgram.access (.createNew temp) with
  | .error error => return .error (.io error)
  | .ok () =>
  match ← FsProgram.access (.writeAll temp replacement.toVec) with
  | .error error => dropPending temp (.io error)
  | .ok () =>
  match observer .tempWritten with
  | some error => dropPending temp error
  | none =>
  match ← FsProgram.access (.syncAll temp) with
  | .error error => dropPending temp (.io error)
  | .ok () =>
  match observer .fileSynced with
  | some error => dropPending temp error
  | none =>
  match ← FsProgram.access (.rename temp self.identityPath) with
  | .error error => dropPending temp (.io error)
  | .ok () =>
  self.finishReset observer replacement

end PairingStore

/-! ## Calls -/

inductive StoreRequest where
  | loadIdentity
  | loadPairing
  | confirm (pending : PendingConfirmation) (sas : String)
  | reset (observer : ResetStage → Option PairingError) (secrets : Key × Key)

abbrev StoreRequest.Value : StoreRequest → Type
  | .loadIdentity | .reset .. => Except PairingError Identity
  | .loadPairing => Except PairingError (Option PairingRecord)
  | .confirm .. => Except PairingError PairingRecord

/-- A call to the store, with the secrets for an identity that it may have to create. -/
structure StoreCall where
  fresh : Key × Key
  request : StoreRequest

namespace StoreCall

variable {D : Type} (prim : Primitives) (debugAssertions : Bool) (store : PairingStore D)

def program (call : StoreCall) : FsProgram D call.request.Value :=
  match call.request with
  | .loadIdentity => store.loadIdentity call.fresh
  | .loadPairing => store.loadPairing prim debugAssertions call.fresh
  | .confirm pending sas => pending.confirm prim debugAssertions call.fresh sas store
  | .reset observer secrets => store.resetWithObserver observer call.fresh secrets

def created (call : StoreCall) : Identity := ⟨call.fresh.1, call.fresh.2, 1⟩

end StoreCall

/-- How a call may change the identity. -/
inductive IdentityMove (call : StoreCall) : Option Identity → Option Identity → Prop where
  | kept (identity : Option Identity) : IdentityMove call identity identity
  | created : IdentityMove call none (some call.created)
  | rotated {before : Option Identity} {observer : ResetStage → Option PairingError}
      {secrets : Key × Key} (request : call.request = .reset observer secrets)
      (generation : (before.getD call.created).generation.toNat + 1 < UInt64.size) :
      IdentityMove call before
        (some ⟨secrets.1, secrets.2, (before.getD call.created).generation + 1⟩)

/-- How a call may change the record, given the identity that it leaves. -/
inductive PairingMove (prim : Primitives) (debugAssertions : Bool) (call : StoreCall) :
    Option Identity → Option Bytes → Option Bytes → Prop where
  | kept (identity : Option Identity) (record : Option Bytes) :
      PairingMove prim debugAssertions call identity record record
  | removed {observer : ResetStage → Option PairingError} {secrets : Key × Key}
      (request : call.request = .reset observer secrets) (identity : Option Identity)
      (record : Option Bytes) : PairingMove prim debugAssertions call identity record none
  | written {pending : PendingConfirmation} {sas : String} {identity : Identity}
      {record : Option Bytes} (request : call.request = .confirm pending sas)
      (confirmed : sas = pending.sas prim)
      (generation : pending.candidate.identityGeneration = identity.generation)
      (fingerprint : bundleFp prim pending.candidate.localBundle = identity.bundleFp prim)
      (valid : validateRecord prim debugAssertions (.fromCandidate prim pending.candidate)
        identity = true) :
      PairingMove prim debugAssertions call (some identity) record
        (some (PairingRecord.fromCandidate prim pending.candidate).toVec)

/-! ## What a call leaves, wherever it is cut off -/

section Calls

variable {D : Type} {store : PairingStore D} {prim : Primitives} {debugAssertions : Bool}
  {fresh : Key × Key} {s s' : Fs D}

def StoreCall.Leaves (prim : Primitives) (debugAssertions : Bool) (store : PairingStore D)
    (call : StoreCall) (s s' : Fs D) : Prop :=
  IdentityMove call (store.identity s) (store.identity s') ∧
    PairingMove prim debugAssertions call (store.identity s') (s.files store.pairingPath)
      (s'.files store.pairingPath)

variable {call : StoreCall}

theorem Loaded.identityMove (h : Loaded store call.fresh s s') :
    IdentityMove call (store.identity s) (store.identity s') := by
  obtain ⟨-, hsame | ⟨hnone, hcreated⟩⟩ := h
  · rw [hsame]
    exact .kept _
  · rw [hnone, hcreated]
    exact .created

theorem Loaded.leaves (h : Loaded store call.fresh s s') :
    call.Leaves prim debugAssertions store s s' := by
  refine ⟨h.identityMove, ?_⟩
  rw [h.1.1]
  exact .kept _ _

theorem Loaded.getD_eq {current : Identity} (h : Loaded store call.fresh s s')
    (hcurrent : store.identity s' = some current) :
    (store.identity s).getD call.created = current := by
  obtain ⟨-, hsame | ⟨hnone, hcreated⟩⟩ := h
  · rw [← hsame, hcurrent]
    rfl
  · rw [hnone]
    exact Option.some.inj (hcreated.symm.trans hcurrent)

theorem leaves_of_rotated {observer : ResetStage → Option PairingError} {secrets : Key × Key}
    {current : Identity} {s₁ : Fs D} (hrequest : call.request = .reset observer secrets)
    (hloaded : Loaded store call.fresh s s₁) (hcurrent : store.identity s₁ = some current)
    (hgeneration : current.generation.toNat + 1 < UInt64.size)
    (hnew : store.identity s' = some ⟨secrets.1, secrets.2, current.generation + 1⟩)
    (hpairing : s'.files store.pairingPath = s₁.files store.pairingPath ∨
      s'.files store.pairingPath = none) :
    call.Leaves prim debugAssertions store s s' := by
  have hbefore := hloaded.getD_eq hcurrent
  constructor
  · rw [hnew, ← hbefore]
    exact .rotated hrequest (by rw [hbefore]; exact hgeneration)
  · obtain hkept | hremoved := hpairing
    · rw [hkept, hloaded.1.1]
      exact .kept _ _
    · rw [hremoved]
      exact .removed hrequest _ _

variable [DecidableEq D]

theorem safe_confirm_leaves {pending : PendingConfirmation} {sas : String}
    (hrequest : call.request = .confirm pending sas) :
    Safe Fs.exec (call.Leaves prim debugAssertions store s) (fun _ _ => True)
      (pending.confirm prim debugAssertions call.fresh sas store) s := by
  refine (safe_confirm pending sas).mono ?_ fun _ _ _ _ => trivial
  rintro s' (hloaded | ⟨hsas, identity, ⟨s₁, hloaded, hsame⟩, hidentity, hgeneration, hfingerprint,
    hvalid, hfile, -⟩)
  · exact hloaded.leaves
  · constructor
    · rw [hsame]
      exact hloaded.identityMove
    · rw [hidentity, hfile]
      exact .written hrequest hsas hgeneration hfingerprint hvalid

/-- A reset that succeeds has put the identity of the next generation on disk. -/
def Rotated (store : PairingStore D) (call : StoreCall) (s : Fs D)
    (r : Except PairingError Identity) (s' : Fs D) : Prop :=
  ∀ identity, r = .ok identity → store.identity s' = some identity ∧
    identity.generation.toNat = ((store.identity s).getD call.created).generation.toNat + 1

section Reset

variable {observer : ResetStage → Option PairingError} {secrets : Key × Key} {temp : Path D}
  {current replacement : Identity} {s₁ : Fs D}

theorem safe_dropPending {error : PairingError} (hloaded : Loaded store call.fresh s s₁)
    (hidentity : store.identityPath ≠ temp) (hpairing : store.pairingPath ≠ temp) :
    Safe Fs.exec (call.Leaves prim debugAssertions store s)
      (Rotated store call s)
      (PairingStore.dropPending temp error) s₁ := by
  refine ⟨hloaded.leaves, fun r s₂ hremove => ?_⟩
  have hdone : Loaded store call.fresh s s₂ := by
    match r, hremove with
    | .ok (), h =>
      cases h
      exact hloaded.set hidentity hpairing none
    | .error .notFound, h =>
      rw [h.1]
      exact hloaded
    | .error (.other _), h =>
      cases h
      exact hloaded
  exact ⟨hdone.leaves, by rintro _ ⟨⟩⟩

theorem toNat_generation_add_one (h : current.generation.toNat + 1 < UInt64.size) :
    (current.generation + 1).toNat = current.generation.toNat + 1 := by
  rw [UInt64.toNat_add]
  exact Nat.mod_eq_of_lt h

theorem safe_cleanup (hs₁ : call.Leaves prim debugAssertions store s s₁)
    (hnone : call.Leaves prim debugAssertions store s (s₁.set store.pairingPath none)) :
    Safe Fs.exec (call.Leaves prim debugAssertions store s)
      (fun _ s' => s' = s₁ ∨ s' = s₁.set store.pairingPath none)
      store.cleanupOldPairingState s₁ := by
  refine ⟨hs₁, fun r s₂ hremove => ?_⟩
  match r, hremove with
  | .ok (), h =>
    cases h
    refine ⟨hnone, fun r s₃ hsync => ?_⟩
    cases hsync
    exact ⟨hnone, .inr rfl⟩
  | .error .notFound, h =>
    rw [h.1]
    exact ⟨hs₁, .inl rfl⟩
  | .error (.other _), h =>
    cases h
    exact ⟨hs₁, .inl rfl⟩

theorem safe_finishReset (hs₁ : call.Leaves prim debugAssertions store s s₁)
    (hnone : call.Leaves prim debugAssertions store s (s₁.set store.pairingPath none))
    (hidentity : store.identity s₁ = some replacement)
    (hgeneration : replacement.generation.toNat =
      ((store.identity s).getD call.created).generation.toNat + 1) :
    Safe Fs.exec (call.Leaves prim debugAssertions store s)
      (Rotated store call s)
      (store.finishReset observer replacement) s₁ := by
  have hfail : ∀ {error : PairingError}, Safe Fs.exec (call.Leaves prim debugAssertions store s)
      (Rotated store call s) (done (Except.error error)) s₁ := ⟨hs₁, by rintro _ ⟨⟩⟩
  unfold PairingStore.finishReset
  split
  · exact hfail
  refine ⟨hs₁, fun r s₂ hsync => ?_⟩
  cases hsync
  cases r with
  | error error => exact hfail
  | ok u =>
  dsimp only
  split
  · exact hfail
  refine (safe_cleanup hs₁ hnone).bind ?_
  rintro _ s₃ hleaves hs₃
  refine ⟨hleaves, ?_⟩
  rintro _ ⟨⟩
  refine ⟨?_, hgeneration⟩
  obtain rfl | rfl := hs₃
  · exact hidentity
  · rw [store.identity_congr (Fs.set_files_of_ne store.identityPath_ne_pairingPath.symm none)]
    exact hidentity

theorem safe_reset_leaves (hrequest : call.request = .reset observer secrets) :
    Safe Fs.exec (call.Leaves prim debugAssertions store s)
      (Rotated store call s)
      (store.resetWithObserver observer call.fresh secrets) s := by
  have hfail : ∀ {s' : Fs D} {error : PairingError}, call.Leaves prim debugAssertions store s s' →
      Safe Fs.exec (call.Leaves prim debugAssertions store s) (Rotated store call s)
        (done (Except.error error)) s' :=
    fun h => ⟨h, by rintro _ ⟨⟩⟩
  refine safe_loadIdentity.bind_of_imp (fun _ => Loaded.leaves) ?_
  rintro (error | current) s₁ hloaded hidentity
  · exact hfail hloaded.leaves
  have hcurrent := hidentity current rfl
  change Safe _ _ _ (if _ then _ else _) s₁
  split_ifs with hoverflow
  · exact hfail hloaded.leaves
  have hgeneration : current.generation.toNat + 1 < UInt64.size := not_le.1 hoverflow
  have hnonzero : current.generation + 1 ≠ 0 := by
    intro hzero
    have htoNat := toNat_generation_add_one hgeneration
    rw [hzero] at htoNat
    exact Nat.succ_ne_zero _ htoNat.symm
  rw [Identity.fromSecretBytes, if_neg hnonzero]
  refine ⟨hloaded.leaves, fun suffix s₂ hname => ?_⟩
  cases hname
  have hpairing := store.pairingPath_ne_temp ".identity.json." suffix (by decide)
  have htemp := store.identityPath_ne_temp ".identity.json." suffix (by decide)
  have hset := hloaded.set htemp hpairing
  refine ⟨hloaded.leaves, fun r s₂ hcreate => ?_⟩
  cases r with
  | error error =>
    cases hcreate
    exact hfail hloaded.leaves
  | ok u =>
  obtain ⟨-, rfl⟩ := hcreate
  refine ⟨(hset _).leaves, fun r s₂ hwrite => ?_⟩
  cases r with
  | error error =>
    obtain ⟨part, -, rfl⟩ := hwrite
    rw [FsProgram.set_set]
    exact safe_dropPending (hset _) htemp hpairing
  | ok u =>
  cases hwrite
  rw [FsProgram.set_set]
  dsimp only
  split
  · exact safe_dropPending (hset _) htemp hpairing
  refine ⟨(hset _).leaves, fun r s₂ hsync => ?_⟩
  cases hsync
  cases r with
  | error error => exact safe_dropPending (hset _) htemp hpairing
  | ok u =>
  dsimp only
  split
  · exact safe_dropPending (hset _) htemp hpairing
  refine ⟨(hset _).leaves, fun r s₂ hrename => ?_⟩
  cases r with
  | error error =>
    cases hrename
    exact safe_dropPending (hset _) htemp hpairing
  | ok u =>
  obtain ⟨found, hfound, rfl⟩ := hrename
  have hcontents : found = Identity.toVec ⟨secrets.1, secrets.2, current.generation + 1⟩ := by
    simpa [Fs.set, eq_comm] using hfound
  rw [hcontents, FsProgram.set_replace]
  have hnew : store.identity (s₁.replace ⟨store.root, ".identity.json." ++ suffix ++ ".tmp"⟩
      store.identityPath (Identity.toVec ⟨secrets.1, secrets.2, current.generation + 1⟩)) =
        some ⟨secrets.1, secrets.2, current.generation + 1⟩ :=
    store.identity_of_toVec hnonzero Fs.replace_files_target
  refine safe_finishReset ?_ ?_ hnew ?_
  · exact leaves_of_rotated hrequest hloaded hcurrent hgeneration hnew
      (.inl (Fs.replace_files_of_ne hpairing store.identityPath_ne_pairingPath.symm))
  · refine leaves_of_rotated hrequest hloaded hcurrent hgeneration ?_
      (.inr (Function.update_self _ _ _))
    rw [store.identity_congr (Fs.set_files_of_ne store.identityPath_ne_pairingPath.symm none)]
    exact hnew
  · rw [hloaded.getD_eq hcurrent]
    exact toNat_generation_add_one hgeneration

end Reset

theorem safe_loadPairing : Safe Fs.exec (Loaded store fresh s)
    (fun r s' => ∀ record, r = .ok (some record) → ∃ identity,
      store.identity s' = some identity ∧ store.stored s' = some record ∧
      record.identityGeneration = identity.generation ∧
      validateRecord prim debugAssertions record identity = true)
    (store.loadPairing prim debugAssertions fresh) s := by
  refine safe_loadIdentity.bind ?_
  rintro (error | identity) s₁ hloaded hidentity
  · exact ⟨hloaded, by simp⟩
  refine ⟨hloaded, fun r s₂ hread => ?_⟩
  match r, hread with
  | .error .notFound, h =>
    rw [h.1]
    exact ⟨hloaded, by simp⟩
  | .error (.other message), h =>
    cases h
    exact ⟨hloaded, by simp⟩
  | .ok encoded, ⟨hs, hfile⟩ =>
    cases hs
    simp only [Program.bind]
    split
    · exact ⟨hloaded, by simp⟩
    · rename_i record hslice
      split_ifs with hgeneration hvalid
      · exact ⟨hloaded, by simp⟩
      · refine ⟨hloaded, ?_⟩
        rintro _ ⟨⟩
        refine ⟨identity, hidentity identity rfl, ?_, not_not.1 hgeneration, hvalid⟩
        rw [PairingStore.stored, hfile, Option.bind_some, hslice]
      · exact ⟨hloaded, by simp⟩

theorem StoreCall.leaves_of_steps {q : FsProgram D call.request.Value}
    (h : Steps Fs.exec (call.program prim debugAssertions store) s q s') :
    call.Leaves prim debugAssertions store s s' := by
  obtain ⟨fresh, request⟩ := call
  cases request with
  | loadIdentity => exact (safe_loadIdentity.steps h).inv.leaves
  | loadPairing => exact (safe_loadPairing.steps h).inv.leaves
  | confirm pending sas => exact ((safe_confirm_leaves rfl).steps h).inv
  | reset observer secrets => exact ((safe_reset_leaves rfl).steps h).inv

end Calls

/-! ## Sequences of calls -/

structure StoreEvent (D : Type) where
  call : StoreCall
  before : Fs D
  after : Fs D

section Runs

variable {D : Type} (prim : Primitives) (debugAssertions : Bool) (store : PairingStore D)

/-- The record was confirmed with the string of its pairing, by a call that left the identity
on disk for which the pairing was started. -/
def ConfirmedUnder (trace : List (StoreEvent D)) (record : PairingRecord) (identity : Identity) :
    Prop :=
  ∃ e ∈ trace, ∃ pending sas, e.call.request = .confirm pending sas ∧ sas = pending.sas prim ∧
    record = .fromCandidate prim pending.candidate ∧
    pending.candidate.identityGeneration = identity.generation ∧
    bundleFp prim pending.candidate.localBundle = identity.bundleFp prim ∧
    store.identity e.after = some identity

/-- The record on disk was confirmed under the identity on disk, or under one of a former
generation. -/
def Explained (trace : List (StoreEvent D)) (s : Fs D) : Prop :=
  ∀ record, store.stored s = some record → ∃ identity current,
    ConfirmedUnder prim store trace record identity ∧ store.identity s = some current ∧
      (current = identity ∨ identity.generation.toNat < current.generation.toNat)

variable {prim debugAssertions store}

variable {record : PairingRecord}

theorem ConfirmedUnder.append {trace : List (StoreEvent D)} {identity : Identity}
    (h : ConfirmedUnder prim store trace record identity) (e : StoreEvent D) :
    ConfirmedUnder prim store (trace ++ [e]) record identity := by
  obtain ⟨e', he', h⟩ := h
  exact ⟨e', List.mem_append_left _ he', h⟩

variable {after : Option Identity}

theorem IdentityMove.of_some {call : StoreCall} {current : Identity}
    (h : IdentityMove call (some current) after) :
    ∃ identity, after = some identity ∧ (identity = current ∨
      identity.generation.toNat = current.generation.toNat + 1) := by
  cases h with
  | kept => exact ⟨current, rfl, .inl rfl⟩
  | rotated request generation => exact ⟨_, rfl, .inr (toNat_generation_add_one generation)⟩

theorem Explained.next {trace : List (StoreEvent D)} {s s' : Fs D} {call : StoreCall}
    (h : Explained prim store trace s) (hleaves : call.Leaves prim debugAssertions store s s') :
    Explained prim store (trace ++ [⟨call, s, s'⟩]) s' := by
  obtain ⟨hidentity, hpairing⟩ := hleaves
  intro record hstored
  generalize hafter : store.identity s' = after at hpairing hidentity
  generalize hbytes : s.files store.pairingPath = bytes at hpairing
  generalize hbytes' : s'.files store.pairingPath = bytes' at hpairing
  rw [PairingStore.stored, hbytes'] at hstored
  cases hpairing with
  | kept =>
    have hbefore : store.stored s = some record := by
      rw [PairingStore.stored, hbytes]
      exact hstored
    obtain ⟨identity, current, hconfirmed, hcurrent, horder⟩ := h record hbefore
    rw [hcurrent] at hidentity
    obtain ⟨new, rfl, hnew⟩ := hidentity.of_some
    refine ⟨identity, new, hconfirmed.append _, rfl, ?_⟩
    obtain rfl | hnew := hnew
    · exact horder
    · obtain rfl | horder := horder
      · exact .inr (by omega)
      · exact .inr (by omega)
  | removed request => cases hstored
  | written request confirmed generation fingerprint valid =>
    rw [Option.bind_some, PairingRecord.fromSlice_toVec] at hstored
    cases hstored
    exact ⟨_, _, ⟨_, List.mem_append_right _ (List.mem_singleton_self _), _, _, request,
      confirmed, rfl, generation, fingerprint, hafter⟩, rfl, .inl rfl⟩

theorem Explained.confirmedUnder {trace : List (StoreEvent D)} {s s' : Fs D} {fresh : Key × Key}
    {identity : Identity} (h : Explained prim store trace s) (hloaded : Loaded store fresh s s')
    (hidentity : store.identity s' = some identity) (hstored : store.stored s' = some record)
    (hgeneration : record.identityGeneration = identity.generation) :
    ConfirmedUnder prim store trace record identity := by
  have hbefore : store.stored s = some record := by
    rw [PairingStore.stored, ← hloaded.1.1]
    exact hstored
  obtain ⟨former, current, hconfirmed, hcurrent, horder⟩ := h record hbefore
  have hsame : current = identity := by
    obtain hsame | ⟨hnone, -⟩ := hloaded.2
    · exact Option.some.inj ((hsame.trans hcurrent).symm.trans hidentity)
    · rw [hnone] at hcurrent
      cases hcurrent
  have hformer : record.identityGeneration = former.generation := by
    obtain ⟨e, -, pending, sas, -, -, rfl, hpending, -, -⟩ := hconfirmed
    exact hpending
  obtain rfl | hlt := horder
  · rw [← hsame]
    exact hconfirmed
  · rw [hsame, ← hgeneration, hformer] at hlt
    exact (lt_irrefl _ hlt).elim

variable [DecidableEq D]

variable (prim debugAssertions store) in
/-- Any sequence of calls, each of which may be cut off, on a directory that starts without a
record. -/
inductive StoreRun : List (StoreEvent D) → Fs D → Prop where
  | start {s : Fs D} (unpaired : s.files store.pairingPath = none) : StoreRun [] s
  | next {trace : List (StoreEvent D)} {s s' : Fs D} {call : StoreCall}
      {rest : FsProgram D call.request.Value} (run : StoreRun trace s)
      (steps : Steps Fs.exec (call.program prim debugAssertions store) s rest s') :
      StoreRun (trace ++ [⟨call, s, s'⟩]) s'

variable {trace : List (StoreEvent D)} {s : Fs D}

theorem StoreRun.explained (hrun : StoreRun prim debugAssertions store trace s) :
    Explained prim store trace s := by
  induction hrun with
  | start unpaired =>
    intro record hstored
    rw [PairingStore.stored, unpaired] at hstored
    cases hstored
  | next run steps ih => exact ih.next (StoreCall.leaves_of_steps steps)

theorem StoreRun.leaves (hrun : StoreRun prim debugAssertions store trace s) :
    ∀ e ∈ trace, e.call.Leaves prim debugAssertions store e.before e.after := by
  induction hrun with
  | start => simp
  | next run steps ih =>
    intro e he
    obtain he | he := List.mem_append.1 he
    · exact ih e he
    · rw [List.mem_singleton.1 he]
      exact StoreCall.leaves_of_steps steps

theorem StoreRun.generation_le (hrun : StoreRun prim debugAssertions store trace s) :
    ∀ e ∈ trace, ∀ old, store.identity e.before = some old →
      ∃ current, store.identity s = some current ∧
        old.generation.toNat ≤ current.generation.toNat := by
  induction hrun with
  | start => simp
  | @next trace s s' call rest run steps ih =>
    have hmove : IdentityMove call (store.identity s) (store.identity s') :=
      (StoreCall.leaves_of_steps steps).1
    have hstep : ∀ current, store.identity s = some current →
        ∃ new, store.identity s' = some new ∧
          current.generation.toNat ≤ new.generation.toNat := by
      intro current hcurrent
      rw [hcurrent] at hmove
      obtain ⟨new, hnew, rfl | hgeneration⟩ := hmove.of_some
      · exact ⟨new, hnew, le_rfl⟩
      · exact ⟨new, hnew, by omega⟩
    intro e he old hold
    obtain he | he := List.mem_append.1 he
    · obtain ⟨current, hcurrent, hle⟩ := ih e he old hold
      obtain ⟨new, hnew, hle'⟩ := hstep current hcurrent
      exact ⟨new, hnew, hle.trans hle'⟩
    · rw [List.mem_singleton.1 he] at hold
      exact hstep old hold

theorem PairingMove.eq_of_stale {call : StoreCall} {pending : PendingConfirmation} {sas : String}
    {record record' : Option Bytes}
    (h : PairingMove prim debugAssertions call after record record')
    (hrequest : call.request = .confirm pending sas)
    (hstale : ∀ identity, after = some identity →
      pending.candidate.identityGeneration ≠ identity.generation ∨
      bundleFp prim pending.candidate.localBundle ≠ identity.bundleFp prim) :
    record' = record := by
  cases h with
  | kept => rfl
  | removed request =>
    rw [hrequest] at request
    cases request
  | @written pending' sas' identity record request confirmed generation fingerprint valid =>
    rw [hrequest] at request
    cases request
    obtain hne | hne := hstale identity rfl
    · exact (hne generation).elim
    · exact (hne fingerprint).elim

/-- After any sequence of confirmations, resets and loads, each of which may fail or be cut off
anywhere: a record that is loaded is valid for the identity on disk and was confirmed under it;
a confirmation for another identity changes nothing; the identity that is loaded is the one on
disk, which every call has kept, created or replaced by its successor; and the generation does
not decrease. -/
theorem pairing_store_sound (hrun : StoreRun prim debugAssertions store trace s) :
    (∀ fresh record s', Exec Fs.exec (store.loadPairing prim debugAssertions fresh) s
        (.ok (some record)) s' →
      ∃ identity, store.identity s' = some identity ∧
        validateRecord prim debugAssertions record identity = true ∧
        ConfirmedUnder prim store trace record identity) ∧
    (∀ e ∈ trace, ∀ pending sas, e.call.request = .confirm pending sas →
      (∀ identity, store.identity e.after = some identity →
        pending.candidate.identityGeneration ≠ identity.generation ∨
          bundleFp prim pending.candidate.localBundle ≠ identity.bundleFp prim) →
      e.after.files store.pairingPath = e.before.files store.pairingPath) ∧
    (∀ e ∈ trace, IdentityMove e.call (store.identity e.before) (store.identity e.after)) ∧
    (∀ e ∈ trace, ∀ old, store.identity e.before = some old →
      ∃ current, store.identity s = some current ∧
        old.generation.toNat ≤ current.generation.toNat) ∧
    (∀ fresh identity s', Exec Fs.exec (store.loadIdentity fresh) s (.ok identity) s' →
      store.identity s' = some identity ∧ Loaded store fresh s s') ∧
    ∀ fresh observer secrets identity s',
      Exec Fs.exec (store.resetWithObserver observer fresh secrets) s (.ok identity) s' →
      store.identity s' = some identity ∧ identity.generation.toNat =
        ((store.identity s).getD ⟨fresh.1, fresh.2, 1⟩).generation.toNat + 1 := by
  refine ⟨?_, ?_, fun e he => (hrun.leaves e he).1, hrun.generation_le, ?_, ?_⟩
  · intro fresh record s' hload
    obtain ⟨identity, hidentity, hstored, hgeneration, hvalid⟩ :=
      safe_loadPairing.post hload record rfl
    exact ⟨identity, hidentity, hvalid, hrun.explained.confirmedUnder
      (safe_loadPairing.last hload) hidentity hstored hgeneration⟩
  · intro e he pending sas hrequest hstale
    exact (hrun.leaves e he).2.eq_of_stale hrequest hstale
  · intro fresh identity s' hload
    exact ⟨safe_loadIdentity.post hload identity rfl, safe_loadIdentity.last hload⟩
  · intro fresh observer secrets identity s' hreset
    have hsafe : Safe Fs.exec
        (StoreCall.Leaves prim debugAssertions store ⟨fresh, .reset observer secrets⟩ s) _
        (store.resetWithObserver observer fresh secrets) s := safe_reset_leaves rfl
    exact hsafe.post hreset identity rfl

/-- A record that was put in place is loaded. -/
theorem exec_loadPairing {fresh : Key × Key} {identity : Identity} {s' : Fs D}
    (h : Persisted prim debugAssertions store fresh record identity s s') :
    Exec Fs.exec (store.loadPairing prim debugAssertions fresh) s' (.ok (some record)) s' := by
  obtain ⟨bytes, hbytes, hslice⟩ := Option.bind_eq_some_iff.1 h.current
  have hread : Fs.exec (.read store.identityPath) s' (.ok bytes) s' := ⟨rfl, hbytes⟩
  have hread' : Fs.exec (.read store.pairingPath) s' (.ok record.toVec) s' := ⟨rfl, h.file⟩
  have hload : Exec Fs.exec (store.loadIdentity fresh) s' (.ok identity) s' := by
    refine exec_bind.2 ⟨Identity.fromSlice bytes, s', .call hread (.done _ _), ?_⟩
    cases hfound : Identity.fromSlice bytes with
    | error error => simp [hfound, Except.toOption] at hslice
    | ok found =>
      cases Option.some.inj (show some found = some identity by rw [← hslice, hfound]; rfl)
      exact .done _ _
  refine hload.bind ((exec_perform hread').bind ?_)
  simp only [PairingRecord.fromSlice_toVec]
  rw [if_neg (not_not.2 h.generation), if_pos h.valid]
  exact .done _ _

end Runs

/-! ## A run -/

def sampleReset : StoreCall := ⟨sampleSecrets 1, .reset (fun _ => none) (sampleSecrets 1)⟩

def resetFs : Fs Unit :=
  (((sampleReset.program .sample false ⟨()⟩).run Fs.undisturbed emptyFs).map Prod.snd).getD emptyFs

def renewedPending : PendingConfirmation :=
  ⟨⟨2, sampleQr.server, sampleBundle 1, sampleBundle 2⟩, sampleQr.nonceA⟩

/-- An identity is created and rotated, a pairing is confirmed under it, and the record is
loaded. -/
theorem pairing_store_sound_sample :
    ∃ (store : PairingStore Unit) (trace : List (StoreEvent Unit)) (s : Fs Unit)
      (record : PairingRecord) (identity : Identity),
      StoreRun .sample false store trace s ∧ (∃ e ∈ trace, e.call = sampleReset) ∧
        store.identity s = some identity ∧
        validateRecord .sample false record identity = true ∧
        ConfirmedUnder .sample store trace record identity := by
  obtain ⟨⟨r, s₁⟩, hreset⟩ := Option.isSome_iff_exists.1 (show
    ((sampleReset.program .sample false ⟨()⟩).run Fs.undisturbed emptyFs).isSome = true by
      decide +kernel)
  have hs₁ : resetFs = s₁ := by rw [resetFs, hreset]; rfl
  obtain ⟨record, s, hconfirm⟩ := exec_of_confirms renewedPending 1 resetFs (by decide +kernel)
  rw [hs₁] at hconfirm
  obtain ⟨-, -, _, hpersisted⟩ := (safe_confirm renewedPending _).post hconfirm
  have hrun : StoreRun .sample false ⟨()⟩
      ([] ++ [⟨sampleReset, emptyFs, s₁⟩] ++ [⟨⟨sampleSecrets 1,
        .confirm renewedPending (renewedPending.sas .sample)⟩, s₁, s⟩]) s :=
    .next (.next (.start rfl)
      (exec_of_run Fs.exec_of_undisturbed hreset).steps) hconfirm.steps
  obtain ⟨identity, hsound⟩ := (pairing_store_sound hrun).1 _ record s (exec_loadPairing hpersisted)
  exact ⟨⟨()⟩, _, s, record, identity, hrun, ⟨_, List.mem_cons_self, rfl⟩, hsound⟩

end ClipSync
