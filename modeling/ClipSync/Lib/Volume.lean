import ClipSync.Lib.FileSystem

/-!
# Files under loss of power

A volume remembers, for every path, the contents that a loss of power may leave there. A
renaming adds to them, and they are down to what is there now once the directory has been
synced or the system has written it back by itself. No access fails here.
-/

namespace Lib

open Program

/-- Files, with the contents that each may have after a loss of power. -/
structure Volume (D : Type) where
  fs : Fs D
  candidates : Path D → List (Option Bytes)

namespace Volume

variable {D : Type} [DecidableEq D] {v v' : Volume D} {op : FsOp D} {r : op.Res} {path : Path D}

/-- The files of a directory may be written back at any time, and are when it is synced. -/
def access (op : FsOp D) (v : Volume D) (r : op.Res) (v' : Volume D) : Prop :=
  Fs.exec op v.fs r v'.fs ∧ op.Succeeds r ∧ ∀ path,
    v'.candidates path = [v'.fs.files path] ∨
    ¬ op.Syncs path ∧ v'.candidates path =
      if v'.fs.files path = v.fs.files path then v.candidates path
      else v.candidates path ++ [v'.fs.files path]

/-- A loss of power leaves one of the candidates in every place. -/
def Loses (v v' : Volume D) : Prop :=
  (∀ path, v'.fs.files path ∈ v.candidates path) ∧ v'.fs.versions = v.fs.versions ∧
    ∀ path, v'.candidates path = [v'.fs.files path]

omit [DecidableEq D] in
theorem Loses.synced (h : v.Loses v') {contents : Option Bytes}
    (hmem : contents ∈ v'.candidates path) : contents = v'.fs.files path := by
  rw [h.2.2] at hmem
  exact List.mem_singleton.1 hmem

theorem mem_candidates (h : access op v r v') {contents : Option Bytes}
    (hmem : contents ∈ v'.candidates path) :
    contents ∈ v.candidates path ∨ contents = v'.fs.files path := by
  rcases h.2.2 path with hsynced | ⟨-, htracked⟩
  · rw [hsynced] at hmem
    exact .inr (List.mem_singleton.1 hmem)
  · rw [htracked] at hmem
    split at hmem
    · exact .inl hmem
    · simpa using hmem

/-- The contents that are there now are a candidate. -/
def Current (path : Path D) (v : Volume D) : Prop := v.fs.files path ∈ v.candidates path

theorem Current.access (hv : v.Current path) (h : access op v r v') : v'.Current path := by
  unfold Current at *
  rcases h.2.2 path with hsynced | ⟨-, htracked⟩
  · rw [hsynced]
    exact List.mem_singleton_self _
  · rw [htracked]
    split
    · rename_i hfile
      exact hfile ▸ hv
    · simp

/-- The file is durable as it is. -/
def Synced (path : Path D) (v : Volume D) : Prop :=
  ∀ contents ∈ v.candidates path, contents = v.fs.files path

/-- How a file that is not accessed can change: some of its candidates may be gone. -/
structure Untouched (path : Path D) (v v' : Volume D) : Prop where
  file : v'.fs.files path = v.fs.files path
  candidates : v'.candidates path ⊆ v.candidates path
  current : v'.Current path

omit [DecidableEq D] in
theorem Untouched.synced (h : Untouched path v v') (hv : v.Synced path) : v'.Synced path :=
  fun contents hmem => (hv contents (h.candidates hmem)).trans h.file.symm

omit [DecidableEq D] in
theorem Untouched.trans {v'' : Volume D} (h : Untouched path v v') (h' : Untouched path v' v'') :
    Untouched path v v'' :=
  ⟨h'.file.trans h.file, fun _ hmem => h.candidates (h'.candidates hmem), h'.current⟩

theorem Untouched.of_access (hv : v.Current path) (h : access op v r v') (hop : op.Leaves path) :
    Untouched path v v' := by
  have hfile := Fs.files_of_leaves hop h.1
  refine ⟨hfile, fun contents hmem => ?_, hv.access h⟩
  rcases mem_candidates h hmem with hold | hnow
  · exact hold
  · rw [hnow, hfile]
    exact hv

variable {contents : Bytes} {old : Option Bytes} {temp : Path D} {α : Type} {mode : WriteMode}

theorem safe_current (p : FsProgram D α) (hv : v.Current path) :
    Safe access (Current path) (fun _ => Current path) p v :=
  ((safe_true p v).and (K := Current path) (fun _ _ _ _ _ hexec h => h.access hexec)
    (allOps_true p) hv).mono (fun _ h => h.2) fun _ _ _ h => h.2

theorem safe_untouched {p : FsProgram D α} (hops : p.AllOps (FsOp.Leaves path))
    (hv : v.Current path) : Safe access (Untouched path v) (fun _ => Untouched path v) p v := by
  refine ((safe_true p v).and (K := Untouched path v) (fun _ _ _ _ hop hexec h => ?_) hops
    ⟨rfl, fun _ => id, hv⟩).mono (fun _ h => h.2) fun _ _ _ h => h.2
  exact h.trans (.of_access h.current hexec hop)

/-- The file still is what it was, and only the new contents may be there after a loss. -/
structure Pending (path : Path D) (old : Option Bytes) (contents : Bytes) (v : Volume D) :
    Prop where
  file : v.fs.files path = old
  candidates : ∀ c ∈ v.candidates path, c = old ∨ c = some contents

theorem Pending.access (h : Pending path old contents v) (hexec : access op v r v')
    (hop : op.Leaves path) : Pending path old contents v' := by
  have hfile := (Fs.files_of_leaves hop hexec.1).trans h.file
  refine ⟨hfile, fun c hc => ?_⟩
  rcases mem_candidates hexec hc with hold | hnow
  · exact h.candidates c hold
  · exact .inl (hnow.trans hfile)

theorem safe_openTemp_pending (htemp : temp ≠ path) (h : Pending path old contents v) :
    Safe access (fun v' => ∀ c ∈ v'.candidates path, c = old ∨ c = some contents)
      (fun r v' => r = .ok () ∧ Pending path old contents v')
      (FsProgram.openTemp mode temp) v := by
  have hleaves : FsOp.Leaves path (.createNew temp) ∧ FsOp.Leaves path (.create temp) :=
    ⟨htemp, htemp⟩
  unfold FsProgram.openTemp
  split
  · refine ⟨h.candidates, fun r v' hexec => ?_⟩
    have h' := h.access hexec hleaves.1
    exact ⟨h'.candidates, hexec.2.1, h'⟩
  · refine ⟨h.candidates, fun r v' hexec => ?_⟩
    have h' := h.access hexec hleaves.2
    exact ⟨h'.candidates, hexec.2.1, h'⟩

/-- A replacement with a sync of the directory is durable at its end. Until then the file
may still have what it had. -/
theorem safe_atomicWrite_synced (hmode : mode.syncDir = true) (htemp : temp ≠ path)
    (hv : v.Synced path) :
    Safe access
      (fun v' => ∀ c ∈ v'.candidates path, c = v.fs.files path ∨ c = some contents)
      (fun r v' => r = .ok () ∧ v'.Synced path ∧ v'.Current path ∧
        v'.fs.files path = some contents)
      (FsProgram.atomicWrite mode temp path contents) v := by
  have h : Pending path (v.fs.files path) contents v := ⟨rfl, fun c hc => .inl (hv c hc)⟩
  generalize v.fs.files path = old at h
  refine Safe.bind (safe_openTemp_pending htemp h) ?_
  rintro _ v₁ - ⟨rfl, h₁⟩
  refine ⟨h₁.candidates, fun r v₂ hwrite => ?_⟩
  have h₂ : Pending path old contents v₂ := h₁.access hwrite htemp
  cases hwrite.2.1
  have htemp₂ : v₂.fs.files temp = some contents := by
    have hset : v₂.fs = v₁.fs.set temp (some contents) := hwrite.1
    rw [hset]
    exact Function.update_self _ _ _
  refine ⟨h₂.candidates, fun r v₃ hsync => ?_⟩
  have h₃ : Pending path old contents v₃ := h₂.access hsync trivial
  cases hsync.2.1
  have hsame : v₃.fs = v₂.fs := hsync.1
  refine ⟨h₃.candidates, fun r v₄ hrename => ?_⟩
  cases hrename.2.1
  obtain ⟨found, hfound, hreplace⟩ := hrename.1
  have hcontents : found = contents := by
    rw [hsame, htemp₂] at hfound
    exact (Option.some.inj hfound).symm
  have hfile : v₄.fs.files path = some contents := by
    rw [hreplace, hcontents, Fs.replace_files_target]
  have hcandidates : ∀ c ∈ v₄.candidates path, c = old ∨ c = some contents := by
    intro c hc
    rcases mem_candidates hrename hc with hold | hnow
    · exact h₃.candidates c hold
    · exact .inr (hnow.trans hfile)
  change Safe _ _ _ (if mode.syncDir = true then _ else _) _
  rw [if_pos hmode]
  refine ⟨hcandidates, fun r v₅ hdir => ?_⟩
  cases hdir.2.1
  have hsame₅ : v₅.fs = v₄.fs := hdir.1
  have hsynced : v₅.candidates path = [v₅.fs.files path] :=
    (hdir.2.2 path).resolve_right fun h => h.1 rfl
  have hfile₅ : v₅.fs.files path = some contents := by rw [hsame₅, hfile]
  rw [hfile₅] at hsynced
  refine ⟨fun c hc => .inr ?_, rfl, fun c hc => ?_, ?_, hfile₅⟩
  · rw [hsynced] at hc
    exact List.mem_singleton.1 hc
  · rw [hsynced] at hc
    rw [hfile₅]
    exact List.mem_singleton.1 hc
  · rw [Current, hsynced, hfile₅]
    exact List.mem_singleton_self _

end Volume

end Lib
