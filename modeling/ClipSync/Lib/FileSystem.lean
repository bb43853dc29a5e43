import ClipSync.Lib.Bytes
import ClipSync.Lib.Program
import Mathlib.Logic.Function.Basic

/-!
# Files and atomic replacement

A file system maps paths to contents. Every access can fail, and a failed write
leaves a part of what was to be written. Renaming replaces its target in one step;
`versions` remembers all contents a file has had through it.

`atomicWrite` replaces a file through a temporary one. A program that is cut off in
it leaves the file with its old contents or with the new ones, and an error it
reports does not tell which.
-/

namespace Lib

open Program Function

/-- The errors of an access that a program tells apart. -/
inductive IoError where
  | notFound
  | other (message : String)
deriving DecidableEq

/-- A file name in a directory. -/
structure Path (D : Type) where
  dir : D
  name : String
deriving DecidableEq

structure Fs (D : Type) where
  files : Path D → Option Bytes
  versions : Path D → List Bytes

/-- The accesses to the files. `create` truncates a file that exists, `createNew`
refuses it; `uniqueName` draws a name at random. -/
inductive FsOp (D : Type) where
  | uniqueName
  | createDirAll (dir : D)
  | readDir (dir : D)
  | read (path : Path D)
  | createNew (path : Path D)
  | create (path : Path D)
  | writeAll (path : Path D) (contents : Bytes)
  | syncAll (path : Path D)
  | rename (source target : Path D)
  | syncDir (dir : D)
  | remove (path : Path D)

abbrev FsOp.Res {D : Type} : FsOp D → Type
  | .uniqueName => String
  | .readDir _ => Except IoError (List String)
  | .read _ => Except IoError Bytes
  | .createDirAll _ | .createNew _ | .create _ | .writeAll .. | .syncAll _ | .rename ..
  | .syncDir _ | .remove _ => Except IoError Unit

abbrev FsProgram (D : Type) := Program (FsOp D) FsOp.Res

namespace Fs

variable {D : Type} [DecidableEq D]

def set (s : Fs D) (path : Path D) (contents : Option Bytes) : Fs D :=
  { s with files := update s.files path contents }

/-- The target of a renaming gets the contents of its source. -/
def replace (s : Fs D) (source target : Path D) (contents : Bytes) : Fs D where
  files := update (update s.files source none) target (some contents)
  versions := update s.versions target (s.versions target ++ [contents])

/-- The results and effects an access can have. -/
def exec : (op : FsOp D) → Fs D → op.Res → Fs D → Prop
  | .uniqueName, s, _, s' => s' = s
  | .createDirAll _, s, _, s' => s' = s
  | .readDir dir, s, .ok names, s' =>
    s' = s ∧ ∀ name, name ∈ names ↔ (s.files ⟨dir, name⟩).isSome
  | .readDir _, s, .error _, s' => s' = s
  | .read path, s, .ok contents, s' => s' = s ∧ s.files path = some contents
  | .read path, s, .error .notFound, s' => s' = s ∧ s.files path = none
  | .read _, s, .error (.other _), s' => s' = s
  | .createNew path, s, .ok (), s' => s.files path = none ∧ s' = s.set path (some [])
  | .createNew _, s, .error _, s' => s' = s
  | .create path, s, .ok (), s' => s' = s.set path (some [])
  | .create _, s, .error _, s' => s' = s
  | .writeAll path contents, s, .ok (), s' => s' = s.set path (some contents)
  | .writeAll path contents, s, .error _, s' =>
    ∃ part, part <+: contents ∧ s' = s.set path (some part)
  | .syncAll _, s, _, s' => s' = s
  | .rename source target, s, .ok (), s' =>
    ∃ contents, s.files source = some contents ∧ s' = s.replace source target contents
  | .rename .., s, .error _, s' => s' = s
  | .syncDir _, s, _, s' => s' = s
  | .remove path, s, .ok (), s' => s' = s.set path none
  | .remove path, s, .error .notFound, s' => s' = s ∧ s.files path = none
  | .remove _, s, .error (.other _), s' => s' = s

end Fs

/-! ## What an access leaves alone -/

namespace FsOp

variable {D : Type}

/-- The access changes a file only by renaming to it. -/
def Spares (path : Path D) : FsOp D → Prop
  | .createNew p | .create p | .writeAll p _ | .remove p => p ≠ path
  | .rename source _ => source ≠ path
  | .uniqueName | .createDirAll _ | .readDir _ | .read _ | .syncAll _ | .syncDir _ => True

/-- The access changes nothing in a directory. -/
def Avoids (dir : D) : FsOp D → Prop
  | .createNew p | .create p | .writeAll p _ | .remove p => p.dir ≠ dir
  | .rename source target => source.dir ≠ dir ∧ target.dir ≠ dir
  | .uniqueName | .createDirAll _ | .readDir _ | .read _ | .syncAll _ | .syncDir _ => True

/-- The access does not change a file. -/
def Leaves (path : Path D) : FsOp D → Prop
  | .createNew p | .create p | .writeAll p _ | .remove p => p ≠ path
  | .rename source target => source ≠ path ∧ target ≠ path
  | .uniqueName | .createDirAll _ | .readDir _ | .read _ | .syncAll _ | .syncDir _ => True

/-- The access changes a file other than by renaming. -/
def Writes (path : Path D) : FsOp D → Prop
  | .createNew p | .create p | .writeAll p _ | .remove p => p = path
  | .uniqueName | .createDirAll _ | .readDir _ | .read _ | .syncAll _ | .rename .. | .syncDir _ =>
    False

theorem Writes.ne {path other : Path D} {op : FsOp D} (h : op.Writes path) (hop : op.Spares other) :
    path ≠ other := by
  cases op with
  | createNew p | create p | writeAll p | remove p => exact (h : p = path) ▸ hop
  | _ => exact h.elim

/-- The access has not failed: at most a file was not there. -/
def Succeeds : (op : FsOp D) → op.Res → Prop
  | .uniqueName, _ => True
  | .readDir _, r => r.isOk = true
  | .read _, r => ∀ message, r ≠ .error (.other message)
  | .remove _, r => ∀ message, r ≠ .error (.other message)
  | .createDirAll _, r | .createNew _, r | .create _, r | .writeAll .., r | .syncAll _, r
  | .rename .., r | .syncDir _, r => r = .ok ()

/-- The access makes the file durable as it is. -/
def Syncs (path : Path D) : FsOp D → Prop
  | .syncDir dir => dir = path.dir
  | _ => False

theorem Leaves.spares {path : Path D} {op : FsOp D} (h : op.Leaves path) : op.Spares path := by
  cases op with
  | rename source target => exact h.1
  | _ => exact h

theorem Avoids.leaves {path : Path D} {op : FsOp D} (h : op.Avoids path.dir) : op.Leaves path := by
  have hne : ∀ p : Path D, p.dir ≠ path.dir → p ≠ path := fun _ hdir hp => hdir (congrArg _ hp)
  cases op with
  | createNew p | create p | writeAll p | remove p => exact hne p h
  | rename source target => exact ⟨hne source h.1, hne target h.2⟩
  | _ => trivial

end FsOp

namespace Fs

variable {D : Type} [DecidableEq D] {s s' : Fs D}

/-- The accesses that do not fail. -/
def succeed (op : FsOp D) (s : Fs D) (r : op.Res) (s' : Fs D) : Prop :=
  exec op s r s' ∧ op.Succeeds r

theorem set_files_of_ne {path other : Path D} (h : path ≠ other) (contents : Option Bytes) :
    (s.set path contents).files other = s.files other :=
  update_of_ne h.symm _ _

variable {source target path : Path D} {contents : Bytes}

theorem replace_files_target : (s.replace source target contents).files target = some contents :=
  update_self _ _ _

theorem replace_files_of_ne (hsource : path ≠ source) (htarget : path ≠ target) :
    (s.replace source target contents).files path = s.files path := by
  simp only [replace, update_of_ne htarget, update_of_ne hsource]

theorem replace_files_source (h : source ≠ target) :
    (s.replace source target contents).files source = none := by
  simp only [replace, update_of_ne h, update_self]

theorem replace_versions_target :
    (s.replace source target contents).versions target = s.versions target ++ [contents] :=
  update_self _ _ _

theorem replace_versions_of_ne (htarget : path ≠ target) :
    (s.replace source target contents).versions path = s.versions path :=
  update_of_ne htarget _ _

variable {op : FsOp D} {r : op.Res}

theorem exec_cases (h : exec op s r s') :
    s' = s ∨
    (∃ path contents, s' = s.set path contents ∧ op.Writes path) ∨
    ∃ source target contents, op = .rename source target ∧
      s.files source = some contents ∧ s' = s.replace source target contents := by
  cases op with
  | uniqueName | createDirAll _ | syncAll _ | syncDir _ => exact .inl h
  | readDir dir =>
    cases r with
    | ok names => exact .inl h.1
    | error e => exact .inl h
  | read path =>
    match r, h with
    | .ok contents, h => exact .inl h.1
    | .error .notFound, h => exact .inl h.1
    | .error (.other _), h => exact .inl h
  | createNew path =>
    cases r with
    | ok u => exact .inr (.inl ⟨path, _, h.2, rfl⟩)
    | error e => exact .inl h
  | create path =>
    cases r with
    | ok u => exact .inr (.inl ⟨path, _, h, rfl⟩)
    | error e => exact .inl h
  | writeAll path contents =>
    cases r with
    | ok u => exact .inr (.inl ⟨path, _, h, rfl⟩)
    | error e =>
      obtain ⟨part, -, h⟩ := h
      exact .inr (.inl ⟨path, _, h, rfl⟩)
  | rename source target =>
    cases r with
    | ok u =>
      obtain ⟨contents, hsource, h⟩ := h
      exact .inr (.inr ⟨source, target, contents, rfl, hsource, h⟩)
    | error e => exact .inl h
  | remove path =>
    match r, h with
    | .ok (), h => exact .inr (.inl ⟨path, _, h, rfl⟩)
    | .error .notFound, h => exact .inl h.1
    | .error (.other _), h => exact .inl h

/-- Versions are only added. -/
theorem versions_subset (h : exec op s r s') (path : Path D) :
    s.versions path ⊆ s'.versions path := by
  rcases exec_cases h with rfl | ⟨_, _, rfl, -⟩ | ⟨source, target, contents, -, -, rfl⟩
  · exact fun _ => id
  · exact fun _ => id
  · by_cases hpath : path = target
    · rw [hpath, replace_versions_target]
      exact List.subset_append_left _ _
    · rw [replace_versions_of_ne hpath]
      exact fun _ => id

/-- The contents of a file are one of its versions. -/
def IsVersion (path : Path D) (s : Fs D) : Prop :=
  ∀ contents, s.files path = some contents → contents ∈ s.versions path

theorem isVersion_exec (hop : op.Spares path) (h : exec op s r s') (hs : s.IsVersion path) :
    s'.IsVersion path := by
  rcases exec_cases h with rfl | ⟨p, c, rfl, hwrites⟩ | ⟨source, target, c, rfl, -, rfl⟩
  · exact hs
  · intro contents hfile
    rw [set_files_of_ne (hwrites.ne hop)] at hfile
    exact hs contents hfile
  · intro contents hfile
    by_cases hpath : path = target
    · rw [hpath, replace_files_target] at hfile
      rw [hpath, replace_versions_target, Option.some.inj hfile]
      simp
    · rw [replace_files_of_ne (Ne.symm hop) hpath] at hfile
      rw [replace_versions_of_ne hpath]
      exact hs contents hfile

theorem files_of_leaves (hop : op.Leaves path) (h : exec op s r s') :
    s'.files path = s.files path := by
  rcases exec_cases h with rfl | ⟨p, c, rfl, hwrites⟩ | ⟨source, target, c, rfl, -, rfl⟩
  · rfl
  · exact set_files_of_ne (hwrites.ne hop.spares) _
  · exact replace_files_of_ne hop.1.symm hop.2.symm

theorem files_of_avoids (hop : op.Avoids path.dir) (h : exec op s r s') :
    s'.files path = s.files path :=
  files_of_leaves hop.leaves h

/-- A program that does not change a file. -/
theorem safe_leaves {α : Type} {p : Program (FsOp D) FsOp.Res α}
    (hops : p.AllOps (FsOp.Leaves path)) :
    Safe exec (fun s' => s'.files path = s.files path)
      (fun _ s' => s'.files path = s.files path) p s := by
  refine ((safe_true p s).and (K := fun s' => s'.files path = s.files path)
    (fun _ _ _ _ hop hexec h => ?_) hops rfl).mono (fun _ h => h.2) fun _ _ _ h => h.2
  exact (files_of_leaves hop hexec).trans h

end Fs

/-! ## Atomic replacement -/

/-- How the temporary file is opened, whether it is removed when its replacement of
the target fails, and whether the directory is synced afterwards. -/
structure WriteMode where
  exclusive : Bool
  cleanup : Bool
  syncDir : Bool

namespace FsProgram

variable {D : Type}

def access (op : FsOp D) : FsProgram D op.Res := perform op

def openTemp (mode : WriteMode) (temp : Path D) : FsProgram D (Except IoError Unit) :=
  if mode.exclusive then perform (.createNew temp : FsOp D)
  else perform (.create temp : FsOp D)

/-- A failure before the temporary file has become the target. -/
def abandon (mode : WriteMode) (temp place : Path D) (error : IoError) :
    FsProgram D (Except (Path D × IoError) Unit) := do
  if mode.cleanup then
    let _ ← access (.remove temp)
  return .error (place, error)

/-- Writes `contents` to `temp`, syncs it and renames it to `path`. An error comes
with the path it occurred at. -/
def atomicWrite (mode : WriteMode) (temp path : Path D) (contents : Bytes) :
    FsProgram D (Except (Path D × IoError) Unit) := do
  match ← openTemp mode temp with
  | .error error => return .error (temp, error)
  | .ok () =>
  match ← access (.writeAll temp contents) with
  | .error error => abandon mode temp temp error
  | .ok () =>
  match ← access (.syncAll temp) with
  | .error error => abandon mode temp temp error
  | .ok () =>
  match ← access (.rename temp path) with
  | .error error => abandon mode temp path error
  | .ok () =>
  if mode.syncDir then
    match ← access (.syncDir path.dir) with
    | .error error => return .error (path, error)
    | .ok () => return .ok ()
  else return .ok ()

section Accesses

variable {mode : WriteMode} {temp path : Path D} {contents : Bytes}

theorem atomicWrite_allOps {P : FsOp D → Prop} (hnew : P (.createNew temp))
    (hcreate : P (.create temp)) (hwrite : P (.writeAll temp contents))
    (hsync : P (.syncAll temp)) (hrename : P (.rename temp path)) (hdir : P (.syncDir path.dir))
    (hremove : P (.remove temp)) : AllOps P (atomicWrite mode temp path contents) := by
  have habandon : ∀ place error, AllOps P (abandon mode temp place error) := by
    intro place error
    unfold abandon
    split
    · exact ⟨hremove, fun _ => trivial⟩
    · trivial
  have hopen : AllOps P (openTemp mode temp) := by
    unfold openTemp
    split
    · exact ⟨hnew, fun _ => trivial⟩
    · exact ⟨hcreate, fun _ => trivial⟩
  refine allOps_bind hopen ?_
  rintro (e | u)
  · trivial
  refine ⟨hwrite, ?_⟩
  rintro (e | u)
  · exact habandon _ _
  refine ⟨hsync, ?_⟩
  rintro (e | u)
  · exact habandon _ _
  refine ⟨hrename, ?_⟩
  rintro (e | u)
  · exact habandon _ _
  change AllOps P (if mode.syncDir = true then _ else _)
  split
  · refine ⟨hdir, ?_⟩
    rintro (e | u) <;> trivial
  · trivial

end Accesses

variable [DecidableEq D]

/-- Only the temporary file differs, or the target has been replaced. -/
def Between (s : Fs D) (temp path : Path D) (contents : Bytes) (s' : Fs D) : Prop :=
  (∃ t, s' = s.set temp t) ∨ s' = s.replace temp path contents

variable {s s' : Fs D} {mode : WriteMode} {temp path : Path D} {contents : Bytes}

theorem set_set (t u : Option Bytes) : (s.set temp t).set temp u = s.set temp u := by
  simp [Fs.set]

theorem set_self : s.set temp (s.files temp) = s := by
  simp [Fs.set]

theorem set_replace (t : Option Bytes) :
    (s.set temp t).replace temp path contents = s.replace temp path contents := by
  simp [Fs.set, Fs.replace]

theorem safe_abandon {Q : Except (Path D × IoError) Unit → Fs D → Prop} {place : Path D}
    {error : IoError} {t : Option Bytes} (hQ : ∀ u, Q (.error (place, error)) (s.set temp u)) :
    Safe Fs.exec (Between s temp path contents) Q (abandon mode temp place error)
      (s.set temp t) := by
  have hdone : ∀ u, Safe Fs.exec (Between s temp path contents) Q
      (done (.error (place, error))) (s.set temp u) := fun u => ⟨.inl ⟨u, rfl⟩, hQ u⟩
  unfold abandon
  split
  · refine ⟨.inl ⟨t, rfl⟩, fun r s' hexec => ?_⟩
    match r, hexec with
    | .ok (), hexec =>
      cases hexec
      rw [set_set]
      exact hdone none
    | .error .notFound, ⟨hexec, _⟩ =>
      cases hexec
      exact hdone t
    | .error (.other _), hexec =>
      cases hexec
      exact hdone t
  · exact hdone t

theorem safe_openTemp :
    Safe Fs.exec (Between s temp path contents) (fun _ s' => ∃ t, s' = s.set temp t)
      (openTemp mode temp) s := by
  have hstart : ∃ t, s = s.set temp t := ⟨_, set_self.symm⟩
  have hdone : ∀ r s', (∃ t, s' = s.set temp t) →
      Safe Fs.exec (Between s temp path contents) (fun _ s' => ∃ t, s' = s.set temp t)
        (done r : FsProgram D (Except IoError Unit)) s' := fun r s' h => ⟨.inl h, h⟩
  unfold openTemp
  split
  · refine ⟨.inl hstart, fun r s' hexec => hdone r s' ?_⟩
    cases r with
    | ok u => exact ⟨_, hexec.2⟩
    | error e => exact hexec ▸ hstart
  · refine ⟨.inl hstart, fun r s' hexec => hdone r s' ?_⟩
    cases r with
    | ok u => exact ⟨_, hexec⟩
    | error e => exact hexec ▸ hstart

/-- What a replacement leaves. An error that comes before the renaming leaves only the
temporary file, and only the sync of the directory can fail after it. -/
def Replaced (mode : WriteMode) (s : Fs D) (temp path : Path D) (contents : Bytes) :
    Except (Path D × IoError) Unit → Fs D → Prop
  | .ok (), s' => s' = s.replace temp path contents
  | .error _, s' => (∃ t, s' = s.set temp t) ∨
      mode.syncDir = true ∧ s' = s.replace temp path contents

theorem safe_replaced (s : Fs D) :
    Safe Fs.exec (Between s temp path contents) (Replaced mode s temp path contents)
      (atomicWrite mode temp path contents) s := by
  refine Safe.bind safe_openTemp ?_
  rintro (e | u) _ - ⟨t, rfl⟩
  · exact ⟨.inl ⟨t, rfl⟩, .inl ⟨t, rfl⟩⟩
  refine ⟨.inl ⟨t, rfl⟩, fun r s₁ hwrite => ?_⟩
  cases r with
  | error e =>
    obtain ⟨part, -, rfl⟩ := hwrite
    rw [set_set]
    exact safe_abandon fun u => .inl ⟨u, rfl⟩
  | ok u =>
  cases hwrite
  rw [set_set]
  refine ⟨.inl ⟨_, rfl⟩, fun r s₂ hsync => ?_⟩
  cases hsync
  cases r with
  | error e => exact safe_abandon fun u => .inl ⟨u, rfl⟩
  | ok u =>
  refine ⟨.inl ⟨_, rfl⟩, fun r s₃ hrename => ?_⟩
  cases r with
  | error e =>
    cases hrename
    exact safe_abandon fun u => .inl ⟨u, rfl⟩
  | ok u =>
  obtain ⟨found, hfound, rfl⟩ := hrename
  have hcontents : found = contents := by simpa [Fs.set, eq_comm] using hfound
  rw [hcontents, set_replace]
  change Safe _ _ _ (if mode.syncDir = true then _ else _) _
  split
  · rename_i hmode
    refine ⟨.inr rfl, fun r s₄ hsync => ?_⟩
    cases hsync
    cases r with
    | error e => exact ⟨.inr rfl, .inr ⟨hmode, rfl⟩⟩
    | ok u => exact ⟨.inr rfl, rfl⟩
  · exact ⟨.inr rfl, rfl⟩

/-- A replacement that reports success has happened, and until it happens only the
temporary file changes. -/
theorem safe_atomicWrite (s : Fs D) :
    Safe Fs.exec (Between s temp path contents)
      (fun r s' => r = .ok () → s' = s.replace temp path contents)
      (atomicWrite mode temp path contents) s := by
  refine (safe_replaced s).imp ?_
  rintro (e | u) s' - h hok
  · cases hok
  · exact h

/-- Without a failure the target is replaced. -/
theorem total_atomicWrite (htemp : mode.exclusive = true → s.files temp = none) :
    Total Fs.succeed (fun r s' => r = .ok () ∧ s' = s.replace temp path contents)
      (atomicWrite mode temp path contents) s := by
  have hopen : Total Fs.succeed (fun r s' => r = .ok () ∧ s' = s.set temp (some []))
      (openTemp mode temp) s := by
    unfold openTemp
    split
    · rename_i hmode
      refine ⟨⟨.ok (), _, ⟨htemp hmode, rfl⟩, rfl⟩, ?_⟩
      rintro r s' ⟨hexec, rfl⟩
      exact ⟨rfl, hexec.2⟩
    · refine ⟨⟨.ok (), _, rfl, rfl⟩, ?_⟩
      rintro r s' ⟨hexec, rfl⟩
      exact ⟨rfl, hexec⟩
  refine hopen.bind ?_
  rintro _ _ ⟨rfl, rfl⟩
  refine ⟨⟨.ok (), _, rfl, rfl⟩, ?_⟩
  rintro _ _ ⟨hwrite, rfl⟩
  cases hwrite
  rw [set_set]
  refine ⟨⟨.ok (), _, rfl, rfl⟩, ?_⟩
  rintro _ _ ⟨hsync, rfl⟩
  cases hsync
  have hcontents : (s.set temp (some contents)).files temp = some contents :=
    update_self _ _ _
  refine ⟨⟨.ok (), _, ⟨contents, hcontents, rfl⟩, rfl⟩, ?_⟩
  rintro _ _ ⟨hrename, rfl⟩
  obtain ⟨found, hfound, hrename⟩ := hrename
  rw [hcontents] at hfound
  cases hfound
  rw [set_replace] at hrename
  cases hrename
  change Total _ _ (if mode.syncDir = true then _ else _) _
  split
  · refine ⟨⟨.ok (), _, rfl, rfl⟩, ?_⟩
    rintro _ _ ⟨hdir, rfl⟩
    cases hdir
    exact ⟨rfl, rfl⟩
  · exact ⟨rfl, rfl⟩

theorem exec_atomicWrite (htemp : mode.exclusive = true → s.files temp = none) :
    Exec Fs.succeed (atomicWrite mode temp path contents) s (.ok ())
      (s.replace temp path contents) := by
  obtain ⟨_, _, hexec, rfl, rfl⟩ := (total_atomicWrite htemp).exists_exec
  exact hexec

end FsProgram

/-! ## A disk that works -/

namespace Fs

variable {D : Type} [DecidableEq D]

/-- The effect of an access that does not fail. Directories are not listed. -/
def undisturbed : (op : FsOp D) → Fs D → Option (op.Res × Fs D)
  | .uniqueName, s => some ("", s)
  | .readDir _, _ => none
  | .read path, s => some (((s.files path).map .ok).getD (.error .notFound), s)
  | .createNew path, s =>
    if s.files path = none then some (.ok (), s.set path (some [])) else none
  | .create path, s => some (.ok (), s.set path (some []))
  | .writeAll path contents, s => some (.ok (), s.set path (some contents))
  | .rename source target, s =>
    (s.files source).map fun contents => (.ok (), s.replace source target contents)
  | .remove path, s => some (.ok (), s.set path none)
  | .createDirAll _, s | .syncAll _, s | .syncDir _, s => some (.ok (), s)

theorem exec_of_undisturbed (op : FsOp D) (s : Fs D) (r : op.Res) (s' : Fs D)
    (h : undisturbed op s = some (r, s')) : exec op s r s' := by
  cases op with
  | readDir dir => cases h
  | read path =>
    cases h
    cases hfile : s.files path with
    | some contents => exact ⟨rfl, hfile⟩
    | none => exact ⟨rfl, hfile⟩
  | createNew path =>
    rw [undisturbed] at h
    split at h
    · rename_i hnone
      cases h
      exact ⟨hnone, rfl⟩
    · cases h
  | rename source target =>
    obtain ⟨contents, hcontents, heq⟩ := Option.map_eq_some_iff.1 h
    cases heq
    exact ⟨contents, hcontents, rfl⟩
  | _ =>
    cases h
    rfl

/-- The accesses that fail. A failed write leaves an empty file. -/
def disturbed : (op : FsOp D) → Fs D → Option (op.Res × Fs D)
  | .uniqueName, _ => none
  | .writeAll path _, s => some (.error (.other ""), s.set path (some []))
  | .createDirAll _, s | .readDir _, s | .read _, s | .createNew _, s | .create _, s
  | .syncAll _, s | .rename .., s | .syncDir _, s | .remove _, s => some (.error (.other ""), s)

theorem exec_of_disturbed {op : FsOp D} {s s' : Fs D} {r : op.Res}
    (h : disturbed op s = some (r, s')) : exec op s r s' := by
  cases op with
  | uniqueName => cases h
  | writeAll path contents =>
    cases h
    exact ⟨[], List.nil_prefix, rfl⟩
  | _ =>
    cases h
    rfl

end Fs

end Lib
