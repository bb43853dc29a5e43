import ClipSync.Core.Uuid
import ClipSync.Lib.FileSystem

/-!
# The clipboard history

`HistoryStore` of `crates/core/src/history.rs`: a list of at most fifty items, kept
in memory and in a file of one JSON line per item, with the bytes of an image in a
file of its own. Every change writes the whole list through a temporary file.
-/

namespace ClipSync

open Lib Program FsProgram

/-- The directories of an endpoint: the session's, the history's and its images. -/
inductive Dir where
  | session
  | history
  | images
deriving DecidableEq

def historyCap : ℕ := 50

inductive HistorySource where
  | local'
  | remote
  | remoteDeferred
deriving DecidableEq

inductive HistoryContent where
  | text (content : String)
  | image (bytes : Bytes)
deriving DecidableEq

structure NewHistoryItem where
  id : Uuid
  tsMs : Int64
  source : HistorySource
  content : HistoryContent

inductive HistoryKind where
  | text (content : String)
  | image (fileName : String)
deriving DecidableEq

def HistoryKind.imageFileName : HistoryKind → Option String
  | .text _ => none
  | .image fileName => some fileName

structure HistoryItem where
  id : Uuid
  tsMs : Int64
  kind : HistoryKind
  source : HistorySource
deriving DecidableEq

inductive HistoryError where
  | io (path : Path Dir) (source : IoError)
  | unknownItem (id : Uuid)
  | notImage (id : Uuid)
deriving DecidableEq

/-- The JSON of one metadata line, as far as the store depends on it: a written line
is read back, and it is neither empty nor broken by a newline. -/
structure LineCodec where
  toLine : HistoryItem → Bytes
  fromLine : Bytes → Option HistoryItem
  fromLine_toLine : ∀ item, fromLine (toLine item) = some item
  newline_notMem : ∀ item, 10 ∉ toLine item
  toLine_ne_nil : ∀ item, toLine item ≠ []

/-- The items in memory; the directory is the endpoint's. -/
structure HistoryStore where
  items : List HistoryItem

namespace HistoryStore

def metadataFile : Path Dir := ⟨.history, "history.jsonl"⟩

def imagePath (fileName : String) : Path Dir := ⟨.images, fileName⟩

def imageName (id : Uuid) : String := id.toText ++ ".img"

/-- `Path::with_extension` on a file name: what follows the last dot is replaced. -/
def withExtension (path : Path Dir) (extension : String) : Path Dir :=
  let stem := match path.name.toList.reverse.dropWhile (· ≠ '.') with
    | [] | [_] => path.name
    | _ :: rest => String.ofList rest.reverse
  { path with name := stem ++ "." ++ extension }

def atomicWrite (path : Path Dir) (contents : Bytes) :
    FsProgram Dir (Except HistoryError Unit) := do
  let suffix ← access .uniqueName
  let temp := withExtension path ("tmp-" ++ suffix)
  let written ← FsProgram.atomicWrite ⟨false, false, false⟩ temp path contents
  return written.mapError fun (place, error) => .io place error

def removeFileIfExists (path : Path Dir) : FsProgram Dir (Except HistoryError Unit) := do
  match ← access (.remove path) with
  | .ok () => return .ok ()
  | .error .notFound => return .ok ()
  | .error source => return .error (.io path source)

/-! ## Opening -/

/-- An image item must name the file of its own id. -/
def validReference (item : HistoryItem) : Bool :=
  item.kind.imageFileName.all fun fileName => fileName = imageName item.id

/-- Takes in the item of a line, if it is valid and the first one of its id. -/
def insertLine (codec : LineCodec) (items : List HistoryItem) (line : Bytes) :
    List HistoryItem :=
  match (if line = [] then none else codec.fromLine line) with
  | none => items
  | some item =>
    if validReference item ∧ ∀ known ∈ items, known.id ≠ item.id then items ++ [item]
    else items

/-- The items a metadata file stands for. -/
def itemsOf (codec : LineCodec) (contents : Bytes) : List HistoryItem :=
  (contents.splitOn 10).foldl (insertLine codec) []

def loadItems (codec : LineCodec) : FsProgram Dir (Except HistoryError (List HistoryItem)) := do
  match ← access (.read metadataFile) with
  | .ok contents => return .ok (itemsOf codec contents)
  | .error .notFound => return .ok []
  | .error source => return .error (.io metadataFile source)

def removeOrphans (referenced : List String) :
    List String → FsProgram Dir (Except HistoryError Unit)
  | [] => return .ok ()
  | name :: names => do
    if referenced.contains name then
      removeOrphans referenced names
    else
      match ← removeFileIfExists (imagePath name) with
      | .error error => return .error error
      | .ok () => removeOrphans referenced names

def cleanupOrphanImages (items : List HistoryItem) :
    FsProgram Dir (Except HistoryError Unit) := do
  match ← access (.readDir .images) with
  | .error source => return .error (.io ⟨.images, ""⟩ source)
  | .ok names => removeOrphans (items.filterMap (·.kind.imageFileName)) names

def new (codec : LineCodec) : FsProgram Dir (Except HistoryError HistoryStore) := do
  match ← access (.createDirAll .images) with
  | .error source => return .error (.io ⟨.history, ""⟩ source)
  | .ok () =>
  match ← loadItems codec with
  | .error error => return .error error
  | .ok items =>
  let items := items.drop (items.length - historyCap)
  match ← cleanupOrphanImages items with
  | .error error => return .error error
  | .ok () => return .ok ⟨items⟩

/-! ## Changing -/

def encodeItems (codec : LineCodec) (items : List HistoryItem) : Bytes :=
  items.flatMap fun item => codec.toLine item ++ [10]

def persist (codec : LineCodec) (items : List HistoryItem) :
    FsProgram Dir (Except HistoryError Unit) :=
  atomicWrite metadataFile (encodeItems codec items)

/-- The kind of an item, after its image has been written to a file of its own. -/
def writeContent (item : NewHistoryItem) : FsProgram Dir (Except HistoryError HistoryKind) :=
  match item.content with
  | .text content => return .ok (.text content)
  | .image bytes => do
    match ← atomicWrite (imagePath (imageName item.id)) bytes with
    | .error error => return .error error
    | .ok () => return .ok (.image (imageName item.id))

/-- Adds an item, unless its id is known, and drops the oldest one past the cap. -/
def add (codec : LineCodec) (self : HistoryStore) (item : NewHistoryItem) :
    FsProgram Dir (Except HistoryError Unit × HistoryStore) := do
  if self.items.any fun existing => existing.id = item.id then
    return (.ok (), self)
  match ← writeContent item with
  | .error error => return (.error error, self)
  | .ok kind =>
  let updated := self.items ++ [⟨item.id, item.tsMs, kind, item.source⟩]
  let evicted := if updated.length > historyCap then updated.head? else none
  let updated := if updated.length > historyCap then updated.drop 1 else updated
  match ← persist codec updated with
  | .error error =>
    match kind.imageFileName with
    | some fileName =>
      let _ ← access (.remove (imagePath fileName))
      return (.error error, self)
    | none => return (.error error, self)
  | .ok () =>
  match evicted.bind (·.kind.imageFileName) with
  | none => return (.ok (), ⟨updated⟩)
  | some fileName =>
    let removed ← removeFileIfExists (imagePath fileName)
    return (removed, ⟨updated⟩)

def removeFiles : List String → FsProgram Dir (Except HistoryError Unit)
  | [] => return .ok ()
  | fileName :: fileNames => do
    match ← removeFileIfExists (imagePath fileName) with
    | .error error => return .error error
    | .ok () => removeFiles fileNames

def clear (codec : LineCodec) (self : HistoryStore) :
    FsProgram Dir (Except HistoryError Unit × HistoryStore) := do
  match ← persist codec [] with
  | .error error => return (.error error, self)
  | .ok () =>
    let removed ← removeFiles (self.items.filterMap (·.kind.imageFileName))
    return (removed, ⟨[]⟩)

def imageBytes (self : HistoryStore) (id : Uuid) :
    FsProgram Dir (Except HistoryError Bytes) := do
  match self.items.find? (·.id = id) with
  | none => return .error (.unknownItem id)
  | some item =>
    match item.kind with
    | .text _ => return .error (.notImage id)
    | .image fileName =>
      match ← access (.read (imagePath fileName)) with
      | .ok bytes => return .ok bytes
      | .error source => return .error (.io (imagePath fileName) source)

/-- The only change of source is from deferred to applied. -/
def transition : HistorySource → HistorySource → Bool
  | .remoteDeferred, .remote => true
  | .local', _ | .remote, _ | .remoteDeferred, .local' | .remoteDeferred, .remoteDeferred =>
    false

def setSource (codec : LineCodec) (self : HistoryStore) (id : Uuid) (source : HistorySource) :
    FsProgram Dir (Except HistoryError Unit × HistoryStore) := do
  match self.items.find? (·.id = id) with
  | none => return (.error (.unknownItem id), self)
  | some item =>
    if transition item.source source then
      let updated := self.items.replaceF fun other =>
        if other.id = id then some { other with source := .remote } else none
      match ← persist codec updated with
      | .error error => return (.error error, self)
      | .ok () => return (.ok (), ⟨updated⟩)
    else return (.ok (), self)

/-! ## The files of the store -/

/-- Accesses of the store stay out of the session's directory and put nothing into the
metadata file but by renaming. -/
def Own (op : FsOp Dir) : Prop := op.Avoids .session ∧ op.Spares metadataFile

theorem withExtension_metadataFile_ne (suffix : String) :
    withExtension metadataFile ("tmp-" ++ suffix) ≠ metadataFile := by
  intro h
  have hname := congrArg (fun path => path.name.toList) h
  have hstem : "history".toList = ['h', 'i', 's', 't', 'o', 'r', 'y'] := rfl
  simp [withExtension, metadataFile, hstem] at hname

/-- Accesses to the images only. -/
def OnImages (op : FsOp Dir) : Prop := op.Avoids .session ∧ op.Avoids .history

theorem OnImages.leaves {op : FsOp Dir} (h : OnImages op) : op.Leaves metadataFile :=
  FsOp.Avoids.leaves h.2

theorem OnImages.own {op : FsOp Dir} (h : OnImages op) : Own op := ⟨h.1, h.leaves.spares⟩

theorem remove_onImages (fileName : String) : OnImages (.remove (imagePath fileName)) :=
  ⟨nofun, nofun⟩

theorem removeFileIfExists_onImages (fileName : String) :
    AllOps OnImages (removeFileIfExists (imagePath fileName)) := by
  refine ⟨remove_onImages fileName, fun r => ?_⟩
  rcases r with (_ | _) | _ <;> trivial

theorem removeFiles_onImages (fileNames : List String) :
    AllOps OnImages (removeFiles fileNames) := by
  induction fileNames with
  | nil => trivial
  | cons fileName fileNames ih =>
    refine allOps_bind (removeFileIfExists_onImages fileName) fun r => ?_
    cases r with
    | error e => trivial
    | ok u => exact ih

theorem removeOrphans_eq (referenced names : List String) : removeOrphans referenced names =
    removeFiles (names.filter fun name => ¬ referenced.contains name) := by
  induction names with
  | nil => rfl
  | cons name names ih =>
    rw [removeOrphans, ih]
    split
    · rename_i hname
      rw [List.filter_cons_of_neg (by simpa using hname)]
    · rename_i hname
      rw [List.filter_cons_of_pos (by simpa using hname), removeFiles]

theorem cleanupOrphanImages_onImages (items : List HistoryItem) :
    AllOps OnImages (cleanupOrphanImages items) := by
  refine allOps_bind (allOps_perform ⟨trivial, trivial⟩) fun r => ?_
  cases r with
  | error e => trivial
  | ok names =>
    dsimp only
    rw [removeOrphans_eq]
    exact removeFiles_onImages _

theorem atomicWrite_onImages {path : Path Dir} (hpath : path.dir = .images) (contents : Bytes) :
    AllOps OnImages (atomicWrite path contents) := by
  have hdir : ∀ p : Path Dir, p.dir = .images → p.dir ≠ .session ∧ p.dir ≠ .history := by
    intro p hp
    rw [hp]
    exact ⟨nofun, nofun⟩
  refine ⟨⟨trivial, trivial⟩, fun suffix => ?_⟩
  change AllOps _ (FsProgram.atomicWrite _ _ _ _ >>= _)
  have htemp := hdir (withExtension path ("tmp-" ++ suffix)) hpath
  have hpath := hdir path hpath
  exact allOps_bind (atomicWrite_allOps htemp htemp htemp ⟨trivial, trivial⟩
    ⟨⟨htemp.1, hpath.1⟩, htemp.2, hpath.2⟩ ⟨trivial, trivial⟩ htemp) fun _ => trivial

theorem writeContent_onImages (item : NewHistoryItem) : AllOps OnImages (writeContent item) := by
  unfold writeContent
  split
  · trivial
  · refine allOps_bind (atomicWrite_onImages rfl _) fun r => ?_
    cases r <;> trivial

theorem own_of_onImages {α : Type} {p : FsProgram Dir α} (hp : AllOps OnImages p) :
    AllOps Own p :=
  allOps_mono (fun _ => OnImages.own) hp

theorem persist_own (codec : LineCodec) (items : List HistoryItem) :
    AllOps Own (persist codec items) := by
  refine ⟨⟨trivial, trivial⟩, fun suffix => ?_⟩
  change AllOps Own (FsProgram.atomicWrite _ _ _ _ >>= _)
  have htemp : withExtension metadataFile ("tmp-" ++ suffix) ≠ metadataFile :=
    withExtension_metadataFile_ne suffix
  exact allOps_bind (atomicWrite_allOps ⟨nofun, htemp⟩ ⟨nofun, htemp⟩ ⟨nofun, htemp⟩
    ⟨trivial, trivial⟩ ⟨⟨nofun, nofun⟩, htemp⟩ ⟨trivial, trivial⟩ ⟨nofun, htemp⟩) fun _ => trivial

variable (codec : LineCodec)

theorem loadItems_own : AllOps Own (loadItems codec) := by
  refine ⟨⟨trivial, trivial⟩, fun r => ?_⟩
  rcases r with (_ | _) | _ <;> trivial

theorem new_own : AllOps Own (new codec) := by
  refine allOps_bind (allOps_perform ⟨trivial, trivial⟩) fun r => ?_
  cases r with
  | error e => trivial
  | ok u =>
  refine allOps_bind (loadItems_own codec) fun r => ?_
  cases r with
  | error e => trivial
  | ok items =>
  refine allOps_bind (own_of_onImages (cleanupOrphanImages_onImages _)) fun r => ?_
  cases r <;> trivial

theorem add_own (self : HistoryStore) (item : NewHistoryItem) :
    AllOps Own (add codec self item) := by
  unfold add
  split
  · trivial
  refine allOps_bind (own_of_onImages (writeContent_onImages item)) fun r => ?_
  cases r with
  | error e => trivial
  | ok kind =>
  refine allOps_bind (persist_own codec _) fun r => ?_
  cases r with
  | error e =>
    dsimp only
    split
    · exact ⟨⟨nofun, nofun⟩, fun _ => trivial⟩
    · trivial
  | ok u =>
    dsimp only
    split
    · trivial
    · exact allOps_bind (own_of_onImages (removeFileIfExists_onImages _)) fun _ => trivial

theorem clear_own (self : HistoryStore) : AllOps Own (clear codec self) := by
  refine allOps_bind (persist_own codec []) fun r => ?_
  cases r with
  | error e => trivial
  | ok u => exact allOps_bind (own_of_onImages (removeFiles_onImages _)) fun _ => trivial

theorem setSource_own (self : HistoryStore) (id : Uuid) (source : HistorySource) :
    AllOps Own (setSource codec self id source) := by
  unfold setSource
  split
  · trivial
  split
  · refine allOps_bind (persist_own codec _) fun r => ?_
    cases r <;> trivial
  · trivial

/-! ## Written lists are read back -/

theorem splitOn_encodeItems (items : List HistoryItem) :
    (encodeItems codec items).splitOn 10 = items.map codec.toLine ++ [[]] := by
  induction items with
  | nil => rfl
  | cons item items ih =>
    rw [encodeItems, List.flatMap_cons, List.append_assoc, List.singleton_append,
      List.splitOn_append_cons_self_of_not_mem (codec.newline_notMem item)]
    exact congrArg _ ih

variable {s s' : Fs Dir} {α : Type} {p : FsProgram Dir α} {self : HistoryStore}
  {items : List HistoryItem} {Q : α → Fs Dir → Prop}

theorem validReference_of_mem_foldl {lines : List Bytes}
    (hitems : ∀ item ∈ items, validReference item = true) :
    ∀ item ∈ lines.foldl (insertLine codec) items, validReference item = true := by
  induction lines generalizing items with
  | nil => exact hitems
  | cons line lines ih =>
    refine ih fun item hitem => ?_
    unfold insertLine at hitem
    split at hitem
    · exact hitems item hitem
    · split at hitem
      · rename_i hnew
        rcases List.mem_append.1 hitem with hold | hlast
        · exact hitems item hold
        · rw [List.mem_singleton.1 hlast]
          exact hnew.1
      · exact hitems item hitem

/-! ## What has been in the history -/

/-- Some version of the metadata file lists the item. -/
def InHistory (s : Fs Dir) (id : Uuid) : Prop :=
  ∃ contents ∈ s.versions metadataFile, ∃ item ∈ itemsOf codec contents, item.id = id

/-- How the accesses of the store can change the files. -/
structure Kept (s s' : Fs Dir) : Prop where
  session : ∀ path, path.dir = .session → s'.files path = s.files path
  grown : ∀ path, s.versions path ⊆ s'.versions path
  isVersion : s.IsVersion metadataFile → s'.IsVersion metadataFile

theorem Kept.refl (s : Fs Dir) : Kept s s := ⟨fun _ _ => rfl, fun _ _ => id, id⟩

theorem Kept.trans {s'' : Fs Dir} (h : Kept s s') (h' : Kept s' s'') : Kept s s'' where
  session path hpath := (h'.session path hpath).trans (h.session path hpath)
  grown path _ hc := h'.grown path (h.grown path hc)
  isVersion hs := h'.isVersion (h.isVersion hs)

theorem Kept.of_exec {op : FsOp Dir} {r : op.Res} (hop : Own op) (h : Fs.exec op s r s') :
    Kept s s' where
  session _ hpath := Fs.files_of_avoids (hpath ▸ hop.1) h
  grown path := Fs.versions_subset h path
  isVersion hs := Fs.isVersion_exec hop.2 h hs

/-- Cut off anywhere, a program has changed the files as the store may, and at its end
`Q` holds. -/
def Keeps {α : Type} (s : Fs Dir) (p : FsProgram Dir α) (Q : α → Fs Dir → Prop) : Prop :=
  Safe Fs.exec (Kept s) (fun a s' => Kept s s' ∧ Q a s') p s

theorem Keeps.of_safe {I : Fs Dir → Prop} (hops : AllOps Own p) (hp : Safe Fs.exec I Q p s) :
    Keeps s p Q := by
  have hboth := hp.and (K := Kept s) (fun _ _ _ _ hop hexec ht => ht.trans (.of_exec hop hexec))
    hops (.refl s)
  exact hboth.mono (fun _ h => h.2) fun _ _ _ h => ⟨h.2, h.1⟩

theorem Keeps.of_own (hops : AllOps Own p) (s : Fs Dir) : Keeps s p fun _ _ => True :=
  .of_safe hops (safe_true p s)

variable {codec}

theorem InHistory.mono {id : Uuid} (h : InHistory codec s id)
    (hgrown : s.versions metadataFile ⊆ s'.versions metadataFile) : InHistory codec s' id := by
  obtain ⟨contents, hcontents, hitem⟩ := h
  exact ⟨contents, hgrown hcontents, hitem⟩

theorem InHistory.kept {id : Uuid} (h : InHistory codec s id) (hkept : Kept s s') :
    InHistory codec s' id :=
  h.mono (hkept.grown _)

end HistoryStore

end ClipSync
