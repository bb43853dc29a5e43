import ClipSync.Core.HistoryRun

/-!
# Cleared history

`clear` writes an empty list and removes the images that the list named. It does not look
for what earlier calls have left: a temporary file of a write that failed or was cut off,
or an image that could not be removed. The one in the directory of the metadata is never
removed at all, and it has the whole list in it.

Where no write fails once its temporary file is there, no removal fails, and the process
does not stop while there is a temporary file beside the metadata, nothing is left once
the history has been cleared.
-/

namespace ClipSync

open Lib Program FsProgram HistoryStore

namespace HistoryStore

/-- The contents of a file give away an item: its text, plain or in a line of the
metadata, or its image. -/
def Reveals (codec : LineCodec) (contents : Bytes) (item : NewHistoryItem) : Prop :=
  match item.content with
  | .text content => utf8Bytes content ≠ [] ∧ utf8Bytes content <:+: contents ∨
      ∃ source, codec.toLine { entryOf item with source } <:+: contents
  | .image bytes => bytes ≠ [] ∧ bytes <:+: contents

theorem not_reveals_nil (codec : LineCodec) (item : NewHistoryItem) : ¬ Reveals codec [] item := by
  unfold Reveals
  split
  · rintro (⟨hne, hin⟩ | ⟨source, hin⟩)
    · exact hne (List.infix_nil.1 hin)
    · exact codec.toLine_ne_nil _ (List.infix_nil.1 hin)
  · rintro ⟨hne, hin⟩
    exact hne (List.infix_nil.1 hin)

def Completes : (op : FsOp Dir) → op.Res → Prop
  | .writeAll .., r | .syncAll _, r | .rename .., r => r = .ok ()
  | .remove _, r => ∀ message, r ≠ .error (.other message)
  | .uniqueName, _ | .createDirAll _, _ | .readDir _, _ | .read _, _ | .createNew _, _
  | .create _, _ | .syncDir _, _ => True

def NoTemps (s : Fs Dir) : Prop :=
  ∀ path : Path Dir, path.dir = .history → path ≠ metadataFile → s.files path = none

def Erased (s : Fs Dir) : Prop :=
  ∀ path contents, path.dir ≠ .session → s.files path = some contents → contents = []

abbrev completing (op : FsOp Dir) (s : Fs Dir) (r : op.Res) (s' : Fs Dir) : Prop :=
  Fs.exec op s r s' ∧ Completes op r

variable {codec : LineCodec} {s : Fs Dir}

/-! ## Writes and removals -/

theorem safe_write_completing (path : Path Dir) (contents : Bytes) :
    Safe completing (fun _ => True)
      (fun r s' => (r = .ok () → ∃ suffix, s' = s.replace (tempOf path suffix) path contents) ∧
        (r ≠ .ok () → s' = s)) (HistoryStore.atomicWrite path contents) s := by
  refine ⟨trivial, fun suffix s' hname => ?_⟩
  cases hname.1
  refine ⟨trivial, fun r s₁ hcreate => ?_⟩
  cases r with
  | error e => exact ⟨trivial, nofun, fun _ => hcreate.1⟩
  | ok u =>
  refine ⟨trivial, ?_⟩
  rintro _ s₂ ⟨hwrite, rfl⟩
  refine ⟨trivial, ?_⟩
  rintro _ s₃ ⟨hsync, rfl⟩
  refine ⟨trivial, ?_⟩
  rintro _ s₄ ⟨hrename, rfl⟩
  obtain ⟨found, hfound, hrename⟩ := hrename
  refine ⟨trivial, fun _ => ⟨suffix, ?_⟩, fun hne => absurd rfl hne⟩
  cases hsync
  cases hwrite
  cases hcreate.1
  have hcontents : found = contents := by simpa [Fs.set, eq_comm] using hfound
  rw [hrename, hcontents, set_replace, set_replace]

theorem NoTemps.replace_metadata (h : NoTemps s) (suffix : String) (contents : Bytes) :
    NoTemps (s.replace (tempOf metadataFile suffix) metadataFile contents) := by
  intro path hdir hpath
  by_cases htemp : path = tempOf metadataFile suffix
  · rw [htemp]
    exact Fs.replace_files_source (withExtension_metadataFile_ne suffix)
  · rw [Fs.replace_files_of_ne htemp hpath]
    exact h path hdir hpath

theorem safe_persist_completing (items : List HistoryItem) (h : NoTemps s) :
    Safe completing (fun _ => True)
      (fun r s' => NoTemps s' ∧ (∀ name, s'.files (imagePath name) = s.files (imagePath name)) ∧
        (r = .ok () → s'.files metadataFile = some (encodeItems codec items)))
      (persist codec items) s := by
  refine (safe_write_completing metadataFile _).imp ?_
  rintro r s' - ⟨hok, herror⟩
  by_cases hr : r = .ok ()
  · obtain ⟨suffix, rfl⟩ := hok hr
    refine ⟨h.replace_metadata suffix _, fun name => ?_, fun _ => Fs.replace_files_target⟩
    exact Fs.replace_files_of_ne nofun (ne_metadataFile rfl)
  · rw [herror hr]
    exact ⟨h, fun _ => rfl, fun heq => absurd heq hr⟩

theorem safe_writeContent_completing (item : NewHistoryItem) :
    Safe completing (fun _ => True)
      (fun r s' => (∀ path : Path Dir, path.dir = .history → s'.files path = s.files path) ∧
        (∀ kind, r = .ok kind → kind = kindOf item ∧ ∀ name, (s'.files (imagePath name)).isSome →
          (s.files (imagePath name)).isSome ∨ kind.imageFileName = some name) ∧
        ∀ error, r = .error error → s' = s) (writeContent item) s := by
  unfold writeContent
  split
  · rename_i content hcontent
    refine ⟨trivial, fun _ _ => rfl, ?_, by rintro error ⟨⟩⟩
    rintro kind ⟨⟩
    exact ⟨by rw [kindOf, hcontent], fun name hname => .inl hname⟩
  rename_i bytes hcontent
  refine (safe_write_completing _ bytes).bind ?_
  rintro (e | u) s' - ⟨hok, herror⟩
  · have hs := herror (by rintro ⟨⟩)
    exact ⟨trivial, fun _ _ => by rw [hs], by rintro kind ⟨⟩, fun _ _ => hs⟩
  obtain ⟨suffix, rfl⟩ := hok rfl
  refine ⟨trivial, fun path hpath => ?_, ?_, by rintro error ⟨⟩⟩
  · refine Fs.replace_files_of_ne ?_ ?_
    · rintro rfl
      cases hpath
    · rintro rfl
      cases hpath
  rintro kind ⟨⟩
  refine ⟨by rw [kindOf, hcontent], fun name hname => ?_⟩
  by_cases hown : name = imageName item.id
  · exact .inr (congrArg some hown.symm)
  have htarget : imagePath name ≠ imagePath (imageName item.id) :=
    fun heq => hown (congrArg Path.name heq)
  by_cases htemp : imagePath name = tempOf (imagePath (imageName item.id)) suffix
  · rw [htemp, Fs.replace_files_source (tempOf_imageName_ne item.id item.id suffix)] at hname
    cases hname
  · rw [Fs.replace_files_of_ne htemp htarget] at hname
    exact .inl hname

variable {s' : Fs Dir} {self : HistoryStore} {name : String}

theorem files_of_remove {r : FsOp.Res (.remove (imagePath name))}
    (h : completing (.remove (imagePath name)) s r s') (path : Path Dir) :
    s'.files path = if path = imagePath name then none else s.files path := by
  split
  · rename_i hpath
    rw [hpath]
    match r, h with
    | .ok (), h =>
      rw [h.1]
      exact Function.update_self _ _ _
    | .error .notFound, ⟨⟨hs, hnone⟩, _⟩ => rw [hs, hnone]
    | .error (.other message), h => exact absurd rfl (h.2 message)
  · rename_i hpath
    have hleaves : FsOp.Leaves path (.remove (imagePath name)) := Ne.symm hpath
    exact Fs.files_of_leaves hleaves h.1

theorem safe_removeFileIfExists_completing (name : String) :
    Safe completing (fun _ => True)
      (fun r s' => r = .ok () ∧ ∀ path, s'.files path =
        if path = imagePath name then none else s.files path)
      (removeFileIfExists (imagePath name)) s := by
  refine ⟨trivial, fun r s' hremove => ?_⟩
  have hfiles := files_of_remove hremove
  match r, hremove with
  | .ok (), _ => exact ⟨trivial, rfl, hfiles⟩
  | .error .notFound, _ => exact ⟨trivial, rfl, hfiles⟩
  | .error (.other message), hremove => exact absurd rfl (hremove.2 message)

theorem safe_removeFiles_completing (names : List String) :
    Safe completing (fun _ => True)
      (fun r s' => r = .ok () ∧ ∀ path, s'.files path =
        if path ∈ names.map imagePath then none else s.files path)
      (removeFiles names) s := by
  induction names generalizing s with
  | nil => exact ⟨trivial, rfl, fun _ => by simp⟩
  | cons name names ih =>
    refine (safe_removeFileIfExists_completing name).bind ?_
    rintro _ s₁ - ⟨rfl, hfiles⟩
    refine ih.imp ?_
    rintro r s₂ - ⟨rfl, hrest⟩
    refine ⟨rfl, fun path => ?_⟩
    rw [hrest, hfiles]
    by_cases hpath : path = imagePath name
    · simp [hpath]
    · simp [hpath]

/-! ## Calls -/

variable {entries : List HistoryItem}

theorem Tidy.drop_one (h : Tidy s entries)
    (hgone : ∀ entry, entries.head? = some entry → ∀ name, entry.kind.imageFileName = some name →
      s.files (imagePath name) = none) :
    Tidy s (entries.drop 1) := by
  intro name hname
  obtain ⟨entry, hentry, himage⟩ := h name hname
  cases entries with
  | nil => cases hentry
  | cons first rest =>
    rcases List.mem_cons.1 hentry with rfl | hrest
    · rw [hgone _ rfl name himage] at hname
      cases hname
    · exact ⟨entry, hrest, himage⟩

theorem Tidy.of_files (h : Tidy s entries)
    (hfiles : ∀ name, (s'.files (imagePath name)).isSome → (s.files (imagePath name)).isSome) :
    Tidy s' entries :=
  fun name hname => h name (hfiles name hname)

theorem NoTemps.of_remove (h : NoTemps s)
    (hfiles : ∀ path, s'.files path = if path = imagePath name then none else s.files path) :
    NoTemps s' := by
  intro path hdir hpath
  rw [hfiles path]
  split
  · rfl
  · exact h path hdir hpath

theorem isSome_of_remove {other : String}
    (hfiles : ∀ path, s'.files path = if path = imagePath name then none else s.files path)
    (hother : (s'.files (imagePath other)).isSome) :
    other ≠ name ∧ (s.files (imagePath other)).isSome := by
  rw [hfiles] at hother
  split at hother
  · cases hother
  · rename_i hne
    exact ⟨fun heq => hne (congrArg imagePath heq), hother⟩

theorem safe_add_completing (item : NewHistoryItem) (hno : NoTemps s) (htidy : Tidy s self.items) :
    Safe completing (fun _ => True) (fun (_, self') s' => NoTemps s' ∧ Tidy s' self'.items)
      (self.add codec item) s := by
  unfold HistoryStore.add
  split
  · exact ⟨trivial, hno, htidy⟩
  refine (safe_writeContent_completing item).bind ?_
  rintro (e | kind) s₁ - ⟨hhistory, hok, herror⟩
  · rw [herror e rfl]
    exact ⟨trivial, hno, htidy⟩
  have hno₁ : NoTemps s₁ := fun path hdir hpath => (hhistory path hdir).trans (hno path hdir hpath)
  obtain ⟨rfl, himages⟩ := hok kind rfl
  dsimp only
  refine (safe_persist_completing _ hno₁).bind ?_
  rintro (e | u) s₂ - ⟨hno₂, hsame, -⟩
  · -- The list has not been written, and the image is taken back.
    dsimp only
    split
    · rename_i fileName hfile
      refine ⟨trivial, fun r s₃ hremove => ?_⟩
      have hfiles := files_of_remove hremove
      refine ⟨trivial, hno₂.of_remove hfiles, fun name hname => ?_⟩
      obtain ⟨hne, hname⟩ := isSome_of_remove hfiles hname
      rw [hsame] at hname
      rcases himages name hname with hold | hown
      · exact htidy name hold
      · exact absurd (Option.some.inj (hown.symm.trans hfile)) hne
    · rename_i hfile
      refine ⟨trivial, hno₂, fun name hname => ?_⟩
      rw [hsame] at hname
      rcases himages name hname with hold | hown
      · exact htidy name hold
      · cases hfile.symm.trans hown
  · have htidy₂ : Tidy s₂ (self.items ++ [⟨item.id, item.tsMs, kindOf item, item.source⟩]) := by
      intro name hname
      rw [hsame] at hname
      rcases himages name hname with hold | hown
      · obtain ⟨entry, hentry, himage⟩ := htidy name hold
        exact ⟨entry, List.mem_append_left _ hentry, himage⟩
      · exact ⟨_, List.mem_append_right _ (List.mem_singleton.2 rfl), hown⟩
    dsimp only
    split
    · rename_i hevicted
      refine ⟨trivial, hno₂, ?_⟩
      dsimp only
      split
      · rename_i hlong
        rw [if_pos hlong] at hevicted
        refine htidy₂.drop_one fun entry hhead name hname => ?_
        rw [hhead] at hevicted
        cases hevicted.symm.trans hname
      · exact htidy₂
    · rename_i fileName hevicted
      refine (safe_removeFileIfExists_completing fileName).bind ?_
      rintro _ s₃ - ⟨rfl, hfiles⟩
      refine ⟨trivial, hno₂.of_remove hfiles, ?_⟩
      obtain ⟨entry, hentry, hname⟩ := Option.bind_eq_some_iff.1 hevicted
      obtain ⟨hlong, hhead⟩ := Option.ite_none_right_eq_some.1 hentry
      dsimp only
      rw [if_pos hlong]
      have htidy₃ := htidy₂.of_files fun name hname => (isSome_of_remove hfiles hname).2
      refine htidy₃.drop_one fun first hfirst name himage => ?_
      cases hhead.symm.trans hfirst
      cases hname.symm.trans himage
      rw [hfiles, if_pos rfl]

theorem names_promoting {items : List HistoryItem} (id : Uuid) (h : Names items name) :
    Names (promoting items id) name := by
  rcases promoting_cases items id with hsame | ⟨old, before, after, rfl, -, hnew⟩
  · rwa [hsame]
  obtain ⟨entry, hentry, himage⟩ := h
  rw [hnew]
  rcases List.mem_append.1 hentry with hbefore | hrest
  · exact ⟨entry, by simp [hbefore], himage⟩
  rcases List.mem_cons.1 hrest with rfl | hafter
  · exact ⟨{ entry with source := .remote }, by simp, himage⟩
  · exact ⟨entry, by simp [hafter], himage⟩

theorem safe_setSource_completing (id : Uuid) (source : HistorySource) (hno : NoTemps s)
    (htidy : Tidy s self.items) :
    Safe completing (fun _ => True) (fun (_, self') s' => NoTemps s' ∧ Tidy s' self'.items)
      (self.setSource codec id source) s := by
  unfold HistoryStore.setSource
  split
  · exact ⟨trivial, hno, htidy⟩
  split
  · refine (safe_persist_completing _ hno).bind ?_
    rintro (e | u) s₁ - ⟨hno₁, hsame, -⟩
    · exact ⟨trivial, hno₁, htidy.of_files fun name hname => by rwa [hsame] at hname⟩
    · refine ⟨trivial, hno₁, fun name hname => names_promoting id (htidy name ?_)⟩
      rwa [hsame] at hname
  · exact ⟨trivial, hno, htidy⟩

theorem safe_clear_completing (hno : NoTemps s) (htidy : Tidy s self.items) :
    Safe completing (fun _ => True)
      (fun (r, self') s' => (NoTemps s' ∧ Tidy s' self'.items) ∧ (r = .ok () → Erased s'))
      (self.clear codec) s := by
  refine (safe_persist_completing [] hno).bind ?_
  rintro (e | u) s₁ - ⟨hno₁, hsame, hempty⟩
  · exact ⟨trivial, ⟨hno₁, htidy.of_files fun name hname => by rwa [hsame] at hname⟩, nofun⟩
  refine (safe_removeFiles_completing _).bind ?_
  rintro _ s₂ - ⟨rfl, hfiles⟩
  have himages : ∀ name, s₂.files (imagePath name) = none := by
    intro name
    rw [hfiles]
    split
    · rfl
    · rename_i hnot
      by_contra hsome
      obtain ⟨entry, hentry, himage⟩ := htidy name (by
        rw [← hsame]
        exact Option.isSome_iff_ne_none.2 hsome)
      exact hnot (List.mem_map_of_mem (List.mem_filterMap.2 ⟨entry, hentry, himage⟩))
  have hhistory : ∀ path : Path Dir, path.dir = .history → s₂.files path = s₁.files path := by
    intro path hdir
    rw [hfiles, if_neg]
    intro hmem
    obtain ⟨name, -, rfl⟩ := List.mem_map.1 hmem
    cases hdir
  refine ⟨trivial, ⟨fun path hdir hpath => ?_, fun name hname => ?_⟩, fun _ => ?_⟩
  · rw [hhistory path hdir]
    exact hno₁ path hdir hpath
  · rw [himages name] at hname
    cases hname
  · rintro ⟨dir, name⟩ contents hdir hfile
    cases dir with
    | session => exact absurd rfl hdir
    | images => cases hfile.symm.trans (himages name)
    | history =>
      rw [hhistory _ rfl] at hfile
      by_cases hmetadata : (⟨.history, name⟩ : Path Dir) = metadataFile
      · rw [hmetadata, hempty rfl] at hfile
        exact (Option.some.inj hfile).symm
      · cases hfile.symm.trans (hno₁ _ rfl hmetadata)

theorem safe_open_completing {added : List NewHistoryItem} (hno : NoTemps s)
    (hsound : Sound codec added s) :
    Safe completing (fun _ => True)
      (fun r s' => NoTemps s' ∧ ∀ self, r = .ok self → Tidy s' self.items)
      (HistoryStore.new codec) s := by
  have hopen : Safe completing (Pruned codec added s)
      (fun r s' => ∀ self, r = .ok self → Tidy s' self.items) (HistoryStore.new codec) s :=
    (safe_open_sound hsound).comap id fun _ _ _ _ h => h.1
  refine hopen.mono (fun _ _ => trivial) fun r s' hpruned htidy => ⟨?_, htidy⟩
  exact fun path hdir hpath => hpruned.shrunk path (hno path hdir hpath)

end HistoryStore

/-! ## Runs -/

def HistoryCall.Left (request : HistoryCall) (outcome : HistoryCall.Outcome) (s : Fs Dir) : Prop :=
  (NoTemps s ∧ ∀ self, outcome.2 = some self → Tidy s self.items) ∧
    (request = .clear → outcome.1 = .ok () → Erased s)

theorem HistoryCall.safe_left {codec : LineCodec} {added : List NewHistoryItem} {s : Fs Dir}
    {request : HistoryCall} {store : Option HistoryStore} {p : FsProgram Dir HistoryCall.Outcome}
    (hcall : request.program codec store = some p) (hno : NoTemps s)
    (htidy : ∀ self, store = some self → Tidy s self.items) (hsound : Sound codec added s) :
    Safe completing (fun _ => True) request.Left p s := by
  have hsome : ∀ {s' : Fs Dir} {self' : HistoryStore}, Tidy s' self'.items →
      ∀ self, some self' = some self → Tidy s' self.items := by
    rintro s' self' h _ ⟨⟩
    exact h
  unfold program at hcall
  split at hcall
  · cases hcall
    refine (safe_add_completing _ hno (htidy _ rfl)).bind ?_
    rintro ⟨r, self'⟩ s' - ⟨hno', htidy'⟩
    exact ⟨trivial, ⟨hno', hsome htidy'⟩, nofun⟩
  · cases hcall
    refine (safe_setSource_completing _ _ hno (htidy _ rfl)).bind ?_
    rintro ⟨r, self'⟩ s' - ⟨hno', htidy'⟩
    exact ⟨trivial, ⟨hno', hsome htidy'⟩, nofun⟩
  · cases hcall
    refine (safe_clear_completing hno (htidy _ rfl)).bind ?_
    rintro ⟨r, self'⟩ s' - ⟨⟨hno', htidy'⟩, herased⟩
    exact ⟨trivial, ⟨hno', hsome htidy'⟩, fun _ => herased⟩
  · cases hcall
    refine (safe_open_completing hno hsound).bind ?_
    rintro (e | self') s' - ⟨hno', htidy'⟩
    · exact ⟨trivial, ⟨hno', nofun⟩, nofun⟩
    · exact ⟨trivial, ⟨hno', hsome (htidy' self' rfl)⟩, nofun⟩
  all_goals cases hcall

namespace HistoryRun

variable {codec : LineCodec} {σ σ' : HistoryRun}

/-- Between calls there is nothing that the list does not name. -/
structure Clean (σ : HistoryRun) : Prop where
  idle : σ.running = none →
    NoTemps σ.state ∧ ∀ self, σ.object = some self → Tidy σ.state self.items
  rest : ∀ request p, σ.running = some (request, p) →
    Safe completing (fun _ => True) request.Left p σ.state

theorem clean_initial : initial.Clean := ⟨fun _ => ⟨fun _ _ _ => rfl, nofun⟩, nofun⟩

theorem Clean.step (h : σ.Clean) (hconsistent : σ.Consistent codec)
    (hstep : Client.Step (service codec Completes NoTemps) σ σ') : σ'.Clean := by
  cases hstep with
  | begin hidle hcall =>
    refine ⟨nofun, ?_⟩
    rintro request p ⟨⟩
    obtain ⟨hno, htidy⟩ := h.idle hidle
    exact HistoryCall.safe_left hcall hno htidy hconsistent.sound
  | access hrunning hexec =>
    refine ⟨nofun, ?_⟩
    rintro request p ⟨⟩
    exact (h.rest _ _ hrunning).2 _ _ hexec
  | finish hrunning => exact ⟨fun _ => (h.rest _ _ hrunning).2.1, nofun⟩
  | cut hcut =>
    obtain ⟨hstops, rfl, rfl, rfl⟩ := hcut
    exact ⟨fun _ => ⟨hstops, nofun⟩, nofun⟩

theorem Reaches.clean (hrun : initial.Reaches codec Completes NoTemps σ) : σ.Clean := by
  induction hrun with
  | refl => exact clean_initial
  | tail hreach hstep ih => exact ih.step (Reaches.consistent hreach) hstep

/-- Once the history has been cleared, no file of it gives away an item that was added
before. -/
theorem cleared_history_is_erased (hrun : initial.Reaches codec Completes NoTemps σ)
    {store : Option HistoryStore} (hclear : σ.running = some (.clear, .done (.ok (), store)))
    {path : Path Dir} {contents : Bytes} (hpath : path.dir ≠ .session)
    (hfile : σ.state.files path = some contents) {item : NewHistoryItem}
    (_hadded : item ∈ σ.record.added) :
    ¬ Reveals codec contents item := by
  obtain ⟨-, -, herased⟩ := hrun.clean.rest _ _ hclear
  rw [herased rfl rfl path contents hpath hfile]
  exact not_reveals_nil codec item

/-! ## Sample runs -/

def sampleText (n : UInt8) : NewHistoryItem :=
  ⟨⟨⟨List.replicate 16 n, rfl⟩⟩, 0, .local', .text "secret"⟩

theorem exec_add_first (s : Fs Dir) :
    Exec Fs.succeed ((⟨[]⟩ : HistoryStore).add codec (sampleText 1)) s
      (.ok (), ⟨[entryOf (sampleText 1)]⟩)
      (s.replace (tempOf metadataFile "a") metadataFile
        (encodeItems codec [entryOf (sampleText 1)])) := by
  refine .bind (.done _ _) ?_
  exact (exec_write metadataFile _ "a" s).bind (.done _ _)

theorem exec_persist_failing (items : List HistoryItem) (s : Fs Dir) :
    Exec Fs.exec (persist codec items) s (.error (.io metadataFile (.other "")))
      (s.set (tempOf metadataFile "b") (some (encodeItems codec items))) := by
  let s' := s.set (tempOf metadataFile "b") (some (encodeItems codec items))
  have hname : Fs.exec .uniqueName s "b" s := rfl
  have hcreate : Fs.exec (.create (tempOf metadataFile "b")) s (.ok ())
      (s.set (tempOf metadataFile "b") (some [])) := rfl
  have hwrite : Fs.exec (.writeAll (tempOf metadataFile "b") (encodeItems codec items))
      (s.set (tempOf metadataFile "b") (some [])) (.ok ()) s' := (set_set _ _).symm
  have hsync : Fs.exec (.syncAll (tempOf metadataFile "b")) s' (.ok ()) s' := rfl
  have hrename : Fs.exec (.rename (tempOf metadataFile "b") metadataFile) s'
      (.error (.other "")) s' := rfl
  exact .call hname (.call hcreate (.call hwrite (.call hsync (.call hrename (.done _ _)))))

theorem exec_add_second (s : Fs Dir) :
    Exec Fs.exec ((⟨[entryOf (sampleText 1)]⟩ : HistoryStore).add codec (sampleText 2)) s
      (.error (.io metadataFile (.other "")), ⟨[entryOf (sampleText 1)]⟩)
      (s.set (tempOf metadataFile "b")
        (some (encodeItems codec [entryOf (sampleText 1), entryOf (sampleText 2)]))) := by
  have hknown : ¬ [entryOf (sampleText 1)].any
      (fun existing => existing.id = (sampleText 2).id) = true := by decide
  rw [HistoryStore.add, if_neg hknown]
  refine .bind (.done _ _) ?_
  exact (exec_persist_failing _ s).bind (.done _ _)

theorem exec_clear_text (s : Fs Dir) :
    Exec Fs.succeed ((⟨[entryOf (sampleText 1)]⟩ : HistoryStore).clear codec) s (.ok (), ⟨[]⟩)
      (s.replace (tempOf metadataFile "c") metadataFile (encodeItems codec [])) := by
  refine (exec_write metadataFile _ "c" s).bind ?_
  exact .bind (.done _ _) (.done _ _)

theorem reaches_first {fine : (op : FsOp Dir) → op.Res → Prop} {stops : Fs Dir → Prop}
    (hfine : ∀ op s r s', Fs.succeed op s r s' → Fs.exec op s r s' ∧ fine op r) :
    initial.Reaches codec fine stops
      ⟨initial.state.replace (tempOf metadataFile "a") metadataFile
          (encodeItems codec [entryOf (sampleText 1)]),
        some ⟨[entryOf (sampleText 1)]⟩, none,
        ⟨[entryOf (sampleText 1)], none, [sampleText 1]⟩⟩ :=
  (reaches_opened hfine).trans (reaches_call (.add (sampleText 1)) hfine rfl
    ⟨_, rfl, (exec_add_first initial.state).bind (.done _ _)⟩)

theorem exec_clear_call (codec : LineCodec) (s : Fs Dir) : ∃ p,
    HistoryCall.clear.program codec (some ⟨[entryOf (sampleText 1)]⟩) = some p ∧
      Exec Fs.succeed p s (.ok (), some ⟨[]⟩)
        (s.replace (tempOf metadataFile "c") metadataFile (encodeItems codec [])) :=
  ⟨_, rfl, (exec_clear_text s).bind (.done _ _)⟩

theorem completing_of_succeed (op : FsOp Dir) (s : Fs Dir) (r : op.Res) (s' : Fs Dir)
    (h : Fs.succeed op s r s') : completing op s r s' := by
  refine ⟨h.1, ?_⟩
  cases op with
  | writeAll | syncAll | rename | remove => exact h.2
  | _ => trivial

def sampleDisk : Fs Dir :=
  initial.state.replace (tempOf metadataFile "a") metadataFile
    (encodeItems .standard [entryOf (sampleText 1)])

/-- A text is added and cleared. -/
theorem cleared_history_is_erased_sample :
    ∃ σ contents, initial.Reaches .standard Completes NoTemps σ ∧
      σ.running = some (.clear, .done (.ok (), some ⟨[]⟩)) ∧
      σ.state.files metadataFile = some contents ∧ sampleText 1 ∈ σ.record.added ∧
      ¬ Reveals .standard contents (sampleText 1) := by
  let s := sampleDisk.replace (tempOf metadataFile "c") metadataFile (encodeItems .standard [])
  have hcleared : initial.Reaches .standard Completes NoTemps
      ⟨s, some ⟨[entryOf (sampleText 1)]⟩, some (.clear, .done (.ok (), some ⟨[]⟩)),
        ⟨[entryOf (sampleText 1)], none, [sampleText 1]⟩⟩ :=
    (reaches_first completing_of_succeed).trans
      (reaches_return .clear completing_of_succeed rfl (exec_clear_call .standard sampleDisk))
  have hfile : s.files metadataFile = some (encodeItems .standard []) := Fs.replace_files_target
  have hadded : sampleText 1 ∈ [sampleText 1] := List.mem_singleton.2 rfl
  have hpath : metadataFile.dir ≠ .session := by decide
  exact ⟨_, _, hcleared, rfl, hfile, hadded,
    cleared_history_is_erased hcleared rfl hpath hfile hadded⟩

/-- After a failed addition, a file with the earlier text in it outlives the clearing. -/
theorem cleared_text_in_temporary_file :
    ∃ σ path contents, initial.Reaches .standard (fun _ _ => True) (fun _ => True) σ ∧
      σ.running = some (.clear, .done (.ok (), some ⟨[]⟩)) ∧ path.dir = .history ∧
      σ.state.files path = some contents ∧ sampleText 1 ∈ σ.record.added ∧
      Reveals .standard contents (sampleText 1) := by
  let written := encodeItems .standard [entryOf (sampleText 1), entryOf (sampleText 2)]
  let s₁ := sampleDisk.set (tempOf metadataFile "b") (some written)
  let s₂ := s₁.replace (tempOf metadataFile "c") metadataFile (encodeItems .standard [])
  have hfailed : initial.Reaches .standard (fun _ _ => True) (fun _ => True)
      ⟨s₁, some ⟨[entryOf (sampleText 1)]⟩, none,
        ⟨[entryOf (sampleText 1)], none, [sampleText 2, sampleText 1]⟩⟩ :=
    (reaches_first fun _ _ _ _ h => ⟨h.1, trivial⟩).trans
      (reaches_call (.add (sampleText 2)) (fun _ _ _ _ h => ⟨h, trivial⟩) rfl
        ⟨_, rfl, (exec_add_second sampleDisk).bind (.done _ _)⟩)
  have hcleared : initial.Reaches .standard (fun _ _ => True) (fun _ => True)
      ⟨s₂, some ⟨[entryOf (sampleText 1)]⟩, some (.clear, .done (.ok (), some ⟨[]⟩)),
        ⟨[entryOf (sampleText 1)], none, [sampleText 2, sampleText 1]⟩⟩ :=
    hfailed.trans (reaches_return .clear (fun _ _ _ _ h => ⟨h.1, trivial⟩) rfl
      (exec_clear_call .standard s₁))
  have hwritten : s₁.files (tempOf metadataFile "b") = some written := by
    simp only [s₁, Fs.set, Function.update_self]
  have hfile : s₂.files (tempOf metadataFile "b") = some written :=
    (Fs.replace_files_of_ne (by decide) (withExtension_metadataFile_ne "b")).trans hwritten
  refine ⟨_, tempOf metadataFile "b", written, hcleared, rfl, rfl, hfile, by simp, ?_⟩
  refine .inr ⟨.local', [], [10] ++ encodeItems .standard [entryOf (sampleText 2)], ?_⟩
  simp only [written, encodeItems, List.flatMap_cons, List.nil_append, List.append_assoc]
  rfl

end HistoryRun

end ClipSync
