import ClipSync.Core.HistoryList

/-!
# The images of the history

The metadata and an image are two files. An image is written before the list names it and
removed after the list has ceased to, so that the list never names a file that is not
there; a file that no list names goes when the store is opened again. This holds wherever
a call is cut off.
-/

namespace ClipSync

open Lib Program FsProgram

namespace HistoryStore

/-! ## The files of a write -/

abbrev tempOf (path : Path Dir) (suffix : String) : Path Dir :=
  withExtension path ("tmp-" ++ suffix)

theorem length_toText (id : Uuid) : id.toText.toList.length = 36 := by
  have hlength : (Hex.encodeChars id.bytes.toList).length = 32 := by
    simp [Hex.length_encodeChars]
  simp [Uuid.toText, Uuid.hyphenate, hlength]

theorem withExtension_imageName (id : Uuid) (extension : String) :
    withExtension (imagePath (imageName id)) extension =
      imagePath (id.toText ++ "." ++ extension) := by
  have hreverse : (imageName id).toList.reverse.dropWhile (· ≠ '.') =
      '.' :: id.toText.toList.reverse := by
    have hend : ".img".toList = ['.', 'i', 'm', 'g'] := rfl
    simp [imageName, String.toList_append, hend]
  obtain ⟨c, cs, hcs⟩ : ∃ c cs, id.toText.toList.reverse = c :: cs := by
    refine List.exists_cons_of_ne_nil fun hnil => ?_
    have hlength := length_toText id
    rw [← List.length_reverse, hnil] at hlength
    cases hlength
  have hstem : String.ofList (c :: cs).reverse = id.toText := by
    rw [← hcs, List.reverse_reverse, String.ofList_toList]
  rw [withExtension, show (imagePath (imageName id)).name = imageName id from rfl, hreverse, hcs]
  dsimp only
  rw [hstem]
  rfl

theorem tempOf_imageName_ne (id other : Uuid) (suffix : String) :
    tempOf (imagePath (imageName id)) suffix ≠ imagePath (imageName other) := by
  intro h
  rw [tempOf, withExtension_imageName] at h
  have hname := congrArg (fun path : Path Dir => path.name.toList) h
  have htmp : "tmp-".toList = ['t', 'm', 'p', '-'] := rfl
  have hend : ".img".toList = ['.', 'i', 'm', 'g'] := rfl
  simp only [imagePath, imageName, String.toList_append, htmp, hend, List.append_assoc] at hname
  obtain ⟨-, hrest⟩ := List.append_inj hname (by rw [length_toText, length_toText])
  simp at hrest

theorem imageName_injective : Function.Injective imageName := by
  intro a b h
  have hlists := congrArg String.toList h
  rw [imageName, imageName, String.toList_append, String.toList_append] at hlists
  exact Uuid.toText_injective (String.toList_injective
    (List.append_inj hlists (by rw [length_toText, length_toText])).1)

theorem safe_write (path : Path Dir) (contents : Bytes) (s : Fs Dir) :
    Safe Fs.exec (fun s' => ∃ suffix, Between s (tempOf path suffix) path contents s')
      (fun r s' => ∃ suffix,
        (r = .ok () → s' = s.replace (tempOf path suffix) path contents) ∧
        (r ≠ .ok () → ∃ t, s' = s.set (tempOf path suffix) t))
      (HistoryStore.atomicWrite path contents) s := by
  refine ⟨⟨"", .inl ⟨_, set_self.symm⟩⟩, fun suffix s' hname => ?_⟩
  cases hname
  change Safe _ _ _ (FsProgram.atomicWrite _ _ _ _ >>= _) s
  refine Safe.bind ((safe_replaced s).mono (fun _ h => ⟨suffix, h⟩) fun _ _ _ h => h) ?_
  rintro (e | u) s' hbetween hreplaced
  · refine ⟨hbetween, suffix, nofun, fun _ => ?_⟩
    obtain ht | ⟨hmode, -⟩ := hreplaced
    · exact ht
    · cases hmode
  · exact ⟨hbetween, suffix, fun _ => hreplaced, fun hne => absurd rfl hne⟩

/-! ## The images of the entries -/

def Names (entries : List HistoryItem) (name : String) : Prop :=
  ∃ entry ∈ entries, entry.kind.imageFileName = some name

theorem WellFormed.eq_imageName {entries : List HistoryItem} (h : WellFormed entries)
    {entry : HistoryItem} (hentry : entry ∈ entries) {name : String}
    (hname : entry.kind.imageFileName = some name) : name = imageName entry.id := by
  have hvalid := h.valid entry hentry
  rw [validReference, hname] at hvalid
  simpa using hvalid

def origin (added : List NewHistoryItem) (id : Uuid) : Option NewHistoryItem :=
  added.find? (·.id = id)

theorem origin_cons_of_ne {added : List NewHistoryItem} {id : Uuid} {item : NewHistoryItem}
    (h : item.id ≠ id) : origin (item :: added) id = origin added id :=
  List.find?_cons_of_neg (by simpa using h)

theorem origin_cons_self (added : List NewHistoryItem) (item : NewHistoryItem) :
    origin (item :: added) item.id = some item :=
  List.find?_cons_of_pos (by simp)

/-- The entry is that of the item, apart from its source, with the image in its file. -/
structure Backs (s : Fs Dir) (item : NewHistoryItem) (entry : HistoryItem) : Prop where
  tsMs : entry.tsMs = item.tsMs
  kind : entry.kind = kindOf item
  image : ∀ bytes, item.content = .image bytes →
    s.files (imagePath (imageName item.id)) = some bytes

def Backed (added : List NewHistoryItem) (s : Fs Dir) (entries : List HistoryItem) : Prop :=
  ∀ entry ∈ entries, ∃ item, origin added entry.id = some item ∧ Backs s item entry

section Backed

variable {added : List NewHistoryItem} {s s' : Fs Dir} {entries : List HistoryItem}

theorem Backed.of_files (h : Backed added s entries)
    (hfiles : ∀ name, Names entries name → s'.files (imagePath name) = s.files (imagePath name)) :
    Backed added s' entries := by
  intro entry hentry
  obtain ⟨item, horigin, hbacks⟩ := h entry hentry
  refine ⟨item, horigin, hbacks.tsMs, hbacks.kind, fun bytes hbytes => ?_⟩
  have hname : entry.kind.imageFileName = some (imageName item.id) := by
    rw [hbacks.kind, kindOf, hbytes]
    rfl
  rw [hfiles _ ⟨entry, hentry, hname⟩]
  exact hbacks.image bytes hbytes

theorem Backed.promoting (h : Backed added s entries) (id : Uuid) :
    Backed added s (promoting entries id) := by
  rcases promoting_cases entries id with hsame | ⟨old, before, after, rfl, -, hnew⟩
  · rw [hsame]
    exact h
  rw [hnew]
  intro entry hentry
  rcases List.mem_append.1 hentry with hbefore | hrest
  · exact h entry (by simp [hbefore])
  rcases List.mem_cons.1 hrest with rfl | hafter
  · obtain ⟨item, horigin, hbacks⟩ := h old (by simp)
    exact ⟨item, horigin, hbacks.tsMs, hbacks.kind, hbacks.image⟩
  · exact h entry (by simp [hafter])

variable {item : NewHistoryItem}

theorem Backed.adding (h : Backed added s entries)
    (himage : ∀ bytes, item.content = .image bytes →
      s.files (imagePath (imageName item.id)) = some bytes)
    (hadded : origin added item.id = some item) : Backed added s (adding entries item) := by
  intro entry hentry
  rcases mem_adding hentry with hold | rfl
  · exact h entry hold
  · exact ⟨item, hadded, rfl, rfl, himage⟩

theorem Backed.cons (h : Backed added s entries) (hfresh : ∀ known ∈ entries, known.id ≠ item.id) :
    Backed (item :: added) s entries := by
  intro entry hentry
  obtain ⟨old, horigin, hbacks⟩ := h entry hentry
  exact ⟨old, (origin_cons_of_ne (hfresh entry hentry).symm).trans horigin, hbacks⟩

end Backed

variable {codec : LineCodec} {added : List NewHistoryItem} {s : Fs Dir}

def Sound (codec : LineCodec) (added : List NewHistoryItem) (s : Fs Dir) : Prop :=
  Backed added s (listed codec s)

variable {name : String}

theorem names_listed (h : Names (listed codec s) name) :
    ∃ entry ∈ listed codec s, name = imageName entry.id := by
  obtain ⟨entry, hentry, hname⟩ := h
  exact ⟨entry, hentry, (wellFormed_listed codec s).eq_imageName hentry hname⟩

theorem Sound.of_files {s' : Fs Dir} (h : Sound codec added s)
    (hlisted : s'.files metadataFile = s.files metadataFile)
    (hfiles : ∀ name, Names (listed codec s) name →
      s'.files (imagePath name) = s.files (imagePath name)) :
    Sound codec added s' := by
  rw [Sound, listed_congr codec hlisted]
  exact Backed.of_files h hfiles

/-- Writing a list whose images are there. -/
theorem safe_persist_sound {items : List HistoryItem} (hitems : WellFormed items)
    (h : Sound codec added s) (hbacked : Backed added s items) :
    Safe Fs.exec (Sound codec added)
      (fun _ s' => ∀ path : Path Dir, path.dir = .images → s'.files path = s.files path)
      (persist codec items) s := by
  have htemp : ∀ suffix (path : Path Dir), path.dir = .images →
      path ≠ tempOf metadataFile suffix := by
    rintro suffix path hpath rfl
    cases hpath
  have hset : ∀ suffix t (path : Path Dir), path.dir = .images →
      (s.set (tempOf metadataFile suffix) t).files path = s.files path :=
    fun suffix t path hpath => Fs.set_files_of_ne (htemp suffix path hpath).symm t
  have hreplace : ∀ suffix contents (path : Path Dir), path.dir = .images →
      (s.replace (tempOf metadataFile suffix) metadataFile contents).files path = s.files path :=
    fun suffix contents path hpath =>
      Fs.replace_files_of_ne (htemp suffix path hpath) (ne_metadataFile hpath)
  refine (safe_write metadataFile _ s).mono ?_ ?_
  · rintro _ ⟨suffix, ⟨t, rfl⟩ | rfl⟩
    · exact h.of_files (Fs.set_files_of_ne (withExtension_metadataFile_ne suffix) t)
        fun name _ => hset suffix t _ rfl
    · rw [Sound, listed_replace codec hitems]
      exact hbacked.of_files fun name _ => hreplace suffix _ _ rfl
  · rintro r s' - ⟨suffix, hok, herror⟩ path hpath
    by_cases hr : r = .ok ()
    · rw [hok hr]
      exact hreplace suffix _ path hpath
    · obtain ⟨t, rfl⟩ := herror hr
      exact hset suffix t path hpath

/-- Images have been removed that the list does not name. -/
structure Pruned (codec : LineCodec) (added : List NewHistoryItem) (s s' : Fs Dir) : Prop where
  sound : Sound codec added s'
  listed : listed codec s' = listed codec s
  shrunk : ∀ path, s.files path = none → s'.files path = none

theorem Pruned.refl (h : Sound codec added s) : Pruned codec added s s := ⟨h, rfl, fun _ => id⟩

theorem Pruned.trans {s' s'' : Fs Dir} (h : Pruned codec added s s')
    (h' : Pruned codec added s' s'') : Pruned codec added s s'' :=
  ⟨h'.sound, h'.listed.trans h.listed, fun path hpath => h'.shrunk path (h.shrunk path hpath)⟩

theorem Pruned.of_remove {s' : Fs Dir} {r : FsOp.Res (.remove (imagePath name))}
    (h : Sound codec added s) (hname : ¬ Names (HistoryStore.listed codec s) name)
    (hremove : Fs.exec (.remove (imagePath name)) s r s') : Pruned codec added s s' := by
  have hlisted := Fs.files_of_leaves (remove_onImages name).leaves hremove
  have hleaves : ∀ path, path ≠ imagePath name → s'.files path = s.files path := by
    intro path hpath
    have hop : FsOp.Leaves path (.remove (imagePath name)) := hpath.symm
    exact Fs.files_of_leaves hop hremove
  refine ⟨h.of_files hlisted fun other hother => hleaves _ fun heq => hname ?_,
    listed_congr codec hlisted, fun path hpath => ?_⟩
  · cases heq
    exact hother
  · by_cases hsame : path = imagePath name
    · subst hsame
      match r, hremove with
      | .ok (), hremove =>
        rw [hremove]
        exact Function.update_self _ _ _
      | .error .notFound, ⟨hremove, _⟩ => rw [hremove, hpath]
      | .error (.other _), hremove => rw [hremove, hpath]
    · rw [hleaves path hsame, hpath]

theorem safe_removeFileIfExists (h : Sound codec added s) (hname : ¬ Names (listed codec s) name) :
    Safe Fs.exec (Pruned codec added s)
      (fun r s' => r = .ok () → s'.files (imagePath name) = none)
      (removeFileIfExists (imagePath name)) s := by
  refine ⟨.refl h, fun r s' hremove => ?_⟩
  have hpruned := Pruned.of_remove h hname hremove
  match r, hremove with
  | .ok (), hremove =>
    refine ⟨hpruned, fun _ => ?_⟩
    rw [hremove]
    exact Function.update_self _ _ _
  | .error .notFound, ⟨hremove, hnone⟩ =>
    refine ⟨hpruned, fun _ => ?_⟩
    rw [hremove]
    exact hnone
  | .error (.other _), _ => exact ⟨hpruned, nofun⟩

theorem safe_removeFileIfExists_bind {α : Type} {f : Except HistoryError Unit → FsProgram Dir α}
    {Q : α → Fs Dir → Prop} (h : Sound codec added s) (hname : ¬ Names (listed codec s) name)
    (hf : ∀ r s₁, Pruned codec added s s₁ → (r = .ok () → s₁.files (imagePath name) = none) →
      Safe Fs.exec (Pruned codec added s₁) Q (f r) s₁) :
    Safe Fs.exec (Pruned codec added s) Q (removeFileIfExists (imagePath name) >>= f) s := by
  refine (safe_removeFileIfExists h hname).bind fun r s₁ hpruned hr => ?_
  exact (hf r s₁ hpruned hr).mono (fun _ h => hpruned.trans h) fun _ _ _ h => h

theorem safe_removeFiles (names : List String) (h : Sound codec added s)
    (hnames : ∀ name ∈ names, ¬ Names (listed codec s) name) :
    Safe Fs.exec (Pruned codec added s)
      (fun r s' => r = .ok () → ∀ name ∈ names, s'.files (imagePath name) = none)
      (removeFiles names) s := by
  induction names generalizing s with
  | nil => exact ⟨.refl h, fun _ => nofun⟩
  | cons name names ih =>
    refine safe_removeFileIfExists_bind h (hnames name (by simp)) ?_
    intro r s₁ hpruned hr
    cases r with
    | error e => exact ⟨.refl hpruned.sound, nofun⟩
    | ok u =>
      have hrest := ih hpruned.sound fun other hother => by
        rw [hpruned.listed]
        exact hnames other (by simp [hother])
      refine hrest.imp fun r s₂ hpruned₂ hothers hok other hother => ?_
      rcases List.mem_cons.1 hother with rfl | hother
      · exact hpruned₂.shrunk _ (hr rfl)
      · exact hothers hok other hother

theorem safe_removeOrphans {referenced : List String} (names : List String)
    (h : Sound codec added s)
    (hreferenced : ∀ name, Names (listed codec s) name → name ∈ referenced) :
    Safe Fs.exec (Pruned codec added s)
      (fun r s' => r = .ok () → ∀ name ∈ names, name ∉ referenced →
        s'.files (imagePath name) = none)
      (removeOrphans referenced names) s := by
  rw [removeOrphans_eq]
  refine (safe_removeFiles _ h fun name hname hnames => ?_).imp
    fun _ _ _ hgone hok name hname hnot =>
    hgone hok name (by simpa using ⟨hname, hnot⟩)
  simp [hreferenced name hnames] at hname

def Tidy (s : Fs Dir) (entries : List HistoryItem) : Prop :=
  ∀ name, (s.files (imagePath name)).isSome → Names entries name

theorem safe_open_sound (h : Sound codec added s) :
    Safe Fs.exec (Pruned codec added s)
      (fun r s' => ∀ self, r = .ok self → Tidy s' self.items) (HistoryStore.new codec) s := by
  refine ⟨.refl h, fun r s' hcreate => ?_⟩
  cases hcreate
  cases r with
  | error e => exact ⟨.refl h, nofun⟩
  | ok u =>
  change Safe _ _ _ (loadItems codec >>= _) s
  have hload : Safe Fs.exec (Pruned codec added s)
      (fun r s' => s' = s ∧ ∀ items, r = .ok items → recent items = listed codec s)
      (loadItems codec) s := by
    refine (safe_loadItems s).mono ?_ fun _ _ hs h => ⟨hs, h⟩
    rintro _ rfl
    exact .refl h
  refine hload.bind ?_
  rintro r s₁ - ⟨rfl, hitems⟩
  cases r with
  | error e => exact ⟨.refl h, nofun⟩
  | ok items =>
  have hlisted : recent items = listed codec s₁ := hitems items rfl
  have hcleanup : Safe Fs.exec (Pruned codec added s₁)
      (fun r s' => r = .ok () → Tidy s' (listed codec s₁))
      (cleanupOrphanImages (recent items)) s₁ := by
    refine ⟨.refl h, fun r s' hread => ?_⟩
    cases r with
    | error e =>
      cases hread
      exact ⟨.refl h, nofun⟩
    | ok names =>
      obtain ⟨rfl, hnames⟩ := hread
      have hreferenced : ∀ name, Names (listed codec s') name ↔
          name ∈ (recent items).filterMap (·.kind.imageFileName) := by
        intro name
        rw [hlisted, List.mem_filterMap]
        rfl
      refine (safe_removeOrphans names h fun name => (hreferenced name).1).imp
        fun r s₂ hpruned hothers hok name hname => ?_
      by_contra hnot
      have hpresent : name ∈ names := by
        rw [hnames]
        by_contra hnone
        rw [hpruned.shrunk (imagePath name) (Option.not_isSome_iff_eq_none.1 hnone)] at hname
        cases hname
      rw [hothers hok name hpresent fun hmem => hnot ((hreferenced name).2 hmem)] at hname
      cases hname
  refine hcleanup.bind fun r s₂ hpruned htidy => ?_
  cases r with
  | error e => exact ⟨hpruned, nofun⟩
  | ok u =>
    refine ⟨hpruned, ?_⟩
    rintro self ⟨⟩
    rw [show items.drop (items.length - historyCap) = listed codec s₁ from hlisted]
    exact htidy rfl

theorem safe_writeContent_image (item : NewHistoryItem) (h : Sound codec added s)
    (hfresh : ∀ known ∈ listed codec s, known.id ≠ item.id) :
    Safe Fs.exec (fun s' => Sound codec added s' ∧ listed codec s' = listed codec s)
      (fun r s' => ∀ kind, r = .ok kind → kind = kindOf item ∧ ∀ bytes,
        item.content = .image bytes → s'.files (imagePath (imageName item.id)) = some bytes)
      (writeContent item) s := by
  unfold writeContent
  split
  · rename_i content hcontent
    refine ⟨⟨h, rfl⟩, ?_⟩
    rintro kind ⟨⟩
    refine ⟨by rw [kindOf, hcontent], fun bytes hbytes => ?_⟩
    cases hcontent.symm.trans hbytes
  rename_i bytes hcontent
  have hother : ∀ name, Names (listed codec s) name → name ≠ imageName item.id := by
    rintro name hname rfl
    obtain ⟨entry, hentry, heq⟩ := names_listed hname
    exact hfresh entry hentry (imageName_injective heq.symm)
  have hmetadata : ∀ suffix, tempOf (imagePath (imageName item.id)) suffix ≠ metadataFile :=
    fun suffix => ne_metadataFile rfl
  have htemp : ∀ suffix name, Names (listed codec s) name →
      imagePath name ≠ tempOf (imagePath (imageName item.id)) suffix := by
    intro suffix name hname heq
    obtain ⟨entry, -, rfl⟩ := names_listed hname
    exact tempOf_imageName_ne item.id entry.id suffix heq.symm
  have hsame : ∀ s', (∃ suffix, Between s (tempOf (imagePath (imageName item.id)) suffix)
      (imagePath (imageName item.id)) bytes s') →
      Sound codec added s' ∧ listed codec s' = listed codec s := by
    rintro _ ⟨suffix, ⟨t, rfl⟩ | rfl⟩
    · have hlisted := Fs.set_files_of_ne (s := s) (hmetadata suffix) t
      exact ⟨h.of_files hlisted fun name hname =>
        Fs.set_files_of_ne (htemp suffix name hname).symm t, listed_congr codec hlisted⟩
    · have himage : imagePath (imageName item.id) ≠ metadataFile := ne_metadataFile rfl
      have hlisted : (s.replace (tempOf (imagePath (imageName item.id)) suffix)
          (imagePath (imageName item.id)) bytes).files metadataFile = s.files metadataFile :=
        Fs.replace_files_of_ne (hmetadata suffix).symm himage.symm
      refine ⟨h.of_files hlisted fun name hname => ?_, listed_congr codec hlisted⟩
      refine Fs.replace_files_of_ne (htemp suffix name hname) fun heq => hother name hname ?_
      cases heq
      rfl
  refine Safe.bind ((safe_write _ bytes s).mono hsame fun _ _ _ h => h) ?_
  rintro (e | u) s' hsound ⟨suffix, hok, -⟩
  · exact ⟨hsound, by rintro kind ⟨⟩⟩
  · refine ⟨hsound, ?_⟩
    rintro kind ⟨⟩
    refine ⟨by rw [kindOf, hcontent], fun other hbytes => ?_⟩
    cases hcontent.symm.trans hbytes
    rw [hok rfl, Fs.replace_files_target]

theorem not_names_of_evicted {entries : List HistoryItem} {entry : HistoryItem}
    (hvalid : ∀ entry ∈ entries, validReference entry = true)
    (hnodup : (entries.map (·.id)).Nodup) (hhead : entries.head? = some entry)
    (hname : entry.kind.imageFileName = some name) : ¬ Names (entries.drop 1) name := by
  have himage : ∀ entry ∈ entries, entry.kind.imageFileName = some name →
      name = imageName entry.id := by
    intro entry hentry hname
    have hvalid := hvalid entry hentry
    rw [validReference, hname] at hvalid
    simpa using hvalid
  cases entries with
  | nil => cases hhead
  | cons first rest =>
    cases hhead
    rintro ⟨other, hother, hsame⟩
    have hids := imageName_injective
      ((himage entry (by simp) hname).symm.trans (himage other (by simp_all) hsame))
    rw [List.map_cons, List.nodup_cons] at hnodup
    exact hnodup.1 (hids ▸ List.mem_map_of_mem hother)

variable {self : HistoryStore}

theorem safe_add_sound {item : NewHistoryItem} (hself : self.items = listed codec s)
    (h : Sound codec added s)
    (hadded : (∀ known ∈ self.items, known.id ≠ item.id) → origin added item.id = some item) :
    Safe Fs.exec (Sound codec added) (fun _ _ => True) (self.add codec item) s := by
  have hwell : WellFormed self.items := hself ▸ wellFormed_listed codec s
  have hadding := hwell.adding item
  unfold HistoryStore.add
  split
  · exact ⟨h, trivial⟩
  rename_i hnew
  have hfresh : ∀ known ∈ self.items, known.id ≠ item.id := by simpa using hnew
  refine (safe_writeContent_image item h (hself ▸ hfresh)).bind_of_imp (fun _ h => h.1) ?_
  rintro r s₁ ⟨h₁, hlisted⟩ hkind
  cases r with
  | error e => exact ⟨h₁, trivial⟩
  | ok kind =>
  obtain ⟨rfl, himage⟩ := hkind kind rfl
  have hupdated : recent (self.items ++ [⟨item.id, item.tsMs, kindOf item, item.source⟩]) =
      adding self.items item := (if_neg hnew).symm
  have hbacked : Backed added s₁ (adding self.items item) := by
    refine Backed.adding ?_ himage (hadded hfresh)
    rw [hself, ← hlisted]
    exact h₁
  dsimp only
  rw [dropOldest_eq_recent hwell.bounded, hupdated]
  refine ((safe_persist hadding s₁).inter (safe_persist_sound hadding h₁ hbacked)).bind_of_imp
    (fun _ h => h.2) ?_
  rintro r s₂ ⟨-, h₂⟩ ⟨⟨hok, herror⟩, -⟩
  cases r with
  | error e =>
    have hsame := (herror (by rintro ⟨⟩)).trans hlisted
    dsimp only
    split
    · rename_i fileName hfile
      refine ⟨h₂, fun r s₃ hremove => ⟨(Pruned.of_remove h₂ ?_ hremove).sound, trivial⟩⟩
      intro hnames
      obtain ⟨entry, hentry, rfl⟩ := names_listed hnames
      have hown : imageName entry.id = imageName item.id := by
        unfold kindOf at hfile
        split at hfile
        · cases hfile
        · exact (Option.some.inj hfile).symm
      rw [hsame, ← hself] at hentry
      exact hfresh entry hentry (imageName_injective hown)
    · exact ⟨h₂, trivial⟩
  | ok u =>
    dsimp only
    split
    · exact ⟨h₂, trivial⟩
    · rename_i fileName hevicted
      refine (safe_removeFileIfExists h₂ ?_).bind_of_imp (fun _ h => h.sound)
        fun _ _ h₃ _ => ⟨h₃.sound, trivial⟩
      rw [hok rfl, ← hupdated, ← dropOldest_eq_recent hwell.bounded]
      obtain ⟨entry, hentry, hname⟩ := Option.bind_eq_some_iff.1 hevicted
      obtain ⟨hlong, hhead⟩ := Option.ite_none_right_eq_some.1 hentry
      rw [if_pos hlong]
      refine not_names_of_evicted (fun other hother => ?_)
        (nodup_append_fresh hwell.nodup hfresh) hhead hname
      rcases List.mem_append.1 hother with hold | hlast
      · exact hwell.valid other hold
      · rw [List.mem_singleton.1 hlast, validReference, kindOf]
        cases item.content <;> simp [HistoryKind.imageFileName]

theorem safe_setSource_sound (hself : self.items = listed codec s) (h : Sound codec added s)
    (id : Uuid) (source : HistorySource) :
    Safe Fs.exec (Sound codec added) (fun _ _ => True) (self.setSource codec id source) s := by
  have hwell : WellFormed self.items := hself ▸ wellFormed_listed codec s
  have hbacked : Backed added s self.items := hself ▸ h
  unfold setSource
  split
  · exact ⟨h, trivial⟩
  split
  · refine (safe_persist_sound (hwell.promoting id) h (hbacked.promoting id)).bind ?_
    rintro r s₁ h₁ -
    cases r <;> exact ⟨h₁, trivial⟩
  · exact ⟨h, trivial⟩

theorem safe_clear_sound (self : HistoryStore) (h : Sound codec added s) :
    Safe Fs.exec (Sound codec added) (fun _ _ => True) (self.clear codec) s := by
  refine ((safe_persist .nil s).inter (safe_persist_sound .nil h nofun)).bind_of_imp
    (fun _ h => h.2) ?_
  rintro r s₁ ⟨-, h₁⟩ ⟨⟨hok, -⟩, -⟩
  cases r with
  | error e => exact ⟨h₁, trivial⟩
  | ok u =>
    refine (safe_removeFiles _ h₁ fun name _ => ?_).bind_of_imp (fun _ h => h.sound)
      fun _ _ h₂ _ => ⟨h₂.sound, trivial⟩
    rw [hok rfl]
    rintro ⟨_, ⟨⟩, _⟩

end HistoryStore

end ClipSync
