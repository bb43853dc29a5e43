import ClipSync.Core.History

/-!
# The list of the history

What the host sees of the history is a list: in memory while a store is open, and
otherwise what opening one would read. A change either is in the metadata file, and
then the file stands for exactly the list in memory, or it has failed and both are as
they were before.
-/

namespace ClipSync

open Lib Program FsProgram

namespace HistoryStore

/-! ## The most recent entries -/

section Recent

variable {α β : Type}

def recent (entries : List α) : List α := entries.drop (entries.length - historyCap)

variable {entries : List α}

theorem recent_of_le (h : entries.length ≤ historyCap) : recent entries = entries := by
  rw [recent, Nat.sub_eq_zero_of_le h, List.drop_zero]

theorem length_recent_le (entries : List α) : (recent entries).length ≤ historyCap := by
  rw [recent, List.length_drop]
  omega

theorem dropOldest_eq_recent (h : entries.length ≤ historyCap) (entry : α) :
    (if (entries ++ [entry]).length > historyCap then (entries ++ [entry]).drop 1
      else entries ++ [entry]) = recent (entries ++ [entry]) := by
  split
  · rename_i hlong
    rw [List.length_append, List.length_singleton] at hlong
    rw [recent, List.length_append, List.length_singleton]
    congr 1
    omega
  · exact (recent_of_le (by omega)).symm

theorem recent_sublist (entries : List α) : (recent entries).Sublist entries :=
  List.drop_sublist _ _

theorem map_recent (f : α → β) (entries : List α) :
    (recent entries).map f = recent (entries.map f) := by
  rw [recent, recent, List.map_drop, List.length_map]

theorem recent_recent_append (older newer : List α) :
    recent (recent older ++ newer) = recent (older ++ newer) := by
  obtain ⟨dropped, hdropped⟩ : ∃ dropped, older = dropped ++ recent older :=
    ⟨_, (List.take_append_drop (older.length - historyCap) older).symm⟩
  by_cases hlong : older.length ≤ historyCap
  · rw [recent_of_le hlong]
  have hlength : (recent older).length = historyCap := by
    rw [recent, List.length_drop]
    omega
  have hsum : older.length = dropped.length + historyCap := by
    rw [← hlength, ← List.length_append, ← hdropped]
  have hleft : recent (recent older ++ newer) = (recent older ++ newer).drop newer.length := by
    rw [recent, List.length_append, hlength, Nat.add_sub_cancel_left]
  have hright :
      recent (older ++ newer) = (older ++ newer).drop (dropped.length + newer.length) := by
    rw [recent, List.length_append, hsum]
    congr 1
    omega
  rw [hleft, hright]
  conv_rhs => rw [hdropped, List.append_assoc]
  rw [← List.drop_drop, List.drop_left]

def Retains (older newer : List HistoryItem) : Prop :=
  ∃ added : List Uuid, newer.map (·.id) = recent (older.map (·.id) ++ added)

theorem Retains.trans {first second third : List HistoryItem} (h : Retains first second)
    (h' : Retains second third) : Retains first third := by
  obtain ⟨added, hadded⟩ := h
  obtain ⟨more, hmore⟩ := h'
  refine ⟨added ++ more, ?_⟩
  rw [hmore, hadded, recent_recent_append, List.append_assoc]

end Recent

/-! ## Lists that can be stored -/

/-- The lists that a store holds. -/
structure WellFormed (items : List HistoryItem) : Prop where
  valid : ∀ item ∈ items, validReference item = true
  nodup : (items.map (·.id)).Nodup
  bounded : items.length ≤ historyCap

variable {s : Fs Dir} {self : HistoryStore} {items : List HistoryItem}

theorem WellFormed.retains (h : WellFormed items) : Retains items items :=
  ⟨[], by rw [List.append_nil, recent_of_le (by simpa using h.bounded)]⟩

theorem WellFormed.retains_nil (h : WellFormed items) : Retains [] items := by
  refine ⟨items.map (·.id), ?_⟩
  rw [List.map_nil, List.nil_append, recent_of_le (by simpa using h.bounded)]

theorem WellFormed.nil : WellFormed [] := ⟨nofun, .nil, Nat.zero_le _⟩

variable (codec : LineCodec)

variable {s' : Fs Dir} {item : HistoryItem} {path : Path Dir}

theorem nodup_append_fresh (hitems : (items.map (·.id)).Nodup)
    (hfresh : ∀ known ∈ items, known.id ≠ item.id) : ((items ++ [item]).map (·.id)).Nodup := by
  rw [List.map_append, List.nodup_append]
  refine ⟨hitems, by simp, ?_⟩
  intro id hid last hlast
  obtain ⟨known, hknown, rfl⟩ := List.mem_map.1 hid
  rw [List.map_singleton, List.mem_singleton] at hlast
  rw [hlast]
  exact hfresh known hknown

theorem nodup_foldl_insertLine (lines : List Bytes) (hitems : (items.map (·.id)).Nodup) :
    ((lines.foldl (insertLine codec) items).map (·.id)).Nodup := by
  induction lines generalizing items with
  | nil => exact hitems
  | cons line lines ih =>
    refine ih ?_
    unfold insertLine
    split
    · exact hitems
    · split
      · rename_i hnew
        exact nodup_append_fresh hitems hnew.2
      · exact hitems

def listed (s : Fs Dir) : List HistoryItem :=
  match s.files metadataFile with
  | some contents => recent (itemsOf codec contents)
  | none => []

theorem wellFormed_recent (hvalid : ∀ item ∈ items, validReference item = true)
    (hnodup : (items.map (·.id)).Nodup) : WellFormed (recent items) where
  valid item hitem := hvalid item ((recent_sublist items).subset hitem)
  nodup := hnodup.sublist ((recent_sublist items).map _)
  bounded := length_recent_le items

theorem wellFormed_listed (s : Fs Dir) : WellFormed (listed codec s) := by
  unfold listed
  split
  · exact wellFormed_recent (validReference_of_mem_foldl codec (by simp))
      (nodup_foldl_insertLine codec _ .nil)
  · exact .nil

theorem foldl_insertLine_toLine (items known : List HistoryItem)
    (hvalid : ∀ item ∈ items, validReference item = true)
    (hnodup : ((known ++ items).map (·.id)).Nodup) :
    (items.map codec.toLine).foldl (insertLine codec) known = known ++ items := by
  induction items generalizing known with
  | nil => simp
  | cons item items ih =>
    have hfresh : ∀ other ∈ known, other.id ≠ item.id := by
      intro other hother heq
      rw [List.map_append, List.nodup_append] at hnodup
      exact hnodup.2.2 _ (List.mem_map_of_mem hother) _ (by simp) heq
    have hinsert : insertLine codec known (codec.toLine item) = known ++ [item] := by
      rw [insertLine, if_neg (codec.toLine_ne_nil item), codec.fromLine_toLine]
      exact if_pos ⟨hvalid item (by simp), hfresh⟩
    rw [List.map_cons, List.foldl_cons, hinsert, ih (known ++ [item])
      (fun other hother => hvalid other (by simp [hother])) (by simpa using hnodup)]
    simp

theorem itemsOf_encodeItems (h : WellFormed items) :
    itemsOf codec (encodeItems codec items) = items := by
  rw [itemsOf, splitOn_encodeItems, List.foldl_append,
    foldl_insertLine_toLine codec items [] h.valid (by simpa using h.nodup)]
  rfl

theorem listed_congr (h : s'.files metadataFile = s.files metadataFile) :
    listed codec s' = listed codec s := by
  rw [listed, listed, h]

theorem listed_replace (h : WellFormed items) (s : Fs Dir) (temp : Path Dir) :
    listed codec (s.replace temp metadataFile (encodeItems codec items)) = items := by
  rw [listed, Fs.replace_files_target]
  dsimp only
  rw [itemsOf_encodeItems codec h, recent_of_le h.bounded]

/-! ## Accesses that leave the list alone -/

theorem ne_metadataFile (h : path.dir = .images) : path ≠ metadataFile := by
  rintro rfl
  cases h

variable {codec}

/-- A program that does not change the metadata file. -/
theorem safe_listed {α : Type} {p : FsProgram Dir α} (hops : AllOps (FsOp.Leaves metadataFile) p) :
    Safe Fs.exec (fun s' => listed codec s' = listed codec s)
      (fun _ s' => listed codec s' = listed codec s) p s :=
  (Fs.safe_leaves hops).mono (fun _ h => listed_congr codec h) fun _ _ _ h => listed_congr codec h

theorem safe_onImages {α : Type} {p : FsProgram Dir α} (hops : AllOps OnImages p) :
    Safe Fs.exec (fun s' => listed codec s' = listed codec s)
      (fun _ s' => listed codec s' = listed codec s) p s :=
  safe_listed (allOps_mono (fun _ => OnImages.leaves) hops)

/-! ## Changes of the list -/

theorem safe_persist (h : WellFormed items) (s : Fs Dir) :
    Safe Fs.exec (fun s' => listed codec s' = listed codec s ∨ listed codec s' = items)
      (fun r s' => (r = .ok () → listed codec s' = items) ∧
        (r ≠ .ok () → listed codec s' = listed codec s))
      (persist codec items) s := by
  refine ⟨.inl rfl, fun suffix s' hname => ?_⟩
  cases hname
  have htemp := withExtension_metadataFile_ne suffix
  have hset : ∀ t, listed codec (s.set (withExtension metadataFile ("tmp-" ++ suffix)) t) =
      listed codec s := fun t => listed_congr codec (Fs.set_files_of_ne htemp t)
  have hreplace := listed_replace codec h s (withExtension metadataFile ("tmp-" ++ suffix))
  change Safe _ _ _ (FsProgram.atomicWrite _ _ _ _ >>= _) s
  refine Safe.bind ((safe_replaced s).mono ?_ fun _ _ _ h => h) ?_
  · rintro _ (⟨t, rfl⟩ | rfl)
    · exact .inl (hset t)
    · exact .inr hreplace
  rintro (e | u) s' hbetween hreplaced
  · refine ⟨hbetween, nofun, fun _ => ?_⟩
    obtain ⟨t, rfl⟩ | ⟨hmode, -⟩ := hreplaced
    · exact hset t
    · cases hmode
  · cases hreplaced
    exact ⟨.inr hreplace, fun _ => hreplace, fun hne => absurd rfl hne⟩

def kindOf (item : NewHistoryItem) : HistoryKind :=
  match item.content with
  | .text content => .text content
  | .image _ => .image (imageName item.id)

def entryOf (item : NewHistoryItem) : HistoryItem :=
  ⟨item.id, item.tsMs, kindOf item, item.source⟩

def adding (items : List HistoryItem) (item : NewHistoryItem) : List HistoryItem :=
  if items.any fun existing => existing.id = item.id then items
  else recent (items ++ [entryOf item])

theorem WellFormed.adding (h : WellFormed items) (item : NewHistoryItem) :
    WellFormed (adding items item) := by
  unfold HistoryStore.adding
  split
  · exact h
  rename_i hnew
  have hfresh : ∀ known ∈ items, known.id ≠ item.id := by simpa using hnew
  refine wellFormed_recent (fun other hother => ?_) (nodup_append_fresh h.nodup hfresh)
  rcases List.mem_append.1 hother with hold | hlast
  · exact h.valid other hold
  · rw [List.mem_singleton.1 hlast, validReference, entryOf, kindOf]
    cases item.content <;> simp [HistoryKind.imageFileName]

theorem retains_adding (h : WellFormed items) (item : NewHistoryItem) :
    Retains items (adding items item) := by
  unfold adding
  split
  · exact h.retains
  · exact ⟨[item.id], by rw [map_recent, List.map_append]; rfl⟩

theorem mem_adding {item : NewHistoryItem} {other : HistoryItem} (h : other ∈ adding items item) :
    other ∈ items ∨ other = entryOf item := by
  unfold adding at h
  split at h
  · exact .inl h
  · simpa using (recent_sublist _).subset h

/-- An item that has been added is in the list. -/
theorem exists_mem_adding (items : List HistoryItem) (item : NewHistoryItem) :
    ∃ known ∈ adding items item, known.id = item.id := by
  unfold adding
  split
  · rename_i hknown
    simpa using hknown
  · refine ⟨entryOf item, ?_, rfl⟩
    rw [recent, List.drop_append_of_le_length (by simp [historyCap])]
    simp

theorem safe_writeContent (item : NewHistoryItem) (s : Fs Dir) :
    Safe Fs.exec (fun s' => listed codec s' = listed codec s)
      (fun r s' => listed codec s' = listed codec s ∧ ∀ kind, r = .ok kind → kind = kindOf item)
      (writeContent item) s := by
  have hkind : Safe Fs.exec (fun _ => True) (fun r _ => ∀ kind, r = .ok kind → kind = kindOf item)
      (writeContent item) s := by
    unfold writeContent kindOf
    cases item.content with
    | text content =>
      refine ⟨trivial, ?_⟩
      rintro kind ⟨⟩
      rfl
    | image bytes =>
      refine Safe.bind (safe_true _ s) fun r s' _ _ => ?_
      cases r with
      | error e => exact ⟨trivial, nofun⟩
      | ok u =>
        refine ⟨trivial, ?_⟩
        rintro kind ⟨⟩
        rfl
  exact ((safe_onImages (writeContent_onImages item)).inter hkind).mono (fun _ h => h.1)
    fun _ _ _ h => h

/-- How a change of the store ends: nothing has changed, or the file has what is in
memory. -/
def Settled (codec : LineCodec) (s : Fs Dir) (self : HistoryStore) (s' : Fs Dir)
    (self' : HistoryStore) : Prop :=
  self' = self ∧ listed codec s' = listed codec s ∨ listed codec s' = self'.items

theorem Settled.shown {self' : HistoryStore} (h : Settled codec s self s' self')
    (hself : self.items = listed codec s) : self'.items = listed codec s' := by
  rcases h with ⟨rfl, hsame⟩ | hsame
  · exact hself.trans hsame.symm
  · exact hsame.symm

/-- How a change of the list to `next` ends. -/
structure Updated (codec : LineCodec) (s : Fs Dir) (store : HistoryStore) (next : List HistoryItem)
    (out : Except HistoryError Unit × HistoryStore) (s' : Fs Dir) : Prop where
  settled : Settled codec s store s' out.2
  items : out.2 = store ∨ out.2.items = next
  ok : out.1 = .ok () → out.2.items = next

def Updates (codec : LineCodec) (store : HistoryStore) (next : List HistoryItem)
    (p : FsProgram Dir (Except HistoryError Unit × HistoryStore)) (s : Fs Dir) : Prop :=
  Safe Fs.exec (fun s' => listed codec s' = listed codec s ∨ listed codec s' = next)
    (Updated codec s store next) p s

theorem safe_add (h : WellFormed self.items) (item : NewHistoryItem) (s : Fs Dir) :
    Updates codec self (adding self.items item) (self.add codec item) s := by
  have hadding := h.adding item
  unfold HistoryStore.add
  split
  · rename_i hknown
    exact ⟨.inl rfl, .inl ⟨rfl, rfl⟩, .inl rfl, fun _ => (if_pos hknown).symm⟩
  rename_i hnew
  refine Safe.bind ((safe_writeContent item s).mono (fun _ h => .inl h) fun _ _ _ h => h) ?_
  rintro r s₁ - ⟨hlisted, hkind⟩
  cases r with
  | error e => exact ⟨.inl hlisted, .inl ⟨rfl, hlisted⟩, .inl rfl, by rintro ⟨⟩⟩
  | ok kind =>
  cases hkind kind rfl
  have hupdated : recent (self.items ++ [⟨item.id, item.tsMs, kindOf item, item.source⟩]) =
      adding self.items item := (if_neg hnew).symm
  dsimp only
  rw [dropOldest_eq_recent h.bounded, hupdated]
  refine Safe.bind ((safe_persist hadding s₁).mono ?_ fun _ _ _ h => h) ?_
  · rintro s' (hsame | hdone)
    · exact .inl (hsame.trans hlisted)
    · exact .inr hdone
  rintro r s₂ hbetween ⟨hok, herror⟩
  cases r with
  | error e =>
    have hsame := (herror (by rintro ⟨⟩)).trans hlisted
    dsimp only
    split
    · refine ⟨hbetween, fun r s₃ hremove => ?_⟩
      have hsame' : listed codec s₃ = listed codec s :=
        (listed_congr codec (Fs.files_of_leaves (remove_onImages _).leaves hremove)).trans hsame
      exact ⟨.inl hsame', .inl ⟨rfl, hsame'⟩, .inl rfl, by rintro ⟨⟩⟩
    · exact ⟨hbetween, .inl ⟨rfl, hsame⟩, .inl rfl, by rintro ⟨⟩⟩
  | ok u =>
    have hdone := hok rfl
    dsimp only
    split
    · exact ⟨hbetween, .inr hdone, .inr rfl, fun _ => rfl⟩
    · refine Safe.bind ((safe_onImages (removeFileIfExists_onImages _)).mono
        (fun _ h => .inr (h.trans hdone)) fun _ _ _ h => h) ?_
      intro r s₃ hbetween₃ hsame
      exact ⟨hbetween₃, .inr (hsame.trans hdone), .inr rfl, fun _ => rfl⟩

theorem safe_clear (self : HistoryStore) (s : Fs Dir) :
    Updates codec self [] (self.clear codec) s := by
  refine Safe.bind (safe_persist .nil s) ?_
  rintro r s₁ hbetween ⟨hok, herror⟩
  cases r with
  | error e => exact ⟨hbetween, .inl ⟨rfl, herror nofun⟩, .inl rfl, nofun⟩
  | ok u =>
    refine Safe.bind ((safe_onImages (removeFiles_onImages _)).mono
      (fun _ h => .inr (h.trans (hok rfl))) fun _ _ _ h => h) ?_
    intro r s₂ hbetween₂ hsame
    exact ⟨hbetween₂, .inr (hsame.trans (hok rfl)), .inr rfl, fun _ => rfl⟩

/-- The same list, but with another source of a received item. -/
structure Promotes (items items' : List HistoryItem) : Prop where
  ids : items'.map (·.id) = items.map (·.id)
  received : ∀ item ∈ items', item.source ≠ .local' →
    ∃ old ∈ items, old.id = item.id ∧ old.source ≠ .local'

def promoting (items : List HistoryItem) (id : Uuid) : List HistoryItem :=
  items.replaceF fun other => if other.id = id then some { other with source := .remote } else none

theorem promoting_cases (items : List HistoryItem) (id : Uuid) :
    promoting items id = items ∨ ∃ old before after, items = before ++ old :: after ∧
      old.id = id ∧ promoting items id = before ++ { old with source := .remote } :: after := by
  rcases List.exists_or_eq_self_of_replaceF
    (fun other : HistoryItem =>
      if other.id = id then some { other with source := .remote } else none)
    items with hsame | ⟨old, new, before, after, -, hnew, hsplit, hreplaced⟩
  · exact .inl hsame
  · obtain ⟨hid, ⟨⟩⟩ := Option.ite_none_right_eq_some.1 hnew
    exact .inr ⟨old, before, after, hsplit, hid, hreplaced⟩

theorem WellFormed.promoting (h : WellFormed items) (id : Uuid) :
    WellFormed (promoting items id) := by
  rcases promoting_cases items id with hsame | ⟨old, before, after, rfl, -, hnew⟩
  · rw [hsame]
    exact h
  · rw [hnew]
    refine ⟨fun item hitem => ?_, by simpa using h.nodup, by simpa using h.bounded⟩
    rcases List.mem_append.1 hitem with hbefore | hrest
    · exact h.valid item (by simp [hbefore])
    rcases List.mem_cons.1 hrest with rfl | hafter
    · exact h.valid old (by simp)
    · exact h.valid item (by simp [hafter])

theorem promotes_promoting (h : WellFormed items) (hitem : item ∈ items)
    (hreceived : item.source ≠ .local') : Promotes items (promoting items item.id) := by
  rcases promoting_cases items item.id with hsame | ⟨old, before, after, rfl, hid, hnew⟩
  · rw [hsame]
    exact ⟨rfl, fun other hother hsource => ⟨other, hother, rfl, hsource⟩⟩
  have hold : old = item := List.inj_on_of_nodup_map h.nodup (by simp) hitem hid
  rw [hnew]
  refine ⟨by simp, fun other hother hsource => ?_⟩
  rcases List.mem_append.1 hother with hbefore | hrest
  · exact ⟨other, by simp [hbefore], rfl, hsource⟩
  rcases List.mem_cons.1 hrest with rfl | hafter
  · exact ⟨old, by simp, rfl, hold ▸ hreceived⟩
  · exact ⟨other, by simp [hafter], rfl, hsource⟩

def sourcing (items : List HistoryItem) (id : Uuid) (source : HistorySource) : List HistoryItem :=
  if items.any fun item => item.id = id ∧ transition item.source source then promoting items id
  else items

theorem promotes_sourcing (h : WellFormed items) (id : Uuid) (source : HistorySource) :
    Promotes items (sourcing items id source) := by
  unfold sourcing
  split
  · rename_i hany
    obtain ⟨item, hitem, rfl, htransition⟩ :
        ∃ item ∈ items, item.id = id ∧ transition item.source source = true := by
      simpa using hany
    refine promotes_promoting h hitem fun hlocal => ?_
    rw [hlocal] at htransition
    cases htransition
  · exact ⟨rfl, fun other hother hsource => ⟨other, hother, rfl, hsource⟩⟩

theorem WellFormed.sourcing (h : WellFormed items) (id : Uuid) (source : HistorySource) :
    WellFormed (sourcing items id source) := by
  unfold HistoryStore.sourcing
  split
  · exact h.promoting id
  · exact h

theorem safe_setSource (h : WellFormed self.items) (id : Uuid) (source : HistorySource)
    (s : Fs Dir) :
    Updates codec self (sourcing self.items id source) (self.setSource codec id source) s := by
  unfold setSource
  split
  · exact ⟨.inl rfl, .inl ⟨rfl, rfl⟩, .inl rfl, by rintro ⟨⟩⟩
  rename_i item hfind
  have hitem := List.mem_of_find?_eq_some hfind
  have hid : item.id = id := by simpa using List.find?_some hfind
  split
  · rename_i htransition
    have hsourcing : sourcing self.items id source = promoting self.items id :=
      if_pos (by simpa using ⟨item, hitem, hid, htransition⟩)
    rw [hsourcing]
    refine Safe.bind (safe_persist (h.promoting id) s) ?_
    rintro r s₁ hbetween ⟨hok, herror⟩
    cases r with
    | error e => exact ⟨hbetween, .inl ⟨rfl, herror (by rintro ⟨⟩)⟩, .inl rfl, by rintro ⟨⟩⟩
    | ok u => exact ⟨hbetween, .inr (hok rfl), .inr rfl, fun _ => rfl⟩
  · rename_i htransition
    refine ⟨.inl rfl, .inl ⟨rfl, rfl⟩, .inl rfl, fun _ => (if_neg fun hany => htransition ?_).symm⟩
    obtain ⟨other, hother, hsame, htrue⟩ :
        ∃ other ∈ self.items, other.id = id ∧ transition other.source source = true := by
      simpa using hany
    exact List.inj_on_of_nodup_map h.nodup hother hitem (hsame.trans hid.symm) ▸ htrue

/-! ## Opening -/

theorem safe_loadItems (s : Fs Dir) :
    Safe Fs.exec (· = s)
      (fun r _ => ∀ items, r = .ok items → recent items = listed codec s) (loadItems codec) s := by
  refine ⟨rfl, fun r s' hread => ?_⟩
  match r, hread with
  | .ok contents, ⟨hs, hfile⟩ =>
    refine ⟨hs, ?_⟩
    rintro items ⟨⟩
    rw [listed, hfile]
  | .error .notFound, ⟨hs, hfile⟩ =>
    refine ⟨hs, ?_⟩
    rintro items ⟨⟩
    rw [listed, hfile]
    rfl
  | .error (.other _), hs => exact ⟨hs, nofun⟩

/-- Opening reads the list and leaves it as it is. -/
theorem safe_open (s : Fs Dir) :
    Safe Fs.exec (fun s' => listed codec s' = listed codec s)
      (fun r _ => ∀ self, r = .ok self → self.items = listed codec s)
      (HistoryStore.new codec) s := by
  refine ⟨rfl, fun r s' hcreate => ?_⟩
  cases hcreate
  cases r with
  | error e => exact ⟨rfl, nofun⟩
  | ok u =>
  change Safe _ _ _ (loadItems codec >>= _) s
  refine Safe.bind ((safe_loadItems s).mono (fun _ h => congrArg _ h) fun _ _ _ h => h) ?_
  intro r s₁ hsame hitems
  cases r with
  | error e => exact ⟨hsame, nofun⟩
  | ok items =>
  refine Safe.bind ((safe_onImages (cleanupOrphanImages_onImages _)).mono
    (fun _ h => h.trans hsame) fun _ _ _ h => h) ?_
  intro r s₂ hsame₂ _
  cases r with
  | error e => exact ⟨hsame₂, nofun⟩
  | ok u =>
    refine ⟨hsame₂, ?_⟩
    rintro self ⟨⟩
    exact hitems items rfl

/-! ## What has been in the history -/

/-- All items in memory have been written. -/
structure Recorded (codec : LineCodec) (s : Fs Dir) (store : HistoryStore) : Prop where
  wellFormed : WellFormed store.items
  written : ∀ item ∈ store.items, InHistory codec s item.id

theorem Recorded.mono (h : Recorded codec s self)
    (hgrown : s.versions metadataFile ⊆ s'.versions metadataFile) : Recorded codec s' self :=
  ⟨h.wellFormed, fun item hitem => (h.written item hitem).mono hgrown⟩

theorem recorded_of_listed (hversion : s.IsVersion metadataFile)
    (hitems : self.items = listed codec s) : Recorded codec s self := by
  refine ⟨hitems ▸ wellFormed_listed codec s, fun item hitem => ?_⟩
  rw [hitems, listed] at hitem
  split at hitem
  · rename_i contents hfile
    exact ⟨contents, hversion contents hfile, item, (recent_sublist _).subset hitem, rfl⟩
  · cases hitem

theorem keeps_new (hversion : s.IsVersion metadataFile) :
    Keeps s (new codec) fun r s' => ∀ self, r = .ok self → Recorded codec s' self := by
  refine (Keeps.of_safe (new_own codec) (safe_open s)).imp ?_
  rintro r s' - ⟨hkept, hitems⟩
  exact ⟨hkept, fun self hr => (recorded_of_listed hversion (hitems self hr)).mono (hkept.grown _)⟩

section Updates

variable (hself : Recorded codec s self) (hversion : s.IsVersion metadataFile)

include hself hversion

/-- A change leaves nothing in memory that has not been written. -/
theorem keeps_of_updates {next : List HistoryItem}
    {p : FsProgram Dir (Except HistoryError Unit × HistoryStore)} (hops : AllOps Own p)
    (hp : Updates codec self next p s) : Keeps s p fun out s' =>
      Recorded codec s' out.2 ∧ (out.1 = .ok () → out.2.items = next) := by
  refine (Keeps.of_safe hops hp).imp ?_
  rintro ⟨r, self'⟩ s' - ⟨hkept, hsettled, -, hok⟩
  refine ⟨hkept, ?_, hok⟩
  rcases hsettled with ⟨rfl, -⟩ | hsame
  · exact hself.mono (hkept.grown _)
  · exact recorded_of_listed (hkept.isVersion hversion) hsame.symm

theorem keeps_add (item : NewHistoryItem) :
    Keeps s (self.add codec item) fun (r, self') s' =>
      Recorded codec s' self' ∧ (r = .ok () → InHistory codec s' item.id) := by
  refine (keeps_of_updates hself hversion (add_own codec self item)
    (safe_add hself.wellFormed item s)).imp ?_
  rintro ⟨r, self'⟩ s' - ⟨hkept, hrecorded, hok⟩
  refine ⟨hkept, hrecorded, fun hr => ?_⟩
  obtain ⟨known, hknown, hid⟩ := exists_mem_adding self.items item
  rw [← hok hr] at hknown
  exact hid ▸ hrecorded.written known hknown

theorem keeps_clear :
    Keeps s (self.clear codec) fun (_, self') s' => Recorded codec s' self' :=
  (keeps_of_updates hself hversion (clear_own codec self) (safe_clear self s)).imp
    fun _ _ _ h => ⟨h.1, h.2.1⟩

theorem keeps_setSource (id : Uuid) (source : HistorySource) :
    Keeps s (self.setSource codec id source) fun (_, self') s' => Recorded codec s' self' :=
  (keeps_of_updates hself hversion (setSource_own codec self id source)
    (safe_setSource hself.wellFormed id source s)).imp fun _ _ _ h => ⟨h.1, h.2.1⟩

end Updates

end HistoryStore

end ClipSync
