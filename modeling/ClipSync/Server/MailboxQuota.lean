import ClipSync.Server.MailboxOpen
import ClipSync.Server.MailboxPending
import Mathlib.Algebra.Order.BigOperators.Group.Finset

/-!
# The quota of the mailbox

A publication is checked against a table of sizes that is kept beside the files. The
table is brought up to date after the file of a room has been replaced, and a sweep takes
a room out of it before it deletes the file. So the table can be behind the files: after
a publication that fails when its file has been renamed, and in the middle of a sweep. If
no sync of the directory fails after a renaming and no publication is checked while a
sweep has still to delete a file, the files stay within the quota.
-/

namespace ClipSync

open Lib Program Threads PersistentMailbox

namespace MailboxRun

/-! ## Files and sizes -/

def fileLength (fs : Fs Unit) (roomId : String) : ℕ :=
  ((fs.files (path roomId)).map List.length).getD 0

def noted (sizes : HashMap String ℕ) (roomId : String) : ℕ := (sizes.lookup roomId).getD 0

def totalNoted (sizes : HashMap String ℕ) : ℕ := sizes.keys.sum (noted sizes)

def Named (roomId : String) : Prop := Mailbox.validateRoomId roomId = .ok ()

def WithinQuota (options : MailboxOptions) (fs : Fs Unit) : Prop :=
  ∀ rooms : Finset String, (∀ roomId ∈ rooms, Named roomId) →
    rooms.sum (fileLength fs) ≤ options.maxBytes

def Fits (options : MailboxOptions) (fs : Fs Unit) (roomId : String) (size : ℕ) : Prop :=
  ∀ rooms : Finset String, (∀ other ∈ rooms, Named other) → roomId ∉ rooms →
    rooms.sum (fileLength fs) + size ≤ options.maxBytes

variable {codec : MailboxCodec} {options : MailboxOptions} {fs fs' : Fs Unit} {roomId : String}

theorem sum_noted_le (sizes : HashMap String ℕ) (rooms : Finset String) :
    rooms.sum (noted sizes) ≤ totalNoted sizes := by
  refine Finset.sum_le_sum_of_ne_zero fun roomId _ hne => ?_
  rw [Finmap.mem_keys]
  by_contra hmem
  rw [noted, Finmap.lookup_eq_none.2 hmem] at hne
  exact hne rfl

theorem noted_le_total (sizes : HashMap String ℕ) (roomId : String) :
    noted sizes roomId ≤ totalNoted sizes := by
  simpa using sum_noted_le sizes {roomId}

theorem sum_noted_of_notMem (sizes : HashMap String ℕ) {rooms : Finset String}
    (h : roomId ∉ rooms) : rooms.sum (noted sizes) ≤ totalNoted sizes - noted sizes roomId := by
  have hinsert := sum_noted_le sizes (insert roomId rooms)
  rw [Finset.sum_insert h] at hinsert
  exact Nat.le_sub_of_add_le' hinsert

theorem WithinQuota.anti (h : WithinQuota options fs)
    (hle : ∀ roomId, fileLength fs' roomId ≤ fileLength fs roomId) : WithinQuota options fs' :=
  fun rooms hnamed => (Finset.sum_le_sum fun roomId _ => hle roomId).trans (h rooms hnamed)

variable {m₀ m₁ : MailboxState} {scan : Scan} {size : ℕ}

theorem Fits.anti (h : Fits options fs roomId size)
    (hle : ∀ other, fileLength fs' other ≤ fileLength fs other) : Fits options fs' roomId size :=
  fun rooms hnamed hmem =>
    (Nat.add_le_add_right (Finset.sum_le_sum fun other _ => hle other) size).trans
      (h rooms hnamed hmem)

theorem Fits.withinQuota (h : Fits options fs roomId size) (hown : fileLength fs' roomId = size)
    (hothers : ∀ other, other ≠ roomId → fileLength fs' other = fileLength fs other) :
    WithinQuota options fs' := by
  intro rooms hnamed
  have hfits := h (rooms.erase roomId)
    (fun other hmem => hnamed other (Finset.mem_of_mem_erase hmem))
    (Finset.notMem_erase roomId rooms)
  have hsum : (rooms.erase roomId).sum (fileLength fs') =
      (rooms.erase roomId).sum (fileLength fs) :=
    Finset.sum_congr rfl fun other hmem => hothers other (Finset.ne_of_mem_erase hmem)
  by_cases hmem : roomId ∈ rooms
  · rw [← Finset.sum_erase_add rooms _ hmem, hsum, hown]
    exact hfits
  · rw [Finset.erase_eq_of_notMem hmem] at hsum hfits
    omega

theorem fileLength_set_tmp (room : String) (contents : Option Bytes) :
    fileLength (fs.set (tmpPath room) contents) roomId = fileLength fs roomId := by
  rw [fileLength, Fs.set_files_of_ne (tmpPath_ne_path room roomId), fileLength]

theorem fileLength_replace_self (contents : Bytes) :
    fileLength (fs.replace (tmpPath roomId) (path roomId) contents) roomId = contents.length := by
  rw [fileLength, Fs.replace_files_target]
  rfl

theorem fileLength_replace_of_ne {room : String} (h : roomId ≠ room) (contents : Bytes) :
    fileLength (fs.replace (tmpPath room) (path room) contents) roomId = fileLength fs roomId := by
  rw [fileLength, Fs.replace_files_of_ne (tmpPath_ne_path room roomId).symm
    fun heq => h (path_injective heq), fileLength]

/-! ## What the worker knows of the table -/

def Covered (s : MailboxRun) (roomId : String) : Prop :=
  (∀ n, (n, roomId) ∉ s.unsized) → fileLength s.mailbox.fs roomId ≤ noted s.mailbox.sizes roomId

def Covers (s : MailboxRun) : Prop := ∀ roomId, Named roomId → Covered s roomId

variable (codec options) in
/-- The phases of a publication. Between the renaming and the entry in the table, the room's
own file need not be covered. -/
def Bounds : WorkerPhase → MailboxRun → Prop
  | .checked roomId x, s | .written roomId x, s =>
    Covers s ∧ Fits options s.mailbox.fs roomId (encoded codec roomId x).length
  | .renamed roomId x, s =>
    (∀ other, Named other → other ≠ roomId → Covered s other) ∧
      fileLength s.mailbox.fs roomId ≤ (encoded codec roomId x).length
  | .idle, s | .holding .., s | .sized .., s | .indexed, s | .failed .., s | .degraded .., s =>
    Covers s

variable (codec options) in
def Sees (phase : WorkerPhase) (s : MailboxRun) : Prop :=
  phase.Drafted codec s.mailbox ∧ Bounds codec options phase s

/-- What the other threads leave to the worker. -/
structure Yields (s s' : MailboxRun) : Prop where
  temp : ∀ roomId, s'.mailbox.fs.files (tmpPath roomId) = s.mailbox.fs.files (tmpPath roomId)
  shrinks : ∀ roomId, fileLength s'.mailbox.fs roomId ≤ fileLength s.mailbox.fs roomId
  covered : ∀ roomId, Covered s roomId → Covered s' roomId

variable {s s' : MailboxRun} {phase phase' : WorkerPhase}

theorem Yields.covers (h : Yields s s') (hs : Covers s) : Covers s' :=
  fun roomId hnamed => h.covered roomId (hs roomId hnamed)

theorem Sees.of_yields (h : Sees codec options phase s) (hyields : Yields s s') :
    Sees codec options phase s' := by
  refine ⟨h.1.of_temp hyields.temp, ?_⟩
  obtain ⟨-, h⟩ := h
  cases phase with
  | checked roomId x | written roomId x =>
    exact ⟨hyields.covers h.1, h.2.anti hyields.shrinks⟩
  | renamed roomId x =>
    exact ⟨fun other hnamed hother => hyields.covered other (h.1 other hnamed hother),
      (hyields.shrinks roomId).trans h.2⟩
  | _ => exact hyields.covers h

variable {nowMs : Int64} {x : Snapshot} {n : ℕ}

theorem fits_of_prospective (hcovers : Covers s) (hsized : s.unsized = ∅)
    (h : ¬ prospective codec s.mailbox.sizes roomId x > options.maxBytes) :
    Fits options s.mailbox.fs roomId (encoded codec roomId x).length := by
  intro rooms hnamed hmem
  have hfiles : rooms.sum (fileLength s.mailbox.fs) ≤ rooms.sum (noted s.mailbox.sizes) := by
    refine Finset.sum_le_sum fun other hother => hcovers other (hnamed other hother) fun n => ?_
    rw [hsized]
    exact Finset.notMem_empty _
  have htable := sum_noted_of_notMem s.mailbox.sizes hmem
  have hprospective : prospective codec s.mailbox.sizes roomId x =
      totalNoted s.mailbox.sizes - noted s.mailbox.sizes roomId +
        (encoded codec roomId x).length := rfl
  omega

/-! ## Steps of the worker -/

def Deletes : StoreThread → (op : MailboxOp) → MailboxRun → op.Res → Prop
  | .sweeper _, .files (.remove target), s, r =>
    r = .ok () ∨ r = .error .notFound ∧ s.mailbox.fs.files target = none
  | _, _, _, _ => True

/-- A publication is not checked while a sweep has still to delete a file, and no sync of
the directory fails after a renaming. -/
def Careful : StoreThread → (op : MailboxOp) → MailboxRun → op.Res → Prop
  | .worker, .sizesGet, s, _ => s.unsized = ∅
  | .worker, .files (.syncDir _), _, r => r = .ok ()
  | _, _, _, _ => True

variable {m : MailboxState} {op : MailboxOp} {r : op.Res}

@[simp] theorem unsizedAfter_worker (unsized : Finset (ℕ × String)) (op : MailboxOp) :
    unsizedAfter unsized .worker op = unsized := by
  cases op <;> rfl

theorem Covered.of_eq (h : Covered s roomId) (hunsized : s'.unsized = s.unsized)
    (hlength : fileLength s'.mailbox.fs roomId ≤ fileLength s.mailbox.fs roomId)
    (hnoted : noted s'.mailbox.sizes roomId = noted s.mailbox.sizes roomId) :
    Covered s' roomId := by
  intro hsized
  rw [hunsized] at hsized
  rw [hnoted]
  exact hlength.trans (h hsized)

theorem Covers.worker (h : Covers s)
    (hlength : ∀ roomId, fileLength m.fs roomId = fileLength s.mailbox.fs roomId)
    (hsizes : m.sizes = s.mailbox.sizes) : Covers (s.after codec options .worker op r m) := by
  intro roomId hnamed
  refine (h roomId hnamed).of_eq (unsizedAfter_worker _ op) (hlength roomId).le ?_
  exact congrArg (noted · roomId) hsizes

theorem Covers.still (h : Covers s) (hfiles : .files ∉ op.changes) (hsizes : .sizes ∉ op.changes)
    (hexec : MailboxState.exec op s.mailbox r m) :
    Covers (s.after codec options .worker op r m) ∧ m.fs = s.mailbox.fs := by
  have hfs : m.fs = s.mailbox.fs := MailboxState.same_of_exec hexec .files hfiles
  refine ⟨h.worker (fun roomId => ?_) (MailboxState.same_of_exec hexec .sizes hsizes), hfs⟩
  rw [hfs]

variable (codec options) in
def Leads (phase : WorkerPhase) (s : MailboxRun) : Prop :=
  Bounds codec options phase s ∧ WithinQuota options s.mailbox.fs

/-- What is written to the temporary file does not count. -/
theorem Leads.temp (h : Leads codec options (.checked roomId x) s) (contents : Option Bytes) :
    Leads codec options (.checked roomId x) (s.after codec options .worker op r
      { s.mailbox with fs := s.mailbox.fs.set (tmpPath roomId) contents }) :=
  ⟨⟨h.1.1.worker (fun _ => fileLength_set_tmp roomId contents) rfl,
    h.1.2.anti fun _ => (fileLength_set_tmp roomId contents).le⟩,
    h.2.anti fun _ => (fileLength_set_tmp roomId contents).le⟩

/-- Every careful step of the worker leads to the next phase. -/
theorem Leads.step (h : Leads codec options phase s) (hdrafted : phase.Drafted codec s.mailbox)
    (hflow : WorkerPhase.Flow codec options phase op r phase')
    (hexec : MailboxState.exec op s.mailbox r m) (hcareful : Careful .worker op s r) :
    Leads codec options phase' (s.after codec options .worker op r m) := by
  have hstill : Covers s → .files ∉ op.changes → .sizes ∉ op.changes →
      Covers (s.after codec options .worker op r m) ∧ WithinQuota options m.fs := by
    intro before hfiles hsizes
    obtain ⟨hcovers, hfs⟩ := before.still hfiles hsizes hexec
    exact ⟨hcovers, hfs ▸ h.2⟩
  cases hflow with
  | rest hop => exact hstill h.1 (hop.notMem_changes (by decide)) (hop.notMem_changes (by decide))
  | take r =>
    have hnext := hstill h.1 (by simp [MailboxOp.changes]) (by simp [MailboxOp.changes])
    cases r <;> exact hnext
  | check sizes =>
    obtain ⟨hcovers, hquota⟩ := hstill h.1 (by simp [MailboxOp.changes])
      (by simp [MailboxOp.changes])
    obtain ⟨rfl, rfl⟩ := hexec
    split
    · exact ⟨hcovers, hquota⟩
    · rename_i hcheck
      exact ⟨⟨hcovers, fits_of_prospective h.1 hcareful hcheck⟩, hquota⟩
  | create r =>
    obtain ⟨fs, hfs, rfl⟩ := hexec
    cases r with
    | error e =>
      cases hfs
      exact ⟨h.1.1.worker (fun _ => rfl) rfl, h.2⟩
    | ok u =>
      cases hfs
      exact h.temp _
  | write r =>
    obtain ⟨fs, hfs, rfl⟩ := hexec
    cases r with
    | error e =>
      obtain ⟨part, -, rfl⟩ := hfs
      exact ⟨(h.temp _).1.1, (h.temp _).2⟩
    | ok u =>
      cases hfs
      exact h.temp _
  | sync r =>
    obtain ⟨fs, rfl, rfl⟩ := hexec
    cases r with
    | error e => exact ⟨h.1.1.worker (fun _ => rfl) rfl, h.2⟩
    | ok u => exact ⟨⟨h.1.1.worker (fun _ => rfl) rfl, h.1.2⟩, h.2⟩
  | rename r =>
    obtain ⟨fs, hfs, rfl⟩ := hexec
    cases r with
    | error e =>
      cases hfs
      exact ⟨h.1.1.worker (fun _ => rfl) rfl, h.2⟩
    | ok u =>
      obtain ⟨contents, hcontents, rfl⟩ := hfs
      cases hcontents.symm.trans hdrafted
      refine ⟨⟨fun other hnamed hother => ?_, (fileLength_replace_self _).le⟩, ?_⟩
      · refine (h.1.1 other hnamed).of_eq rfl ?_ rfl
        exact (fileLength_replace_of_ne hother _).le
      · exact h.1.2.withinQuota (fileLength_replace_self _)
          fun other hother => fileLength_replace_of_ne hother _
  | syncDir r =>
    cases hcareful
    obtain ⟨fs, rfl, rfl⟩ := hexec
    refine ⟨⟨fun other hnamed hother => ?_, h.1.2⟩, h.2⟩
    exact (h.1.1 other hnamed hother).of_eq rfl le_rfl rfl
  | @size roomId x =>
    cases hexec
    refine ⟨fun other hnamed => ?_, h.2⟩
    by_cases hother : other = roomId
    · subst hother
      intro _
      change fileLength s.mailbox.fs other ≤ noted (s.mailbox.sizes.insert other _) other
      rw [noted, Finmap.lookup_insert]
      exact h.1.2
    · refine (h.1.1 other hnamed hother).of_eq rfl le_rfl ?_
      exact congrArg (Option.getD · 0) (Finmap.lookup_insert_of_ne _ hother)
  | enter | healthy | note | mark | putBack =>
    exact hstill h.1 (by simp [MailboxOp.changes]) (by simp [MailboxOp.changes])

/-! ## Steps of a sweep -/

def Erases (n : ℕ) : SweepPhase → MailboxRun → Prop
  | .unsized roomId _, s => ∀ other, (n, other) ∈ s.unsized → other = roomId
  | .starting, s | .listing _, s | .clearing _, s | .unlisted .., s | .deleted _, s =>
    ∀ other, (n, other) ∉ s.unsized

theorem yields_of_eq (hfs : s'.mailbox.fs = s.mailbox.fs)
    (hsizes : s'.mailbox.sizes = s.mailbox.sizes) (hunsized : s'.unsized = s.unsized) :
    Yields s s' := by
  refine ⟨fun roomId => by rw [hfs], fun roomId => by rw [hfs], fun roomId h => ?_⟩
  refine h.of_eq hunsized ?_ ?_
  · rw [hfs]
  · rw [hsizes]

theorem yields_sizesRemove (n : ℕ) (r : MailboxOp.Res (.sizesRemove roomId)) :
    Yields s (s.after codec options (.sweeper n) (.sizesRemove roomId) r
      { s.mailbox with sizes := s.mailbox.sizes.erase roomId }) := by
  refine ⟨fun _ => rfl, fun _ => le_rfl, fun other h hsized => ?_⟩
  have hother : other ≠ roomId := by
    rintro rfl
    exact hsized n (Finset.mem_insert_self _ _)
  have hnoted : noted (s.mailbox.sizes.erase roomId) other = noted s.mailbox.sizes other :=
    congrArg (Option.getD · 0) (Finmap.lookup_erase_ne hother)
  refine (h fun k hk => hsized k (Finset.mem_insert_of_mem hk)).trans ?_
  exact hnoted.ge

theorem yields_remove {r : MailboxOp.Res (.files (.remove (path roomId)))}
    (hunsized : ∀ other, (n, other) ∈ s.unsized → other = roomId)
    (hexec : MailboxState.exec (.files (.remove (path roomId))) s.mailbox r m)
    (hdeletes : Deletes (.sweeper n) (.files (.remove (path roomId))) s r) :
    Yields s (s.after codec options (.sweeper n) (.files (.remove (path roomId))) r m) := by
  obtain ⟨fs, hfs, rfl⟩ := hexec
  have hown : fs.files (path roomId) = none := by
    rcases hdeletes with rfl | ⟨rfl, hnone⟩
    · cases hfs
      exact Function.update_self _ _ _
    · cases hfs.1
      exact hnone
  have hothers : ∀ target, target ≠ path roomId → fs.files target = s.mailbox.fs.files target := by
    intro target htarget
    have hleaves : (FsOp.remove (path roomId) : FsOp Unit).Leaves target := htarget.symm
    exact Fs.files_of_leaves hleaves hfs
  have hlength : ∀ other, other ≠ roomId →
      fileLength fs other = fileLength s.mailbox.fs other := by
    intro other hother
    rw [fileLength, hothers _ fun heq => hother (path_injective heq), fileLength]
  have hzero : fileLength fs roomId = 0 := by
    rw [fileLength, hown]
    rfl
  refine ⟨fun other => hothers _ (tmpPath_ne_path other roomId), fun other => ?_,
    fun other h hsized => ?_⟩
  · by_cases hother : other = roomId
    · subst hother
      exact hzero.trans_le (Nat.zero_le _)
    · exact (hlength other hother).le
  · by_cases hother : other = roomId
    · subst hother
      exact hzero.trans_le (Nat.zero_le _)
    · refine (hlength other hother).trans_le (h fun k hk => ?_)
      by_cases hkn : k = n
      · subst hkn
        exact hother (hunsized other hk)
      · exact hsized k (Finset.mem_filter.2 ⟨hk, hkn⟩)

theorem Erases.step {phase phase' : SweepPhase} (h : Erases n phase s)
    (hflow : phase.Flow options nowMs op r phase') (hexec : MailboxState.exec op s.mailbox r m)
    (hdeletes : Deletes (.sweeper n) op s r) :
    Erases n phase' (s.after codec options (.sweeper n) op r m) ∧
      Yields s (s.after codec options (.sweeper n) op r m) := by
  have hsame : .files ∉ op.changes → .sizes ∉ op.changes →
      unsizedAfter s.unsized (.sweeper n) op = s.unsized →
      Yields s (s.after codec options (.sweeper n) op r m) := fun hfiles hsizes hunsized =>
    yields_of_eq (MailboxState.same_of_exec hexec .files hfiles)
      (MailboxState.same_of_exec hexec .sizes hsizes) hunsized
  cases hflow with
  | collect => exact ⟨h, hsame nofun nofun rfl⟩
  | list => exact ⟨h, hsame nofun nofun rfl⟩
  | unlist r =>
    have hyields := hsame (by simp [MailboxOp.changes]) (by simp [MailboxOp.changes]) rfl
    cases r <;> exact ⟨h, hyields⟩
  | unsize =>
    cases hexec
    refine ⟨fun other hmem => ?_, yields_sizesRemove n _⟩
    rcases Finset.mem_insert.1 hmem with heq | hmem
    · exact congrArg Prod.snd heq
    · exact absurd hmem (h other)
  | delete => exact ⟨fun other hmem => (Finset.mem_filter.1 hmem).2 rfl,
      yields_remove h hexec hdeletes⟩
  | sync =>
    obtain ⟨fs, rfl, rfl⟩ := hexec
    exact ⟨h, yields_of_eq rfl rfl rfl⟩

/-! ## Careful runs -/

theorem Erases.of_unsized {phase : SweepPhase} (h : Erases n phase s)
    (hunsized : ∀ other, (n, other) ∈ s'.unsized ↔ (n, other) ∈ s.unsized) : Erases n phase s' := by
  cases phase with
  | unsized roomId rest | _ => exact fun other hmem => h other ((hunsized other).1 hmem)

theorem unsizedAfter_clip (unsized : Finset (ℕ × String)) (n : ℕ) (roomId recipientFp : String)
    (clip : PendingClip) (op : MailboxOp) :
    unsizedAfter unsized (.clip n roomId recipientFp clip) op = unsized := by
  cases op <;> rfl

theorem mem_unsizedAfter_of_ne {k : ℕ} (h : k ≠ n) (unsized : Finset (ℕ × String))
    (op : MailboxOp) (other : String) :
    (k, other) ∈ unsizedAfter unsized (.sweeper n) op ↔ (k, other) ∈ unsized := by
  cases op with
  | sizesRemove room => simp [unsizedAfter, h]
  | files op =>
    cases op with
    | remove target => simp [unsizedAfter, h]
    | _ => rfl
  | _ => rfl

variable (codec options) in
theorem sees_invariant :
    Invariant (system codec options fun t op s r => Deletes t op s r ∧ Careful t op s r)
      (fun s => WithinQuota options s.mailbox.fs)
      (Stage codec options (Sees codec options) Erases) := by
  refine stage_invariant id (fun hquota hsees hflow hexec hallow => ?_)
    (fun {n roomId recipientFp clip op r s m} hquota hclip hexec => ?_)
    fun {n _ _ _ op _ s _} hquota herases hflow hexec hallow => ?_
  · obtain ⟨hbounds, hquota'⟩ := Leads.step ⟨hsees.2, hquota⟩ hsees.1 hflow hexec hallow.2
    refine ⟨hquota', ⟨WorkerPhase.drafted_of_flow hsees.1 hflow hexec, hbounds⟩, absurd rfl,
      fun n _ phase herases => herases.of_unsized fun other => ?_⟩
    rw [after, unsizedAfter_worker]
  · have hunsized := unsizedAfter_clip s.unsized n roomId recipientFp clip op
    have hyields : Yields s (s.after codec options (.clip n roomId recipientFp clip) op r m) :=
      yields_of_eq (MailboxState.same_of_exec hexec .files (hclip.notMem_changes (by decide)))
        (MailboxState.same_of_exec hexec .sizes (hclip.notMem_changes (by decide))) hunsized
    refine ⟨hquota.anti hyields.shrinks, fun _ _ hsees => hsees.of_yields hyields,
      fun k _ phase herases => herases.of_unsized fun other => ?_⟩
    rw [after, hunsized]
  · obtain ⟨hnext, hyields⟩ := herases.step hflow hexec hallow.1
    refine ⟨hquota.anti hyields.shrinks, hnext, fun _ _ hsees => hsees.of_yields hyields,
      fun k hk phase herases => herases.of_unsized fun other => ?_⟩
    exact mem_unsizedAfter_of_ne (fun heq => hk (by rw [heq])) s.unsized op other

def Fresh (codec : MailboxCodec) (options : MailboxOptions) (nowMs : Int64) (fs : Fs Unit) : Prop :=
  ∀ roomId bytes, Named roomId → fs.files (path roomId) = some bytes →
    ∃ x, Decodes codec roomId bytes x ∧ isExpired x.tsMs nowMs options.ttlMs = false

theorem noted_of_openScan (hfresh : Fresh codec options nowMs m₀.fs)
    (hopen : Exec (scanning nowMs) (openScan codec options) m₀ (.ok scan) m₁)
    (hnamed : Named roomId) : fileLength m₁.fs roomId = fileLength m₀.fs roomId ∧
      noted scan.sizes roomId = fileLength m₀.fs roomId := by
  obtain ⟨hmissing, hentered⟩ := exec_openScan hopen
  cases hfile : m₀.fs.files (path roomId) with
  | none =>
    obtain ⟨-, hsizes, hkept⟩ := hmissing hfile
    rw [fileLength, fileLength, noted, hsizes, hkept, hfile]
    exact ⟨rfl, rfl⟩
  | some bytes =>
    obtain ⟨x, hdecodes, hunexpired⟩ := hfresh roomId bytes hnamed hfile
    obtain ⟨-, hsizes, hkept⟩ := hentered bytes x hnamed hfile hdecodes hunexpired
    rw [fileLength, fileLength, noted, hsizes, hkept, hfile]
    exact ⟨rfl, rfl⟩

theorem sees_start (hfresh : Fresh codec options nowMs m₀.fs) (hquota : WithinQuota options m₀.fs)
    (hopen : Exec (scanning nowMs) (openScan codec options) m₀ (.ok scan) m₁) :
    Holds (fun s => WithinQuota options s.mailbox.fs)
      (Stage codec options (Sees codec options) Erases) (start codec options m₁.fs scan) := by
  refine stage_start (fun rooms hnamed => ?_) ⟨trivial, fun roomId hnamed _ => ?_⟩
    fun _ _ => Finset.notMem_empty _
  · refine le_of_eq_of_le (Finset.sum_congr rfl fun roomId hmem => ?_) (hquota rooms hnamed)
    exact (noted_of_openScan hfresh hopen (hnamed roomId hmem)).1
  · obtain ⟨hlength, hnoted⟩ := noted_of_openScan hfresh hopen hnamed
    exact (hlength.trans hnoted.symm).le

/-! ## The quota over whole runs -/

/-- A mailbox opened over a directory of snapshots within the quota: if publications are
checked only while no sweep has still to delete a file and no sync of the directory fails
after a renaming, the files stay within the quota. In any run, the subtraction of the
check does not underflow, a publication that the quota refuses leaves files, sizes and
index alone, and the newest clip of its room is pending until the room is tried again. -/
theorem files_within_quota {nowMs : Int64} {m₀ m₁ : MailboxState} {scan : Scan}
    (hfresh : Fresh codec options nowMs m₀.fs) (hquota : WithinQuota options m₀.fs)
    (hopen : Exec (scanning nowMs) (openScan codec options) m₀ (.ok scan) m₁)
    {x : Threads MailboxOp MailboxOp.Res StoreThread.Value MailboxRun}
    (hrun : Reaches (system codec options Deletes) (start codec options m₁.fs scan) x) :
    (Reaches (system codec options fun t op s r => Deletes t op s r ∧ Careful t op s r)
      (start codec options m₁.fs scan) x → WithinQuota options x.shared.mailbox.fs) ∧
    (∀ roomId, noted x.shared.mailbox.sizes roomId ≤ totalNoted x.shared.mailbox.sizes) ∧
    ∀ roomId ∈ x.shared.refused,
      (x.shared.mailbox.InFlight roomId → ∀ op k, x.threads .worker = some (call op k) →
        KeepsPublished op) ∧
      (¬ x.shared.mailbox.InFlight roomId → ∃ y,
        x.shared.mailbox.dirty.lookup roomId = some y ∧
          newest scan.index x.shared.mailbox.pended roomId = some y) := by
  refine ⟨fun hcareful => ?_, noted_le_total _, fun roomId hrefused => ⟨?_, fun hfree => ?_⟩⟩
  · exact ((sees_invariant codec options).reaches (sees_start hfresh hquota hopen) hcareful).1
  · rintro ⟨y, hy⟩ op k hcall
    obtain ⟨-, hlocal⟩ :=
      (carries_invariant codec options Deletes).reaches (carries_start m₁.fs scan) hrun
    obtain ⟨phase, hruns, hhands⟩ := hlocal .worker _ hcall
    obtain ⟨r⟩ := op.nonempty_res
    obtain ⟨phase', hflow, -⟩ := hruns r
    exact hhands.keepsPublished hy hrefused hflow
  · obtain ⟨hpending, -⟩ :=
      (carries_invariant codec options Deletes).reaches (carries_start m₁.fs scan) hrun
    obtain ⟨y, hy⟩ := Option.ne_none_iff_exists'.1 ((hpending.refused hrefused).resolve_right hfree)
    exact ⟨y, hy, hpending.dirty hy⟩

/-! ## A failed sync of the directory -/

instance (t : StoreThread) (op : MailboxOp) (s : MailboxRun) (r : op.Res) :
    Decidable (Deletes t op s r) := by
  unfold Deletes
  split <;> infer_instance

instance (t : StoreThread) (op : MailboxOp) (s : MailboxRun) (r : op.Res) :
    Decidable (Careful t op s r) := by
  unfold Careful
  split <;> infer_instance

def sampleSnapshot : Snapshot := ⟨"recipient", "origin", "clip", 0⟩

def sampleQuota : MailboxOptions :=
  { maxBytes := (encoded sampleMailboxCodec sampleRoomId sampleSnapshot).length }

def sampleEmpty : MailboxState :=
  (opened sampleMailboxCodec sampleQuota ⟨fun _ => none, fun _ => []⟩ ⟨∅, ∅⟩).shared

def sampleOpened : Threads MailboxOp MailboxOp.Res StoreThread.Value MailboxRun :=
  start sampleMailboxCodec sampleQuota sampleEmpty.fs ⟨∅, ∅⟩

theorem fresh_sampleEmpty : Fresh sampleMailboxCodec sampleQuota 0 sampleEmpty.fs :=
  fun _ _ _ h => nomatch h

theorem withinQuota_sampleEmpty : WithinQuota sampleQuota sampleEmpty.fs := by
  intro rooms _
  have hzero : rooms.sum (fileLength sampleEmpty.fs) = 0 := Finset.sum_eq_zero fun _ _ => rfl
  rw [hzero]
  exact Nat.zero_le _

theorem exec_openScan_sampleEmpty : Exec (scanning 0) (openScan sampleMailboxCodec sampleQuota)
    sampleEmpty (.ok ⟨∅, ∅⟩) sampleEmpty := by
  have hdir : scanning 0 (.files (.createDirAll ())) sampleEmpty (.ok ()) sampleEmpty :=
    ⟨⟨_, rfl, rfl⟩, rfl, trivial⟩
  have hnames : scanning 0 (.files (.readDir ())) sampleEmpty (.ok []) sampleEmpty :=
    ⟨⟨_, ⟨rfl, fun name => ⟨nofun, nofun⟩⟩, rfl⟩, rfl, trivial⟩
  exact .call hdir (.call hnames (.done _ _))

def samplePublication : List (Move StoreThread MailboxChoice) :=
  [⟨.clip 0 sampleRoomId "recipient" sampleClip, 4, {}⟩, ⟨.worker, 20, {}⟩]

theorem samplePublication_published :
    (((replay sampleMailboxCodec sampleQuota
        fun t op s r => Deletes t op s r ∧ Careful t op s r).play samplePublication
      sampleOpened).any fun x => decide (0 < fileLength x.shared.mailbox.fs sampleRoomId)) =
        true := by
  decide +kernel

/-- A clip is published within the quota. -/
theorem files_within_quota_sample : ∃ x,
    Reaches (system sampleMailboxCodec sampleQuota
      fun t op s r => Deletes t op s r ∧ Careful t op s r) sampleOpened x ∧
    0 < fileLength x.shared.mailbox.fs sampleRoomId ∧
      WithinQuota sampleQuota x.shared.mailbox.fs := by
  obtain ⟨x, hrun, htest⟩ := Replay.exists_reaches samplePublication_published
  refine ⟨x, hrun, of_decide_eq_true htest, ?_⟩
  exact (files_within_quota fresh_sampleEmpty withinQuota_sampleEmpty exec_openScan_sampleEmpty
    (hrun.mono rfl fun hexec => hexec.imp fun _ h => ⟨h.1, h.2.1.1, h.2.2⟩)).1 hrun

theorem sampleOverflow_published :
    (((replay sampleMailboxCodec sampleQuota Deletes).play
      [⟨.clip 0 sampleRoomId "recipient" sampleClip, 4, {}⟩,
        ⟨.clip 0 sampleOther "recipient" sampleClip, 4, {}⟩,
        ⟨.worker, 20, { fails := fun op => op matches .syncDir _ }⟩, ⟨.worker, 20, {}⟩]
      sampleOpened).any fun x => decide (sampleQuota.maxBytes <
        fileLength x.shared.mailbox.fs sampleRoomId +
          fileLength x.shared.mailbox.fs sampleOther)) = true := by
  decide +kernel

theorem quota_exceeded : ∃ x,
    Exec (scanning 0) (openScan sampleMailboxCodec sampleQuota) sampleEmpty (.ok ⟨∅, ∅⟩)
      sampleEmpty ∧
    Fresh sampleMailboxCodec sampleQuota 0 sampleEmpty.fs ∧
    WithinQuota sampleQuota sampleEmpty.fs ∧
    Reaches (system sampleMailboxCodec sampleQuota Deletes) sampleOpened x ∧
    ¬ WithinQuota sampleQuota x.shared.mailbox.fs := by
  obtain ⟨x, hrun, htest⟩ := Replay.exists_reaches sampleOverflow_published
  refine ⟨x, exec_openScan_sampleEmpty, fresh_sampleEmpty, withinQuota_sampleEmpty, hrun,
    fun hquota => ?_⟩
  have hnamed : ∀ roomId ∈ ({sampleRoomId, sampleOther} : Finset String), Named roomId := by
    intro roomId hmem
    rcases Finset.mem_insert.1 hmem with rfl | hmem
    · exact (by decide : Mailbox.validateRoomId sampleRoomId = .ok ())
    · rw [Finset.mem_singleton.1 hmem]
      exact (by decide : Mailbox.validateRoomId sampleOther = .ok ())
  have hsum := hquota _ hnamed
  rw [Finset.sum_pair (by decide)] at hsum
  exact absurd (of_decide_eq_true htest) (Nat.not_lt.2 hsum)

end MailboxRun

end ClipSync
