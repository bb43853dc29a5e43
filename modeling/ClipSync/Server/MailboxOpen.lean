import ClipSync.Server.MailboxPublish

/-!
# Opening a mailbox

The scan of the directory at a time of the clock. A room whose file holds a snapshot that
has not expired is entered with that snapshot and with the size of its file; rooms
without a file are not entered, and what is scanned for one room leaves the others alone.
-/

namespace ClipSync

open Lib Program

namespace PersistentMailbox

open MailboxState

variable (codec : MailboxCodec) (options : MailboxOptions)

/-! ## Names of snapshot files -/

variable {roomId : String}

variable {name : String}

theorem eq_of_stripJson (h : stripJson name = some roomId) : name = (path roomId).name := by
  unfold stripJson at h
  dsimp only at h
  split at h
  · rename_i hname
    cases h
    apply String.toList_injective
    rw [path, String.toList_append, String.toList_ofList]
    exact hname
  · cases h

theorem stripJson_path (roomId : String) : stripJson (path roomId).name = some roomId := by
  have hname : (path roomId).name.toList = roomId.toList ++ ".json".toList :=
    String.toList_append
  have hlength : ".json".toList.length = 5 := by decide
  have hstem : (path roomId).name.toList.take ((path roomId).name.toList.length - 5) =
      roomId.toList := by
    rw [hname, List.length_append, hlength, Nat.add_sub_cancel, List.take_left]
  unfold stripJson
  dsimp only
  rw [hstem, if_pos hname, String.ofList_toList]

/-! ## The scan -/

def Decodes (roomId : String) (bytes : Bytes) (x : Snapshot) : Prop :=
  ∃ disk, codec.fromSlice bytes = .ok disk ∧ disk.roomId = roomId ∧
    disk.intoSnapshot codec = .ok x

def ClockAt (nowMs : Int64) : (op : MailboxOp) → op.Res → Prop
  | .unixTimeMs, r => r = nowMs
  | _, _ => True

def scanning (nowMs : Int64) (op : MailboxOp) (m : MailboxState) (r : op.Res)
    (m' : MailboxState) : Prop :=
  exec op m r m' ∧ NoIoError op m r ∧ ClockAt nowMs op r

variable {codec options} {nowMs : Int64} {m m' : MailboxState} {scan scan' : Scan}

theorem files_perform_bind {α : Type} (op : FsOp Unit) (f : op.Res → MailboxProgram α) :
    (MailboxProgram.files (perform op) >>= f) = call (.files op) f := rfl

theorem exec_readSnapshot {result : Except IoError Snapshot}
    (h : Exec (scanning nowMs) (readSnapshot codec (path roomId) roomId) m result m') :
    m' = m ∧ ∀ bytes x, m.fs.files (path roomId) = some bytes → Decodes codec roomId bytes x →
      result = .ok x := by
  rw [readSnapshot, files_perform_bind, exec_call] at h
  obtain ⟨r, m₁, ⟨⟨fs, hfs, rfl⟩, hok, -⟩, hrest⟩ := h
  match r, hfs, hok, hrest with
  | .error .notFound, hfs, _, hrest =>
    obtain ⟨rfl, hnone⟩ := hfs
    obtain ⟨rfl, rfl⟩ := exec_done.1 hrest
    refine ⟨rfl, fun bytes x hbytes => ?_⟩
    cases hnone.symm.trans hbytes
  | .error (.other message), _, hok, _ => exact absurd rfl (hok message)
  | .ok contents, hfs, _, hrest =>
    obtain ⟨rfl, hcontents⟩ := hfs
    cases hslice : codec.fromSlice contents with
    | error message =>
      simp only [hslice, pure_eq, exec_done] at hrest
      refine ⟨hrest.2, fun bytes x hbytes => ?_⟩
      rintro ⟨disk, hdisk, -⟩
      cases hcontents.symm.trans hbytes
      cases hslice.symm.trans hdisk
    | ok disk =>
      by_cases hroom : disk.roomId = roomId
      · simp only [hslice, ne_eq, hroom, not_true_eq_false, if_false, pure_eq,
          exec_done] at hrest
        refine ⟨hrest.2, fun bytes x hbytes => ?_⟩
        rintro ⟨disk', hdisk, -, hx⟩
        cases hcontents.symm.trans hbytes
        cases hslice.symm.trans hdisk
        exact hrest.1.trans hx
      · simp only [hslice, ne_eq, hroom, not_false_eq_true, if_true, pure_eq,
          exec_done] at hrest
        refine ⟨hrest.2, fun bytes x hbytes => ?_⟩
        rintro ⟨disk', hdisk, hroom', -⟩
        cases hcontents.symm.trans hbytes
        cases hslice.symm.trans hdisk
        exact absurd hroom' hroom

/-- Nothing of the room has changed. -/
structure SameEntry (roomId : String) (scan scan' : Scan) (m m' : MailboxState) : Prop where
  index : scan'.index.lookup roomId = scan.index.lookup roomId
  sizes : scan'.sizes.lookup roomId = scan.sizes.lookup roomId
  file : m'.fs.files (path roomId) = m.fs.files (path roomId)

/-- The room has been entered with what its file holds. -/
structure Entered (roomId : String) (bytes : Bytes) (x : Snapshot) (scan : Scan)
    (m : MailboxState) : Prop where
  index : scan.index.lookup roomId = some x
  sizes : scan.sizes.lookup roomId = some bytes.length
  file : m.fs.files (path roomId) = some bytes

theorem SameEntry.refl (roomId : String) (scan : Scan) (m : MailboxState) :
    SameEntry roomId scan scan m m := ⟨rfl, rfl, rfl⟩

theorem SameEntry.trans {scan₁ : Scan} {m₁ : MailboxState} (h : SameEntry roomId scan scan₁ m m₁)
    (h' : SameEntry roomId scan₁ scan' m₁ m') : SameEntry roomId scan scan' m m' :=
  ⟨h'.index.trans h.index, h'.sizes.trans h.sizes, h'.file.trans h.file⟩

variable (codec options nowMs) in
/-- What the scan of a name does to the rooms. -/
structure ScansEntry (name : String) (scan scan' : Scan) (m m' : MailboxState) : Prop where
  others : ∀ roomId, (path roomId).name ≠ name → SameEntry roomId scan scan' m m'
  own : ∀ roomId bytes x, (path roomId).name = name → Mailbox.validateRoomId roomId = .ok () →
    m.fs.files (path roomId) = some bytes → Decodes codec roomId bytes x →
    isExpired x.tsMs nowMs options.ttlMs = false → Entered roomId bytes x scan' m'

theorem path_name_injective {other : String} (h : (path roomId).name = (path other).name) :
    roomId = other :=
  path_injective (congrArg (fun name => (⟨(), name⟩ : MailboxPath)) h)

theorem exec_scanEntry
    (h : Exec (scanning nowMs) (scanEntry codec options scan name) m (.ok scan') m') :
    ScansEntry codec options nowMs name scan scan' m m' := by
  rw [scanEntry] at h
  cases hname : stripJson name with
  | none =>
    simp only [hname, pure_eq, exec_done, Except.ok.injEq] at h
    obtain ⟨rfl, rfl⟩ := h
    refine ⟨fun roomId _ => .refl roomId _ _, ?_⟩
    rintro roomId bytes x rfl
    cases hname.symm.trans (stripJson_path roomId)
  | some own =>
  cases eq_of_stripJson hname
  cases hvalid : Mailbox.validateRoomId own with
  | error e =>
    simp only [hname, hvalid, pure_eq, exec_done, Except.ok.injEq] at h
    obtain ⟨rfl, rfl⟩ := h
    refine ⟨fun roomId _ => .refl roomId _ _, fun roomId bytes x heq hroom => ?_⟩
    cases path_name_injective heq
    cases hvalid.symm.trans hroom
  | ok u =>
  simp only [hname, hvalid] at h
  obtain ⟨result, m₁, hread, hrest⟩ := exec_bind.1 h
  obtain ⟨rfl, hresult⟩ := exec_readSnapshot hread
  cases result with
  | error e =>
    simp only [pure_eq, exec_done, Except.ok.injEq] at hrest
    obtain ⟨rfl, rfl⟩ := hrest
    refine ⟨fun roomId _ => .refl roomId _ _, fun roomId bytes x heq _ hbytes hdecodes _ => ?_⟩
    cases path_name_injective heq
    cases hresult bytes x hbytes hdecodes
  | ok snapshot =>
  simp only [MailboxProgram.unixTimeMs, perform_bind, exec_call] at hrest
  obtain ⟨now, m₂, ⟨rfl, -, rfl⟩, hrest⟩ := hrest
  cases hexpired : isExpired snapshot.tsMs now options.ttlMs with
  | true =>
    simp only [hexpired, if_true] at hrest
    rw [files_perform_bind, exec_call] at hrest
    obtain ⟨r, m₃, ⟨⟨fs, hfs, rfl⟩, -⟩, hrest⟩ := hrest
    simp only [pure_eq, exec_done, Except.ok.injEq] at hrest
    obtain ⟨rfl, rfl⟩ := hrest
    refine ⟨fun roomId hroom => ⟨rfl, rfl, ?_⟩, ?_⟩
    · have hleaves : (FsOp.remove (path own) : FsOp Unit).Leaves (path roomId) :=
        fun heq => hroom (congrArg Path.name heq).symm
      exact Fs.files_of_leaves hleaves hfs
    · intro roomId bytes x heq _ hbytes hdecodes hfresh
      cases path_name_injective heq
      cases hresult bytes x hbytes hdecodes
      cases hexpired.symm.trans hfresh
  | false =>
    simp only [hexpired, Bool.false_eq_true, if_false, MailboxProgram.metadataLen, perform_bind,
      exec_call] at hrest
    obtain ⟨r, m₃, ⟨hlen, -⟩, hrest⟩ := hrest
    cases r with
    | error e =>
      simp only [pure_eq, exec_done, reduceCtorEq, false_and] at hrest
    | ok size =>
      obtain ⟨rfl, hsize⟩ := hlen
      simp only [pure_eq, exec_done, Except.ok.injEq] at hrest
      obtain ⟨rfl, rfl⟩ := hrest
      refine ⟨fun roomId hroom => ⟨?_, ?_, rfl⟩, ?_⟩
      · exact Finmap.lookup_insert_of_ne _ fun heq => hroom (congrArg (path · |>.name) heq)
      · exact Finmap.lookup_insert_of_ne _ fun heq => hroom (congrArg (path · |>.name) heq)
      · intro roomId bytes x heq _ hbytes hdecodes _
        cases path_name_injective heq
        cases hresult bytes x hbytes hdecodes
        have hlength : bytes.length = size := by
          rw [show _ = some bytes from hbytes] at hsize
          exact Option.some.inj hsize
        refine ⟨Finmap.lookup_insert _, ?_, hbytes⟩
        rw [hlength]
        exact Finmap.lookup_insert _

theorem Entered.of_same {bytes : Bytes} {x : Snapshot} (h : Entered roomId bytes x scan m)
    (hsame : SameEntry roomId scan scan' m m') : Entered roomId bytes x scan' m' :=
  ⟨hsame.index.trans h.index, hsame.sizes.trans h.sizes, hsame.file.trans h.file⟩

theorem exec_scanEntries {names : List String}
    (h : Exec (scanning nowMs) (scanEntries codec options names scan) m (.ok scan') m') :
    ((path roomId).name ∉ names → SameEntry roomId scan scan' m m') ∧
    ∀ bytes x, Entered roomId bytes x scan m ∨ (path roomId).name ∈ names →
      Mailbox.validateRoomId roomId = .ok () → m.fs.files (path roomId) = some bytes →
      Decodes codec roomId bytes x → isExpired x.tsMs nowMs options.ttlMs = false →
      Entered roomId bytes x scan' m' := by
  induction names generalizing scan m with
  | nil =>
    simp only [scanEntries, pure_eq, exec_done, Except.ok.injEq] at h
    obtain ⟨rfl, rfl⟩ := h
    refine ⟨fun _ => .refl roomId _ _, fun bytes x hroom _ _ _ _ => ?_⟩
    exact hroom.resolve_right List.not_mem_nil
  | cons name names ih =>
    rw [scanEntries] at h
    obtain ⟨result, m₁, hentry, hrest⟩ := exec_bind.1 h
    cases result with
    | error e => simp only [pure_eq, exec_done, reduceCtorEq, false_and] at hrest
    | ok scan₁ =>
      have hscans := exec_scanEntry hentry
      obtain ⟨hothers, hown⟩ := ih hrest
      refine ⟨fun hmem => ?_, fun bytes x hroom hvalid hbytes hdecodes hfresh => ?_⟩
      · rw [List.mem_cons, not_or] at hmem
        exact (hscans.others roomId hmem.1).trans (hothers hmem.2)
      · by_cases hname : (path roomId).name = name
        · have hentered := hscans.own roomId bytes x hname hvalid hbytes hdecodes hfresh
          exact hown bytes x (.inl hentered) hvalid hentered.file hdecodes hfresh
        · have hsame := hscans.others roomId hname
          refine hown bytes x ?_ hvalid (hsame.file.trans hbytes) hdecodes hfresh
          exact hroom.imp (·.of_same hsame) fun hmem =>
            (List.mem_cons.1 hmem).resolve_left hname

theorem exec_openScan (h : Exec (scanning nowMs) (openScan codec options) m (.ok scan) m') :
    (m.fs.files (path roomId) = none → SameEntry roomId ⟨∅, ∅⟩ scan m m') ∧
    ∀ bytes x, Mailbox.validateRoomId roomId = .ok () → m.fs.files (path roomId) = some bytes →
      Decodes codec roomId bytes x → isExpired x.tsMs nowMs options.ttlMs = false →
      Entered roomId bytes x scan m' := by
  rw [openScan, files_perform_bind, exec_call] at h
  obtain ⟨r, m₁, ⟨⟨fs, rfl, rfl⟩, hok, -⟩, h⟩ := h
  cases hok
  rw [files_perform_bind, exec_call] at h
  obtain ⟨r, m₂, ⟨⟨fs, hfs, rfl⟩, hok, -⟩, h⟩ := h
  cases r with
  | error e => cases hok
  | ok names =>
    obtain ⟨rfl, hnames⟩ := hfs
    obtain ⟨hothers, hown⟩ := exec_scanEntries h
    refine ⟨fun hnone => hothers fun hmem => ?_, fun bytes x hvalid hbytes => ?_⟩
    · have hsome := (hnames _).1 hmem
      rw [show m.fs.files ⟨(), (path roomId).name⟩ = none from hnone] at hsome
      cases hsome
    · refine hown bytes x (.inr ((hnames _).2 ?_)) hvalid hbytes
      rw [show m.fs.files ⟨(), (path roomId).name⟩ = some bytes from hbytes]
      rfl

end PersistentMailbox

end ClipSync
