import ClipSync.Server.Mailbox
import ClipSync.Server.RegistryRun

/-!
# How long a room stays registered

Rooms that nobody has joined are dropped by a sweeper, which prunes with the present time
less a time to live. The age of a room counts from the commit that created its record: a
later commit of the same pair finds the record and leaves it as it is. So the full time to
live is left after a commit that created the room, and what remains of it after a commit
that found it. A room that has been joined is never dropped.
-/

namespace ClipSync

open Lib Program

/-- A registry in use: the last reading of the clock, the table and the files. -/
structure RegistryClock where
  nowMs : Int64
  rooms : RoomTable
  files : Fs Unit

/-- The calls of pairing, of joining and of the sweeper, which read the clock themselves. -/
inductive TimedCall where
  | commitRoom (roomId a b : String)
  | activateOnFirstJoin (roomId memberFp : String)
  | sweep

def TimedCall.atTime (ttlMs nowMs : Int64) : TimedCall → RegistryCall
  | .commitRoom roomId a b => .commitRoom roomId a b nowMs
  | .activateOnFirstJoin roomId memberFp => .activateOnFirstJoin roomId memberFp nowMs
  | .sweep => .pruneUnactivated (saturatingSub nowMs ttlMs)

namespace RegistryClock

/-- A call that is made no earlier than the one before it. Any access to the files can
fail. -/
structure Makes (codec : RegistryCodec) (ttlMs : Int64) (x : RegistryClock) (made : TimedCall)
    (answer : RegistryAnswer) (y : RegistryClock) : Prop where
  later : x.nowMs ≤ y.nowMs
  exec : Exec Fs.exec (PersistentRegistry.answer codec x.rooms (made.atTime ttlMs y.nowMs)) x.files
    (answer, y.rooms) y.files

def Reaches (codec : RegistryCodec) (ttlMs : Int64) : RegistryClock → RegistryClock → Prop :=
  Relation.ReflTransGen fun x y => ∃ made answer, x.Makes codec ttlMs made answer y

end RegistryClock

/-! ## The cutoff -/

theorem toInt_saturatingSub (a b : Int64) : (saturatingSub a b).toInt =
    max Int64.minValue.toInt (min Int64.maxValue.toInt (a.toInt - b.toInt)) := by
  rw [saturatingSub]
  exact Int64.toInt_ofInt_of_le (le_max_left _ _)
    (Int.lt_add_one_iff.2 (max_le (by decide) (min_le_left _ _)))

theorem saturatingSub_le {createdAtMs nowMs ttlMs : Int64}
    (h : nowMs.toInt < createdAtMs.toInt + ttlMs.toInt) :
    saturatingSub nowMs ttlMs ≤ createdAtMs := by
  rw [Int64.le_iff_toInt_le, toInt_saturatingSub]
  refine max_le createdAtMs.minValue_le_toInt (min_le_of_right_le ?_)
  omega

/-! ## What a call leaves of a record -/

def RoomTable.Lasts (rooms : RoomTable) (roomId : String) (record : RoomRecord) : Prop :=
  ∃ record', rooms.lookup roomId = some record' ∧ record'.createdAtMs = record.createdAtMs ∧
    (record.activatedAtMs.isSome = true → record'.activatedAtMs.isSome = true)

theorem RoomTable.lasts_of_lookup {rooms : RoomTable} {roomId : String} {record : RoomRecord}
    (h : rooms.lookup roomId = some record) : rooms.Lasts roomId record :=
  ⟨record, h, rfl, id⟩

def RoomRecord.Outlives (record : RoomRecord) (cutoffMs : Int64) : Prop :=
  record.activatedAtMs.isSome = true ∨ cutoffMs ≤ record.createdAtMs

variable {cutoffMs : Int64}

theorem RoomRecord.Outlives.of_lasts {record record' : RoomRecord} (h : record.Outlives cutoffMs)
    (hcreated : record'.createdAtMs = record.createdAtMs)
    (hactive : record.activatedAtMs.isSome = true → record'.activatedAtMs.isSome = true) :
    record'.Outlives cutoffMs := by
  rcases h with h | h
  · exact .inl (hactive h)
  · exact .inr (hcreated ▸ h)

theorem Registry.lookup_retained {rooms : RoomTable} {roomId : String} {record : RoomRecord}
    (hrooms : rooms.lookup roomId = some record) (hyoung : record.Outlives cutoffMs) :
    (Registry.retained rooms cutoffMs).lookup roomId = some record := by
  rw [Registry.retained, HashMap.lookup_retain, hrooms, Option.filter_some, if_pos]
  rcases hyoung with hactive | hcreated
  · rw [hactive, Bool.true_or]
  · rw [decide_eq_true hcreated, Bool.or_true]

namespace PersistentRegistry

variable {codec : RegistryCodec} {rooms next : RoomTable} {s s' : Fs Unit} {roomId : String}
  {record : RoomRecord}

theorem exec_replace_cases {α : Type} {answer : α} {out : Except IoError α × RoomTable}
    (h : Exec Fs.exec (replace codec rooms next answer) s out s') :
    out.2 = rooms ∨ out = (.ok answer, next) := by
  obtain ⟨r, s₁, -, hrest⟩ := exec_bind.1 h
  cases r with
  | error e =>
    obtain ⟨rfl, -⟩ := exec_done.1 hrest
    exact .inl rfl
  | ok u =>
    obtain ⟨rfl, -⟩ := exec_done.1 hrest
    exact .inr rfl

variable {out : Except IoError RegistryCommit × RoomTable}
  {activatedAtMs createdAtMs cutoffMs : Int64} {a b memberFp other : String}

theorem exec_commitRoom_cases
    (h : Exec Fs.exec (commitRoom codec rooms roomId a b createdAtMs) s out s') :
    out.2 = rooms ∨
      ∃ commit, Registry.commitRoom rooms roomId a b createdAtMs = .ok (commit, out.2) := by
  unfold commitRoom at h
  cases hcommit : Registry.commitRoom rooms roomId a b createdAtMs with
  | error e =>
    rw [hcommit] at h
    obtain ⟨rfl, -⟩ := exec_done.1 h
    exact .inl rfl
  | ok result =>
    obtain ⟨commit, next⟩ := result
    rw [hcommit] at h
    cases commit with
    | created =>
      rcases exec_replace_cases h with hout | rfl
      · exact .inl hout
      · exact .inr ⟨_, rfl⟩
    | existing =>
      obtain ⟨rfl, -⟩ := exec_done.1 h
      exact .inl rfl

theorem exec_activateOnFirstJoin_cases {out : Except IoError Bool × RoomTable}
    (h : Exec Fs.exec (activateOnFirstJoin codec rooms roomId memberFp activatedAtMs) s out s') :
    (out.2 = rooms ∧ ∀ first record, out.1 = .ok first → rooms.lookup roomId = some record →
        memberFp ∈ record.members.toList → record.activatedAtMs.isSome = true) ∨
      ∃ record, rooms.lookup roomId = some record ∧
        out.2 = rooms.insert roomId
          { record with
            activatedAtMs := some activatedAtMs
            activatedMembers := insert memberFp record.activatedMembers } := by
  unfold activateOnFirstJoin at h
  cases hlookup : rooms.lookup roomId with
  | none =>
    rw [hlookup] at h
    obtain ⟨rfl, -⟩ := exec_done.1 h
    refine .inl ⟨rfl, ?_⟩
    rintro _ _ - ⟨⟩
  | some current =>
    rw [hlookup] at h
    dsimp only at h
    split at h
    · rename_i hidle
      obtain ⟨rfl, -⟩ := exec_done.1 h
      refine .inl ⟨rfl, ?_⟩
      rintro _ _ - ⟨⟩ hmember
      exact hidle.resolve_right (not_not.2 hmember)
    · obtain ⟨r, s₁, -, hrest⟩ := exec_bind.1 h
      cases r with
      | error e =>
        obtain ⟨rfl, -⟩ := exec_done.1 hrest
        refine .inl ⟨rfl, ?_⟩
        rintro _ _ ⟨⟩
      | ok u =>
        obtain ⟨rfl, -⟩ := exec_done.1 hrest
        exact .inr ⟨current, rfl, rfl⟩

theorem exec_pruneUnactivated_cases {out : Except IoError ℕ × RoomTable}
    (h : Exec Fs.exec (pruneUnactivated codec rooms cutoffMs) s out s') :
    out.2 = rooms ∨ out.2 = Registry.retained rooms cutoffMs := by
  unfold pruneUnactivated at h
  dsimp only at h
  split at h
  · rcases exec_replace_cases h with hout | rfl
    · exact .inl hout
    · exact .inr rfl
  · obtain ⟨rfl, -⟩ := exec_done.1 h
    exact .inl rfl

theorem lasts_commitRoom
    (h : Exec Fs.exec (commitRoom codec rooms other a b createdAtMs) s out s')
    (hrooms : rooms.lookup roomId = some record) : out.2.Lasts roomId record := by
  rcases exec_commitRoom_cases h with hout | ⟨commit, hcommit⟩
  · rw [hout]
    exact RoomTable.lasts_of_lookup hrooms
  · exact RoomTable.lasts_of_lookup (Registry.lookup_commitRoom_of_some hcommit hrooms)

theorem lasts_activateOnFirstJoin {out : Except IoError Bool × RoomTable}
    (h : Exec Fs.exec (activateOnFirstJoin codec rooms other memberFp activatedAtMs) s out s')
    (hrooms : rooms.lookup roomId = some record) : out.2.Lasts roomId record := by
  rcases exec_activateOnFirstJoin_cases h with ⟨hout, -⟩ | ⟨current, hother, hout⟩
  · rw [hout]
    exact RoomTable.lasts_of_lookup hrooms
  · rw [hout]
    by_cases hroom : roomId = other
    · subst hroom
      rw [hother] at hrooms
      cases hrooms
      exact ⟨_, Finmap.lookup_insert _, rfl, fun _ => rfl⟩
    · exact RoomTable.lasts_of_lookup ((Finmap.lookup_insert_of_ne _ hroom).trans hrooms)

theorem lasts_pruneUnactivated {out : Except IoError ℕ × RoomTable}
    (h : Exec Fs.exec (pruneUnactivated codec rooms cutoffMs) s out s')
    (hrooms : rooms.lookup roomId = some record) (hyoung : record.Outlives cutoffMs) :
    out.2.Lasts roomId record := by
  rcases exec_pruneUnactivated_cases h with hout | hout
  · rw [hout]
    exact RoomTable.lasts_of_lookup hrooms
  · rw [hout]
    exact RoomTable.lasts_of_lookup (Registry.lookup_retained hrooms hyoung)

end PersistentRegistry

/-! ## Whole runs -/

namespace RegistryClock

variable {codec : RegistryCodec} {ttlMs : Int64} {x y z : RegistryClock} {roomId : String}
  {record : RoomRecord}

/-- A record lasts over one call, unless it is too old for a sweep. -/
theorem Makes.lasts {made : TimedCall} {answer : RegistryAnswer}
    (h : x.Makes codec ttlMs made answer y) (hrooms : x.rooms.lookup roomId = some record)
    (hyoung : record.Outlives (saturatingSub y.nowMs ttlMs)) : y.rooms.Lasts roomId record := by
  have hexec := h.exec
  cases made with
  | commitRoom other a b =>
    obtain ⟨out, s₁, hcall, hrest⟩ := exec_bind.1 hexec
    obtain ⟨hout, -⟩ := exec_done.1 hrest
    rw [(Prod.mk.inj hout).2]
    exact PersistentRegistry.lasts_commitRoom hcall hrooms
  | activateOnFirstJoin other memberFp =>
    obtain ⟨out, s₁, hcall, hrest⟩ := exec_bind.1 hexec
    obtain ⟨hout, -⟩ := exec_done.1 hrest
    rw [(Prod.mk.inj hout).2]
    exact PersistentRegistry.lasts_activateOnFirstJoin hcall hrooms
  | sweep =>
    obtain ⟨out, s₁, hcall, hrest⟩ := exec_bind.1 hexec
    obtain ⟨hout, -⟩ := exec_done.1 hrest
    rw [(Prod.mk.inj hout).2]
    exact PersistentRegistry.lasts_pruneUnactivated hcall hrooms hyoung

theorem Reaches.lasts (h : Reaches codec ttlMs x y) (hrooms : x.rooms.lookup roomId = some record)
    (hyoung : record.activatedAtMs.isSome = true ∨
      y.nowMs.toInt < record.createdAtMs.toInt + ttlMs.toInt) :
    y.rooms.Lasts roomId record := by
  induction h with
  | refl => exact RoomTable.lasts_of_lookup hrooms
  | tail _ hstep ih =>
    obtain ⟨made, answer, hmakes⟩ := hstep
    have hearlier := Int64.le_iff_toInt_le.1 hmakes.later
    obtain ⟨record', hlookup, hcreated, hactive⟩ := ih (hyoung.imp_right fun h => by omega)
    have houtlives : record'.Outlives (saturatingSub _ ttlMs) :=
      RoomRecord.Outlives.of_lasts (hyoung.imp_right saturatingSub_le) hcreated hactive
    obtain ⟨record'', hlookup', hcreated', hactive'⟩ := hmakes.lasts hlookup houtlives
    exact ⟨record'', hlookup', hcreated'.trans hcreated, fun h => hactive' (hactive h)⟩

/-- What a successful commit leaves in the table. -/
theorem Makes.committed {a b : String} {commit : RegistryCommit}
    (h : x.Makes codec ttlMs (.commitRoom roomId a b) (.committed (.ok commit)) y) :
    ∃ record, y.rooms.lookup roomId = some record ∧
      (commit = .created → record.createdAtMs = y.nowMs) ∧
      (commit = .existing → x.rooms.lookup roomId = some record) := by
  obtain ⟨out, s₁, hcall, hrest⟩ := exec_bind.1 h.exec
  obtain ⟨hout, -⟩ := exec_done.1 hrest
  obtain ⟨hresult, hrooms⟩ := Prod.mk.inj hout
  rw [hrooms]
  unfold PersistentRegistry.commitRoom at hcall
  cases hcommit : Registry.commitRoom x.rooms roomId a b y.nowMs with
  | error e =>
    rw [hcommit] at hcall
    obtain ⟨rfl, -⟩ := exec_done.1 hcall
    cases hresult
  | ok result =>
    obtain ⟨found, next⟩ := result
    rw [hcommit] at hcall
    obtain ⟨members, -, ⟨existing, hlookup, -, rfl, rfl⟩ | ⟨-, -, rfl, rfl⟩⟩ :=
      Registry.commitRoom_eq_ok hcommit
    · obtain ⟨rfl, -⟩ := exec_done.1 hcall
      cases hresult
      refine ⟨existing, hlookup, ?_, fun _ => hlookup⟩
      rintro ⟨⟩
    · obtain ⟨r, s₂, -, hreplaced⟩ := exec_bind.1 hcall
      cases r with
      | error e =>
        obtain ⟨rfl, -⟩ := exec_done.1 hreplaced
        cases hresult
      | ok u =>
        obtain ⟨rfl, -⟩ := exec_done.1 hreplaced
        cases hresult
        refine ⟨_, Finmap.lookup_insert _, fun _ => rfl, ?_⟩
        rintro ⟨⟩

/-- A room that was committed stays registered for the time to live, counted from the
commit that created its record, and for ever once it has been joined. -/
theorem registered_until_ttl {a b : String} {commit : RegistryCommit}
    (hcommit : x.Makes codec ttlMs (.commitRoom roomId a b) (.committed (.ok commit)) y)
    (hrun : Reaches codec ttlMs y z) :
    ∃ record, y.rooms.lookup roomId = some record ∧
      (commit = .created → record.createdAtMs = y.nowMs) ∧
      (commit = .existing → x.rooms.lookup roomId = some record) ∧
      (record.activatedAtMs.isSome = true ∨
          z.nowMs.toInt < record.createdAtMs.toInt + ttlMs.toInt → roomId ∈ z.rooms) := by
  obtain ⟨record, hlookup, hcreated, hexisting⟩ := hcommit.committed
  refine ⟨record, hlookup, hcreated, hexisting, fun hyoung => ?_⟩
  obtain ⟨record', hlast, -⟩ := hrun.lasts hlookup hyoung
  exact Finmap.mem_of_lookup_eq_some hlast

/-! ## Sample runs -/

open PersistentRegistry (sampleFp sampleRegistryRoom)

theorem exists_makes {memory : RoomTable} (made : TimedCall) (nowMs : Int64)
    (h : PersistentRegistry.Refines codec x.rooms x.files memory) (hlater : x.nowMs ≤ nowMs) :
    ∃ y, x.Makes codec ttlMs made
        (InMemoryRegistry.answer memory (made.atTime ttlMs nowMs)).1 y ∧ y.nowMs = nowMs ∧
      PersistentRegistry.Refines codec y.rooms y.files
        (InMemoryRegistry.answer memory (made.atTime ttlMs nowMs)).2 := by
  obtain ⟨⟨answer, rooms⟩, files, hexec, hanswer, hrefines⟩ :=
    (h.answer (made.atTime ttlMs nowMs)).exists_exec
  cases hanswer
  exact ⟨⟨nowMs, rooms, files⟩, ⟨hlater, hexec.mono fun _ _ _ _ h => h.1⟩, rfl, hrefines⟩

def sampleStart : RegistryClock := ⟨0, ∅, ⟨fun _ => none, fun _ => []⟩⟩

def samplePair : TimedCall := .commitRoom sampleRegistryRoom (sampleFp 'b') (sampleFp 'a')

def samplePaired : RoomTable := (InMemoryRegistry.answer ∅ (samplePair.atTime 100 0)).2

theorem exists_paired_sample (codec : RegistryCodec) :
    ∃ y, sampleStart.Makes codec 100 samplePair (.committed (.ok .created)) y ∧ y.nowMs = 0 ∧
      PersistentRegistry.Refines codec y.rooms y.files samplePaired := by
  have hanswer : (InMemoryRegistry.answer ∅ (samplePair.atTime 100 0)).1 =
      .committed (.ok .created) := by
    decide +kernel
  have hstart : PersistentRegistry.Refines codec sampleStart.rooms sampleStart.files ∅ :=
    PersistentRegistry.Refines.empty rfl
  obtain ⟨y, hmakes, hnow, hrefines⟩ := exists_makes samplePair 0 hstart (Int64.le_refl _)
  rw [hanswer] at hmakes
  exact ⟨y, hmakes, hnow, hrefines⟩

/-- Two devices that have paired at 0 are registered after a sweep at 99. -/
theorem registered_until_ttl_sample :
    ∃ y z, sampleStart.Makes (.standard fun _ => "") 100 samplePair (.committed (.ok .created)) y ∧
      (∃ answer, y.Makes (.standard fun _ => "") 100 .sweep answer z) ∧ z.nowMs = 99 ∧
      sampleRegistryRoom ∈ z.rooms := by
  obtain ⟨y, hmakes, hnow, hpaired⟩ := exists_paired_sample (.standard fun _ => "")
  obtain ⟨z, hsweep, hz, -⟩ := exists_makes .sweep 99 hpaired (by rw [hnow]; decide)
  obtain ⟨record, -, hcreated, -, hregistered⟩ :=
    registered_until_ttl hmakes (.single ⟨_, _, hsweep⟩)
  refine ⟨y, z, hmakes, ⟨_, hsweep⟩, hz, hregistered (.inr ?_)⟩
  rw [hcreated rfl, hnow, hz]
  decide

/-- The devices pair at 0 and again at 90; a sweep at 101 drops their room, with 89
milliseconds of the time to live of 100 after the second pairing still to come. -/
theorem repaired_room_dropped :
    ∃ x y z : RegistryClock, x.Makes (.standard fun _ => "") 100 samplePair
        (.committed (.ok .existing)) y ∧
      Reaches (.standard fun _ => "") 100 sampleStart x ∧
      Reaches (.standard fun _ => "") 100 y z ∧
      z.nowMs.toInt < y.nowMs.toInt + (100 : Int64).toInt ∧ sampleRegistryRoom ∉ z.rooms := by
  obtain ⟨x, hfirst, hx, hpaired⟩ := exists_paired_sample (.standard fun _ => "")
  have hagain : InMemoryRegistry.answer samplePaired (samplePair.atTime 100 90) =
      (.committed (.ok .existing), samplePaired) := by
    decide +kernel
  have hswept : (InMemoryRegistry.answer samplePaired (TimedCall.sweep.atTime 100 101)).2 = ∅ := by
    decide +kernel
  obtain ⟨y, hsecond, hy, hfound⟩ := exists_makes samplePair 90 hpaired (by rw [hx]; decide)
  rw [hagain] at hsecond hfound
  obtain ⟨z, hsweep, hz, hdropped⟩ := exists_makes .sweep 101 hfound (by rw [hy]; decide)
  rw [hswept] at hdropped
  refine ⟨x, y, z, hsecond, .single ⟨_, _, hfirst⟩, .single ⟨_, _, hsweep⟩, ?_, fun hmem => ?_⟩
  · rw [hy, hz]
    decide
  · exact Finmap.notMem_empty (hdropped.same.mem hmem)

end RegistryClock

end ClipSync
