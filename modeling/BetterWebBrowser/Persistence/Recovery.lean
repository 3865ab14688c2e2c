import BetterWebBrowser.Persistence.ProfileFile

/-!
# What survives an interrupted write

Wherever a write ends, by a stopped process or a failed call, a later load has to find the
state from before or the new one. It does unless the write started from a file that cannot
be read, whose backup it removes.
-/

namespace BetterWebBrowser.Persistence

open Framework

variable {State Error : Type}

namespace Codec

/-- The state that a file written for `state` holds when it is read again. -/
def reload (codec : Codec State Error) (state : State) : Except Error State :=
  match codec.encode state with
  | .ok bytes => codec.decode bytes
  | .error error => .error error

/-- A later load succeeds and returns the old state or the new one. -/
def Recovers (codec : Codec State Error) (old new : State) (disk : Disk) : Prop :=
  ∃ state, codec.load disk = .ok state ∧ (state = old ∨ codec.reload new = .ok state)

/-- The file can be read and holds a state. -/
def Loads (codec : Codec State Error) (entry : Option Entry) : Prop :=
  ∃ state, codec.read entry = .ok (some state)

/-- The write cannot lose both states: its bytes are refused, or it starts without a file or
from one that loads, and the bytes load again unless an older file is kept. -/
def Protected (codec : Codec State Error) (new : State) (disk : Disk) : Prop :=
  ∀ bytes, codec.encode new = .ok bytes →
    (disk.primary = none ∨ codec.Loads disk.primary) ∧
      (codec.Loads (some (.data bytes)) ∨ codec.Loads disk.primary ∨ disk.backup.isSome)

theorem load_of_primary {codec : Codec State Error} {disk : Disk} {state : State}
    (h : codec.read disk.primary = .ok (some state)) : codec.load disk = .ok state := by
  rw [load, h]

theorem load_of_backup {codec : Codec State Error} {disk : Disk} {state : State}
    (hprimary : ∀ found, codec.read disk.primary ≠ .ok (some found))
    (hbackup : codec.read disk.backup = .ok (some state)) : codec.load disk = .ok state := by
  rw [load]
  cases hread : codec.read disk.primary with
  | error error => rw [hbackup]
  | ok found =>
    cases found with
    | none => rw [hbackup]; rfl
    | some found => exact absurd hread (hprimary found)

/-- Loading only looks at the primary file and its backup. -/
theorem load_congr {codec : Codec State Error} {disk disk' : Disk}
    (hprimary : disk'.primary = disk.primary) (hbackup : disk'.backup = disk.backup) :
    codec.load disk' = codec.load disk := by
  rw [load, load, hprimary, hbackup]

end Codec

namespace Codec

variable {codec : Codec State Error} {old new : State} {disk : Disk}

theorem recovers_of_load (h : codec.load disk = .ok old) : codec.Recovers old new disk :=
  ⟨old, h, Or.inl rfl⟩

/-- Without a primary file, an existing backup holds the state. -/
theorem read_backup_of_load (hload : codec.load disk = .ok old) (hprimary : disk.primary = none)
    (hbackup : disk.backup.isSome) : codec.read disk.backup = .ok (some old) := by
  obtain ⟨entry, hentry⟩ := Option.isSome_iff_exists.mp hbackup
  rw [load, hprimary, hentry] at hload
  rw [hentry]
  simp only [read] at hload
  cases entry with
  | unreadable => simp at hload
  | data bytes =>
    cases hdecode : codec.decode bytes with
    | error error => simp [hdecode] at hload
    | ok state =>
      have hstate : state = old := by simpa [hdecode] using hload
      simp [read, hdecode, hstate]

/-- The new file is in place: it loads, or the backup holds the old state. -/
theorem recovers_of_installed {bytes : List UInt8} (hencode : codec.encode new = .ok bytes)
    (hprimary : disk.primary = some (.data bytes))
    (hkept : codec.Loads (some (.data bytes)) ∨ codec.read disk.backup = .ok (some old)) :
    codec.Recovers old new disk := by
  cases hdecode : codec.decode bytes with
  | ok state =>
    refine ⟨state, load_of_primary ?_, Or.inr ?_⟩
    · simp [hprimary, read, hdecode]
    · rw [reload, hencode]
      exact hdecode
  | error error =>
    have hbroken : ∀ found, codec.read disk.primary ≠ .ok (some found) := by
      intro found
      simp [hprimary, read, hdecode]
    rcases hkept with ⟨state, hstate⟩ | hbackup
    · rw [← hprimary] at hstate
      exact absurd hstate (hbroken state)
    · exact recovers_of_load (load_of_backup hbroken hbackup)

/-! ## The last renames -/

/-- Installing the temporary file when there is no primary file. -/
theorem install_safe {bytes : List UInt8} (hencode : codec.encode new = .ok bytes)
    (hload : codec.load disk = .ok old) (hprimary : disk.primary = none)
    (htemporary : disk.temporary = some (.data bytes))
    (hkept : codec.Loads (some (.data bytes)) ∨ disk.backup.isSome) :
    install.Safe (codec.Recovers old new) disk := by
  have hhere : codec.Recovers old new disk := recovers_of_load hload
  have hbackup := read_backup_of_load hload hprimary
  refine ⟨hhere, ?_, ?_⟩
  · -- the rename failed: the backup goes back, or stays where the loader finds it
    intro error
    change (ite _ _ _ : FileProgram).Safe _ _
    split_ifs with hexists
    · refine ⟨hhere, fun _ => hhere, ?_⟩
      intro disk' heffect
      rw [Disk.renameBackupToPrimary] at heffect
      split_ifs at heffect
      cases heffect
      exact recovers_of_load (load_of_primary (hbackup hexists))
    · exact hhere
  · intro disk' heffect
    rw [Disk.renameTemporaryToPrimary] at heffect
    split_ifs at heffect
    cases heffect
    exact recovers_of_installed hencode htemporary (hkept.imp_right hbackup)

/-- Moving a primary file that loads out of the way, then installing the new one. -/
theorem replace_safe {bytes : List UInt8} (hencode : codec.encode new = .ok bytes)
    (hprimary : codec.read disk.primary = .ok (some old))
    (htemporary : disk.temporary = some (.data bytes)) :
    (Program.orReturn Disk.renamePrimaryToBackup install).Safe (codec.Recovers old new) disk := by
  apply Program.Safe.orReturn (recovers_of_load (load_of_primary hprimary))
  intro disk' heffect
  rw [Disk.renamePrimaryToBackup] at heffect
  split_ifs at heffect with hmissing
  cases heffect
  have hmoved : codec.load { disk with primary := none, backup := disk.primary } = .ok old :=
    load_of_backup (fun found => by simp [read]) hprimary
  have hexists : disk.primary.isSome = true :=
    Option.isSome_iff_ne_none.mpr (by simpa using hmissing)
  exact install_safe hencode hmoved rfl htemporary (Or.inr hexists)

/-- A write from a protected state can be interrupted anywhere. -/
theorem write_safe {bytes : List UInt8} (hencode : codec.encode new = .ok bytes)
    (hload : codec.load disk = .ok old) (hprotected : codec.Protected new disk)
    (ignoreRemoveError : Bool) :
    (writeRecoverable ignoreRemoveError bytes).Safe (codec.Recovers old new) disk := by
  obtain ⟨hprimary, hkept⟩ := hprotected bytes hencode
  have hhere : ∀ temporary, codec.Recovers old new { disk with temporary := temporary } :=
    fun temporary => recovers_of_load ((load_congr rfl rfl).trans hload)
  -- Until the renames only the temporary file changes.
  apply Program.Safe.orReturn (hhere disk.temporary)
  rintro _ ⟨⟩
  apply Program.Safe.orReturn (hhere disk.temporary)
  rintro _ ⟨⟩
  apply Program.Safe.orReturn (hhere _)
  rintro _ ⟨⟩
  apply Program.Safe.orReturn (hhere _)
  rintro _ ⟨⟩
  change (ite _ _ _ : FileProgram).Safe _ _
  rcases hprimary with hmissing | ⟨state, hstate⟩
  · have hload' : codec.load { disk with temporary := some (.data bytes) } = .ok old :=
      (load_congr rfl rfl).trans hload
    have hkept' : codec.Loads (some (.data bytes)) ∨ disk.backup.isSome := by
      rcases hkept with h | ⟨_, h⟩ | h
      · exact Or.inl h
      · rw [hmissing] at h
        cases h
      · exact Or.inr h
    rw [if_neg (by simp [hmissing])]
    exact install_safe hencode hload' hmissing rfl hkept'
  · have hold : state = old := by
      have := (load_of_primary hstate).symm.trans hload
      exact Except.ok.inj this
    subst hold
    have hexists : disk.primary.isSome = true := by
      cases hentry : disk.primary with
      | none => rw [hentry] at hstate; cases hstate
      | some entry => rfl
    rw [if_pos hexists]
    refine ⟨hhere _, ?_, ?_⟩
    · intro error
      change (ite _ _ _ : FileProgram).Safe _ _
      split_ifs
      · exact replace_safe hencode hstate rfl
      · exact hhere _
    · intro disk' heffect
      rw [Disk.removeBackup] at heffect
      split_ifs at heffect
      cases heffect
      exact replace_safe hencode hstate rfl

/-! ## What an unprotected write loses -/

private theorem not_recovers_of_error (error : Error) (h : codec.load disk = .error error) :
    ¬ codec.Recovers old new disk := by
  rintro ⟨state, hload, _⟩
  rw [h] at hload
  cases hload

/-- A primary file that does not load: once its backup is removed, nothing loads. -/
private theorem removed_backup_loses {bytes : List UInt8} (hload : codec.load disk = .ok old)
    (hprimary : disk.primary.isSome) (hbroken : ¬ codec.Loads disk.primary)
    (ignoreRemoveError : Bool) :
    ∃ fates, ¬ codec.Recovers old new
      ((writeRecoverable ignoreRemoveError bytes).run fates disk).1 := by
  obtain ⟨entry, hentry⟩ := Option.isSome_iff_exists.mp hprimary
  have hread : ∃ error, codec.read disk.primary = .error error := by
    rw [Loads] at hbroken
    cases hread : codec.read disk.primary with
    | error error => exact ⟨error, rfl⟩
    | ok found =>
      cases found with
      | some state => exact absurd ⟨state, hread⟩ hbroken
      | none =>
        rw [hentry] at hread
        cases entry with
        | unreadable => cases hread
        | data data =>
          rw [read] at hread
          cases hdecode : codec.decode data with
          | error error => rw [hdecode] at hread; cases hread
          | ok state => rw [hdecode] at hread; cases hread
  obtain ⟨error, hread⟩ := hread
  have hbackup : disk.backup.isNone = false := by
    cases hback : disk.backup with
    | some entry => rfl
    | none =>
      rw [load, hread, hback] at hload
      cases hload
  refine ⟨[.performs, .performs, .performs, .performs, .performs], ?_⟩
  have hrun : ((writeRecoverable ignoreRemoveError bytes).run
      [.performs, .performs, .performs, .performs, .performs] disk).1 =
      { disk with temporary := some (.data bytes), backup := none } := by
    simp [writeRecoverable, Program.orReturn, Program.run, Disk.createDirAll, Disk.createTemporary,
      Disk.writeAll, Disk.syncAll, Disk.removeBackup, hprimary, hbackup]
  rw [hrun]
  apply not_recovers_of_error error
  rw [load, hread]
  rfl

/-- Bytes that do not load, installed where there was no file at all. -/
private theorem first_write_loses {bytes : List UInt8} (hprimary : disk.primary = none)
    (hbackup : disk.backup = none) (hbroken : ¬ codec.Loads (some (.data bytes)))
    (ignoreRemoveError : Bool) :
    ∃ fates, ¬ codec.Recovers old new
      ((writeRecoverable ignoreRemoveError bytes).run fates disk).1 := by
  refine ⟨[.performs, .performs, .performs, .performs, .performs], ?_⟩
  have hrun : ((writeRecoverable ignoreRemoveError bytes).run
      [.performs, .performs, .performs, .performs, .performs] disk).1 =
      ⟨some (.data bytes), none, none⟩ := by
    simp [writeRecoverable, install, Program.orReturn, Program.run, Disk.createDirAll,
      Disk.createTemporary, Disk.writeAll, Disk.syncAll, Disk.renameTemporaryToPrimary, hprimary,
      hbackup]
  rw [hrun]
  cases hdecode : codec.decode bytes with
  | ok state =>
    refine absurd ⟨state, ?_⟩ hbroken
    rw [read, hdecode]
  | error error =>
    apply not_recovers_of_error error
    simp [load, read, hdecode]

end Codec

/-! ## Writes that fail -/

/-- After a failed write the file is in place, or it is the backup, or the backup took the
place of a file that was missing. -/
def Kept (before after : Disk) : Prop :=
  after.primary = before.primary ∨ (after.primary = none ∧ after.backup = before.primary) ∨
    (before.primary = none ∧ after.primary = before.backup)

/-- Restoring the backup either happens or leaves the disk alone. -/
private theorem restore_cases {fates : List (Fate IoError)} {disk final : Disk}
    {error : IoError} {result : Except IoError Unit}
    (h : Program.run (.call Disk.renameBackupToPrimary fun _ => .done (.error error)) fates disk =
      (final, some result)) :
    final = disk ∨ final.primary = disk.backup := by
  cases fates with
  | nil => cases h
  | cons fate fates =>
    cases fate with
    | fails error => cases h; exact Or.inl rfl
    | performs =>
      rw [Program.run, Disk.renameBackupToPrimary] at h
      split at h
      · rename_i state' heffect
        cases h
        split at heffect
        · cases heffect
        · cases heffect
          exact Or.inr rfl
      · cases h; exact Or.inl rfl

/-- The end of `install`, after its first call failed. -/
private theorem reinstate_error {fates : List (Fate IoError)} {disk final : Disk} {first error : IoError}
    (h : (Program.test (fun disk : Disk => disk.backup.isSome) fun backupExists =>
      if backupExists then .call Disk.renameBackupToPrimary fun _ => .done (.error first)
      else .done (.error first) : FileProgram).run fates disk = (final, some (.error error))) :
    final = disk ∨ final.primary = disk.backup := by
  rw [Program.run] at h
  split at h
  · exact restore_cases h
  · cases h; exact Or.inl rfl

theorem install_error {fates : List (Fate IoError)} {disk final : Disk} {error : IoError}
    (h : install.run fates disk = (final, some (.error error))) :
    final = disk ∨ final.primary = disk.backup := by
  cases fates with
  | nil => cases h
  | cons fate fates =>
    cases fate with
    | fails first => exact reinstate_error h
    | performs =>
      rw [install, Program.run] at h
      split at h
      · cases h
      · exact reinstate_error h

theorem replace_error {fates : List (Fate IoError)} {disk final : Disk} {error : IoError}
    (h : (Program.orReturn Disk.renamePrimaryToBackup install).run fates disk =
      (final, some (.error error))) : Kept disk final := by
  rcases Program.run_orReturn_cases h with ⟨rfl, -⟩ | ⟨moved, rest, hmoved, hrest⟩
  · exact Or.inl rfl
  · rw [Disk.renamePrimaryToBackup] at hmoved
    split at hmoved
    · cases hmoved
    · cases hmoved
      rcases install_error hrest with rfl | hprimary
      · exact Or.inr (Or.inl ⟨rfl, rfl⟩)
      · exact Or.inl hprimary

/-- The backup plays no part while there is a file. -/
theorem Kept.of_some {before start after : Disk} (hprimary : start.primary = before.primary)
    (hsome : before.primary.isSome) (h : Kept start after) : Kept before after := by
  rw [Kept, hprimary] at h
  rcases h with h | h | ⟨hnone, -⟩
  · exact Or.inl h
  · exact Or.inr (Or.inl h)
  · rw [hnone] at hsome
    cases hsome

/-- A backup that cannot be removed ends the write or is ignored. -/
private theorem unremoved_error {ignoreRemoveError : Bool} {fates : List (Fate IoError)}
    {disk final : Disk} {first error : IoError}
    (h : (if ignoreRemoveError || decide (first = .NotFound) then
        .orReturn Disk.renamePrimaryToBackup install
      else .done (.error first) : FileProgram).run fates disk = (final, some (.error error))) :
    Kept disk final := by
  split at h
  · exact replace_error h
  · cases h; exact Or.inl rfl

theorem writeRecoverable_error {ignoreRemoveError : Bool} {bytes : List UInt8}
    {fates : List (Fate IoError)} {disk final : Disk} {error : IoError}
    (h : (writeRecoverable ignoreRemoveError bytes).run fates disk = (final, some (.error error))) :
    Kept disk final := by
  rcases Program.run_orReturn_cases h with ⟨rfl, -⟩ | ⟨_, rest, hcreated, h⟩
  · exact Or.inl rfl
  cases hcreated
  rcases Program.run_orReturn_cases h with ⟨rfl, -⟩ | ⟨_, rest, hempty, h⟩
  · exact Or.inl rfl
  cases hempty
  rcases Program.run_orReturn_cases h with ⟨rfl, -⟩ | ⟨_, rest, hwritten, h⟩
  · exact Or.inl rfl
  cases hwritten
  rcases Program.run_orReturn_cases h with ⟨rfl, -⟩ | ⟨_, rest, hsynced, h⟩
  · exact Or.inl rfl
  cases hsynced
  rw [Program.run] at h
  split at h
  · rename_i hprimary
    have hsome : disk.primary.isSome := hprimary
    refine @Kept.of_some disk ⟨disk.primary, some (.data bytes), disk.backup⟩ final rfl hsome ?_
    cases rest with
    | nil => cases h
    | cons fate rest =>
      cases fate with
      | fails first => exact @unremoved_error _ _ _ _ first _ h
      | performs =>
        rw [Program.run] at h
        cases hremoved : Disk.removeBackup ⟨disk.primary, some (.data bytes), disk.backup⟩ with
        | error first =>
          rw [hremoved] at h
          exact @unremoved_error _ _ _ _ first _ h
        | ok removed =>
          rw [hremoved] at h
          rw [Disk.removeBackup] at hremoved
          split at hremoved
          · cases hremoved
          · cases hremoved
            exact @Kept.of_some _ ⟨disk.primary, some (.data bytes), none⟩ _ rfl hsome (replace_error h)
  · rename_i hprimary
    have hnone : disk.primary = none := by simpa using hprimary
    rcases install_error h with rfl | hbackup
    · exact Or.inl rfl
    · exact Or.inr (Or.inr ⟨hnone, hbackup⟩)

namespace Store

variable {codec : Codec State Error} {old new : State} {disk : Disk}

theorem write_eq (store : Store) :
    ∃ ignoreRemoveError, store.write = writeRecoverable ignoreRemoveError := by
  cases store with
  | IndexedDb => exact ⟨false, rfl⟩
  | CacheStorage => exact ⟨false, rfl⟩
  | WebStorage => exact ⟨true, rfl⟩
  | Cookies => exact ⟨true, rfl⟩

/-- An interrupted write never loses both states exactly when it starts protected. -/
theorem write_recovers_iff (store : Store) (codec : Codec State Error) (disk : Disk)
    (old new : State) (hload : codec.load disk = .ok old) :
    (∀ fates, codec.Recovers old new (store.diskAfter codec new fates disk)) ↔
      codec.Protected new disk := by
  obtain ⟨ignoreRemoveError, hwrite⟩ := store.write_eq
  constructor
  · intro h bytes hencode
    simp only [diskAfter, hencode, hwrite] at h
    have hnot : ¬ ∃ fates, ¬ codec.Recovers old new
        ((writeRecoverable ignoreRemoveError bytes).run fates disk).1 :=
      fun ⟨fates, hfates⟩ => hfates (h fates)
    have hprimary : disk.primary = none ∨ codec.Loads disk.primary := by
      by_contra hbroken
      rw [not_or] at hbroken
      exact hnot (Codec.removed_backup_loses hload (Option.isSome_iff_ne_none.mpr hbroken.1)
        hbroken.2 ignoreRemoveError)
    refine ⟨hprimary, ?_⟩
    by_contra hlost
    simp only [not_or, Option.not_isSome_iff_eq_none] at hlost
    obtain ⟨hbytes, hloads, hbackup⟩ := hlost
    exact hnot (Codec.first_write_loses (hprimary.resolve_right hloads) hbackup hbytes
      ignoreRemoveError)
  · intro hprotected fates
    rw [diskAfter]
    cases hencode : codec.encode new with
    | error error => exact Codec.recovers_of_load hload
    | ok bytes =>
      rw [hwrite]
      exact (Program.safe_iff _ _ _).mp
        (Codec.write_safe hencode hload hprotected ignoreRemoveError) fates

/-! An IndexedDB profile without databases, as its encoder writes it. -/

private def sampleBytes : List UInt8 :=
  "\x7b\"format_version\":1,\"state\":\x7b\"origins\":\x7b\x7d\x7d\x7d".toList.map fun c => c.toNat.toUInt8

private def sampleCodec : Codec Unit String where
  encode := fun _ => .ok sampleBytes
  decode := fun bytes => if bytes = sampleBytes then .ok () else .error "EOF while parsing an object"
  default := ()
  unreadable := "access denied"

theorem write_recovers_iff_sample :
    (∀ fates, sampleCodec.Recovers () ()
      (Store.IndexedDb.diskAfter sampleCodec () fates ⟨some (.data sampleBytes), none, none⟩)) ↔
      sampleCodec.Protected () ⟨some (.data sampleBytes), none, none⟩ :=
  write_recovers_iff .IndexedDb sampleCodec _ () () (by decide)

/-- A cut file with a good backup loads, and a write that stops before its first rename
leaves nothing that does. -/
theorem write_loses_backup :
    sampleCodec.load ⟨some (.data (sampleBytes.take 20)), none, some (.data sampleBytes)⟩ = .ok () ∧
      sampleCodec.load (Store.IndexedDb.diskAfter sampleCodec ()
        [.performs, .performs, .performs, .performs, .performs]
        ⟨some (.data (sampleBytes.take 20)), none, some (.data sampleBytes)⟩) =
        .error "EOF while parsing an object" := by
  decide

end Store

end BetterWebBrowser.Persistence
