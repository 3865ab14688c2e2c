import BetterWebBrowser.Framework.Fallible
import BetterWebBrowser.Framework.Str

/-!
# Profile files

The IndexedDB, CacheStorage, Web Storage and cookie stores keep one file each, with a backup
beside it and a temporary file that becomes the new one. Loading falls back on the backup.
The bytes of a state are the codec's business: a store's encoder refuses what is over its
budget, and its decoder checks the size, the format version and the state it reads.
-/

namespace BetterWebBrowser.Persistence

open Framework

/-- What is found under a name; opening may fail although there is a file. -/
inductive Entry
  | data (bytes : List UInt8)
  | unreadable
deriving DecidableEq

structure Disk where
  primary : Option Entry
  temporary : Option Entry
  backup : Option Entry
deriving DecidableEq

inductive IoError
  | NotFound | Other
deriving DecidableEq

structure Codec (State Error : Type) where
  encode : State → Except Error (List UInt8)
  decode : List UInt8 → Except Error State
  default : State
  /-- Any error of opening or reading a file. -/
  unreadable : Error

namespace Codec

variable {State Error : Type}

/-- One file: nothing when there is none. -/
def read (codec : Codec State Error) : Option Entry → Except Error (Option State)
  | none => .ok none
  | some .unreadable => .error codec.unreadable
  | some (.data bytes) =>
    match codec.decode bytes with
    | .ok state => .ok (some state)
    | .error error => .error error

def load (codec : Codec State Error) (disk : Disk) : Except Error State :=
  match codec.read disk.primary with
  | .ok (some state) => .ok state
  | .ok none =>
    match codec.read disk.backup with
    | .ok state => .ok (state.getD codec.default)
    | .error error => .error error
  | .error primary =>
    match codec.read disk.backup with
    | .ok (some state) => .ok state
    | .ok none => .error primary
    | .error error => .error error

end Codec

/-! ## File-system calls -/

namespace Disk

/-- The directory itself is not one of the three files. -/
def createDirAll (disk : Disk) : Except IoError Disk := .ok disk

def createTemporary (disk : Disk) : Except IoError Disk :=
  .ok { disk with temporary := some (.data []) }

def writeAll (bytes : List UInt8) (disk : Disk) : Except IoError Disk :=
  .ok { disk with temporary := some (.data bytes) }

def syncAll (disk : Disk) : Except IoError Disk := .ok disk

def removeBackup (disk : Disk) : Except IoError Disk :=
  if disk.backup.isNone then .error .NotFound else .ok { disk with backup := none }

/-- `rename` replaces its target. -/
def renamePrimaryToBackup (disk : Disk) : Except IoError Disk :=
  if disk.primary.isNone then .error .NotFound
  else .ok { disk with primary := none, backup := disk.primary }

def renameTemporaryToPrimary (disk : Disk) : Except IoError Disk :=
  if disk.temporary.isNone then .error .NotFound
  else .ok { disk with primary := disk.temporary, temporary := none }

def renameBackupToPrimary (disk : Disk) : Except IoError Disk :=
  if disk.backup.isNone then .error .NotFound
  else .ok { disk with primary := disk.backup, backup := none }

end Disk

/-! ## Writing -/

abbrev FileProgram := Program Disk IoError (Except IoError Unit)

/-- The last rename; when it fails, the backup goes back in place if that is possible. -/
def install : FileProgram :=
  .call Disk.renameTemporaryToPrimary fun
    | .ok () => .done (.ok ())
    | .error error =>
      .test (fun disk => disk.backup.isSome) fun backupExists =>
        if backupExists then .call Disk.renameBackupToPrimary fun _ => .done (.error error)
        else .done (.error error)

/-- `ignoreRemoveError`: whether a backup that cannot be removed ends the write. -/
def writeRecoverable (ignoreRemoveError : Bool) (bytes : List UInt8) : FileProgram :=
  .orReturn Disk.createDirAll <|
  .orReturn Disk.createTemporary <|
  .orReturn (Disk.writeAll bytes) <|
  .orReturn Disk.syncAll <|
  .test (fun disk => disk.primary.isSome) fun primaryExists =>
    if primaryExists then
      .call Disk.removeBackup fun
        | .ok () => .orReturn Disk.renamePrimaryToBackup install
        | .error error =>
          if ignoreRemoveError || decide (error = .NotFound) then
            .orReturn Disk.renamePrimaryToBackup install
          else .done (.error error)
    else install

inductive Store
  | IndexedDb | CacheStorage | WebStorage | Cookies
deriving DecidableEq

namespace IndexedDb

/-- `write` of the IndexedDB store: a backup that cannot be removed is an error. -/
def write (bytes : List UInt8) : FileProgram := writeRecoverable false bytes

end IndexedDb

namespace CacheStorage

def write (bytes : List UInt8) : FileProgram := writeRecoverable false bytes

end CacheStorage

namespace WebStorage

/-- `write_recoverable` of Web Storage: removing the backup may fail. -/
def write (bytes : List UInt8) : FileProgram := writeRecoverable true bytes

end WebStorage

namespace Cookies

def write (bytes : List UInt8) : FileProgram := writeRecoverable true bytes

end Cookies

namespace Store

def write : Store → List UInt8 → FileProgram
  | .IndexedDb => IndexedDb.write
  | .CacheStorage => CacheStorage.write
  | .WebStorage => WebStorage.write
  | .Cookies => Cookies.write

variable {State Error : Type}

/-- The disk when writing a state stops at the end of `fates`; nothing is called for a state
that the encoder refuses. -/
def diskAfter (store : Store) (codec : Codec State Error) (state : State)
    (fates : List (Fate IoError)) (disk : Disk) : Disk :=
  match codec.encode state with
  | .error _ => disk
  | .ok bytes => ((store.write bytes).run fates disk).1

end Store

end BetterWebBrowser.Persistence
