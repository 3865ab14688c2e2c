import BetterWebBrowser.Framework.OrdMap
import BetterWebBrowser.Navigation.ParsedUrl
import Mathlib.Order.Fin.Basic

/-!
# Web Storage values

Strings are UTF-16 code units, isolated surrogates included, and carry the quota bytes of
the source. A mutation names one area, the version it expects and one operation; every
validator returns the error of the source.
-/

namespace BetterWebBrowser.Storage

open Framework Navigation

/-! ## Limits -/

def MAX_STORAGE_ORIGINS : Nat := 256
def MAX_STORAGE_ENTRIES_PER_ORIGIN : Nat := 1024
def MAX_STORAGE_BYTES_PER_ORIGIN : Nat := 5 * 1024 * 1024
def MAX_PENDING_STORAGE_BYTES : Nat := 32 * 1024 * 1024
def MAX_QUEUED_BROWSER_WRITES : Nat := 4096
def U64_MAX : Nat := 2 ^ 64 - 1

/-! ## Strings -/

/-- Lossless UTF-16. The order is that of the code units. -/
structure StorageString where
  units : List (Fin 65536)
deriving DecidableEq

namespace StorageString

/-- A high surrogate costs three bytes and the low surrogate after it one more, which is
the UTF-8 cost of the pair; an isolated surrogate costs three. -/
def quotaBytesAfter : Bool → List (Fin 65536) → Nat
  | _, [] => 0
  | precedingHigh, unit :: units =>
    if unit.val ≤ 0x7f then 1 + quotaBytesAfter false units
    else if unit.val ≤ 0x7ff then 2 + quotaBytesAfter false units
    else
      (if precedingHigh && decide (0xdc00 ≤ unit.val ∧ unit.val ≤ 0xdfff) then 1 else 3) +
        quotaBytesAfter (decide (0xd800 ≤ unit.val ∧ unit.val ≤ 0xdbff)) units

def byteLen (s : StorageString) : Nat := quotaBytesAfter false s.units

theorem units_injective : Function.Injective units := by
  intro s t h
  cases s
  cases t
  simp_all

instance : LinearOrder StorageString := LinearOrder.lift' units units_injective

end StorageString

/-! ## Operations, snapshots and errors -/

inductive StorageAreaKind
  | Local
  | Session
deriving DecidableEq

inductive StorageOperation
  | Set (key value : StorageString)
  | Remove (key : StorageString)
  | Clear
deriving DecidableEq

/-- `entries` lists the map in key order. -/
structure StorageAreaSnapshot where
  version : Nat
  entries : List (StorageString × StorageString)
deriving DecidableEq

inductive StorageError
  | Invalid (field : String)
  | QuotaExceeded
  | Stale (snapshot : StorageAreaSnapshot)
  | Persistence (detail : String)
deriving DecidableEq

def StorageError.display : StorageError → String
  | .Invalid field => "invalid " ++ field
  | .QuotaExceeded => "Web Storage quota exceeded"
  | .Stale _ => "Web Storage snapshot is stale"
  | .Persistence detail => "persist Web Storage: " ++ detail

/-- `Result<T, StorageError>`. -/
abbrev StorageResult (α : Type) := Except StorageError α

/-- The serialized origin of a URL; opaque origins have no storage. -/
def storageOrigin (urlParse : Str → Option Url) (url : Str) : StorageResult Str :=
  match Origin.parse urlParse url with
  | none => .error (.Invalid "storage origin")
  | some origin =>
    if origin.serialize = "null".toList then .error (.Invalid "opaque storage origin")
    else .ok origin.serialize

def validateBytes (bytes : Nat) : StorageResult Unit :=
  if MAX_STORAGE_BYTES_PER_ORIGIN < bytes then .error .QuotaExceeded else .ok ()

/-- Quota bytes of one entry. -/
def entryBytes (key value : StorageString) : Nat := key.byteLen + value.byteLen

namespace StorageAreaSnapshot

def empty : StorageAreaSnapshot := ⟨1, []⟩

/-- The per-entry checks and the running total of `validate`. -/
def validateEntries : Nat → List (StorageString × StorageString) → StorageResult Nat
  | total, [] => .ok total
  | total, entry :: entries =>
    match validateBytes (entryBytes entry.1 entry.2) with
    | .error error => .error error
    | .ok () => validateEntries (total + entryBytes entry.1 entry.2) entries

def validate (snapshot : StorageAreaSnapshot) : StorageResult Unit :=
  if snapshot.version = 0 ∨ MAX_STORAGE_ENTRIES_PER_ORIGIN < snapshot.entries.length then
    .error (.Invalid "storage snapshot metadata")
  else
    match validateEntries 0 snapshot.entries with
    | .error error => .error error
    | .ok total =>
      if MAX_STORAGE_BYTES_PER_ORIGIN < total then .error .QuotaExceeded else .ok ()

end StorageAreaSnapshot

structure StorageMutation where
  area : StorageAreaKind
  expectedVersion : Nat
  operation : StorageOperation
deriving DecidableEq

namespace StorageMutation

def byteLen (mutation : StorageMutation) : Nat :=
  match mutation.operation with
  | .Set key value => key.byteLen + value.byteLen
  | .Remove key => key.byteLen
  | .Clear => 0

def validate (mutation : StorageMutation) : StorageResult Unit :=
  if mutation.expectedVersion = 0 then .error (.Invalid "storage mutation version")
  else
    match mutation.operation with
    | .Set key value => validateBytes (key.byteLen + value.byteLen)
    | .Remove key => validateBytes key.byteLen
    | .Clear => .ok ()

end StorageMutation

/-! ## Writes, changes and updates -/

/-- One intent of a document, numbered by the document. -/
structure StorageWrite where
  sequence : Nat
  sourceUrl : Str
  mutation : StorageMutation
deriving DecidableEq

def StorageWrite.validate (write : StorageWrite) : StorageResult Unit :=
  if write.sequence = 0 ∨ MAX_URL_BYTES < Str.byteLen write.sourceUrl then
    .error (.Invalid "storage write identity")
  else write.mutation.validate

/-- One successful operation with the value it replaced. -/
structure StorageChange where
  version : Nat
  key : Option StorageString
  oldValue : Option StorageString
  newValue : Option StorageString
deriving DecidableEq

namespace StorageChange

def optionBytes (value : Option StorageString) : Nat := value.elim 0 StorageString.byteLen

def byteLen (change : StorageChange) : Nat :=
  optionBytes change.key + optionBytes change.oldValue + optionBytes change.newValue

def validate (change : StorageChange) : StorageResult Unit :=
  if change.version = 0 ∨ (change.key = none ∧
      (change.oldValue.isSome ∨ change.newValue.isSome)) then
    .error (.Invalid "storage change payload")
  else
    match validateBytes (optionBytes change.key + optionBytes change.oldValue) with
    | .error error => .error error
    | .ok () => validateBytes (optionBytes change.key + optionBytes change.newValue)

def operation (change : StorageChange) : StorageOperation :=
  match change.key, change.newValue with
  | some key, some value => .Set key value
  | some key, none => .Remove key
  | none, _ => .Clear

end StorageChange

/-- One authoritative operation. Acknowledgement zero is a change of another document; any
other acknowledgement retires one local intent, with no change if the authority rejected it
or found it redundant. -/
structure StorageUpdate where
  area : StorageAreaKind
  version : Nat
  acknowledgement : Nat
  change : Option StorageChange
  sourceUrl : Str
deriving DecidableEq

namespace StorageUpdate

def byteLen (update : StorageUpdate) : Nat :=
  Str.byteLen update.sourceUrl + update.change.elim 0 StorageChange.byteLen

def validate (update : StorageUpdate) : StorageResult Unit :=
  if update.version = 0 ∨ MAX_URL_BYTES < Str.byteLen update.sourceUrl ∨
      (update.acknowledgement = 0 ∧ update.change = none) then
    .error (.Invalid "storage update metadata")
  else
    match update.change with
    | none => .ok ()
    | some change =>
      if change.version ≠ update.version then .error (.Invalid "storage change version")
      else change.validate

end StorageUpdate

end BetterWebBrowser.Storage
