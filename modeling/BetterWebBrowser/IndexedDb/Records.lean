import BetterWebBrowser.Framework.BinarySearch
import BetterWebBrowser.IndexedDb.Index

/-!
# Operations on records

What an object store does with its records: they are sorted by key and found by binary search.
-/

namespace BetterWebBrowser.IndexedDb

open Framework

inductive DbOperation
  | Put (store : Str) (key : Option Key) (value : Str) (overwrite : Bool)
  | Get (store : Str) (key : Key)
  | GetAll (store : Str) (range : Option KeyRange) (limit : Option Nat) (keysOnly : Bool)
  | Scan (store : Str) (range : Option KeyRange) (after : Option Key) (inclusive : Bool) (skip : Nat)
      (reverse keysOnly : Bool)
  | Delete (store : Str) (key : Key)
  | DeleteRange (store : Str) (range : KeyRange)
  | Clear (store : Str)
  | Count (store : Str) (range : Option KeyRange)
  | IndexGet (store index : Str) (range : KeyRange) (keysOnly : Bool)
  | IndexGetAll (store index : Str) (range : Option KeyRange) (limit : Option Nat) (keysOnly : Bool)
  | IndexCount (store index : Str) (range : Option KeyRange)
  | IndexScan (store index : Str) (range : Option KeyRange) (after afterPrimary : Option Key)
      (inclusive : Bool) (skip : Nat) (reverse unique keysOnly : Bool)

/-- The store an operation names, and whether it writes to it. -/
def DbOperation.target : DbOperation → Str × Bool
  | .Put store _ _ _ => (store, true)
  | .Get store _ => (store, false)
  | .GetAll store _ _ _ => (store, false)
  | .Scan store _ _ _ _ _ _ => (store, false)
  | .Delete store _ => (store, true)
  | .DeleteRange store _ => (store, true)
  | .Clear store => (store, true)
  | .Count store _ => (store, false)
  | .IndexGet store _ _ _ => (store, false)
  | .IndexGetAll store _ _ _ _ => (store, false)
  | .IndexCount store _ _ => (store, false)
  | .IndexScan store _ _ _ _ _ _ _ _ _ => (store, false)

/-- `2 ^ 53`, from which on not every integer is a double. -/
def GENERATOR_LIMIT : Nat := 9007199254740992

namespace RecordStore

variable (json : SerdeJson) (store : RecordStore)

def locate (key : Key) : Except Nat Nat :=
  binarySearchBy (fun record : Record => record.key.cmp key) store.records

/-- The key of a new record, whether it was generated, and the next key to generate. -/
def keyFor (key : Option Key) : DbOutcome (Key × Bool × Nat) :=
  match key with
  | some key => .ok (key, false, store.nextKey)
  | none =>
    if store.definition.autoIncrement then
      match checkedAdd 64 store.nextKey 1 with
      | some next => .ok (.Number (Double.ofU64 store.nextKey), true, next)
      | none => .error .Quota
    else .error (.Data "record has no key")

/-- The value to store, with a generated key at the key path. -/
def valueFor (generated : Bool) (key : Key) (value : Str) : DbOutcome Str :=
  match generated, store.definition.keyPath with
  | true, some path => inject json value path key
  | _, _ => .ok value

/-- The next key to generate after a record with this key. -/
def bumped (nextKey : Nat) (key : Key) : Nat :=
  match key with
  | .Number number =>
    if store.definition.autoIncrement && (Double.ofU64 nextKey).le number &&
        number.lt (Double.ofU64 GENERATOR_LIMIT) then number.floorToU64 + 1
    else nextKey
  | _ => nextKey

/-- Write a value under a key. -/
def place (key : Key) (value : Str) (overwrite : Bool) : DbOutcome (List Record) :=
  match store.locate key with
  | .ok index =>
    if overwrite then .ok (store.records.modify index fun record => { record with value := value })
    else .error (.Constraint "record already exists")
  | .error index => .ok (store.records.insertIdx index ⟨key, value⟩)

def put (key : Option Key) (value : Str) (overwrite : Bool) : DbOutcome (DbResult × RecordStore) := do
  failIf (MAX_ORIGIN_BYTES < Str.byteLen value) .Quota
  let (key, generated, nextKey) ← store.keyFor key
  key.validate 0
  let stored ← valueFor json store generated key value
  checkUniqueIndexValues json store key stored
  let records ← store.place key stored overwrite
  pure (.Key key, { store with nextKey := store.bumped nextKey key, records := records })

def get (key : Key) : DbOutcome DbResult := do
  key.validate 0
  pure (.Value (match store.locate key with
    | .ok index => store.records[index]?.map Record.value
    | .error _ => none))

def getAll (range : Option KeyRange) (limit : Option Nat) (keysOnly : Bool) : DbOutcome DbResult := do
  validateRange range
  let found := store.records.filter fun record => inRange range record.key
  let records := found.take (limit.getD found.length)
  pure (if keysOnly then .Keys (records.map Record.key) else .Values (records.map Record.value))

def scan (range : Option KeyRange) (after : Option Key) (inclusive : Bool) (skip : Nat)
    (reverse keysOnly : Bool) : DbOutcome DbResult := do
  validateRange range
  validateKey after
  let ordered := if reverse then store.records.reverse else store.records
  let found := ordered.filter fun record => inRange range record.key &&
    after.all fun after => isBeyond reverse inclusive (record.key.cmp after)
  pure (.Record (found[skip]?.map fun record =>
    ⟨record.key, none, if keysOnly then none else some record.value⟩))

def delete (key : Key) : DbOutcome (DbResult × RecordStore) := do
  key.validate 0
  pure (.Unit, match store.locate key with
    | .ok index => { store with records := store.records.eraseIdx index }
    | .error _ => store)

def deleteRange (range : KeyRange) : DbOutcome (DbResult × RecordStore) := do
  range.validate
  pure (.Unit, { store with records := store.records.filter fun record => !range.contains record.key })

def clear : RecordStore := { store with records := [] }

def count (range : Option KeyRange) : DbOutcome DbResult := do
  validateRange range
  pure (.Count (store.records.filter fun record => inRange range record.key).length)

def indexGet (index : Str) (range : KeyRange) (keysOnly : Bool) : DbOutcome DbResult := do
  let entries ← indexMatches json store index (some range)
  pure (if keysOnly then .Keys (entries.head?.map IndexEntry.primary).toList
    else .Value (entries.head?.map IndexEntry.value))

def indexGetAll (index : Str) (range : Option KeyRange) (limit : Option Nat) (keysOnly : Bool) :
    DbOutcome DbResult := do
  let found ← indexMatches json store index range
  let entries := found.take (limit.getD found.length)
  pure (if keysOnly then .Keys (entries.map IndexEntry.primary)
    else .Values (entries.map IndexEntry.value))

def indexCount (index : Str) (range : Option KeyRange) : DbOutcome DbResult := do
  let entries ← indexMatches json store index range
  pure (.Count entries.length)

/-- A reading operation leaves the store as it is. -/
def reading (result : DbOutcome DbResult) : DbOutcome (DbResult × RecordStore) := do
  let result ← result
  pure (result, store)

def apply (operation : DbOperation) : DbOutcome (DbResult × RecordStore) :=
  match operation with
  | .Put _ key value overwrite => put json store key value overwrite
  | .Get _ key => store.reading (store.get key)
  | .GetAll _ range limit keysOnly => store.reading (store.getAll range limit keysOnly)
  | .Scan _ range after inclusive skip reverse keysOnly =>
    store.reading (store.scan range after inclusive skip reverse keysOnly)
  | .Delete _ key => store.delete key
  | .DeleteRange _ range => store.deleteRange range
  | .Clear _ => .ok (.Unit, store.clear)
  | .Count _ range => store.reading (store.count range)
  | .IndexGet _ index range keysOnly => store.reading (indexGet json store index range keysOnly)
  | .IndexGetAll _ index range limit keysOnly =>
    store.reading (indexGetAll json store index range limit keysOnly)
  | .IndexCount _ index range => store.reading (indexCount json store index range)
  | .IndexScan _ index range after afterPrimary inclusive skip reverse unique keysOnly =>
    store.reading
      (indexScan json store index range after afterPrimary inclusive skip reverse unique keysOnly)

end RecordStore

/-! ## What the loader checks -/

/-- Some record does not come before the next one. -/
def isUnsorted : List Record → Bool
  | record :: next :: records => record.key.cmp next.key ≠ .lt || isUnsorted (next :: records)
  | _ => false

/-- The checks of `State::validate` on an object store. -/
def validateStore (json : SerdeJson) (name : Str) (store : RecordStore) : DbOutcome Unit := do
  store.definition.validate
  failIf (name ≠ store.definition.name ∨ store.nextKey = 0) (.Data "invalid persisted object store")
  store.records.forM fun record => record.key.validate 0
  failIf (isUnsorted store.records = true) (.Data "unsorted or duplicate persisted keys")
  validateIndexes json store

/-- The records of an object store as the layer below databases and sessions. -/
def recordLayer (json : SerdeJson) (encodedLength : List DbResult → Option Nat) :
    RecordLayer (List Record) DbOperation DbResult where
  empty := []
  target := DbOperation.target
  apply := RecordStore.apply json
  validateIndexes := validateIndexes json
  encodedLength := encodedLength

end BetterWebBrowser.IndexedDb
