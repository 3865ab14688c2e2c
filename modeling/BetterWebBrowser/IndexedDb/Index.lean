import BetterWebBrowser.IndexedDb.Clone
import Mathlib.Data.List.Sort

/-!
# Records and their indexes

An index is not stored: its entries are read off the records whenever they are needed.
-/

namespace BetterWebBrowser.IndexedDb

open Framework

structure Record where
  key : Key
  value : Str

abbrev RecordStore := ObjectStore (List Record)

structure CursorRecord where
  key : Key
  primaryKey : Option Key
  value : Option Str

inductive DbResult
  | Key (key : Key)
  | Value (value : Option Str)
  | Values (values : List Str)
  | Keys (keys : List Key)
  | Record (record : Option CursorRecord)
  | Count (count : Nat)
  | Unit

structure IndexEntry where
  key : Key
  primary : Key
  value : Str

/-! ## The keys of a value -/

/-- Insert into a sorted set; an equal key is replaced. -/
def insertKey (key : Key) : List Key → List Key
  | [] => [key]
  | other :: keys =>
    match key.cmp other with
    | .lt => key :: other :: keys
    | .eq => key :: keys
    | .gt => other :: insertKey key keys

/-- The keys collected into a `BTreeSet`. -/
def keySet (keys : List Key) : List Key := keys.foldl (fun set key => insertKey key set) []

def isValidKey (key : Key) : Bool := (key.validate 0).isOk

/-- The index keys of the members of an array. -/
def memberKeys (members : List Json) : List Key :=
  keySet (((members.filterMap Json.memberValue).filterMap Json.cloneKey).filter isValidKey)

/-- The one index key of a value, if it has a valid one. -/
def wholeKey (index : IndexDefinition) (value : Json) : List Key :=
  let key := match index.keyPath with
    | .Single path => extractPath value path
    | .Compound paths => (paths.mapM fun path => extractPath value path).map Key.Array
  match key with
  | none => []
  | some key => if isValidKey key then [key] else []

def keysForValue (json : SerdeJson) (index : IndexDefinition) (serialized : Str) : List Key :=
  match json.fromStr serialized with
  | none => []
  | some value =>
    match index.multiEntry, index.keyPath with
    | true, .Single path =>
      match value.projectPath path with
      | none => []
      | some projected =>
        if projected.tag = some "array".toList then (projected.members.map memberKeys).getD []
        else wholeKey index value
    | _, _ => wholeKey index value

/-! ## Unique indexes -/

/-- Insert keys into a set of seen keys; one that is there already is an error. -/
def insertSeen : List Key → List Key → DbOutcome (List Key)
  | seen, [] => .ok seen
  | seen, key :: keys =>
    if seen.any fun other => key.cmp other = .eq then
      .error (.Constraint "unique index key already exists")
    else insertSeen (key :: seen) keys

/-- Every key of a unique index occurs once. -/
def validateUnique (json : SerdeJson) (index : IndexDefinition) :
    List Key → List Record → DbOutcome Unit
  | _, [] => .ok ()
  | seen, record :: records => do
    let seen ← insertSeen seen (keysForValue json index record.value)
    validateUnique json index seen records

/-- Only a unique index is checked. -/
def validateRecords (json : SerdeJson) (records : List Record) (index : IndexDefinition) : DbOutcome Unit :=
  if index.unique then validateUnique json index [] records else .ok ()

def validateIndexesFrom (json : SerdeJson) (records : List Record) :
    List Str → List IndexDefinition → DbOutcome Unit
  | _, [] => .ok ()
  | names, index :: indexes => do
    index.validate
    failIf (index.name ∈ names) (.Constraint "index name already exists")
    validateRecords json records index
    validateIndexesFrom json records (index.name :: names) indexes

section Store

variable (json : SerdeJson) (store : RecordStore)

def validateIndexes : DbOutcome Unit :=
  validateIndexesFrom json store.records [] store.definition.indexes

/-- A proposed record has an index key of another record. -/
def collides (index : IndexDefinition) (primary : Key) (value : Str) : Bool :=
  (store.records.filter fun record => !record.key.eq primary).any fun record =>
    (keysForValue json index value).any fun key =>
      (keysForValue json index record.value).any fun other => other.eq key

def checkUniqueIndexValues (primary : Key) (value : Str) : DbOutcome Unit :=
  failIf ((store.definition.indexes.filter IndexDefinition.unique).any fun index =>
      collides json store index primary value)
    (.Constraint "unique index key already exists")

/-! ## Entries -/

def recordEntries (index : IndexDefinition) (record : Record) : List IndexEntry :=
  (keysForValue json index record.value).map fun key => ⟨key, record.key, record.value⟩

def IndexEntry.cmp (left right : IndexEntry) : Ordering :=
  (left.key.cmp right.key).then (left.primary.cmp right.primary)

/-- The entries of an index in the order of their keys and primary keys. -/
def entriesOf (index : IndexDefinition) : List IndexEntry :=
  (store.records.flatMap (recordEntries json index)).insertionSort
    fun left right => left.cmp right ≠ .gt

def indexEntries (name : Str) : DbOutcome (List IndexEntry) :=
  match store.definition.indexes.find? fun index => index.name = name with
  | none => .error (.InvalidState "index does not exist")
  | some index => .ok (entriesOf json store index)

/-- A missing range contains every key. -/
def inRange (range : Option KeyRange) (key : Key) : Bool := range.all fun range => range.contains key

def validateRange (range : Option KeyRange) : DbOutcome Unit :=
  match range with
  | some range => range.validate
  | none => .ok ()

def validateKey (key : Option Key) : DbOutcome Unit :=
  match key with
  | some key => key.validate 0
  | none => .ok ()

/-- The entries of an index in a range. -/
def indexMatches (name : Str) (range : Option KeyRange) : DbOutcome (List IndexEntry) := do
  validateRange range
  let entries ← indexEntries json store name
  pure (entries.filter fun entry => inRange range entry.key)

/-- A position comes after another one in the direction of a cursor. -/
def isBeyond (reverse inclusive : Bool) (order : Ordering) : Bool :=
  if reverse then order = .lt || (inclusive && order = .eq)
  else order = .gt || (inclusive && order = .eq)

/-- Of consecutive entries of one key only the first is kept. -/
def keepFirst : Option Key → List IndexEntry → List IndexEntry
  | _, [] => []
  | previous, entry :: entries =>
    if previous.any fun key => key.eq entry.key then keepFirst previous entries
    else entry :: keepFirst (some entry.key) entries

/-- How an entry compares to the position of a cursor. -/
def positionOrder (after : Key) (afterPrimary : Option Key) (entry : IndexEntry) : Ordering :=
  match entry.key.cmp after with
  | .eq => (afterPrimary.map fun primary => entry.primary.cmp primary).getD .eq
  | order => order

def indexScan (name : Str) (range : Option KeyRange) (after afterPrimary : Option Key)
    (inclusive : Bool) (skip : Nat) (reverse unique keysOnly : Bool) : DbOutcome DbResult := do
  let entries ← indexMatches json store name range
  validateKey after
  validateKey afterPrimary
  let ordered := if reverse then entries.reverse else entries
  let kept := if unique then keepFirst none ordered else ordered
  let beyond := kept.filter fun entry =>
    after.all fun after => isBeyond reverse inclusive (positionOrder after afterPrimary entry)
  pure (.Record (beyond[skip]?.map fun entry =>
    ⟨entry.key, some entry.primary, if keysOnly then none else some entry.value⟩))

end Store

end BetterWebBrowser.IndexedDb
