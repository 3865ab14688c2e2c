import BetterWebBrowser.Framework.OrdMap
import BetterWebBrowser.Framework.Outcome
import BetterWebBrowser.Storage.Types

/-!
# Databases and sessions

The databases of an origin, each with a version and a generation that counts its writes. A
session works on a copy of a database and replaces the database when it commits. What a store
does with its records is a parameter.
-/

namespace BetterWebBrowser.IndexedDb

open Framework Navigation Storage

def MAX_NAME_BYTES : Nat := 1024

def MAX_OPERATIONS : Nat := 256

def MAX_INDEXED_DB_IPC_BYTES : Nat := 4 * 1024 * 1024

/-- `u64::wrapping_add`. -/
def wrappingAdd (a b : Nat) : Nat := (a + b) % 2 ^ 64

inductive DbError
  | Data (message : String)
  | InvalidState (message : String)
  | Constraint (message : String)
  | ReadOnly
  | Version
  | Quota
  | Persistence (message : Str)
deriving DecidableEq

abbrev DbOutcome (α : Type) := Except DbError α

inductive TransactionMode
  | ReadOnly
  | ReadWrite
deriving DecidableEq

inductive IndexKeyPath
  | Single (path : Str)
  | Compound (paths : List Str)
deriving DecidableEq

structure IndexDefinition where
  name : Str
  keyPath : IndexKeyPath
  unique : Bool
  multiEntry : Bool
deriving DecidableEq

structure StoreDefinition where
  name : Str
  keyPath : Option Str
  autoIncrement : Bool
  indexes : List IndexDefinition
deriving DecidableEq

def validateName (name : Str) : DbOutcome Unit :=
  if MAX_NAME_BYTES < Str.byteLen name then .error .Quota else .ok ()

def validatePath (path : Str) : DbOutcome Unit :=
  if MAX_NAME_BYTES < Str.byteLen path ∨ ([] ∈ path.splitOn '.' ∧ path ≠ []) then
    .error (.Data "invalid index key path")
  else .ok ()

def IndexDefinition.validate (definition : IndexDefinition) : DbOutcome Unit :=
  if MAX_NAME_BYTES < Str.byteLen definition.name then .error .Quota
  else
    match definition.keyPath with
    | .Single path => validatePath path
    | .Compound paths =>
      if paths = [] ∨ definition.multiEntry then .error (.Data "invalid compound index key path")
      else paths.forM validatePath

/-- Each index of a store has its own name. -/
def StoreDefinition.validateNames : List Str → List IndexDefinition → DbOutcome Unit
  | _, [] => .ok ()
  | names, index :: indexes => do
    index.validate
    if index.name ∈ names then .error (.Constraint "index already exists")
    else validateNames (index.name :: names) indexes

def StoreDefinition.validate (definition : StoreDefinition) : DbOutcome Unit := do
  validateName definition.name
  match definition.keyPath with
  | some path =>
    if MAX_NAME_BYTES < Str.byteLen path ∨ [] ∈ path.splitOn '.' then
      .error (.Data "invalid key path")
    else validateNames [] definition.indexes
  | none => validateNames [] definition.indexes

structure ObjectStore (Records : Type) where
  definition : StoreDefinition
  nextKey : Nat
  records : Records

structure Database (Records : Type) where
  version : Nat
  generation : Nat
  stores : OrdMap Str (ObjectStore Records)

/-- What the operations of a store do with its records. -/
structure RecordLayer (Records Operation Result : Type) where
  empty : Records
  /-- The store an operation names, and whether it writes to it. -/
  target : Operation → Str × Bool
  apply : ObjectStore Records → Operation → DbOutcome (Result × ObjectStore Records)
  validateIndexes : ObjectStore Records → DbOutcome Unit
  /-- The length of the encoded results, if they can be encoded. -/
  encodedLength : List Result → Option Nat

section Database

variable {Records Operation Result : Type} (layer : RecordLayer Records Operation Result)

def applyOne (mode : TransactionMode) (database : Database Records) (operation : Operation) :
    DbOutcome (Result × Database Records) :=
  if (layer.target operation).2 ∧ mode = .ReadOnly then .error .ReadOnly
  else
    match database.stores.get (layer.target operation).1 with
    | none => .error (.InvalidState "object store does not exist")
    | some store => do
      let (result, store) ← layer.apply store operation
      pure (result, { database with
        stores := database.stores.insert (layer.target operation).1 store })

/-- Run the operations in order; the first error is the outcome. -/
def Database.apply (mode : TransactionMode) :
    Database Records → List Operation → DbOutcome (List Result × Database Records)
  | database, [] => .ok ([], database)
  | database, operation :: operations => do
    let (result, database) ← applyOne layer mode database operation
    let (results, database) ← Database.apply mode database operations
    pure (result :: results, database)

def validateResults (results : List Result) : DbOutcome Unit :=
  match layer.encodedLength results with
  | none => .error (.Data "invalid IndexedDB result")
  | some bytes => if MAX_INDEXED_DB_IPC_BYTES - 128 < bytes then .error .Quota else .ok ()

def Database.validateIndexes (database : Database Records) : DbOutcome Unit :=
  database.stores.entries.forM fun entry => layer.validateIndexes entry.2

/-! ## Schema changes -/

def removeStore (database : Database Records) (store : Str) : DbOutcome (Database Records) :=
  if database.stores.contains store then
    .ok { database with stores := database.stores.erase store }
  else .error (.InvalidState "object store does not exist")

def createStore (database : Database Records) (definition : StoreDefinition) :
    DbOutcome (Database Records) := do
  definition.validate
  if database.stores.contains definition.name then
    .error (.Constraint "object store already exists")
  else .ok { database with
    stores := database.stores.insert definition.name ⟨definition, 1, layer.empty⟩ }

def redefineStore (database : Database Records) (definition : StoreDefinition) :
    DbOutcome (Database Records) := do
  definition.validate
  match database.stores.get definition.name with
  | none => .error (.Data "object-store schema names do not match")
  | some store =>
    if store.definition.keyPath ≠ definition.keyPath ∨
        store.definition.autoIncrement ≠ definition.autoIncrement then
      .error (.Data "object-store key configuration changed")
    else
      let redefined := { store.definition with indexes := definition.indexes }
      .ok { database with
        stores := database.stores.insert definition.name { store with definition := redefined } }

def redefineStores (database : Database Records) (definitions : List StoreDefinition) :
    DbOutcome (Database Records) :=
  if definitions = [] then .ok database
  else if definitions.length ≠ database.stores.len then
    .error (.Data "incomplete object-store schema")
  else definitions.foldlM redefineStore database

end Database

/-! ## The databases of all origins -/

structure State (Records : Type) where
  origins : OrdMap Str (OrdMap Str (Database Records)) := .empty

namespace State

variable {Records : Type}

def database (state : State Records) (origin name : Str) : Option (Database Records) :=
  (state.origins.get origin).bind fun group => group.get name

def setDatabase (state : State Records) (origin name : Str) (database : Database Records) :
    State Records :=
  ⟨state.origins.insert origin (((state.origins.get origin).getD .empty).insert name database)⟩

def removeDatabase (state : State Records) (origin name : Str) : State Records :=
  match state.origins.get origin with
  | none => state
  | some group => ⟨state.origins.insert origin (group.erase name)⟩

end State

structure DbSession (Records : Type) where
  origin : Str
  name : Str
  version : Nat
  generation : Nat
  mode : TransactionMode
  database : Database Records

/-! ## Operations -/

section Operations

variable {Records Operation Result : Type} (layer : RecordLayer Records Operation Result)
  (urlParse : Str → Option Url) (save : State Records → DbOutcome Unit)

def DbSession.step (session : DbSession Records) (operations : List Operation) :
    DbOutcome (List Result × DbSession Records) := do
  failIf (MAX_OPERATIONS < operations.length) DbError.Quota
  let (results, candidate) ← session.database.apply layer session.mode operations
  validateResults layer results
  pure (results, { session with database := candidate })

def originOf (url : Str) : DbOutcome Str :=
  match storageOrigin urlParse url with
  | .error _ => .error (.InvalidState "IndexedDB requires a non-opaque origin")
  | .ok origin => .ok origin

/-- Act on a copy of the state, which replaces the state once it is valid and written. -/
def update {α : Type} (action : State Records → DbOutcome (α × State Records))
    (state : State Records) : DbOutcome (α × State Records) := do
  let (result, candidate) ← action state
  save candidate
  pure (result, candidate)

/-- A database before its first version. -/
def Database.initial : Database Records := ⟨0, 0, .empty⟩

def upgradeWithSchema (state : State Records) (url name : Str) (previousVersion version : Nat)
    (create : List StoreDefinition) (remove : List Str) (writes : List Operation)
    (definitions : List StoreDefinition) : DbOutcome (List Result × State Records) := do
  validateName name
  failIf (version = 0 ∨ version ≤ previousVersion ∨ MAX_OPERATIONS < writes.length) DbError.Version
  let origin ← originOf urlParse url
  update save (fun state => do
    let database := (state.database origin name).getD .initial
    failIf (database.version ≠ previousVersion) DbError.Version
    let database ← remove.foldlM removeStore database
    let database ← create.foldlM (createStore layer) database
    let database ← redefineStores database definitions
    let (results, database) ← database.apply layer .ReadWrite writes
    validateResults layer results
    database.validateIndexes layer
    pure (results, state.setDatabase origin name { database with
      version := version
      generation := wrappingAdd database.generation 1 })) state

/-- The operations of a transaction on its database, which must be of the expected version. -/
def runTransaction (state : State Records) (origin name : Str) (expectedVersion : Nat)
    (mode : TransactionMode) (operations : List Operation) :
    DbOutcome (List Result × Database Records) :=
  match state.database origin name with
  | none => throw (.InvalidState "database does not exist")
  | some database => do
    failIf (database.version ≠ expectedVersion) DbError.Version
    let (results, database) ← database.apply layer mode operations
    validateResults layer results
    pure (results, database)

def transaction (state : State Records) (url name : Str) (expectedVersion : Nat)
    (mode : TransactionMode) (operations : List Operation) :
    DbOutcome (List Result × State Records) := do
  failIf (MAX_OPERATIONS < operations.length) DbError.Quota
  let origin ← originOf urlParse url
  match mode with
  | .ReadOnly => do
    let (results, _) ← runTransaction layer state origin name expectedVersion mode operations
    pure (results, state)
  | .ReadWrite => update save (fun state => do
      let (results, database) ←
        runTransaction layer state origin name expectedVersion mode operations
      pure (results, state.setDatabase origin name { database with
        generation := wrappingAdd database.generation 1 })) state

def beginSession (state : State Records) (url name : Str) (expectedVersion : Nat)
    (mode : TransactionMode) : DbOutcome (DbSession Records) := do
  let origin ← originOf urlParse url
  match state.database origin name with
  | none => throw (.InvalidState "database does not exist")
  | some database => do
    failIf (database.version ≠ expectedVersion) DbError.Version
    pure ⟨origin, name, database.version, database.generation, mode, database⟩

def commitSession (state : State Records) (session : DbSession Records) :
    DbOutcome (Unit × State Records) :=
  if session.mode = .ReadOnly then .ok ((), state)
  else update save (fun state =>
    match state.database session.origin session.name with
    | none => throw (.InvalidState "database does not exist")
    | some database => do
      failIf (database.version ≠ session.version ∨ database.generation ≠ session.generation) DbError.Version
      pure ((), state.setDatabase session.origin session.name { session.database with
        generation := wrappingAdd session.database.generation 1 })) state

def delete (state : State Records) (url name : Str) : DbOutcome (Nat × State Records) := do
  validateName name
  let origin ← originOf urlParse url
  update save (fun state => pure (((state.database origin name).map Database.version).getD 0,
    state.removeDatabase origin name)) state

end Operations

end BetterWebBrowser.IndexedDb
