import BetterWebBrowser.Storage.Local

/-!
# The storage authority and its recipients

The coordinator holds the local authority and one bounded queue a document. A batch of
writes is checked and run on a copy of the map, room is reserved with every recipient, the
authority commits, and then every recipient gets its updates. A document is named by the
number of its subscription; dropping the subscription leaves a dead endpoint behind until
the next call. Wake-up callbacks are left out.
-/

namespace BetterWebBrowser.Storage

open Framework Navigation

structure Endpoint where
  origin : Str
  queue : List StorageUpdate
  bytes : Nat
  /-- Sequence of the last write taken from the document, for each area. -/
  sequences : StorageAreaKind → Nat
  error : Option String

/-- An endpoint of the coordinator, with the strong count of its subscription. -/
structure Registered where
  id : Nat
  alive : Bool
  endpoint : Endpoint

structure StorageCoordinator where
  localStorage : LocalStorage
  endpoints : List Registered
  /-- Number of the next subscription. -/
  nextId : Nat

def Endpoint.takeIf (endpoint : Endpoint) (accepts : StorageUpdate → Bool) :
    Endpoint × Option StorageUpdate :=
  match endpoint.queue with
  | [] => (endpoint, none)
  | update :: queue =>
    if accepts update then
      ({ endpoint with queue := queue, bytes := endpoint.bytes - update.byteLen }, some update)
    else (endpoint, none)

def Endpoint.takeError (endpoint : Endpoint) : Endpoint × Option String :=
  ({ endpoint with error := none }, endpoint.error)

def updatesBytes (updates : List StorageUpdate) : Nat := (updates.map StorageUpdate.byteLen).sum

namespace StorageCoordinator

def new (authority : LocalStorage) : StorageCoordinator := ⟨authority, [], 0⟩

/-- Forget the endpoints whose subscription was dropped. -/
def retain (hub : StorageCoordinator) : StorageCoordinator :=
  { hub with endpoints := hub.endpoints.filter fun r => r.alive }

/-- The endpoint behind a subscription that has not been dropped. -/
def find (hub : StorageCoordinator) (id : Nat) : Option Endpoint :=
  (hub.endpoints.find? fun r => r.alive && decide (r.id = id)).map Registered.endpoint

/-- Replace every endpoint by its image. -/
def mapEndpoints (hub : StorageCoordinator) (f : Nat → Endpoint → Endpoint) : StorageCoordinator :=
  { hub with endpoints := hub.endpoints.map fun r => { r with endpoint := f r.id r.endpoint } }

/-- Replace the endpoint of one subscription. -/
def update (hub : StorageCoordinator) (id : Nat) (endpoint : Endpoint) : StorageCoordinator :=
  hub.mapEndpoints fun other old => if other = id then endpoint else old

/-! ## Subscriptions -/

def subscribe (urlParse : Str → Option Url) (hub : StorageCoordinator) (url : Str) :
    StorageCoordinator × StorageResult (StorageAreaSnapshot × Nat) :=
  match storageOrigin urlParse url with
  | .error error => (hub, .error error)
  | .ok origin =>
    let hub := hub.retain
    match hub.localStorage.snapshot urlParse url with
    | .error error => (hub, .error error)
    | .ok snapshot =>
      let endpoint : Endpoint := ⟨origin, [], 0, fun _ => 0, none⟩
      ({ hub with
          endpoints := hub.endpoints ++ [⟨hub.nextId, true, endpoint⟩],
          nextId := hub.nextId + 1 },
        .ok (snapshot, hub.nextId))

/-- Drop a subscription; its endpoint stays until the next `retain`. -/
def unsubscribe (hub : StorageCoordinator) (id : Nat) : StorageCoordinator :=
  { hub with endpoints :=
      hub.endpoints.map fun r => if r.id = id then { r with alive := false } else r }

/-! ## Batches -/

/-- The identity checks of a batch, from the last accepted sequence on; the last sequence
of the batch on success. -/
def checkWrites (urlParse : Str → Option Url) (area : StorageAreaKind) (origin : Str) :
    Nat → List StorageWrite → StorageResult Nat
  | sequence, [] => .ok sequence
  | sequence, write :: writes =>
    match write.validate with
    | .error error => .error error
    | .ok () =>
      if sequence = U64_MAX then .error (.Invalid "storage sequence exhausted")
      else if write.sequence ≠ sequence + 1 ∨ write.mutation.area ≠ area then
        .error (.Invalid "storage source identity or sequence")
      else
        match storageOrigin urlParse write.sourceUrl with
        | .error error => .error error
        | .ok writeOrigin =>
          if writeOrigin ≠ origin then .error (.Invalid "storage source identity or sequence")
          else checkWrites urlParse area origin (sequence + 1) writes

/-- Outcome of running a batch on a copy of the map. -/
structure Preflight where
  state : StorageAreaState
  mutations : List StorageMutation
  changes : List (Option StorageChange)
  rejection : Option String

/-- Run the writes on a copy of the map, each against the version the previous ones left.
The first refused write ends the loop. -/
def preflightLoop (state : StorageAreaState) : List StorageWrite → Preflight
  | [] => ⟨state, [], [], none⟩
  | write :: writes =>
    let mutation := { write.mutation with expectedVersion := state.version }
    let change := StorageChange.before (some state) mutation.operation
    match state.apply mutation with
    | .error error => ⟨state, [], [], some error.display⟩
    | .ok (state, changed) =>
      let rest := preflightLoop state writes
      let change := if changed then some { change with version := state.version } else none
      { rest with mutations := mutation :: rest.mutations, changes := change :: rest.changes }

/-- A refused write leaves no change for the whole batch. -/
def preflight (state : StorageAreaState) (writes : List StorageWrite) : Preflight :=
  let result := preflightLoop state writes
  if result.rejection.isSome then { result with changes := writes.map fun _ => none } else result

/-- The updates of a batch: the source gets one for each write, another document one for
each change. -/
def makeUpdates (area : StorageAreaKind) (isSource : Bool) :
    Nat → List StorageWrite → List (Option StorageChange) → List StorageUpdate
  | version, write :: writes, change :: changes =>
    let version := change.elim version StorageChange.version
    let rest := makeUpdates area isSource version writes changes
    if isSource || change.isSome then
      ⟨area, version, if isSource then write.sequence else 0, change, write.sourceUrl⟩ :: rest
    else rest
  | _, _, _ => []

/-- Room for the updates of every target, looked at one target after the other. -/
def reserve (updates : Nat → List StorageUpdate) : List Registered → StorageResult Bool
  | [] => .ok true
  | target :: targets =>
    let updated := updates target.id
    let bytes := updatesBytes updated
    if MAX_QUEUED_BROWSER_WRITES < updated.length ∨ MAX_PENDING_STORAGE_BYTES < bytes then
      .error (.Invalid "storage transaction exceeds delivery capacity")
    else if MAX_QUEUED_BROWSER_WRITES < target.endpoint.queue.length + updated.length ∨
        MAX_PENDING_STORAGE_BYTES < target.endpoint.bytes + bytes then .ok false
    else reserve updates targets

/-- A batch whose writes passed the identity checks. -/
structure Batch where
  source : Nat
  area : StorageAreaKind
  origin : Str
  /-- URL of the first write. -/
  url : Str
  writes : List StorageWrite
  /-- Sequence of the last write. -/
  sequence : Nat
  /-- Version of the map before the batch. -/
  version : Nat

namespace Batch

/-- The source itself and, for the local area, every document of its origin. -/
def targets (batch : Batch) (id : Nat) (endpoint : Endpoint) : Bool :=
  decide (id = batch.source) ||
    (decide (batch.area = .Local) && decide (endpoint.origin = batch.origin))

def updates (batch : Batch) (changes : List (Option StorageChange)) (id : Nat) :
    List StorageUpdate :=
  makeUpdates batch.area (decide (id = batch.source)) batch.version batch.writes changes

/-- Commit the batch to its authority. A local transaction can still fail, on its quota of
origins or on the disk; a session map is published as the preflight left it. -/
def commit (batch : Batch) (urlParse : Str → Option Url) (persist : Persist)
    (preflight : Preflight) (authority : LocalStorage) (session : SessionStorage) :
    LocalStorage × SessionStorage × Option String :=
  match preflight.rejection, batch.area with
  | some rejection, _ => (authority, session, some rejection)
  | none, .Local =>
    match authority.applyBatch urlParse persist batch.url preflight.mutations with
    | (authority, .error error) => (authority, session, some error.display)
    | (authority, .ok _) => (authority, session, none)
  | none, .Session =>
    (authority, ⟨session.origins.insert batch.origin preflight.state⟩, none)

/-- Give a target its updates; the source also takes the sequence and the rejection. -/
def deliver (batch : Batch) (changes : List (Option StorageChange)) (rejection : Option String)
    (id : Nat) (endpoint : Endpoint) : Endpoint :=
  if batch.targets id endpoint then
    let endpoint :=
      if id = batch.source then
        { endpoint with
            sequences := Function.update endpoint.sequences batch.area batch.sequence,
            error := rejection }
      else endpoint
    let updates := batch.updates changes id
    { endpoint with
        queue := endpoint.queue ++ updates, bytes := endpoint.bytes + updatesBytes updates }
  else endpoint

/-- Reserve, commit and deliver. -/
def publish (batch : Batch) (urlParse : Str → Option Url) (persist : Persist)
    (hub : StorageCoordinator) (session : SessionStorage) (state : StorageAreaState) :
    StorageCoordinator × SessionStorage × StorageResult Bool :=
  let preflight := preflight state batch.writes
  match reserve (batch.updates preflight.changes)
      (hub.endpoints.filter fun r => batch.targets r.id r.endpoint) with
  | .error error => (hub, session, .error error)
  | .ok false => (hub, session, .ok false)
  | .ok true =>
    match batch.commit urlParse persist preflight hub.localStorage session with
    | (authority, session, rejection) =>
      let changes :=
        if rejection.isSome then preflight.changes.map fun _ => none else preflight.changes
      let hub := { hub with localStorage := authority }
      (hub.mapEndpoints (batch.deliver changes rejection), session, .ok true)

end Batch

/-- The map that a batch of an area starts from. -/
def authoritySnapshot (urlParse : Str → Option Url) (hub : StorageCoordinator)
    (session : SessionStorage) (area : StorageAreaKind) (url : Str) :
    StorageResult StorageAreaSnapshot :=
  match area with
  | .Local => hub.localStorage.snapshot urlParse url
  | .Session => session.snapshot urlParse url

def apply (urlParse : Str → Option Url) (persist : Persist) (hub : StorageCoordinator)
    (source : Nat) (writes : List StorageWrite) (session : SessionStorage) :
    StorageCoordinator × SessionStorage × StorageResult Bool :=
  match writes with
  | [] => (hub, session, .ok true)
  | first :: _ =>
    let hub := hub.retain
    match hub.find source with
    | none => (hub, session, .error (.Invalid "retired storage source"))
    | some endpoint =>
      let area := first.mutation.area
      match checkWrites urlParse area endpoint.origin (endpoint.sequences area) writes with
      | .error error => (hub, session, .error error)
      | .ok sequence =>
        match authoritySnapshot urlParse hub session area first.sourceUrl with
        | .error error => (hub, session, .error error)
        | .ok snapshot =>
          match StorageAreaState.fromSnapshot snapshot with
          | .error error => (hub, session, .error error)
          | .ok state =>
            let batch : Batch :=
              ⟨source, area, endpoint.origin, first.sourceUrl, writes, sequence, snapshot.version⟩
            batch.publish urlParse persist hub session state

end StorageCoordinator

end BetterWebBrowser.Storage
