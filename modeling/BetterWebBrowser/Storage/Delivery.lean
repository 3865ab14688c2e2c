import BetterWebBrowser.Framework.Transition
import BetterWebBrowser.Storage.Publication

/-!
# Delivery is atomic, lossless and bounded

The steps of a coordinator over its life are its public calls. A batch reaches all its
recipients or none, and the byte counts and limits of the queues hold in every reachable
state.
-/

namespace BetterWebBrowser.Storage

open Framework Navigation

/-- The bookkeeping of a queue: exact bytes, within both limits. -/
structure Endpoint.Bounded (endpoint : Endpoint) : Prop where
  bytes_eq : endpoint.bytes = updatesBytes endpoint.queue
  length_le : endpoint.queue.length ≤ MAX_QUEUED_BROWSER_WRITES
  bytes_le : endpoint.bytes ≤ MAX_PENDING_STORAGE_BYTES

namespace StorageCoordinator

/-! ## Steps -/

/-- One call on the coordinator or on a subscription. Each `apply` brings its own session
storage and its own outcome of the disk. -/
inductive HubAction
  | subscribe (url : Str)
  | unsubscribe (id : Nat)
  | takeIf (id : Nat) (accepts : StorageUpdate → Bool)
  | takeError (id : Nat)
  | apply (persist : Persist) (source : Nat) (writes : List StorageWrite) (session : SessionStorage)

def takeIf (hub : StorageCoordinator) (id : Nat) (accepts : StorageUpdate → Bool) :
    StorageCoordinator × Option StorageUpdate :=
  match hub.find id with
  | none => (hub, none)
  | some endpoint =>
    let (endpoint, update) := endpoint.takeIf accepts
    (hub.update id endpoint, update)

def takeError (hub : StorageCoordinator) (id : Nat) : StorageCoordinator × Option String :=
  match hub.find id with
  | none => (hub, none)
  | some endpoint =>
    let (endpoint, error) := endpoint.takeError
    (hub.update id endpoint, error)

def step (urlParse : Str → Option Url) (hub : StorageCoordinator) : HubAction → StorageCoordinator
  | .subscribe url => (hub.subscribe urlParse url).1
  | .unsubscribe id => hub.unsubscribe id
  | .takeIf id accepts => (hub.takeIf id accepts).1
  | .takeError id => (hub.takeError id).1
  | .apply persist source writes session => (hub.apply urlParse persist source writes session).1

/-- The coordinator after some calls on a new one over `authority`. -/
def Reachable (urlParse : Str → Option Url) (authority : LocalStorage) (hub : StorageCoordinator) :
    Prop :=
  ∃ actions, Run (fun s action t => t = step urlParse s action) (new authority) actions hub

/-! ## Queues -/

theorem find_append (hub : StorageCoordinator) (r : Registered) (nextId id : Nat) :
    find { hub with endpoints := hub.endpoints ++ [r], nextId := nextId } id =
      (hub.find id).or (if r.alive ∧ r.id = id then some r.endpoint else none) := by
  simp only [find, List.find?_append]
  cases h : hub.endpoints.find? fun r => r.alive && decide (r.id = id) with
  | some found => simp
  | none =>
    by_cases hr : r.alive = true ∧ r.id = id
    · simp [hr.1, hr.2]
    · have hfalse : (r.alive && decide (r.id = id)) = false := by simpa using not_and.mp hr
      simp only [List.find?_cons, hfalse, List.find?_nil, hr, if_false, Option.or_none, Option.map_none]

/-- A subscription adds at most one endpoint, with an empty queue. -/
theorem find_subscribe {urlParse : Str → Option Url} {hub hub' : StorageCoordinator} {url : Str}
    {result : StorageResult (StorageAreaSnapshot × Nat)}
    (h : hub.subscribe urlParse url = (hub', result)) :
    hub'.localStorage = hub.localStorage ∧
      ((∀ id, hub'.find id = hub.find id) ∧ hub'.nextId = hub.nextId ∧ (∃ e, result = .error e) ∨
        ∃ origin, storageOrigin urlParse url = .ok origin ∧
          result = .ok ((hub.localStorage.origins.area origin).snapshot, hub.nextId) ∧
          hub'.nextId = hub.nextId + 1 ∧
          ∀ id, hub'.find id = (hub.find id).or
            (if hub.nextId = id then some ⟨origin, [], 0, fun _ => 0, none⟩ else none)) := by
  unfold subscribe at h
  cases horigin : storageOrigin urlParse url with
  | error e =>
    simp only [horigin, Prod.mk.injEq] at h
    obtain ⟨rfl, rfl⟩ := h
    exact ⟨rfl, Or.inl ⟨fun _ => rfl, rfl, e, rfl⟩⟩
  | ok origin =>
    have hsnapshot : hub.retain.localStorage.snapshot urlParse url =
        .ok (hub.localStorage.origins.area origin).snapshot := by
      simp [LocalStorage.snapshot, horigin, Origins.snapshot_eq_area_snapshot, retain]
    simp only [horigin, hsnapshot, Prod.mk.injEq] at h
    obtain ⟨rfl, rfl⟩ := h
    refine ⟨rfl, Or.inr ⟨origin, rfl, rfl, rfl, fun id => ?_⟩⟩
    rw [find_append, find_retain]
    simp [retain]

private theorem takeIf_bounded {endpoint : Endpoint} (accepts : StorageUpdate → Bool)
    (h : endpoint.Bounded) : (endpoint.takeIf accepts).1.Bounded := by
  obtain ⟨hbytes, hlength, hle⟩ := h
  unfold Endpoint.takeIf
  cases hqueue : endpoint.queue with
  | nil => exact ⟨hbytes, hlength, hle⟩
  | cons update queue =>
    simp only
    split_ifs
    · simp only [hqueue, updatesBytes, List.map_cons, List.sum_cons, List.length_cons] at hbytes hlength
      refine ⟨?_, ?_, ?_⟩ <;> simp only [updatesBytes] <;> omega
    · exact ⟨hbytes, hlength, hle⟩

private theorem deliver_bounded {batch : Batch} {changes : List (Option StorageChange)}
    (rejection : Option String) {id : Nat} {endpoint : Endpoint} (h : endpoint.Bounded)
    (hroom : batch.targets id endpoint = true →
      endpoint.queue.length + (batch.updates changes id).length ≤ MAX_QUEUED_BROWSER_WRITES ∧
        endpoint.bytes + updatesBytes (batch.updates changes id) ≤ MAX_PENDING_STORAGE_BYTES) :
    (batch.deliver changes rejection id endpoint).Bounded := by
  unfold Batch.deliver
  split_ifs with htarget hsource
  · obtain ⟨hlength, hbytes⟩ := hroom htarget
    refine ⟨?_, ?_, hbytes⟩
    · simp only [updatesBytes_append, h.bytes_eq]
    · simpa using hlength
  · obtain ⟨hlength, hbytes⟩ := hroom htarget
    refine ⟨?_, ?_, hbytes⟩
    · simp only [updatesBytes_append, h.bytes_eq]
    · simpa using hlength
  · exact h

/-- Every live endpoint keeps its books. -/
def Bounded (hub : StorageCoordinator) : Prop :=
  ∀ id endpoint, hub.find id = some endpoint → endpoint.Bounded

private theorem update_bounded {hub : StorageCoordinator} {id : Nat} {endpoint : Endpoint}
    (h : hub.Bounded) (hendpoint : endpoint.Bounded) : (hub.update id endpoint).Bounded := by
  intro other e hfind
  rw [find_update] at hfind
  split_ifs at hfind with hother
  · obtain ⟨_, _, rfl⟩ := Option.map_eq_some_iff.mp hfind
    exact hendpoint
  · exact h other e hfind

theorem step_bounded {urlParse : Str → Option Url} {hub : StorageCoordinator} (h : hub.Bounded)
    (action : HubAction) : (step urlParse hub action).Bounded := by
  cases action with
  | subscribe url =>
    intro id endpoint hfind
    obtain ⟨_, ⟨hsame, _⟩ | ⟨origin, _, _, _, hnew⟩⟩ :=
      find_subscribe (rfl : hub.subscribe urlParse url = ((hub.subscribe urlParse url).1, _))
    · exact h id endpoint (hsame id ▸ hfind)
    · have hor := (hnew id).symm.trans hfind
      rcases Option.or_eq_some_iff.mp hor with hold | ⟨_, hnew⟩
      · exact h id endpoint hold
      · split_ifs at hnew
        obtain rfl := Option.some.inj hnew
        exact ⟨rfl, Nat.zero_le _, Nat.zero_le _⟩
  | unsubscribe id =>
    intro other endpoint hfind
    simp only [step, find_unsubscribe] at hfind
    split_ifs at hfind
    exact h other endpoint hfind
  | takeIf id accepts =>
    simp only [step, takeIf]
    cases hfind : hub.find id with
    | none => exact h
    | some endpoint => exact update_bounded h (takeIf_bounded accepts (h id endpoint hfind))
  | takeError id =>
    simp only [step, takeError]
    cases hfind : hub.find id with
    | none => exact h
    | some endpoint =>
      have hbounded := h id endpoint hfind
      exact update_bounded h ⟨hbounded.bytes_eq, hbounded.length_le, hbounded.bytes_le⟩
  | apply persist source writes session =>
    intro id endpoint hfind
    rcases apply_cases (rfl : hub.apply urlParse persist source writes session =
        ((hub.apply urlParse persist source writes session).1, _, _)) with
      ⟨hsame, _⟩ | ⟨_, batch, _, changes, rejection, _, _, _, hpublished⟩
    · exact h id endpoint (hsame.find_eq id ▸ hfind)
    · have hmap := (hpublished.find_eq id).symm.trans hfind
      obtain ⟨old, hold, rfl⟩ := Option.map_eq_some_iff.mp hmap
      exact deliver_bounded rejection (h id old hold) (hpublished.room id old hold)

/-- The queues keep their books over every run. -/
theorem reachable_bounded {urlParse : Str → Option Url} {authority : LocalStorage}
    {hub : StorageCoordinator} (h : Reachable urlParse authority hub) : hub.Bounded := by
  obtain ⟨actions, hrun⟩ := h
  refine hrun.invariant Bounded ?_ ?_
  · intro id endpoint hfind
    simp [find, new] at hfind
  · rintro s action _ hs rfl
    exact step_bounded hs action

/-! ## Batches -/

theorem makeUpdates_source (area : StorageAreaKind) (version : Nat) {writes : List StorageWrite}
    {changes : List (Option StorageChange)} (h : changes.length = writes.length) :
    (makeUpdates area true version writes changes).map StorageUpdate.change = changes ∧
      (makeUpdates area true version writes changes).map StorageUpdate.acknowledgement =
        writes.map StorageWrite.sequence := by
  induction writes generalizing version changes with
  | nil =>
    obtain rfl := List.length_eq_zero_iff.mp h
    simp [makeUpdates]
  | cons write writes ih =>
    cases changes with
    | nil => simp at h
    | cons change changes =>
      have := ih (change.elim version StorageChange.version) (Nat.succ.inj h)
      simp only [makeUpdates, Bool.true_or, if_true, List.map_cons, this, and_self]

theorem makeUpdates_other (area : StorageAreaKind) (version : Nat) {writes : List StorageWrite}
    {changes : List (Option StorageChange)} (h : changes.length = writes.length) :
    (makeUpdates area false version writes changes).map StorageUpdate.change =
        changes.filter Option.isSome ∧
      ∀ update ∈ makeUpdates area false version writes changes, update.acknowledgement = 0 := by
  induction writes generalizing version changes with
  | nil =>
    obtain rfl := List.length_eq_zero_iff.mp h
    simp [makeUpdates]
  | cons write writes ih =>
    cases changes with
    | nil => simp at h
    | cons change changes =>
      have hrest := ih (change.elim version StorageChange.version) (Nat.succ.inj h)
      cases change with
      | none => simpa [makeUpdates] using hrest
      | some change =>
        simp only [makeUpdates, Option.isSome_some, Bool.or_true, if_true, List.map_cons,
          List.filter_cons_of_pos, hrest.1, List.mem_cons, true_and]
        rintro update (rfl | hmem)
        · rfl
        · exact hrest.2 update hmem

/-- Every recipient gets the changes that the writes make on the authority, each once and in
order; the source gets them inside one acknowledgement for each write. -/
structure DeliversChanges (hub : StorageCoordinator) (session : SessionStorage) (source : Nat)
    (writes : List StorageWrite) (area : StorageAreaKind) (origin : Str)
    (hub' : StorageCoordinator) (session' : SessionStorage) : Prop where
  authority : hub'.areaOf session' area origin =
    (hub.areaOf session area origin).run (operations writes)
  other_areas : ∀ area' origin', area' ≠ area ∨ origin' ≠ origin →
    hub'.areaOf session' area' origin' = hub.areaOf session area' origin'
  recipients : ∀ id endpoint, hub.find id = some endpoint →
    (id = source ∨ area = .Local ∧ endpoint.origin = origin) →
    ∃ endpoint' updates, hub'.find id = some endpoint' ∧
      endpoint'.queue = endpoint.queue ++ updates ∧
      if id = source then
        updates.map StorageUpdate.change =
            (hub.areaOf session area origin).records (operations writes) ∧
          updates.map StorageUpdate.acknowledgement = writes.map StorageWrite.sequence
      else
        updates.map StorageUpdate.change =
            ((hub.areaOf session area origin).records (operations writes)).filter Option.isSome ∧
          ∀ update ∈ updates, update.acknowledgement = 0
  others : ∀ id endpoint, hub.find id = some endpoint → id ≠ source →
    (area = .Local → endpoint.origin ≠ origin) → hub'.find id = some endpoint

/-- The authorities stay, the source gets one bare acknowledgement for each write and nobody
else gets anything. -/
structure DeliversRejection (hub : StorageCoordinator) (session : SessionStorage) (source : Nat)
    (writes : List StorageWrite) (hub' : StorageCoordinator) (session' : SessionStorage) : Prop where
  local_eq : hub'.localStorage = hub.localStorage
  session_eq : session' = session
  source_gets : ∃ endpoint endpoint' updates, hub.find source = some endpoint ∧
    hub'.find source = some endpoint' ∧ endpoint'.queue = endpoint.queue ++ updates ∧
    updates.map StorageUpdate.acknowledgement = writes.map StorageWrite.sequence ∧
    ∀ update ∈ updates, update.change = none
  others : ∀ id, id ≠ source → hub'.find id = hub.find id

theorem deliver_other {batch : Batch} {changes : List (Option StorageChange)}
    {rejection : Option String} {id : Nat} {endpoint : Endpoint} (hid : id ≠ batch.source) :
    batch.deliver changes rejection id endpoint =
      if batch.area = .Local ∧ endpoint.origin = batch.origin then
        { endpoint with
            queue := endpoint.queue ++ batch.updates changes id,
            bytes := endpoint.bytes + updatesBytes (batch.updates changes id) }
      else endpoint := by
  simp [Batch.deliver, Batch.targets, hid]

@[simp] theorem deliver_origin {batch : Batch} {changes : List (Option StorageChange)}
    {rejection : Option String} {id : Nat} {endpoint : Endpoint} :
    (batch.deliver changes rejection id endpoint).origin = endpoint.origin := by
  unfold Batch.deliver
  split_ifs <;> rfl

theorem deliver_source {batch : Batch} {changes : List (Option StorageChange)}
    {rejection : Option String} {endpoint : Endpoint} :
    batch.deliver changes rejection batch.source endpoint =
      { endpoint with
          sequences := Function.update endpoint.sequences batch.area batch.sequence,
          error := rejection,
          queue := endpoint.queue ++ batch.updates changes batch.source,
          bytes := endpoint.bytes + updatesBytes (batch.updates changes batch.source) } := by
  simp [Batch.deliver, Batch.targets]

section Published

variable {urlParse : Str → Option Url} {persist : Persist} {hub hub' : StorageCoordinator}
  {session session' : SessionStorage} {batch : Batch} {endpoint : Endpoint}
  {changes : List (Option StorageChange)} {rejection : Option String}

theorem Published.changes_length
    (h : Published urlParse persist hub session batch endpoint changes rejection hub' session') :
    changes.length = batch.writes.length := by
  rcases h.outcome with ⟨_, haccepted⟩ | ⟨_, hrejected⟩
  · simp [haccepted.changes_eq, operations]
  · simp [hrejected.changes_eq]

/-- Only the map of the batch can change. -/
theorem Published.areaOf_frame
    (h : Published urlParse persist hub session batch endpoint changes rejection hub' session')
    {area' : StorageAreaKind} {origin' : Str} (hne : area' ≠ batch.area ∨ origin' ≠ batch.origin) :
    hub'.areaOf session' area' origin' = hub.areaOf session area' origin' := by
  rcases h.outcome with ⟨_, haccepted⟩ | ⟨_, hrejected⟩
  · have hframe := haccepted.frame
    cases harea : batch.area with
    | Local =>
      simp only [harea] at hframe hne
      cases area' with
      | Local => simp [areaOf, Origins.area, hframe.2 origin' (by simpa using hne)]
      | Session => simp [areaOf, hframe.1]
    | Session =>
      simp only [harea] at hframe hne
      cases area' with
      | Local => simp [areaOf, hframe.1]
      | Session => simp [areaOf, Origins.area, hframe.2 origin' (by simpa using hne)]
  · rw [hrejected.session_eq]
    simp only [areaOf, hrejected.local_eq]

theorem Published.deliversChanges
    (h : Published urlParse persist hub session batch endpoint changes rejection hub' session')
    (haccepted : Accepted hub session batch changes hub' session') :
    DeliversChanges hub session batch.source batch.writes batch.area batch.origin hub' session' := by
  have hlength := h.changes_length
  refine ⟨haccepted.area_eq, fun _ _ hne => h.areaOf_frame hne, ?_, ?_⟩
  · intro id old hfind htarget
    refine ⟨_, batch.updates changes id, by rw [h.find_eq, hfind]; rfl, ?_, ?_⟩
    · by_cases hid : id = batch.source
      · subst hid
        rw [deliver_source]
      · rw [deliver_other hid, if_pos (htarget.resolve_left hid)]
    · split_ifs with hid
      · rw [← haccepted.changes_eq]
        simpa [Batch.updates, hid] using makeUpdates_source batch.area batch.version hlength
      · rw [← haccepted.changes_eq]
        simpa [Batch.updates, hid] using makeUpdates_other batch.area batch.version hlength
  · intro id old hfind hid hother
    rw [h.find_eq, hfind, Option.map_some, deliver_other hid,
      if_neg fun hlocal => hother hlocal.1 hlocal.2]

theorem Published.deliversRejection
    (h : Published urlParse persist hub session batch endpoint changes rejection hub' session')
    (hrejected : Rejected persist hub session batch changes hub' session') :
    DeliversRejection hub session batch.source batch.writes hub' session' := by
  have hlength := h.changes_length
  have hnone : ∀ change ∈ changes, change = none := by simp [hrejected.changes_eq]
  refine ⟨hrejected.local_eq, hrejected.session_eq, ?_, ?_⟩
  · obtain ⟨hchanges, hacks⟩ := makeUpdates_source batch.area batch.version hlength
    refine ⟨endpoint, _, batch.updates changes batch.source, h.source,
      by rw [h.find_eq, h.source]; rfl, by rw [deliver_source], by simpa [Batch.updates] using hacks, ?_⟩
    intro update hupdate
    apply hnone
    rw [← hchanges]
    simpa [Batch.updates] using List.mem_map_of_mem (f := StorageUpdate.change) hupdate
  · intro id hid
    rw [h.find_eq]
    cases hfind : hub.find id with
    | none => rfl
    | some old =>
      rw [Option.map_some, deliver_other hid]
      have hempty : batch.updates changes id = [] := by
        simpa [Batch.updates, hid] using
          makeUpdates_other_none batch.area batch.version batch.writes changes hnone
      simp [hempty, updatesBytes]

end Published

/-- A call of `apply` in a reachable state: without `ok true` nothing changes, otherwise the
whole batch is delivered as changes or as a rejection, which the error slot of the source
tells apart. Every reachable state keeps the books of every queue. -/
theorem delivery_atomic_lossless_bounded (urlParse : Str → Option Url) (authority : LocalStorage)
    (hub : StorageCoordinator) (hreachable : Reachable urlParse authority hub) :
    hub.Bounded ∧
      ∀ (persist : Persist) (source : Nat) (writes : List StorageWrite)
        (session : SessionStorage) (hub' : StorageCoordinator) (session' : SessionStorage)
        (result : StorageResult Bool),
        hub.apply urlParse persist source writes session = (hub', session', result) →
        (result ≠ .ok true ∨ writes = [] → Unchanged hub session hub' session') ∧
          (result = .ok true → writes ≠ [] → ∃ area endpoint endpoint',
            (∀ write ∈ writes, write.mutation.area = area) ∧
            hub.find source = some endpoint ∧ hub'.find source = some endpoint' ∧
            (endpoint'.error = none →
              DeliversChanges hub session source writes area endpoint.origin hub' session') ∧
            (endpoint'.error ≠ none →
              DeliversRejection hub session source writes hub' session')) := by
  refine ⟨reachable_bounded hreachable, ?_⟩
  intro persist source writes session hub' session' result happly
  rcases apply_cases happly with
    ⟨hsame, hempty⟩ | ⟨hok, batch, endpoint, changes, rejection, rfl, rfl, hwrites, hpublished⟩
  · exact ⟨fun _ => hsame, fun hok hwrites => absurd (hempty hok) hwrites⟩
  · refine ⟨fun h => absurd h (by simp [hok, hwrites]), fun _ _ => ?_⟩
    have hchecked := (checkWrites_ok hpublished.checked).2.2
    refine ⟨batch.area, endpoint, _, fun write hwrite => (hchecked write hwrite).2.1,
      hpublished.source, by rw [hpublished.find_eq, hpublished.source]; rfl, ?_, ?_⟩
    · rw [deliver_source, ← hpublished.origin_eq]
      intro hnone
      rcases hpublished.outcome with ⟨_, haccepted⟩ | ⟨hsome, _⟩
      · exact hpublished.deliversChanges haccepted
      · simp only at hnone
        simp [hnone] at hsome
    · rw [deliver_source]
      intro hsome
      rcases hpublished.outcome with ⟨hnone, _⟩ | ⟨_, hrejected⟩
      · exact absurd hnone hsome
      · exact hpublished.deliversRejection hrejected

/-! ## A run with two documents -/

def sampleUrl : Str := "https://a.test/".toList

def sampleOrigin : Str := "https://a.test".toList

/-- Parses one URL, as the real parser does. -/
def sampleParse (input : Str) : Option Url :=
  if input = sampleUrl then
    some ⟨"https".toList, [], none, some (.Domain "a.test".toList), some 443, "/".toList, none, input⟩
  else none

/-- The string of one code unit. -/
def sampleString (unit : Fin 65536) : StorageString := ⟨[unit]⟩

def sampleWrite (sequence : Nat) (operation : StorageOperation) : StorageWrite :=
  ⟨sequence, sampleUrl, ⟨.Local, 1, operation⟩⟩

/-- Two documents of one origin over an empty store. -/
def sampleHub : StorageCoordinator :=
  [HubAction.subscribe sampleUrl, .subscribe sampleUrl].foldl (step sampleParse)
    (new ⟨OrdMap.empty⟩)

theorem delivery_atomic_lossless_bounded_sample :
    sampleHub.Bounded ∧ ∃ hub' session',
      sampleHub.apply sampleParse (fun _ => .ok ()) 0
        [sampleWrite 1 (.Set (sampleString 97) (sampleString 98))] ⟨OrdMap.empty⟩ =
          (hub', session', .ok true) ∧
        ∃ area origin, DeliversChanges sampleHub ⟨OrdMap.empty⟩ 0
          [sampleWrite 1 (.Set (sampleString 97) (sampleString 98))] area origin hub' session' := by
  have hreachable : Reachable sampleParse ⟨OrdMap.empty⟩ sampleHub :=
    ⟨_, Run.foldl _ _ _⟩
  obtain ⟨hbounded, hcalls⟩ :=
    delivery_atomic_lossless_bounded sampleParse ⟨OrdMap.empty⟩ sampleHub hreachable
  have hresult : (sampleHub.apply sampleParse (fun _ => .ok ()) 0
      [sampleWrite 1 (.Set (sampleString 97) (sampleString 98))] ⟨OrdMap.empty⟩).2.2 = .ok true := by
    decide
  have herror : ((sampleHub.apply sampleParse (fun _ => .ok ()) 0
      [sampleWrite 1 (.Set (sampleString 97) (sampleString 98))] ⟨OrdMap.empty⟩).1.find 0).map
        Endpoint.error = some none := by decide
  rcases houtcome : sampleHub.apply sampleParse (fun _ => .ok ()) 0
      [sampleWrite 1 (.Set (sampleString 97) (sampleString 98))] ⟨OrdMap.empty⟩ with
    ⟨hub', session', result⟩
  rw [houtcome] at hresult herror
  simp only at hresult herror
  subst hresult
  obtain ⟨area, endpoint, endpoint', _, _, hfind, haccepted, _⟩ :=
    (hcalls _ 0 _ _ hub' session' _ houtcome).2 rfl (by decide)
  rw [hfind] at herror
  exact ⟨hbounded, hub', session', rfl, area, endpoint.origin, haccepted (Option.some.inj herror)⟩

end StorageCoordinator

end BetterWebBrowser.Storage
