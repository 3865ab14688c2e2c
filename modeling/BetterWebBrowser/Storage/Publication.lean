import BetterWebBrowser.Storage.BatchRun

/-!
# What a call of `apply` leaves

A call that does not return `ok true` leaves the authorities and every endpoint alone. A
call that does has checked the whole batch, has found room with every target and then either
runs all writes on the authority or none, and the endpoints get exactly the updates of the
changes that took effect.
-/

namespace BetterWebBrowser.Storage

open Framework Navigation

namespace StorageCoordinator

/-! ## Endpoints by subscription -/

@[simp] theorem find_retain (hub : StorageCoordinator) (id : Nat) :
    hub.retain.find id = hub.find id := by
  simp only [find, retain, List.find?_filter]
  congr 2
  funext r
  cases r.alive <;> simp

@[simp] theorem find_mapEndpoints (hub : StorageCoordinator) (f : Nat → Endpoint → Endpoint)
    (id : Nat) : (hub.mapEndpoints f).find id = (hub.find id).map (f id) := by
  simp only [find, mapEndpoints]
  induction hub.endpoints with
  | nil => rfl
  | cons r endpoints ih =>
    by_cases hr : r.alive = true ∧ r.id = id
    · simp [hr.1, hr.2]
    · have hfalse : (r.alive && decide (r.id = id)) = false := by
        simpa using not_and.mp hr
      rw [List.map_cons, List.find?_cons, List.find?_cons]
      simp only [hfalse]
      exact ih

theorem find_update (hub : StorageCoordinator) (id other : Nat) (endpoint : Endpoint) :
    (hub.update id endpoint).find other =
      if other = id then (hub.find other).map fun _ => endpoint else hub.find other := by
  rw [update, find_mapEndpoints]
  split_ifs with h
  · rfl
  · exact Option.map_id'

theorem find_unsubscribe (hub : StorageCoordinator) (id other : Nat) :
    (hub.unsubscribe id).find other = if other = id then none else hub.find other := by
  simp only [find, unsubscribe]
  induction hub.endpoints with
  | nil => simp
  | cons r endpoints ih =>
    rw [List.map_cons, List.find?_cons, List.find?_cons]
    by_cases hid : r.id = id
    · by_cases hother : other = id
      · simpa [hid, hother] using ih
      · simpa [hid, hother, Ne.symm hother] using ih
    · by_cases hother : other = id
      · simpa [hid, hother] using ih
      · cases hr : r.alive && decide (r.id = other) with
        | true => simp [hid, hother, hr]
        | false => simpa [hid, hother, hr] using ih

theorem mem_of_find {hub : StorageCoordinator} {id : Nat} {endpoint : Endpoint}
    (h : hub.find id = some endpoint) : ⟨id, true, endpoint⟩ ∈ hub.endpoints := by
  obtain ⟨r, hr, hendpoint⟩ := Option.map_eq_some_iff.mp h
  have hmem := List.mem_of_find?_eq_some hr
  have hprop := List.find?_some hr
  simp only [Bool.and_eq_true, decide_eq_true_eq] at hprop
  obtain ⟨rid, alive, e⟩ := r
  simp only at hprop hendpoint
  rw [← hendpoint, ← hprop.1, ← hprop.2]
  exact hmem

/-! ## The checks -/

/-- The writes carry the sequences that follow `n`. -/
def Numbered : Nat → List StorageWrite → Prop
  | _, [] => True
  | n, write :: writes => write.sequence = n + 1 ∧ Numbered (n + 1) writes

theorem checkWrites_ok {urlParse : Str → Option Url} {area : StorageAreaKind} {origin : Str}
    {sequence last : Nat} {writes : List StorageWrite}
    (h : checkWrites urlParse area origin sequence writes = .ok last) :
    last = sequence + writes.length ∧ Numbered sequence writes ∧
      ∀ write ∈ writes, write.validate = .ok () ∧ write.mutation.area = area ∧
        storageOrigin urlParse write.sourceUrl = .ok origin := by
  induction writes generalizing sequence with
  | nil => simpa [checkWrites, Numbered, eq_comm] using h
  | cons write writes ih =>
    unfold checkWrites at h
    cases hvalid : write.validate with
    | error e => simp [hvalid] at h
    | ok u =>
      simp only [hvalid] at h
      split_ifs at h with hmax hidentity
      cases horigin : storageOrigin urlParse write.sourceUrl with
      | error e => simp [horigin] at h
      | ok writeOrigin =>
        simp only [horigin] at h
        split_ifs at h with hother
        obtain ⟨hlast, hnumbered, hwrites⟩ := ih h
        simp only [not_or, not_not] at hidentity hother
        refine ⟨by simp only [hlast, List.length_cons]; omega, ⟨hidentity.1, hnumbered⟩, ?_⟩
        intro w hw
        rcases List.mem_cons.mp hw with rfl | hw
        · exact ⟨hvalid, hidentity.2, hother ▸ horigin⟩
        · exact hwrites w hw

/-- Writes whose sequences follow `n` and that are valid for one area and origin pass. -/
theorem checkWrites_of_numbered {urlParse : Str → Option Url} {area : StorageAreaKind} {origin : Str}
    {sequence : Nat} {writes : List StorageWrite} (hnumbered : Numbered sequence writes)
    (hbound : sequence + writes.length ≤ U64_MAX)
    (hwrites : ∀ write ∈ writes, write.validate = .ok () ∧ write.mutation.area = area ∧
      storageOrigin urlParse write.sourceUrl = .ok origin) :
    checkWrites urlParse area origin sequence writes = .ok (sequence + writes.length) := by
  induction writes generalizing sequence with
  | nil => rfl
  | cons write writes ih =>
    obtain ⟨hvalid, harea, horigin⟩ := hwrites write List.mem_cons_self
    simp only [List.length_cons] at hbound ⊢
    have hmax : sequence ≠ U64_MAX := by omega
    have htail := ih hnumbered.2 (by omega) fun w hw => hwrites w (List.mem_cons_of_mem _ hw)
    simp only [checkWrites, hvalid, hmax, hnumbered.1, harea, horigin, htail, if_false, ne_eq,
      not_true_eq_false, or_self]
    congr 1
    omega

theorem reserve_ok {updates : Nat → List StorageUpdate} {targets : List Registered}
    (h : reserve updates targets = .ok true) :
    ∀ r ∈ targets,
      r.endpoint.queue.length + (updates r.id).length ≤ MAX_QUEUED_BROWSER_WRITES ∧
        r.endpoint.bytes + updatesBytes (updates r.id) ≤ MAX_PENDING_STORAGE_BYTES := by
  induction targets with
  | nil => simp
  | cons target targets ih =>
    simp only [reserve] at h
    split_ifs at h with hsize hroom
    · cases h
    · intro r hr
      rcases List.mem_cons.mp hr with rfl | hr
      · simpa [not_or] using hroom
      · exact ih h r hr

/-! ## The updates -/

theorem updatesBytes_append (first second : List StorageUpdate) :
    updatesBytes (first ++ second) = updatesBytes first + updatesBytes second := by
  simp [updatesBytes]

theorem makeUpdates_other_none (area : StorageAreaKind) (version : Nat) (writes : List StorageWrite)
    (changes : List (Option StorageChange)) (h : ∀ change ∈ changes, change = none) :
    makeUpdates area false version writes changes = [] := by
  induction writes generalizing changes with
  | nil => rfl
  | cons write writes ih =>
    cases changes with
    | nil => rfl
    | cons change changes =>
      obtain rfl := h change List.mem_cons_self
      simpa [makeUpdates] using ih changes fun c hc => h c (List.mem_cons_of_mem _ hc)

/-- Updates without their changes take no more room. -/
theorem makeUpdates_rejected_le (area : StorageAreaKind) (isSource : Bool) (version : Nat)
    (writes : List StorageWrite) (changes : List (Option StorageChange)) :
    (makeUpdates area isSource version writes (changes.map fun _ => none)).length ≤
        (makeUpdates area isSource version writes changes).length ∧
      updatesBytes (makeUpdates area isSource version writes (changes.map fun _ => none)) ≤
        updatesBytes (makeUpdates area isSource version writes changes) := by
  cases isSource with
  | false => simp [makeUpdates_other_none, updatesBytes]
  | true =>
    -- The version differs between the two runs and plays no role in the size.
    have hgen : ∀ first second, (makeUpdates area true first writes (changes.map fun _ => none)).length ≤
        (makeUpdates area true second writes changes).length ∧
      updatesBytes (makeUpdates area true first writes (changes.map fun _ => none)) ≤
        updatesBytes (makeUpdates area true second writes changes) := by
      induction writes generalizing changes with
      | nil => simp [makeUpdates]
      | cons write writes ih =>
        cases changes with
        | nil => simp [makeUpdates]
        | cons change changes =>
          intro first second
          have := ih changes first (change.elim second StorageChange.version)
          simp only [makeUpdates, updatesBytes, List.map_cons, Bool.true_or, if_true,
            List.length_cons, List.sum_cons, Option.elim_none, StorageUpdate.byteLen] at this ⊢
          omega
    exact hgen version version

/-! ## The outcome -/

/-- The map of an area and origin. -/
def areaOf (hub : StorageCoordinator) (session : SessionStorage) (area : StorageAreaKind)
    (origin : Str) : StorageAreaState :=
  match area with
  | .Local => hub.localStorage.origins.area origin
  | .Session => session.origins.area origin

/-- Every write of the batch ran on the authority. -/
structure Accepted (hub : StorageCoordinator) (session : SessionStorage) (batch : Batch)
    (changes : List (Option StorageChange)) (hub' : StorageCoordinator)
    (session' : SessionStorage) : Prop where
  admits : (hub.areaOf session batch.area batch.origin).Admits (operations batch.writes)
  room : batch.area = .Local → batch.writes ≠ [] →
    hub.localStorage.origins.HasRoom batch.origin ∧ hub'.localStorage.origins.HasRoom batch.origin
  changes_eq :
    changes = (hub.areaOf session batch.area batch.origin).records (operations batch.writes)
  area_eq : hub'.areaOf session' batch.area batch.origin =
    (hub.areaOf session batch.area batch.origin).run (operations batch.writes)
  frame : match batch.area with
    | .Local => session' = session ∧ ∀ other, other ≠ batch.origin →
        hub'.localStorage.origins.get other = hub.localStorage.origins.get other
    | .Session => hub'.localStorage = hub.localStorage ∧ ∀ other, other ≠ batch.origin →
        session'.origins.get other = session.origins.get other

/-- No write of the batch ran: one was refused, the origin is one too many, or the disk
failed. -/
structure Rejected (persist : Persist) (hub : StorageCoordinator) (session : SessionStorage)
    (batch : Batch) (changes : List (Option StorageChange)) (hub' : StorageCoordinator)
    (session' : SessionStorage) : Prop where
  reason : ¬ (hub.areaOf session batch.area batch.origin).Admits (operations batch.writes) ∨
    (batch.area = .Local ∧ ¬ hub.localStorage.origins.HasRoom batch.origin) ∨
    ∃ stored error, persist stored = .error error
  changes_eq : changes = batch.writes.map fun _ => none
  local_eq : hub'.localStorage = hub.localStorage
  session_eq : session' = session

/-- What a call that returned `ok true` for a batch with writes did. -/
structure Published (urlParse : Str → Option Url) (persist : Persist) (hub : StorageCoordinator)
    (session : SessionStorage) (batch : Batch) (endpoint : Endpoint)
    (changes : List (Option StorageChange)) (rejection : Option String)
    (hub' : StorageCoordinator) (session' : SessionStorage) : Prop where
  source : hub.find batch.source = some endpoint
  origin_eq : batch.origin = endpoint.origin
  checked : checkWrites urlParse batch.area batch.origin (endpoint.sequences batch.area)
    batch.writes = .ok batch.sequence
  version_eq : batch.version = (hub.areaOf session batch.area batch.origin).version
  room : ∀ id e, hub.find id = some e → batch.targets id e = true →
    e.queue.length + (batch.updates changes id).length ≤ MAX_QUEUED_BROWSER_WRITES ∧
      e.bytes + updatesBytes (batch.updates changes id) ≤ MAX_PENDING_STORAGE_BYTES
  find_eq : ∀ id, hub'.find id = (hub.find id).map (batch.deliver changes rejection id)
  nextId_eq : hub'.nextId = hub.nextId
  outcome : (rejection = none ∧ Accepted hub session batch changes hub' session') ∨
    (rejection.isSome ∧ Rejected persist hub session batch changes hub' session')

/-- The call changed nothing that a subscription can see. -/
structure Unchanged (hub : StorageCoordinator) (session : SessionStorage)
    (hub' : StorageCoordinator) (session' : SessionStorage) : Prop where
  local_eq : hub'.localStorage = hub.localStorage
  session_eq : session' = session
  find_eq : ∀ id, hub'.find id = hub.find id
  nextId_eq : hub'.nextId = hub.nextId

theorem fromSnapshot_snapshot {area state : StorageAreaState}
    (h : StorageAreaState.fromSnapshot area.snapshot = .ok state) : state = area := by
  unfold StorageAreaState.fromSnapshot at h
  cases hvalid : area.snapshot.validate with
  | error e => simp [hvalid] at h
  | ok u =>
    simp only [hvalid] at h
    split_ifs at h with hlen
    rw [← Except.ok.inj h]
    simp [StorageAreaState.snapshot]

theorem authoritySnapshot_eq {urlParse : Str → Option Url} {hub : StorageCoordinator}
    {session : SessionStorage} {area : StorageAreaKind} {url origin : Str}
    (h : storageOrigin urlParse url = .ok origin) :
    hub.authoritySnapshot urlParse session area url =
      .ok (hub.areaOf session area origin).snapshot := by
  cases area <;>
    simp [authoritySnapshot, LocalStorage.snapshot, SessionStorage.snapshot, h, areaOf,
      Origins.snapshot_eq_area_snapshot]

namespace Batch

private theorem changes_length {batch : Batch} (state : StorageAreaState) :
    (preflight state batch.writes).changes.map (fun _ => (none : Option StorageChange)) =
      batch.writes.map fun _ => none := by
  by_cases h : state.Admits (operations batch.writes)
  · rw [preflight_of_admits h]
    apply List.ext_getElem <;> simp [operations]
  · rw [(preflight_of_not_admits h).2]
    simp

/-- A commit without rejection runs the batch; otherwise the authorities stay. -/
theorem commit_cases (batch : Batch) {urlParse : Str → Option Url} {persist : Persist}
    {hub : StorageCoordinator} {session session' : SessionStorage} {authority : LocalStorage}
    {rejection : Option String} (horigin : storageOrigin urlParse batch.url = .ok batch.origin)
    (hareas : ∀ write ∈ batch.writes, write.mutation.area = batch.area)
    (h : batch.commit urlParse persist
      (preflight (hub.areaOf session batch.area batch.origin) batch.writes) hub.localStorage
      session = (authority, session', rejection)) :
    (rejection = none ∧ Accepted hub session batch
        (preflight (hub.areaOf session batch.area batch.origin) batch.writes).changes
        { hub with localStorage := authority } session') ∨
      (rejection.isSome ∧ authority = hub.localStorage ∧ session' = session ∧
        (¬ (hub.areaOf session batch.area batch.origin).Admits (operations batch.writes) ∨
          (batch.area = .Local ∧ ¬ hub.localStorage.origins.HasRoom batch.origin) ∨
          ∃ stored error, persist stored = .error error)) := by
  by_cases hadmits :
      (hub.areaOf session batch.area batch.origin).Admits (operations batch.writes)
  · rw [preflight_of_admits hadmits] at h ⊢
    unfold commit at h
    cases harea : batch.area with
    | Local =>
      simp only [harea, LocalStorage.applyBatch] at h
      cases htransact : hub.localStorage.transact urlParse persist batch.url
          (versioned (hub.areaOf session .Local batch.origin) batch.writes) with
      | mk storage result =>
        cases result with
        | error e =>
          simp only [htransact, Prod.mk.injEq] at h
          obtain ⟨rfl, rfl, rfl⟩ := h
          refine Or.inr ⟨rfl, LocalStorage.transact_error htransact, rfl, Or.inr ?_⟩
          by_cases hroom : hub.localStorage.origins.HasRoom batch.origin
          · rw [harea] at hadmits hareas
            rcases LocalStorage.transact_versioned persist horigin hareas hroom hadmits with
              ⟨_, _, hok⟩ | hdisk
            · have hresult := congrArg Prod.snd (hok.symm.trans htransact)
              simp at hresult
            · exact Or.inr hdisk
          · exact Or.inl ⟨rfl, hroom⟩
        | ok pair =>
          simp only [htransact, Prod.mk.injEq] at h
          obtain ⟨rfl, rfl, rfl⟩ := h
          have hloop := LocalStorage.transact_loop horigin htransact
          obtain ⟨hrun, _, hframe⟩ := LocalStorage.transactLoop_ok hloop
          rw [LocalStorage.versioned_operations] at hrun
          refine Or.inl ⟨rfl, hadmits, ?_, by rw [harea], ?_, ?_⟩
          · intro _ hne
            have hversioned : versioned (hub.areaOf session .Local batch.origin) batch.writes ≠ [] := by
              cases hwrites : batch.writes with
              | nil => exact absurd hwrites hne
              | cons write writes => simp [versioned]
            have hroom := LocalStorage.transactLoop_room hversioned hloop
            exact ⟨hroom, LocalStorage.transactLoop_hasRoom hroom hloop⟩
          · simpa [areaOf, harea] using hrun
          · simp only [harea]
            exact ⟨trivial, hframe⟩
    | Session =>
      simp only [harea, Prod.mk.injEq] at h
      obtain ⟨rfl, rfl, rfl⟩ := h
      refine Or.inl ⟨rfl, hadmits, by simp [harea], by rw [harea], ?_, ?_⟩
      · simp [areaOf, harea, Origins.area]
      · simp only [harea]
        exact ⟨trivial, fun other hother => OrdMap.get_insert_ne _ _ hother⟩
  · obtain ⟨⟨reason, hreason⟩, _⟩ := preflight_of_not_admits hadmits
    simp only [commit, hreason, Prod.mk.injEq] at h
    obtain ⟨rfl, rfl, rfl⟩ := h
    exact Or.inr ⟨rfl, rfl, rfl, Or.inl hadmits⟩

/-- Publishing a checked batch changes nothing or publishes it. -/
theorem publish_cases (batch : Batch) {urlParse : Str → Option Url} {persist : Persist}
    {hub hub' : StorageCoordinator} {session session' : SessionStorage}
    {result : StorageResult Bool} {endpoint : Endpoint}
    (horigin : storageOrigin urlParse batch.url = .ok batch.origin)
    (hsource : hub.find batch.source = some endpoint) (hendpoint : batch.origin = endpoint.origin)
    (hchecked : checkWrites urlParse batch.area batch.origin (endpoint.sequences batch.area)
      batch.writes = .ok batch.sequence)
    (hversion : batch.version = (hub.areaOf session batch.area batch.origin).version)
    (h : batch.publish urlParse persist hub session
      (hub.areaOf session batch.area batch.origin) = (hub', session', result)) :
    (result ≠ .ok true ∧ hub' = hub ∧ session' = session) ∨
      (result = .ok true ∧ ∃ changes rejection,
        Published urlParse persist hub session batch endpoint changes rejection hub' session') := by
  unfold publish at h
  simp only at h
  generalize hpre : preflight (hub.areaOf session batch.area batch.origin) batch.writes = pre at h
  cases hreserve : reserve (batch.updates pre.changes)
      (hub.endpoints.filter fun r => batch.targets r.id r.endpoint) with
  | error e =>
    simp only [hreserve, Prod.mk.injEq] at h
    obtain ⟨rfl, rfl, rfl⟩ := h
    exact Or.inl ⟨by simp, rfl, rfl⟩
  | ok room =>
    cases room with
    | false =>
      simp only [hreserve, Prod.mk.injEq] at h
      obtain ⟨rfl, rfl, rfl⟩ := h
      exact Or.inl ⟨by simp, rfl, rfl⟩
    | true =>
      simp only [hreserve] at h
      rcases hcommit : batch.commit urlParse persist pre hub.localStorage session with
        ⟨authority, committed, rejection⟩
      simp only [hcommit, Prod.mk.injEq] at h
      obtain ⟨rfl, rfl, rfl⟩ := h
      have hroom (id : Nat) (e : Endpoint) (hfind : hub.find id = some e)
          (htarget : batch.targets id e = true) :
          e.queue.length + (batch.updates pre.changes id).length ≤ MAX_QUEUED_BROWSER_WRITES ∧
            e.bytes + updatesBytes (batch.updates pre.changes id) ≤ MAX_PENDING_STORAGE_BYTES :=
        reserve_ok hreserve _ (List.mem_filter.mpr ⟨mem_of_find hfind, htarget⟩)
      subst hpre
      have hareas (write : StorageWrite) (hwrite : write ∈ batch.writes) :
          write.mutation.area = batch.area := ((checkWrites_ok hchecked).2.2 write hwrite).2.1
      rcases commit_cases batch horigin hareas hcommit with
        ⟨hnone, haccepted⟩ | ⟨hsome, hauthority, hsession, hreason⟩
      · subst hnone
        refine Or.inr ⟨rfl, _, none, hsource, hendpoint, hchecked, hversion, hroom,
          fun id => find_mapEndpoints _ _ id, rfl, Or.inl ⟨rfl, ?_⟩⟩
        exact ⟨haccepted.admits, haccepted.room, haccepted.changes_eq, haccepted.area_eq, haccepted.frame⟩
      · refine Or.inr ⟨rfl, _, rejection, hsource, hendpoint, hchecked, hversion, ?_,
          fun id => find_mapEndpoints _ _ id, rfl, Or.inr ⟨hsome, ?_⟩⟩
        · intro id e hfind htarget
          obtain ⟨hlength, hbytes⟩ := makeUpdates_rejected_le batch.area
            (decide (id = batch.source)) batch.version batch.writes
            (preflight (hub.areaOf session batch.area batch.origin) batch.writes).changes
          obtain ⟨hqueue, htotal⟩ := hroom id e hfind htarget
          simp only [hsome, if_true, updates] at hlength hbytes hqueue htotal ⊢
          omega
        · refine ⟨hreason, ?_, hauthority, hsession⟩
          simp only [hsome, if_true]
          exact changes_length _

end Batch

/-- A checked batch on a valid map is published. -/
theorem apply_eq_publish {urlParse : Str → Option Url} (persist : Persist)
    {hub : StorageCoordinator} {source sequence : Nat} {first : StorageWrite}
    {rest : List StorageWrite} {session : SessionStorage} {endpoint : Endpoint}
    (hfind : hub.find source = some endpoint)
    (hcheck : checkWrites urlParse first.mutation.area endpoint.origin
      (endpoint.sequences first.mutation.area) (first :: rest) = .ok sequence)
    (hvalid : (hub.areaOf session first.mutation.area endpoint.origin).Valid) :
    hub.apply urlParse persist source (first :: rest) session =
      Batch.publish
        ⟨source, first.mutation.area, endpoint.origin, first.sourceUrl, first :: rest, sequence,
          (hub.areaOf session first.mutation.area endpoint.origin).version⟩
        urlParse persist hub.retain session
        (hub.areaOf session first.mutation.area endpoint.origin) := by
  have horigin := ((checkWrites_ok hcheck).2.2 first List.mem_cons_self).2.2
  have harea : (hub.retain.areaOf session first.mutation.area endpoint.origin) =
      hub.areaOf session first.mutation.area endpoint.origin := rfl
  simp only [apply, find_retain, hfind, hcheck, authoritySnapshot_eq horigin, harea,
    hvalid.fromSnapshot_snapshot]
  rfl

/-- With room at every target the call ends. -/
theorem Batch.publish_ok (batch : Batch) (urlParse : Str → Option Url) (persist : Persist)
    {hub : StorageCoordinator} {session : SessionStorage} {state : StorageAreaState}
    (hroom : reserve (batch.updates (preflight state batch.writes).changes)
      (hub.endpoints.filter fun r => batch.targets r.id r.endpoint) = .ok true) :
    ∃ hub' session', batch.publish urlParse persist hub session state = (hub', session', .ok true) := by
  simp only [Batch.publish, hroom]
  exact ⟨_, _, rfl⟩

/-- With room at every target, a batch with a refused write is acknowledged and not run. -/
theorem Batch.publish_rejected (batch : Batch) (urlParse : Str → Option Url) (persist : Persist)
    {hub : StorageCoordinator} {session : SessionStorage} {state : StorageAreaState}
    (hrefused : ¬ state.Admits (operations batch.writes))
    (hroom : reserve (batch.updates (batch.writes.map fun _ => none))
      (hub.endpoints.filter fun r => batch.targets r.id r.endpoint) = .ok true) :
    ∃ reason, batch.publish urlParse persist hub session state =
      (hub.mapEndpoints (batch.deliver (batch.writes.map fun _ => none) (some reason)), session,
        .ok true) := by
  obtain ⟨⟨reason, hreason⟩, hchanges⟩ := preflight_of_not_admits hrefused
  refine ⟨reason, ?_⟩
  simp only [Batch.publish, hchanges, hroom, Batch.commit, hreason, Option.isSome_some, if_true,
    List.map_map]
  rfl

/-- A call of `apply` changes nothing, is empty, or publishes one batch. -/
theorem apply_cases {urlParse : Str → Option Url} {persist : Persist}
    {hub hub' : StorageCoordinator} {source : Nat} {writes : List StorageWrite}
    {session session' : SessionStorage} {result : StorageResult Bool}
    (h : hub.apply urlParse persist source writes session = (hub', session', result)) :
    (Unchanged hub session hub' session' ∧ (result = .ok true → writes = [])) ∨
      (result = .ok true ∧ ∃ batch endpoint changes rejection,
        batch.source = source ∧ batch.writes = writes ∧ writes ≠ [] ∧
          Published urlParse persist hub session batch endpoint changes rejection hub' session') := by
  cases writes with
  | nil =>
    simp only [apply, Prod.mk.injEq] at h
    obtain ⟨rfl, rfl, rfl⟩ := h
    exact Or.inl ⟨⟨rfl, rfl, fun _ => rfl, rfl⟩, fun _ => rfl⟩
  | cons first rest =>
    have hkeep : Unchanged hub session hub.retain session :=
      ⟨rfl, rfl, fun id => find_retain hub id, rfl⟩
    simp only [apply, find_retain] at h
    cases hfind : hub.find source with
    | none =>
      simp only [hfind, Prod.mk.injEq] at h
      obtain ⟨rfl, rfl, rfl⟩ := h
      exact Or.inl ⟨hkeep, by simp⟩
    | some endpoint =>
      simp only [hfind] at h
      cases hcheck : checkWrites urlParse first.mutation.area endpoint.origin
          (endpoint.sequences first.mutation.area) (first :: rest) with
      | error e =>
        simp only [hcheck, Prod.mk.injEq] at h
        obtain ⟨rfl, rfl, rfl⟩ := h
        exact Or.inl ⟨hkeep, by simp⟩
      | ok sequence =>
        have horigin := ((checkWrites_ok hcheck).2.2 first List.mem_cons_self).2.2
        have harea : (hub.retain.areaOf session first.mutation.area endpoint.origin) =
            hub.areaOf session first.mutation.area endpoint.origin := rfl
        simp only [hcheck, authoritySnapshot_eq horigin, harea] at h
        cases hstate : StorageAreaState.fromSnapshot
            (hub.areaOf session first.mutation.area endpoint.origin).snapshot with
        | error e =>
          simp only [hstate, Prod.mk.injEq] at h
          obtain ⟨rfl, rfl, rfl⟩ := h
          exact Or.inl ⟨hkeep, by simp⟩
        | ok state =>
          obtain rfl := fromSnapshot_snapshot hstate
          simp only [hstate] at h
          have hpublish := Batch.publish_cases
            ⟨source, first.mutation.area, endpoint.origin, first.sourceUrl, first :: rest, sequence,
              (hub.areaOf session first.mutation.area endpoint.origin).snapshot.version⟩
            horigin ((find_retain hub source).trans hfind) rfl hcheck rfl h
          rcases hpublish with ⟨hresult, rfl, rfl⟩ | ⟨hresult, changes, rejection, hpublished⟩
          · exact Or.inl ⟨hkeep, fun hok => absurd hok hresult⟩
          · obtain ⟨hs, ho, hc, hv, hroom, hf, hn, hout⟩ := hpublished
            simp only [find_retain] at hs hroom hf
            refine Or.inr ⟨hresult, _, endpoint, changes, rejection, ?_, ?_, by simp,
              hs, ho, hc, hv, hroom, hf, hn, ?_⟩
            · rfl
            · rfl
            · rcases hout with ⟨hnone, ha⟩ | ⟨hsome, hr⟩
              · exact Or.inl ⟨hnone, ha.admits, ha.room, ha.changes_eq, ha.area_eq, ha.frame⟩
              · exact Or.inr ⟨hsome, hr.reason, hr.changes_eq, hr.local_eq, hr.session_eq⟩

end StorageCoordinator

end BetterWebBrowser.Storage
