import BetterWebBrowser.Storage.Coordinator

/-!
# What a batch does

`run` and `records` say what a list of operations does to a map, `Admits` that no operation
of the list is refused. The preflight and the transaction of the authority both follow them,
so a batch that is committed leaves the map of its preflight, and the updates report exactly
the recorded changes.
-/

namespace BetterWebBrowser.Storage

open Framework Navigation

def StorageWrite.operation (write : StorageWrite) : StorageOperation := write.mutation.operation

namespace StorageAreaState

/-- The map after a list of accepted operations. -/
def run (area : StorageAreaState) (operations : List StorageOperation) : StorageAreaState :=
  operations.foldl after area

@[simp] theorem run_nil (area : StorageAreaState) : area.run [] = area := rfl

@[simp] theorem run_cons (area : StorageAreaState) (operation : StorageOperation)
    (operations : List StorageOperation) :
    area.run (operation :: operations) = (area.after operation).run operations := rfl

/-- The change an operation makes, if it changes the map. -/
def record (area : StorageAreaState) (operation : StorageOperation) : Option StorageChange :=
  if area.operationChanges operation then
    some { StorageChange.before (some area) operation with version := area.version + 1 }
  else none

/-- The changes of a list of operations, one entry for each operation. -/
def records (area : StorageAreaState) : List StorageOperation → List (Option StorageChange)
  | [] => []
  | operation :: operations => area.record operation :: (area.after operation).records operations

@[simp] theorem length_records (area : StorageAreaState) (operations : List StorageOperation) :
    (area.records operations).length = operations.length := by
  induction operations generalizing area with
  | nil => rfl
  | cons operation operations ih => simp [records, ih]

/-- The map takes the operation at its current version. -/
def Takes (area : StorageAreaState) (operation : StorageOperation) : Prop :=
  area.apply ⟨.Local, area.version, operation⟩ =
    .ok (area.after operation, area.operationChanges operation)

instance (area : StorageAreaState) (operation : StorageOperation) : Decidable (area.Takes operation) :=
  inferInstanceAs (Decidable (_ = _))

/-- The map takes the operations one after the other. -/
def Admits (area : StorageAreaState) : List StorageOperation → Prop
  | [] => True
  | operation :: operations => area.Takes operation ∧ (area.after operation).Admits operations

/-- The area named by a mutation plays no role once the map is chosen. -/
theorem apply_area (area : StorageAreaState) (mutation : StorageMutation)
    (kind : StorageAreaKind) : area.apply { mutation with area := kind } = area.apply mutation := by
  cases mutation
  rfl

theorem takes_of_apply {area area' : StorageAreaState} {mutation : StorageMutation} {changed : Bool}
    (h : area.apply mutation = .ok (area', changed)) : area.Takes mutation.operation := by
  obtain ⟨_, hversion, hchanged, harea, _⟩ := apply_ok h
  rw [← apply_area area mutation .Local] at h
  rw [Takes, ← hversion, h, harea, hchanged]

theorem Takes.apply {area : StorageAreaState} {operation : StorageOperation}
    (h : area.Takes operation) (kind : StorageAreaKind) :
    area.apply ⟨kind, area.version, operation⟩ =
      .ok (area.after operation, area.operationChanges operation) := by
  rw [← h, ← apply_area area ⟨.Local, area.version, operation⟩ kind]

theorem Takes.valid {area : StorageAreaState} {operation : StorageOperation}
    (h : area.Takes operation) (hv : area.Valid) : (area.after operation).Valid :=
  hv.apply h

theorem Admits.valid {area : StorageAreaState} {operations : List StorageOperation}
    (h : area.Admits operations) (hv : area.Valid) : (area.run operations).Valid := by
  induction operations generalizing area with
  | nil => exact hv
  | cons operation operations ih => exact ih h.2 (h.1.valid hv)

end StorageAreaState

/-! ## The preflight -/

namespace StorageCoordinator

def operations (writes : List StorageWrite) : List StorageOperation :=
  writes.map StorageWrite.operation

@[simp] theorem operations_nil : operations [] = [] := rfl

@[simp] theorem operations_cons (write : StorageWrite) (writes : List StorageWrite) :
    operations (write :: writes) = write.operation :: operations writes := rfl

@[simp] theorem operations_append (first second : List StorageWrite) :
    operations (first ++ second) = operations first ++ operations second :=
  List.map_append

theorem map_const_operations {α : Type*} (a : α) (writes : List StorageWrite) :
    ((operations writes).map fun _ => a) = writes.map fun _ => a := by
  simp [operations, Function.comp_def]

/-- The mutations of a preflight: the operations at the versions they run at. -/
def versioned (state : StorageAreaState) : List StorageWrite → List StorageMutation
  | [] => []
  | write :: writes =>
    { write.mutation with expectedVersion := state.version } ::
      versioned (state.after write.operation) writes

theorem preflightLoop_rejection (state : StorageAreaState) (writes : List StorageWrite) :
    (preflightLoop state writes).rejection = none ↔ state.Admits (operations writes) := by
  induction writes generalizing state with
  | nil => simp [preflightLoop, StorageAreaState.Admits]
  | cons write writes ih =>
    simp only [preflightLoop, operations_cons, StorageAreaState.Admits]
    cases happly : state.apply { write.mutation with expectedVersion := state.version } with
    | error e =>
      have hnot : ¬ state.Takes write.operation := by
        intro htakes
        have := htakes.apply write.mutation.area
        simp only [StorageWrite.operation] at this
        rw [this] at happly
        cases happly
      simp [hnot]
    | ok result =>
      obtain ⟨area, changed⟩ := result
      have htakes := StorageAreaState.takes_of_apply happly
      have harea := (StorageAreaState.apply_ok happly).2.2.2.1
      change state.Takes write.operation at htakes
      change area = state.after write.operation at harea
      simp [htakes, harea, ih]

/-- A preflight without rejection runs every write. -/
theorem preflightLoop_eq {state : StorageAreaState} {writes : List StorageWrite}
    (h : state.Admits (operations writes)) :
    preflightLoop state writes =
      ⟨state.run (operations writes), versioned state writes,
        state.records (operations writes), none⟩ := by
  induction writes generalizing state with
  | nil => rfl
  | cons write writes ih =>
    have happly := h.1.apply write.mutation.area
    simp only [StorageWrite.operation] at happly
    simp only [preflightLoop, happly]
    have htail := ih h.2
    simp only [StorageWrite.operation] at htail
    rw [htail]
    simp only [operations_cons, StorageAreaState.run_cons, StorageAreaState.records, versioned,
      StorageWrite.operation, StorageAreaState.record, Preflight.mk.injEq, List.cons.injEq,
      and_true, true_and]
    cases hchanges : state.operationChanges write.mutation.operation with
    | false => rfl
    | true => simp [StorageAreaState.after_version, hchanges]

theorem preflight_of_admits {state : StorageAreaState} {writes : List StorageWrite}
    (h : state.Admits (operations writes)) :
    preflight state writes =
      ⟨state.run (operations writes), versioned state writes,
        state.records (operations writes), none⟩ := by
  simp [preflight, preflightLoop_eq h]

theorem preflight_of_not_admits {state : StorageAreaState} {writes : List StorageWrite}
    (h : ¬ state.Admits (operations writes)) :
    (∃ reason, (preflight state writes).rejection = some reason) ∧
      (preflight state writes).changes = writes.map fun _ => none := by
  rw [← preflightLoop_rejection] at h
  obtain ⟨reason, hreason⟩ := Option.ne_none_iff_exists'.mp h
  simp [preflight, hreason]

end StorageCoordinator

/-! ## The transaction -/

namespace Origins

/-- An origin can get its map stored. -/
def HasRoom (origins : Origins) (origin : Str) : Prop :=
  (origins.get origin).isSome ∨ origins.len < MAX_STORAGE_ORIGINS

end Origins

namespace LocalStorage

open StorageCoordinator

/-- A transaction that ends runs every mutation on the map of its origin. -/
theorem transactLoop_ok {origin : Str} {mutations : List StorageMutation} {origins origins' : Origins}
    {changed changed' : Bool} {records records' : List StorageChange}
    (h : transactLoop origin origins changed records mutations = (origins', .ok (changed', records'))) :
    origins'.area origin = (origins.area origin).run (mutations.map StorageMutation.operation) ∧
      ((origins.area origin).Admits (mutations.map StorageMutation.operation)) ∧
      (∀ other, other ≠ origin → origins'.get other = origins.get other) := by
  induction mutations generalizing origins changed records with
  | nil =>
    simp only [transactLoop, Prod.mk.injEq] at h
    obtain ⟨rfl, _⟩ := h
    exact ⟨rfl, trivial, fun _ _ => rfl⟩
  | cons mutation mutations ih =>
    unfold transactLoop at h
    cases happly : origins.applyToOrigin origin mutation with
    | error e => simp [happly] at h
    | ok result =>
      obtain ⟨next, flag⟩ := result
      obtain ⟨hstep, hframe, _⟩ := Origins.applyToOrigin_ok happly
      have htakes := StorageAreaState.takes_of_apply hstep
      have harea := (StorageAreaState.apply_ok hstep).2.2.2.1
      have hrest : ∃ changed records, transactLoop origin next changed records mutations =
          (origins', .ok (changed', records')) := by
        cases flag with
        | true => exact ⟨_, _, by simpa [happly] using h⟩
        | false => exact ⟨_, _, by simpa [happly] using h⟩
      obtain ⟨_, _, hrest⟩ := hrest
      obtain ⟨hrun, hadmits, hother⟩ := ih hrest
      rw [harea] at hrun hadmits
      exact ⟨hrun, ⟨htakes, hadmits⟩, fun other hne => (hother other hne).trans (hframe other hne)⟩

/-- A transaction does not take the room of its origin away. -/
theorem transactLoop_hasRoom {origin : Str} {mutations : List StorageMutation}
    {origins origins' : Origins} {changed changed' : Bool} {records records' : List StorageChange}
    (hroom : origins.HasRoom origin)
    (h : transactLoop origin origins changed records mutations = (origins', .ok (changed', records'))) :
    origins'.HasRoom origin := by
  induction mutations generalizing origins changed records with
  | nil =>
    simp only [transactLoop, Prod.mk.injEq] at h
    exact h.1 ▸ hroom
  | cons mutation mutations ih =>
    unfold transactLoop at h
    cases happly : origins.applyToOrigin origin mutation with
    | error e => simp [happly] at h
    | ok result =>
      obtain ⟨next, flag⟩ := result
      obtain ⟨_, hnext, hkept⟩ :=
        Origins.applyToOrigin_of_apply hroom (Origins.applyToOrigin_ok happly).1
      have hsame := hnext.symm.trans happly
      simp only [Except.ok.injEq, Prod.mk.injEq, and_true] at hsame
      subst hsame
      cases flag with
      | true => exact ih hkept (by simpa [happly] using h)
      | false => exact ih hkept (by simpa [happly] using h)

/-- The mutations of an admitted preflight all go through when the origin has room. -/
theorem transactLoop_versioned {origin : Str} {writes : List StorageWrite} {origins : Origins}
    (changed : Bool) (records : List StorageChange) (hroom : origins.HasRoom origin)
    (h : (origins.area origin).Admits (operations writes)) :
    ∃ origins' changed' records',
      transactLoop origin origins changed records (versioned (origins.area origin) writes) =
        (origins', .ok (changed', records')) := by
  induction writes generalizing origins changed records with
  | nil => exact ⟨origins, changed, records, rfl⟩
  | cons write writes ih =>
    have happly := h.1.apply write.mutation.area
    obtain ⟨next, hnext, hroom'⟩ := Origins.applyToOrigin_of_apply hroom happly
    have hstep := (Origins.applyToOrigin_ok hnext).1
    have harea : next.area origin = (origins.area origin).after write.operation :=
      (StorageAreaState.apply_ok hstep).2.2.2.1
    have hnext' : origins.applyToOrigin origin
        { write.mutation with expectedVersion := (origins.area origin).version } =
          .ok (next, (origins.area origin).operationChanges write.operation) := hnext
    have hrest : (next.area origin).Admits (operations writes) := harea ▸ h.2
    simp only [versioned, transactLoop, hnext', ← harea]
    cases (origins.area origin).operationChanges write.operation with
    | true => exact ih _ _ hroom' hrest
    | false => exact ih _ _ hroom' hrest

theorem versioned_operations (state : StorageAreaState) (writes : List StorageWrite) :
    (versioned state writes).map StorageMutation.operation = operations writes := by
  induction writes generalizing state with
  | nil => rfl
  | cons write writes ih => simp [versioned, ih, StorageWrite.operation]

/-- A committed transaction is its loop. -/
theorem transact_loop {urlParse : Str → Option Url} {persist : Persist}
    {storage storage' : LocalStorage} {url : Str} {mutations : List StorageMutation}
    {result : Bool × List StorageChange} {origin : Str} (horigin : storageOrigin urlParse url = .ok origin)
    (h : transact urlParse persist storage url mutations = (storage', .ok result)) :
    transactLoop origin storage.origins false [] mutations = (storage'.origins, .ok result) := by
  unfold transact at h
  split_ifs at h with harea
  · simp at h
  · simp only [horigin] at h
    cases hloop : transactLoop origin storage.origins false [] mutations with
    | mk origins outcome =>
      cases outcome with
      | error e => cases e <;> simp [hloop, rollBack] at h
      | ok pair =>
        obtain ⟨flag, list⟩ := pair
        simp only [hloop] at h
        split_ifs at h with hflag
        · cases hpersist : persist ⟨origins⟩ with
          | error e => cases e <;> simp [hpersist, rollBack] at h
          | ok u =>
            simp only [hpersist, Prod.mk.injEq, Except.ok.injEq] at h
            rw [← h.1, ← h.2]
        · simp only [Prod.mk.injEq, Except.ok.injEq] at h
          rw [← h.1, ← h.2]

/-- The transaction of an admitted preflight commits unless the origin has no room or the
disk fails. -/
theorem transact_versioned {urlParse : Str → Option Url} (persist : Persist)
    {storage : LocalStorage} {url origin : Str} {writes : List StorageWrite}
    (horigin : storageOrigin urlParse url = .ok origin)
    (hlocal : ∀ write ∈ writes, write.mutation.area = .Local)
    (hroom : storage.origins.HasRoom origin)
    (h : (storage.origins.area origin).Admits (operations writes)) :
    (∃ storage' result, transact urlParse persist storage url
        (versioned (storage.origins.area origin) writes) = (storage', .ok result)) ∨
      ∃ stored error, persist stored = .error error := by
  have hareas : (versioned (storage.origins.area origin) writes).any
      (fun mutation => decide (mutation.area ≠ .Local)) = false := by
    generalize storage.origins.area origin = state
    clear h
    induction writes generalizing state with
    | nil => rfl
    | cons write writes ih =>
      have hwrite := hlocal write List.mem_cons_self
      have htail := ih (fun w hw => hlocal w (List.mem_cons_of_mem _ hw))
        (state.after write.operation)
      simp only [versioned, List.any_cons, hwrite, ne_eq, not_true_eq_false, decide_false,
        Bool.false_or]
      exact htail
  obtain ⟨origins', changed, records, hloop⟩ := transactLoop_versioned false [] hroom h
  simp only [transact, hareas, Bool.false_eq_true, if_false, horigin, hloop]
  cases changed with
  | false => exact Or.inl ⟨_, _, rfl⟩
  | true =>
    cases hpersist : persist ⟨origins'⟩ with
    | error e => exact Or.inr ⟨_, _, hpersist⟩
    | ok u => exact Or.inl ⟨_, _, rfl⟩

/-- A loop over a mutation ends only where the origin has room. -/
theorem transactLoop_room {origin : Str} {mutations : List StorageMutation} {origins origins' : Origins}
    {changed : Bool} {records : List StorageChange} {result : Bool × List StorageChange}
    (hne : mutations ≠ [])
    (h : transactLoop origin origins changed records mutations = (origins', .ok result)) :
    origins.HasRoom origin := by
  cases mutations with
  | nil => exact absurd rfl hne
  | cons mutation mutations =>
    by_contra hroom
    simp only [Origins.HasRoom, not_or, Option.not_isSome_iff_eq_none, not_lt] at hroom
    obtain ⟨hnone, hfull⟩ := hroom
    have happly : origins.applyToOrigin origin mutation = .error .QuotaExceeded := by
      simp [Origins.applyToOrigin, hnone, hfull]
    simp [transactLoop, happly] at h

end LocalStorage

end BetterWebBrowser.Storage
