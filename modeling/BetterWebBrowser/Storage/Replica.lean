import BetterWebBrowser.Framework.Method
import BetterWebBrowser.Framework.Transition
import BetterWebBrowser.Storage.Projection

/-!
# The replica as its methods write it

The methods of the area and of the projection in the order of their writes, with every error
return where the source has it. They do what the functions on values say and leave no trace when
they fail, so that any sequence of calls keeps the page's map and the budget of the journal exact.
-/

namespace BetterWebBrowser.Storage

open Framework

namespace StorageAreaState

/-- `insert`, `remove` or `clear` on the entries; whether they changed. -/
def writeEntries (operation : StorageOperation) : Method StorageError StorageAreaState Bool := do
  let area ← Method.get
  match operation with
  | .Set key value =>
    if area.entries.get key = some value then pure false
    else
      Method.failIf (¬ area.entries.contains key ∧ MAX_STORAGE_ENTRIES_PER_ORIGIN ≤ area.entries.len)
        .QuotaExceeded
      Method.ofExcept (validateBytes (area.byteLen - area.oldBytes key + key.byteLen + value.byteLen))
      Method.modify fun area => { area with entries := area.entries.insert key value }
      pure true
  | .Remove key =>
    Method.modify fun area => { area with entries := area.entries.erase key }
    pure (area.entries.contains key)
  | .Clear =>
    Method.modify fun area => { area with entries := OrdMap.empty }
    pure (!area.entries.isEmpty)

def applyMethod (mutation : StorageMutation) : Method StorageError StorageAreaState Bool := do
  Method.ofExcept mutation.validate
  let area ← Method.get
  Method.failIf (mutation.expectedVersion ≠ area.version) (.Stale area.snapshot)
  Method.failIf (area.version = U64_MAX ∧ area.operationChanges mutation.operation)
    (.Invalid "storage version exhausted")
  let changed ← writeEntries mutation.operation
  if changed then
    let area ← Method.get
    Method.failIf (area.version = U64_MAX) (.Invalid "storage version exhausted")
    Method.modify fun area => { area with version := area.version + 1 }
    pure changed
  else pure changed

private theorem writeEntries_eq (operation : StorageOperation) (area : StorageAreaState) :
    writeEntries operation area =
      match area.applyOperation operation with
      | .ok (after, changed) => (.ok changed, { area with entries := after.entries })
      | .error error => (.error error, area) := by
  rw [writeEntries, Method.run_get_bind]
  cases operation with
  | Set key value =>
    by_cases hsame : area.entries.get key = some value
    · simp [applyOperation, hsame]
    · have hcontains : ¬ area.entries.contains key ↔ area.entries.get key = none := by
        simp [OrdMap.contains]
      simp only [hsame, if_false, Method.run_failIf_bind, Method.run_ofExcept_bind,
        Method.run_modify_bind, Method.run_pure, applyOperation, checkSet, hcontains]
      split
      next => rfl
      next =>
        cases validateBytes (area.byteLen - area.oldBytes key + key.byteLen + value.byteLen) <;> rfl
  | Remove key =>
    simp only [Method.run_modify_bind, Method.run_pure, applyOperation]
    cases hcontains : area.entries.contains key with
    | true => rfl
    | false =>
      have hget : area.entries.get key = none := by simpa [OrdMap.contains] using hcontains
      simp [OrdMap.erase_eq_of_get_none _ hget]
  | Clear =>
    simp only [Method.run_modify_bind, Method.run_pure, applyOperation]
    cases hempty : area.entries.isEmpty with
    | true => simp [(OrdMap.isEmpty_iff _).mp hempty]
    | false => simp

theorem applyMethod_implements (mutation : StorageMutation) :
    Method.Implements (applyMethod mutation) fun area => area.apply mutation := by
  intro area
  simp only [applyMethod, apply, Method.run_ofExcept_bind]
  cases mutation.validate with
  | error error => rfl
  | ok _ =>
    simp only [Method.run_get_bind, Method.run_failIf_bind]
    split_ifs with hversion hlast
    · rfl
    · rfl
    · rw [Method.run_bind, writeEntries_eq]
      cases hresult : area.applyOperation mutation.operation with
      | error error => rfl
      | ok result =>
        obtain ⟨after, changed⟩ := result
        obtain ⟨hafter, hchanged⟩ := applyOperation_ok hresult
        cases changed with
        | false =>
          have hsame : after = area := by
            rw [hafter, StorageAreaState.after, ← hchanged]
            rfl
          simp [hsame]
        | true =>
          have hroom : ¬ area.version = U64_MAX := fun hmax => hlast ⟨hmax, hchanged.symm⟩
          have hversion : after.version = area.version + 1 := by
            rw [hafter, after_version, ← hchanged]
            rfl
          simp [hroom, ← hversion]

end StorageAreaState

namespace StorageProjection

def onVisible {A : Type} (method : Method StorageError StorageAreaState A) :
    Method StorageError StorageProjection A :=
  Method.field visible (fun visible projection => { projection with visible }) method

def onBase {A : Type} (method : Method StorageError StorageAreaState A) :
    Method StorageError StorageProjection A :=
  Method.field base (fun base projection => { projection with base }) method

def writeMethod (area : StorageAreaKind) (sourceUrl : Str) (operation : StorageOperation) :
    Method StorageError StorageProjection (Option StorageWrite) := do
  let projection ← Method.get
  if ¬ projection.visible.operationChanges operation then pure none
  else
    let mutation : StorageMutation := ⟨area, projection.visible.version, operation⟩
    Method.failIf (projection.journalFull mutation sourceUrl) .QuotaExceeded
    Method.failIf (projection.lastSequence = U64_MAX) (.Invalid "storage write sequence exhausted")
    let write : StorageWrite := ⟨projection.lastSequence + 1, sourceUrl, mutation⟩
    Method.ofExcept write.validate
    let _ ← onVisible (StorageAreaState.applyMethod write.mutation)
    Method.modify fun projection => { projection with lastSequence := write.sequence }
    Method.modify fun projection =>
      { projection with pendingBytes := projection.pendingBytes + writeBytes write }
    Method.modify fun projection => { projection with pending := projection.pending ++ [write] }
    pure (some write)

/-- The change of an update, written to the base. -/
def advanceMethod (update : StorageUpdate) : Method StorageError StorageProjection Unit := do
  let projection ← Method.get
  match update.change with
  | some change =>
    Method.failIf (projection.base.version = U64_MAX) (.Invalid "storage version exhausted")
    Method.failIf (change.version ≠ projection.base.version + 1) (.Invalid "storage update order")
    Method.failIf (change.key.any fun key => projection.base.entries.get key ≠ change.oldValue)
      (.Invalid "storage change old value")
    let mutation : StorageMutation := ⟨update.area, projection.base.version, change.operation⟩
    let changed ← onBase (StorageAreaState.applyMethod mutation)
    Method.failIf (¬ changed) (.Invalid "redundant storage change")
    pure ()
  | none =>
    Method.failIf (update.version ≠ projection.base.version)
      (.Invalid "storage acknowledgement version")
    pure ()

/-- The oldest write leaves the journal. -/
def retire (update : StorageUpdate) (projection : StorageProjection) : StorageProjection :=
  if update.acknowledgement ≠ 0 then
    { projection with
      pending := projection.pending.tail,
      pendingBytes := projection.pendingBytes - projection.pending.head?.elim 0 writeBytes,
      acknowledged := update.acknowledgement }
  else projection

/-- The whole journal over a copy of the base. -/
def rebuild (projection : StorageProjection) : StorageProjection :=
  { projection with
    visible :=
      { projection.base with entries := overlay projection.base.entries projection.pending } }

def applyMethod (update : StorageUpdate) : Method StorageError StorageProjection Unit := do
  Method.ofExcept update.validate
  let projection ← Method.get
  Method.failIf (update.acknowledgement ≠ 0 ∧
      (update.acknowledgement ≠ projection.acknowledged + 1 ∨
        projection.pending.head?.map StorageWrite.sequence ≠ some update.acknowledgement))
    (.Invalid "storage acknowledgement order")
  advanceMethod update
  Method.modify (retire update)
  -- decided before the base moved
  if projection.preservesProjection update then
    Method.modify fun projection =>
      { projection with visible := { projection.visible with version := projection.base.version } }
    pure ()
  else
    Method.modify rebuild
    pure ()

private theorem run_onVisible_bind {A : Type} (mutation : StorageMutation)
    (next : Bool → Method StorageError StorageProjection A) (projection : StorageProjection) :
    (onVisible (StorageAreaState.applyMethod mutation) >>= next) projection =
      match projection.visible.apply mutation with
      | .ok (visible, changed) => next changed { projection with visible }
      | .error error => (.error error, projection) := by
  have hfield := (StorageAreaState.applyMethod_implements mutation).run_field_bind visible
    (fun visible projection => { projection with visible }) (fun _ => rfl) next projection
  rw [onVisible, hfield]
  cases projection.visible.apply mutation <;> rfl

private theorem run_onBase_bind {A : Type} (mutation : StorageMutation)
    (next : Bool → Method StorageError StorageProjection A) (projection : StorageProjection) :
    (onBase (StorageAreaState.applyMethod mutation) >>= next) projection =
      match projection.base.apply mutation with
      | .ok (base, changed) => next changed { projection with base }
      | .error error => (.error error, projection) := by
  have hfield := (StorageAreaState.applyMethod_implements mutation).run_field_bind base
    (fun base projection => { projection with base }) (fun _ => rfl) next projection
  rw [onBase, hfield]
  cases projection.base.apply mutation <;> rfl

theorem writeMethod_implements (area : StorageAreaKind) (sourceUrl : Str)
    (operation : StorageOperation) :
    Method.Implements (writeMethod area sourceUrl operation) fun projection =>
      projection.write area sourceUrl operation := by
  intro projection
  rw [writeMethod, Method.run_get_bind]
  unfold write
  by_cases hchanges : projection.visible.operationChanges operation
  · simp only [hchanges, not_true_eq_false, if_false, Method.run_failIf_bind,
      Method.run_ofExcept_bind]
    split_ifs with hfull hlast
    · rfl
    · rfl
    · cases StorageWrite.validate ⟨projection.lastSequence + 1, sourceUrl,
          ⟨area, projection.visible.version, operation⟩⟩ with
      | error error => rfl
      | ok _ =>
        simp only [run_onVisible_bind, Method.run_modify_bind, Method.run_pure]
        cases projection.visible.apply ⟨area, projection.visible.version, operation⟩ <;> rfl
  · simp [hchanges]

private theorem advanceMethod_implements (update : StorageUpdate) :
    Method.Implements (advanceMethod update) fun projection =>
      (advance projection.base update).map fun base => ({ projection with base }, ()) := by
  intro projection
  rw [advanceMethod, Method.run_get_bind]
  unfold advance
  cases update.change with
  | none =>
    simp only [Method.run_failIf_bind, Method.run_pure]
    split <;> rfl
  | some change =>
    simp only [Method.run_failIf_bind]
    split_ifs with hlast horder hold
    · rfl
    · rfl
    · rfl
    · simp only [run_onBase_bind, Method.run_failIf_bind, Method.run_pure]
      cases hresult : projection.base.apply ⟨update.area, projection.base.version, change.operation⟩ with
      | error error => rfl
      | ok result =>
        obtain ⟨base, changed⟩ := result
        cases changed with
        | true => rfl
        | false =>
          -- an operation that changes nothing has not written to the base either
          have hbase : base = projection.base := by
            have hok := StorageAreaState.apply_ok hresult
            rw [hok.2.2.2.1, StorageAreaState.after, ← hok.2.2.1]
            rfl
          simp [hbase, Except.map]

theorem applyMethod_implements (update : StorageUpdate) :
    Method.Implements (applyMethod update) fun projection =>
      (projection.apply update).map fun projection => (projection, ()) := by
  intro projection
  rw [applyMethod, Method.run_ofExcept_bind]
  unfold apply
  cases update.validate with
  | error error => rfl
  | ok _ =>
    simp only [Method.run_get_bind, Method.run_failIf_bind]
    by_cases horder : update.acknowledgement ≠ 0 ∧
        (update.acknowledgement ≠ projection.acknowledged + 1 ∨
          projection.pending.head?.map StorageWrite.sequence ≠ some update.acknowledgement)
    · rw [if_pos horder, if_pos horder]
      rfl
    · rw [if_neg horder, if_neg horder, Method.run_bind, advanceMethod_implements update projection]
      dsimp only
      cases advance projection.base update with
      | error error => simp only [Except.map]
      | ok base =>
        simp only [Except.map, Method.run_modify_bind]
        by_cases hack : update.acknowledgement = 0
        · cases projection.preservesProjection update <;> simp [retire, rebuild, hack]
        · cases projection.preservesProjection update <;> simp [retire, rebuild, hack]

/-! ## Exactness -/

/-- The page sees the base under the pending writes, and the budget is their sum. -/
structure Exact (projection : StorageProjection) : Prop where
  entries_eq : projection.view.entries = overlay projection.base.entries projection.pending
  bytes_eq : projection.pendingBytes = (projection.pending.map writeBytes).sum

theorem fromSnapshot_exact {snapshot : StorageAreaSnapshot} {projection : StorageProjection}
    (h : fromSnapshot snapshot = .ok projection) : projection.Exact := by
  unfold fromSnapshot at h
  cases hbase : StorageAreaState.fromSnapshot snapshot with
  | error error =>
    rw [hbase] at h
    cases h
  | ok base =>
    rw [hbase] at h
    cases h
    exact ⟨rfl, rfl⟩

theorem Exact.write {projection after : StorageProjection} {area : StorageAreaKind}
    {sourceUrl : Str} {operation : StorageOperation} {sent : Option StorageWrite}
    (he : projection.Exact) (h : projection.write area sourceUrl operation = .ok (after, sent)) :
    after.Exact := by
  unfold StorageProjection.write at h
  split at h
  next =>
    cases h
    exact he
  next =>
    simp only at h
    split_ifs at h with hfull hlast
    split at h
    next => cases h
    next =>
      split at h
      next => cases h
      next visible changed happly =>
        cases h
        constructor
        · have hvisible : visible = projection.visible.after operation :=
            (StorageAreaState.apply_ok happly).2.2.2.1
          have hentries : projection.visible.entries =
              overlay projection.base.entries projection.pending := he.entries_eq
          show visible.entries = _
          rw [hvisible, StorageAreaState.after_entries, hentries, overlay_append]
          rfl
        · simp [he.bytes_eq]

/-- The oldest write may move into the base without a rebuild. -/
private theorem preserved_entries {projection : StorageProjection} {update : StorageUpdate}
    {base : StorageAreaState} (hbase : advance projection.base update = .ok base)
    (hkeep : projection.preservesProjection update = true) :
    overlay projection.base.entries projection.pending =
      overlay base.entries projection.pending.tail := by
  rw [preservesProjection, Bool.and_eq_true] at hkeep
  rw [advance_ok hbase]
  cases hpending : projection.pending with
  | nil => simp [hpending] at hkeep
  | cons write pending =>
    have hsame := hkeep.2
    rw [hpending, List.head?_cons, Option.any_some] at hsame
    rw [overlay_cons, List.tail_cons]
    cases hchange : update.change with
    | none =>
      have hunchanged : projection.base.operationChanges write.operation = false := by
        simpa [hchange] using hsame
      rw [StorageAreaState.applyEntries_of_unchanged hunchanged, Option.elim_none]
    | some change =>
      have hoperation : change.operation = write.operation := by simpa [hchange] using hsame
      rw [Option.elim_some, StorageAreaState.after_entries, hoperation]

theorem Exact.apply {projection after : StorageProjection} {update : StorageUpdate}
    (he : projection.Exact) (h : projection.apply update = .ok after) : after.Exact := by
  have hentries : projection.visible.entries =
      overlay projection.base.entries projection.pending := he.entries_eq
  have htail : projection.pendingBytes - projection.pending.head?.elim 0 writeBytes =
      (projection.pending.tail.map writeBytes).sum := by
    rw [he.bytes_eq]
    cases projection.pending with
    | nil => rfl
    | cons write pending => simp
  unfold StorageProjection.apply at h
  split at h
  next => cases h
  next =>
    split at h
    next => cases h
    next =>
      cases hbase : advance projection.base update with
      | error error =>
        rw [hbase] at h
        cases h
      | ok base =>
        rw [hbase] at h
        dsimp only at h
        by_cases hack : update.acknowledgement = 0
        · have hforeign : projection.preservesProjection update = false := by
            simp [preservesProjection, hack]
          rw [hforeign, if_neg Bool.false_ne_true, if_neg (not_not.mpr hack)] at h
          cases h
          exact ⟨rfl, he.bytes_eq⟩
        · rw [if_pos hack] at h
          cases hkeep : projection.preservesProjection update with
          | true =>
            rw [hkeep, if_pos rfl] at h
            cases h
            exact ⟨hentries.trans (preserved_entries hbase hkeep), htail⟩
          | false =>
            rw [hkeep, if_neg Bool.false_ne_true] at h
            cases h
            exact ⟨rfl, htail⟩

/-- A call of the page or of the browser. -/
inductive Call
  | Write (area : StorageAreaKind) (sourceUrl : Str) (operation : StorageOperation)
  | Apply (update : StorageUpdate)

/-- What a call leaves, whether it fails or not. -/
def Call.after : Call → StorageProjection → StorageProjection
  | .Write area sourceUrl operation, projection =>
    (projection.writeMethod area sourceUrl operation).2
  | .Apply update, projection => (projection.applyMethod update).2

theorem Call.after_exact {projection : StorageProjection} (he : projection.Exact) (call : Call) :
    (call.after projection).Exact := by
  cases call with
  | Write area sourceUrl operation =>
    exact (writeMethod_implements area sourceUrl operation).invariant he fun _ _ hok => he.write hok
  | Apply update =>
    refine (applyMethod_implements update).invariant he fun after _ hok => ?_
    cases hresult : projection.apply update with
    | error error =>
      simp [hresult, Except.map] at hok
    | ok found =>
      simp only [hresult, Except.map, Except.ok.injEq, Prod.mk.injEq] at hok
      exact hok.1 ▸ he.apply hresult

/-- After any calls the page sees the base under the pending writes and the budget is their sum,
and an update that fails leaves the replica as it was. -/
theorem replica_agrees (snapshot : StorageAreaSnapshot) (start : StorageProjection)
    (hstart : fromSnapshot snapshot = .ok start) (calls : List Call) :
    let replica := calls.foldl (fun projection call => call.after projection) start
    replica.view.entries = overlay replica.base.entries replica.pending ∧
      replica.pendingBytes = (replica.pending.map writeBytes).sum ∧
      ∀ update error after, replica.applyMethod update = (.error error, after) → after = replica := by
  have hrun := Run.foldl (fun projection (call : Call) => call.after projection) start calls
  have hexact : (calls.foldl (fun projection call => call.after projection) start).Exact := by
    refine hrun.invariant Exact (fromSnapshot_exact hstart) ?_
    rintro projection call after he rfl
    exact call.after_exact he
  exact ⟨hexact.entries_eq, hexact.bytes_eq,
    fun update error after hfailed => (applyMethod_implements update).state_of_error hfailed⟩

/-- A write is pending, and an update that acknowledges another one fails. -/
theorem replica_agrees_sample :
    let replica := (Call.Write .Local [] (.Set ⟨[97]⟩ ⟨[98]⟩)).after ⟨.default, .default, [], 0, 0, 0⟩
    replica.pendingBytes = 2 ∧
      replica.view.entries = overlay replica.base.entries replica.pending ∧
      (replica.applyMethod ⟨.Local, 1, 2, none, []⟩).2 = replica := by
  have hsample := replica_agrees StorageAreaSnapshot.empty ⟨.default, .default, [], 0, 0, 0⟩ rfl
    [Call.Write .Local [] (.Set ⟨[97]⟩ ⟨[98]⟩)]
  exact ⟨by decide, hsample.1,
    hsample.2.2 ⟨.Local, 1, 2, none, []⟩ (.Invalid "storage acknowledgement order") _ rfl⟩

end StorageProjection

end BetterWebBrowser.Storage
