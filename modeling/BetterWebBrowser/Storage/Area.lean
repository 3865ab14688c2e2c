import BetterWebBrowser.Storage.Types

/-!
# One origin's map

The versioned map of an origin and its preflighted mutations. Refused mutations leave the
map alone, so `apply` returns the new map only with `ok`.
-/

namespace BetterWebBrowser.Storage

open Framework

structure StorageAreaState where
  version : Nat
  entries : OrdMap StorageString StorageString
deriving DecidableEq

namespace StorageAreaState

def default : StorageAreaState := ⟨1, OrdMap.empty⟩

def snapshot (area : StorageAreaState) : StorageAreaSnapshot := ⟨area.version, area.entries.entries⟩

def fromSnapshot (snapshot : StorageAreaSnapshot) : StorageResult StorageAreaState :=
  match snapshot.validate with
  | .error error => .error error
  | .ok () =>
    let entries := OrdMap.ofList snapshot.entries
    if entries.len ≠ snapshot.entries.length then .error (.Invalid "duplicate storage keys")
    else .ok ⟨snapshot.version, entries⟩

def byteLen (area : StorageAreaState) : Nat := area.entries.weight entryBytes

def operationChanges (area : StorageAreaState) : StorageOperation → Bool
  | .Set key value => decide (area.entries.get key ≠ some value)
  | .Remove key => area.entries.contains key
  | .Clear => !area.entries.isEmpty

/-- Quota bytes of the entry that a `Set` of `key` replaces. -/
def oldBytes (area : StorageAreaState) (key : StorageString) : Nat :=
  (area.entries.get key).elim 0 (entryBytes key)

/-- The operation on the bare entries. -/
def applyEntries (entries : OrdMap StorageString StorageString) :
    StorageOperation → OrdMap StorageString StorageString
  | .Set key value => entries.insert key value
  | .Remove key => entries.erase key
  | .Clear => OrdMap.empty

/-- The quota checks of a `Set` that changes the map. -/
def checkSet (area : StorageAreaState) (key value : StorageString) : StorageResult Unit :=
  if area.entries.get key = none ∧ MAX_STORAGE_ENTRIES_PER_ORIGIN ≤ area.entries.len then
    .error .QuotaExceeded
  else validateBytes (area.byteLen - area.oldBytes key + key.byteLen + value.byteLen)

/-- The operation of a validated mutation; the flag says whether the map changed. -/
def applyOperation (area : StorageAreaState) :
    StorageOperation → StorageResult (StorageAreaState × Bool)
  | .Set key value =>
    if area.entries.get key = some value then .ok (area, false)
    else
      match area.checkSet key value with
      | .error error => .error error
      | .ok () => .ok (⟨area.version + 1, area.entries.insert key value⟩, true)
  | .Remove key =>
    if area.entries.contains key then .ok (⟨area.version + 1, area.entries.erase key⟩, true)
    else .ok (area, false)
  | .Clear =>
    if area.entries.isEmpty then .ok (area, false)
    else .ok (⟨area.version + 1, OrdMap.empty⟩, true)

def apply (area : StorageAreaState) (mutation : StorageMutation) :
    StorageResult (StorageAreaState × Bool) :=
  match mutation.validate with
  | .error error => .error error
  | .ok () =>
    if mutation.expectedVersion ≠ area.version then .error (.Stale area.snapshot)
    else if area.version = U64_MAX ∧ area.operationChanges mutation.operation then
      .error (.Invalid "storage version exhausted")
    -- The exhausted version is refused above, so `version + 1` stays below 2^64.
    else area.applyOperation mutation.operation

/-- The area after an accepted operation. -/
def after (area : StorageAreaState) (operation : StorageOperation) : StorageAreaState :=
  if area.operationChanges operation then
    ⟨area.version + 1, applyEntries area.entries operation⟩
  else area

/-- The quotas every stored map keeps. -/
structure Valid (area : StorageAreaState) : Prop where
  version_pos : 0 < area.version
  version_le : area.version ≤ U64_MAX
  len_le : area.entries.len ≤ MAX_STORAGE_ENTRIES_PER_ORIGIN
  byteLen_le : area.byteLen ≤ MAX_STORAGE_BYTES_PER_ORIGIN

theorem applyEntries_of_unchanged {area : StorageAreaState} {operation : StorageOperation}
    (h : area.operationChanges operation = false) :
    applyEntries area.entries operation = area.entries := by
  cases operation with
  | Set key value =>
    have hget : area.entries.get key = some value := by simpa [operationChanges] using h
    exact OrdMap.insert_get_eq _ hget
  | Remove key =>
    have hget : area.entries.get key = none := by
      simpa [operationChanges, OrdMap.contains] using h
    exact OrdMap.erase_eq_of_get_none _ hget
  | Clear =>
    have hempty : area.entries.isEmpty = true := by simpa [operationChanges] using h
    exact ((OrdMap.isEmpty_iff _).mp hempty).symm

@[simp] theorem after_entries (area : StorageAreaState) (operation : StorageOperation) :
    (area.after operation).entries = applyEntries area.entries operation := by
  cases h : area.operationChanges operation with
  | false => simp [after, h, applyEntries_of_unchanged h]
  | true => simp [after, h]

theorem after_version (area : StorageAreaState) (operation : StorageOperation) :
    (area.after operation).version =
      area.version + if area.operationChanges operation then 1 else 0 := by
  cases h : area.operationChanges operation <;> simp [after, h]

/-- An accepted operation leaves `after`, and the flag says whether it changed the map. -/
theorem applyOperation_ok {area area' : StorageAreaState} {operation : StorageOperation}
    {changed : Bool} (h : area.applyOperation operation = .ok (area', changed)) :
    area' = area.after operation ∧ changed = area.operationChanges operation := by
  cases operation with
  | Set key value =>
    rw [applyOperation] at h
    split_ifs at h with hget
    · simp only [Except.ok.injEq, Prod.mk.injEq] at h
      obtain ⟨rfl, rfl⟩ := h
      simp [operationChanges, hget, after]
    · cases hcheck : area.checkSet key value with
      | error e => simp [hcheck] at h
      | ok u =>
        simp only [hcheck, Except.ok.injEq, Prod.mk.injEq] at h
        obtain ⟨rfl, rfl⟩ := h
        simp [operationChanges, hget, after, applyEntries]
  | Remove key =>
    rw [applyOperation] at h
    split_ifs at h with hget <;> simp only [Except.ok.injEq, Prod.mk.injEq] at h <;>
      obtain ⟨rfl, rfl⟩ := h <;> simp [operationChanges, hget, after, applyEntries]
  | Clear =>
    rw [applyOperation] at h
    split_ifs at h with hempty <;> simp only [Except.ok.injEq, Prod.mk.injEq] at h <;>
      obtain ⟨rfl, rfl⟩ := h <;> simp [operationChanges, hempty, after, applyEntries]

/-- What an accepted mutation does: it names the current version, and the map changes
exactly when the operation changes it. -/
theorem apply_ok {area area' : StorageAreaState} {mutation : StorageMutation} {changed : Bool}
    (h : area.apply mutation = .ok (area', changed)) :
    mutation.validate = .ok () ∧ mutation.expectedVersion = area.version ∧
      changed = area.operationChanges mutation.operation ∧
      area' = area.after mutation.operation ∧
      (changed = true → area.version ≠ U64_MAX) := by
  unfold apply at h
  cases hvalid : mutation.validate with
  | error e => simp [hvalid] at h
  | ok u =>
    simp only [hvalid] at h
    split_ifs at h with hversion hmax
    obtain ⟨harea, hchanged⟩ := applyOperation_ok h
    refine ⟨rfl, not_not.mp hversion, hchanged, harea, ?_⟩
    intro htrue hlast
    exact hmax ⟨hlast, hchanged ▸ htrue⟩

/-! ## Quotas -/

theorem default_valid : StorageAreaState.default.Valid :=
  ⟨by decide, by decide, by decide, by decide⟩

private theorem insert_len (entries : OrdMap StorageString StorageString) (key value : StorageString) :
    (entries.insert key value).len =
      entries.len + if entries.get key = none then 1 else 0 := by
  rw [OrdMap.len_eq_weight, OrdMap.len_eq_weight]
  cases hget : entries.get key with
  | none => simp [OrdMap.weight_insert_of_none _ value hget]
  | some old =>
    have := OrdMap.weight_insert_of_some (fun _ _ => 1) value hget
    simp only [reduceCtorEq, if_false]
    omega

private theorem erase_len_le (entries : OrdMap StorageString StorageString) (key : StorageString) :
    (entries.erase key).len ≤ entries.len := by
  rw [OrdMap.len_eq_weight, OrdMap.len_eq_weight]
  exact OrdMap.weight_erase_le _ entries key

private theorem byteLen_insert (area : StorageAreaState) (key value : StorageString) :
    (area.entries.insert key value).weight entryBytes =
      area.byteLen - area.oldBytes key + key.byteLen + value.byteLen := by
  cases hget : area.entries.get key with
  | none =>
    rw [OrdMap.weight_insert_of_none _ value hget]
    simp only [oldBytes, hget, byteLen, entryBytes, Option.elim_none]
    omega
  | some old =>
    have h := OrdMap.weight_insert_of_some entryBytes value hget
    have hle := OrdMap.le_weight_of_get entryBytes hget
    simp only [oldBytes, hget, byteLen, entryBytes, Option.elim_some] at h hle ⊢
    omega

private theorem checkSet_ok {area : StorageAreaState} {key value : StorageString}
    (h : area.checkSet key value = .ok ()) :
    ¬ (area.entries.get key = none ∧ MAX_STORAGE_ENTRIES_PER_ORIGIN ≤ area.entries.len) ∧
      area.byteLen - area.oldBytes key + key.byteLen + value.byteLen ≤
        MAX_STORAGE_BYTES_PER_ORIGIN := by
  unfold checkSet validateBytes at h
  split_ifs at h with hfull hbytes
  exact ⟨hfull, not_lt.mp hbytes⟩

private theorem Valid.applyOperation {area area' : StorageAreaState} {operation : StorageOperation}
    {changed : Bool} (hv : area.Valid) (hlast : changed = true → area.version ≠ U64_MAX)
    (h : area.applyOperation operation = .ok (area', changed)) : area'.Valid := by
  have hversion (hc : changed = true) : area.version + 1 ≤ U64_MAX :=
    Nat.lt_of_le_of_ne hv.version_le (hlast hc)
  cases operation with
  | Set key value =>
    rw [StorageAreaState.applyOperation] at h
    split_ifs at h with hget
    · simp only [Except.ok.injEq, Prod.mk.injEq] at h
      exact h.1 ▸ hv
    · cases hcheck : area.checkSet key value with
      | error e => simp [hcheck] at h
      | ok u =>
        simp only [hcheck, Except.ok.injEq, Prod.mk.injEq] at h
        obtain ⟨rfl, rfl⟩ := h
        obtain ⟨hfull, hbytes⟩ := checkSet_ok hcheck
        refine ⟨Nat.succ_pos _, hversion rfl, ?_, ?_⟩
        · have hlen := insert_len area.entries key value
          have hle := hv.len_le
          split_ifs at hlen with hnone
          · have := not_and.mp hfull hnone
            simp only
            omega
          · simp only
            omega
        · change (area.entries.insert key value).weight entryBytes ≤ _
          rw [byteLen_insert]
          exact hbytes
  | Remove key =>
    rw [StorageAreaState.applyOperation] at h
    split_ifs at h with hget <;> simp only [Except.ok.injEq, Prod.mk.injEq] at h <;>
      obtain ⟨rfl, rfl⟩ := h
    · exact ⟨Nat.succ_pos _, hversion rfl, (erase_len_le _ key).trans hv.len_le,
        (OrdMap.weight_erase_le _ _ key).trans hv.byteLen_le⟩
    · exact hv
  | Clear =>
    rw [StorageAreaState.applyOperation] at h
    split_ifs at h with hempty <;> simp only [Except.ok.injEq, Prod.mk.injEq] at h <;>
      obtain ⟨rfl, rfl⟩ := h
    · exact hv
    · exact ⟨Nat.succ_pos _, hversion rfl, Nat.zero_le _, Nat.zero_le _⟩

/-- Accepted mutations keep the quotas. -/
theorem Valid.apply {area area' : StorageAreaState} {mutation : StorageMutation} {changed : Bool}
    (hv : area.Valid) (h : area.apply mutation = .ok (area', changed)) : area'.Valid := by
  have hok := apply_ok h
  unfold StorageAreaState.apply at h
  simp only [hok.1] at h
  split_ifs at h
  exact hv.applyOperation hok.2.2.2.2 h

private theorem validateEntries_ok (entries : List (StorageString × StorageString)) (total : Nat)
    (h : ∀ e ∈ entries, entryBytes e.1 e.2 ≤ MAX_STORAGE_BYTES_PER_ORIGIN) :
    StorageAreaSnapshot.validateEntries total entries =
      .ok (total + (entries.map fun e => entryBytes e.1 e.2).sum) := by
  induction entries generalizing total with
  | nil => simp [StorageAreaSnapshot.validateEntries]
  | cons e entries ih =>
    have he := h e List.mem_cons_self
    have hbytes : validateBytes (entryBytes e.1 e.2) = .ok () := by
      simp [validateBytes, not_lt.mpr he]
    simp only [StorageAreaSnapshot.validateEntries, hbytes, List.map_cons, List.sum_cons]
    rw [ih _ fun a ha => h a (List.mem_cons_of_mem _ ha)]
    simp [Nat.add_assoc]

/-- Reading back the snapshot of a map within its quotas gives the map. -/
theorem Valid.fromSnapshot_snapshot {area : StorageAreaState} (hv : area.Valid) :
    fromSnapshot area.snapshot = .ok area := by
  have hentries : ∀ e ∈ area.entries.entries,
      entryBytes e.1 e.2 ≤ MAX_STORAGE_BYTES_PER_ORIGIN := by
    intro e he
    have hget := (OrdMap.mem_entries_iff_get area.entries e.1 e.2).mp he
    exact (OrdMap.le_weight_of_get entryBytes hget).trans hv.byteLen_le
  have hlen : ¬ MAX_STORAGE_ENTRIES_PER_ORIGIN < area.entries.entries.length :=
    not_lt.mpr hv.len_le
  have hpos : area.version ≠ 0 := hv.version_pos.ne'
  have hbytes : ¬ MAX_STORAGE_BYTES_PER_ORIGIN <
      0 + (area.entries.entries.map fun e => entryBytes e.1 e.2).sum := by
    rw [Nat.zero_add]
    exact not_lt.mpr hv.byteLen_le
  have hvalid : area.snapshot.validate = .ok () := by
    simp only [StorageAreaSnapshot.validate, snapshot, hlen, hpos, or_self, if_false,
      validateEntries_ok _ _ hentries, hbytes]
  simp only [fromSnapshot, hvalid]
  simp [snapshot, OrdMap.len]

end StorageAreaState

end BetterWebBrowser.Storage
