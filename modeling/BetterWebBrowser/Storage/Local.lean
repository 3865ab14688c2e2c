import BetterWebBrowser.Storage.Area

/-!
# The local and session authorities

Both map origins to areas; an origin without an area reads as the empty map at version one.
A local transaction applies its mutations in order, persists once if something changed and
puts the origin back on any failure. `persist` stands for the encoder and the disk, and is
the constant success of a store without a path.
-/

namespace BetterWebBrowser.Storage

open Framework Navigation

/-- The record of an operation before it runs; its version is filled in afterwards. -/
def StorageChange.before (area : Option StorageAreaState) (operation : StorageOperation) :
    StorageChange :=
  let oldValue (key : StorageString) := area.bind fun area => area.entries.get key
  match operation with
  | .Set key value => ⟨0, some key, oldValue key, some value⟩
  | .Remove key => ⟨0, some key, oldValue key, none⟩
  | .Clear => ⟨0, none, none, none⟩

abbrev Origins := OrdMap Str StorageAreaState

namespace Origins

/-- The map an origin reads: its own, or the empty one. -/
def area (origins : Origins) (origin : Str) : StorageAreaState :=
  (origins.get origin).getD StorageAreaState.default

def snapshot (origins : Origins) (origin : Str) : StorageAreaSnapshot :=
  (origins.get origin).elim StorageAreaSnapshot.empty StorageAreaState.snapshot

def applyToOrigin (origins : Origins) (origin : Str) (mutation : StorageMutation) :
    StorageResult (Origins × Bool) :=
  match origins.get origin with
  | some area =>
    match area.apply mutation with
    | .error error => .error error
    | .ok (area, changed) => .ok (origins.insert origin area, changed)
  | none =>
    if MAX_STORAGE_ORIGINS ≤ origins.len then .error .QuotaExceeded
    else
      match StorageAreaState.default.apply mutation with
      | .error error => .error error
      | .ok (area, changed) => .ok (if changed then origins.insert origin area else origins, changed)

/-- Every stored area keeps its quotas. -/
def Valid (origins : Origins) : Prop :=
  ∀ origin area, origins.get origin = some area → area.Valid

theorem snapshot_eq_area_snapshot (origins : Origins) (origin : Str) :
    origins.snapshot origin = (origins.area origin).snapshot := by
  unfold snapshot area
  cases origins.get origin <;> rfl

theorem Valid.area {origins : Origins} (hv : origins.Valid) (origin : Str) :
    (origins.area origin).Valid := by
  unfold Origins.area
  cases h : origins.get origin with
  | none => exact StorageAreaState.default_valid
  | some area => exact hv origin area h

end Origins

/-! ## Transactions -/

structure LocalStorage where
  origins : Origins
deriving DecidableEq

/-- The encoder and the disk, asked once per transaction. -/
abbrev Persist := LocalStorage → StorageResult Unit

namespace LocalStorage

def snapshot (urlParse : Str → Option Url) (storage : LocalStorage) (url : Str) :
    StorageResult StorageAreaSnapshot :=
  match storageOrigin urlParse url with
  | .error error => .error error
  | .ok origin => .ok (storage.origins.snapshot origin)

/-- The loop over the mutations, with what it did before a failure. -/
def transactLoop (origin : Str) : Origins → Bool → List StorageChange → List StorageMutation →
    Origins × StorageResult (Bool × List StorageChange)
  | origins, changed, records, [] => (origins, .ok (changed, records))
  | origins, changed, records, mutation :: mutations =>
    let record := StorageChange.before (origins.get origin) mutation.operation
    match origins.applyToOrigin origin mutation with
    | .error error => (origins, .error error)
    | .ok (origins, true) =>
      let record := { record with version := (origins.area origin).version }
      transactLoop origin origins true (records ++ [record]) mutations
    | .ok (origins, false) => transactLoop origin origins changed records mutations

/-- Put the area of an origin back as it was before the transaction. -/
def restore (origins : Origins) (origin : Str) (previous : Option StorageAreaState) : Origins :=
  match previous with
  | some area => origins.insert origin area
  | none => origins.erase origin

/-- A failed transaction restores the origin; a stale version reports the restored map. -/
def rollBack (origins : Origins) (origin : Str) (previous : Option StorageAreaState)
    (error : StorageError) : LocalStorage × StorageResult (Bool × List StorageChange) :=
  let origins := restore origins origin previous
  match error with
  | .Stale _ => (⟨origins⟩, .error (.Stale (origins.snapshot origin)))
  | error => (⟨origins⟩, .error error)

def transact (urlParse : Str → Option Url) (persist : Persist) (storage : LocalStorage) (url : Str)
    (mutations : List StorageMutation) : LocalStorage × StorageResult (Bool × List StorageChange) :=
  if mutations.any fun mutation => decide (mutation.area ≠ .Local) then
    (storage, .error (.Invalid "local storage mutation area"))
  else
    match storageOrigin urlParse url with
    | .error error => (storage, .error error)
    | .ok origin =>
      let previous := storage.origins.get origin
      match transactLoop origin storage.origins false [] mutations with
      | (origins, .error error) => rollBack origins origin previous error
      | (origins, .ok (changed, records)) =>
        if changed then
          match persist ⟨origins⟩ with
          | .error error => rollBack origins origin previous error
          | .ok () => (⟨origins⟩, .ok (changed, records))
        else (⟨origins⟩, .ok (changed, records))

def applyBatch (urlParse : Str → Option Url) (persist : Persist) (storage : LocalStorage)
    (url : Str) (mutations : List StorageMutation) : LocalStorage × StorageResult Bool :=
  match transact urlParse persist storage url mutations with
  | (storage, .error error) => (storage, .error error)
  | (storage, .ok (changed, _)) => (storage, .ok changed)

end LocalStorage

structure SessionStorage where
  origins : Origins
deriving DecidableEq

def SessionStorage.snapshot (urlParse : Str → Option Url) (storage : SessionStorage) (url : Str) :
    StorageResult StorageAreaSnapshot :=
  match storageOrigin urlParse url with
  | .error error => .error error
  | .ok origin => .ok (storage.origins.snapshot origin)

/-! ## What a transaction leaves -/

namespace Origins

/-- An accepted mutation acts on the map the origin reads and on no other origin. -/
theorem applyToOrigin_ok {origins origins' : Origins} {origin : Str} {mutation : StorageMutation}
    {changed : Bool} (h : origins.applyToOrigin origin mutation = .ok (origins', changed)) :
    (origins.area origin).apply mutation = .ok (origins'.area origin, changed) ∧
      (∀ other, other ≠ origin → origins'.get other = origins.get other) ∧
      (changed = false → origins' = origins) := by
  unfold applyToOrigin at h
  cases hget : origins.get origin with
  | some area =>
    simp only [hget] at h
    have harea : origins.area origin = area := by simp [Origins.area, hget]
    cases happly : area.apply mutation with
    | error e => simp [happly] at h
    | ok result =>
      obtain ⟨area', flag⟩ := result
      simp only [happly, Except.ok.injEq, Prod.mk.injEq] at h
      obtain ⟨rfl, rfl⟩ := h
      refine ⟨by rw [harea, happly]; simp [Origins.area], ?_, ?_⟩
      · intro other hother
        exact OrdMap.get_insert_ne _ _ hother
      · intro hflag
        have hok := StorageAreaState.apply_ok happly
        have hsame : area' = area := by
          rw [hok.2.2.2.1, StorageAreaState.after, ← hok.2.2.1, hflag]
          rfl
        exact OrdMap.insert_get_eq _ (hsame ▸ hget)
  | none =>
    simp only [hget] at h
    have harea : origins.area origin = StorageAreaState.default := by simp [Origins.area, hget]
    split_ifs at h
    cases happly : StorageAreaState.default.apply mutation with
    | error e => simp [happly] at h
    | ok result =>
      obtain ⟨area', flag⟩ := result
      simp only [happly, Except.ok.injEq, Prod.mk.injEq] at h
      obtain ⟨rfl, rfl⟩ := h
      have hok := StorageAreaState.apply_ok happly
      cases flag with
      | true =>
        refine ⟨by rw [harea, happly]; simp [Origins.area], ?_, by simp⟩
        intro other hother
        simpa using OrdMap.get_insert_ne _ _ hother
      | false =>
        have hsame : area' = StorageAreaState.default := by
          rw [hok.2.2.2.1, StorageAreaState.after, ← hok.2.2.1]
          rfl
        refine ⟨?_, fun other _ => rfl, fun _ => rfl⟩
        simp only [Bool.false_eq_true, if_false, harea, happly, hsame]

/-- An area that takes the mutation makes its origin take it, unless the origin is new and
the store already holds its maximum of origins. -/
theorem applyToOrigin_of_apply {origins : Origins} {origin : Str} {mutation : StorageMutation}
    {area' : StorageAreaState} {changed : Bool}
    (hroom : (origins.get origin).isSome ∨ origins.len < MAX_STORAGE_ORIGINS)
    (h : (origins.area origin).apply mutation = .ok (area', changed)) :
    ∃ origins', origins.applyToOrigin origin mutation = .ok (origins', changed) ∧
      ((origins'.get origin).isSome ∨ origins'.len < MAX_STORAGE_ORIGINS) := by
  unfold applyToOrigin
  cases hget : origins.get origin with
  | some area =>
    have harea : origins.area origin = area := by simp [Origins.area, hget]
    rw [harea] at h
    exact ⟨origins.insert origin area', by simp [h], by simp⟩
  | none =>
    have harea : origins.area origin = StorageAreaState.default := by simp [Origins.area, hget]
    have hlen : ¬ MAX_STORAGE_ORIGINS ≤ origins.len := by
      rcases hroom with hsome | hlt
      · simp [hget] at hsome
      · exact not_le.mpr hlt
    rw [harea] at h
    refine ⟨if changed then origins.insert origin area' else origins, by simp [hlen, h], ?_⟩
    cases changed with
    | true => simp
    | false => exact Or.inr (by simpa using not_le.mp hlen)

theorem applyToOrigin_valid {origins origins' : Origins} {origin : Str}
    {mutation : StorageMutation} {changed : Bool} (hv : origins.Valid)
    (h : origins.applyToOrigin origin mutation = .ok (origins', changed)) : origins'.Valid := by
  obtain ⟨happly, hframe, _⟩ := applyToOrigin_ok h
  intro other area hget
  by_cases hother : other = origin
  · subst hother
    have hvalid := (hv.area other).apply happly
    simpa [Origins.area, hget] using hvalid
  · exact hv other area (hframe other hother ▸ hget)

end Origins

namespace LocalStorage

private theorem transactLoop_frame (origin : Str) (mutations : List StorageMutation)
    (origins : Origins) (changed : Bool) (records : List StorageChange) (other : Str)
    (hother : other ≠ origin) :
    (transactLoop origin origins changed records mutations).1.get other = origins.get other := by
  induction mutations generalizing origins changed records with
  | nil => rfl
  | cons mutation mutations ih =>
    unfold transactLoop
    cases happly : origins.applyToOrigin origin mutation with
    | error e => rfl
    | ok result =>
      obtain ⟨origins', flag⟩ := result
      have hframe := (Origins.applyToOrigin_ok happly).2.1 other hother
      cases flag with
      | true => exact (ih origins' _ _).trans hframe
      | false => exact (ih origins' _ _).trans hframe

private theorem restore_eq {origins origins' : Origins} {origin : Str}
    (hframe : ∀ other, other ≠ origin → origins'.get other = origins.get other) :
    restore origins' origin (origins.get origin) = origins := by
  apply OrdMap.ext_get
  intro other
  unfold restore
  cases hget : origins.get origin with
  | some area =>
    rw [OrdMap.get_insert]
    split_ifs with h
    · rw [h, hget]
    · exact hframe other h
  | none =>
    rw [OrdMap.get_erase]
    split_ifs with h
    · rw [h, hget]
    · exact hframe other h

private theorem rollBack_storage {origins origins' : Origins} {origin : Str} (error : StorageError)
    (hframe : ∀ other, other ≠ origin → origins'.get other = origins.get other) :
    (rollBack origins' origin (origins.get origin) error).1 = ⟨origins⟩ ∧
      ∃ reported, (rollBack origins' origin (origins.get origin) error).2 = .error reported := by
  unfold rollBack
  cases error <;> simp [restore_eq hframe]

/-- A transaction that fails leaves every area as it was. -/
theorem transact_error {urlParse : Str → Option Url} {persist : Persist}
    {storage storage' : LocalStorage} {url : Str} {mutations : List StorageMutation}
    {error : StorageError}
    (h : transact urlParse persist storage url mutations = (storage', .error error)) :
    storage' = storage := by
  unfold transact at h
  split_ifs at h with harea
  · exact (congrArg Prod.fst h).symm
  · cases horigin : storageOrigin urlParse url with
    | error e =>
      simp only [horigin] at h
      exact (congrArg Prod.fst h).symm
    | ok origin =>
      simp only [horigin] at h
      have hframe := transactLoop_frame origin mutations storage.origins false []
      cases hloop : transactLoop origin storage.origins false [] mutations with
      | mk origins result =>
        simp only [hloop] at h hframe
        have hback (e : StorageError) := rollBack_storage e hframe
        cases result with
        | error e =>
          have := (hback e).1
          simp only [h] at this
          exact this
        | ok pair =>
          obtain ⟨changed, records⟩ := pair
          simp only at h
          split_ifs at h with hchanged
          · cases hpersist : persist ⟨origins⟩ with
            | error e =>
              simp only [hpersist] at h
              have := (hback e).1
              simp only [h] at this
              exact this
            | ok u =>
              simp only [hpersist, Prod.mk.injEq, reduceCtorEq, and_false] at h
          · simp only [Prod.mk.injEq, reduceCtorEq, and_false] at h

end LocalStorage

end BetterWebBrowser.Storage
