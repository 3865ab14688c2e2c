import BetterWebBrowser.Storage.Delivery

/-!
# The two write paths of session storage

`SessionStorage::apply` writes one mutation through `apply_to_origin`. The coordinator runs a
batch on a copy of the map and then inserts the copy. The insertion asks neither whether the
store is full nor whether anything changed, so it can add an origin that the other path does not.
-/

namespace BetterWebBrowser.Storage

open Framework Navigation

namespace SessionStorage

def apply (urlParse : Str → Option Url) (storage : SessionStorage) (url : Str)
    (mutation : StorageMutation) : StorageResult (SessionStorage × Bool) :=
  if mutation.area ≠ .Session then .error (.Invalid "session storage mutation area")
  else do
    let origin ← storageOrigin urlParse url
    let (origins, changed) ← storage.origins.applyToOrigin origin mutation
    pure (⟨origins⟩, changed)

/-- The operation of a write, at the current version. -/
def applyWrite (urlParse : Str → Option Url) (storage : SessionStorage) (write : StorageWrite) :
    StorageResult SessionStorage := do
  let snapshot ← storage.snapshot urlParse write.sourceUrl
  let (storage, _) ← storage.apply urlParse write.sourceUrl
    { write.mutation with expectedVersion := snapshot.version }
  pure storage

/-- The writes one after the other; the old state again if one fails. -/
def applyWrites (urlParse : Str → Option Url) (storage : SessionStorage)
    (writes : List StorageWrite) : SessionStorage :=
  match writes.foldlM (applyWrite urlParse) storage with
  | .ok storage => storage
  | .error _ => storage

end SessionStorage

namespace StorageCoordinator

variable {urlParse : Str → Option Url}

/-- A batch of the session area that is taken replaces the map of its origin. -/
theorem apply_session {persist : Persist} {hub hub' : StorageCoordinator} {source : Nat}
    {first : StorageWrite} {rest : List StorageWrite} {session session' : SessionStorage}
    (harea : first.mutation.area = .Session)
    (h : hub.apply urlParse persist source (first :: rest) session = (hub', session', .ok true)) :
    ∃ origin, (∀ write ∈ first :: rest, write.mutation.area = .Session ∧
        storageOrigin urlParse write.sourceUrl = .ok origin) ∧
      ((session.origins.area origin).Admits (operations (first :: rest)) →
        session' = ⟨session.origins.insert origin
          ((session.origins.area origin).run (operations (first :: rest)))⟩) ∧
      (¬ (session.origins.area origin).Admits (operations (first :: rest)) → session' = session) := by
  simp only [StorageCoordinator.apply, find_retain] at h
  cases hfind : hub.find source with
  | none => simp [hfind] at h
  | some endpoint =>
    simp only [hfind] at h
    cases hcheck : checkWrites urlParse first.mutation.area endpoint.origin
        (endpoint.sequences first.mutation.area) (first :: rest) with
    | error error => simp [hcheck] at h
    | ok sequence =>
      have hwrites := (checkWrites_ok hcheck).2.2
      have horigin := (hwrites first List.mem_cons_self).2.2
      have hstored : (hub.retain.areaOf session first.mutation.area endpoint.origin) =
          session.origins.area endpoint.origin := by
        rw [harea]
        rfl
      simp only [hcheck, authoritySnapshot_eq horigin, hstored] at h
      cases hstate : StorageAreaState.fromSnapshot
          (session.origins.area endpoint.origin).snapshot with
      | error error => simp [hstate] at h
      | ok state =>
        obtain rfl := fromSnapshot_snapshot hstate
        simp only [hstate, Batch.publish] at h
        split at h
        next => simp at h
        next => simp at h
        next =>
          refine ⟨endpoint.origin, fun write hmem => ?_, fun hadmits => ?_, fun hrefused => ?_⟩
          · exact ⟨(hwrites write hmem).2.1.trans harea, (hwrites write hmem).2.2⟩
          · simp only [preflight_of_admits hadmits, Batch.commit, harea, Prod.mk.injEq] at h
            exact h.2.1.symm
          · obtain ⟨⟨reason, hreason⟩, -⟩ := preflight_of_not_admits hrefused
            simp only [Batch.commit, hreason, Prod.mk.injEq] at h
            exact h.2.1.symm

/-! ## The writes one after the other -/

/-- One write of an origin. -/
theorem applyWrite_eq {storage : SessionStorage} {write : StorageWrite} {origin : Str}
    (harea : write.mutation.area = .Session)
    (horigin : storageOrigin urlParse write.sourceUrl = .ok origin) :
    storage.applyWrite urlParse write =
      (storage.origins.applyToOrigin origin
        { write.mutation with expectedVersion := (storage.origins.area origin).version }).map
          fun result => ⟨result.1⟩ := by
  simp only [SessionStorage.applyWrite, SessionStorage.snapshot, horigin, SessionStorage.apply,
    Origins.snapshot_eq_area_snapshot, StorageAreaState.snapshot, harea, ne_eq, not_true_eq_false,
    if_false, bind, Except.bind]
  cases storage.origins.applyToOrigin origin
    ⟨.Session, (storage.origins.area origin).version, write.mutation.operation⟩ <;> rfl

/-- An origin with a map takes the writes that its map admits. -/
theorem foldlM_applyWrite_of_some {writes : List StorageWrite} {origin : Str}
    (hwrites : ∀ write ∈ writes, write.mutation.area = .Session ∧
      storageOrigin urlParse write.sourceUrl = .ok origin)
    {origins : Origins} {area : StorageAreaState} (hget : origins.get origin = some area) :
    (area.Admits (operations writes) → writes.foldlM (SessionStorage.applyWrite urlParse) ⟨origins⟩ =
        .ok ⟨origins.insert origin (area.run (operations writes))⟩) ∧
      (¬ area.Admits (operations writes) → ∃ error,
        writes.foldlM (SessionStorage.applyWrite urlParse) ⟨origins⟩ = .error error) := by
  induction writes generalizing origins area with
  | nil =>
    refine ⟨fun _ => ?_, fun h => absurd trivial h⟩
    rw [operations_nil, StorageAreaState.run_nil, OrdMap.insert_get_eq _ hget]
    rfl
  | cons write writes ih =>
    obtain ⟨⟨harea, horigin⟩, hrest⟩ := List.forall_mem_cons.mp hwrites
    have hmap : origins.area origin = area := by simp [Origins.area, hget]
    rw [List.foldlM_cons, applyWrite_eq harea horigin, operations_cons, hmap, Origins.applyToOrigin,
      hget]
    dsimp only
    cases happly : area.apply { write.mutation with expectedVersion := area.version } with
    | error error =>
      refine ⟨fun hadmits => ?_, fun _ => ⟨error, rfl⟩⟩
      have htaken := hadmits.1.apply write.mutation.area
      rw [StorageWrite.operation, happly] at htaken
      cases htaken
    | ok result =>
      obtain ⟨after, changed⟩ := result
      have htakes : area.Takes write.operation := by
        have htaken := StorageAreaState.takes_of_apply happly
        exact htaken
      have hafter : after = area.after write.operation :=
        (StorageAreaState.apply_ok happly).2.2.2.1
      have htail := ih hrest (OrdMap.get_insert_self origins origin after)
      rw [OrdMap.insert_insert, hafter] at htail
      refine ⟨fun hadmits => ?_, fun hrefused => ?_⟩
      · exact hafter ▸ htail.1 hadmits.2
      · have hlater := htail.2 fun hadmits => hrefused ⟨htakes, hadmits⟩
        exact hafter ▸ hlater

/-- Some write of the list changes the map it meets. -/
def Changes (area : StorageAreaState) (writes : List StorageWrite) : Prop :=
  ∃ change ∈ area.records (operations writes), change.isSome

instance (area : StorageAreaState) (writes : List StorageWrite) : Decidable (Changes area writes) :=
  inferInstanceAs (Decidable (∃ change ∈ _, _))

theorem changes_cons (area : StorageAreaState) (write : StorageWrite) (writes : List StorageWrite) :
    Changes area (write :: writes) ↔
      area.operationChanges write.operation ∨ Changes (area.after write.operation) writes := by
  simp only [Changes, operations_cons, StorageAreaState.records, List.exists_mem_cons_iff]
  refine or_congr_left ?_
  rw [StorageAreaState.record]
  split
  next h => simp [h]
  next h => simp [h]

/-- A new origin is stored with the first write that changes its map, if there is room. -/
theorem foldlM_applyWrite_of_none {writes : List StorageWrite} {origin : Str}
    (hwrites : ∀ write ∈ writes, write.mutation.area = .Session ∧
      storageOrigin urlParse write.sourceUrl = .ok origin)
    {origins : Origins} (hget : origins.get origin = none)
    (hroom : origins.len < MAX_STORAGE_ORIGINS) :
    (StorageAreaState.default.Admits (operations writes) →
        writes.foldlM (SessionStorage.applyWrite urlParse) ⟨origins⟩ =
          .ok (if Changes .default writes then
            ⟨origins.insert origin (StorageAreaState.default.run (operations writes))⟩
          else ⟨origins⟩)) ∧
      (¬ StorageAreaState.default.Admits (operations writes) → ∃ error,
        writes.foldlM (SessionStorage.applyWrite urlParse) ⟨origins⟩ = .error error) := by
  induction writes with
  | nil => exact ⟨fun _ => rfl, fun h => absurd trivial h⟩
  | cons write writes ih =>
    obtain ⟨⟨harea, horigin⟩, hrest⟩ := List.forall_mem_cons.mp hwrites
    have hmap : origins.area origin = .default := by simp [Origins.area, hget]
    rw [List.foldlM_cons, applyWrite_eq harea horigin, operations_cons, hmap, Origins.applyToOrigin,
      hget]
    simp only [if_neg (Nat.not_le.mpr hroom), changes_cons]
    cases happly : StorageAreaState.default.apply
        { write.mutation with expectedVersion := StorageAreaState.default.version } with
    | error error =>
      refine ⟨fun hadmits => ?_, fun _ => ⟨error, rfl⟩⟩
      have htaken := hadmits.1.apply write.mutation.area
      rw [StorageWrite.operation, happly] at htaken
      cases htaken
    | ok result =>
      obtain ⟨after, changed⟩ := result
      have htakes : StorageAreaState.default.Takes write.operation := by
        have htaken := StorageAreaState.takes_of_apply happly
        exact htaken
      have hafter : after = StorageAreaState.default.after write.operation :=
        (StorageAreaState.apply_ok happly).2.2.2.1
      have hchanged : changed = StorageAreaState.default.operationChanges write.operation :=
        (StorageAreaState.apply_ok happly).2.2.1
      cases changed with
      | true =>
        have htail := foldlM_applyWrite_of_some hrest (OrdMap.get_insert_self origins origin after)
        rw [OrdMap.insert_insert, hafter] at htail
        refine ⟨fun hadmits => ?_, fun hrefused => ?_⟩
        · rw [if_pos (Or.inl hchanged.symm)]
          exact hafter ▸ htail.1 hadmits.2
        · have hlater := htail.2 fun hadmits => hrefused ⟨htakes, hadmits⟩
          exact hafter ▸ hlater
      | false =>
        -- the map is still the empty one, and the origin still has none of its own
        have hsame : StorageAreaState.default.after write.operation = .default := by
          rw [StorageAreaState.after, ← hchanged]
          rfl
        obtain ⟨hok, herror⟩ := ih hrest
        rw [← hchanged, hsame, StorageAreaState.run_cons, hsame]
        simp only [Bool.false_eq_true, false_or]
        refine ⟨fun hadmits => hok (hsame ▸ hadmits.2), fun hrefused => ?_⟩
        exact herror fun hadmits => hrefused ⟨htakes, hsame.symm ▸ hadmits⟩

/-- The coordinator leaves what the writes one after the other leave. -/
def Agreeing (urlParse : Str → Option Url) (session : SessionStorage) :
    List StorageWrite → Prop
  | [] => True
  | first :: rest => ∀ origin, storageOrigin urlParse first.sourceUrl = .ok origin →
      (session.origins.get origin).isSome ∨
        ¬ StorageAreaState.default.Admits (operations (first :: rest)) ∨
        (session.origins.len < MAX_STORAGE_ORIGINS ∧ Changes .default (first :: rest))

private theorem insert_ne_of_none {origins : Origins} {origin : Str} (area : StorageAreaState)
    (h : origins.get origin = none) :
    (⟨origins.insert origin area⟩ : SessionStorage) ≠ ⟨origins⟩ := by
  intro heq
  have hget := congrArg (fun storage : SessionStorage => storage.origins.get origin) heq
  simp [h] at hget

/-- A batch of session writes that the coordinator takes leaves what the single writes leave
exactly when its origin has a map already, or it is refused, or there is room for one more
origin and one of the writes changes something. -/
theorem session_paths_agree_iff {persist : Persist} {hub hub' : StorageCoordinator} {source : Nat}
    {writes : List StorageWrite} {session session' : SessionStorage}
    (hareas : ∀ write ∈ writes, write.mutation.area = .Session)
    (htaken : hub.apply urlParse persist source writes session = (hub', session', .ok true)) :
    session' = session.applyWrites urlParse writes ↔ Agreeing urlParse session writes := by
  cases writes with
  | nil =>
    simp only [StorageCoordinator.apply, Prod.mk.injEq] at htaken
    obtain ⟨-, rfl, -⟩ := htaken
    exact iff_of_true rfl trivial
  | cons first rest =>
    obtain ⟨origin, hwrites, hadmitted, hrefused⟩ :=
      apply_session (hareas first List.mem_cons_self) htaken
    have horigin := (hwrites first List.mem_cons_self).2
    have hagreeing : Agreeing urlParse session (first :: rest) ↔
        (session.origins.get origin).isSome ∨
          ¬ StorageAreaState.default.Admits (operations (first :: rest)) ∨
          (session.origins.len < MAX_STORAGE_ORIGINS ∧ Changes .default (first :: rest)) := by
      simp [Agreeing, horigin]
    rw [hagreeing]
    cases hget : session.origins.get origin with
    | some area =>
      have hmap : session.origins.area origin = area := by simp [Origins.area, hget]
      have hsingle := foldlM_applyWrite_of_some hwrites hget
      rw [hmap] at hadmitted hrefused
      refine iff_of_true ?_ (Or.inl rfl)
      rw [SessionStorage.applyWrites]
      by_cases hadmits : area.Admits (operations (first :: rest))
      · rw [hadmitted hadmits, hsingle.1 hadmits]
      · obtain ⟨error, herror⟩ := hsingle.2 hadmits
        rw [hrefused hadmits, herror]
    | none =>
      have hmap : session.origins.area origin = .default := by simp [Origins.area, hget]
      rw [hmap] at hadmitted hrefused
      simp only [Option.isSome_none, Bool.false_eq_true, false_or]
      rw [SessionStorage.applyWrites]
      by_cases hroom : session.origins.len < MAX_STORAGE_ORIGINS
      · have hsingle := foldlM_applyWrite_of_none hwrites hget hroom
        by_cases hadmits : StorageAreaState.default.Admits (operations (first :: rest))
        · rw [hadmitted hadmits, hsingle.1 hadmits]
          by_cases hchanges : Changes .default (first :: rest)
          · simp [hchanges, hroom]
          · simp only [hchanges, if_false, hadmits, not_true_eq_false, and_false, or_false, iff_false]
            exact insert_ne_of_none _ hget
        · obtain ⟨error, herror⟩ := hsingle.2 hadmits
          rw [hrefused hadmits, herror]
          exact iff_of_true rfl (Or.inl hadmits)
      · -- the store is full: the first of the single writes already fails
        have hfull : ∃ error, (first :: rest).foldlM (SessionStorage.applyWrite urlParse) session =
            .error error := by
          refine ⟨.QuotaExceeded, ?_⟩
          rw [List.foldlM_cons, applyWrite_eq (hwrites first List.mem_cons_self).1 horigin,
            Origins.applyToOrigin, hget]
          simp only [if_pos (Nat.not_lt.mp hroom)]
          rfl
        obtain ⟨error, herror⟩ := hfull
        rw [herror]
        by_cases hadmits : StorageAreaState.default.Admits (operations (first :: rest))
        · rw [hadmitted hadmits]
          simp only [hadmits, not_true_eq_false, hroom, false_and, or_false, iff_false]
          exact insert_ne_of_none _ hget
        · rw [hrefused hadmits]
          exact iff_of_true rfl (Or.inl hadmits)

def sampleSessionWrite (operation : StorageOperation) : StorageWrite :=
  ⟨1, sampleUrl, ⟨.Session, 1, operation⟩⟩

/-- A write to a new origin of an empty store. -/
theorem session_paths_agree_sample :
    (sampleHub.apply sampleParse (fun _ => .ok ()) 0
        [sampleSessionWrite (.Set (sampleString 97) (sampleString 98))] ⟨OrdMap.empty⟩).2.1 =
      SessionStorage.applyWrites sampleParse ⟨OrdMap.empty⟩
        [sampleSessionWrite (.Set (sampleString 97) (sampleString 98))] := by
  have hresult : (sampleHub.apply sampleParse (fun _ => .ok ()) 0
      [sampleSessionWrite (.Set (sampleString 97) (sampleString 98))] ⟨OrdMap.empty⟩).2.2 =
        .ok true := by
    decide
  refine (session_paths_agree_iff (by decide) (Prod.ext rfl (Prod.ext rfl hresult))).mpr ?_
  intro origin _
  exact Or.inr (Or.inr ⟨by decide, by decide⟩)

/-- Removing a missing key through the coordinator creates an origin. -/
theorem session_paths_diverge :
    let writes := [sampleSessionWrite (.Remove (sampleString 97))]
    let taken := sampleHub.apply sampleParse (fun _ => .ok ()) 0 writes ⟨OrdMap.empty⟩
    taken.2.2 = .ok true ∧ taken.2.1.origins.len = 1 ∧
      (SessionStorage.applyWrites sampleParse ⟨OrdMap.empty⟩ writes).origins.len = 0 := by
  decide

end StorageCoordinator

end BetterWebBrowser.Storage
