import BetterWebBrowser.Framework.Transition
import BetterWebBrowser.Storage.BatchRun
import BetterWebBrowser.Storage.Persistence
import Mathlib.Algebra.Order.BigOperators.Group.List
import Mathlib.Algebra.Order.Group.Nat

/-!
# Durable storage

Runs of batches on a store with a file: whatever state they reach can be written, and what is
written is read again.
-/

namespace BetterWebBrowser.Storage

open Framework Navigation

/-! ## Counting changes -/

namespace StorageAreaState

/-- How many of the operations change the map. -/
def changeCount (area : StorageAreaState) : List StorageOperation → Nat
  | [] => 0
  | operation :: operations =>
    (if area.operationChanges operation then 1 else 0) + (area.after operation).changeCount operations

/-- The version counts the changes. -/
theorem run_version (area : StorageAreaState) (operations : List StorageOperation) :
    (area.run operations).version = area.version + area.changeCount operations := by
  induction operations generalizing area with
  | nil => rfl
  | cons operation operations ih =>
    rw [run_cons, ih, after_version, changeCount, Nat.add_assoc]

end StorageAreaState

namespace LocalStorage

variable {urlParse : Str → Option Url} {origin : Str} {origins origins' : Origins}

/-- A new area takes one place more. -/
theorem applyToOrigin_len {mutation : StorageMutation} {changed : Bool}
    (h : origins.applyToOrigin origin mutation = .ok (origins', changed))
    (hlen : origins.len ≤ MAX_STORAGE_ORIGINS) : origins'.len ≤ MAX_STORAGE_ORIGINS := by
  rw [Origins.applyToOrigin] at h
  rw [OrdMap.len_eq_weight] at hlen ⊢
  split at h
  next area hget =>
    split at h
    next => cases h
    next area' changed' happly =>
      cases h
      have hsum := OrdMap.weight_insert_of_some (fun _ _ => 1) area' hget
      omega
  next hget =>
    split at h
    next => cases h
    next hroom =>
      split at h
      next => cases h
      next area' changed' happly =>
        cases h
        rw [OrdMap.len_eq_weight] at hroom
        split
        next =>
          rw [OrdMap.weight_insert_of_none _ _ hget]
          omega
        next => exact hlen

/-- What a loop that succeeds keeps, and what it counts. -/
theorem transactLoop_kept {mutations : List StorageMutation} {changed changed' : Bool}
    {records records' : List StorageChange}
    (h : transactLoop origin origins changed records mutations = (origins', .ok (changed', records'))) :
    (origins.Valid → origins'.Valid) ∧
      (origins.len ≤ MAX_STORAGE_ORIGINS → origins'.len ≤ MAX_STORAGE_ORIGINS) ∧
        records'.length =
          records.length + (origins.area origin).changeCount (mutations.map StorageMutation.operation) ∧
        (changed' = false → origins' = origins ∧ changed = false) := by
  induction mutations generalizing origins changed records with
  | nil =>
    cases h
    exact ⟨id, id, rfl, fun hfalse => ⟨rfl, hfalse⟩⟩
  | cons mutation mutations ih =>
    rw [transactLoop] at h
    cases happly : origins.applyToOrigin origin mutation with
    | error error =>
      rw [happly] at h
      cases h
    | ok result =>
      obtain ⟨next, flag⟩ := result
      obtain ⟨hstep, -, hsame⟩ := Origins.applyToOrigin_ok happly
      obtain ⟨-, -, hflag, harea, -⟩ := StorageAreaState.apply_ok hstep
      rw [List.map_cons, StorageAreaState.changeCount, ← hflag, ← harea]
      cases flag with
      | true =>
        rw [happly] at h
        obtain ⟨hvalid, hlen, hcount, hunchanged⟩ := ih h
        refine ⟨fun hv => hvalid (Origins.applyToOrigin_valid hv happly),
          fun hl => hlen (applyToOrigin_len happly hl), ?_, ?_⟩
        · rw [hcount, List.length_append, List.length_singleton, if_pos rfl, Nat.add_assoc]
        · intro hfalse
          cases (hunchanged hfalse).2
      | false =>
        rw [happly] at h
        obtain ⟨hvalid, hlen, hcount, hunchanged⟩ := ih h
        refine ⟨fun hv => hvalid (Origins.applyToOrigin_valid hv happly),
          fun hl => hlen (applyToOrigin_len happly hl), ?_, ?_⟩
        · rw [hcount, if_neg Bool.false_ne_true, Nat.zero_add]
        · intro hfalse
          exact ⟨(hunchanged hfalse).1.trans (hsame rfl), (hunchanged hfalse).2⟩

theorem rollBack_ne_ok {storage' : LocalStorage} {previous : Option StorageAreaState} {error : StorageError}
    {result : Bool × List StorageChange} : rollBack origins origin previous error ≠ (storage', .ok result) := by
  cases error <;> exact fun h => by cases h

/-- A transaction that succeeds is its loop, persisted if something changed. -/
theorem transact_ok {persist : Persist} {storage storage' : LocalStorage} {url : Str}
    {mutations : List StorageMutation} {result : Bool × List StorageChange}
    (h : transact urlParse persist storage url mutations = (storage', .ok result)) :
    ∃ origin, storageOrigin urlParse url = .ok origin ∧
      transactLoop origin storage.origins false [] mutations = (storage'.origins, .ok result) ∧
        (result.1 = true → persist storage' = .ok ()) := by
  rw [transact] at h
  split at h
  next => cases h
  next =>
    split at h
    next => cases h
    next origin horigin =>
      refine ⟨origin, horigin, ?_⟩
      split at h
      next => exact absurd h rollBack_ne_ok
      next origins changed records hloop =>
        rw [hloop]
        split at h
        next hchanged =>
          split at h
          next => exact absurd h rollBack_ne_ok
          next hpersist =>
            cases h
            exact ⟨rfl, fun _ => hpersist⟩
        next hchanged =>
          cases h
          exact ⟨rfl, fun htrue => absurd htrue hchanged⟩

/-! ## Runs of batches -/

/-- A batch of mutations from a document; `disk` is what the file system makes of the bytes. -/
structure Batch where
  url : Str
  mutations : List StorageMutation
  disk : List UInt8 → StorageResult Unit

/-- A store with a file writes its whole state. -/
def persistTo (disk : List UInt8 → StorageResult Unit) : Persist := fun storage =>
  match encode storage.origins with
  | .error error => .error error
  | .ok bytes => disk bytes

/-- A store in memory has nothing to write. -/
def inMemory : Persist := fun _ => .ok ()

/-- A batch on a store with a file, with its result. -/
def Applied (urlParse : Str → Option Url) (storage : LocalStorage)
    (label : Batch × StorageResult (Bool × List StorageChange)) (storage' : LocalStorage) : Prop :=
  transact urlParse (persistTo label.1.disk) storage label.1.url label.1.mutations = (storage', label.2)

def empty : LocalStorage := ⟨OrdMap.empty⟩

/-- The invariant of a store with a file. -/
structure IsDurable (urlParse : Str → Option Url) (storage : LocalStorage) : Prop where
  valid : storage.origins.Valid
  len_le : storage.origins.len ≤ MAX_STORAGE_ORIGINS
  named : ∀ origin area, storage.origins.get origin = some area →
    storageOrigin urlParse (origin ++ ['/']) = .ok origin
  encoded : ∃ bytes, encode storage.origins = .ok bytes

theorem empty_isDurable : empty.IsDurable urlParse where
  valid _ _ h := by cases h
  len_le := Nat.zero_le _
  named _ _ h := by cases h
  encoded := ⟨_, by
    rw [encode, if_neg]
    decide⟩

theorem IsDurable.applied (hrules : OriginRules urlParse) {storage storage' : LocalStorage}
    {label : Batch × StorageResult (Bool × List StorageChange)} (hdurable : storage.IsDurable urlParse)
    (h : Applied urlParse storage label storage') : storage'.IsDurable urlParse := by
  obtain ⟨batch, result⟩ := label
  cases result with
  | error error =>
    rw [transact_error h]
    exact hdurable
  | ok result =>
    obtain ⟨changed, records⟩ := result
    obtain ⟨origin, horigin, hloop, hpersist⟩ := transact_ok h
    obtain ⟨hvalid, hlen, -, hunchanged⟩ := transactLoop_kept hloop
    obtain ⟨-, -, hothers⟩ := transactLoop_ok hloop
    refine ⟨hvalid hdurable.valid, hlen hdurable.len_le, ?_, ?_⟩
    · intro other area hget
      by_cases hother : other = origin
      · rw [hother]
        exact storageOrigin_reparse hrules horigin
      · rw [hothers other hother] at hget
        exact hdurable.named other area hget
    · cases changed with
      | false =>
        rw [(hunchanged rfl).1]
        exact hdurable.encoded
      | true =>
        have hwritten := hpersist rfl
        rw [persistTo] at hwritten
        split at hwritten
        next => cases hwritten
        next bytes hencode => exact ⟨bytes, hencode⟩

/-- A batch that succeeds counts its changes, and one that fails changes nothing. -/
theorem applied_counts {storage storage' : LocalStorage} {batch : Batch}
    {result : StorageResult (Bool × List StorageChange)} (h : Applied urlParse storage (batch, result) storage') :
    (∀ error, result = .error error → storage' = storage) ∧
      ∀ changed records, result = .ok (changed, records) → ∃ origin, storageOrigin urlParse batch.url = .ok origin ∧
        (storage'.origins.area origin).version = (storage.origins.area origin).version +
          (storage.origins.area origin).changeCount (batch.mutations.map StorageMutation.operation) ∧
        records.length = (storage.origins.area origin).changeCount (batch.mutations.map StorageMutation.operation) ∧
        ∀ other, other ≠ origin → storage'.origins.get other = storage.origins.get other := by
  constructor
  · rintro error rfl
    exact transact_error h
  · rintro changed records rfl
    obtain ⟨origin, horigin, hloop, -⟩ := transact_ok h
    obtain ⟨-, -, hcount, -⟩ := transactLoop_kept hloop
    obtain ⟨hrun, -, hothers⟩ := transactLoop_ok hloop
    refine ⟨origin, horigin, ?_, hcount.trans (Nat.zero_add _), hothers⟩
    rw [hrun, StorageAreaState.run_version]

/-- Whatever a store with a file has come to can be written and is read again; its areas keep their
quotas, versions count changes, and a batch that fails changes nothing. -/
theorem durable_storage (hrules : OriginRules urlParse)
    {labels : List (Batch × StorageResult (Bool × List StorageChange))} {storage : LocalStorage}
    (hrun : Run (Applied urlParse) empty labels storage) :
    (∃ bytes, encode storage.origins = .ok bytes ∧
        ∀ fromSlice, fromSlice bytes = .ok (PersistedStorage.fromState storage.origins) →
          ∀ backup, load urlParse fromSlice (.ok (some bytes)) backup = .ok storage.origins) ∧
      (∀ origin area, storage.origins.get origin = some area →
        area.entries.len ≤ MAX_STORAGE_ENTRIES_PER_ORIGIN ∧ area.byteLen ≤ MAX_STORAGE_BYTES_PER_ORIGIN) ∧
      ∀ batch result storage', Applied urlParse storage (batch, result) storage' →
        (∀ error, result = .error error → storage' = storage) ∧
          ∀ changed records, result = .ok (changed, records) →
            ∃ origin, storageOrigin urlParse batch.url = .ok origin ∧
              (storage'.origins.area origin).version = (storage.origins.area origin).version +
                (storage.origins.area origin).changeCount (batch.mutations.map StorageMutation.operation) ∧
              records.length =
                (storage.origins.area origin).changeCount (batch.mutations.map StorageMutation.operation) ∧
              ∀ other, other ≠ origin → storage'.origins.get other = storage.origins.get other := by
  have hdurable : storage.IsDurable urlParse :=
    hrun.invariant (IsDurable urlParse) empty_isDurable fun _ _ _ hdurable happlied =>
      hdurable.applied hrules happlied
  refine ⟨?_, ?_, fun batch result storage' happlied => applied_counts happlied⟩
  · obtain ⟨bytes, hencode⟩ := hdurable.encoded
    refine ⟨bytes, hencode, ?_⟩
    intro fromSlice hread backup
    have hrestorable : ∀ entry ∈ storage.origins.entries, Restorable urlParse entry := by
      intro entry hentry
      have hget := (OrdMap.mem_entries_iff_get storage.origins entry.1 entry.2).mp hentry
      exact ⟨hdurable.named _ _ hget, hdurable.valid _ _ hget⟩
    exact load_encode hrestorable hdurable.len_le hencode hread backup
  · intro origin area hget
    have hvalid := hdurable.valid origin area hget
    exact ⟨hvalid.len_le, hvalid.byteLen_le⟩

/-! ## Stores in memory -/

/-- A batch on a store in memory, with its result. -/
def AppliedInMemory (urlParse : Str → Option Url) (storage : LocalStorage)
    (label : (Str × List StorageMutation) × StorageResult (Bool × List StorageChange))
    (storage' : LocalStorage) : Prop :=
  transact urlParse inMemory storage label.1.1 label.1.2 = (storage', label.2)

private def letterUrl (letter : Char) : Url :=
  ⟨"http".toList, [], none, some (.Domain [letter]), some 80, ['/'], none, "http://".toList ++ [letter, '/']⟩

private def letterInput (letter : Char) : Str := "http://".toList ++ [letter, '/']

private def letterOrigin (letter : Char) : Str := "http://".toList ++ [letter]

private def letters : List Char := ['a', 'b', 'c']

/-- A parser of three URLs. -/
private def letterParse (input : Str) : Option Url :=
  (letters.find? fun letter => input = letterInput letter).map letterUrl

private theorem letterParse_cases {input : Str} {parsed : Url} (h : letterParse input = some parsed) :
    ∃ letter ∈ letters, input = letterInput letter ∧ parsed = letterUrl letter := by
  obtain ⟨letter, hfind, rfl⟩ := Option.map_eq_some_iff.mp h
  exact ⟨letter, List.mem_of_find?_eq_some hfind, by simpa using List.find?_some hfind, rfl⟩

private theorem ofUrl_letterUrl (letter : Char) :
    ParsedUrl.ofUrl (letterUrl letter) = some ⟨"http".toList, [letter], 80, ['/']⟩ := rfl

private theorem letter_rules : OriginRules letterParse where
  host hparsed hurl := by
    obtain ⟨letter, hletter, -, rfl⟩ := letterParse_cases hparsed
    cases (ofUrl_letterUrl letter).symm.trans hurl
    simp only [letters, List.mem_cons, List.not_mem_nil, or_false] at hletter
    rcases hletter with rfl | rfl | rfl <;> decide
  path hparsed hurl := by
    obtain ⟨letter, -, -, rfl⟩ := letterParse_cases hparsed
    cases (ofUrl_letterUrl letter).symm.trans hurl
    exact ⟨[], rfl⟩
  reparse hparsed _ hurl := by
    obtain ⟨letter, hletter, -, rfl⟩ := letterParse_cases hparsed
    cases (ofUrl_letterUrl letter).symm.trans hurl
    refine ⟨letterUrl letter, ?_, rfl, rfl⟩
    simp only [letters, List.mem_cons, List.not_mem_nil, or_false] at hletter
    rcases hletter with rfl | rfl | rfl <;> decide

/-- `length` control characters. -/
private def controls (length : Nat) : StorageString := ⟨List.replicate length 1⟩

private theorem byteLen_controls (length : Nat) : (controls length).byteLen = length := by
  have hbytes : ∀ precedingHigh, StorageString.quotaBytesAfter precedingHigh (List.replicate length 1) = length := by
    induction length with
    | zero => exact fun _ => rfl
    | succ length ih =>
      intro precedingHigh
      rw [List.replicate_succ, StorageString.quotaBytesAfter, if_pos (by decide), ih, Nat.add_comm]
  exact hbytes false

private def setControls (length : Nat) : StorageMutation := ⟨.Local, 1, .Set ⟨[]⟩ (controls length)⟩

private def controlArea (length : Nat) : StorageAreaState := ⟨2, OrdMap.empty.insert ⟨[]⟩ (controls length)⟩

private theorem apply_setControls {length : Nat} (h : length ≤ MAX_STORAGE_BYTES_PER_ORIGIN) :
    StorageAreaState.default.apply (setControls length) = .ok (controlArea length, true) := by
  have hbytes : validateBytes length = .ok () := if_neg (not_lt.mpr h)
  have hkey : StorageString.byteLen ⟨[]⟩ = 0 := rfl
  have hvalid : (setControls length).validate = .ok () := by
    rw [setControls, StorageMutation.validate, if_neg Nat.one_ne_zero]
    dsimp only
    rw [byteLen_controls, hkey, Nat.zero_add, hbytes]
  have hcheck : StorageAreaState.default.checkSet ⟨[]⟩ (controls length) = .ok () := by
    rw [StorageAreaState.checkSet, if_neg (by decide), byteLen_controls, hkey]
    exact (congrArg validateBytes (Nat.zero_add length)).trans hbytes
  have hoperation : StorageAreaState.default.applyOperation (.Set ⟨[]⟩ (controls length)) =
      .ok (controlArea length, true) := by
    rw [StorageAreaState.applyOperation, if_neg (by exact fun h => by cases h), hcheck]
    rfl
  rw [StorageAreaState.apply, hvalid]
  dsimp only
  have hversion : (setControls length).expectedVersion = StorageAreaState.default.version := rfl
  rw [if_neg (not_not.mpr hversion), if_neg (fun hlast => absurd hlast.1 (by decide))]
  exact hoperation

private theorem transact_setControls {length : Nat} (h : length ≤ MAX_STORAGE_BYTES_PER_ORIGIN) {persist : Persist}
    {origins : Origins} {letter : Char} (hletter : letter ∈ letters)
    (hnew : origins.get (letterOrigin letter) = none) (hroom : origins.len < MAX_STORAGE_ORIGINS)
    (hpersist : persist ⟨origins.insert (letterOrigin letter) (controlArea length)⟩ = .ok ()) :
    ∃ records, transact letterParse persist ⟨origins⟩ (letterInput letter) [setControls length] =
      (⟨origins.insert (letterOrigin letter) (controlArea length)⟩, .ok (true, records)) := by
  have horigin : storageOrigin letterParse (letterInput letter) = .ok (letterOrigin letter) := by
    simp only [letters, List.mem_cons, List.not_mem_nil, or_false] at hletter
    rcases hletter with rfl | rfl | rfl <;> decide
  have happly : origins.applyToOrigin (letterOrigin letter) (setControls length) =
      .ok (origins.insert (letterOrigin letter) (controlArea length), true) := by
    rw [Origins.applyToOrigin, hnew]
    dsimp only
    rw [if_neg (not_le.mpr hroom), apply_setControls h]
    rfl
  have hloop : ∃ records, transactLoop (letterOrigin letter) origins false [] [setControls length] =
      (origins.insert (letterOrigin letter) (controlArea length), .ok (true, records)) := by
    rw [transactLoop, happly]
    exact ⟨_, rfl⟩
  obtain ⟨records, hloop⟩ := hloop
  refine ⟨records, ?_⟩
  rw [transact, if_neg (by simp [setControls]), horigin]
  dsimp only
  rw [hloop]
  dsimp only
  rw [if_pos rfl, hpersist]

/-! ### A file that is too long -/

theorem sum_le_commas (items : List Str) : (items.map Str.byteLen).sum ≤ Str.byteLen (SerdeJson.commas items) := by
  induction items with
  | nil => exact Nat.zero_le _
  | cons item items ih =>
    rw [SerdeJson.commas] at ih ⊢
    cases items with
    | nil => simp [List.intercalate]
    | cons next items =>
      rw [List.map_cons, List.sum_cons, List.intercalate_cons_cons, Str.byteLen_append, Str.byteLen_append]
      omega

theorem sum_le_array (items : List Str) : (items.map Str.byteLen).sum ≤ Str.byteLen (SerdeJson.array items) := by
  have hcommas := sum_le_commas items
  rw [SerdeJson.array, List.cons_append, Str.byteLen_cons, Str.byteLen_append]
  omega

theorem field_le_struct {fields : List (String × Str)} {field : String × Str} (h : field ∈ fields) :
    Str.byteLen field.2 ≤ Str.byteLen (SerdeJson.struct fields) := by
  have hmem : SerdeJson.string field.1.toList ++ ':' :: field.2 ∈
      fields.map fun field => SerdeJson.string field.1.toList ++ ':' :: field.2 := List.mem_map_of_mem h
  have hitem := List.le_sum_of_mem (List.mem_map_of_mem (f := Str.byteLen) hmem)
  have hcommas := sum_le_commas (fields.map fun field => SerdeJson.string field.1.toList ++ ':' :: field.2)
  rw [Str.byteLen_append, Str.byteLen_cons] at hitem
  rw [SerdeJson.struct, List.cons_append, Str.byteLen_cons, Str.byteLen_append]
  omega

/-- A control character takes six bytes of a JSON string. -/
private theorem controls_json (length : Nat) : 6 * length ≤ Str.byteLen (controls length).serialize.json := by
  have hencode : Utf16.encode (List.replicate length (Char.ofNat 1)) = List.replicate length 1 := by
    induction length with
    | zero => rfl
    | succ length ih =>
      rw [List.replicate_succ, Utf16.encode_cons, ih, List.replicate_succ]
      rfl
  have hserialize : (controls length).serialize = .Text (List.replicate length (Char.ofNat 1)) := by
    rw [StorageString.serialize, controls, ← hencode, Utf16.decode_encode]
  have hescape : Str.byteLen ((List.replicate length (Char.ofNat 1)).flatMap SerdeJson.escape) = 6 * length := by
    have hone : Str.byteLen (SerdeJson.escape (Char.ofNat 1)) = 6 := by decide
    clear hencode hserialize
    induction length with
    | zero => rfl
    | succ length ih =>
      rw [List.replicate_succ, List.flatMap_cons, Str.byteLen_append, ih, hone]
      omega
  rw [hserialize, StoredString.json, SerdeJson.string, List.cons_append, Str.byteLen_cons, Str.byteLen_append, hescape]
  omega

private theorem controlArea_json (origin : Str) (length : Nat) :
    6 * length ≤ Str.byteLen (PersistedOrigin.fromArea origin (controlArea length)).json := by
  have hentry : Str.byteLen (controls length).serialize.json ≤
      Str.byteLen (SerdeJson.array [StoredString.json (StorageString.serialize ⟨[]⟩), (controls length).serialize.json]) := by
    have hsum := sum_le_array [StoredString.json (StorageString.serialize ⟨[]⟩), (controls length).serialize.json]
    simp only [List.map_cons, List.map_nil, List.sum_cons, List.sum_nil] at hsum
    omega
  have hentries := sum_le_array
    [SerdeJson.array [StoredString.json (StorageString.serialize ⟨[]⟩), (controls length).serialize.json]]
  simp only [List.map_cons, List.map_nil, List.sum_cons, List.sum_nil] at hentries
  have hfield : Str.byteLen (SerdeJson.array
      [SerdeJson.array [StoredString.json (StorageString.serialize ⟨[]⟩), (controls length).serialize.json]]) ≤
        Str.byteLen (PersistedOrigin.fromArea origin (controlArea length)).json := by
    refine @field_le_struct _ ("entries", _) ?_
    exact List.mem_cons_of_mem _ (List.mem_cons_of_mem _ (List.mem_singleton.mpr rfl))
  have hcontrols := controls_json length
  omega

private def controlOrigins (length : Nat) : Origins :=
  ((OrdMap.empty.insert (letterOrigin 'a') (controlArea length)).insert (letterOrigin 'b')
    (controlArea length)).insert (letterOrigin 'c') (controlArea length)

private theorem encode_controlOrigins {length : Nat} (h : MAX_PERSISTED_STORAGE_BYTES < 18 * length) :
    encode (controlOrigins length) = .error .QuotaExceeded := by
  have hentries : (controlOrigins length).entries = letters.map fun letter => (letterOrigin letter, controlArea length) :=
    rfl
  have horigins := sum_le_array ((controlOrigins length).entries.map fun entry =>
    (PersistedOrigin.fromArea entry.1 entry.2).json)
  have hfield : Str.byteLen (SerdeJson.array ((controlOrigins length).entries.map fun entry =>
      (PersistedOrigin.fromArea entry.1 entry.2).json)) ≤
        Str.byteLen (PersistedStorage.fromState (controlOrigins length)).json := by
    refine @field_le_struct _ ("origins", _) ?_
    rw [PersistedStorage.fromState, List.map_map]
    exact List.mem_cons_of_mem _ (List.mem_singleton.mpr rfl)
  rw [hentries] at horigins
  simp only [letters, List.map_cons, List.map_nil, List.sum_cons, List.sum_nil] at horigins
  have ha := controlArea_json (letterOrigin 'a') length
  have hb := controlArea_json (letterOrigin 'b') length
  have hc := controlArea_json (letterOrigin 'c') length
  rw [hentries] at hfield
  simp only [letters, List.map_cons, List.map_nil] at hfield
  rw [encode, if_pos]
  rw [Str.length_utf8]
  omega

/-- Three origins that keep their quotas do not fit a file. -/
theorem memory_not_encodable :
    OriginRules letterParse ∧ ∃ labels storage, Run (AppliedInMemory letterParse) empty labels storage ∧
      encode storage.origins = .error .QuotaExceeded := by
  refine ⟨letter_rules, ?_⟩
  have hfull : MAX_PERSISTED_STORAGE_BYTES < 18 * MAX_STORAGE_BYTES_PER_ORIGIN := by decide
  generalize hlength : MAX_STORAGE_BYTES_PER_ORIGIN = length at hfull
  have hbound : length ≤ MAX_STORAGE_BYTES_PER_ORIGIN := hlength.ge
  let first : Origins := OrdMap.empty.insert (letterOrigin 'a') (controlArea length)
  let second : Origins := first.insert (letterOrigin 'b') (controlArea length)
  obtain ⟨recordsA, ha⟩ := @transact_setControls length hbound inMemory OrdMap.empty 'a' (by decide) rfl
    (by decide : (0 : Nat) < 256) rfl
  obtain ⟨recordsB, hb⟩ := @transact_setControls length hbound inMemory first 'b' (by decide) rfl
    (by decide : (1 : Nat) < 256) rfl
  obtain ⟨recordsC, hc⟩ := @transact_setControls length hbound inMemory second 'c' (by decide) rfl
    (by decide : (2 : Nat) < 256) rfl
  have hrun : Run (AppliedInMemory letterParse) empty
      [((letterInput 'a', [setControls length]), .ok (true, recordsA)),
        ((letterInput 'b', [setControls length]), .ok (true, recordsB)),
        ((letterInput 'c', [setControls length]), .ok (true, recordsC))] ⟨controlOrigins length⟩ :=
    ((Run.nil.snoc ha).snoc hb).snoc hc
  exact ⟨_, _, hrun, encode_controlOrigins hfull⟩

/-- A control character is stored, written and read again. -/
theorem durable_storage_sample :
    ∃ (storage : LocalStorage) (bytes : List UInt8), encode storage.origins = .ok bytes ∧
      load letterParse (fun _ => .ok (PersistedStorage.fromState storage.origins)) (.ok (some bytes)) (.ok none) =
        .ok storage.origins ∧ storage.origins.get (letterOrigin 'a') = some (controlArea 1) := by
  obtain ⟨written, hencode⟩ : ∃ bytes, encode (OrdMap.empty.insert (letterOrigin 'a') (controlArea 1)) = .ok bytes :=
    ⟨_, by
      rw [encode, if_neg]
      decide⟩
  obtain ⟨records, ha⟩ := @transact_setControls 1 (by decide) (persistTo fun _ => .ok ()) OrdMap.empty 'a' (by decide)
    rfl (by decide) (by rw [persistTo, hencode])
  have hrun : Run (Applied letterParse) empty
      [(⟨letterInput 'a', [setControls 1], fun _ => .ok ()⟩, .ok (true, records))]
      ⟨OrdMap.empty.insert (letterOrigin 'a') (controlArea 1)⟩ := Run.nil.snoc ha
  obtain ⟨⟨bytes, hbytes, hload⟩, -⟩ := durable_storage letter_rules hrun
  exact ⟨_, bytes, hbytes, hload _ rfl (.ok none), rfl⟩

end LocalStorage

end BetterWebBrowser.Storage
