import BetterWebBrowser.IndexedDb.RecordMap

/-!
# Unique indexes

The check of one proposed record against the others keeps what the walk over all records
establishes: the keys of a unique index are all different.
-/

namespace BetterWebBrowser.IndexedDb

open Framework RecordStore

variable {json : SerdeJson} {index : IndexDefinition}

/-! ## The keys of one value -/

theorem Key.cmp_ne_eq_comm {left right : Key} : left.cmp right ≠ .eq ↔ right.cmp left ≠ .eq := by
  rw [ne_eq, ne_eq, ← Key.toClass_eq, ← Key.toClass_eq, eq_comm]

theorem mem_insertKey {key other : Key} {keys : List Key} (h : other ∈ insertKey key keys) :
    other = key ∨ other ∈ keys := by
  induction keys with
  | nil => exact .inl (List.mem_singleton.mp h)
  | cons first keys ih =>
    rw [insertKey] at h
    split at h
    · exact List.mem_cons.mp h
    · exact (List.mem_cons.mp h).imp_right (List.mem_cons_of_mem _)
    · rcases List.mem_cons.mp h with rfl | hrest
      · exact .inr List.mem_cons_self
      · exact (ih hrest).imp_right (List.mem_cons_of_mem _)

theorem insertKey_sorted {key : Key} {keys : List Key} (h : keys.Pairwise (· < ·)) :
    (insertKey key keys).Pairwise (· < ·) := by
  induction keys with
  | nil => exact List.pairwise_singleton _ _
  | cons first keys ih =>
    obtain ⟨hfirst, hrest⟩ := List.pairwise_cons.mp h
    rw [insertKey]
    split
    next hlt =>
      refine List.pairwise_cons.mpr ⟨List.forall_mem_cons.mpr ⟨hlt, ?_⟩, h⟩
      intro other hother
      exact lt_trans (Key.lt_iff.mpr hlt) (hfirst other hother)
    next heq =>
      refine List.pairwise_cons.mpr ⟨?_, hrest⟩
      intro other hother
      rw [Key.lt_iff, Key.cmp_congr heq]
      exact hfirst other hother
    next hgt =>
      refine List.pairwise_cons.mpr ⟨?_, ih hrest⟩
      intro other hother
      rcases mem_insertKey hother with rfl | hmem
      · exact Key.lt_iff_gt.mpr hgt
      · exact hfirst other hmem

theorem keySet_spec (keys : List Key) :
    (keySet keys).Pairwise (· < ·) ∧ ∀ key ∈ keySet keys, key ∈ keys := by
  have hfold : ∀ (keys set : List Key), set.Pairwise (· < ·) →
      (keys.foldl (fun set key => insertKey key set) set).Pairwise (· < ·) ∧
        ∀ key ∈ keys.foldl (fun set key => insertKey key set) set, key ∈ set ∨ key ∈ keys := by
    intro keys
    induction keys with
    | nil => exact fun set hset => ⟨hset, fun key hkey => .inl hkey⟩
    | cons first keys ih =>
      intro set hset
      obtain ⟨hsorted, hmem⟩ := ih _ (insertKey_sorted hset)
      refine ⟨hsorted, ?_⟩
      intro key hkey
      rcases hmem key hkey with hinserted | hrest
      · rcases mem_insertKey hinserted with rfl | hold
        · exact .inr List.mem_cons_self
        · exact .inl hold
      · exact .inr (List.mem_cons_of_mem _ hrest)
  obtain ⟨hsorted, hmem⟩ := hfold keys [] List.Pairwise.nil
  exact ⟨hsorted, fun key hkey => (hmem key hkey).resolve_left List.not_mem_nil⟩

theorem validate_of_isValidKey {key : Key} (h : isValidKey key = true) : key.validate 0 = .ok () := by
  rw [isValidKey] at h
  cases hvalid : key.validate 0 with
  | ok => rfl
  | error error =>
    rw [hvalid] at h
    cases h

/-- The keys of a value are valid, in order and all different. -/
theorem keysForValue_spec (json : SerdeJson) (index : IndexDefinition) (value : Str) :
    (keysForValue json index value).Pairwise (· < ·) ∧
      ∀ key ∈ keysForValue json index value, key.validate 0 = .ok () := by
  have hnone : ([] : List Key).Pairwise (· < ·) ∧ ∀ key ∈ ([] : List Key), key.validate 0 = .ok () :=
    ⟨List.Pairwise.nil, fun _ hmem => absurd hmem List.not_mem_nil⟩
  have hwhole : ∀ value, (wholeKey index value).Pairwise (· < ·) ∧
      ∀ key ∈ wholeKey index value, key.validate 0 = .ok () := by
    intro value
    rw [wholeKey]
    split
    next => exact hnone
    next key _ =>
      split
      next hvalid =>
        refine ⟨List.pairwise_singleton _ _, ?_⟩
        intro other hother
        rw [List.mem_singleton.mp hother]
        exact validate_of_isValidKey hvalid
      next => exact hnone
  rw [keysForValue]
  split
  next => exact hnone
  next clone _ =>
    split
    next path hmulti hpath =>
      split
      next => exact hnone
      next projected _ =>
        split
        next =>
          cases projected.members with
          | none => exact hnone
          | some members =>
            obtain ⟨hsorted, hmem⟩ := keySet_spec
              (((members.filterMap Json.memberValue).filterMap Json.cloneKey).filter isValidKey)
            refine ⟨hsorted, ?_⟩
            intro key hkey
            exact validate_of_isValidKey (List.mem_filter.mp (hmem key hkey)).2
        next => exact hwhole clone
    next => exact hwhole clone

/-! ## All keys of an index -/

/-- Two values have no index key in common. -/
def Apart (json : SerdeJson) (index : IndexDefinition) (value value' : Str) : Prop :=
  ∀ key ∈ keysForValue json index value, ∀ other ∈ keysForValue json index value', key.cmp other ≠ .eq

theorem Apart.symm {value value' : Str} (h : Apart json index value value') :
    Apart json index value' value := fun key hkey other hother =>
  Key.cmp_ne_eq_comm.mp (h other hother key hkey)

theorem insertSeen_ok_iff {seen keys result : List Key} :
    insertSeen seen keys = .ok result ↔ result = keys.reverse ++ seen ∧
      keys.Pairwise (fun key other => key.cmp other ≠ .eq) ∧
      ∀ key ∈ keys, ∀ other ∈ seen, key.cmp other ≠ .eq := by
  induction keys generalizing seen with
  | nil =>
    rw [insertSeen]
    simp [eq_comm]
  | cons key keys ih =>
    rw [insertSeen]
    split
    next hseen =>
      obtain ⟨other, hother, hequal⟩ := List.any_eq_true.mp hseen
      refine iff_of_false (fun h => by cases h) ?_
      rintro ⟨-, -, hfree⟩
      exact hfree key List.mem_cons_self other hother (of_decide_eq_true hequal)
    next hseen =>
      have hfree : ∀ other ∈ seen, key.cmp other ≠ .eq := by
        intro other hother hequal
        exact hseen (List.any_eq_true.mpr ⟨other, hother, decide_eq_true hequal⟩)
      rw [ih, List.reverse_cons, List.append_assoc, List.singleton_append, List.pairwise_cons]
      simp only [List.forall_mem_cons]
      constructor
      · rintro ⟨hresult, hpairs, hrest⟩
        refine ⟨hresult, ⟨?_, hpairs⟩, hfree, fun other hother => (hrest other hother).2⟩
        exact fun other hother => Key.cmp_ne_eq_comm.mp (hrest other hother).1
      · rintro ⟨hresult, ⟨hkey, hpairs⟩, -, hrest⟩
        refine ⟨hresult, hpairs, fun other hother => ⟨?_, hrest other hother⟩⟩
        exact Key.cmp_ne_eq_comm.mp (hkey other hother)

theorem validateUnique_ok_iff {seen : List Key} {records : List Record} :
    validateUnique json index seen records = .ok () ↔
      records.Pairwise (fun record record' => Apart json index record.value record'.value) ∧
      ∀ record ∈ records, ∀ key ∈ keysForValue json index record.value, ∀ other ∈ seen, key.cmp other ≠ .eq := by
  induction records generalizing seen with
  | nil => simp [validateUnique]
  | cons record records ih =>
    have hdistinct : (keysForValue json index record.value).Pairwise fun key other => key.cmp other ≠ .eq := by
      refine (keysForValue_spec json index record.value).1.imp ?_
      intro key other hless hequal
      rw [Key.lt_iff, hequal] at hless
      cases hless
    rw [validateUnique, bind_eq_ok, List.pairwise_cons, List.forall_mem_cons]
    constructor
    · rintro ⟨middle, hinsert, hrest⟩
      obtain ⟨rfl, -, hfree⟩ := insertSeen_ok_iff.mp hinsert
      obtain ⟨hpairs, hseen⟩ := ih.mp hrest
      refine ⟨⟨?_, hpairs⟩, hfree, ?_⟩
      · intro record' hrecord' key hkey other hother
        exact Key.cmp_ne_eq_comm.mp (hseen record' hrecord' other hother key (by simp [hkey]))
      · intro record' hrecord' key hkey other hother
        exact hseen record' hrecord' key hkey other (List.mem_append_right _ hother)
    · rintro ⟨⟨hrecord, hpairs⟩, hfree, hseen⟩
      refine ⟨_, insertSeen_ok_iff.mpr ⟨rfl, hdistinct, hfree⟩, ih.mpr ⟨hpairs, ?_⟩⟩
      intro record' hrecord' key hkey other hother
      rcases List.mem_append.mp hother with hnew | hold
      · exact Key.cmp_ne_eq_comm.mp (hrecord record' hrecord' other (List.mem_reverse.mp hnew) key hkey)
      · exact hseen record' hrecord' key hkey other hold

/-- The keys of every unique index are all different. -/
def AllApart (json : SerdeJson) (indexes : List IndexDefinition) (records : List Record) : Prop :=
  ∀ index ∈ indexes, index.unique = true →
    records.Pairwise fun record record' => Apart json index record.value record'.value

/-- The definitions are checked whatever the records are. -/
theorem validateIndexesFrom_ok_iff {records : List Record} {names : List Str}
    {indexes : List IndexDefinition} :
    validateIndexesFrom json records names indexes = .ok () ↔
      validateIndexesFrom json [] names indexes = .ok () ∧ AllApart json indexes records := by
  induction indexes generalizing names with
  | nil => simp [validateIndexesFrom, AllApart]
  | cons index indexes ih =>
    have hunique : validateRecords json records index = .ok () ↔ (index.unique = true →
        records.Pairwise fun record record' => Apart json index record.value record'.value) := by
      rw [validateRecords]
      cases index.unique with
      | true => simp [validateUnique_ok_iff]
      | false => simp
    have hempty : validateRecords json [] index = .ok () := by
      rw [validateRecords]
      cases index.unique <;> rfl
    rw [validateIndexesFrom, validateIndexesFrom, AllApart, List.forall_mem_cons, hempty]
    constructor
    · intro h
      obtain ⟨⟨⟩, hvalid, h⟩ := bind_eq_ok.mp h
      obtain ⟨hname, h⟩ := failIf_bind_eq_ok.mp h
      obtain ⟨⟨⟩, hrecords, h⟩ := bind_eq_ok.mp h
      obtain ⟨hdefinitions, hall⟩ := ih.mp h
      refine ⟨bind_eq_ok.mpr ⟨(), hvalid, failIf_bind_eq_ok.mpr ⟨hname, hdefinitions⟩⟩, ?_⟩
      exact ⟨hunique.mp hrecords, hall⟩
    · rintro ⟨h, hrecords, hall⟩
      obtain ⟨⟨⟩, hvalid, h⟩ := bind_eq_ok.mp h
      obtain ⟨hname, hdefinitions⟩ := failIf_bind_eq_ok.mp h
      refine bind_eq_ok.mpr ⟨(), hvalid, failIf_bind_eq_ok.mpr ⟨hname, bind_eq_ok.mpr ⟨(), ?_⟩⟩⟩
      exact ⟨hunique.mpr hrecords, ih.mpr ⟨hdefinitions, hall⟩⟩

/-- The check of a proposed record: its keys are not those of another record. -/
theorem checkUniqueIndexValues_ok_iff {store : RecordStore} (hstore : store.Sound) {primary : Key}
    {value : Str} (hprimary : primary.validate 0 = .ok ()) :
    checkUniqueIndexValues json store primary value = .ok () ↔
      ∀ index ∈ store.definition.indexes, index.unique = true → ∀ record ∈ store.records,
        record.key.cmp primary ≠ .eq → Apart json index value record.value := by
  have hcollides : ∀ index, collides json store index primary value = true ↔
      ∃ record ∈ store.records, record.key.cmp primary ≠ .eq ∧ ¬ Apart json index value record.value := by
    intro index
    rw [collides, List.any_eq_true]
    apply exists_congr
    intro record
    rw [List.mem_filter, and_assoc]
    apply and_congr_right
    intro hrecord
    apply and_congr
    · rw [Bool.not_eq_true', ← Bool.not_eq_true, Key.eq_iff_cmp (hstore.valid record hrecord) hprimary]
    · simp only [List.any_eq_true, Apart, not_forall, not_not]
      constructor
      · rintro ⟨key, hkey, other, hother, hequal⟩
        have hcmp := (Key.eq_iff_cmp ((keysForValue_spec json index _).2 other hother)
          ((keysForValue_spec json index _).2 key hkey)).mp hequal
        exact ⟨key, hkey, other, hother, Key.toClass_eq.mp (Key.toClass_eq.mpr hcmp).symm⟩
      · rintro ⟨key, hkey, other, hother, hcmp⟩
        refine ⟨key, hkey, other, hother, ?_⟩
        rw [Key.eq_iff_cmp ((keysForValue_spec json index _).2 other hother)
          ((keysForValue_spec json index _).2 key hkey)]
        exact Key.toClass_eq.mp (Key.toClass_eq.mpr hcmp).symm
  rw [checkUniqueIndexValues, failIf]
  split
  next hany =>
    refine iff_of_false (fun h => by cases h) ?_
    intro hall
    obtain ⟨index, hindex, hcollide⟩ := List.any_eq_true.mp hany
    obtain ⟨hmem, hunique⟩ := List.mem_filter.mp hindex
    obtain ⟨record, hrecord, hother, hcommon⟩ := (hcollides index).mp hcollide
    exact hcommon (hall index hmem hunique record hrecord hother)
  next hnone =>
    refine iff_of_true rfl ?_
    intro index hmem hunique record hrecord hother
    by_contra hcommon
    refine hnone (List.any_eq_true.mpr ⟨index, List.mem_filter.mpr ⟨hmem, hunique⟩, ?_⟩)
    exact (hcollides index).mpr ⟨record, hrecord, hother, hcommon⟩

/-! ## Operations -/

/-- The records of other keys. -/
def others (store : RecordStore) (key : Key) : List Record :=
  store.records.filter fun record => record.key.cmp key ≠ .eq

theorem filter_ne_eq_self {key : Key} {records : List Record}
    (h : ∀ record ∈ records, record.key.cmp key ≠ .eq) :
    (records.filter fun record => record.key.cmp key ≠ .eq) = records := by
  apply List.filter_eq_self.mpr
  intro record hrecord
  exact decide_eq_true (h record hrecord)

/-- A write puts one record among those of other keys. -/
theorem RecordStore.Sound.place_split {store : RecordStore} (h : store.Sound) {key : Key} {value : Str}
    {overwrite : Bool} {records : List Record} (hplace : store.place key value overwrite = .ok records) :
    ∃ front back new, records = front ++ new :: back ∧ new.value = value ∧
      front ++ back = others store key := by
  have hlocated := h.locate key
  rw [place] at hplace
  rw [others]
  generalize store.locate key = place at hlocated hplace
  generalize store.records = all at hlocated hplace ⊢
  cases hlocated with
  | @found front back old hbelow hequal habove =>
    dsimp only at hplace
    split at hplace
    · rw [BinarySearch.modify_at] at hplace
      cases hplace
      refine ⟨front, back, _, rfl, rfl, ?_⟩
      rw [List.filter_append, List.filter_cons_of_neg (by simp [hequal]), filter_ne_eq_self, filter_ne_eq_self]
      · simp +contextual [habove]
      · simp +contextual [hbelow]
    · cases hplace
  | @missing front back hbelow habove =>
    dsimp only at hplace
    rw [BinarySearch.insertIdx_at] at hplace
    cases hplace
    refine ⟨front, back, _, rfl, rfl, ?_⟩
    rw [List.filter_append, filter_ne_eq_self, filter_ne_eq_self]
    · simp +contextual [habove]
    · simp +contextual [hbelow]

/-- After a write, all keys are different exactly if the others are and the check lets it pass. -/
theorem allApart_place_iff {store : RecordStore} (h : store.Sound) {key : Key} {value : Str}
    {overwrite : Bool} {records : List Record} (hkey : key.validate 0 = .ok ())
    (hplace : store.place key value overwrite = .ok records) :
    AllApart json store.definition.indexes records ↔
      AllApart json store.definition.indexes (others store key) ∧
        checkUniqueIndexValues json store key value = .ok () := by
  obtain ⟨front, back, new, rfl, rfl, hothers⟩ := h.place_split hplace
  have hpairwise : ∀ index, (front ++ new :: back).Pairwise
        (fun record record' => Apart json index record.value record'.value) ↔
      (∀ record ∈ others store key, Apart json index new.value record.value) ∧
        (others store key).Pairwise fun record record' => Apart json index record.value record'.value := by
    intro index
    rw [List.pairwise_middle, List.pairwise_cons, hothers]
    intro record record' hapart
    exact Apart.symm hapart
  rw [checkUniqueIndexValues_ok_iff h hkey]
  simp only [AllApart, hpairwise, others, List.mem_filter, decide_eq_true_eq, and_imp]
  constructor
  · intro hall
    exact ⟨fun index hindex hunique => (hall index hindex hunique).2,
      fun index hindex hunique => (hall index hindex hunique).1⟩
  · rintro ⟨hothers, hnew⟩ index hindex hunique
    exact ⟨hnew index hindex hunique, hothers index hindex hunique⟩

theorem validateIndexes_ok_iff {store : RecordStore} :
    validateIndexes json store = .ok () ↔
      validateIndexesFrom json [] [] store.definition.indexes = .ok () ∧
        AllApart json store.definition.indexes store.records :=
  validateIndexesFrom_ok_iff

/-- Fewer records have fewer keys. -/
theorem AllApart.sublist {indexes : List IndexDefinition} {records records' : List Record}
    (h : AllApart json indexes records) (hsublist : records'.Sublist records) :
    AllApart json indexes records' := fun index hindex hunique =>
  List.Pairwise.sublist hsublist (h index hindex hunique)

/-- An operation that succeeds keeps the indexes valid. -/
theorem apply_validateIndexes {store next : RecordStore} (h : store.Sound) {operation : DbOperation}
    {result : DbResult} (hvalid : validateIndexes json store = .ok ())
    (happly : RecordStore.apply json store operation = .ok (result, next)) :
    validateIndexes json next = .ok () := by
  rw [validateIndexes_ok_iff] at hvalid
  obtain ⟨hdefinitions, hall⟩ := hvalid
  cases operation with
  | Put name given value overwrite =>
    obtain ⟨key, generated, nextKey, stored, records, -, hkey, -, hunique, hplace, -, rfl⟩ := put_ok happly
    have hothers := hall.sublist (List.filter_sublist : (others store key).Sublist store.records)
    exact validateIndexes_ok_iff.mpr ⟨hdefinitions, (allApart_place_iff h hkey hplace).mpr ⟨hothers, hunique⟩⟩
  | Delete name key =>
    obtain ⟨⟨⟩, -, hdelete⟩ := bind_eq_ok.mp happly
    cases hdelete
    split
    · exact validateIndexes_ok_iff.mpr ⟨hdefinitions, hall.sublist (List.eraseIdx_sublist _ _)⟩
    · exact validateIndexes_ok_iff.mpr ⟨hdefinitions, hall⟩
  | DeleteRange name range =>
    obtain ⟨⟨⟩, -, hdelete⟩ := bind_eq_ok.mp happly
    cases hdelete
    exact validateIndexes_ok_iff.mpr ⟨hdefinitions, hall.sublist List.filter_sublist⟩
  | Clear name =>
    cases happly
    exact validateIndexes_ok_iff.mpr ⟨hdefinitions, hall.sublist (List.nil_sublist _)⟩
  | Get | GetAll | Scan | Count | IndexGet | IndexGetAll | IndexCount | IndexScan =>
    obtain ⟨-, rfl⟩ := reading_ok happly
    exact validateIndexes_ok_iff.mpr ⟨hdefinitions, hall⟩

/-- A store with sound records and valid indexes. -/
def IndexesHold (json : SerdeJson) (store : RecordStore) : Prop :=
  store.Sound ∧ validateIndexes json store = .ok ()

section Database

variable {encodedLength : List DbResult → Option Nat} {mode : TransactionMode}

theorem applyOne_indexesHold {database next : Database (List Record)} {operation : DbOperation}
    {result : DbResult} (happly : applyOne (recordLayer json encodedLength) mode database operation =
      .ok (result, next)) {name : Str} {store : RecordStore} (hstore : database.stores.get name = some store)
    (hhold : IndexesHold json store) :
    ∃ store', next.stores.get name = some store' ∧ IndexesHold json store' := by
  rw [applyOne] at happly
  split at happly
  · cases happly
  · split at happly
    · cases happly
    next target htarget =>
      obtain ⟨⟨result', target'⟩, hone, happly⟩ := bind_eq_ok.mp happly
      cases happly
      by_cases hname : name = operation.target.1
      · have hsame : target = store := by
          rw [hname] at hstore
          exact Option.some.inj (htarget.symm.trans hstore)
        rw [hsame] at hone
        refine ⟨target', ?_, (hhold.1.apply hone).1, apply_validateIndexes hhold.1 hhold.2 hone⟩
        rw [hname]
        exact OrdMap.get_insert_self _ _ _
      · refine ⟨store, ?_, hhold⟩
        exact (OrdMap.get_insert_ne _ _ hname).trans hstore

theorem apply_indexesHold {database next : Database (List Record)} {operations : List DbOperation}
    {results : List DbResult} (happly : database.apply (recordLayer json encodedLength) mode operations =
      .ok (results, next)) {name : Str} {store : RecordStore} (hstore : database.stores.get name = some store)
    (hhold : IndexesHold json store) :
    ∃ store', next.stores.get name = some store' ∧ IndexesHold json store' := by
  induction operations generalizing database results store with
  | nil =>
    cases happly
    exact ⟨store, hstore, hhold⟩
  | cons operation operations ih =>
    rw [Database.apply] at happly
    obtain ⟨⟨result, middle⟩, hone, happly⟩ := bind_eq_ok.mp happly
    obtain ⟨⟨rest, last⟩, hrest, happly⟩ := bind_eq_ok.mp happly
    cases happly
    obtain ⟨store', hstore', hhold'⟩ := applyOne_indexesHold hone hstore hhold
    exact ih hrest hstore' hhold'

end Database

/-- The incremental check agrees with the walk over all records: lists of operations that a
database accepts keep the indexes valid, and a write is only refused for records that would not
be valid with it. -/
theorem unique_indexes_incremental (json : SerdeJson) (encodedLength : List DbResult → Option Nat) :
    (∀ (mode : TransactionMode) (database next : Database (List Record)) (operations : List DbOperation)
      (results : List DbResult),
      database.apply (recordLayer json encodedLength) mode operations = .ok (results, next) →
        ∀ (name : Str) (store : RecordStore), database.stores.get name = some store → store.Sound →
          validateIndexes json store = .ok () →
            ∃ store' : RecordStore, next.stores.get name = some store' ∧ store'.Sound ∧
              validateIndexes json store' = .ok ()) ∧
      ∀ (store : RecordStore) (key : Key) (value : Str) (overwrite : Bool) (error : DbError),
        store.Sound → key.validate 0 = .ok () →
          overwrite = true ∨ (∀ record ∈ store.records, record.key.cmp key ≠ .eq) →
            checkUniqueIndexValues json store key value = .error error →
              ∃ records, store.place key value overwrite = .ok records ∧
                validateIndexes json { store with records := records } ≠ .ok () := by
  constructor
  · intro mode database next operations results happly name store hstore hsound hvalid
    exact apply_indexesHold happly hstore ⟨hsound, hvalid⟩
  · intro store key value overwrite error hsound hkey hfree hrefused
    have hplaced : overwrite = true ∨ hsound.map.get key.toClass = none := by
      apply hfree.imp_right
      intro hfree
      rw [Option.eq_none_iff_forall_ne_some]
      intro other hother
      obtain ⟨record, hrecord, hclass, -⟩ := hsound.map_get_eq_some.mp hother
      exact hfree record hrecord (Key.toClass_eq.mp hclass)
    obtain ⟨records, hplace⟩ := (hsound.place_total key value overwrite).mpr hplaced
    refine ⟨records, hplace, ?_⟩
    intro hvalid
    have hapart := (validateIndexes_ok_iff.mp hvalid).2
    rw [((allApart_place_iff hsound hkey hplace).mp hapart).2] at hrefused
    cases hrefused

private def echoJson : SerdeJson := ⟨fun text => some (.String text), fun _ => []⟩

private def ownIndex : IndexDefinition := ⟨"i".toList, .Single [], true, false⟩

private def keyOf (number : Nat) : Key := .Number (Double.ofU64 number)

private def echoStore (records : List (Nat × Str)) : RecordStore :=
  ⟨⟨"s".toList, none, false, [ownIndex]⟩, 1, records.map fun record => ⟨keyOf record.1, record.2⟩⟩

private def echoDatabase (records : List (Nat × Str)) : Database (List Record) :=
  ⟨1, 1, OrdMap.empty.insert "s".toList (echoStore records)⟩

private theorem echo_keys {text : Str} (h : Str.byteLen text ≤ MAX_ORIGIN_BYTES) :
    keysForValue echoJson ownIndex text = [.String text] := by
  have hkey : extractPath (.String text) [] = some (.String text) := by
    simp [extractPath, Json.projectPath, Json.cloneKey, Json.asF64, Json.asStr]
  have hvalid : isValidKey (.String text) = true := by
    simp [isValidKey, Key.validate, failIf, h.not_gt, Except.isOk, Except.toBool, bind, Except.bind]
  simp [keysForValue, wholeKey, echoJson, ownIndex, hkey, hvalid]

private theorem echo_sound : (echoStore [(1, "a".toList)]).Sound :=
  ⟨List.pairwise_singleton _ _, by simp [echoStore]; rfl⟩

private theorem echo_valid : validateIndexes echoJson (echoStore [(1, "a".toList)]) = .ok () := by
  refine validateIndexes_ok_iff.mpr ⟨rfl, ?_⟩
  intro index _ _
  exact List.pairwise_singleton _ _

private theorem echo_collides (text : Str) (h : Str.byteLen text ≤ MAX_ORIGIN_BYTES) :
    collides echoJson (echoStore [(1, "a".toList)]) ownIndex (keyOf 2) text = decide (text = "a".toList) := by
  have hkeys : keysForValue echoJson ownIndex "a".toList = [.String "a".toList] := echo_keys (by decide)
  have hother : (keyOf 1).eq (keyOf 2) = false := by decide +kernel
  simp only [collides, echoStore, List.map_cons, List.map_nil, hother, Bool.not_false, List.filter_cons_of_pos,
    List.filter_nil, List.any_cons, List.any_nil, echo_keys h, hkeys, Bool.or_false, Key.eq]
  exact decide_eq_decide.mpr eq_comm

private theorem echo_refused : checkUniqueIndexValues echoJson (echoStore [(1, "a".toList)]) (keyOf 2) "a".toList =
    .error (.Constraint "unique index key already exists") := by
  have hcollides := echo_collides "a".toList (by decide)
  rw [checkUniqueIndexValues, failIf, if_pos]
  exact List.any_eq_true.mpr ⟨ownIndex, List.mem_singleton.mpr rfl, hcollides⟩

private theorem echo_accepted : checkUniqueIndexValues echoJson (echoStore [(1, "a".toList)]) (keyOf 2) "b".toList =
    .ok () := by
  have hcollides := echo_collides "b".toList (by decide)
  rw [checkUniqueIndexValues, failIf, if_neg]
  change ¬ ([ownIndex].any _) = true
  rw [List.any_cons, hcollides]
  decide

/-- A second record may have another text as its index key, but not the same one. -/
theorem unique_indexes_incremental_sample :
    (∃ store : RecordStore, (echoDatabase [(1, "a".toList), (2, "b".toList)]).stores.get "s".toList = some store ∧
        store.Sound ∧ validateIndexes echoJson store = .ok ()) ∧
      ∃ records, (echoStore [(1, "a".toList)]).place (keyOf 2) "a".toList false = .ok records ∧
        validateIndexes echoJson { echoStore [(1, "a".toList)] with records := records } ≠ .ok () := by
  constructor
  · have happly : (echoDatabase [(1, "a".toList)]).apply (recordLayer echoJson fun _ => none) .ReadWrite
        [.Put "s".toList (some (keyOf 2)) "b".toList false] =
          .ok ([.Key (keyOf 2)], echoDatabase [(1, "a".toList), (2, "b".toList)]) := by
      have hput : put echoJson (echoStore [(1, "a".toList)]) (some (keyOf 2)) "b".toList false =
          .ok (.Key (keyOf 2), echoStore [(1, "a".toList), (2, "b".toList)]) := by
        change checkUniqueIndexValues echoJson (echoStore [(1, "a".toList)]) (keyOf 2) "b".toList >>= _ = _
        rw [echo_accepted]
        rfl
      rw [Database.apply, applyOne]
      change (put echoJson (echoStore [(1, "a".toList)]) (some (keyOf 2)) "b".toList false >>= _) >>= _ = _
      rw [hput]
      rfl
    exact (unique_indexes_incremental echoJson fun _ => none).1 _ _ _ _ _ happly _ _ rfl echo_sound echo_valid
  · refine (unique_indexes_incremental echoJson fun _ => none).2 _ _ _ _ _ echo_sound rfl (.inr ?_) echo_refused
    intro record hrecord
    rw [List.mem_singleton.mp hrecord]
    decide +kernel

end BetterWebBrowser.IndexedDb
