import BetterWebBrowser.Framework.Transition
import BetterWebBrowser.IndexedDb.Records

/-!
# Object stores as finite maps

The records of a store are a finite map from classes of equal keys to values. The operations
return and leave what the same operations on the map do.
-/

namespace BetterWebBrowser.IndexedDb

open Framework

/-- What the loader checks of the records and every operation keeps. -/
structure SoundRecords (records : List Record) : Prop where
  sorted : records.Pairwise fun record record' => record.key < record'.key
  valid : ∀ record ∈ records, record.key.validate 0 = .ok ()

def RecordStore.Sound (store : RecordStore) : Prop := SoundRecords store.records

/-! ## Finding records -/

namespace RecordStore

variable {json : SerdeJson} {store : RecordStore} {key : Key} {value : Str}

/-- Where a key is among the records, or where a record for it goes. -/
inductive Located (key : Key) : List Record → Except Nat Nat → Prop
  | found {front back : List Record} {record : Record}
      (below : ∀ other ∈ front, other.key.cmp key = .lt) (equal : record.key.cmp key = .eq)
      (above : ∀ other ∈ back, other.key.cmp key = .gt) :
      Located key (front ++ record :: back) (.ok front.length)
  | missing {front back : List Record}
      (below : ∀ other ∈ front, other.key.cmp key = .lt)
      (above : ∀ other ∈ back, other.key.cmp key = .gt) :
      Located key (front ++ back) (.error front.length)

theorem Sound.locate (h : store.Sound) (key : Key) :
    Located key store.records (store.locate key) := by
  have hsplit := List.takeWhile_append_dropWhile (p := fun record : Record => record.key.cmp key = .lt)
    (l := store.records)
  have hbelow : ∀ other ∈ store.records.takeWhile fun record => record.key.cmp key = .lt,
      other.key.cmp key = .lt := by
    intro other hother
    simpa using List.mem_takeWhile_imp hother
  cases hrest : store.records.dropWhile fun record => record.key.cmp key = .lt with
  | nil =>
    rw [hrest] at hsplit
    have hnone : ∀ other ∈ ([] : List Record), other.key.cmp key = .gt :=
      fun _ hmem => absurd hmem List.not_mem_nil
    rw [RecordStore.locate, ← hsplit, BinarySearch.absent hbelow hnone]
    exact .missing hbelow hnone
  | cons record back =>
    rw [hrest] at hsplit
    have hsorted := h.sorted
    rw [← hsplit] at hsorted
    have hafter := (List.pairwise_cons.mp (List.pairwise_append.mp hsorted).2.1).1
    have hrecord : record.key.cmp key ≠ .lt := by
      have hhead := List.head?_dropWhile_not (fun record : Record => record.key.cmp key = .lt) store.records
      simp only [hrest, List.head?_cons] at hhead
      simpa using hhead
    have habove : ∀ other ∈ back, other.key.cmp key = .gt := by
      intro other hother
      have hlt : record.key.toClass < other.key.toClass := Key.toClass_lt.mpr (hafter other hother)
      exact Key.toClass_gt.mp ((Key.toClass_ge.mpr hrecord).trans_lt hlt)
    cases horder : record.key.cmp key with
    | lt => exact absurd horder hrecord
    | eq =>
      rw [RecordStore.locate, ← hsplit, BinarySearch.present hbelow horder habove]
      exact .found hbelow horder habove
    | gt =>
      have hall : ∀ other ∈ record :: back, other.key.cmp key = .gt :=
        List.forall_mem_cons.mpr ⟨horder, habove⟩
      rw [RecordStore.locate, ← hsplit, BinarySearch.absent hbelow hall]
      exact .missing hbelow hall

/-! ## The map of a store -/

/-- A record in the map. -/
def entryOf (record : Record) : KeyClass × Str := (record.key.toClass, record.value)

/-- The finite map that a store is. -/
def Sound.map (h : store.Sound) : OrdMap KeyClass Str where
  entries := store.records.map entryOf
  sorted := List.pairwise_map.mpr (h.sorted.imp fun hlt => Key.toClass_lt.mpr hlt)

theorem Sound.map_get_eq_some (h : store.Sound) {entry : KeyClass} :
    h.map.get entry = some value ↔ ∃ record ∈ store.records, record.key.toClass = entry ∧ record.value = value := by
  rw [← OrdMap.mem_entries_iff_get, Sound.map, List.mem_map]
  simp [entryOf]

/-- Records between which the key of a new one lies are sorted with it. -/
private theorem pairwise_middle {front back : List Record} {record : Record} {key : Key}
    (hrest : (front ++ back).Pairwise fun record record' => record.key < record'.key)
    (hbelow : ∀ other ∈ front, other.key.cmp key = .lt) (hequal : record.key.cmp key = .eq)
    (habove : ∀ other ∈ back, other.key.cmp key = .gt) :
    (front ++ record :: back).Pairwise fun record record' => record.key < record'.key := by
  obtain ⟨hfront, hback, hbetween⟩ := List.pairwise_append.mp hrest
  have hclass := Key.toClass_eq.mpr hequal
  have hbefore : ∀ other ∈ front, other.key < record.key := by
    intro other hother
    rw [Key.lt_iff, ← Key.toClass_lt, hclass, Key.toClass_lt]
    exact hbelow other hother
  have hafter : ∀ other ∈ back, record.key < other.key := by
    intro other hother
    rw [Key.lt_iff, ← Key.toClass_lt, hclass, Key.toClass_gt]
    exact habove other hother
  refine List.pairwise_append.mpr ⟨hfront, List.pairwise_cons.mpr ⟨hafter, hback⟩, ?_⟩
  intro other hother
  exact List.forall_mem_cons.mpr ⟨hbefore other hother, hbetween other hother⟩

private theorem entries_below {front : List Record} {key : Key}
    (h : ∀ other ∈ front, other.key.cmp key = .lt) :
    ∀ entry ∈ front.map entryOf, entry.1 < key.toClass := by
  intro entry hentry
  obtain ⟨other, hother, rfl⟩ := List.mem_map.mp hentry
  exact Key.toClass_lt.mpr (h other hother)

private theorem entries_above {back : List Record} {key : Key}
    (h : ∀ other ∈ back, other.key.cmp key = .gt) :
    ∀ entry ∈ back.map entryOf, key.toClass < entry.1 := by
  intro entry hentry
  obtain ⟨other, hother, rfl⟩ := List.mem_map.mp hentry
  exact Key.toClass_gt.mpr (h other hother)

theorem Sound.map_get (h : store.Sound) (key : Key) :
    h.map.get key.toClass =
      match store.locate key with
      | .ok index => store.records[index]?.map Record.value
      | .error _ => none := by
  have hlocated := h.locate key
  generalize hplace : store.locate key = place at hlocated
  generalize hrecords : store.records = records at hlocated
  cases hlocated with
  | @found front back record hbelow hequal habove =>
    dsimp only
    rw [List.getElem?_append_right (Nat.le_refl _), Nat.sub_self, List.getElem?_cons_zero,
      Option.map_some, h.map_get_eq_some, hrecords]
    exact ⟨record, by simp, Key.toClass_eq.mpr hequal, rfl⟩
  | @missing front back hbelow habove =>
    rw [Option.eq_none_iff_forall_ne_some]
    intro value hvalue
    obtain ⟨record, hrecord, hclass, -⟩ := h.map_get_eq_some.mp hvalue
    have hequal := Key.toClass_eq.mp hclass
    rw [hrecords] at hrecord
    rcases List.mem_append.mp hrecord with hfront | hback
    · rw [hbelow record hfront] at hequal
      cases hequal
    · rw [habove record hback] at hequal
      cases hequal

/-- The same key and value written into the map. -/
theorem Sound.place_ok (h : store.Sound) {overwrite : Bool} {records : List Record}
    (hkey : key.validate 0 = .ok ()) (hplace : store.place key value overwrite = .ok records) {nextKey : Nat} :
    (overwrite = false → h.map.get key.toClass = none) ∧
      ∃ hnext : Sound { store with nextKey := nextKey, records := records },
        hnext.map = h.map.insert key.toClass value := by
  have hlocated := h.locate key
  rw [h.map_get]
  rw [place] at hplace
  generalize store.locate key = place at hlocated hplace ⊢
  obtain ⟨definition, next, all⟩ := store
  dsimp only at hlocated hplace ⊢
  have hsorted : all.Pairwise fun record record' => record.key < record'.key := h.sorted
  have hvalid : ∀ record ∈ all, record.key.validate 0 = .ok () := h.valid
  cases hlocated with
  | @found front back record hbelow hequal habove =>
    dsimp only at hplace ⊢
    split at hplace
    next hoverwrite =>
      rw [BinarySearch.modify_at] at hplace
      cases hplace
      refine ⟨fun hfalse => absurd (hoverwrite.symm.trans hfalse) (by decide), ?_⟩
      have hrest : (front ++ back).Pairwise fun record record' => record.key < record'.key :=
        List.Pairwise.sublist (List.Sublist.append_left (List.sublist_cons_self _ _) _) hsorted
      refine ⟨⟨@pairwise_middle front back ⟨record.key, value⟩ key hrest hbelow hequal habove, ?_⟩, ?_⟩
      · intro other hother
        simp only [List.mem_append, List.mem_cons] at hother hvalid
        rcases hother with hfront | rfl | hback
        · exact hvalid other (.inl hfront)
        · exact hvalid record (.inr (.inl rfl))
        · exact hvalid other (.inr (.inr hback))
      · apply OrdMap.ext_entries
        change (front ++ ⟨record.key, value⟩ :: back).map entryOf =
          insertEntry key.toClass value ((front ++ record :: back).map entryOf)
        rw [List.map_append, List.map_append, OrdMap.insertEntry_append _ (entries_below hbelow), List.map_cons,
          List.map_cons, insertEntry]
        have hclass : key.toClass = record.key.toClass := (Key.toClass_eq.mpr hequal).symm
        simp [entryOf, hclass]
    next => cases hplace
  | @missing front back hbelow habove =>
    dsimp only at hplace ⊢
    rw [BinarySearch.insertIdx_at] at hplace
    cases hplace
    have hself : key.cmp key = .eq := Key.toClass_eq.mp rfl
    refine ⟨fun _ => rfl, ⟨@pairwise_middle front back ⟨key, value⟩ key hsorted hbelow hself habove, ?_⟩, ?_⟩
    · intro other hother
      simp only [List.mem_append, List.mem_cons] at hother hvalid
      rcases hother with hfront | rfl | hback
      · exact hvalid other (.inl hfront)
      · exact hkey
      · exact hvalid other (.inr hback)
    · apply OrdMap.ext_entries
      change (front ++ ⟨key, value⟩ :: back).map entryOf =
        insertEntry key.toClass value ((front ++ back).map entryOf)
      rw [List.map_append, List.map_append, OrdMap.insertEntry_append _ (entries_below hbelow), List.map_cons]
      apply congrArg (front.map entryOf ++ ·)
      have hall := entries_above habove
      cases hback : back.map entryOf with
      | nil => rfl
      | cons entry entries =>
        rw [hback] at hall
        rw [insertEntry, if_pos (hall entry List.mem_cons_self)]
        rfl

/-- Only a record of the key is in the way, and only if it is not to be overwritten. -/
theorem Sound.place_total (h : store.Sound) (key : Key) (value : Str) (overwrite : Bool) :
    (∃ records, store.place key value overwrite = .ok records) ↔
      overwrite = true ∨ h.map.get key.toClass = none := by
  have hlocated := h.locate key
  rw [h.map_get, place]
  generalize hplace : store.locate key = place at hlocated ⊢
  generalize hrecords : store.records = records at hlocated ⊢
  cases hlocated with
  | @found front back record hbelow hequal habove =>
    dsimp only
    rw [List.getElem?_append_right (Nat.le_refl _), Nat.sub_self, List.getElem?_cons_zero]
    cases overwrite <;> simp
  | missing => simp

theorem Sound.filter (h : store.Sound) (p : Record → Bool) :
    Sound { store with records := store.records.filter p } :=
  ⟨List.Pairwise.filter _ h.sorted, fun record hrecord => h.valid record (List.mem_filter.mp hrecord).1⟩

theorem clear_sound (store : RecordStore) : store.clear.Sound :=
  ⟨List.Pairwise.nil, fun _ hmem => absurd hmem List.not_mem_nil⟩

/-- The key taken out of the map. -/
theorem Sound.delete (h : store.Sound) {result : DbResult} {next : RecordStore}
    (hdelete : store.delete key = .ok (result, next)) :
    result = .Unit ∧ ∃ hnext : next.Sound, hnext.map = h.map.erase key.toClass := by
  obtain ⟨⟨⟩, -, hdelete⟩ := bind_eq_ok.mp hdelete
  cases hdelete
  refine ⟨rfl, ?_⟩
  have hlocated := h.locate key
  generalize store.locate key = place at hlocated ⊢
  obtain ⟨definition, nextKey, all⟩ := store
  dsimp only at hlocated ⊢
  have hsorted : all.Pairwise fun record record' => record.key < record'.key := h.sorted
  have hvalid : ∀ record ∈ all, record.key.validate 0 = .ok () := h.valid
  have hkeep : ∀ records : List Record, (∀ other ∈ records, other.key.cmp key ≠ .eq) →
      (records.map entryOf).filter (fun entry => decide (entry.1 ≠ key.toClass)) = records.map entryOf := by
    intro records hrecords
    rw [List.filter_eq_self]
    intro entry hentry
    obtain ⟨other, hother, rfl⟩ := List.mem_map.mp hentry
    rw [decide_eq_true_eq, entryOf, ne_eq, Key.toClass_eq]
    exact hrecords other hother
  cases hlocated with
  | @found front back record hbelow hequal habove =>
    dsimp only
    rw [BinarySearch.eraseIdx_at]
    have hrest : (front ++ back).Sublist (front ++ record :: back) :=
      List.Sublist.append_left (List.sublist_cons_self _ _) _
    refine ⟨⟨List.Pairwise.sublist hrest hsorted, fun other hother => hvalid other (hrest.subset hother)⟩, ?_⟩
    apply OrdMap.ext_entries
    change (front ++ back).map entryOf = ((front ++ record :: back).map entryOf).filter _
    rw [List.map_append, List.map_append, List.map_cons, List.filter_append, List.filter_cons,
      if_neg (by simp [entryOf, Key.toClass_eq.mpr hequal]),
      hkeep front (fun other hother heq => by rw [hbelow other hother] at heq; cases heq),
      hkeep back (fun other hother heq => by rw [habove other hother] at heq; cases heq)]
  | @missing front back hbelow habove =>
    refine ⟨h, ?_⟩
    apply OrdMap.ext_entries
    change (front ++ back).map entryOf = ((front ++ back).map entryOf).filter _
    rw [hkeep]
    intro other hother heq
    rcases List.mem_append.mp hother with hfront | hback
    · rw [hbelow other hfront] at heq
      cases heq
    · rw [habove other hback] at heq
      cases heq

/-! ## Ranges -/

open Classical in
/-- The part of a map in a range; without a range, all of it. -/
noncomputable def inClasses (range : Option KeyRange) (map : OrdMap KeyClass Str) : OrdMap KeyClass Str :=
  map.filterKeys fun key => ∀ range' ∈ range, key ∈ range'.classes

theorem inRange_iff {range : Option KeyRange} :
    inRange range key = true ↔ ∀ range' ∈ range, key.toClass ∈ range'.classes := by
  rw [inRange, Option.all_eq_true]
  simp only [KeyRange.contains_iff, Option.mem_def]

theorem Sound.inClasses_entries (h : store.Sound) (range : Option KeyRange) :
    (inClasses range h.map).entries =
      (store.records.filter fun record => inRange range record.key).map entryOf := by
  change (store.records.map entryOf).filter _ = _
  rw [List.filter_map]
  apply congrArg (List.map entryOf)
  apply List.filter_congr
  intro record _
  rw [Bool.eq_iff_iff, inRange_iff]
  classical exact decide_eq_true_iff (p := ∀ range' ∈ range, record.key.toClass ∈ range'.classes)

/-! ## Operations -/

open Classical in
/-- What an operation returns and leaves, said of the map alone. A `Put` writes the key and value
that the store has settled on. -/
def Agrees (json : SerdeJson) (store : RecordStore) (operation : DbOperation)
    (map : OrdMap KeyClass Str) (result : DbResult) (next : OrdMap KeyClass Str) : Prop :=
  match operation with
  | .Put _ key value overwrite => ∃ key' generated nextKey stored,
      store.keyFor key = .ok (key', generated, nextKey) ∧
        valueFor json store generated key' value = .ok stored ∧ result = .Key key' ∧
        (overwrite = false → map.get key'.toClass = none) ∧ next = map.insert key'.toClass stored
  | .Get _ key => result = .Value (map.get key.toClass) ∧ next = map
  | .GetAll _ range limit keysOnly =>
    let entries := (inClasses range map).entries
    let found := entries.take (limit.getD entries.length)
    next = map ∧ if keysOnly then ∃ keys, result = .Keys keys ∧ keys.map Key.toClass = found.map Prod.fst
      else result = .Values (found.map Prod.snd)
  | .Delete _ key => result = .Unit ∧ next = map.erase key.toClass
  | .DeleteRange _ range => result = .Unit ∧ next = map.filterKeys fun key => key ∉ range.classes
  | .Clear _ => result = .Unit ∧ next = .empty
  | .Count _ range => result = .Count (inClasses range map).len ∧ next = map
  | _ => next = map

theorem reading_ok {read : DbOutcome DbResult} {result : DbResult} {next : RecordStore}
    (h : store.reading read = .ok (result, next)) : read = .ok result ∧ next = store := by
  obtain ⟨value, hvalue, h⟩ := bind_eq_ok.mp h
  cases h
  exact ⟨hvalue, rfl⟩

/-- What a `Put` has checked when it succeeds. -/
theorem put_ok {given : Option Key} {overwrite : Bool} {result : DbResult} {next : RecordStore}
    (h : put json store given value overwrite = .ok (result, next)) :
    ∃ key generated nextKey stored records, store.keyFor given = .ok (key, generated, nextKey) ∧
      key.validate 0 = .ok () ∧ valueFor json store generated key value = .ok stored ∧
      checkUniqueIndexValues json store key stored = .ok () ∧
      store.place key stored overwrite = .ok records ∧ result = .Key key ∧
      next = { store with nextKey := store.bumped nextKey key, records := records } := by
  obtain ⟨-, h⟩ := failIf_bind_eq_ok.mp h
  obtain ⟨⟨key, generated, nextKey⟩, hkey, h⟩ := bind_eq_ok.mp h
  obtain ⟨⟨⟩, hvalid, h⟩ := bind_eq_ok.mp h
  obtain ⟨stored, hstored, h⟩ := bind_eq_ok.mp h
  obtain ⟨⟨⟩, hunique, h⟩ := bind_eq_ok.mp h
  obtain ⟨records, hplace, h⟩ := bind_eq_ok.mp h
  cases h
  exact ⟨key, generated, nextKey, stored, records, hkey, hvalid, hstored, hunique, hplace, rfl, rfl⟩

/-- One operation keeps the store sound and does to it what it does to the map. -/
theorem Sound.apply (h : store.Sound) {operation : DbOperation} {result : DbResult} {next : RecordStore}
    (happly : RecordStore.apply json store operation = .ok (result, next)) :
    ∃ hnext : next.Sound, Agrees json store operation h.map result hnext.map := by
  cases operation with
  | Put name given value overwrite =>
    obtain ⟨key, generated, nextKey, stored, records, hkey, hvalid, hstored, -, hplace, rfl, rfl⟩ :=
      put_ok happly
    obtain ⟨hfree, hnext, hmap⟩ := h.place_ok hvalid hplace
    exact ⟨hnext, key, generated, nextKey, stored, hkey, hstored, rfl, hfree, hmap⟩
  | Get name key =>
    obtain ⟨hget, rfl⟩ := reading_ok happly
    obtain ⟨⟨⟩, -, hget⟩ := bind_eq_ok.mp hget
    cases hget
    exact ⟨h, congrArg DbResult.Value (h.map_get key).symm, rfl⟩
  | GetAll name range limit keysOnly =>
    obtain ⟨hget, rfl⟩ := reading_ok happly
    obtain ⟨⟨⟩, -, hget⟩ := bind_eq_ok.mp hget
    refine ⟨h, rfl, ?_⟩
    rw [← Except.ok.inj hget, h.inClasses_entries, List.length_map, ← List.map_take, List.map_map,
      List.map_map]
    cases keysOnly with
    | true => exact ⟨_, rfl, by simp [entryOf, Function.comp_def]⟩
    | false => rfl
  | Delete name key =>
    obtain ⟨hunit, hnext, hmap⟩ := h.delete happly
    exact ⟨hnext, hunit, hmap⟩
  | DeleteRange name range =>
    obtain ⟨⟨⟩, -, hdelete⟩ := bind_eq_ok.mp happly
    cases hdelete
    refine ⟨h.filter _, rfl, ?_⟩
    apply OrdMap.ext_entries
    change (store.records.filter _).map entryOf = (store.records.map entryOf).filter _
    rw [List.filter_map]
    apply congrArg (List.map entryOf)
    apply List.filter_congr
    intro record _
    rw [Bool.eq_iff_iff, Bool.not_eq_true', ← Bool.not_eq_true, KeyRange.contains_iff]
    classical exact (decide_eq_true_iff (p := record.key.toClass ∉ range.classes)).symm
  | Clear name =>
    cases happly
    exact ⟨store.clear_sound, rfl, rfl⟩
  | Count name range =>
    obtain ⟨hcount, rfl⟩ := reading_ok happly
    obtain ⟨⟨⟩, -, hcount⟩ := bind_eq_ok.mp hcount
    refine ⟨h, ?_, rfl⟩
    rw [← Except.ok.inj hcount, OrdMap.len, h.inClasses_entries, List.length_map]
  | Scan | IndexGet | IndexGetAll | IndexCount | IndexScan =>
    obtain ⟨-, rfl⟩ := reading_ok happly
    exact ⟨h, rfl⟩

/-- A request whose keys and ranges are valid; a `Put` is one with a key that the checks of the
value let pass. -/
def Accepted (json : SerdeJson) (store : RecordStore) : DbOperation → Prop
  | .Put _ key value _ => Str.byteLen value ≤ MAX_ORIGIN_BYTES ∧ ∃ key', key = some key' ∧
      key'.validate 0 = .ok () ∧ checkUniqueIndexValues json store key' value = .ok ()
  | .Get _ key | .Delete _ key => key.validate 0 = .ok ()
  | .GetAll _ range _ _ | .Count _ range => validateRange range = .ok ()
  | .DeleteRange _ range => range.validate = .ok ()
  | .Clear _ => True
  | _ => False

/-- Only a `Put` that may not overwrite is refused, and only where the map has the key. -/
def Refused (map : OrdMap KeyClass Str) : DbOperation → Prop
  | .Put _ key _ overwrite => overwrite = false ∧ ∃ key', key = some key' ∧ map.get key'.toClass ≠ none
  | _ => False

theorem Sound.total (h : store.Sound) {operation : DbOperation}
    (haccepted : Accepted json store operation) :
    (∃ result next, RecordStore.apply json store operation = .ok (result, next)) ↔
      ¬ Refused h.map operation := by
  cases operation with
  | Put name given value overwrite =>
    obtain ⟨hshort, key, rfl, hvalid, hunique⟩ := haccepted
    have hput : RecordStore.apply json store (.Put name (some key) value overwrite) =
        (store.place key value overwrite).map fun records =>
          (.Key key, { store with nextKey := store.bumped store.nextKey key, records := records }) := by
      change put json store (some key) value overwrite = _
      rw [put, failIf, if_neg (not_lt.mpr hshort)]
      change (key.validate 0 >>= fun _ => checkUniqueIndexValues json store key value >>= fun _ =>
        store.place key value overwrite >>= _) = _
      rw [hvalid]
      change (checkUniqueIndexValues json store key value >>= fun _ =>
        store.place key value overwrite >>= _) = _
      rw [hunique]
      cases store.place key value overwrite <;> rfl
    rw [hput]
    have hplace := h.place_total key value overwrite
    cases hresult : store.place key value overwrite with
    | ok records =>
      rw [hresult] at hplace
      have hfree := hplace.mp ⟨records, rfl⟩
      refine iff_of_true ⟨_, _, rfl⟩ ?_
      rintro ⟨hfalse, key', hkey', hmem⟩
      cases hkey'
      rcases hfree with htrue | hnone
      · exact Bool.noConfusion (htrue.symm.trans hfalse)
      · exact hmem hnone
    | error error =>
      rw [hresult] at hplace
      refine iff_of_false (by rintro ⟨_, _, h⟩; cases h) ?_
      rw [not_not]
      have hnot : ¬ (overwrite = true ∨ h.map.get key.toClass = none) := by
        intro hor
        obtain ⟨_, hok⟩ := hplace.mpr hor
        cases hok
      rw [not_or] at hnot
      exact ⟨(Bool.not_eq_true _).mp hnot.1, key, rfl, hnot.2⟩
  | Get name key | Delete name key =>
    refine iff_of_true ?_ id
    rw [RecordStore.apply]
    first | rw [RecordStore.get, show key.validate 0 = .ok () from haccepted] | rw [RecordStore.delete, show key.validate 0 = .ok () from haccepted]
    exact ⟨_, _, rfl⟩
  | GetAll name range limit keysOnly | Count name range =>
    refine iff_of_true ?_ id
    rw [RecordStore.apply]
    first | rw [RecordStore.getAll, show validateRange range = .ok () from haccepted] | rw [RecordStore.count, show validateRange range = .ok () from haccepted]
    exact ⟨_, _, rfl⟩
  | DeleteRange name range =>
    refine iff_of_true ?_ id
    rw [RecordStore.apply, RecordStore.deleteRange, show range.validate = .ok () from haccepted]
    exact ⟨_, _, rfl⟩
  | Clear name => exact iff_of_true ⟨_, _, rfl⟩ id
  | Scan | IndexGet | IndexGetAll | IndexCount | IndexScan => exact absurd haccepted id

/-! ## Runs -/

/-- An operation and what it returned. -/
def Applied (json : SerdeJson) (store : RecordStore) (label : DbOperation × DbResult)
    (next : RecordStore) : Prop :=
  RecordStore.apply json store label.1 = .ok (label.2, next)

theorem Sound.run (h : store.Sound) {labels : List (DbOperation × DbResult)} {reached : RecordStore}
    (hrun : Run (Applied json) store labels reached) : reached.Sound :=
  hrun.invariant Sound h fun _ _ _ hsound hstep => (hsound.apply hstep).1

end RecordStore

open RecordStore in
/-- The order of the keys is total and its equality is `==`; and from any sorted store, whatever
operations succeed, the store stays sorted and works as a finite map. -/
theorem store_is_map (json : SerdeJson) :
    (∀ left right : Key, right.cmp left = (left.cmp right).swap) ∧
      (∀ first second third : Key, first.cmp second ≠ .gt → second.cmp third ≠ .gt →
        first.cmp third ≠ .gt) ∧
      (∀ (left right : Key) (depth depth' : Nat), left.validate depth = .ok () →
        right.validate depth' = .ok () → (left.cmp right = .eq ↔ left.eq right = true)) ∧
      ∀ (store reached : RecordStore) (labels : List (DbOperation × DbResult)), store.Sound →
        Run (Applied json) store labels reached → ∃ hreached : reached.Sound,
          (∀ operation, Accepted json reached operation →
            ((∃ result next, RecordStore.apply json reached operation = .ok (result, next)) ↔
              ¬ Refused hreached.map operation)) ∧
          ∀ operation result next, RecordStore.apply json reached operation = .ok (result, next) →
            ∃ hnext : next.Sound, Agrees json reached operation hreached.map result hnext.map := by
  refine ⟨Key.cmp_swap, fun _ _ _ => le_trans (α := Key), ?_, ?_⟩
  · intro left right depth depth' hleft hright
    exact (Key.eq_iff_cmp hleft hright).symm
  · intro store reached labels hstore hrun
    refine ⟨hstore.run hrun, ?_, ?_⟩
    · intro operation haccepted
      exact (hstore.run hrun).total haccepted
    · intro operation result next happly
      exact (hstore.run hrun).apply happly

private def sampleJson : SerdeJson := ⟨fun _ => none, fun _ => []⟩

private def sampleRecords (keys : List Nat) : RecordStore :=
  ⟨⟨"s".toList, none, false, []⟩, 1, keys.map fun key => ⟨.Number (Double.ofU64 key), []⟩⟩

private def samplePut (key : Nat) : DbOperation × DbResult :=
  (.Put "s".toList (some (.Number (Double.ofU64 key))) [] false, .Key (.Number (Double.ofU64 key)))

/-- Two records written in falling order stay sorted, and the map has the first of them. -/
theorem store_is_map_sample :
    ∃ h : (sampleRecords [1, 2]).Sound,
      h.map.get (Key.Number (Double.ofU64 2)).toClass = some [] := by
  have hstart : (sampleRecords []).Sound :=
    ⟨List.Pairwise.nil, fun _ hmem => absurd hmem List.not_mem_nil⟩
  have hrun : Run (RecordStore.Applied sampleJson) (sampleRecords []) [samplePut 2, samplePut 1]
      (sampleRecords [1, 2]) := by
    have hfirst : Run (RecordStore.Applied sampleJson) (sampleRecords []) [samplePut 2]
        (sampleRecords [2]) := Run.nil.snoc rfl
    exact hfirst.snoc rfl
  obtain ⟨hreached, -, hagrees⟩ := (store_is_map sampleJson).2.2.2 _ _ _ hstart hrun
  have hget := hagrees (.Get "s".toList (.Number (Double.ofU64 2))) (.Value (some []))
    (sampleRecords [1, 2]) rfl
  obtain ⟨-, hvalue, -⟩ := hget
  exact ⟨hreached, (DbResult.Value.inj hvalue).symm⟩

end BetterWebBrowser.IndexedDb
