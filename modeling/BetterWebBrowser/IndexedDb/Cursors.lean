import BetterWebBrowser.Framework.Cursor
import BetterWebBrowser.IndexedDb.UniqueIndexes
import Mathlib.Data.Prod.Lex

/-!
# Cursors

Requests that scan a store or an index, each from the position of the last answer.
-/

namespace BetterWebBrowser.IndexedDb

open Framework RecordStore

/-! ## The order of entries -/

/-- How an entry compares to a later one. -/
def direction (reverse : Bool) : Ordering := if reverse then .gt else .lt

namespace IndexEntry

variable {left middle right : IndexEntry}

/-- Where an entry stands in an index. -/
def place (entry : IndexEntry) : KeyClass ×ₗ KeyClass := toLex (entry.key.toClass, entry.primary.toClass)

theorem place_lt : left.place < right.place ↔ left.cmp right = .lt := by
  rw [place, place, Prod.Lex.toLex_lt_toLex, Key.toClass_lt, Key.toClass_eq, Key.toClass_lt, cmp]
  cases left.key.cmp right.key <;> simp

theorem place_gt : right.place < left.place ↔ left.cmp right = .gt := by
  rw [place, place, Prod.Lex.toLex_lt_toLex, Key.toClass_gt, @eq_comm _ right.key.toClass, Key.toClass_eq,
    Key.toClass_gt, cmp]
  cases left.key.cmp right.key <;> simp

theorem place_eq : left.place = right.place ↔ left.cmp right = .eq := by
  rw [place, place, toLex_inj, Prod.mk.injEq, Key.toClass_eq, Key.toClass_eq, cmp]
  cases left.key.cmp right.key <;> simp

theorem place_le : left.place ≤ right.place ↔ left.cmp right ≠ .gt := by
  rw [ne_eq, ← place_gt, not_lt]

theorem cmp_swap (left right : IndexEntry) : right.cmp left = (left.cmp right).swap := by
  rw [cmp, cmp, Key.cmp_swap left.key, Key.cmp_swap left.primary, Ordering.swap_then]

end IndexEntry

theorem Key.cmp_self (key : Key) : key.cmp key = .eq := Key.toClass_eq.mp rfl

/-! ## The entries of an index -/

section Entries

variable {json : SerdeJson} {store : RecordStore} {index : IndexDefinition}

theorem mem_entriesOf {entry : IndexEntry} : entry ∈ entriesOf json store index ↔
    ∃ record ∈ store.records, ∃ key ∈ keysForValue json index record.value,
      ⟨key, record.key, record.value⟩ = entry := by
  rw [entriesOf, List.mem_insertionSort, List.mem_flatMap]
  simp only [recordEntries, List.mem_map]

theorem cmp_ne_eq_of_records (h : store.Sound) :
    (store.records.flatMap (recordEntries json index)).Pairwise fun entry entry' => entry.cmp entry' ≠ .eq := by
  rw [List.pairwise_flatMap]
  constructor
  · intro record hrecord
    rw [recordEntries, List.pairwise_map]
    refine (keysForValue_spec json index record.value).1.imp ?_
    intro key key' hless hequal
    rw [← IndexEntry.place_eq, IndexEntry.place, IndexEntry.place, toLex_inj, Prod.mk.injEq] at hequal
    exact absurd hequal.1 (Key.toClass_lt.mpr hless).ne
  · refine h.sorted.imp ?_
    intro record record' hless entry hentry entry' hentry' hequal
    obtain ⟨key, -, rfl⟩ := List.mem_map.mp hentry
    obtain ⟨key', -, rfl⟩ := List.mem_map.mp hentry'
    rw [← IndexEntry.place_eq, IndexEntry.place, IndexEntry.place, toLex_inj, Prod.mk.injEq] at hequal
    exact absurd hequal.2 (Key.toClass_lt.mpr hless).ne

/-- The entries of an index come in the order of their keys and primary keys, each once. -/
theorem entriesOf_sorted (h : store.Sound) :
    (entriesOf json store index).Pairwise fun entry entry' => entry.cmp entry' = .lt := by
  let order := fun left right : IndexEntry => left.cmp right ≠ .gt
  have : Std.Total order := ⟨fun left right =>
    (le_total left.place right.place).imp IndexEntry.place_le.mp IndexEntry.place_le.mp⟩
  have : IsTrans IndexEntry order := ⟨fun _ _ _ hleft hright =>
    IndexEntry.place_le.mp ((IndexEntry.place_le.mpr hleft).trans (IndexEntry.place_le.mpr hright))⟩
  have hsorted : (entriesOf json store index).Pairwise order := by
    rw [entriesOf]
    convert List.pairwise_insertionSort order _
  have hdistinct : (entriesOf json store index).Pairwise fun entry entry' => entry.cmp entry' ≠ .eq := by
    refine ((List.perm_insertionSort _ _).pairwise_iff ?_).mpr (cmp_ne_eq_of_records h)
    intro left right hne hequal
    exact hne (IndexEntry.place_eq.mp (IndexEntry.place_eq.mpr hequal).symm)
  refine (hsorted.and hdistinct).imp ?_
  rintro left right ⟨hle, hne⟩
  rw [← IndexEntry.place_lt]
  exact (IndexEntry.place_le.mpr hle).lt_of_ne fun hequal => hne (IndexEntry.place_eq.mp hequal)

end Entries

/-! ## Unique cursors -/

section Directions

variable {reverse : Bool} {left middle right : Key}

theorem direction_trans (hleft : left.cmp middle = direction reverse) (hright : middle.cmp right = direction reverse) :
    left.cmp right = direction reverse := by
  cases reverse with
  | false => exact Key.toClass_lt.mp ((Key.toClass_lt.mpr hleft).trans (Key.toClass_lt.mpr hright))
  | true => exact Key.toClass_gt.mp ((Key.toClass_gt.mpr hright).trans (Key.toClass_gt.mpr hleft))

theorem eq_direction {order : Ordering} (hne : order ≠ .eq) (hswap : order ≠ (direction reverse).swap) :
    order = direction reverse := by
  cases reverse <;> cases order <;> simp_all [direction]

theorem direction_ne_eq (reverse : Bool) : direction reverse ≠ .eq := by
  cases reverse <;> decide

theorem direction_ne_swap (reverse : Bool) : direction reverse ≠ (direction reverse).swap := by
  cases reverse <;> decide

end Directions

/-- Of entries in order, those are kept that come first among the entries of their key. -/
theorem keepFirst_spec {reverse : Bool} {entries : List IndexEntry} {previous : Option Key}
    (hsorted : entries.Pairwise fun entry entry' => entry.cmp entry' = direction reverse)
    (hvalid : ∀ entry ∈ entries, entry.key.validate 0 = .ok ())
    (hprevious : ∀ key ∈ previous, key.validate 0 = .ok () ∧
      ∀ entry ∈ entries, key.cmp entry.key ≠ (direction reverse).swap) :
    ((keepFirst previous entries).Pairwise fun entry entry' => entry.key.cmp entry'.key = direction reverse) ∧
      ∀ entry, entry ∈ keepFirst previous entries ↔ entry ∈ entries ∧
        (∀ key ∈ previous, key.cmp entry.key ≠ .eq) ∧
        ∀ other ∈ entries, other.key.cmp entry.key = .eq → entry.cmp other ≠ (direction reverse).swap := by
  induction entries generalizing previous with
  | nil => simp [keepFirst]
  | cons first entries ih =>
    obtain ⟨hfirst, hrest⟩ := List.pairwise_cons.mp hsorted
    obtain ⟨hfirstValid, hrestValid⟩ := List.forall_mem_cons.mp hvalid
    have hbehind : ∀ entry ∈ entries, entry.cmp first = (direction reverse).swap := by
      intro entry hentry
      rw [IndexEntry.cmp_swap first entry, hfirst entry hentry]
    have hself : first.cmp first = .eq := IndexEntry.place_eq.mp rfl
    have hprevious' : ∀ key ∈ previous, key.validate 0 = .ok () ∧
        ∀ entry ∈ entries, key.cmp entry.key ≠ (direction reverse).swap := fun key hkey =>
      ⟨(hprevious key hkey).1, fun entry hentry => (hprevious key hkey).2 entry (List.mem_cons_of_mem _ hentry)⟩
    rw [keepFirst]
    split
    next hskip =>
      obtain ⟨key, hkey, hequal⟩ := (Option.any_eq_true ..).mp hskip
      rw [Key.eq_iff_cmp (hprevious key hkey).1 hfirstValid] at hequal
      obtain ⟨hkept, hmem⟩ := ih hrest hrestValid hprevious'
      refine ⟨hkept, fun entry => (hmem entry).trans ?_⟩
      constructor
      · rintro ⟨hentry, hother, hlead⟩
        refine ⟨List.mem_cons_of_mem _ hentry, hother, List.forall_mem_cons.mpr ⟨?_, hlead⟩⟩
        intro hsame
        rw [← Key.cmp_congr hequal] at hsame
        exact absurd hsame (hother key hkey)
      · rintro ⟨hentry, hother, hlead⟩
        rcases List.mem_cons.mp hentry with rfl | hentry
        · exact absurd hequal (hother key hkey)
        · exact ⟨hentry, hother, (List.forall_mem_cons.mp hlead).2⟩
    next hkeep =>
      have hfirstKey : ∀ key ∈ previous, key.cmp first.key = direction reverse := by
        intro key hkey
        refine eq_direction ?_ ((hprevious key hkey).2 first List.mem_cons_self)
        intro hequal
        rw [← Key.eq_iff_cmp (hprevious key hkey).1 hfirstValid] at hequal
        exact hkeep ((Option.any_eq_true ..).mpr ⟨key, hkey, hequal⟩)
      have hnext : ∀ entry ∈ entries, first.key.cmp entry.key ≠ (direction reverse).swap := by
        intro entry hentry hswap
        have hcmp := hfirst entry hentry
        rw [IndexEntry.cmp, hswap] at hcmp
        cases reverse <;> cases hcmp
      obtain ⟨hkept, hmem⟩ := @ih (some first.key) hrest hrestValid (by
        rintro key ⟨⟩
        exact ⟨hfirstValid, hnext⟩)
      have hafter : ∀ entry ∈ keepFirst (some first.key) entries, first.key.cmp entry.key = direction reverse := by
        intro entry hentry
        obtain ⟨hentry, hother, -⟩ := (hmem entry).mp hentry
        exact eq_direction (hother first.key rfl) (hnext entry hentry)
      refine ⟨List.pairwise_cons.mpr ⟨hafter, hkept⟩, ?_⟩
      intro entry
      rw [List.mem_cons]
      constructor
      · rintro (rfl | hentry)
        · refine ⟨List.mem_cons_self, ?_, List.forall_mem_cons.mpr ⟨?_, ?_⟩⟩
          · intro key hkey
            rw [hfirstKey key hkey]
            exact direction_ne_eq reverse
          · intro _
            rw [hself]
            cases reverse <;> decide
          · intro other hother _
            rw [hfirst other hother]
            exact direction_ne_swap reverse
        · have hdirection := hafter entry hentry
          obtain ⟨hentry, hother, hlead⟩ := (hmem entry).mp hentry
          refine ⟨List.mem_cons_of_mem _ hentry, ?_, List.forall_mem_cons.mpr ⟨?_, hlead⟩⟩
          · intro key hkey
            rw [direction_trans (hfirstKey key hkey) hdirection]
            exact direction_ne_eq reverse
          · intro hsame
            exact absurd hsame (hother first.key rfl)
      · rintro ⟨hentry, -, hlead⟩
        refine (List.mem_cons.mp hentry).imp_right ?_
        intro hentry
        obtain ⟨hleadFirst, hlead⟩ := List.forall_mem_cons.mp hlead
        refine (hmem entry).mpr ⟨hentry, ?_, hlead⟩
        rintro key ⟨⟩ hsame
        exact hleadFirst hsame (hbehind entry hentry)

/-- Every key that is not the previous one keeps an entry. -/
theorem exists_keepFirst {entries : List IndexEntry} {previous : Option Key}
    (hvalid : ∀ entry ∈ entries, entry.key.validate 0 = .ok ())
    (hprevious : ∀ key ∈ previous, key.validate 0 = .ok ()) {entry : IndexEntry} (hentry : entry ∈ entries) :
    (∃ key ∈ previous, key.cmp entry.key = .eq) ∨
      ∃ first ∈ keepFirst previous entries, first.key.cmp entry.key = .eq := by
  induction entries generalizing previous with
  | nil => cases hentry
  | cons first entries ih =>
    obtain ⟨hfirstValid, hrestValid⟩ := List.forall_mem_cons.mp hvalid
    rw [keepFirst]
    split
    next hskip =>
      rcases List.mem_cons.mp hentry with rfl | hrest
      · obtain ⟨key, hkey, hequal⟩ := (Option.any_eq_true ..).mp hskip
        exact .inl ⟨key, hkey, (Key.eq_iff_cmp (hprevious key hkey) hfirstValid).mp hequal⟩
      · exact ih hrestValid hprevious hrest
    next hkeep =>
      right
      rcases List.mem_cons.mp hentry with rfl | hrest
      · exact ⟨entry, List.mem_cons_self, Key.cmp_self _⟩
      · rcases @ih (some first.key) hrestValid (by rintro key ⟨⟩; exact hfirstValid) hrest with
          ⟨key, hkey, hequal⟩ | ⟨kept, hkept, hequal⟩
        · cases hkey
          exact ⟨first, List.mem_cons_self, hequal⟩
        · exact ⟨kept, List.mem_cons_of_mem _ hkept, hequal⟩

/-! ## Requests -/

/-- The record that a request has found. -/
def DbResult.cursor : DbResult → Option CursorRecord
  | .Record record => record
  | _ => none

section Requests

variable (json : SerdeJson) (store : RecordStore) (range : Option KeyRange)

/-- A scan from the position of the last answer. -/
def scanRequest (reverse keysOnly : Bool) (after : Option Key) (skip : Nat) : DbOutcome (Option CursorRecord) :=
  (store.scan range after false skip reverse keysOnly).map DbResult.cursor

def recordAnswer (keysOnly : Bool) (record : Record) : CursorRecord :=
  ⟨record.key, none, if keysOnly then none else some record.value⟩

/-- A scan of an index from the position of the last answer. -/
def indexScanRequest (name : Str) (reverse unique keysOnly : Bool) (after : Option (Key × Option Key))
    (skip : Nat) : DbOutcome (Option CursorRecord) :=
  (indexScan json store name range (after.map Prod.fst) (after.bind Prod.snd) false skip reverse unique
    keysOnly).map DbResult.cursor

def entryAnswer (keysOnly : Bool) (entry : IndexEntry) : CursorRecord :=
  ⟨entry.key, some entry.primary, if keysOnly then none else some entry.value⟩

/-- The entries of an index in a range. -/
def Matches (index : IndexDefinition) (entry : IndexEntry) : Prop :=
  ∃ record ∈ store.records, ∃ key ∈ keysForValue json index record.value,
    inRange range key = true ∧ ⟨key, record.key, record.value⟩ = entry

/-- The entries that a cursor visits: a unique one only those of the lowest primary keys. -/
def Selected (index : IndexDefinition) (unique : Bool) (entry : IndexEntry) : Prop :=
  Matches json store range index entry ∧ (unique = true → ∀ other, Matches json store range index other →
    other.key.cmp entry.key = .eq → entry.primary.cmp other.primary ≠ .gt)

/-- The order in which a cursor visits entries: a unique one has each key once. -/
def Precedes (reverse unique : Bool) (entry entry' : IndexEntry) : Prop :=
  (if unique then entry.key.cmp entry'.key else entry.cmp entry') = direction reverse

end Requests

/-- What is beyond a position in a list that is sorted in the direction of a cursor. -/
theorem ordered_of_cmp {Entry Position : Type} {position : Entry → Position}
    {order : Position → Entry → Ordering} {reverse : Bool} {entries : List Entry}
    (hself : ∀ entry ∈ entries, order (position entry) entry = .eq)
    (hpairs : entries.Pairwise fun entry next => order (position entry) next = (direction reverse).swap ∧
      order (position next) entry = direction reverse)
    (honward : ∀ after, entries.Pairwise fun entry next =>
      order after entry = (direction reverse).swap → order after next = (direction reverse).swap) :
    Cursor.Ordered position (fun after entry => isBeyond reverse false (order after entry)) entries := by
  have hbeyond : ∀ order, isBeyond reverse false order = true ↔ order = (direction reverse).swap := by
    intro order
    cases reverse <;> cases order <;> decide
  constructor
  · exact hpairs.imp fun h => (hbeyond _).mpr h.1
  · refine hpairs.imp fun h => ?_
    rw [h.2]
    cases reverse <;> rfl
  · intro entry hentry
    rw [hself entry hentry]
    cases reverse <;> rfl
  · intro after
    refine (honward after).imp fun h => ?_
    rw [hbeyond, hbeyond]
    exact h

/-- A list in falling order is the reverse of one in rising order. -/
theorem pairwise_direction {α : Type} {order : α → α → Ordering} {items : List α} (reverse : Bool)
    (hswap : ∀ left right, order right left = (order left right).swap)
    (h : items.Pairwise fun left right => order left right = .lt) :
    (if reverse then items.reverse else items).Pairwise fun left right => order left right = direction reverse := by
  cases reverse with
  | false => exact h
  | true =>
    rw [if_pos rfl, List.pairwise_reverse]
    refine h.imp ?_
    intro left right hless
    rw [hswap left right, hless]
    rfl

theorem mem_directed {α : Type} {items : List α} {reverse : Bool} {item : α} :
    item ∈ (if reverse then items.reverse else items) ↔ item ∈ items := by
  cases reverse <;> simp

section Store

variable {json : SerdeJson} {store : RecordStore} {range : Option KeyRange} {reverse keysOnly : Bool}

/-- The records of a range in the direction of a cursor. -/
def directed (store : RecordStore) (range : Option KeyRange) (reverse : Bool) : List Record :=
  (if reverse then store.records.reverse else store.records).filter fun record => inRange range record.key

theorem scanRequest_eq (hrange : validateRange range = .ok ()) :
    scanRequest store range reverse keysOnly =
      Cursor.answers validateKey (recordAnswer keysOnly)
        (fun after record => isBeyond reverse false (record.key.cmp after)) (directed store range reverse) := by
  funext after skip
  rw [scanRequest, scan, hrange, Cursor.answers, Cursor.rest, directed, List.filter_filter]
  cases validateKey after with
  | error => rfl
  | ok =>
    simp only [Bool.and_comm]
    rfl

theorem scan_complete (h : store.Sound) (hrange : validateRange range = .ok ()) :
    Cursor.Complete CursorRecord.key (recordAnswer keysOnly)
      (fun record record' => record.key.cmp record'.key = direction reverse)
      (fun record => record ∈ store.records ∧ inRange range record.key = true)
      (scanRequest store range reverse keysOnly) := by
  have hsorted : (directed store range reverse).Pairwise fun record record' =>
      record.key.cmp record'.key = direction reverse := by
    refine List.Pairwise.filter _ (pairwise_direction reverse ?_ h.sorted)
    exact fun left right => Key.cmp_swap left.key right.key
  have hmem : ∀ record, record ∈ directed store range reverse ↔
      record ∈ store.records ∧ inRange range record.key = true := by
    intro record
    rw [directed, List.mem_filter, mem_directed]
  have hordered : Cursor.Ordered Record.key (fun after record => isBeyond reverse false (record.key.cmp after))
      (directed store range reverse) := by
    refine ordered_of_cmp (fun record _ => Key.cmp_self record.key) ?_ ?_
    · refine hsorted.imp ?_
      intro record record' hdirection
      rw [Key.cmp_swap record.key, hdirection]
      exact ⟨rfl, rfl⟩
    · intro after
      refine hsorted.imp ?_
      intro record record' hdirection hbeyond
      rw [Key.cmp_swap after] at hbeyond ⊢
      rw [Ordering.swap_inj] at hbeyond ⊢
      exact direction_trans hbeyond hdirection
  have hvalid : ∀ record ∈ directed store range reverse, validateKey (some record.key) = .ok () := fun record hrecord =>
    h.valid record ((hmem record).mp hrecord).1
  have hplace : ∀ record ∈ directed store range reverse, (recordAnswer keysOnly record).key = record.key :=
    fun _ _ => rfl
  rw [scanRequest_eq hrange]
  exact hordered.complete hplace hvalid rfl hsorted hmem

/-! ## Index requests -/

variable {name : Str} {index : IndexDefinition} {unique : Bool}

/-- The entries of a range in the direction of a cursor. -/
def directedEntries (json : SerdeJson) (store : RecordStore) (range : Option KeyRange) (index : IndexDefinition)
    (reverse : Bool) : List IndexEntry :=
  if reverse then ((entriesOf json store index).filter fun entry => inRange range entry.key).reverse
  else (entriesOf json store index).filter fun entry => inRange range entry.key

/-- The entries that an index scan chooses from. -/
def scanned (json : SerdeJson) (store : RecordStore) (range : Option KeyRange) (index : IndexDefinition)
    (reverse unique : Bool) : List IndexEntry :=
  if unique then keepFirst none (directedEntries json store range index reverse)
  else directedEntries json store range index reverse

theorem mem_directedEntries {entry : IndexEntry} :
    entry ∈ directedEntries json store range index reverse ↔ Matches json store range index entry := by
  rw [directedEntries, mem_directed, List.mem_filter, mem_entriesOf, Matches]
  constructor
  · rintro ⟨⟨record, hrecord, key, hkey, rfl⟩, hrange⟩
    exact ⟨record, hrecord, key, hkey, hrange, rfl⟩
  · rintro ⟨record, hrecord, key, hkey, hrange, rfl⟩
    exact ⟨⟨record, hrecord, key, hkey, rfl⟩, hrange⟩

theorem directedEntries_sorted (h : store.Sound) :
    (directedEntries json store range index reverse).Pairwise fun entry entry' =>
      entry.cmp entry' = direction reverse :=
  pairwise_direction reverse IndexEntry.cmp_swap (List.Pairwise.filter _ (entriesOf_sorted h))

theorem Matches.valid (h : store.Sound) {entry : IndexEntry} (hentry : Matches json store range index entry) :
    entry.key.validate 0 = .ok () ∧ entry.primary.validate 0 = .ok () := by
  obtain ⟨record, hrecord, key, hkey, -, rfl⟩ := hentry
  exact ⟨(keysForValue_spec json index record.value).2 key hkey, h.valid record hrecord⟩

theorem indexScanRequest_eq (hindex : (store.definition.indexes.find? fun index => index.name = name) = some index)
    (hrange : validateRange range = .ok ()) :
    indexScanRequest json store range name reverse unique keysOnly =
      Cursor.answers (fun after => validateKey (after.map Prod.fst) >>= fun _ => validateKey (after.bind Prod.snd))
        (entryAnswer keysOnly)
        (fun after entry => isBeyond reverse false (positionOrder after.1 after.2 entry))
        (scanned json store range index reverse unique) := by
  funext after skip
  rw [indexScanRequest, indexScan, indexMatches, hrange, indexEntries, hindex, Cursor.answers, Cursor.rest]
  cases after with
  | none => rfl
  | some after =>
    obtain ⟨after, afterPrimary⟩ := after
    dsimp only [Option.map_some, Option.bind_some]
    cases validateKey (some after) with
    | error => rfl
    | ok =>
      cases validateKey afterPrimary with
      | error => rfl
      | ok => rfl

/-- A position that names a primary key stands where the entry stands. -/
theorem positionOrder_position (entry other : IndexEntry) :
    positionOrder entry.key (some entry.primary) other = other.cmp entry := by
  rw [positionOrder, IndexEntry.cmp]
  cases other.key.cmp entry.key <;> rfl

theorem IndexEntry.direction_trans {left middle right : IndexEntry} (hleft : left.cmp middle = direction reverse)
    (hright : middle.cmp right = direction reverse) : left.cmp right = direction reverse := by
  cases reverse with
  | false => exact place_lt.mp ((place_lt.mpr hleft).trans (place_lt.mpr hright))
  | true => exact place_gt.mp ((place_gt.mpr hright).trans (place_gt.mpr hleft))

theorem swap_direction (reverse : Bool) : (direction reverse).swap = direction !reverse := by
  cases reverse <;> rfl

/-- What follows an entry beyond a position is beyond it too. -/
theorem positionOrder_onward {entry next : IndexEntry} (after : Key × Option Key)
    (hnext : entry.cmp next = direction reverse)
    (hbeyond : positionOrder after.1 after.2 entry = (direction reverse).swap) :
    positionOrder after.1 after.2 next = (direction reverse).swap := by
  obtain ⟨after, afterPrimary⟩ := after
  have hback : next.cmp entry = direction !reverse := by
    rw [IndexEntry.cmp_swap entry, hnext, swap_direction]
  rw [swap_direction] at hbeyond ⊢
  dsimp only at hbeyond ⊢
  cases afterPrimary with
  | some primary =>
    have hposition := positionOrder_position ⟨after, primary, []⟩
    dsimp only at hposition
    rw [hposition] at hbeyond ⊢
    exact IndexEntry.direction_trans hback hbeyond
  | none =>
    have hkey : ∀ entry, positionOrder after none entry = entry.key.cmp after := by
      intro entry
      rw [positionOrder]
      cases entry.key.cmp after <;> rfl
    rw [hkey] at hbeyond ⊢
    rw [IndexEntry.cmp] at hback
    cases hcmp : next.key.cmp entry.key with
    | eq =>
      rw [Key.cmp_congr hcmp]
      exact hbeyond
    | lt | gt =>
      rw [hcmp] at hback
      exact BetterWebBrowser.IndexedDb.direction_trans (hcmp.trans hback) hbeyond

theorem scanned_sorted (h : store.Sound) :
    (scanned json store range index reverse unique).Pairwise (Precedes reverse unique) := by
  cases unique with
  | false => exact directedEntries_sorted h
  | true =>
    refine (keepFirst_spec (directedEntries_sorted h) ?_ (by simp)).1
    intro entry hentry
    exact ((mem_directedEntries.mp hentry).valid h).1

theorem Precedes.cmp {entry entry' : IndexEntry} (h : Precedes reverse unique entry entry') :
    entry.cmp entry' = direction reverse := by
  cases unique with
  | false => exact h
  | true =>
    rw [Precedes, if_pos rfl] at h
    rw [IndexEntry.cmp, h]
    cases reverse <;> rfl

theorem matches_of_scanned (h : store.Sound) {entry : IndexEntry}
    (hentry : entry ∈ scanned json store range index reverse unique) : Matches json store range index entry := by
  cases unique with
  | false => exact mem_directedEntries.mp hentry
  | true =>
    refine mem_directedEntries.mp (((keepFirst_spec (directedEntries_sorted h) ?_ (by simp)).2 entry).mp hentry).1
    intro entry hentry
    exact ((mem_directedEntries.mp hentry).valid h).1

/-- A cursor visits what the scans choose from. -/
theorem indexScan_complete (h : store.Sound)
    (hindex : (store.definition.indexes.find? fun index => index.name = name) = some index)
    (hrange : validateRange range = .ok ()) {selected : IndexEntry → Prop}
    (hselected : ∀ entry, entry ∈ scanned json store range index reverse unique ↔ selected entry) :
    Cursor.Complete (fun answer => (answer.key, answer.primaryKey)) (entryAnswer keysOnly)
      (Precedes reverse unique) selected (indexScanRequest json store range name reverse unique keysOnly) := by
  have hsorted : (scanned json store range index reverse unique).Pairwise (Precedes reverse unique) :=
    scanned_sorted h
  have hordered : Cursor.Ordered (fun entry : IndexEntry => (entry.key, some entry.primary))
      (fun after entry => isBeyond reverse false (positionOrder after.1 after.2 entry))
      (scanned json store range index reverse unique) := by
    refine ordered_of_cmp ?_ ?_ ?_
    · intro entry _
      rw [positionOrder_position]
      exact IndexEntry.place_eq.mp rfl
    · refine hsorted.imp ?_
      intro entry next hnext
      rw [positionOrder_position, positionOrder_position, IndexEntry.cmp_swap entry, hnext.cmp]
      exact ⟨rfl, rfl⟩
    · intro after
      refine hsorted.imp ?_
      intro entry next hnext
      exact positionOrder_onward after hnext.cmp
  have hvalid : ∀ entry ∈ scanned json store range index reverse unique,
      (validateKey (some entry.key) >>= fun _ => validateKey (some entry.primary)) = .ok () := by
    intro entry hentry
    obtain ⟨hkey, hprimary⟩ := (matches_of_scanned h hentry).valid h
    exact bind_eq_ok.mpr ⟨(), hkey, hprimary⟩
  rw [indexScanRequest_eq hindex hrange]
  exact hordered.complete (fun _ _ => rfl) hvalid rfl hsorted hselected

/-- A kept entry is the last of its key in the direction of the cursor. -/
theorem mem_scanned_unique (h : store.Sound) {entry : IndexEntry} :
    entry ∈ scanned json store range index reverse true ↔ Matches json store range index entry ∧
      ∀ other, Matches json store range index other → other.key.cmp entry.key = .eq →
        entry.primary.cmp other.primary ≠ (direction reverse).swap := by
  have hvalid : ∀ entry ∈ directedEntries json store range index reverse, entry.key.validate 0 = .ok () :=
    fun entry hentry => ((mem_directedEntries.mp hentry).valid h).1
  rw [scanned, if_pos rfl, (keepFirst_spec (directedEntries_sorted h) hvalid (by simp)).2, mem_directedEntries]
  apply and_congr_right
  intro _
  have hprimary : ∀ other, other.key.cmp entry.key = .eq → entry.cmp other = entry.primary.cmp other.primary := by
    intro other hkey
    rw [IndexEntry.cmp, Key.toClass_eq.mp (Key.toClass_eq.mpr hkey).symm]
    rfl
  constructor
  · rintro ⟨-, hlead⟩ other hother hkey
    rw [← hprimary other hkey]
    exact hlead other (mem_directedEntries.mpr hother) hkey
  · intro hlead
    refine ⟨by simp, ?_⟩
    intro other hother hkey
    rw [hprimary other hkey]
    exact hlead other (mem_directedEntries.mp hother) hkey

/-- No two entries in a range have one index key. -/
def KeysDiffer (json : SerdeJson) (store : RecordStore) (range : Option KeyRange) (index : IndexDefinition) : Prop :=
  ∀ entry other, Matches json store range index entry → Matches json store range index other →
    other.key.cmp entry.key = .eq → entry.primary.cmp other.primary = .eq

/-- Unless it is a unique cursor backwards over equal keys, a cursor visits the selected entries. -/
theorem scanned_selected (h : store.Sound)
    (hdiffer : unique = true → reverse = true → KeysDiffer json store range index) (entry : IndexEntry) :
    entry ∈ scanned json store range index reverse unique ↔ Selected json store range index unique entry := by
  rw [Selected]
  cases unique with
  | false =>
    rw [scanned, if_neg Bool.false_ne_true, mem_directedEntries]
    simp
  | true =>
    rw [mem_scanned_unique h]
    apply and_congr_right
    intro hentry
    cases reverse with
    | false => simp [direction]
    | true =>
      have hsame := hdiffer rfl rfl
      refine iff_of_true ?_ fun _ => ?_ <;> intro other hother hkey <;> rw [hsame entry other hentry hother hkey] <;>
        decide

/-- A unique cursor backwards comes to the entry of the highest primary key. -/
theorem keysDiffer_of_complete (h : store.Sound)
    (hindex : (store.definition.indexes.find? fun index => index.name = name) = some index)
    (hrange : validateRange range = .ok ())
    (hcomplete : Cursor.Complete (fun answer => (answer.key, answer.primaryKey)) (entryAnswer keysOnly)
      (Precedes true true) (Selected json store range index true)
      (indexScanRequest json store range name true true keysOnly)) :
    KeysDiffer json store range index := by
  obtain ⟨visited, -, hvisited, hvisit⟩ := hcomplete.visits
  obtain ⟨last, -, hlast, hlastVisit⟩ := (indexScan_complete h hindex hrange
    (fun entry => Iff.rfl : ∀ entry, entry ∈ scanned json store range index true true ↔ _)).visits
  have hanswers : visited.map (entryAnswer keysOnly) = last.map (entryAnswer keysOnly) := by
    have hboth := (hvisit (visited.length + last.length + 1) (by omega)).symm.trans
      (hlastVisit (visited.length + last.length + 1) (by omega))
    exact Option.some.inj (Except.ok.inj hboth)
  have hlow : ∀ top ∈ scanned json store range index true true, ∀ other, Matches json store range index other →
      other.key.cmp top.key = .eq → top.primary.cmp other.primary = .eq := by
    intro top htop other hother hkey
    have hmem : entryAnswer keysOnly top ∈ visited.map (entryAnswer keysOnly) := by
      rw [hanswers]
      exact List.mem_map_of_mem ((hlast top).mpr htop)
    obtain ⟨low, hlow, hsame⟩ := List.mem_map.mp hmem
    have hsameKey : low.key = top.key := congrArg CursorRecord.key hsame
    have hsamePrimary : low.primary = top.primary := Option.some.inj (congrArg CursorRecord.primaryKey hsame)
    have hlowest := ((hvisited low).mp hlow).2 rfl other hother (by rw [hsameKey]; exact hkey)
    rw [hsamePrimary] at hlowest
    have hhighest := ((mem_scanned_unique h).mp htop).2 other hother hkey
    cases hcmp : top.primary.cmp other.primary with
    | eq => rfl
    | lt => exact absurd hcmp hhighest
    | gt => exact absurd hcmp hlowest
  intro entry other hentry hother hkey
  have hvalid : ∀ entry ∈ directedEntries json store range index true, entry.key.validate 0 = .ok () :=
    fun entry hentry => ((mem_directedEntries.mp hentry).valid h).1
  obtain ⟨top, htop, htopKey⟩ := (@exists_keepFirst _ none hvalid (by simp) entry
    (mem_directedEntries.mpr hentry)).resolve_left (by simp)
  have hentryKey : entry.key.cmp top.key = .eq := Key.toClass_eq.mp (Key.toClass_eq.mpr htopKey).symm
  have hotherKey : other.key.cmp top.key = .eq := (Key.cmp_congr hkey).trans hentryKey
  have hentryPrimary := Key.toClass_eq.mpr (hlow top htop entry hentry hentryKey)
  have hotherPrimary := Key.toClass_eq.mpr (hlow top htop other hother hotherKey)
  exact Key.toClass_eq.mp (hentryPrimary.symm.trans hotherPrimary)

end Store

/-- Cursors visit each entry once and in order, and skip as if they visited. A unique cursor stops
at the lowest primary key of each index key, unless it goes backwards over equal index keys. -/
theorem cursor_visits_iff (json : SerdeJson) (store : RecordStore) (h : store.Sound) (range : Option KeyRange)
    (hrange : validateRange range = .ok ()) (reverse keysOnly : Bool) :
    Cursor.Complete CursorRecord.key (recordAnswer keysOnly)
        (fun record record' => record.key.cmp record'.key = direction reverse)
        (fun record => record ∈ store.records ∧ inRange range record.key = true)
        (scanRequest store range reverse keysOnly) ∧
      ∀ (name : Str) (index : IndexDefinition) (unique : Bool),
        (store.definition.indexes.find? fun index => index.name = name) = some index →
          (Cursor.Complete (fun answer => (answer.key, answer.primaryKey)) (entryAnswer keysOnly)
              (Precedes reverse unique) (Selected json store range index unique)
              (indexScanRequest json store range name reverse unique keysOnly) ↔
            (unique = true → reverse = true → KeysDiffer json store range index)) := by
  refine ⟨scan_complete h hrange, ?_⟩
  intro name index unique hindex
  constructor
  · rintro hcomplete rfl rfl
    exact keysDiffer_of_complete h hindex hrange hcomplete
  · intro hdiffer
    exact indexScan_complete h hindex hrange (scanned_selected h hdiffer)

private def twinJson : SerdeJson := ⟨fun _ => some (.String "a".toList), fun _ => []⟩

private def twinIndex : IndexDefinition := ⟨"i".toList, .Single [], false, false⟩

private def twinKey (number : Nat) : Key := .Number (Double.ofU64 number)

private def twinStore : RecordStore :=
  ⟨⟨"s".toList, none, false, [twinIndex]⟩, 1, [⟨twinKey 1, []⟩, ⟨twinKey 2, []⟩]⟩

private theorem twin_sound : twinStore.Sound := by
  constructor
  · refine List.pairwise_pair.mpr ?_
    exact Key.lt_iff.mpr (by decide +kernel)
  · intro record hrecord
    rcases List.mem_pair.mp hrecord with rfl | rfl <;> rfl

private theorem twin_keys (value : Str) : keysForValue twinJson twinIndex value = [.String "a".toList] := by
  have hkey : extractPath (.String "a".toList) [] = some (.String "a".toList) := by
    simp [extractPath, Json.projectPath, Json.cloneKey, Json.asF64, Json.asStr]
  have hvalid : isValidKey (.String "a".toList) = true := by decide
  simp [keysForValue, wholeKey, twinJson, twinIndex] at hkey hvalid ⊢
  simp [hkey, hvalid]

private theorem twin_matches {record : Record} (hrecord : record ∈ twinStore.records) :
    Matches twinJson twinStore none twinIndex ⟨.String "a".toList, record.key, record.value⟩ :=
  ⟨record, hrecord, .String "a".toList, by rw [twin_keys]; exact List.mem_singleton.mpr rfl, rfl, rfl⟩

/-- Two records with one index key: a unique cursor backwards stops at the second one. -/
theorem unique_reverse_highest :
    ¬ Cursor.Complete (fun answer => (answer.key, answer.primaryKey)) (entryAnswer true) (Precedes true true)
      (Selected twinJson twinStore none twinIndex true)
      (indexScanRequest twinJson twinStore none "i".toList true true true) := by
  intro hcomplete
  have hdiffer := keysDiffer_of_complete twin_sound rfl rfl hcomplete
  have hequal := hdiffer _ _ (@twin_matches ⟨twinKey 1, []⟩ (by simp [twinStore]))
    (@twin_matches ⟨twinKey 2, []⟩ (by simp [twinStore])) (Key.cmp_self _)
  have hless : (twinKey 1).cmp (twinKey 2) = .lt := by decide +kernel
  rw [hless] at hequal
  cases hequal

/-- Forwards the unique cursor stops at the first record. -/
theorem cursor_visits_iff_sample :
    Cursor.Complete (fun answer => (answer.key, answer.primaryKey)) (entryAnswer true) (Precedes false true)
      (Selected twinJson twinStore none twinIndex true)
      (indexScanRequest twinJson twinStore none "i".toList false true true) :=
  ((cursor_visits_iff twinJson twinStore twin_sound none rfl false true).2 "i".toList twinIndex true rfl).mpr
    fun _ hreverse => Bool.noConfusion hreverse

end BetterWebBrowser.IndexedDb
