import BetterWebBrowser.IndexedDb.RecordMap

/-!
# Generated keys

The generator of a store stays ahead of every number among the keys as long as it counts to
`2 ^ 53`. From there on doubles skip integers and keys repeat.
-/

namespace BetterWebBrowser.IndexedDb

open Framework RecordStore

/-! ## Numbers as keys -/

/-- The order of numbers as keys is the order of the numbers. -/
theorem Key.cmpNumbers_signed (left right : Double) :
    cmpNumbers left right = compare left.signed right.signed := by
  have horder : ∀ value : Double, numberOrder value =
      if value.signed < 0 then value.signed - 1 else value.signed := by
    intro value
    rw [numberOrder]
    split
    next hzero =>
      rw [Double.signed_zero.mpr (eq_zero_iff.mp hzero)]
      rfl
    next hother =>
      have hmagnitude := mt eq_zero_iff.mpr hother
      rw [Double.totalOrder, Double.signed]
      split_ifs <;> omega
  rw [cmpNumbers_eq, horder, horder]
  rcases lt_trichotomy left.signed right.signed with hlt | heq | hgt
  · rw [compare_lt_iff_lt.mpr hlt, compare_lt_iff_lt]
    split_ifs <;> omega
  · rw [heq, compare_eq_iff_eq.mpr rfl, compare_eq_iff_eq.mpr rfl]
  · rw [compare_gt_iff_gt.mpr hgt, compare_gt_iff_gt]
    split_ifs <;> omega

/-- The number that the generator hands out. -/
def generatedNumber (next : Nat) : Double := Double.ofU64 next

theorem generatedNumber_lt {next next' : Nat} (h : next < next') (hlimit : next' ≤ GENERATOR_LIMIT) :
    (generatedNumber next).signed < (generatedNumber next').signed := by
  have hexact := @Double.ofU64_exact next' hlimit
  exact (Double.ofU64_exact (h.le.trans hlimit)).signed_lt hexact h

/-- At its limit the generator repeats itself. -/
theorem generatedNumber_limit : generatedNumber (GENERATOR_LIMIT + 1) = generatedNumber GENERATOR_LIMIT := by
  decide +kernel

theorem generatedNumber_finite {next : Nat} (h : next ≤ GENERATOR_LIMIT) :
    (generatedNumber next).isNan = false :=
  Double.isNan_of_isFinite (@Double.ofU64_exact next h).finite

/-! ## What an operation does to the generator -/

/-- The key that an operation has generated. -/
def generatedBy : DbOperation × DbResult → Option Key
  | (.Put _ none _ _, .Key key) => some key
  | _ => none

/-- A key of a record after a write is the written one or was there before. -/
theorem RecordStore.Sound.place_keys {store : RecordStore} (h : store.Sound) {key : Key} {value : Str}
    {overwrite : Bool} {records : List Record} (hplace : store.place key value overwrite = .ok records) :
    ∀ record ∈ records, record.key = key ∨ ∃ old ∈ store.records, old.key = record.key := by
  have hlocated := h.locate key
  rw [place] at hplace
  generalize store.locate key = place at hlocated hplace
  generalize store.records = all at hlocated hplace ⊢
  cases hlocated with
  | @found front back old hbelow hequal habove =>
    dsimp only at hplace
    split at hplace
    · rw [BinarySearch.modify_at] at hplace
      cases hplace
      intro record hrecord
      right
      rcases List.mem_append.mp hrecord with hfront | hrest
      · exact ⟨record, List.mem_append_left _ hfront, rfl⟩
      · rcases List.mem_cons.mp hrest with rfl | hback
        · exact ⟨old, by simp, rfl⟩
        · exact ⟨record, by simp [hback], rfl⟩
    · cases hplace
  | @missing front back hbelow habove =>
    dsimp only at hplace
    rw [BinarySearch.insertIdx_at] at hplace
    cases hplace
    intro record hrecord
    rcases List.mem_append.mp hrecord with hfront | hrest
    · exact .inr ⟨record, List.mem_append_left _ hfront, rfl⟩
    · rcases List.mem_cons.mp hrest with rfl | hback
      · exact .inl rfl
      · exact .inr ⟨record, List.mem_append_right _ hback, rfl⟩

/-- What the keys and the generator of a store become. -/
inductive KeysStep (store next : RecordStore) (label : DbOperation × DbResult) : Prop
  | given {key : Key} (finite : ∀ number, key = .Number number → number.isNan = false)
      (none : generatedBy label = none) (nextKey : next.nextKey = store.bumped store.nextKey key)
      (keys : ∀ record ∈ next.records, record.key = key ∨ ∃ old ∈ store.records, old.key = record.key)
  | generated (key : generatedBy label = some (.Number (generatedNumber store.nextKey)))
      (nextKey : next.nextKey = store.bumped (store.nextKey + 1) (.Number (generatedNumber store.nextKey)))
      (keys : ∀ record ∈ next.records, record.key = .Number (generatedNumber store.nextKey) ∨
        ∃ old ∈ store.records, old.key = record.key)
  | other (none : generatedBy label = none) (nextKey : next.nextKey = store.nextKey)
      (keys : ∀ record ∈ next.records, record ∈ store.records)

theorem isNan_of_validate {number : Double} (h : (Key.Number number).validate 0 = .ok ()) :
    number.isNan = false := by
  rw [Key.validate] at h
  have hrest := (failIf_bind_eq_ok.mp h).2
  rw [failIf] at hrest
  split at hrest
  next => cases hrest
  next hfinite => exact Double.isNan_of_isFinite ((Bool.not_eq_false _).mp hfinite)

theorem RecordStore.Sound.keysStep {json : SerdeJson} {store next : RecordStore}
    {label : DbOperation × DbResult} (h : store.Sound) (hstep : Applied json store label next) :
    KeysStep store next label ∧ next.definition = store.definition := by
  obtain ⟨operation, result⟩ := label
  rw [Applied] at hstep
  cases operation with
  | Put name given value overwrite =>
    obtain ⟨key, generated, nextKey, stored, records, hkey, hvalid, -, -, hplace, hresult, rfl⟩ := put_ok hstep
    dsimp only at hresult
    refine ⟨?_, rfl⟩
    cases given with
    | some given =>
      cases hkey
      refine .given ?_ rfl rfl (h.place_keys hplace)
      rintro number rfl
      exact isNan_of_validate hvalid
    | none =>
      rw [keyFor] at hkey
      split at hkey
      · split at hkey
        next following hfollowing =>
          cases hkey
          obtain ⟨rfl, -⟩ := checkedAdd_eq_some.mp hfollowing
          refine .generated ?_ rfl (h.place_keys hplace)
          rw [hresult]
          rfl
        next => cases hkey
      · cases hkey
  | Delete name key =>
    obtain ⟨⟨⟩, -, hdelete⟩ := bind_eq_ok.mp hstep
    cases hdelete
    split
    · exact ⟨.other rfl rfl fun record hrecord => List.mem_of_mem_eraseIdx hrecord, rfl⟩
    · exact ⟨.other rfl rfl fun record hrecord => hrecord, rfl⟩
  | DeleteRange name range =>
    obtain ⟨⟨⟩, -, hdelete⟩ := bind_eq_ok.mp hstep
    cases hdelete
    exact ⟨.other rfl rfl fun record hrecord => (List.mem_filter.mp hrecord).1, rfl⟩
  | Clear name =>
    cases hstep
    exact ⟨.other rfl rfl fun _ hmem => absurd hmem List.not_mem_nil, rfl⟩
  | Get | GetAll | Scan | Count | IndexGet | IndexGetAll | IndexCount | IndexScan =>
    obtain ⟨-, rfl⟩ := reading_ok hstep
    exact ⟨.other rfl rfl fun _ hrecord => hrecord, rfl⟩

/-! ## Runs of a store -/

/-- A store with the keys generated in it so far. -/
structure History where
  store : RecordStore
  generated : List Key

namespace History

def Recorded (json : SerdeJson) (history : History) (label : DbOperation × DbResult) (next : History) :
    Prop :=
  Applied json history.store label next.store ∧
    next.generated = history.generated ++ (generatedBy label).toList

/-- A generated key is new: above the ones before it, and not the key of a record. -/
def IsFresh (history : History) (label : DbOperation × DbResult) : Prop :=
  ∀ key, generatedBy label = some key → (∀ earlier ∈ history.generated, earlier.cmp key = .lt) ∧
    ∀ record ∈ history.store.records, record.key.cmp key ≠ .eq

/-- The generator has not passed its limit, where no record may be waiting for it. -/
def MayGenerate (history : History) (label : DbOperation × DbResult) : Prop :=
  (generatedBy label).isSome = true → history.store.nextKey ≤ GENERATOR_LIMIT ∧
    (history.store.nextKey = GENERATOR_LIMIT → ∀ record ∈ history.store.records,
      record.key.cmp (.Number (generatedNumber GENERATOR_LIMIT)) ≠ .eq)

/-- A new store with automatic keys. -/
def start (definition : StoreDefinition) : History := ⟨⟨definition, 1, []⟩, []⟩

/-- A number among the keys is below the next one to generate, or out of the generator's reach. -/
def IsBehind (next : Nat) (key : Key) : Prop :=
  ∀ number, key = .Number number → number.signed < (generatedNumber next).signed ∨
    (generatedNumber GENERATOR_LIMIT).signed ≤ number.signed

/-- What holds while the generator has not passed its limit by more than one. -/
structure Ahead (history : History) : Prop where
  sound : history.store.Sound
  automatic : history.store.definition.autoIncrement = true
  bounded : history.store.nextKey ≤ GENERATOR_LIMIT + 1
  records : ∀ record ∈ history.store.records, IsBehind history.store.nextKey record.key
  generated : ∀ key ∈ history.generated, ∃ number, number < history.store.nextKey ∧
    number ≤ GENERATOR_LIMIT ∧ key = .Number (generatedNumber number)
  last : history.store.nextKey = GENERATOR_LIMIT + 1 →
    Key.Number (generatedNumber GENERATOR_LIMIT) ∈ history.generated

theorem start_ahead {definition : StoreDefinition} (h : definition.autoIncrement = true) :
    (start definition).Ahead where
  sound := ⟨List.Pairwise.nil, fun _ hmem => absurd hmem List.not_mem_nil⟩
  automatic := h
  bounded := by
    show 1 ≤ GENERATOR_LIMIT + 1
    decide
  records := fun _ hmem => absurd hmem List.not_mem_nil
  generated := fun _ hmem => absurd hmem List.not_mem_nil
  last := by
    show 1 = GENERATOR_LIMIT + 1 → _
    intro hnext
    exact absurd hnext (by decide)

/-- The generator after a key of a record: the key is behind it, and so is all that was. -/
theorem bumped_spec {store : RecordStore} {nextKey : Nat} {key : Key}
    (hautomatic : store.definition.autoIncrement = true) (hbounded : nextKey ≤ GENERATOR_LIMIT + 1)
    (hfinite : ∀ number, key = .Number number → number.isNan = false) :
    IsBehind (store.bumped nextKey key) key ∧
      (∀ other, IsBehind nextKey other → IsBehind (store.bumped nextKey key) other) ∧
      nextKey ≤ store.bumped nextKey key ∧
      (store.bumped nextKey key = nextKey ∨ store.bumped nextKey key ≤ GENERATOR_LIMIT) := by
  cases key with
  | Number number =>
    have hnan := hfinite number rfl
    have hnextNan : (Double.ofU64 nextKey).isNan = false := by
      rcases Nat.lt_or_eq_of_le hbounded with hless | heq
      · exact generatedNumber_finite (Nat.le_of_lt_succ hless)
      · rw [heq]
        decide +kernel
    have hlimitNan : (Double.ofU64 GENERATOR_LIMIT).isNan = false := by decide +kernel
    rw [bumped]
    simp only [hautomatic, Double.le, Double.lt, hnan, hnextNan, hlimitNan, Bool.not_false, Bool.true_and,
      Bool.and_eq_true, decide_eq_true_eq]
    split
    next hreach =>
      obtain ⟨hle, hlt⟩ := hreach
      obtain ⟨hlimit, hbelow⟩ := Double.floorToU64_spec hnan (by decide) hlt (by decide)
      have hmore : nextKey ≤ number.floorToU64 + 1 := by
        by_contra hless
        rcases Nat.lt_or_eq_of_le hbounded with hsmall | hpast
        · have hsigned := generatedNumber_lt (not_le.mp hless) (Nat.le_of_lt_succ hsmall)
          exact absurd (hle.trans_lt (hbelow.trans hsigned)) (lt_irrefl _)
        · rw [hpast] at hle
          have hequal := generatedNumber_limit
          rw [generatedNumber, generatedNumber] at hequal
          rw [hequal] at hle
          exact absurd (hle.trans_lt hlt) (lt_irrefl _)
      refine ⟨?_, ?_, hmore, .inr hlimit⟩
      · intro number' hnumber'
        cases hnumber'
        exact .inl hbelow
      · intro other hother number' hnumber'
        exact (hother number' hnumber').imp_left fun hless => hless.trans_le (hle.trans hbelow.le)
    next hreach =>
      refine ⟨?_, fun _ hother => hother, le_rfl, .inl rfl⟩
      intro number' hnumber'
      cases hnumber'
      rw [not_and_or, not_le, not_lt] at hreach
      exact hreach
  | Date | String | Binary | Array =>
    refine ⟨?_, fun _ hother => hother, le_rfl, .inl rfl⟩
    intro number' hnumber'
    cases hnumber'

theorem IsBehind.succ {next : Nat} {key : Key} (h : IsBehind next key) (hlimit : next ≤ GENERATOR_LIMIT) :
    IsBehind (next + 1) key := by
  rcases Nat.lt_or_eq_of_le hlimit with hless | heq
  · intro number hnumber
    exact (h number hnumber).imp_left fun hbelow =>
      hbelow.trans (generatedNumber_lt (Nat.lt_succ_self next) hless)
  · rw [heq] at h ⊢
    rw [IsBehind, generatedNumber_limit]
    exact h

variable {json : SerdeJson} {history next : History} {label : DbOperation × DbResult}

/-- The keys that a run has generated. -/
theorem run_generated {good : History → DbOperation × DbResult → Prop} {labels : List (DbOperation × DbResult)}
    (hrun : Run (fun history label next => history.Recorded json label next ∧ good history label) history
      labels next) : next.generated = history.generated ++ labels.filterMap generatedBy := by
  induction hrun with
  | nil => simp
  | @snoc labels t u label _ hlast ih =>
    rw [hlast.1.2, ih, List.filterMap_append, List.append_assoc]
    cases hgenerated : generatedBy label <;> simp [hgenerated]

/-- An operation that may generate a key keeps the generator ahead. -/
theorem Ahead.step (h : history.Ahead) (hstep : history.Recorded json label next)
    (hmay : history.MayGenerate label) : next.Ahead := by
  obtain ⟨happlied, hgenerated⟩ := hstep
  obtain ⟨hkeys, hdefinition⟩ := h.sound.keysStep happlied
  have hsound := (h.sound.apply happlied).1
  have hautomatic : next.store.definition.autoIncrement = true := hdefinition ▸ h.automatic
  cases hkeys with
  | @given key hfinite hnone hnext hrecords =>
    obtain ⟨hkey, hmono, hmore, hlimit⟩ := bumped_spec h.automatic h.bounded hfinite
    rw [← hnext] at hkey hmono hmore hlimit
    rw [hnone, Option.toList_none, List.append_nil] at hgenerated
    refine ⟨hsound, hautomatic, ?_, ?_, ?_, ?_⟩
    · rcases hlimit with hsame | hsmall
      · exact hsame ▸ h.bounded
      · exact hsmall.trans (Nat.le_succ _)
    · intro record hrecord
      rcases hrecords record hrecord with heq | ⟨old, hold, heq⟩
      · exact heq ▸ hkey
      · exact heq ▸ hmono _ (h.records old hold)
    · intro earlier hearlier
      rw [hgenerated] at hearlier
      obtain ⟨number, hnumber, hrest⟩ := h.generated earlier hearlier
      exact ⟨number, hnumber.trans_le hmore, hrest⟩
    · intro hlast
      rw [hgenerated]
      exact h.last (by omega)
  | generated hkey hnext hrecords =>
    have hle := (hmay (by rw [hkey]; rfl)).1
    have hfinite : ∀ number, Key.Number (generatedNumber history.store.nextKey) = .Number number →
        number.isNan = false := by
      intro number hnumber
      rw [← Key.Number.inj hnumber]
      exact generatedNumber_finite hle
    obtain ⟨hbehind, hmono, hmore, hlimit⟩ :=
      bumped_spec h.automatic (Nat.succ_le_succ hle) hfinite
    rw [← hnext] at hbehind hmono hmore hlimit
    rw [hkey, Option.toList_some] at hgenerated
    refine ⟨hsound, hautomatic, ?_, ?_, ?_, ?_⟩
    · omega
    · intro record hrecord
      rcases hrecords record hrecord with heq | ⟨old, hold, heq⟩
      · exact heq ▸ hbehind
      · exact heq ▸ hmono _ ((h.records old hold).succ hle)
    · intro earlier hearlier
      rw [hgenerated] at hearlier
      rcases List.mem_append.mp hearlier with hold | hnew
      · obtain ⟨number, hnumber, hrest⟩ := h.generated earlier hold
        exact ⟨number, by omega, hrest⟩
      · exact ⟨history.store.nextKey, hmore, hle, List.mem_singleton.mp hnew⟩
    · intro hlast
      have heq : history.store.nextKey = GENERATOR_LIMIT := by omega
      rw [hgenerated, ← heq]
      exact List.mem_append_right _ List.mem_cons_self
  | other hnone hnext hrecords =>
    rw [hnone, Option.toList_none, List.append_nil] at hgenerated
    refine ⟨hsound, hautomatic, hnext ▸ h.bounded, ?_, ?_, ?_⟩
    · intro record hrecord
      rw [hnext]
      exact h.records record (hrecords record hrecord)
    · rw [hnext, hgenerated]
      exact h.generated
    · rw [hnext, hgenerated]
      exact h.last

/-- Keys of numbers compare like the numbers. -/
private theorem cmp_number {key : Key} {number : Double} (h : key.cmp (.Number number) = .eq) :
    ∃ other, key = .Number other ∧ other.signed = number.signed := by
  cases key with
  | Number other =>
    rw [Key.cmp, Key.cmpNumbers_signed, compare_eq_iff_eq] at h
    exact ⟨other, rfl, h⟩
  | Date | String | Binary | Array => simp [Key.cmp, Key.rank] at h

/-- While the generator is ahead, a key it generates is new exactly if it may generate one. -/
theorem Ahead.fresh_iff (h : history.Ahead) (hstep : history.Recorded json label next) :
    history.IsFresh label ↔ history.MayGenerate label := by
  have hkey : ∀ key, generatedBy label = some key → key = .Number (generatedNumber history.store.nextKey) := by
    intro key hkey
    cases (h.sound.keysStep hstep.1).1 with
    | given _ hnone => exact absurd (hkey.symm.trans hnone) (Option.some_ne_none _)
    | generated hgenerated => exact Option.some.inj (hkey.symm.trans hgenerated)
    | other hnone => exact absurd (hkey.symm.trans hnone) (Option.some_ne_none _)
  constructor
  · intro hfresh hsome
    obtain ⟨key, hgenerated⟩ := Option.isSome_iff_exists.mp hsome
    obtain ⟨hearlier, hrecords⟩ := hfresh key hgenerated
    rw [hkey key hgenerated] at hearlier hrecords
    have hle : history.store.nextKey ≤ GENERATOR_LIMIT := by
      by_contra hpast
      have hbounded := h.bounded
      have hlast : history.store.nextKey = GENERATOR_LIMIT + 1 := by omega
      have hless := hearlier _ (h.last hlast)
      rw [hlast, generatedNumber_limit, Key.cmp, Key.cmpNumbers_signed, compare_lt_iff_lt] at hless
      exact lt_irrefl _ hless
    refine ⟨hle, ?_⟩
    intro heq
    rw [← heq]
    exact hrecords
  · intro hmay key hgenerated
    obtain ⟨hle, hlimit⟩ := hmay (by rw [hgenerated]; rfl)
    rw [hkey key hgenerated]
    constructor
    · intro earlier hearlier
      obtain ⟨number, hnumber, -, rfl⟩ := h.generated earlier hearlier
      rw [Key.cmp, Key.cmpNumbers_signed, compare_lt_iff_lt]
      exact generatedNumber_lt hnumber hle
    · intro record hrecord hequal
      rcases Nat.lt_or_eq_of_le hle with hless | heq
      · obtain ⟨number, hnumber, hsigned⟩ := cmp_number hequal
        rcases h.records record hrecord number hnumber with hbelow | habove
        · omega
        · have hsmall := generatedNumber_lt hless le_rfl
          omega
      · rw [heq] at hequal
        exact hlimit heq record hrecord hequal

end History

open History in
/-- From a new store with automatic keys, the keys that a run generates are all new exactly if no
key is generated past the limit, or at it with a record in the way. -/
theorem generated_keys_fresh_iff {definition : StoreDefinition} (hautomatic : definition.autoIncrement = true)
    (json : SerdeJson) (labels : List (DbOperation × DbResult)) (reached : History) :
    Run (fun history label next => history.Recorded json label next ∧ history.IsFresh label)
        (start definition) labels reached ↔
      Run (fun history label next => history.Recorded json label next ∧ history.MayGenerate label)
        (start definition) labels reached := by
  constructor
  · intro hrun
    have hboth : Run (fun history label next => history.Recorded json label next ∧ history.MayGenerate label)
        (start definition) labels reached ∧ reached.Ahead := by
      induction hrun with
      | nil => exact ⟨.nil, start_ahead hautomatic⟩
      | snoc _ hlast ih =>
        have hmay := (ih.2.fresh_iff hlast.1).mp hlast.2
        exact ⟨ih.1.snoc ⟨hlast.1, hmay⟩, ih.2.step hlast.1 hmay⟩
    exact hboth.1
  · intro hrun
    have hboth : Run (fun history label next => history.Recorded json label next ∧ history.IsFresh label)
        (start definition) labels reached ∧ reached.Ahead := by
      induction hrun with
      | nil => exact ⟨.nil, start_ahead hautomatic⟩
      | snoc _ hlast ih =>
        have hfresh := (ih.2.fresh_iff hlast.1).mpr hlast.2
        exact ⟨ih.1.snoc ⟨hlast.1, hfresh⟩, ih.2.step hlast.1 hlast.2⟩
    exact hboth.1

/-! The generator at its limit. -/

private def sampleJson' : SerdeJson := ⟨fun _ => none, fun _ => []⟩

private def sampleDefinition : StoreDefinition := ⟨"s".toList, none, true, []⟩

private def recordOf (key : Nat) : Record := ⟨.Number (generatedNumber key), []⟩

private def sampleStore (keys : List Nat) (nextKey : Nat) : RecordStore :=
  ⟨sampleDefinition, nextKey, keys.map recordOf⟩

private def putLabel (given : Option Nat) (key : Nat) : DbOperation × DbResult :=
  (.Put "s".toList (given.map fun key => .Number (generatedNumber key)) [] true,
    .Key (.Number (generatedNumber key)))

private def sampleHistory (keys generated : List Nat) (nextKey : Nat) : History :=
  ⟨sampleStore keys nextKey, generated.map fun key => .Number (generatedNumber key)⟩

private theorem put_recorded (keys keys' generated : List Nat) (nextKey key : Nat) (given : Option Nat)
    {following nextKey' : Nat}
    (hkey : (sampleStore keys nextKey).keyFor (given.map fun key => .Number (generatedNumber key)) =
      .ok (.Number (generatedNumber key), given.isNone, following))
    (hvalid : (Key.Number (generatedNumber key)).validate 0 = .ok ())
    (hplace : (sampleStore keys nextKey).place (.Number (generatedNumber key)) [] true =
      .ok (keys'.map recordOf))
    (hnext : (sampleStore keys nextKey).bumped following (.Number (generatedNumber key)) = nextKey') :
    (sampleHistory keys generated nextKey).Recorded sampleJson' (putLabel given key)
      (sampleHistory keys' (generated ++ if given.isNone then [key] else []) nextKey') := by
  constructor
  · change put sampleJson' (sampleStore keys nextKey) _ [] true = _
    rw [put, hkey]
    change ((Key.Number (generatedNumber key)).validate 0 >>= fun _ =>
      valueFor sampleJson' (sampleStore keys nextKey) given.isNone (.Number (generatedNumber key)) [] >>=
        fun stored => checkUniqueIndexValues sampleJson' (sampleStore keys nextKey) _ stored >>=
          fun _ => (sampleStore keys nextKey).place (.Number (generatedNumber key)) stored true >>= _) = _
    rw [hvalid]
    have hvalue : valueFor sampleJson' (sampleStore keys nextKey) given.isNone
        (.Number (generatedNumber key)) [] = .ok [] := by
      cases given <;> rfl
    rw [hvalue]
    change ((sampleStore keys nextKey).place (.Number (generatedNumber key)) [] true >>= _) = _
    rw [hplace]
    change Except.ok (DbResult.Key (.Number (generatedNumber key)),
      ({ sampleStore keys nextKey with
        nextKey := (sampleStore keys nextKey).bumped following (.Number (generatedNumber key)),
        records := keys'.map recordOf } : RecordStore)) = _
    rw [hnext]
    rfl
  · cases given <;> simp [sampleHistory, putLabel, generatedBy]

private theorem explicit_step : (History.start sampleDefinition).Recorded sampleJson'
    (putLabel (some (2 ^ 53 - 1)) (2 ^ 53 - 1)) (sampleHistory [2 ^ 53 - 1] [] GENERATOR_LIMIT) :=
  put_recorded [] [2 ^ 53 - 1] [] 1 (2 ^ 53 - 1) (some (2 ^ 53 - 1)) rfl (by decide +kernel) rfl
    (by decide +kernel)

private theorem limit_step : (sampleHistory [2 ^ 53 - 1] [] GENERATOR_LIMIT).Recorded sampleJson'
    (putLabel none GENERATOR_LIMIT)
    (sampleHistory [2 ^ 53 - 1, GENERATOR_LIMIT] [GENERATOR_LIMIT] (GENERATOR_LIMIT + 1)) := by
  refine put_recorded [2 ^ 53 - 1] [2 ^ 53 - 1, GENERATOR_LIMIT] [] GENERATOR_LIMIT GENERATOR_LIMIT none rfl (by decide +kernel) ?_ (by decide +kernel)
  have hlocate : (sampleStore [2 ^ 53 - 1] GENERATOR_LIMIT).locate (.Number (generatedNumber GENERATOR_LIMIT)) =
      .error 1 := by
    refine @BinarySearch.absent _ _ [recordOf (2 ^ 53 - 1)] [] ?_ ?_
    · decide +kernel
    · decide +kernel
  rw [place, hlocate]
  rfl

private theorem repeated_step :
    (sampleHistory [2 ^ 53 - 1, GENERATOR_LIMIT] [GENERATOR_LIMIT] (GENERATOR_LIMIT + 1)).Recorded
      sampleJson' (putLabel none (GENERATOR_LIMIT + 1))
      (sampleHistory [2 ^ 53 - 1, GENERATOR_LIMIT] [GENERATOR_LIMIT, GENERATOR_LIMIT + 1]
        (GENERATOR_LIMIT + 2)) := by
  refine put_recorded [2 ^ 53 - 1, GENERATOR_LIMIT] [2 ^ 53 - 1, GENERATOR_LIMIT] [GENERATOR_LIMIT]
    (GENERATOR_LIMIT + 1) (GENERATOR_LIMIT + 1) none rfl (by decide +kernel) ?_ (by decide +kernel)
  have hlocate : (sampleStore [2 ^ 53 - 1, GENERATOR_LIMIT] (GENERATOR_LIMIT + 1)).locate
      (.Number (generatedNumber (GENERATOR_LIMIT + 1))) = .ok 1 := by
    refine @BinarySearch.present _ _ [recordOf (2 ^ 53 - 1)] [] (recordOf GENERATOR_LIMIT) ?_ ?_ ?_
    · decide +kernel
    · decide +kernel
    · decide +kernel
  rw [place, hlocate]
  rfl

/-- After the largest integer key that moves the generator, two keys are generated: they are the
same, and the second record replaces the first. -/
theorem generated_keys_repeat : ¬ ∀ (definition : StoreDefinition), definition.autoIncrement = true →
    ∀ (json : SerdeJson) (labels : List (DbOperation × DbResult)) (reached : History),
      Run (History.Recorded json) (.start definition) labels reached →
        Run (fun history label next => history.Recorded json label next ∧ history.IsFresh label)
          (.start definition) labels reached := by
  intro hclaim
  have hrun := ((Run.nil.snoc explicit_step).snoc limit_step).snoc repeated_step
  obtain ⟨before, hbefore, -, hfresh⟩ := (hclaim sampleDefinition rfl sampleJson' _ _ hrun).last
  have hearlier : Key.Number (generatedNumber GENERATOR_LIMIT) ∈ before.generated := by
    rw [History.run_generated hbefore]
    exact List.mem_cons_self
  have hless := (hfresh _ rfl).1 _ hearlier
  rw [generatedNumber_limit, Key.cmp, Key.cmpNumbers_signed, compare_lt_iff_lt] at hless
  exact lt_irrefl _ hless

/-- The first key that a store generates is new. -/
theorem generated_keys_fresh_sample :
    Run (fun history label next => history.Recorded sampleJson' label next ∧ history.IsFresh label)
      (.start sampleDefinition) [putLabel none 1] (sampleHistory [1] [1] 2) := by
  have hstep : (History.start sampleDefinition).Recorded sampleJson' (putLabel none 1)
      (sampleHistory [1] [1] 2) :=
    put_recorded [] [1] [] 1 1 none rfl (by decide +kernel) rfl (by decide +kernel)
  apply (generated_keys_fresh_iff rfl sampleJson' _ _).mpr
  have hmay : (History.start sampleDefinition).MayGenerate (putLabel none 1) := by
    intro _
    change 1 ≤ GENERATOR_LIMIT ∧ (1 = GENERATOR_LIMIT → _)
    exact ⟨by decide, fun heq => absurd heq (by decide)⟩
  exact Run.nil.snoc ⟨hstep, hmay⟩

end BetterWebBrowser.IndexedDb

