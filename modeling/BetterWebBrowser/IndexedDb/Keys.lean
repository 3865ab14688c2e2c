import BetterWebBrowser.Framework.Double
import BetterWebBrowser.Framework.OrderCode
import BetterWebBrowser.Framework.Utf16
import BetterWebBrowser.IndexedDb.Model
import Mathlib.Order.Antisymmetrization

/-!
# Keys

The keys of records with their order across types, and the ranges of keys that requests name.
-/

namespace BetterWebBrowser.IndexedDb

open Framework

def MAX_ORIGIN_BYTES : Nat := 16 * 1024 * 1024

inductive Key
  | Number (value : Double)
  | Date (value : Double)
  | String (text : Str)
  | Binary (bytes : List UInt8)
  | Array (keys : List Key)

namespace Key

def rank : Key → Nat
  | .Number _ => 0
  | .Date _ => 1
  | .String _ => 2
  | .Binary _ => 3
  | .Array _ => 4

/-- Numbers of one type: the two zeros are equal. -/
def cmpNumbers (left right : Double) : Ordering :=
  if left.eq Double.zero && right.eq Double.zero then .eq else left.totalCmp right

mutual

/-- The order of `Ord for Key`. -/
def cmp : Key → Key → Ordering
  | .Number left, .Number right => cmpNumbers left right
  | .Date left, .Date right => cmpNumbers left right
  | .String left, .String right =>
    (Utf16.encode left).compareLex (fun unit unit' => compare unit.val unit'.val)
      (Utf16.encode right)
  | .Binary left, .Binary right =>
    left.compareLex (fun byte byte' => compare byte.toNat byte'.toNat) right
  | .Array left, .Array right => cmpAll left right
  | left, right => compare left.rank right.rank

def cmpAll : List Key → List Key → Ordering
  | [], [] => .eq
  | [], _ :: _ => .lt
  | _ :: _, [] => .gt
  | left :: lefts, right :: rights => (cmp left right).then (cmpAll lefts rights)

end

mutual

/-- The derived `==`. -/
def eq : Key → Key → Bool
  | .Number left, .Number right => left.eq right
  | .Date left, .Date right => left.eq right
  | .String left, .String right => left = right
  | .Binary left, .Binary right => left = right
  | .Array left, .Array right => eqAll left right
  | _, _ => false

def eqAll : List Key → List Key → Bool
  | [], [] => true
  | left :: lefts, right :: rights => eq left right && eqAll lefts rights
  | _, _ => false

end

mutual

def validate : Key → Nat → DbOutcome Unit
  | .Number value, depth => do
    failIf (32 < depth) (.Data "key nesting exceeds the supported limit")
    failIf (value.isFinite = false) (.Data "a key must be finite")
  | .Date value, depth => do
    failIf (32 < depth) (.Data "key nesting exceeds the supported limit")
    failIf (value.isFinite = false) (.Data "a key must be finite")
  | .String text, depth => do
    failIf (32 < depth) (.Data "key nesting exceeds the supported limit")
    failIf (MAX_ORIGIN_BYTES < Str.byteLen text) .Quota
  | .Binary bytes, depth => do
    failIf (32 < depth) (.Data "key nesting exceeds the supported limit")
    failIf (MAX_ORIGIN_BYTES < bytes.length) .Quota
  | .Array keys, depth => do
    failIf (32 < depth) (.Data "key nesting exceeds the supported limit")
    failIf (MAX_OPERATIONS < keys.length) .Quota
    validateAll keys (depth + 1)

def validateAll : List Key → Nat → DbOutcome Unit
  | [], _ => .ok ()
  | key :: keys, depth => do
    validate key depth
    validateAll keys depth

end

/-! ## The order by codes -/

/-- Orders the numbers of one type. -/
def numberOrder (value : Double) : Int := if value.eq Double.zero then 0 else value.totalOrder

mutual

/-- A code whose lexicographic order is the order of the keys. -/
def code : Key → List Int
  | .Number value => [0, numberOrder value]
  | .Date value => [1, numberOrder value]
  | .String text => 2 :: listCode (fun unit => [(unit.val : Int)]) (Utf16.encode text)
  | .Binary bytes => 3 :: listCode (fun byte => [(byte.toNat : Int)]) bytes
  | .Array keys => 4 :: codes keys

def codes : List Key → List Int
  | [] => [0]
  | key :: keys => 1 :: code key ++ codes keys

end

theorem eq_zero_iff {value : Double} : value.eq Double.zero = true ↔ value.magnitude = 0 := by
  have hzero : Double.zero.signed = 0 := by decide
  have hnan : Double.zero.isNan = false := by decide
  rw [Double.eq, hnan, hzero]
  simp only [Bool.not_false, Bool.and_true, Bool.and_eq_true, Bool.not_eq_true', decide_eq_true_eq,
    Double.signed_zero, and_iff_right_iff_imp]
  intro hmagnitude
  rw [Double.isNan, hmagnitude]
  decide

theorem cmpNumbers_eq (left right : Double) :
    cmpNumbers left right = compare (numberOrder left) (numberOrder right) := by
  have hcases : ∀ value : Double, value.eq Double.zero = true →
      value.totalOrder = 0 ∨ value.totalOrder = -1 := by
    intro value hvalue
    rw [Double.totalOrder, eq_zero_iff.mp hvalue]
    split <;> simp
  have hother : ∀ value : Double, ¬ value.eq Double.zero = true →
      0 < value.totalOrder ∨ value.totalOrder < -1 := by
    intro value hvalue
    have hmagnitude := mt eq_zero_iff.mpr hvalue
    rw [Double.totalOrder]
    split_ifs <;> omega
  rw [cmpNumbers, numberOrder, numberOrder, Double.totalCmp]
  by_cases hleft : left.eq Double.zero = true
  · by_cases hright : right.eq Double.zero = true
    · simp [hleft, hright]
    · rw [if_neg (by simp [hright]), if_pos hleft, if_neg hright]
      rcases hother right hright with hpos | hneg
      · have hlt : left.totalOrder < right.totalOrder := by
          rcases hcases left hleft with h | h <;> omega
        rw [compare_lt_iff_lt.mpr hlt, compare_lt_iff_lt.mpr hpos]
      · have hgt : right.totalOrder < left.totalOrder := by
          rcases hcases left hleft with h | h <;> omega
        rw [compare_gt_iff_gt.mpr hgt, compare_gt_iff_gt.mpr (by omega)]
  · rw [if_neg (by simp [hleft]), if_neg hleft]
    by_cases hright : right.eq Double.zero = true
    · rw [if_pos hright]
      rcases hother left hleft with hpos | hneg
      · have hgt : right.totalOrder < left.totalOrder := by
          rcases hcases right hright with h | h <;> omega
        rw [compare_gt_iff_gt.mpr hgt, compare_gt_iff_gt.mpr hpos]
      · have hlt : left.totalOrder < right.totalOrder := by
          rcases hcases right hright with h | h <;> omega
        rw [compare_lt_iff_lt.mpr hlt, compare_lt_iff_lt.mpr (by omega)]
    · rw [if_neg hright]

mutual

theorem cmp_ranks (left right : Key) : Ranks (left.cmp right) left.code right.code := by
  match left, right with
  | .Number left, .Number right =>
    rw [cmp, cmpNumbers_eq]
    have hmark : Ranks .eq [0] [0] := rfl
    exact hmark.append (.singleton _ _)
  | .Date left, .Date right =>
    rw [cmp, cmpNumbers_eq]
    have hmark : Ranks .eq [1] [1] := rfl
    exact hmark.append (.singleton _ _)
  | .String left, .String right =>
    have hmark : Ranks .eq [2] [2] := rfl
    exact hmark.append (.list fun _ _ _ _ => .nat _ _)
  | .Binary left, .Binary right =>
    have hmark : Ranks .eq [3] [3] := rfl
    exact hmark.append (.list fun _ _ _ _ => .nat _ _)
  | .Array left, .Array right =>
    have hmark : Ranks .eq [4] [4] := rfl
    exact hmark.append (cmpAll_ranks left right)
  | .Number _, .Date _ | .Number _, .String _ | .Number _, .Binary _ | .Number _, .Array _
  | .Date _, .Number _ | .Date _, .String _ | .Date _, .Binary _ | .Date _, .Array _
  | .String _, .Number _ | .String _, .Date _ | .String _, .Binary _ | .String _, .Array _
  | .Binary _, .Number _ | .Binary _, .Date _ | .Binary _, .String _ | .Binary _, .Array _
  | .Array _, .Number _ | .Array _, .Date _ | .Array _, .String _ | .Array _, .Binary _ =>
    exact Ranks.head (by simp [rank]) _ _

theorem cmpAll_ranks (lefts rights : List Key) :
    Ranks (cmpAll lefts rights) (codes lefts) (codes rights) := by
  match lefts, rights with
  | [], [] => exact rfl
  | [], _ :: _ => exact fun _ _ => List.cons_lt_cons_iff.mpr (.inl Int.zero_lt_one)
  | _ :: _, [] => exact fun _ _ => List.cons_lt_cons_iff.mpr (.inl Int.zero_lt_one)
  | left :: lefts, right :: rights =>
    have hmark : Ranks .eq [1] [1] := rfl
    exact hmark.append ((cmp_ranks left right).append (cmpAll_ranks lefts rights))

end

section Order

variable {left right other : Key}

theorem cmp_eq_iff_code : left.cmp right = .eq ↔ left.code = right.code := (cmp_ranks left right).eq_iff

theorem cmp_lt_iff_code : left.cmp right = .lt ↔ left.code < right.code := (cmp_ranks left right).lt_iff

theorem cmp_gt_iff_code : left.cmp right = .gt ↔ right.code < left.code := (cmp_ranks left right).gt_iff

theorem cmp_swap (left right : Key) : right.cmp left = (left.cmp right).swap := by
  cases horder : left.cmp right with
  | lt => exact cmp_gt_iff_code.mpr (cmp_lt_iff_code.mp horder)
  | eq => exact cmp_eq_iff_code.mpr (cmp_eq_iff_code.mp horder).symm
  | gt => exact cmp_lt_iff_code.mpr (cmp_gt_iff_code.mp horder)

instance : Preorder Key where
  le left right := left.cmp right ≠ .gt
  lt left right := left.cmp right = .lt
  le_refl key := by
    change ¬ key.cmp key = .gt
    rw [cmp_gt_iff_code]
    exact lt_irrefl _
  le_trans first second third := by
    change ¬ _ = _ → ¬ _ = _ → ¬ _ = _
    rw [cmp_gt_iff_code, cmp_gt_iff_code, cmp_gt_iff_code, not_lt, not_lt, not_lt]
    exact le_trans
  lt_iff_le_not_ge first second := by
    change _ = _ ↔ ¬ _ = _ ∧ ¬ ¬ _ = _
    rw [cmp_lt_iff_code, cmp_gt_iff_code, cmp_gt_iff_code, not_not, not_lt]
    exact ⟨fun h => ⟨h.le, h⟩, fun h => h.2⟩

theorem lt_iff : left < right ↔ left.cmp right = .lt := Iff.rfl

theorem le_iff : left ≤ right ↔ left.cmp right ≠ .gt := Iff.rfl

theorem lt_iff_gt : left < right ↔ right.cmp left = .gt := by
  rw [lt_iff, cmp_lt_iff_code, cmp_gt_iff_code]

instance : DecidableLE Key := fun left right => inferInstanceAs (Decidable (left.cmp right ≠ .gt))

instance : DecidableLT Key := fun left right => inferInstanceAs (Decidable (left.cmp right = .lt))

instance : Std.Total (α := Key) (· ≤ ·) where
  total left right := by
    rw [le_iff, le_iff, cmp_swap left right]
    cases left.cmp right <;> simp

/-- A key compares like one that is equal to it. -/
theorem cmp_congr (h : left.cmp right = .eq) : left.cmp other = right.cmp other := by
  have hcode := cmp_eq_iff_code.mp h
  cases horder : right.cmp other with
  | lt => exact cmp_lt_iff_code.mpr (hcode ▸ cmp_lt_iff_code.mp horder)
  | eq => exact cmp_eq_iff_code.mpr (hcode ▸ cmp_eq_iff_code.mp horder)
  | gt => exact cmp_gt_iff_code.mpr (hcode ▸ cmp_gt_iff_code.mp horder)

end Order

/-! ## The derived equality -/

/-- The checks that a valid number has passed. -/
private theorem finite_of_validate {value : Double} {depth : Nat}
    (h : (do
      failIf (32 < depth) (DbError.Data "key nesting exceeds the supported limit")
      failIf (value.isFinite = false) (DbError.Data "a key must be finite")) = Except.ok ()) :
    value.isFinite = true := by
  have hrest := (failIf_bind_eq_ok.mp h).2
  rw [failIf] at hrest
  split at hrest
  next => cases hrest
  next hfinite => exact (Bool.not_eq_false _).mp hfinite

private theorem eq_iff_cmpNumbers {left right : Double} (hleft : left.isFinite = true)
    (hright : right.isFinite = true) : left.eq right = true ↔ cmpNumbers left right = .eq := by
  rw [cmpNumbers_eq, compare_eq_iff_eq, numberOrder, numberOrder, Double.eq,
    Double.isNan_of_isFinite hleft, Double.isNan_of_isFinite hright]
  simp only [Bool.not_false, Bool.true_and, decide_eq_true_eq]
  by_cases hzero : left.eq Double.zero = true
  · rw [if_pos hzero, Double.signed_zero.mpr (eq_zero_iff.mp hzero), eq_comm, Double.signed_zero,
      ← eq_zero_iff]
    split
    next => simp [*]
    next hother =>
      have hmagnitude := mt eq_zero_iff.mpr hother
      rw [Double.totalOrder]
      constructor
      · intro h
        exact absurd h hother
      · split_ifs <;> omega
  · have hmagnitude := mt eq_zero_iff.mpr hzero
    rw [if_neg hzero, Double.signed_inj (.inl hmagnitude)]
    split
    next hother =>
      constructor
      · rintro rfl
        exact absurd hother hzero
      · rw [Double.totalOrder]
        split_ifs <;> omega
    next => exact Double.totalOrder_inj.symm

private theorem validateAll_of_validate {keys : List Key} {depth : Nat}
    (h : (Key.Array keys).validate depth = .ok ()) : validateAll keys (depth + 1) = .ok () := by
  rw [validate] at h
  exact (failIf_bind_eq_ok.mp (failIf_bind_eq_ok.mp h).2).2

mutual

/-- On valid keys, `==` is the order's equality. -/
theorem eq_iff_cmp {left right : Key} {depth depth' : Nat} (hleft : left.validate depth = .ok ())
    (hright : right.validate depth' = .ok ()) : left.eq right = true ↔ left.cmp right = .eq := by
  match left, right with
  | .Number left, .Number right =>
    rw [validate] at hleft hright
    exact eq_iff_cmpNumbers (finite_of_validate hleft) (finite_of_validate hright)
  | .Date left, .Date right =>
    rw [validate] at hleft hright
    exact eq_iff_cmpNumbers (finite_of_validate hleft) (finite_of_validate hright)
  | .String left, .String right =>
    rw [eq, cmp, decide_eq_true_eq, compareLex_eq_iff fun _ _ => compare_eq_iff_eq.trans Fin.ext_iff.symm,
      Utf16.encode_injective.eq_iff]
  | .Binary left, .Binary right =>
    rw [eq, cmp, decide_eq_true_eq, compareLex_eq_iff fun _ _ => compare_eq_iff_eq.trans UInt8.toNat_inj]
  | .Array left, .Array right =>
    exact eqAll_iff_cmpAll (validateAll_of_validate hleft) (validateAll_of_validate hright)
  | .Number _, .Date _ | .Number _, .String _ | .Number _, .Binary _ | .Number _, .Array _
  | .Date _, .Number _ | .Date _, .String _ | .Date _, .Binary _ | .Date _, .Array _
  | .String _, .Number _ | .String _, .Date _ | .String _, .Binary _ | .String _, .Array _
  | .Binary _, .Number _ | .Binary _, .Date _ | .Binary _, .String _ | .Binary _, .Array _
  | .Array _, .Number _ | .Array _, .Date _ | .Array _, .String _ | .Array _, .Binary _ =>
    simp [eq, cmp, rank]

theorem eqAll_iff_cmpAll {lefts rights : List Key} {depth depth' : Nat}
    (hleft : validateAll lefts depth = .ok ()) (hright : validateAll rights depth' = .ok ()) :
    eqAll lefts rights = true ↔ cmpAll lefts rights = .eq := by
  match lefts, rights with
  | [], [] => simp [eqAll, cmpAll]
  | [], _ :: _ => simp [eqAll, cmpAll]
  | _ :: _, [] => simp [eqAll, cmpAll]
  | left :: lefts, right :: rights =>
    obtain ⟨⟨⟩, hhead, htail⟩ := bind_eq_ok.mp hleft
    obtain ⟨⟨⟩, hhead', htail'⟩ := bind_eq_ok.mp hright
    rw [eqAll, cmpAll, Bool.and_eq_true, Ordering.then_eq_eq, eq_iff_cmp hhead hhead',
      eqAll_iff_cmpAll htail htail']

end

end Key

/-! ## Classes of equal keys -/

/-- A key up to the order's equality. -/
abbrev KeyClass := Antisymmetrization Key (· ≤ ·)

def Key.toClass (key : Key) : KeyClass := toAntisymmetrization (· ≤ ·) key

section Classes

variable {left right : Key}

theorem Key.toClass_lt : left.toClass < right.toClass ↔ left.cmp right = .lt :=
  toAntisymmetrization_lt_toAntisymmetrization_iff

theorem Key.toClass_le : left.toClass ≤ right.toClass ↔ left.cmp right ≠ .gt :=
  toAntisymmetrization_le_toAntisymmetrization_iff

theorem Key.toClass_gt : right.toClass < left.toClass ↔ left.cmp right = .gt := by
  rw [Key.toClass_lt, cmp_swap left right]
  cases left.cmp right <;> simp

theorem Key.toClass_ge : right.toClass ≤ left.toClass ↔ left.cmp right ≠ .lt := by
  rw [Key.toClass_le, cmp_swap left right]
  cases left.cmp right <;> simp

theorem Key.toClass_eq : left.toClass = right.toClass ↔ left.cmp right = .eq := by
  rw [le_antisymm_iff, Key.toClass_le, Key.toClass_ge]
  cases left.cmp right <;> simp

end Classes

/-! ## Ranges -/

structure KeyRange where
  lower : Option Key
  upper : Option Key
  lowerOpen : Bool
  upperOpen : Bool

namespace KeyRange

/-- The bounds leave no key between them. -/
def isEmptyOrInverted (range : KeyRange) : Bool :=
  match range.lower, range.upper with
  | some lower, some upper =>
    lower.cmp upper = .gt || (lower.eq upper && (range.lowerOpen || range.upperOpen))
  | _, _ => false

def validate (range : KeyRange) : DbOutcome Unit := do
  match range.lower with
  | some lower => lower.validate 0
  | none => pure ()
  match range.upper with
  | some upper => upper.validate 0
  | none => pure ()
  failIf (range.isEmptyOrInverted = true) (.Data "empty or inverted key range")

def contains (range : KeyRange) (key : Key) : Bool :=
  (range.lower.all fun lower =>
    if range.lowerOpen then key.cmp lower = .gt else key.cmp lower ≠ .lt) &&
  range.upper.all fun upper =>
    if range.upperOpen then key.cmp upper = .lt else key.cmp upper ≠ .gt

/-- The classes between the bounds. -/
def classes (range : KeyRange) : Set KeyClass :=
  {key | (∀ lower ∈ range.lower, if range.lowerOpen then lower.toClass < key else lower.toClass ≤ key) ∧
    ∀ upper ∈ range.upper, if range.upperOpen then key < upper.toClass else key ≤ upper.toClass}

theorem contains_iff {range : KeyRange} {key : Key} :
    range.contains key = true ↔ key.toClass ∈ range.classes := by
  obtain ⟨lower, upper, lowerOpen, upperOpen⟩ := range
  rw [contains, Bool.and_eq_true, Option.all_eq_true, Option.all_eq_true]
  apply and_congr
  · apply forall_congr'
    intro lower
    apply imp_congr_right
    intro _
    cases lowerOpen
    · simp [Key.toClass_ge]
    · simp [Key.toClass_gt]
  · apply forall_congr'
    intro upper
    apply imp_congr_right
    intro _
    cases upperOpen
    · simp [Key.toClass_le]
    · simp [Key.toClass_lt]

end KeyRange

end BetterWebBrowser.IndexedDb
