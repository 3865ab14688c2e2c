import Mathlib.Order.Monotone.Basic
import Mathlib.Tactic.Ring
import Mathlib.Tactic.Linarith

/-!
# Doubles

IEEE 754 binary64 numbers by their bits: the comparisons, the total order of all bit patterns,
and the conversions from and to unsigned integers. A finite magnitude stands for a multiple of
`2 ^ -1074`, which `units` counts.
-/

namespace BetterWebBrowser.Framework

structure Double where
  bits : UInt64
deriving DecidableEq

namespace Double

def negative (number : Double) : Bool := 2 ^ 63 ≤ number.bits.toNat

/-- The bits without the sign. -/
def magnitude (number : Double) : Nat := number.bits.toNat % 2 ^ 63

/-- The magnitude of the infinities. -/
def INFINITE : Nat := 2047 * 2 ^ 52

def isFinite (number : Double) : Bool := number.magnitude < INFINITE

def isNan (number : Double) : Bool := INFINITE < number.magnitude

/-- Orders the numbers; the two zeros are one. -/
def signed (number : Double) : Int :=
  if number.negative then -(number.magnitude : Int) else number.magnitude

/-- `==`. -/
def eq (first second : Double) : Bool :=
  !first.isNan && !second.isNan && first.signed = second.signed

/-- `<`. -/
def lt (first second : Double) : Bool :=
  !first.isNan && !second.isNan && first.signed < second.signed

/-- `<=`. -/
def le (first second : Double) : Bool :=
  !first.isNan && !second.isNan && first.signed ≤ second.signed

/-- Orders all bit patterns, negative zero before zero. -/
def totalOrder (number : Double) : Int :=
  if number.negative then -(number.magnitude : Int) - 1 else number.magnitude

/-- `f64::total_cmp`. -/
def totalCmp (first second : Double) : Ordering := compare first.totalOrder second.totalOrder

def ofWord (word : Nat) : Double := ⟨UInt64.ofNat word⟩

def zero : Double := ofWord 0

/-- The negative number of the same magnitude. -/
def negated (number : Double) : Double := ofWord (number.magnitude + 2 ^ 63)

theorem bits_eq (number : Double) :
    number.bits.toNat = number.magnitude + if number.negative then 2 ^ 63 else 0 := by
  have hlt := number.bits.toNat_lt
  simp only [magnitude, negative, decide_eq_true_eq]
  split <;> omega

/-- The total order tells all bit patterns apart. -/
theorem totalOrder_inj {first second : Double} :
    first.totalOrder = second.totalOrder ↔ first = second := by
  constructor
  · intro h
    have hfirst := first.bits_eq
    have hsecond := second.bits_eq
    have hbits : first.bits = second.bits := by
      apply UInt64.toNat_inj.mp
      rw [totalOrder, totalOrder] at h
      rw [hfirst, hsecond]
      split_ifs at h ⊢ <;> omega
    cases first
    cases second
    exact congrArg Double.mk hbits
  · intro h
    rw [h]

/-- Away from zero, equal numbers have the same bits. -/
theorem signed_inj {first second : Double} (h : first.magnitude ≠ 0 ∨ second.magnitude ≠ 0) :
    first.signed = second.signed ↔ first = second := by
  rw [← totalOrder_inj, signed, signed, totalOrder, totalOrder]
  split_ifs <;> omega

theorem signed_zero {number : Double} : number.signed = 0 ↔ number.magnitude = 0 := by
  rw [signed]
  split_ifs <;> omega

theorem isNan_of_isFinite {number : Double} (h : number.isFinite = true) : number.isNan = false := by
  simp only [isFinite, isNan, decide_eq_true_eq, decide_eq_false_iff_not] at *
  omega

/-! ## The value of a magnitude -/

/-- The multiple of `2 ^ -1074` that a finite magnitude stands for. -/
def units (magnitude : Nat) : Nat :=
  if magnitude / 2 ^ 52 = 0 then magnitude % 2 ^ 52
  else (2 ^ 52 + magnitude % 2 ^ 52) * 2 ^ (magnitude / 2 ^ 52 - 1)

private theorem units_lt_succ (magnitude : Nat) : units magnitude < units (magnitude + 1) := by
  rw [units, units]
  by_cases hcarry : magnitude % 2 ^ 52 + 1 = 2 ^ 52
  · have hexponent : (magnitude + 1) / 2 ^ 52 = magnitude / 2 ^ 52 + 1 := by omega
    have hfraction : (magnitude + 1) % 2 ^ 52 = 0 := by omega
    rw [hexponent, hfraction, if_neg (Nat.succ_ne_zero _), Nat.add_sub_cancel, Nat.add_zero]
    split
    next hzero =>
      rw [hzero]
      omega
    next hpositive =>
      obtain ⟨exponent, hexponent⟩ := Nat.exists_eq_succ_of_ne_zero hpositive
      have hpow : 0 < 2 ^ exponent := Nat.two_pow_pos exponent
      rw [hexponent, Nat.succ_eq_add_one, Nat.add_sub_cancel, pow_succ 2 exponent]
      have hdouble : 2 ^ 52 * (2 ^ exponent * 2) = 2 ^ 53 * 2 ^ exponent := by ring
      rw [hdouble]
      exact Nat.mul_lt_mul_of_pos_right (by omega) hpow
  · have hexponent : (magnitude + 1) / 2 ^ 52 = magnitude / 2 ^ 52 := by omega
    have hfraction : (magnitude + 1) % 2 ^ 52 = magnitude % 2 ^ 52 + 1 := by omega
    rw [hexponent, hfraction]
    split
    · exact Nat.lt_succ_self _
    · exact Nat.mul_lt_mul_of_pos_right (Nat.lt_succ_self _) (Nat.two_pow_pos _)

/-- A larger magnitude is a larger number. -/
theorem units_strictMono : StrictMono units := strictMono_nat_of_lt_succ units_lt_succ

/-! ## Conversions -/

/-- The units of the number one. -/
def ONE : Nat := 2 ^ 1074

theorem ONE_pos : 0 < ONE := by
  rw [ONE]
  exact pow_pos Nat.two_pos _

/-- `value / 2 ^ shift` rounded to the nearest integer, ties to even. -/
def roundShift (value shift : Nat) : Nat :=
  let quotient := value / 2 ^ shift
  let rest := value % 2 ^ shift
  if 2 ^ shift < 2 * rest ∨ (2 * rest = 2 ^ shift ∧ quotient % 2 = 1) then quotient + 1
  else quotient

/-- `u64 as f64`. -/
def ofU64 (value : Nat) : Double :=
  if value = 0 then zero
  else
    let exponent := Nat.log2 value
    let significand :=
      if exponent ≤ 52 then value * 2 ^ (52 - exponent) else roundShift value (exponent - 52)
    ofWord ((exponent + 1022) * 2 ^ 52 + significand)

/-- `number.floor() as u64`, which saturates. -/
def floorToU64 (number : Double) : Nat :=
  if number.isNan || number.negative then 0
  else min (units number.magnitude / ONE) (2 ^ 64 - 1)

@[simp] theorem ofWord_bits {word : Nat} (h : word < 2 ^ 64) : (ofWord word).bits.toNat = word :=
  UInt64.toNat_ofNat_of_lt h

theorem ofWord_negative {word : Nat} (h : word < 2 ^ 63) : (ofWord word).negative = false := by
  rw [negative, ofWord_bits (by omega), decide_eq_false_iff_not, not_le]
  exact h

theorem ofWord_magnitude {word : Nat} (h : word < 2 ^ 63) : (ofWord word).magnitude = word := by
  rw [magnitude, ofWord_bits (by omega), Nat.mod_eq_of_lt h]

/-- What a conversion without rounding gives. -/
structure Exact (number : Double) (value : Nat) : Prop where
  negative : number.negative = false
  finite : number.isFinite = true
  units : units number.magnitude = value * ONE

theorem ofU64_exact {value : Nat} (h : value ≤ 2 ^ 53) : Exact (ofU64 value) value := by
  rw [ofU64]
  split
  next hzero =>
    rw [hzero]
    exact ⟨by decide, by decide, by rw [Nat.zero_mul]; rfl⟩
  next hpositive =>
    rcases Nat.lt_or_eq_of_le h with hlt | heq
    · dsimp only
      have hlow : 2 ^ Nat.log2 value ≤ value := Nat.log2_self_le hpositive
      have hhigh : value < 2 ^ (Nat.log2 value + 1) := Nat.lt_log2_self
      generalize Nat.log2 value = exponent at hlow hhigh ⊢
      have hexponent : exponent ≤ 52 := by
        have hpow : 2 ^ exponent < 2 ^ 53 := lt_of_le_of_lt hlow hlt
        have hless := (Nat.pow_lt_pow_iff_right (by decide)).mp hpow
        omega
      rw [if_pos hexponent]
      -- the significand has its leading one in place 52
      have hsplit : 2 ^ exponent * 2 ^ (52 - exponent) = 2 ^ 52 := by
        rw [← pow_add, Nat.add_sub_cancel' hexponent]
      have hbottom : 2 ^ 52 ≤ value * 2 ^ (52 - exponent) := by
        rw [← hsplit]
        exact Nat.mul_le_mul_right _ hlow
      have htop : value * 2 ^ (52 - exponent) < 2 ^ 53 := by
        have hscaled := Nat.mul_lt_mul_of_pos_right hhigh (Nat.two_pow_pos (52 - exponent))
        have hdouble : 2 ^ (exponent + 1) * 2 ^ (52 - exponent) = 2 ^ 53 := by
          rw [pow_succ, mul_right_comm, hsplit]
          rfl
        exact hdouble ▸ hscaled
      have hsum : 52 - exponent + (exponent + 1022) = 1074 := by omega
      have hpower : value * 2 ^ (52 - exponent) * 2 ^ (exponent + 1022) = value * ONE := by
        rw [mul_assoc, ← pow_add, hsum, ONE]
      generalize value * 2 ^ (52 - exponent) = significand at hbottom htop hpower ⊢
      have hword : (exponent + 1022) * 2 ^ 52 + significand < 2 ^ 63 := by omega
      refine ⟨ofWord_negative hword, ?_, ?_⟩
      · rw [isFinite, ofWord_magnitude hword, decide_eq_true_eq, INFINITE]
        omega
      · rw [ofWord_magnitude hword, units]
        have hfield : ((exponent + 1022) * 2 ^ 52 + significand) / 2 ^ 52 = exponent + 1023 := by omega
        have hfraction : 2 ^ 52 + ((exponent + 1022) * 2 ^ 52 + significand) % 2 ^ 52 =
            significand := by omega
        rw [hfield, if_neg (Nat.succ_ne_zero _), hfraction]
        exact hpower
    · rw [heq]
      exact ⟨by decide, by decide, by decide +kernel⟩

theorem Exact.signed_lt {first second : Double} {value value' : Nat} (h : Exact first value)
    (h' : Exact second value') (hlt : value < value') : first.signed < second.signed := by
  have hunits : Double.units first.magnitude < Double.units second.magnitude := by
    rw [h.units, h'.units]
    exact Nat.mul_lt_mul_of_pos_right hlt ONE_pos
  have hmagnitude := units_strictMono.lt_iff_lt.mp hunits
  rw [signed, signed, h.negative, h'.negative]
  simpa using hmagnitude

/-- A number below a power that fits is below the integer that follows its floor. -/
theorem floorToU64_spec {number : Double} {limit : Nat} (hnan : number.isNan = false)
    (hlimit : limit ≤ 2 ^ 53) (hlt : number.signed < (ofU64 limit).signed) (hpos : 0 < limit) :
    number.floorToU64 + 1 ≤ limit ∧ number.signed < (ofU64 (number.floorToU64 + 1)).signed := by
  have hexact := ofU64_exact hlimit
  rw [floorToU64, hnan, Bool.false_or]
  cases hnegative : number.negative with
  | true =>
    refine ⟨hpos, ?_⟩
    have hone : Exact (ofU64 1) 1 := ofU64_exact (by decide)
    have hzero : Exact zero 0 := ofU64_exact (Nat.zero_le _)
    have hless := hzero.signed_lt hone Nat.one_pos
    have hnonpos : number.signed ≤ 0 := by
      rw [signed, hnegative]
      simp
    have hstart : zero.signed = 0 := by decide
    rw [if_pos rfl, Nat.zero_add]
    omega
  | false =>
    have hunits : Double.units number.magnitude < limit * ONE := by
      rw [← hexact.units]
      apply units_strictMono
      rw [signed, signed, hnegative, hexact.negative] at hlt
      simpa using hlt
    have hfloor : Double.units number.magnitude / ONE < limit :=
      Nat.div_lt_of_lt_mul (by rwa [Nat.mul_comm])
    have hsmall : min (Double.units number.magnitude / ONE) (2 ^ 64 - 1) =
        Double.units number.magnitude / ONE := by
      apply min_eq_left
      omega
    rw [if_neg Bool.false_ne_true, hsmall]
    refine ⟨hfloor, ?_⟩
    have hnext := @ofU64_exact (Double.units number.magnitude / ONE + 1) (by omega)
    have hbelow : number.magnitude <
        (ofU64 (Double.units number.magnitude / ONE + 1)).magnitude := by
      rw [← units_strictMono.lt_iff_lt, hnext.units, Nat.mul_comm]
      exact Nat.lt_mul_div_succ _ ONE_pos
    rw [signed, signed, hnegative, hnext.negative]
    simpa using hbelow

end Double

end BetterWebBrowser.Framework
