import BetterWebBrowser.Framework.Utf16
import BetterWebBrowser.Storage.Types

/-!
# Quota bytes

The bytes that a string counts against the quota are those of its UTF-8 encoding, three for an
unpaired surrogate. No code unit costs less than one.
-/

namespace BetterWebBrowser.Storage.StorageString

open Framework

/-- The UTF-8 length of a decoded string, an unpaired surrogate counted as three bytes. -/
def utf8Len (scalars : List (Option Char)) : Nat :=
  (scalars.map fun scalar => scalar.elim 3 Char.utf8Size).sum

@[simp] theorem utf8Len_nil : utf8Len [] = 0 := rfl

@[simp] theorem utf8Len_cons (scalar : Option Char) (scalars : List (Option Char)) :
    utf8Len (scalar :: scalars) = scalar.elim 3 Char.utf8Size + utf8Len scalars := by
  simp [utf8Len]

/-- The size of a scalar by its number. -/
theorem utf8Size_ofNat {code : Nat} (h : code < 0xd800 ∨ (0xdfff < code ∧ code < 0x110000)) :
    (Char.ofNat code).utf8Size =
      if code ≤ 0x7f then 1 else if code ≤ 0x7ff then 2 else if code ≤ 0xffff then 3 else 4 := by
  have hval : (Char.ofNat code).val.toNat = code := Utf16.toNat_ofNat h
  simp only [Char.utf8Size, UInt32.le_iff_toNat_le, hval]
  rfl

/-- After a unit that is not a low surrogate it does not matter what was before it. -/
theorem quotaBytesAfter_of_not_low {unit : Fin 65536} (units : List (Fin 65536))
    (h : ¬(0xdc00 ≤ unit.val ∧ unit.val ≤ 0xdfff)) (precedingHigh : Bool) :
    quotaBytesAfter precedingHigh (unit :: units) = quotaBytesAfter false (unit :: units) := by
  simp only [quotaBytesAfter, h, decide_false, Bool.and_false]

theorem quotaBytesAfter_low {low : Fin 65536} (units : List (Fin 65536))
    (h : 0xdc00 ≤ low.val ∧ low.val ≤ 0xdfff) (precedingHigh : Bool) :
    quotaBytesAfter precedingHigh (low :: units) =
      (if precedingHigh then 1 else 3) + quotaBytesAfter false units := by
  have h₁ : ¬low.val ≤ 0x7f := by omega
  have h₂ : ¬low.val ≤ 0x7ff := by omega
  have h₃ : ¬(0xd800 ≤ low.val ∧ low.val ≤ 0xdbff) := by omega
  simp only [quotaBytesAfter, h₁, h₂, h₃, h, if_false, decide_false, decide_true, Bool.and_true,
    and_self]

theorem quotaBytesAfter_high {high : Fin 65536} (units : List (Fin 65536))
    (h : 0xd800 ≤ high.val ∧ high.val ≤ 0xdbff) :
    quotaBytesAfter false (high :: units) = 3 + quotaBytesAfter true units := by
  have h₁ : ¬high.val ≤ 0x7f := by omega
  have h₂ : ¬high.val ≤ 0x7ff := by omega
  simp only [quotaBytesAfter, h₁, h₂, h, if_false, Bool.false_and, Bool.false_eq_true, decide_true,
    and_self]

/-- A scalar of the basic plane costs what its UTF-8 encoding costs. -/
theorem quotaBytesAfter_plain {unit : Fin 65536} (units : List (Fin 65536))
    (h : unit.val < 0xd800 ∨ 0xdfff < unit.val) :
    quotaBytesAfter false (unit :: units) =
      (Char.ofNat unit.val).utf8Size + quotaBytesAfter false units := by
  have hlt := unit.isLt
  have hhigh : ¬(0xd800 ≤ unit.val ∧ unit.val ≤ 0xdbff) := by omega
  rw [utf8Size_ofNat (by omega)]
  simp only [quotaBytesAfter, hhigh, decide_false, Bool.false_and, Bool.false_eq_true, if_false]
  split
  · rfl
  · split
    · rfl
    · rw [if_pos (by omega)]

/-- The quota bytes are the UTF-8 length. -/
theorem quotaBytesAfter_eq (units : List (Fin 65536)) :
    quotaBytesAfter false units = utf8Len (Utf16.scalars units) := by
  induction units using Utf16.scalars.induct with
  | case1 => rfl
  | case2 unit rest hplain ih =>
    rw [Utf16.scalars.eq_def]
    simp only [hplain, if_true]
    rw [quotaBytesAfter_plain rest hplain, ih, utf8Len_cons]
    rfl
  | case3 unit rest hplain hlow ih =>
    rw [Utf16.scalars.eq_def]
    simp only [hplain, hlow, if_true, if_false]
    rw [quotaBytesAfter_low rest ⟨hlow, by omega⟩, ih, utf8Len_cons]
    rfl
  | case4 unit hplain hhigh =>
    rw [quotaBytesAfter_high [] (by omega), Utf16.scalars]
    simp only [hplain, hhigh, if_false]
    rfl
  | case5 unit hplain hhigh low tail hpair ih =>
    rw [Utf16.scalars.eq_def]
    simp only [hplain, hhigh, hpair, if_true, if_false, and_self]
    have hsize := utf8Size_ofNat
      (show 0x10000 + (unit.val - 0xd800) * 0x400 + (low.val - 0xdc00) < 0xd800 ∨ _ by omega)
    have hpast : ¬0x10000 + (unit.val - 0xd800) * 0x400 + (low.val - 0xdc00) ≤ 0xffff := by omega
    rw [quotaBytesAfter_high _ (by omega), quotaBytesAfter_low tail hpair true, if_pos rfl, ih,
      utf8Len_cons, Option.elim_some, hsize, if_neg (by omega), if_neg (by omega), if_neg hpast]
    omega
  | case6 unit hplain hhigh low tail hpair ih =>
    rw [Utf16.scalars.eq_def]
    simp only [hplain, hhigh, hpair, if_false]
    rw [quotaBytesAfter_high _ (by omega), quotaBytesAfter_of_not_low tail hpair, ih, utf8Len_cons]
    rfl

theorem length_le_quotaBytesAfter (precedingHigh : Bool) (units : List (Fin 65536)) :
    units.length ≤ quotaBytesAfter precedingHigh units := by
  induction units generalizing precedingHigh with
  | nil => exact Nat.zero_le _
  | cons unit units ih =>
    rw [quotaBytesAfter, List.length_cons]
    split
    · have := ih false
      omega
    · split
      · have := ih false
        omega
      · have := ih (decide (0xd800 ≤ unit.val ∧ unit.val ≤ 0xdbff))
        split <;> omega

/-- Bytes counted against the quota: the UTF-8 length of the string. -/
theorem byteLen_eq (s : StorageString) : s.byteLen = utf8Len (Utf16.scalars s.units) :=
  quotaBytesAfter_eq s.units

theorem length_le_byteLen (s : StorageString) : s.units.length ≤ s.byteLen :=
  length_le_quotaBytesAfter false s.units

end BetterWebBrowser.Storage.StorageString
