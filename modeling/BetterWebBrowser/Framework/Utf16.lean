import BetterWebBrowser.Framework.Str
import Mathlib.Order.Fin.Basic

/-!
# UTF-16

The code units of a text, and the texts that lists of code units spell. An isolated surrogate
spells nothing.
-/

namespace BetterWebBrowser.Framework.Utf16

abbrev CodeUnit := Fin 65536

def encodeChar (c : Char) : List CodeUnit :=
  if c.toNat < 0x10000 then [Fin.ofNat 65536 c.toNat]
  else [Fin.ofNat 65536 (0xd800 + (c.toNat - 0x10000) / 0x400),
    Fin.ofNat 65536 (0xdc00 + (c.toNat - 0x10000) % 0x400)]

/-- `str::encode_utf16`. -/
def encode (text : Str) : List CodeUnit := text.flatMap encodeChar

/-- `String::from_utf16`. -/
def decode : List CodeUnit → Option Str
  | [] => some []
  | unit :: rest =>
    if unit.val < 0xd800 ∨ 0xdfff < unit.val then (decode rest).map (Char.ofNat unit.val :: ·)
    else if 0xdc00 ≤ unit.val then none
    else
      match rest with
      | [] => none
      | low :: rest =>
        if 0xdc00 ≤ low.val ∧ low.val ≤ 0xdfff then
          (decode rest).map
            (Char.ofNat (0x10000 + (unit.val - 0xd800) * 0x400 + (low.val - 0xdc00)) :: ·)
        else none

/-- `char::decode_utf16`, which gives nothing for an unpaired surrogate. -/
def scalars : List CodeUnit → List (Option Char)
  | [] => []
  | unit :: rest =>
    if unit.val < 0xd800 ∨ 0xdfff < unit.val then some (Char.ofNat unit.val) :: scalars rest
    else if 0xdc00 ≤ unit.val then none :: scalars rest
    else
      match rest with
      | [] => [none]
      | low :: tail =>
        if 0xdc00 ≤ low.val ∧ low.val ≤ 0xdfff then
          some (Char.ofNat (0x10000 + (unit.val - 0xd800) * 0x400 + (low.val - 0xdc00))) ::
            scalars tail
        else none :: scalars (low :: tail)

theorem toNat_ofNat {code : Nat} (h : code < 0xd800 ∨ (0xdfff < code ∧ code < 0x110000)) :
    (Char.ofNat code).toNat = code := by
  rw [Char.ofNat, dif_pos h]
  rfl

theorem toNat_range (c : Char) :
    c.toNat < 0xd800 ∨ (0xdfff < c.toNat ∧ c.toNat < 0x110000) := c.valid

@[simp] theorem encode_nil : encode [] = [] := rfl

@[simp] theorem encode_cons (c : Char) (text : Str) :
    encode (c :: text) = encodeChar c ++ encode text := rfl

/-- Every text comes back from its code units. -/
@[simp] theorem decode_encode (text : Str) : decode (encode text) = some text := by
  induction text with
  | nil => rfl
  | cons c text ih =>
    have hrange := toNat_range c
    rw [encode_cons, encodeChar]
    split
    next hsmall =>
      have hval : (Fin.ofNat 65536 c.toNat).val = c.toNat := Nat.mod_eq_of_lt hsmall
      rw [List.singleton_append, decode.eq_def]
      dsimp only
      rw [hval, if_pos (by omega), ih, Option.map_some, Char.ofNat_toNat]
    next hlarge =>
      have hhigh : (Fin.ofNat 65536 (0xd800 + (c.toNat - 0x10000) / 0x400)).val =
          0xd800 + (c.toNat - 0x10000) / 0x400 := Nat.mod_eq_of_lt (by omega)
      have hlow : (Fin.ofNat 65536 (0xdc00 + (c.toNat - 0x10000) % 0x400)).val =
          0xdc00 + (c.toNat - 0x10000) % 0x400 := Nat.mod_eq_of_lt (by omega)
      have hcode : 0x10000 + (0xd800 + (c.toNat - 0x10000) / 0x400 - 0xd800) * 0x400 +
          (0xdc00 + (c.toNat - 0x10000) % 0x400 - 0xdc00) = c.toNat := by omega
      rw [List.cons_append, List.singleton_append, decode, hhigh, if_neg (by omega),
        if_neg (by omega), hlow, if_pos (by omega), ih, hcode, Option.map_some, Char.ofNat_toNat]

theorem encode_injective : Function.Injective encode := by
  intro first second h
  have hsome : some first = some second := by rw [← decode_encode, h, decode_encode]
  exact Option.some.inj hsome

/-- The code units of a text that they spell are these again. -/
theorem encode_decode {units : List CodeUnit} {text : Str} (h : decode units = some text) :
    encode text = units := by
  induction units using decode.induct generalizing text with
  | case1 =>
    cases h
    rfl
  | case2 unit rest hplain ih =>
    rw [decode.eq_def] at h
    dsimp only at h
    rw [if_pos hplain] at h
    obtain ⟨tail, htail, rfl⟩ := Option.map_eq_some_iff.mp h
    have hlt := unit.isLt
    rw [encode_cons, ih htail, encodeChar, toNat_ofNat (by omega), if_pos hlt,
      Fin.ofNat_val_eq_self]
    rfl
  | case3 unit rest hplain hlow =>
    rw [decode.eq_def] at h
    dsimp only at h
    rw [if_neg hplain, if_pos hlow] at h
    cases h
  | case4 unit hplain hlow =>
    rw [decode, if_neg hplain, if_neg hlow] at h
    cases h
  | case5 unit hplain hhigh low rest hpair ih =>
    rw [decode.eq_def] at h
    dsimp only at h
    rw [if_neg hplain, if_neg hhigh, if_pos hpair] at h
    obtain ⟨tail, htail, rfl⟩ := Option.map_eq_some_iff.mp h
    have hfirst : 0xd800 + (0x10000 + (unit.val - 0xd800) * 0x400 + (low.val - 0xdc00) - 0x10000) / 0x400 =
        unit.val := by omega
    have hsecond : 0xdc00 + (0x10000 + (unit.val - 0xd800) * 0x400 + (low.val - 0xdc00) - 0x10000) % 0x400 =
        low.val := by omega
    rw [encode_cons, ih htail, encodeChar, toNat_ofNat (by omega), if_neg (by omega), hfirst,
      hsecond, Fin.ofNat_val_eq_self, Fin.ofNat_val_eq_self]
    rfl
  | case6 unit hplain hhigh low rest hpair =>
    rw [decode.eq_def] at h
    dsimp only at h
    rw [if_neg hplain, if_neg hhigh, if_neg hpair] at h
    cases h

end BetterWebBrowser.Framework.Utf16
