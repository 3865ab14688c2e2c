import Mathlib.Data.List.DropRight
import Mathlib.Data.List.Lex
import Mathlib.Data.Char
import Mathlib.Algebra.BigOperators.Group.List.Basic
import Mathlib.Algebra.Ring.Int.Defs
import Mathlib.Data.Nat.Cast.Basic

/-!
# Strings as lists of scalar values

A string of the source is the list of its Unicode scalar values. `byteLen` is its length
in UTF-8 bytes, which every byte budget of the source counts.
-/

namespace BetterWebBrowser.Framework

/-- A string: its Unicode scalar values in order. -/
abbrev Str := List Char

instance : LawfulBEq Str := List.instLawfulBEq

/-- Code units are numbers below this. -/
instance instNeZeroUnits : NeZero 65536 := ⟨by decide⟩

namespace Str

/-- Length of the UTF-8 encoding. -/
def byteLen (s : Str) : Nat := (s.map fun c => c.utf8Size).sum

@[simp] theorem byteLen_nil : byteLen [] = 0 := rfl

@[simp] theorem byteLen_cons (c : Char) (s : Str) : byteLen (c :: s) = c.utf8Size + byteLen s := by
  simp [byteLen]

@[simp] theorem byteLen_append (s t : Str) : byteLen (s ++ t) = byteLen s + byteLen t := by
  simp [byteLen]

/-- The Unicode property `White_Space`. -/
def isWhitespace (c : Char) : Bool :=
  (0x09 ≤ c.toNat && c.toNat ≤ 0x0d) || c.toNat == 0x20 || c.toNat == 0x85 || c.toNat == 0xa0 ||
    c.toNat == 0x1680 || (0x2000 ≤ c.toNat && c.toNat ≤ 0x200a) || c.toNat == 0x2028 ||
    c.toNat == 0x2029 || c.toNat == 0x202f || c.toNat == 0x205f || c.toNat == 0x3000

/-- Drop the matching characters from both ends. -/
def trimMatches (p : Char → Bool) (s : Str) : Str :=
  ((s.dropWhile p).reverse.dropWhile p).reverse

theorem trimMatches_trimMatches (p : Char → Bool) (s : Str) :
    trimMatches p (trimMatches p s) = trimMatches p s := by
  have hfront : ∀ t : Str, t.dropWhile p = t →
      ((t.reverse.dropWhile p).reverse).dropWhile p = (t.reverse.dropWhile p).reverse := by
    intro t ht
    have hpre : (t.reverse.dropWhile p).reverse <+: t := by
      rw [← List.reverse_suffix, List.reverse_reverse]
      exact List.dropWhile_suffix p
    obtain ⟨rest, hrest⟩ := hpre
    cases htrim : (t.reverse.dropWhile p).reverse with
    | nil => rfl
    | cons c r =>
      rw [htrim] at hrest
      rw [← hrest, List.cons_append, List.dropWhile_cons] at ht
      split_ifs at ht with hc
      · have hlen := congrArg List.length ht
        have hle := (List.dropWhile_sublist p (l := r ++ rest)).length_le
        rw [List.length_cons] at hlen
        omega
      · rw [List.dropWhile_cons, if_neg hc]
  have hdrop : (s.dropWhile p).dropWhile p = s.dropWhile p := List.dropWhile_idempotent p _
  have hstart := hfront (s.dropWhile p) hdrop
  rw [trimMatches, trimMatches, hstart, List.reverse_reverse]
  congr 1
  exact List.dropWhile_idempotent p _

/-- A string that keeps its ends under one trim keeps them under a weaker one. -/
theorem trimMatches_of_weaker {p q : Char → Bool} {s : Str} (hpq : ∀ c, p c = true → q c = true)
    (h : trimMatches q s = s) : trimMatches p s = s := by
  have hkeep : ∀ t : Str, t.dropWhile q = t → t.dropWhile p = t := by
    intro t ht
    cases t with
    | nil => rfl
    | cons c t =>
      rw [List.dropWhile_cons] at ht
      split_ifs at ht with hc
      · have hlen := congrArg List.length ht
        have hle := (List.dropWhile_sublist q (l := t)).length_le
        rw [List.length_cons] at hlen
        omega
      · rw [List.dropWhile_cons, if_neg fun hp => hc (hpq c hp)]
  have hlen := congrArg List.length h
  have hfront := (List.dropWhile_sublist q (l := s)).length_le
  have hback := (List.dropWhile_sublist q (l := (s.dropWhile q).reverse)).length_le
  rw [trimMatches, List.length_reverse] at hlen
  rw [List.length_reverse] at hback
  have hs : s.dropWhile q = s := (List.dropWhile_sublist q).eq_of_length (by omega)
  rw [trimMatches, hs] at h
  rw [trimMatches, hkeep s hs, hkeep s.reverse (by rw [← List.reverse_inj, h, List.reverse_reverse]),
    List.reverse_reverse]

/-- Drop `White_Space` from both ends. -/
def trim (s : Str) : Str := trimMatches isWhitespace s

def toAsciiLowercase (s : Str) : Str :=
  s.map fun c => if 'A' ≤ c ∧ c ≤ 'Z' then Char.ofNat (c.toNat + 32) else c

private theorem toAsciiLowercase_char (c : Char) :
    ¬ ('A' ≤ (if 'A' ≤ c ∧ c ≤ 'Z' then Char.ofNat (c.toNat + 32) else c) ∧
      (if 'A' ≤ c ∧ c ≤ 'Z' then Char.ofNat (c.toNat + 32) else c) ≤ 'Z') := by
  split
  next hupper =>
    have hle : ∀ a b : Char, a ≤ b ↔ a.toNat ≤ b.toNat := fun a b => by
      rw [Char.le_def, UInt32.le_iff_toNat_le]
      rfl
    rw [hle, hle] at hupper
    have hvalid : (c.toNat + 32).isValidChar := by
      left
      have h : ('Z' : Char).toNat = 90 := rfl
      omega
    have hlower : (Char.ofNat (c.toNat + 32)).toNat = c.toNat + 32 := by
      rw [Char.ofNat, dif_pos hvalid]
      rfl
    rw [hle, hle, hlower]
    have hA : ('A' : Char).toNat = 65 := rfl
    have hZ : ('Z' : Char).toNat = 90 := rfl
    omega
  next hupper => exact hupper

@[simp] theorem toAsciiLowercase_toAsciiLowercase (s : Str) :
    toAsciiLowercase (toAsciiLowercase s) = toAsciiLowercase s := by
  rw [toAsciiLowercase, toAsciiLowercase, List.map_map]
  apply List.map_congr_left
  intro c _
  exact if_neg (toAsciiLowercase_char c)

def eqIgnoreAsciiCase (s t : Str) : Bool := decide (toAsciiLowercase s = toAsciiLowercase t)

def isAscii (c : Char) : Bool := decide (c.toNat < 128)

def isAsciiAlphabetic (c : Char) : Bool := decide ('A' ≤ c ∧ c ≤ 'Z' ∨ 'a' ≤ c ∧ c ≤ 'z')

def isAsciiDigit (c : Char) : Bool := decide ('0' ≤ c ∧ c ≤ '9')

def isAsciiAlphanumeric (c : Char) : Bool := isAsciiAlphabetic c || isAsciiDigit c

/-- Space, tab, line feed, form feed and carriage return. -/
def isAsciiWhitespace (c : Char) : Bool :=
  c.toNat == 0x20 || c.toNat == 0x09 || c.toNat == 0x0a || c.toNat == 0x0c || c.toNat == 0x0d

def startsWith (s t : Str) : Bool := t.isPrefixOf s

def stripPrefix (s t : Str) : Option Str := if startsWith s t then some (s.drop t.length) else none

def stripSuffix (s t : Str) : Option Str :=
  if t.isSuffixOf s then some (s.take (s.length - t.length)) else none

/-- The parts before and after the first occurrence of `t`. -/
def splitOnce (s t : Str) : Option (Str × Str) :=
  if startsWith s t then some ([], s.drop t.length)
  else
    match s with
    | [] => none
    | c :: s => (splitOnce s t).map fun parts => (c :: parts.1, parts.2)

/-- Splitting at a character: the first part does not have it. -/
theorem splitOnce_char {s first second : Str} {c : Char} (h : splitOnce s [c] = some (first, second)) :
    s = first ++ c :: second ∧ c ∉ first := by
  induction s generalizing first with
  | nil => cases h
  | cons d s ih =>
    rw [splitOnce] at h
    split at h
    next hstart =>
      cases h
      have hd : c = d := by simpa [startsWith] using hstart
      rw [hd]
      exact ⟨rfl, List.not_mem_nil⟩
    next hstart =>
      have hd : c ≠ d := by simpa [startsWith] using hstart
      obtain ⟨⟨front, back⟩, hsplit, hparts⟩ := Option.map_eq_some_iff.mp h
      cases hparts
      obtain ⟨rfl, hfront⟩ := ih hsplit
      exact ⟨rfl, by simp [hd, hfront]⟩

theorem splitOnce_char_none {s : Str} {c : Char} (h : splitOnce s [c] = none) : c ∉ s := by
  induction s with
  | nil => exact List.not_mem_nil
  | cons d s ih =>
    rw [splitOnce] at h
    split at h
    next hstart => cases h
    next hstart =>
      have hd : c ≠ d := by simpa [startsWith] using hstart
      have hrest := ih (Option.map_eq_none_iff.mp h)
      simp [hd, hrest]

theorem mem_of_mem_trimMatches {p : Char → Bool} {s : Str} {c : Char} (h : c ∈ trimMatches p s) :
    c ∈ s := by
  rw [trimMatches, List.mem_reverse] at h
  have hback := (List.dropWhile_sublist p).subset h
  rw [List.mem_reverse] at hback
  exact (List.dropWhile_sublist p).subset hback

/-- `str::parse::<u16>`: digits, after an optional plus sign. -/
def parseU16 (s : Str) : Option Nat :=
  let digits := (stripPrefix s ['+']).getD s
  if digits ≠ [] ∧ digits.all isAsciiDigit then
    let value := digits.foldl (fun value c => 10 * value + (c.toNat - '0'.toNat)) 0
    if value < 2 ^ 16 then some value else none
  else none

/-- `str::parse::<u64>`. -/
def parseU64 (s : Str) : Option Nat :=
  let digits := (stripPrefix s ['+']).getD s
  if digits ≠ [] ∧ digits.all isAsciiDigit then
    let value := digits.foldl (fun value c => 10 * value + (c.toNat - '0'.toNat)) 0
    if value < 2 ^ 64 then some value else none
  else none

/-- Words, with the letters of the current word in hand. -/
def wordsFrom : Str → Str → List Str
  | [], [] => []
  | word, [] => [word]
  | [], c :: s => if isAsciiWhitespace c then wordsFrom [] s else wordsFrom [c] s
  | word, c :: s => if isAsciiWhitespace c then word :: wordsFrom [] s else wordsFrom (word ++ [c]) s

def splitAsciiWhitespace (s : Str) : List Str := wordsFrom [] s

@[simp] theorem splitAsciiWhitespace_cons {c : Char} (h : isAsciiWhitespace c = true) (s : Str) :
    splitAsciiWhitespace (c :: s) = splitAsciiWhitespace s := by
  simp [splitAsciiWhitespace, wordsFrom, h]

private theorem wordsFrom_append {c : Char} (h : isAsciiWhitespace c = true) (word s : Str) :
    wordsFrom word (s ++ [c]) = wordsFrom word s := by
  induction s generalizing word with
  | nil => cases word <;> simp [wordsFrom, h]
  | cons d s ih => cases word <;> simp [wordsFrom, ih]

@[simp] theorem splitAsciiWhitespace_append {c : Char} (h : isAsciiWhitespace c = true) (s : Str) :
    splitAsciiWhitespace (s ++ [c]) = splitAsciiWhitespace s :=
  wordsFrom_append h [] s

/-! ## UTF-8 -/

def utf8 (s : Str) : List UInt8 := s.flatMap String.utf8EncodeChar

/-- `String::from_utf8` -/
def fromUtf8 (bytes : List UInt8) : Option Str := bytes.toByteArray.utf8Decode?.map Array.toList

theorem length_utf8 (s : Str) : (utf8 s).length = byteLen s := by
  induction s with
  | nil => rfl
  | cons c s ih =>
    show (String.utf8EncodeChar c ++ utf8 s).length = _
    rw [List.length_append, String.length_utf8EncodeChar, ih, byteLen_cons]

/-- The bytes that decode to a string are its encoding. -/
theorem fromUtf8_eq_some {bytes : List UInt8} {s : Str} : fromUtf8 bytes = some s ↔ bytes = utf8 s := by
  constructor
  · intro h
    obtain ⟨chars, hchars, rfl⟩ := Option.map_eq_some_iff.mp h
    have hsome : bytes.toByteArray.utf8Decode?.isSome = true := by rw [hchars]; rfl
    have hencode : chars.toList.utf8Encode = bytes.toByteArray := by
      have hget : bytes.toByteArray.utf8Decode?.get hsome = chars := Option.get_of_eq_some hsome hchars
      rw [← hget, ByteArray.utf8Encode_get_utf8Decode?]
    exact (List.toByteArray_inj.mp hencode).symm
  · rintro rfl
    show ((utf8 s).toByteArray.utf8Decode?).map Array.toList = some s
    have hdecode : (utf8 s).toByteArray.utf8Decode? = some s.toArray := List.utf8Decode?_utf8Encode
    rw [hdecode]
    rfl

end Str

end BetterWebBrowser.Framework
