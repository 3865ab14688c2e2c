import BetterWebBrowser.Framework.Str

/-!
# Times and cookie dates

Times count ticks of 100 nanoseconds from the Unix epoch, in the range of a signed 64-bit
file time. A cookie date is read from its tokens in any order.
-/

namespace BetterWebBrowser.Cookies

open Framework

/-- Ticks from the Unix epoch. -/
abbrev SystemTime := Int

def TICKS_PER_SECOND : Nat := 10 ^ 7

/-- The Unix epoch as a file time. -/
def EPOCH_FILE_TIME : Int := 116444736000000000

def UNIX_EPOCH : SystemTime := 0

def SystemTime.checkedAdd (time : SystemTime) (seconds : Nat) : Option SystemTime :=
  let sum := time + seconds * TICKS_PER_SECOND
  if sum + EPOCH_FILE_TIME < 2 ^ 63 then some sum else none

def SystemTime.checkedSub (time : SystemTime) (seconds : Nat) : Option SystemTime :=
  let difference := time - seconds * TICKS_PER_SECOND
  if -2 ^ 63 ≤ difference + EPOCH_FILE_TIME then some difference else none

/-! ## The calendar -/

def isLeapYear (year : Nat) : Bool := year % 4 = 0 && (year % 100 ≠ 0 || year % 400 = 0)

def daysInMonth (year : Nat) : Nat → Nat
  | 2 => if isLeapYear year then 29 else 28
  | 4 | 6 | 9 | 11 => 30
  | _ => 31

def daysBeforeYear (year : Nat) : Nat :=
  365 * (year - 1) + (year - 1) / 4 - (year - 1) / 100 + (year - 1) / 400

/-- Seconds from the Unix epoch; `none` for a day that the month does not have. -/
def unixTimestamp (year month day hour minute second : Nat) : Option Int :=
  if 1 ≤ day ∧ day ≤ daysInMonth year month then
    let days := daysBeforeYear year + ((List.range (month - 1)).map fun m =>
      daysInMonth year (m + 1)).sum + (day - 1)
    some (((days : Int) - daysBeforeYear 1970) * 86400 + hour * 3600 + minute * 60 + second)
  else none

/-! ## Cookie dates -/

def digitValue (c : Char) : Nat := c.toNat - '0'.toNat

def decimalValue (digits : Str) : Nat := digits.foldl (fun value c => value * 10 + digitValue c) 0

def isDateDelimiter (c : Char) : Bool :=
  c.toNat = 0x09 || (0x20 ≤ c.toNat && c.toNat ≤ 0x2f) || (0x3b ≤ c.toNat && c.toNat ≤ 0x40) ||
    (0x5b ≤ c.toNat && c.toNat ≤ 0x60) || (0x7b ≤ c.toNat && c.toNat ≤ 0x7e)

def parseOneOrTwoDigits (value : Str) : Option Nat :=
  if value ≠ [] ∧ value.length ≤ 2 ∧ value.all Str.isAsciiDigit then some (decimalValue value)
  else none

def parseTime (token : Str) : Option (Nat × Nat × Nat) :=
  match token.splitOn ':' with
  | [hour, minute, second] => do
    let hour ← parseOneOrTwoDigits hour
    let minute ← parseOneOrTwoDigits minute
    let second ← parseOneOrTwoDigits second
    pure (hour, minute, second)
  | _ => none

/-- `str::parse::<u8>` on at most two bytes, which a sign may start. -/
def parseDay (token : Str) : Option Nat :=
  if 2 < Str.byteLen token then none
  else
    let digits := (Str.stripPrefix token "+".toList).getD token
    if digits ≠ [] ∧ digits.all Str.isAsciiDigit then some (decimalValue digits) else none

def MONTHS : List Str :=
  ["jan".toList, "feb".toList, "mar".toList, "apr".toList, "may".toList, "jun".toList,
    "jul".toList, "aug".toList, "sep".toList, "oct".toList, "nov".toList, "dec".toList]

def parseMonth (token : Str) : Option Nat :=
  let index := MONTHS.idxOf (Str.toAsciiLowercase (token.take 3))
  if index < 12 then some (index + 1) else none

/-- What the tokens of a date have given so far. -/
structure DateFields where
  time : Option (Nat × Nat × Nat) := none
  day : Option Nat := none
  month : Option Nat := none
  year : Option Nat := none

def DateFields.readYear (fields : DateFields) (token : Str) : DateFields :=
  if fields.year.isNone && 2 ≤ token.length && token.length ≤ 4 && token.all Str.isAsciiDigit then
    { fields with year := some (decimalValue token) }
  else fields

def DateFields.readMonth (fields : DateFields) (token : Str) : DateFields :=
  match fields.month, parseMonth token with
  | none, some month => { fields with month := some month }
  | _, _ => fields.readYear token

def DateFields.readDay (fields : DateFields) (token : Str) : DateFields :=
  match fields.day, parseDay token with
  | none, some day => { fields with day := some day }
  | _, _ => fields.readMonth token

def DateFields.read (fields : DateFields) (token : Str) : DateFields :=
  match fields.time, parseTime token with
  | none, some time => { fields with time := some time }
  | _, _ => fields.readDay token

def parseCookieDate (input : Str) : Option SystemTime := do
  let tokens := (input.splitOnP isDateDelimiter).filter fun token => token ≠ []
  let fields := tokens.foldl DateFields.read {}
  let year ← fields.year
  let year := if 70 ≤ year ∧ year ≤ 99 then year + 1900 else if year ≤ 69 then year + 2000 else year
  let (hour, minute, second) ← fields.time
  if year < 1601 ∨ 23 < hour ∨ 59 < minute ∨ 59 < second then none
  else
    let month ← fields.month
    let day ← fields.day
    let timestamp ← unixTimestamp year month day hour minute second
    if 0 ≤ timestamp then SystemTime.checkedAdd UNIX_EPOCH timestamp.toNat
    else SystemTime.checkedSub UNIX_EPOCH timestamp.natAbs

example : parseCookieDate "Wed, 21 Oct 2015 07:28:00 GMT".toList =
    some (1445412480 * TICKS_PER_SECOND) := by decide +kernel

end BetterWebBrowser.Cookies
