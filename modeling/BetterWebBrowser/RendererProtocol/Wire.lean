import BetterWebBrowser.Framework.Wire
import BetterWebBrowser.RendererProtocol.Types

/-!
# Primitive codec of the renderer payloads

The writer's functions are given by the bytes they append, the reader's as readers of the
bytes from the cursor on. A single-precision number is its bits.
-/

namespace BetterWebBrowser.RendererProtocol

open Framework

/-- A single-precision number, bit for bit. -/
structure Single where
  toBits : UInt32
deriving DecidableEq

namespace Single

def isFinite (number : Single) : Bool := number.toBits.toNat / 2 ^ 23 % 256 ≠ 255

/-- `number < 0.0`, from the largest negative subnormal down to the negative infinity. -/
def ltZero (number : Single) : Bool :=
  2 ^ 31 < number.toBits.toNat ∧ number.toBits.toNat ≤ 2 ^ 31 + 255 * 2 ^ 23

/-- `number != 0.0`, for the zeros of both signs. -/
def neZero (number : Single) : Bool := number.toBits.toNat % 2 ^ 31 ≠ 0

end Single

namespace WireWriter

def u8 (value : UInt8) : List UInt8 := [value]

def bool (value : Bool) : List UInt8 := u8 (if value then 1 else 0)

def u16 (value : UInt16) : List UInt8 := littleEndian 2 value.toNat

def u32 (value : UInt32) : List UInt8 := littleEndian 4 value.toNat

def i32 (value : Int32) : List UInt8 := u32 value.toUInt32

def u64 (value : UInt64) : List UInt8 := littleEndian 8 value.toNat

def u128 (value : BitVec 128) : List UInt8 := littleEndian 16 value.toNat

def f32 (value : Single) : List UInt8 := u32 value.toBits

/-- The bytes of a string whose length fits its prefix. -/
def prefixed (value : List UInt8) : List UInt8 := u32 (UInt32.ofNat value.length) ++ value

def string (value : Str) : ProtocolResult (List UInt8) :=
  if Str.byteLen value < 2 ^ 32 then .ok (prefixed (Str.utf8 value))
  else .error (.InvalidPayload "wire string length")

def bytes (value : List UInt8) : ProtocolResult (List UInt8) :=
  if value.length < 2 ^ 32 then .ok (prefixed value)
  else .error (.InvalidPayload "wire byte length")

/-- `writer.bool(value.is_some()); if let Some(value) = value { write(value)? }` -/
def option {A : Type} (write : A → ProtocolResult (List UInt8)) :
    Option A → ProtocolResult (List UInt8)
  | none => pure (bool false)
  | some value => do
    let bytes ← write value
    pure (bool true ++ bytes)

/-- What `option` appends. -/
def optional {A : Type} (layout : A → List UInt8) : Option A → List UInt8
  | none => bool false
  | some value => bool true ++ layout value

end WireWriter

abbrev WireReader (A : Type) := Reader ProtocolError A

namespace WireReader

def invalid {A : Type} (field : String) : WireReader A := Reader.fail (.InvalidPayload field)

def take (length : Nat) : WireReader (List UInt8) :=
  Reader.take (.InvalidPayload "truncated wire value") length

def u8 : WireReader UInt8 := do
  let bytes ← take 1
  pure (UInt8.ofNat (fromLittleEndian bytes))

def bool : WireReader Bool := do
  match ← u8 with
  | 0 => pure false
  | 1 => pure true
  | _ => invalid "wire boolean"

def u16 : WireReader UInt16 := do
  let bytes ← take 2
  pure (UInt16.ofNat (fromLittleEndian bytes))

def u32 : WireReader UInt32 := do
  let bytes ← take 4
  pure (UInt32.ofNat (fromLittleEndian bytes))

def i32 : WireReader Int32 := do
  let value ← u32
  pure value.toInt32

def u64 : WireReader UInt64 := do
  let bytes ← take 8
  pure (UInt64.ofNat (fromLittleEndian bytes))

def u128 : WireReader (BitVec 128) := do
  let bytes ← take 16
  pure (BitVec.ofNat 128 (fromLittleEndian bytes))

def f32 : WireReader Single := do
  let bits ← u32
  pure ⟨bits⟩

/-- `reader.bool()?.then(|| reader).transpose()?` -/
def option {A : Type} (reader : WireReader A) : WireReader (Option A) := do
  match ← bool with
  | false => pure none
  | true =>
    let value ← reader
    pure (some value)

/-- Bytes behind their length, refused above the limit. -/
def prefixed (maximum : Nat) (budget : String) : WireReader (List UInt8) := do
  let length := (← u32).toNat
  Reader.failIf (length > maximum) (.InvalidPayload budget)
  take length

def string (maximum : Nat) : WireReader Str := do
  match Str.fromUtf8 (← prefixed maximum "wire string budget") with
  | none => Reader.fail .InvalidUtf8
  | some value => pure value

def bytes (maximum : Nat) : WireReader (List UInt8) := prefixed maximum "wire byte budget"

/-- A count read from the wire, refused above its limit. -/
def boundedCount (value : UInt32) (maximum : Nat) (field : String) : WireReader Nat := do
  Reader.failIf (¬ value.toNat ≤ maximum) (.InvalidPayload field)
  pure value.toNat

/-! ## Each reader takes exactly what its writer appends -/

variable {input rest : List UInt8}

theorem u8_eq_ok {value : UInt8} :
    u8 input = .ok (value, rest) ↔ input = WireWriter.u8 value ++ rest := by
  have hwrite : WireWriter.u8 value = littleEndian 1 value.toNat := by
    rw [littleEndian, littleEndian, UInt8.ofNat_toNat]
    rfl
  rw [hwrite]
  exact Reader.run_number_eq_ok (fun value => value.toNat_lt) (fun _ => UInt8.ofNat_toNat)
    (fun _ => UInt8.toNat_ofNat_of_lt')

theorem u16_eq_ok {value : UInt16} :
    u16 input = .ok (value, rest) ↔ input = WireWriter.u16 value ++ rest :=
  Reader.run_number_eq_ok (fun value => value.toNat_lt) (fun _ => UInt16.ofNat_toNat)
    (fun _ => UInt16.toNat_ofNat_of_lt')

theorem u32_eq_ok {value : UInt32} :
    u32 input = .ok (value, rest) ↔ input = WireWriter.u32 value ++ rest :=
  Reader.run_number_eq_ok (fun value => value.toNat_lt) (fun _ => UInt32.ofNat_toNat)
    (fun _ => UInt32.toNat_ofNat_of_lt')

theorem u64_eq_ok {value : UInt64} :
    u64 input = .ok (value, rest) ↔ input = WireWriter.u64 value ++ rest :=
  Reader.run_number_eq_ok (fun value => value.toNat_lt) (fun _ => UInt64.ofNat_toNat)
    (fun _ => UInt64.toNat_ofNat_of_lt')

theorem u128_eq_ok {value : BitVec 128} :
    u128 input = .ok (value, rest) ↔ input = WireWriter.u128 value ++ rest := by
  refine Reader.run_number_eq_ok (fun value : BitVec 128 => value.isLt) ?_ ?_
  · intro value
    rw [BitVec.ofNat_toNat, BitVec.setWidth_eq]
  · intro number hnumber
    exact (BitVec.toNat_ofNat number 128).trans (Nat.mod_eq_of_lt hnumber)

theorem bool_eq_ok {value : Bool} :
    bool input = .ok (value, rest) ↔ input = WireWriter.bool value ++ rest := by
  rw [bool, Reader.run_bind_eq_ok]
  constructor
  · rintro ⟨byte, middle, hbyte, h⟩
    obtain rfl := u8_eq_ok.mp hbyte
    split at h
    next =>
      cases h
      rfl
    next =>
      cases h
      rfl
    next => cases h
  · rintro rfl
    refine ⟨_, rest, u8_eq_ok.mpr rfl, ?_⟩
    cases value <;> rfl

theorem i32_eq_ok {value : Int32} :
    i32 input = .ok (value, rest) ↔ input = WireWriter.i32 value ++ rest := by
  rw [i32, Reader.run_bind_eq_ok]
  constructor
  · rintro ⟨word, middle, hword, h⟩
    cases h
    rw [u32_eq_ok.mp hword, WireWriter.i32, UInt32.toUInt32_toInt32]
  · rintro rfl
    refine ⟨_, rest, u32_eq_ok.mpr rfl, ?_⟩
    rw [Int32.toInt32_toUInt32]
    rfl

theorem run_take_eq_ok {length : Nat} {value : List UInt8} :
    take length input = .ok (value, rest) ↔ input = value ++ rest ∧ value.length = length :=
  Reader.run_take_eq_ok

theorem toNat_ofNat_length {length : Nat} (h : length < 2 ^ 32) :
    (UInt32.ofNat length).toNat = length := UInt32.toNat_ofNat_of_lt' h

private theorem prefixed_eq_ok {maximum : Nat} {budget : String} {value : List UInt8}
    (hmaximum : maximum < 2 ^ 32) :
    prefixed maximum budget input = .ok (value, rest) ↔
      value.length ≤ maximum ∧ input = WireWriter.prefixed value ++ rest := by
  rw [prefixed, Reader.run_bind_eq_ok]
  constructor
  · rintro ⟨length, middle, hlength, h⟩
    obtain rfl := u32_eq_ok.mp hlength
    obtain ⟨_, after, hpassed, h⟩ := Reader.run_bind_eq_ok.mp h
    obtain ⟨hfits, hafter⟩ := Reader.run_failIf_eq_ok.mp hpassed
    cases hafter
    obtain ⟨rfl, hvalue⟩ := run_take_eq_ok.mp h
    refine ⟨hvalue ▸ Nat.le_of_not_lt hfits, ?_⟩
    rw [WireWriter.prefixed, hvalue, UInt32.ofNat_toNat, List.append_assoc]
  · rintro ⟨hfits, rfl⟩
    have hlength := toNat_ofNat_length (hfits.trans_lt hmaximum)
    refine ⟨_, value ++ rest, u32_eq_ok.mpr (List.append_assoc _ _ _), ?_⟩
    refine Reader.run_bind_eq_ok.mpr ⟨(), _, Reader.run_failIf_eq_ok.mpr ⟨?_, rfl⟩, ?_⟩
    · rw [hlength]
      exact Nat.not_lt.mpr hfits
    · exact run_take_eq_ok.mpr ⟨rfl, hlength.symm⟩

theorem bytes_eq_ok {maximum : Nat} {value : List UInt8} (hmaximum : maximum < 2 ^ 32) :
    bytes maximum input = .ok (value, rest) ↔
      value.length ≤ maximum ∧ input = WireWriter.prefixed value ++ rest :=
  prefixed_eq_ok hmaximum

theorem string_eq_ok {maximum : Nat} {value : Str} (hmaximum : maximum < 2 ^ 32) :
    string maximum input = .ok (value, rest) ↔
      Str.byteLen value ≤ maximum ∧ input = WireWriter.prefixed (Str.utf8 value) ++ rest := by
  rw [string, Reader.run_bind_eq_ok]
  constructor
  · rintro ⟨found, middle, hfound, h⟩
    obtain ⟨hfits, rfl⟩ := (prefixed_eq_ok hmaximum).mp hfound
    cases hdecoded : Str.fromUtf8 found with
    | none =>
      rw [hdecoded] at h
      cases h
    | some decoded =>
      rw [hdecoded] at h
      cases h
      obtain rfl := Str.fromUtf8_eq_some.mp hdecoded
      exact ⟨Str.length_utf8 value ▸ hfits, rfl⟩
  · rintro ⟨hfits, rfl⟩
    refine ⟨Str.utf8 value, rest, (prefixed_eq_ok hmaximum).mpr ⟨?_, rfl⟩, ?_⟩
    · rwa [Str.length_utf8]
    · rw [Str.fromUtf8_eq_some.mpr rfl]
      rfl

theorem reads_u8 (value : UInt8) : Reader.Reads u8 (WireWriter.u8 value) value :=
  fun _ => u8_eq_ok.mpr rfl

theorem reads_u32 (value : UInt32) : Reader.Reads u32 (WireWriter.u32 value) value :=
  fun _ => u32_eq_ok.mpr rfl

theorem reads_u64 (value : UInt64) : Reader.Reads u64 (WireWriter.u64 value) value :=
  fun _ => u64_eq_ok.mpr rfl

theorem reads_boundedCount {value : UInt32} {maximum : Nat} {field : String}
    (h : value.toNat ≤ maximum) :
    Reader.Reads (boundedCount value maximum field) [] value.toNat :=
  (Reader.Reads.failIf (not_not.mpr h)).bind (Reader.Reads.pure _)

/-! ## The formats of the primitives -/

theorem u8_inverts : Reader.Inverts u8 (fun _ => True) WireWriter.u8 := fun _ _ _ => by
  rw [u8_eq_ok, true_and]

theorem bool_inverts : Reader.Inverts bool (fun _ => True) WireWriter.bool := fun _ _ _ => by
  rw [bool_eq_ok, true_and]

theorem u16_inverts : Reader.Inverts u16 (fun _ => True) WireWriter.u16 := fun _ _ _ => by
  rw [u16_eq_ok, true_and]

theorem u32_inverts : Reader.Inverts u32 (fun _ => True) WireWriter.u32 := fun _ _ _ => by
  rw [u32_eq_ok, true_and]

theorem u64_inverts : Reader.Inverts u64 (fun _ => True) WireWriter.u64 := fun _ _ _ => by
  rw [u64_eq_ok, true_and]

theorem f32_inverts : Reader.Inverts f32 (fun _ => True) WireWriter.f32 := by
  refine Reader.Inverts.record (.field Single.toBits u32_inverts fun bits =>
    .done fun value => ?_) ?_ ?_
  · cases value
    simp
  · simp
  · simp [WireWriter.f32]

theorem string_inverts {maximum : Nat} (hmaximum : maximum < 2 ^ 32) :
    Reader.Inverts (string maximum) (fun value => Str.byteLen value ≤ maximum)
      fun value => WireWriter.prefixed (Str.utf8 value) :=
  fun _ _ _ => string_eq_ok hmaximum

theorem bytes_inverts {maximum : Nat} (hmaximum : maximum < 2 ^ 32) :
    Reader.Inverts (bytes maximum) (fun value => value.length ≤ maximum) WireWriter.prefixed :=
  fun _ _ _ => bytes_eq_ok hmaximum

theorem option_inverts {A : Type} {reader : WireReader A} {Valid : A → Prop}
    {layout : A → List UInt8} (h : Reader.Inverts reader Valid layout) :
    Reader.Inverts (option reader) (fun value => ∀ found ∈ value, Valid found)
      (WireWriter.optional layout) := by
  intro input value rest
  rw [option, Reader.run_bind_eq_ok]
  constructor
  · rintro ⟨present, middle, hpresent, hread⟩
    obtain rfl := bool_eq_ok.mp hpresent
    cases present with
    | false =>
      cases hread
      exact ⟨(fun _ hmem => by cases hmem), rfl⟩
    | true =>
      obtain ⟨found, after, hfound, hread⟩ := Reader.run_bind_eq_ok.mp hread
      cases hread
      obtain ⟨hvalid, rfl⟩ := (h _ _ _).mp hfound
      refine ⟨?_, (List.append_assoc _ _ _).symm⟩
      rintro _ ⟨⟩
      exact hvalid
  · rintro ⟨hvalid, rfl⟩
    cases value with
    | none => exact ⟨false, rest, bool_eq_ok.mpr rfl, rfl⟩
    | some found =>
      refine ⟨true, layout found ++ rest, bool_eq_ok.mpr (List.append_assoc _ _ _), ?_⟩
      exact Reader.run_bind_eq_ok.mpr ⟨found, rest, (h _ _ _).mpr ⟨hvalid found rfl, rfl⟩, rfl⟩

end WireReader

namespace WireWriter

theorem string_writes :
    Reader.Writes string (fun value => Str.byteLen value < 2 ^ 32) fun value =>
      prefixed (Str.utf8 value) := by
  intro value found
  rw [string]
  split
  next hfits => simpa only [hfits, true_and, Except.ok.injEq] using eq_comm
  next hlong => simp only [hlong, false_and, reduceCtorEq]

theorem bytes_writes :
    Reader.Writes bytes (fun value => value.length < 2 ^ 32) prefixed := by
  intro value found
  rw [bytes]
  split
  next hfits => simpa only [hfits, true_and, Except.ok.injEq] using eq_comm
  next hlong => simp only [hlong, false_and, reduceCtorEq]

theorem option_writes {A : Type} {write : A → ProtocolResult (List UInt8)} {Valid : A → Prop}
    {layout : A → List UInt8} (h : Reader.Writes write Valid layout) :
    Reader.Writes (option write) (fun value => ∀ found ∈ value, Valid found) (optional layout) := by
  intro value
  cases value with
  | none => exact (Yields.pure _).congr (by simp)
  | some value =>
    have hsome : Yields (option write (some value)) (Valid value ∧ True) (bool true ++ layout value) :=
      (h value).bind (Yields.pure _)
    exact hsome.congr (by simp)

end WireWriter

end BetterWebBrowser.RendererProtocol
