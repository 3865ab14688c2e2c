import BetterWebBrowser.Framework.Checked
import BetterWebBrowser.Framework.Outcome
import Mathlib.Data.List.Basic

/-!
# Byte formats

Little-endian numbers, and readers that consume a prefix of a byte string. `Reads` says that
a reader takes exactly some bytes off the front of any input and returns a value for them;
its rules follow the way readers are composed.
-/

namespace BetterWebBrowser.Framework

/-! ## Little-endian numbers -/

def littleEndian : Nat → Nat → List UInt8
  | 0, _ => []
  | width + 1, value => UInt8.ofNat value :: littleEndian width (value / 256)

def fromLittleEndian : List UInt8 → Nat
  | [] => 0
  | byte :: bytes => byte.toNat + 256 * fromLittleEndian bytes

@[simp] theorem length_littleEndian (width value : Nat) :
    (littleEndian width value).length = width := by
  induction width generalizing value with
  | zero => rfl
  | succ width ih => rw [littleEndian, List.length_cons, ih]

theorem fromLittleEndian_lt (bytes : List UInt8) :
    fromLittleEndian bytes < 256 ^ bytes.length := by
  induction bytes with
  | nil => exact Nat.one_pos
  | cons byte bytes ih =>
    have hbyte : byte.toNat < 256 := byte.toNat_lt
    rw [fromLittleEndian, List.length_cons, Nat.pow_succ]
    omega

/-- A number comes back up to the width it was written in. -/
theorem fromLittleEndian_littleEndian (width value : Nat) :
    fromLittleEndian (littleEndian width value) = value % 256 ^ width := by
  induction width generalizing value with
  | zero => exact (Nat.mod_one value).symm
  | succ width ih =>
    have hbyte : (UInt8.ofNat value).toNat = value % 256 := UInt8.toNat_ofNat'
    rw [littleEndian, fromLittleEndian, ih, hbyte, Nat.pow_succ, Nat.mul_comm (256 ^ width),
      Nat.mod_mul]

theorem littleEndian_fromLittleEndian (bytes : List UInt8) :
    littleEndian bytes.length (fromLittleEndian bytes) = bytes := by
  induction bytes with
  | nil => rfl
  | cons byte bytes ih =>
    have hbyte : byte.toNat < 256 := byte.toNat_lt
    have hlow : UInt8.ofNat (byte.toNat + 256 * fromLittleEndian bytes) = byte := by
      apply UInt8.toNat_inj.mp
      rw [UInt8.toNat_ofNat']
      omega
    have hhigh : (byte.toNat + 256 * fromLittleEndian bytes) / 256 = fromLittleEndian bytes := by
      omega
    rw [List.length_cons, fromLittleEndian, littleEndian, hlow, hhigh, ih]

/-! ## Readers -/

/-- A reader of a value from the front of a byte string. -/
abbrev Reader (E A : Type) := StateT (List UInt8) (Except E) A

namespace Reader

variable {E A B : Type}

/-- The next `length` bytes. -/
def take (truncated : E) (length : Nat) : Reader E (List UInt8) := fun input =>
  if length ≤ input.length then .ok (input.take length, input.drop length)
  else .error truncated

/-- A reader that never succeeds. -/
def fail (error : E) : Reader E A := fun _ => .error error

/-- An early return. -/
def failIf (failed : Prop) [Decidable failed] (error : E) : Reader E Unit := fun input =>
  if failed then .error error else .ok ((), input)

/-- A step that reads nothing. -/
def ofExcept (result : Except E A) : Reader E A := fun input =>
  result.map fun value => (value, input)

/-- A reader inside a function that can fail in other ways too. -/
def orRaise (reader : Reader E A) : Reader (Fault E) A := fun input =>
  (reader input).mapError .Returned

/-- `for _ in 0..count { items.push(reader) }` -/
def times (reader : Reader E A) : Nat → Reader E (List A)
  | 0 => pure []
  | count + 1 => do
    let item ← reader
    let items ← times reader count
    pure (item :: items)

theorem run_bind_eq_ok {reader : Reader E A} {next : A → Reader E B} {input : List UInt8}
    {result : B × List UInt8} :
    (reader >>= next) input = .ok result ↔
      ∃ value rest, reader input = .ok (value, rest) ∧ next value rest = .ok result := by
  show (reader input >>= fun pair => next pair.1 pair.2) = _ ↔ _
  rw [bind_eq_ok]
  constructor
  · rintro ⟨⟨value, rest⟩, hvalue, hnext⟩
    exact ⟨value, rest, hvalue, hnext⟩
  · rintro ⟨value, rest, hvalue, hnext⟩
    exact ⟨(value, rest), hvalue, hnext⟩

/-- What follows a reader matters only for what the reader returns. -/
theorem run_bind_congr {reader : Reader E A} {next other : A → Reader E B} {input : List UInt8}
    (h : ∀ value rest, reader input = .ok (value, rest) → next value rest = other value rest) :
    (reader >>= next) input = (reader >>= other) input := by
  show (reader input >>= fun pair => next pair.1 pair.2) =
    (reader input >>= fun pair => other pair.1 pair.2)
  cases hresult : reader input with
  | error error => rfl
  | ok pair => exact h pair.1 pair.2 hresult

theorem run_orRaise_eq_ok {reader : Reader E A} {input : List UInt8} {result : A × List UInt8} :
    reader.orRaise input = .ok result ↔ reader input = .ok result :=
  mapError_eq_ok

theorem run_failIf_eq_ok {failed : Prop} [Decidable failed] {error : E} {input : List UInt8}
    {result : Unit × List UInt8} :
    failIf failed error input = .ok result ↔ ¬ failed ∧ result = ((), input) := by
  rw [failIf]
  split
  next hfailed => exact ⟨(nomatch ·), fun h => absurd hfailed h.1⟩
  next hpassed =>
    constructor
    · intro h
      exact ⟨hpassed, (Except.ok.inj h).symm⟩
    · rintro ⟨-, rfl⟩
      rfl

theorem run_take_eq_ok {truncated : E} {length : Nat} {input bytes rest : List UInt8} :
    take truncated length input = .ok (bytes, rest) ↔ input = bytes ++ rest ∧ bytes.length = length := by
  rw [take]
  constructor
  · intro h
    split at h
    next hfits =>
      cases h
      exact ⟨(List.take_append_drop length input).symm, List.length_take_of_le hfits⟩
    next => cases h
  · rintro ⟨rfl, hlength⟩
    have hfits : length ≤ (bytes ++ rest).length := by
      rw [List.length_append]
      omega
    rw [if_pos hfits, List.take_left' hlength, List.drop_left' hlength]

/-! ## What a reader takes -/

/-- The reader takes exactly these bytes off the front of any input. -/
def Reads (reader : Reader E A) (bytes : List UInt8) (value : A) : Prop :=
  ∀ rest, reader (bytes ++ rest) = .ok (value, rest)

namespace Reads

theorem pure (value : A) : Reads (Pure.pure value : Reader E A) [] value := fun _ => rfl

theorem bind {reader : Reader E A} {next : A → Reader E B} {bytes more : List UInt8} {value : A}
    {result : B} (h : Reads reader bytes value) (hnext : Reads (next value) more result) :
    Reads (reader >>= next) (bytes ++ more) result := by
  intro rest
  rw [run_bind_eq_ok]
  refine ⟨value, more ++ rest, ?_, hnext rest⟩
  rw [List.append_assoc]
  exact h (more ++ rest)

theorem map {reader : Reader E A} {bytes : List UInt8} {value : A} (f : A → B)
    (h : Reads reader bytes value) :
    Reads (reader >>= fun value => Pure.pure (f value)) bytes (f value) := by
  have hmap : Reads (reader >>= fun value => Pure.pure (f value)) (bytes ++ []) (f value) :=
    h.bind (Reads.pure (f value))
  rwa [List.append_nil] at hmap

theorem take (truncated : E) {bytes : List UInt8} {length : Nat} (hlength : bytes.length = length) :
    Reads (Reader.take truncated length) bytes bytes := fun _ =>
  run_take_eq_ok.mpr ⟨rfl, hlength⟩

theorem failIf {failed : Prop} [Decidable failed] {error : E} (h : ¬ failed) :
    Reads (Reader.failIf failed error) [] () := fun _ => if_neg h

theorem ofExcept {result : Except E A} {value : A} (h : result = .ok value) :
    Reads (Reader.ofExcept result) [] value := by
  intro rest
  rw [h]
  rfl

theorem orRaise {reader : Reader E A} {bytes : List UInt8} {value : A}
    (h : Reads reader bytes value) : Reads reader.orRaise bytes value := by
  intro rest
  rw [Reader.orRaise, h rest]
  rfl

theorem times {reader : Reader E A} {pieces : List (List UInt8)} {items : List A}
    (h : List.Forall₂ (Reads reader) pieces items) :
    Reads (reader.times items.length) pieces.flatten items := by
  induction h with
  | nil => exact Reads.pure []
  | cons hitem _ ih => exact hitem.bind (ih.map _)

end Reads

theorem run_pure_eq_ok {value : A} {input : List UInt8} {result : A × List UInt8} :
    (pure value : Reader E A) input = .ok result ↔ result = (value, input) :=
  ⟨fun h => (Except.ok.inj h).symm, fun h => h ▸ rfl⟩

/-- A number of fixed width is the value of exactly its own bytes. -/
theorem run_number_eq_ok {truncated : E} {width : Nat} {ofNat : Nat → A} {toNat : A → Nat}
    (hbound : ∀ value, toNat value < 256 ^ width) (hof : ∀ value, ofNat (toNat value) = value)
    (hto : ∀ number, number < 256 ^ width → toNat (ofNat number) = number)
    {input rest : List UInt8} {value : A} :
    (Reader.take truncated width >>= fun bytes => pure (ofNat (fromLittleEndian bytes)))
        input = .ok (value, rest) ↔ input = littleEndian width (toNat value) ++ rest := by
  rw [run_bind_eq_ok]
  constructor
  · rintro ⟨bytes, middle, htake, h⟩
    cases h
    obtain ⟨rfl, hlength⟩ := run_take_eq_ok.mp htake
    have hnumber := fromLittleEndian_lt bytes
    rw [hlength] at hnumber
    rw [hto _ hnumber, ← hlength, littleEndian_fromLittleEndian]
  · rintro rfl
    refine ⟨_, rest, run_take_eq_ok.mpr ⟨rfl, length_littleEndian _ _⟩, ?_⟩
    rw [fromLittleEndian_littleEndian, Nat.mod_eq_of_lt (hbound value), hof]
    rfl

theorem length_times {reader : Reader E A} {count : Nat} {input rest : List UInt8} {items : List A}
    (h : reader.times count input = .ok (items, rest)) : items.length = count := by
  induction count generalizing input items with
  | zero =>
    cases h
    rfl
  | succ count ih =>
    rw [times, run_bind_eq_ok] at h
    obtain ⟨item, middle, -, h⟩ := h
    rw [run_bind_eq_ok] at h
    obtain ⟨tail, last, htail, h⟩ := h
    cases h
    rw [List.length_cons, ih htail]

theorem run_ofExcept_eq_ok {result : Except E A} {input : List UInt8} {value : A}
    {rest : List UInt8} :
    ofExcept result input = .ok (value, rest) ↔ result = .ok value ∧ rest = input := by
  rw [ofExcept]
  cases result with
  | error error => exact ⟨(nomatch ·), fun h => nomatch h.1⟩
  | ok found =>
    constructor
    · intro h
      obtain ⟨rfl, rfl⟩ := Prod.mk.inj (Except.ok.inj h)
      exact ⟨rfl, rfl⟩
    · rintro ⟨hfound, rfl⟩
      rw [Except.ok.inj hfound]
      rfl

/-! ## How much a reader takes -/

/-- The reader takes at least this many bytes off the front for a value. -/
def Takes (reader : Reader E A) (size : A → Nat) : Prop :=
  ∀ input value rest, reader input = .ok (value, rest) → size value + rest.length ≤ input.length

namespace Takes

/-- The first step of a reader that has succeeded. -/
theorem step {reader : Reader E A} {next : A → Reader E B} {size : A → Nat} {input : List UInt8}
    {result : B × List UInt8} (h : Takes reader size) (hrun : (reader >>= next) input = .ok result) :
    ∃ value rest, reader input = .ok (value, rest) ∧ next value rest = .ok result ∧
      size value + rest.length ≤ input.length := by
  obtain ⟨value, rest, hvalue, hnext⟩ := run_bind_eq_ok.mp hrun
  exact ⟨value, rest, hvalue, hnext, h input value rest hvalue⟩

theorem pure (value : A) : Takes (Pure.pure value : Reader E A) fun _ => 0 := by
  intro input found rest h
  cases h
  exact Nat.le_of_eq (Nat.zero_add _)

theorem failIf (failed : Prop) [Decidable failed] (error : E) :
    Takes (Reader.failIf failed error) fun _ => 0 := by
  intro input value rest h
  obtain ⟨-, heq⟩ := run_failIf_eq_ok.mp h
  cases heq
  exact Nat.le_of_eq (Nat.zero_add _)

theorem ofExcept (result : Except E A) : Takes (Reader.ofExcept result) fun _ => 0 := by
  intro input value rest h
  obtain ⟨-, rfl⟩ := run_ofExcept_eq_ok.mp h
  exact Nat.le_of_eq (Nat.zero_add _)

theorem weaken {reader : Reader E A} {size less : A → Nat} (h : Takes reader size)
    (hless : ∀ value, less value ≤ size value) : Takes reader less := by
  intro input value rest hrun
  have htakes := h input value rest hrun
  have hvalue := hless value
  omega

/-- A value made of what is read. -/
theorem map {reader : Reader E A} {size : A → Nat} {more : B → Nat} {f : A → B}
    (h : Takes reader size) (hsize : ∀ value, more (f value) ≤ size value) :
    Takes (reader >>= fun value => Pure.pure (f value)) more := by
  intro input result rest hrun
  obtain ⟨value, middle, -, hpure, htakes⟩ := h.step hrun
  cases hpure
  have hvalue := hsize value
  omega

theorem times {reader : Reader E A} {size : A → Nat} (h : Takes reader size) (count : Nat) :
    Takes (reader.times count) fun items => (items.map size).sum := by
  induction count with
  | zero =>
    intro input items rest hrun
    cases hrun
    exact Nat.le_of_eq (Nat.zero_add _)
  | succ count ih =>
    intro input items rest hrun
    obtain ⟨item, middle, -, hrun, hitem⟩ := h.step hrun
    obtain ⟨more, last, -, hpure, hmore⟩ := ih.step hrun
    cases hpure
    simp only [List.map_cons, List.sum_cons]
    omega

end Takes

/-! ## Formats -/

/-- `for item in items { write(item)? }` -/
def writeEach (write : A → Except E (List UInt8)) : List A → Except E (List UInt8)
  | [] => pure []
  | item :: items => do
    let bytes ← write item
    let more ← writeEach write items
    pure (bytes ++ more)

/-- The writer accepts the valid values and lays them out in this way. -/
def Writes (write : A → Except E (List UInt8)) (Valid : A → Prop) (layout : A → List UInt8) : Prop :=
  ∀ value, Yields (write value) (Valid value) (layout value)

/-- The reader takes the layout of a valid value off the front, and nothing else. -/
def Inverts (reader : Reader E A) (Valid : A → Prop) (layout : A → List UInt8) : Prop :=
  ∀ input value rest, reader input = .ok (value, rest) ↔ Valid value ∧ input = layout value ++ rest

theorem Writes.each {write : A → Except E (List UInt8)} {Valid : A → Prop} {layout : A → List UInt8}
    (h : Writes write Valid layout) :
    Writes (writeEach write) (fun items => ∀ item ∈ items, Valid item) fun items =>
      items.flatMap layout := by
  intro items
  induction items with
  | nil => exact (Yields.pure []).congr (by simp)
  | cons item items ih =>
    have hcons : Yields (writeEach write (item :: items)) (Valid item ∧ (∀ item ∈ items, Valid item) ∧ True)
        (layout item ++ items.flatMap layout) := (h item).bind (ih.bind (Yields.pure _))
    exact hcons.congr (by simp)

namespace Inverts

variable {Valid Known Rest : A → Prop} {layout : A → List UInt8}

theorem takes {reader : Reader E A} (h : Inverts reader Valid layout) :
    Takes reader fun value => (layout value).length := by
  intro input value rest hrun
  obtain ⟨-, rfl⟩ := (h input value rest).mp hrun
  rw [List.length_append]

theorem congr {reader : Reader E A} {Other : A → Prop} {other : A → List UInt8}
    (h : Inverts reader Valid layout) (hvalid : ∀ value, Valid value ↔ Other value)
    (hlayout : ∀ value, layout value = other value) : Inverts reader Other other := by
  intro input value rest
  rw [h input value rest, hvalid value, hlayout value]

/-- A value that is read as the tag that stands for it. -/
theorem tagged {reader : Reader E A} {decode : A → Except E B} {tag : B → A}
    (h : Inverts reader (fun _ => True) layout)
    (hdecode : ∀ found value, decode found = .ok value ↔ found = tag value) :
    Inverts (reader >>= fun found => ofExcept (decode found)) (fun _ => True) fun value =>
      layout (tag value) := by
  intro input value rest
  rw [run_bind_eq_ok]
  constructor
  · rintro ⟨found, middle, hfound, hread⟩
    obtain ⟨-, rfl⟩ := (h _ _ _).mp hfound
    obtain ⟨hvalue, rfl⟩ := run_ofExcept_eq_ok.mp hread
    obtain rfl := (hdecode found value).mp hvalue
    exact ⟨trivial, rfl⟩
  · rintro ⟨-, rfl⟩
    refine ⟨tag value, rest, (h _ _ _).mpr ⟨trivial, rfl⟩, ?_⟩
    exact run_ofExcept_eq_ok.mpr ⟨(hdecode _ value).mpr rfl, rfl⟩

theorem times {reader : Reader E A} (h : Inverts reader Valid layout) (count : Nat) :
    Inverts (reader.times count) (fun items => items.length = count ∧ ∀ item ∈ items, Valid item)
      fun items => items.flatMap layout := by
  induction count with
  | zero =>
    intro input items rest
    constructor
    · intro hread
      cases hread
      exact ⟨⟨rfl, (fun _ hmem => by cases hmem)⟩, rfl⟩
    · rintro ⟨⟨hlength, -⟩, rfl⟩
      obtain rfl := List.length_eq_zero_iff.mp hlength
      rfl
  | succ count ih =>
    intro input items rest
    rw [Reader.times, run_bind_eq_ok]
    constructor
    · rintro ⟨item, middle, hitem, hread⟩
      obtain ⟨tail, after, htail, hread⟩ := run_bind_eq_ok.mp hread
      cases hread
      obtain ⟨hvalid, rfl⟩ := (h _ _ _).mp hitem
      obtain ⟨⟨hlength, hvalids⟩, rfl⟩ := (ih _ _ _).mp htail
      refine ⟨⟨congrArg (· + 1) hlength, List.forall_mem_cons.mpr ⟨hvalid, hvalids⟩⟩, ?_⟩
      simp only [List.flatMap_cons, List.append_assoc]
    · rintro ⟨⟨hlength, hvalids⟩, rfl⟩
      cases items with
      | nil => cases hlength
      | cons item tail =>
        obtain ⟨hvalid, hvalids⟩ := List.forall_mem_cons.mp hvalids
        refine ⟨item, tail.flatMap layout ++ rest, (h _ _ _).mpr ⟨hvalid, ?_⟩, ?_⟩
        · simp only [List.flatMap_cons, List.append_assoc]
        · exact run_bind_eq_ok.mpr
            ⟨tail, rest, (ih _ _ _).mpr ⟨⟨Nat.succ.inj hlength, hvalids⟩, rfl⟩, rfl⟩

/-- A value that is checked once it is read. -/
theorem checked {reader : Reader E A} {check : A → Except E Unit} (h : Inverts reader Valid layout) :
    Inverts (reader >>= fun value => Reader.ofExcept (check value) >>= fun _ => pure value)
      (fun value => Valid value ∧ check value = .ok ()) layout := by
  intro input value rest
  rw [run_bind_eq_ok]
  constructor
  · rintro ⟨found, middle, hfound, hread⟩
    obtain ⟨hvalid, rfl⟩ := (h _ _ _).mp hfound
    obtain ⟨_, after, hcheck, hpure⟩ := run_bind_eq_ok.mp hread
    cases hpure
    cases hresult : check value with
    | error error =>
      rw [hresult] at hcheck
      cases hcheck
    | ok passed =>
      rw [hresult] at hcheck
      cases hcheck
      exact ⟨⟨hvalid, hresult⟩, rfl⟩
  · rintro ⟨⟨hvalid, hcheck⟩, rfl⟩
    refine ⟨value, rest, (h _ _ _).mpr ⟨hvalid, rfl⟩, ?_⟩
    rw [hcheck]
    rfl

/-! A record is read field by field. `Known` says which fields the values read so far fix. -/

/-- No field is known at first. -/
theorem record {reader : Reader E A} {Other : A → Prop} {other : A → List UInt8}
    (h : Inverts reader (fun value => True ∧ Rest value) layout)
    (hvalid : ∀ value, Rest value ↔ Other value) (hlayout : ∀ value, layout value = other value) :
    Inverts reader Other other :=
  h.congr (fun value => (iff_of_eq (true_and (Rest value))).trans (hvalid value)) hlayout

/-- The next field. -/
theorem field {reader : Reader E B} {next : B → Reader E A} {ValidField : B → Prop}
    {fieldLayout : B → List UInt8} (get : A → B) (h : Inverts reader ValidField fieldLayout)
    (hnext : ∀ part, Inverts (next part) (fun value => (get value = part ∧ Known value) ∧ Rest value)
      layout) :
    Inverts (reader >>= next) (fun value => Known value ∧ ValidField (get value) ∧ Rest value)
      fun value => fieldLayout (get value) ++ layout value := by
  intro input value rest
  rw [run_bind_eq_ok]
  constructor
  · rintro ⟨part, middle, hpart, hread⟩
    obtain ⟨hvalid, rfl⟩ := (h _ _ _).mp hpart
    obtain ⟨⟨⟨rfl, hknown⟩, hrest⟩, rfl⟩ := (hnext part _ _ _).mp hread
    exact ⟨⟨hknown, hvalid, hrest⟩, (List.append_assoc _ _ _).symm⟩
  · rintro ⟨⟨hknown, hvalid, hrest⟩, rfl⟩
    refine ⟨get value, layout value ++ rest, (h _ _ _).mpr ⟨hvalid, List.append_assoc _ _ _⟩, ?_⟩
    exact (hnext _ _ _ _).mpr ⟨⟨⟨rfl, hknown⟩, hrest⟩, rfl⟩

/-- The next field, where a field read before it says how it is laid out. -/
theorem fieldBy {C : Type} {key : C} {reader : Reader E B} {next : B → Reader E A}
    {ValidField : C → B → Prop} {fieldLayout : C → B → List UInt8} (get : A → B) (getKey : A → C)
    (hkey : ∀ value, Known value → getKey value = key)
    (h : Inverts reader (ValidField key) (fieldLayout key))
    (hnext : ∀ part, Inverts (next part) (fun value => (get value = part ∧ Known value) ∧ Rest value)
      layout) :
    Inverts (reader >>= next)
      (fun value => Known value ∧ ValidField (getKey value) (get value) ∧ Rest value)
      fun value => fieldLayout (getKey value) (get value) ++ layout value := by
  intro input value rest
  have hfield := field get h hnext input value rest
  dsimp only at hfield
  rw [hfield]
  constructor
  · rintro ⟨⟨hknown, hrest⟩, hinput⟩
    obtain rfl := hkey value hknown
    exact ⟨⟨hknown, hrest⟩, hinput⟩
  · rintro ⟨⟨hknown, hrest⟩, hinput⟩
    obtain rfl := hkey value hknown
    exact ⟨⟨hknown, hrest⟩, hinput⟩

/-- A check of the fields read so far. -/
theorem check (Passes : A → Prop) {failed : Prop} [Decidable failed] {error : E}
    {next : Unit → Reader E A} (h : ∀ value, Known value → (¬ failed ↔ Passes value))
    (hnext : Inverts (next ()) (fun value => Known value ∧ Rest value) layout) :
    Inverts (Reader.failIf failed error >>= next)
      (fun value => Known value ∧ Passes value ∧ Rest value) layout := by
  intro input value rest
  rw [run_bind_eq_ok]
  constructor
  · rintro ⟨_, middle, hcheck, hread⟩
    obtain ⟨hpassed, hmiddle⟩ := run_failIf_eq_ok.mp hcheck
    cases hmiddle
    obtain ⟨⟨hknown, hrest⟩, hinput⟩ := (hnext _ _ _).mp hread
    exact ⟨⟨hknown, (h value hknown).mp hpassed, hrest⟩, hinput⟩
  · rintro ⟨⟨hknown, hpasses, hrest⟩, hinput⟩
    have hpassed := (h value hknown).mpr hpasses
    exact ⟨(), input, run_failIf_eq_ok.mpr ⟨hpassed, rfl⟩, (hnext _ _ _).mpr ⟨⟨hknown, hrest⟩, hinput⟩⟩

/-- The record is built from its fields. -/
theorem done {found : A} (h : ∀ value, Known value ↔ value = found) :
    Inverts (pure found : Reader E A) (fun value => Known value ∧ True) fun _ => [] := by
  intro input value rest
  rw [run_pure_eq_ok, Prod.mk.injEq]
  constructor
  · rintro ⟨rfl, rfl⟩
    exact ⟨⟨(h value).mpr rfl, trivial⟩, rfl⟩
  · rintro ⟨⟨hknown, -⟩, rfl⟩
    exact ⟨(h value).mp hknown, rfl⟩

end Inverts

/-! ## Readers that never panic -/

/-- The reader does not panic on any input, and what it returns has the property. -/
def Safe (reader : Reader (Fault E) A) (P : A → Prop) : Prop :=
  ∀ input, match reader input with
    | .error .Panicked => False
    | .error (.Returned _) => True
    | .ok (value, _) => P value

namespace Safe

variable {P : A → Prop} {Q : B → Prop}

theorem pure {value : A} (h : P value) : Safe (Pure.pure value : Reader (Fault E) A) P :=
  fun _ => h

theorem bind {reader : Reader (Fault E) A} {next : A → Reader (Fault E) B} (h : Safe reader P)
    (hnext : ∀ value, P value → Safe (next value) Q) : Safe (reader >>= next) Q := by
  intro input
  have hfirst := h input
  show match (reader input >>= fun pair => next pair.1 pair.2) with
    | .error .Panicked => False
    | .error (.Returned _) => True
    | .ok (value, _) => Q value
  match hresult : reader input with
  | .error .Panicked => rw [hresult] at hfirst; exact hfirst.elim
  | .error (.Returned _) => exact trivial
  | .ok (value, rest) =>
    rw [hresult] at hfirst
    exact hnext value hfirst rest

theorem fail (error : E) : Safe (Reader.fail (.Returned error) : Reader (Fault E) A) P :=
  fun _ => trivial

theorem orRaise {reader : Reader E A} (h : ∀ {input value rest},
    reader input = .ok (value, rest) → P value) : Safe reader.orRaise P := by
  intro input
  rw [Reader.orRaise]
  match hresult : reader input with
  | .error _ => exact trivial
  | .ok (value, rest) => exact h hresult

theorem orRaise' (reader : Reader E A) : Safe reader.orRaise fun _ => True :=
  orRaise fun _ => trivial

theorem ofExcept {result : Except (Fault E) A} {value : A} (h : result = .ok value) :
    Safe (Reader.ofExcept result) fun _ => True := by
  intro input
  rw [h]
  exact trivial

end Safe

end Reader

end BetterWebBrowser.Framework
