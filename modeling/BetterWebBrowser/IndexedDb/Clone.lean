import BetterWebBrowser.Framework.Checked
import BetterWebBrowser.IndexedDb.Keys

/-!
# Structured clones

Records hold the JSON text of a structured clone. What key paths find in it, and where a
generated key is put. Reading and writing JSON texts is a parameter.
-/

namespace BetterWebBrowser.IndexedDb

open Framework

/-! ## JSON values -/

/-- `NegInt value` is the number `-(value + 1)`. -/
inductive JsonNumber
  | PosInt (value : Fin (2 ^ 64))
  | NegInt (value : Fin (2 ^ 63))
  | Float (value : Double) (finite : value.isFinite = true)

inductive Json
  | Null
  | Bool (value : Bool)
  | Number (number : JsonNumber)
  | String (text : Str)
  | Array (items : List Json)
  | Object (fields : List (Str × Json))

/-- Reading and writing JSON texts. -/
structure SerdeJson where
  fromStr : Str → Option Json
  toString : Json → Str

def JsonNumber.asF64 : JsonNumber → Double
  | .PosInt value => Double.ofU64 value.val
  | .NegInt value => (Double.ofU64 (value.val + 1)).negated
  | .Float value _ => value

namespace Json

/-- `Value::from` of a double. -/
def ofF64 (value : Double) : Json :=
  if h : value.isFinite = true then .Number (.Float value h) else .Null

def asF64 : Json → Option Double
  | .Number number => some number.asF64
  | _ => none

def asU64 : Json → Option Nat
  | .Number (.PosInt value) => some value.val
  | _ => none

def asStr : Json → Option Str
  | .String text => some text
  | _ => none

def asArray : Json → Option (List Json)
  | .Array items => some items
  | _ => none

def field (name : Str) : List (Str × Json) → Option Json
  | [] => none
  | (other, value) :: fields => if other = name then some value else field name fields

/-- Replace the value of a field that is there. -/
def setField (name : Str) (value : Json) : List (Str × Json) → List (Str × Json)
  | [] => []
  | (other, old) :: fields =>
    if other = name then (other, value) :: fields else (other, old) :: setField name value fields

/-- `value.get(name)`. -/
def get (value : Json) (name : Str) : Option Json :=
  match value with
  | .Object fields => field name fields
  | _ => none

/-- Write to what `value.get_mut(name)` finds. -/
def set (value : Json) (name : Str) (new : Json) : Json :=
  match value with
  | .Object fields => .Object (setField name new fields)
  | _ => value

/-- The kind of a clone node. -/
def tag (value : Json) : Option Str := (value.get "t".toList).bind asStr

/-- The members of a clone node. -/
def members (value : Json) : Option (List Json) := (value.get "v".toList).bind asArray

/-- The name of a member. -/
def memberName (member : Json) : Option Str := ((member.asArray).bind List.head?).bind asStr

/-- The value of a member. -/
def memberValue (member : Json) : Option Json := member.asArray.bind fun pair => pair[1]?

/-- The first member of a name that has a value. -/
def findMember (name : Str) (members : List Json) : Option Json :=
  members.findSome? fun member => if member.memberName = some name then member.memberValue else none

/-! ## Key paths -/

/-- What the path component `length` reads. -/
def lengthOf (value : Json) : Option Double :=
  if value.tag = some "array".toList then
    ((value.get "l".toList).bind asU64).map Double.ofU64
  else value.asStr.map fun text => Double.ofU64 (Utf16.encode text).length

def projectParts : Json → List Str → Option Json
  | current, [] => some current
  | current, part :: rest =>
    match if part = "length".toList then current.lengthOf else none with
    | some length => if rest = [] then some (ofF64 length) else none
    | none =>
      match current.members.bind (findMember part) with
      | none => none
      | some next => projectParts next rest

def projectPath (value : Json) (path : Str) : Option Json :=
  if path = [] then some value else projectParts value (path.splitOn '.')

/-! ## Keys of values -/

def base64Digit (byte : UInt8) : Option Nat :=
  if 'A'.toNat ≤ byte.toNat ∧ byte.toNat ≤ 'Z'.toNat then some (byte.toNat - 'A'.toNat)
  else if 'a'.toNat ≤ byte.toNat ∧ byte.toNat ≤ 'z'.toNat then some (byte.toNat - 'a'.toNat + 26)
  else if '0'.toNat ≤ byte.toNat ∧ byte.toNat ≤ '9'.toNat then some (byte.toNat - '0'.toNat + 52)
  else if byte.toNat = '+'.toNat then some 62
  else if byte.toNat = '/'.toNat then some 63
  else none

/-- The padding character. -/
def BASE64_PAD : UInt8 := 61

def decodeChunks : List UInt8 → Option (List UInt8)
  | a :: b :: c :: d :: rest => do
    let first ← base64Digit a
    let second ← base64Digit b
    let third ← if c = BASE64_PAD then some 0 else base64Digit c
    let fourth ← if d = BASE64_PAD then some 0 else base64Digit d
    let bits := first * 2 ^ 18 + second * 2 ^ 12 + third * 2 ^ 6 + fourth
    let decoded ← decodeChunks rest
    some (UInt8.ofNat (bits / 2 ^ 16) ::
      ((if c = BASE64_PAD then [] else [UInt8.ofNat (bits / 2 ^ 8)]) ++
        ((if d = BASE64_PAD then [] else [UInt8.ofNat bits]) ++ decoded)))
  | _ => some []

def decodeBase64 (text : Str) : Option (List UInt8) :=
  if (Str.utf8 text).length % 4 ≠ 0 then none else decodeChunks (Str.utf8 text)

private theorem sizeOf_field {name : Str} {fields : List (Str × Json)} {value : Json}
    (h : field name fields = some value) : sizeOf value < sizeOf fields := by
  induction fields with
  | nil => cases h
  | cons entry fields ih =>
    obtain ⟨other, old⟩ := entry
    rw [field] at h
    split at h
    · rw [Option.some.inj h]
      simp only [List.cons.sizeOf_spec, Prod.mk.sizeOf_spec]
      omega
    · have hless := ih h
      simp only [List.cons.sizeOf_spec]
      omega

private theorem sizeOf_members {value : Json} {members : List Json} (h : value.members = some members) :
    sizeOf members < sizeOf value := by
  obtain ⟨array, hget, harray⟩ := Option.bind_eq_some_iff.mp h
  cases value with
  | Object fields =>
    have hless := sizeOf_field hget
    cases array with
    | Array items =>
      cases harray
      simp only [Json.Array.sizeOf_spec, Json.Object.sizeOf_spec] at *
      omega
    | _ => cases harray
  | _ => cases hget

private theorem sizeOf_findMember {name : Str} {members : List Json} {value : Json}
    (h : findMember name members = some value) : sizeOf value < sizeOf members := by
  obtain ⟨member, hmem, hvalue⟩ := List.exists_of_findSome?_eq_some h
  have hmember := List.sizeOf_lt_of_mem hmem
  split at hvalue
  · rw [memberValue] at hvalue
    obtain ⟨pair, hpair, hsecond⟩ := Option.bind_eq_some_iff.mp hvalue
    cases member with
    | Array items =>
      cases hpair
      have hless := List.sizeOf_lt_of_mem (List.mem_of_getElem? hsecond)
      simp only [Json.Array.sizeOf_spec] at hmember
      omega
    | _ => cases hpair
  · cases hvalue

/-- The key that a value stands for. -/
def cloneKey (value : Json) : Option Key :=
  match value.asF64 with
  | some number => if number.isFinite then some (.Number number) else none
  | none =>
    match value.asStr with
    | some text => some (.String text)
    | none =>
      match value.tag with
      | none => none
      | some kind =>
        if kind = "date".toList then ((value.get "v".toList).bind asF64).map .Date
        else if kind = "number".toList ∧ (value.get "v".toList).bind asStr = some "-0".toList then
          some (.Number Double.zero)
        else if kind = "buffer".toList then
          ((value.get "v".toList).bind asStr).bind fun text => (decodeBase64 text).map .Binary
        else if kind = "array".toList then
          match (value.get "l".toList).bind asU64 with
          | none => none
          | some length =>
            if MAX_OPERATIONS < length then none
            else
              match _hmembers : value.members with
              | none => none
              | some members =>
                ((List.range length).mapM fun index =>
                  match _hmember : findMember (Nat.toDigits 10 index) members with
                  | none => none
                  | some element => cloneKey element).map .Array
        else none
termination_by sizeOf value
decreasing_by
  exact (sizeOf_findMember _hmember).trans (sizeOf_members _hmembers)

end Json

def extractPath (value : Json) (path : Str) : Option Key :=
  (value.projectPath path).bind Json.cloneKey

/-! ## Generated keys -/

namespace Json

mutual

/-- The largest identifier in a clone. -/
def maximumId : Json → Nat
  | .Object fields => max (((field "id".toList fields).bind asU64).getD 0) (maximumIdFields fields)
  | .Array items => maximumIdItems items
  | _ => 0

def maximumIdFields : List (Str × Json) → Nat
  | [] => 0
  | (_, value) :: fields => max (maximumId value) (maximumIdFields fields)

def maximumIdItems : List Json → Nat
  | [] => 0
  | value :: items => max (maximumId value) (maximumIdItems items)

end

/-- A member of a clone node. -/
def pair (name : Str) (value : Json) : Json := .Array [.String name, value]

/-- An object without members. -/
def emptyObject (id : Nat) : Json :=
  .Object [("id".toList, .Number (.PosInt (Fin.ofNat (2 ^ 64) id))), ("n".toList, .Bool false),
    ("t".toList, .String "object".toList), ("v".toList, .Array [])]

/-- Write to the value of a member. -/
def setMemberValue (member value : Json) : Json :=
  match member with
  | .Array items => .Array (items.set 1 value)
  | _ => member

/-- Where the next part of a path goes on: in the member found, or in a new object. -/
def childPlace (entries : List Json) (position : Option Nat) (part : Str) (nextId : Nat) :
    DbOutcome (List Json × Nat × Nat) :=
  match position with
  | some index => .ok (entries, index, nextId)
  | none =>
    match checkedAdd 64 nextId 1 with
    | none => .error .Quota
    | some following => .ok (entries ++ [pair part (emptyObject nextId)], entries.length, following)

/-- Put the key at a path that starts with `part`; identifiers are given out from `nextId` on. -/
def injectParts (node : Json) (part : Str) (rest : List Str) (key : Double) (nextId : Nat) :
    DbOutcome (Json × Nat) :=
  if node.tag ≠ some "object".toList ∧ node.tag ≠ some "array".toList then
    .error (.Data "inline key path cannot be injected into this value")
  else
    match node.members with
    | none => .error (.Data "invalid structured clone object")
    | some entries =>
      let position := entries.findIdx? fun entry => entry.memberName = some part
      match rest with
      | [] =>
        let entries := match position with
          | some index => entries.set index (pair part (ofF64 key))
          | none => entries ++ [pair part (ofF64 key)]
        .ok (node.set "v".toList (.Array entries), nextId)
      | next :: rest => do
        let (entries, index, nextId) ← childPlace entries position part nextId
        match entries[index]? with
        | none => throw (.Data "invalid structured clone property")
        | some entry =>
          match entry.memberValue with
          | none => throw (.Data "invalid structured clone property")
          | some child => do
            let (child, nextId) ← injectParts child next rest key nextId
            pure (node.set "v".toList (.Array (entries.set index (entry.setMemberValue child))), nextId)

end Json

/-- The text of a record with a generated key in it. -/
def inject (json : SerdeJson) (value path : Str) (key : Key) : DbOutcome Str :=
  match key with
  | .Number number =>
    match json.fromStr value with
    | none => .error (.Data "record is not a structured clone")
    | some clone =>
      match checkedAdd 64 clone.maximumId 1 with
      | none => .error .Quota
      | some nextId => do
        let parts := path.splitOn '.'
        let (clone, _) ← clone.injectParts (parts.headD []) parts.tail number nextId
        pure (json.toString clone)
  | _ => .error (.Data "generated inline key is not numeric")

end BetterWebBrowser.IndexedDb
