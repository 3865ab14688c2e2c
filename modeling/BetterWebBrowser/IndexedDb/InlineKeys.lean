import BetterWebBrowser.IndexedDb.Records

/-!
# Generated inline keys

What the injection of a generated key changes in a structured clone, and when reading the same
path again finds the key.
-/

namespace BetterWebBrowser.IndexedDb

open Framework

namespace Json

/-! ## Fields and members -/

section Fields

variable {name other : Str} {value old : Json} {fields : List (Str × Json)}

theorem field_setField_self (h : field name fields = some old) :
    field name (setField name value fields) = some value := by
  induction fields with
  | nil => cases h
  | cons entry fields ih =>
    obtain ⟨entryName, entryValue⟩ := entry
    rw [field] at h
    rw [setField]
    split at h
    next hname => simp [hname, field]
    next hname => simp [hname, field, ih h]

theorem field_setField_ne (h : other ≠ name) : field other (setField name value fields) = field other fields := by
  induction fields with
  | nil => rfl
  | cons entry fields ih =>
    obtain ⟨entryName, entryValue⟩ := entry
    rw [setField]
    split
    next hname => simp [field, hname, h.symm]
    next hname => simp [field, ih]

theorem map_fst_setField : (setField name value fields).map Prod.fst = fields.map Prod.fst := by
  induction fields with
  | nil => rfl
  | cons entry fields ih =>
    obtain ⟨entryName, entryValue⟩ := entry
    rw [setField]
    split
    next => rfl
    next => simp [ih]

theorem mem_of_field (h : field name fields = some value) : (name, value) ∈ fields := by
  induction fields with
  | nil => cases h
  | cons entry fields ih =>
    obtain ⟨entryName, entryValue⟩ := entry
    rw [field] at h
    split at h
    next hname => simp [← hname, Option.some.inj h]
    next => exact List.mem_cons_of_mem _ (ih h)

theorem mem_setField {entry : Str × Json} (h : entry ∈ setField name value fields) :
    entry = (name, value) ∨ entry ∈ fields := by
  induction fields with
  | nil => cases h
  | cons first fields ih =>
    obtain ⟨firstName, firstValue⟩ := first
    rw [setField] at h
    split at h
    next hname =>
      rw [← hname]
      exact (List.mem_cons.mp h).imp_right (List.mem_cons_of_mem _)
    next =>
      rcases List.mem_cons.mp h with rfl | hrest
      · exact .inr List.mem_cons_self
      · exact (ih hrest).imp_right (List.mem_cons_of_mem _)

end Fields

/-- A clone node with members is an object with a field for them. -/
theorem exists_field_of_members {node : Json} {entries : List Json} (h : node.members = some entries) :
    ∃ fields, node = .Object fields ∧ field "v".toList fields = some (.Array entries) := by
  obtain ⟨array, hget, harray⟩ := Option.bind_eq_some_iff.mp h
  cases node with
  | Object fields =>
    cases array with
    | Array items =>
      cases harray
      exact ⟨fields, rfl, hget⟩
    | _ => cases harray
  | _ => cases hget

section Members

variable {node : Json} {entries entries' : List Json} {name part : Str}

theorem members_set (h : node.members = some entries) :
    (node.set "v".toList (.Array entries')).members = some entries' := by
  obtain ⟨fields, rfl, hfield⟩ := exists_field_of_members h
  rw [set, members, get, field_setField_self hfield]
  rfl

theorem get_set_ne {value : Json} (h : name ≠ "v".toList) : (node.set "v".toList value).get name = node.get name := by
  cases node with
  | Object fields => exact field_setField_ne h
  | _ => rfl

theorem tag_set {value : Json} : (node.set "v".toList value).tag = node.tag := by
  rw [tag, get_set_ne (by decide), tag]

/-- The members of a node do not matter for its length. -/
theorem lengthOf_set {value : Json} : (node.set "v".toList value).lengthOf = node.lengthOf := by
  have hstr : (node.set "v".toList value).asStr = node.asStr := by cases node <;> rfl
  rw [lengthOf, lengthOf, tag_set, get_set_ne (by decide), hstr]

theorem memberName_pair {value : Json} : (pair part value).memberName = some part := rfl

theorem memberValue_pair {value : Json} : (pair part value).memberValue = some value := rfl

theorem exists_items_of_memberValue {entry child : Json} (h : entry.memberValue = some child) :
    ∃ items, entry = .Array items ∧ items[1]? = some child := by
  cases entry with
  | Array items => exact ⟨items, rfl, h⟩
  | _ => cases h

theorem memberName_setMemberValue {entry value : Json} :
    (entry.setMemberValue value).memberName = entry.memberName := by
  cases entry with
  | Array items =>
    cases items with
    | nil => rfl
    | cons first items => rfl
  | _ => rfl

theorem memberValue_setMemberValue {entry child value : Json} (h : entry.memberValue = some child) :
    (entry.setMemberValue value).memberValue = some value := by
  obtain ⟨items, rfl, hitem⟩ := exists_items_of_memberValue h
  obtain ⟨hbound, -⟩ := List.getElem?_eq_some_iff.mp hitem
  exact List.getElem?_set_self hbound

/-- The member found is the first of its name, if that one has a value. -/
theorem findMember_middle {front back : List Json} {entry value : Json}
    (hfront : ∀ entry ∈ front, entry.memberName ≠ some part) (hname : entry.memberName = some part)
    (hvalue : entry.memberValue = some value) : findMember part (front ++ entry :: back) = some value := by
  have hnone : findMember part front = none := by
    apply List.findSome?_eq_none_iff.mpr
    intro entry hentry
    exact if_neg (hfront entry hentry)
  rw [findMember] at hnone ⊢
  rw [List.findSome?_append, hnone, Option.none_or, List.findSome?_cons, if_pos hname, hvalue]

theorem findMember_eq_none (h : ∀ entry ∈ entries, entry.memberName ≠ some part) :
    findMember part entries = none := by
  apply List.findSome?_eq_none_iff.mpr
  intro entry hentry
  exact if_neg (h entry hentry)

end Members

/-! ## Nesting, identifiers and names -/

mutual

/-- How deep containers are nested. -/
def depth : Json → Nat
  | .Array items => itemsDepth items + 1
  | .Object fields => fieldsDepth fields + 1
  | _ => 0

def itemsDepth : List Json → Nat
  | [] => 0
  | item :: items => max item.depth (itemsDepth items)

def fieldsDepth : List (Str × Json) → Nat
  | [] => 0
  | (_, value) :: fields => max value.depth (fieldsDepth fields)

end

mutual

/-- The identifiers of the containers in a clone. -/
def usedIds : Json → List Nat
  | .Array items => itemsIds items
  | .Object fields => ((field "id".toList fields).bind asU64).toList ++ fieldsIds fields
  | _ => []

def itemsIds : List Json → List Nat
  | [] => []
  | item :: items => item.usedIds ++ itemsIds items

def fieldsIds : List (Str × Json) → List Nat
  | [] => []
  | (_, value) :: fields => value.usedIds ++ fieldsIds fields

end

mutual

/-- The names of fields are in order and all different. -/
def WellFormed : Json → Prop
  | .Array items => ItemsWellFormed items
  | .Object fields => (fields.map Prod.fst).Pairwise (· < ·) ∧ FieldsWellFormed fields
  | _ => True

def ItemsWellFormed : List Json → Prop
  | [] => True
  | item :: items => item.WellFormed ∧ ItemsWellFormed items

def FieldsWellFormed : List (Str × Json) → Prop
  | [] => True
  | (_, value) :: fields => value.WellFormed ∧ FieldsWellFormed fields

end

section Nested

variable {items : List Json} {fields : List (Str × Json)} {bound : Nat}

theorem itemsDepth_le : itemsDepth items ≤ bound ↔ ∀ item ∈ items, item.depth ≤ bound := by
  induction items with
  | nil => simp [itemsDepth]
  | cons item items ih => simp [itemsDepth, ih]

theorem fieldsDepth_le : fieldsDepth fields ≤ bound ↔ ∀ entry ∈ fields, entry.2.depth ≤ bound := by
  induction fields with
  | nil => simp [fieldsDepth]
  | cons entry fields ih => simp [fieldsDepth, ih]

theorem itemsWellFormed_iff : ItemsWellFormed items ↔ ∀ item ∈ items, item.WellFormed := by
  induction items with
  | nil => simp [ItemsWellFormed]
  | cons item items ih => simp [ItemsWellFormed, ih]

theorem fieldsWellFormed_iff : FieldsWellFormed fields ↔ ∀ entry ∈ fields, entry.2.WellFormed := by
  induction fields with
  | nil => simp [FieldsWellFormed]
  | cons entry fields ih => simp [FieldsWellFormed, ih]

end Nested

mutual

/-- The largest identifier bounds all of them. -/
theorem le_maximumId {value : Json} {id : Nat} (h : id ∈ value.usedIds) : id ≤ value.maximumId := by
  cases value with
  | Array items =>
    rw [usedIds] at h
    exact le_maximumIdItems h
  | Object fields =>
    rw [usedIds] at h
    rw [maximumId]
    rcases List.mem_append.mp h with hown | hnested
    · rw [Option.mem_toList.mp hown]
      exact Nat.le_max_left _ _
    · exact (le_maximumIdFields hnested).trans (Nat.le_max_right _ _)
  | _ => cases h

theorem le_maximumIdItems {items : List Json} {id : Nat} (h : id ∈ itemsIds items) :
    id ≤ maximumIdItems items := by
  cases items with
  | nil => cases h
  | cons item items =>
    rw [itemsIds] at h
    rw [maximumIdItems]
    rcases List.mem_append.mp h with hhead | htail
    · exact (le_maximumId hhead).trans (Nat.le_max_left _ _)
    · exact (le_maximumIdItems htail).trans (Nat.le_max_right _ _)

theorem le_maximumIdFields {fields : List (Str × Json)} {id : Nat} (h : id ∈ fieldsIds fields) :
    id ≤ maximumIdFields fields := by
  cases fields with
  | nil => cases h
  | cons entry fields =>
    obtain ⟨name, value⟩ := entry
    rw [fieldsIds] at h
    rw [maximumIdFields]
    rcases List.mem_append.mp h with hhead | htail
    · exact (le_maximumId hhead).trans (Nat.le_max_left _ _)
    · exact (le_maximumIdFields htail).trans (Nat.le_max_right _ _)

end

/-! ## What an injection does -/

/-- Where a path enters a node: the first member of a name, or the end of the members. -/
structure Slot (node : Json) (part : Str) (front : List Json) (old : Option Json) (back : List Json) :
    Prop where
  container : node.tag = some "object".toList ∨ node.tag = some "array".toList
  members : node.members = some (front ++ (old.toList ++ back))
  apart : ∀ entry ∈ front, entry.memberName ≠ some part
  named : ∀ entry ∈ old, entry.memberName = some part
  atEnd : old = none → back = []

/-- Put a member in the place of a slot. -/
def fill (node : Json) (front : List Json) (new : Json) (back : List Json) : Json :=
  node.set "v".toList (.Array (front ++ new :: back))

/-- A key is put at the end of a path, and all else stays: on each container of the path only the
member on the path changes, and where there is none a new container is made. -/
inductive Injected (key : Double) : Json → Str → List Str → Json → List Nat → Prop
  | last {node : Json} {part : Str} {front back : List Json} {old : Option Json}
      (slot : Slot node part front old back) :
      Injected key node part [] (node.fill front (pair part (ofF64 key)) back) []
  | descend {node entry child child' : Json} {part next : Str} {rest : List Str} {front back : List Json}
      {ids : List Nat} (slot : Slot node part front (some entry) back)
      (value : entry.memberValue = some child) (inner : Injected key child next rest child' ids) :
      Injected key node part (next :: rest) (node.fill front (entry.setMemberValue child') back) ids
  | create {node child' : Json} {part next : Str} {rest : List Str} {front : List Json}
      {id : Nat} {ids : List Nat} (slot : Slot node part front none []) (bound : id < 2 ^ 64)
      (inner : Injected key (emptyObject id) next rest child' ids) :
      Injected key node part (next :: rest) (node.fill front (pair part child') []) (id :: ids)

section Injections

variable {key : Double} {node node' : Json} {part : Str} {rest : List Str} {ids : List Nat}
  {front back entries : List Json} {old : Option Json}

/-- The place that the injection looks for is a slot. -/
theorem slot_cases (hcontainer : ¬(node.tag ≠ some "object".toList ∧ node.tag ≠ some "array".toList))
    (hmembers : node.members = some entries) :
    match entries.findIdx? fun entry => entry.memberName = some part with
    | none => Slot node part entries none []
    | some index => ∃ front entry back, entries = front ++ entry :: back ∧ index = front.length ∧
        Slot node part front (some entry) back := by
  have htag : node.tag = some "object".toList ∨ node.tag = some "array".toList := by
    rw [not_and_or, not_not, not_not] at hcontainer
    exact hcontainer
  split
  next hnone =>
    refine ⟨htag, by simpa using hmembers, ?_, by simp, fun _ => rfl⟩
    intro entry hentry
    simpa using List.findIdx?_eq_none_iff.mp hnone entry hentry
  next index hindex =>
    obtain ⟨hbound, hname, hbefore⟩ := List.findIdx?_eq_some_iff_getElem.mp hindex
    have hsplit : entries = entries.take index ++ entries[index] :: entries.drop (index + 1) := by
      rw [← List.drop_eq_getElem_cons hbound, List.take_append_drop]
    refine ⟨_, _, _, hsplit, ?_, htag, hmembers.trans (congrArg some hsplit), ?_, ?_, by simp⟩
    · rw [List.length_take, Nat.min_eq_left hbound.le]
    · intro entry hentry
      obtain ⟨place, hplace, rfl⟩ := List.mem_iff_getElem.mp hentry
      rw [List.length_take, Nat.lt_min] at hplace
      rw [List.getElem_take]
      simpa using hbefore place hplace.1
    · rintro entry ⟨⟩
      exact of_decide_eq_true hname

/-- A successful injection, with the identifiers it has given out. -/
theorem injectParts_ok {nextId nextId' : Nat}
    (h : injectParts node part rest key nextId = .ok (node', nextId')) :
    ∃ ids, Injected key node part rest node' ids ∧ ids = List.range' nextId ids.length := by
  induction rest generalizing node part node' nextId nextId' with
  | nil =>
    rw [injectParts] at h
    split at h
    next => cases h
    next hcontainer =>
      split at h
      next => cases h
      next entries hmembers =>
        have hslot := @slot_cases node part entries hcontainer hmembers
        generalize (entries.findIdx? fun entry => entry.memberName = some part) = position at h hslot
        cases h
        cases position with
        | none => exact ⟨[], .last hslot, rfl⟩
        | some index =>
          obtain ⟨front, entry, back, rfl, rfl, hslot⟩ := hslot
          refine ⟨[], ?_, rfl⟩
          have hfill : Injected key node part [] _ [] := .last hslot
          simpa [fill] using hfill
  | cons next rest ih =>
    rw [injectParts] at h
    split at h
    next => cases h
    next hcontainer =>
      split at h
      next => cases h
      next entries hmembers =>
        have hslot := @slot_cases node part entries hcontainer hmembers
        generalize (entries.findIdx? fun entry => entry.memberName = some part) = position at h hslot
        obtain ⟨⟨entries', index, given⟩, hplace, h⟩ := bind_eq_ok.mp h
        dsimp only at h
        split at h
        next => cases h
        next entry hentry =>
          split at h
          next => cases h
          next child hchild =>
            obtain ⟨⟨child', nextId''⟩, hinner, h⟩ := bind_eq_ok.mp h
            cases h
            obtain ⟨ids, hinjected, hids⟩ := ih hinner
            cases position with
            | none =>
              rw [childPlace] at hplace
              split at hplace
              next => cases hplace
              next following hfollowing =>
                cases hplace
                obtain ⟨rfl, hbound⟩ := checkedAdd_eq_some.mp hfollowing
                rw [List.getElem?_concat_length] at hentry
                cases hentry
                cases hchild
                have hfill : Injected key node part (next :: rest) _ (nextId :: ids) :=
                  .create hslot ((Nat.lt_succ_self _).trans hbound) hinjected
                refine ⟨nextId :: ids, ?_, by rw [hids, List.length_cons, List.range'_succ, List.length_range']⟩
                simpa [fill, pair, setMemberValue] using hfill
            | some index =>
              cases hplace
              obtain ⟨front, entry', back, rfl, rfl, hslot⟩ := hslot
              rw [List.getElem?_append_right (Nat.le_refl _), Nat.sub_self] at hentry
              cases hentry
              have hfill : Injected key node part (next :: rest) _ ids := .descend hslot hchild hinjected
              refine ⟨ids, ?_, hids⟩
              simpa [fill] using hfill

theorem Slot.members_fill {new : Json} (h : Slot node part front old back) :
    (node.fill front new back).members = some (front ++ new :: back) := members_set h.members

theorem Slot.findMember_fill {new value : Json} (h : Slot node part front old back)
    (hname : new.memberName = some part) (hvalue : new.memberValue = some value) :
    (node.fill front new back).members.bind (findMember part) = some value := by
  rw [h.members_fill]
  exact findMember_middle h.apart hname hvalue

/-! ## Reading the path again -/

/-- The first length that is read on a path, with the rest of the path. -/
def lengthOnPath : Json → List Str → Option (Double × List Str)
  | _, [] => none
  | node, part :: rest =>
    match if part = "length".toList then node.lengthOf else none with
    | some length => some (length, rest)
    | none =>
      match node.members.bind (findMember part) with
      | none => none
      | some next => next.lengthOnPath rest

/-- What a path finds if it comes to a length. -/
def lengthFound : Double × List Str → Option Json
  | (length, []) => some (ofF64 length)
  | (_, _ :: _) => none

/-- The length that a part of a path reads at a node. -/
def lengthAt (node : Json) (part : Str) : Option Double := if part = "length".toList then node.lengthOf else none

theorem lengthAt_fill {new : Json} : (node.fill front new back).lengthAt part = node.lengthAt part := by
  rw [lengthAt, fill, lengthOf_set, lengthAt]

theorem projectParts_of_length {length : Double} (h : node.lengthAt part = some length) :
    node.projectParts (part :: rest) = lengthFound (length, rest) := by
  rw [lengthAt] at h
  rw [Json.projectParts, h]
  cases rest <;> rfl

theorem projectParts_of_member {next : Json} (h : node.lengthAt part = none)
    (hnext : node.members.bind (findMember part) = some next) :
    node.projectParts (part :: rest) = next.projectParts rest := by
  rw [lengthAt] at h
  rw [Json.projectParts, h, hnext]

theorem lengthOnPath_of_length {length : Double} (h : node.lengthAt part = some length) :
    node.lengthOnPath (part :: rest) = some (length, rest) := by
  rw [lengthAt] at h
  rw [lengthOnPath, h]

theorem lengthOnPath_of_member (h : node.lengthAt part = none) :
    node.lengthOnPath (part :: rest) =
      (node.members.bind (findMember part)).bind fun next => next.lengthOnPath rest := by
  rw [lengthAt] at h
  rw [lengthOnPath, h]
  cases node.members.bind (findMember part) <;> rfl

theorem lengthOnPath_nil : node.lengthOnPath [] = none := by
  rw [lengthOnPath]

theorem lengthOnPath_emptyObject {id : Nat} : (emptyObject id).lengthOnPath (part :: rest) = none := by
  have hlength : (emptyObject id).lengthAt part = none := ite_self none
  rw [lengthOnPath_of_member hlength]
  rfl

/-- The path finds the key unless it comes to a length. -/
theorem Injected.projectParts (h : Injected key node part rest node' ids) :
    node'.projectParts (part :: rest) =
      match node.lengthOnPath (part :: rest) with
      | none => some (ofF64 key)
      | some found => lengthFound found := by
  induction h with
  | @last node part front back old slot =>
    cases hlength : node.lengthAt part with
    | some length =>
      rw [lengthOnPath_of_length hlength, projectParts_of_length (lengthAt_fill.trans hlength)]
    | none =>
      have hfound := slot.findMember_fill memberName_pair (@memberValue_pair part (ofF64 key))
      rw [projectParts_of_member (lengthAt_fill.trans hlength) hfound, lengthOnPath_of_member hlength]
      cases node.members.bind (findMember part) with
      | none => rfl
      | some old =>
        rw [Option.bind_some, lengthOnPath_nil]
        rfl
  | @descend node entry child child' part next rest front back ids slot value inner ih =>
    cases hlength : node.lengthAt part with
    | some length =>
      rw [lengthOnPath_of_length hlength, projectParts_of_length (lengthAt_fill.trans hlength)]
    | none =>
      have hname : (entry.setMemberValue child').memberName = some part :=
        memberName_setMemberValue.trans (slot.named entry rfl)
      have hfound := slot.findMember_fill hname (memberValue_setMemberValue value)
      have hchild : node.members.bind (findMember part) = some child := by
        rw [slot.members]
        exact findMember_middle slot.apart (slot.named entry rfl) value
      rw [projectParts_of_member (lengthAt_fill.trans hlength) hfound, lengthOnPath_of_member hlength, hchild, ih]
      rfl
  | @create node child' part next rest front id ids slot bound inner ih =>
    cases hlength : node.lengthAt part with
    | some length =>
      rw [lengthOnPath_of_length hlength, projectParts_of_length (lengthAt_fill.trans hlength)]
    | none =>
      have hfound := slot.findMember_fill memberName_pair (@memberValue_pair part child')
      have hmissing : node.members.bind (findMember part) = none := by
        rw [slot.members, Option.toList_none, List.nil_append, List.append_nil]
        exact findMember_eq_none slot.apart
      rw [projectParts_of_member (lengthAt_fill.trans hlength) hfound, lengthOnPath_of_member hlength, hmissing, ih,
        lengthOnPath_emptyObject]
      rfl

/-! ## Depth -/

theorem depth_ofF64 : (ofF64 key).depth = 0 := by
  rw [ofF64]
  split <;> rfl

theorem depth_pair {value : Json} : (pair part value).depth = value.depth + 1 := by
  simp [pair, depth, itemsDepth]

theorem depth_item {item : Json} (h : item ∈ entries) : item.depth + 1 ≤ (Array entries).depth := by
  rw [depth]
  exact Nat.succ_le_succ (itemsDepth_le.mp (Nat.le_refl _) item h)

theorem depth_field {fields : List (Str × Json)} {name : Str} {value : Json} (h : field name fields = some value) :
    value.depth + 1 ≤ (Object fields).depth := by
  rw [depth]
  exact Nat.succ_le_succ (fieldsDepth_le.mp (Nat.le_refl _) _ (mem_of_field h))

theorem depth_member {item : Json} (hmembers : node.members = some entries) (h : item ∈ entries) :
    item.depth + 2 ≤ node.depth := by
  obtain ⟨fields, rfl, hfield⟩ := exists_field_of_members hmembers
  exact (Nat.succ_le_succ (depth_item h)).trans (depth_field hfield)

theorem Slot.le_depth_fill {new : Json} (h : Slot node part front old back) :
    new.depth + 2 ≤ (node.fill front new back).depth :=
  depth_member h.members_fill (by simp)

theorem mem_filled {item new : Json} (h : item ∈ front ++ new :: back) :
    item = new ∨ item ∈ front ++ (old.toList ++ back) := by
  simp only [List.mem_append, List.mem_cons] at h ⊢
  tauto

theorem Slot.depth_fill_le {new : Json} {bound : Nat} (h : Slot node part front old back)
    (hnode : node.depth ≤ bound) (hnew : new.depth + 2 ≤ bound) : (node.fill front new back).depth ≤ bound := by
  obtain ⟨fields, rfl, hfield⟩ := exists_field_of_members h.members
  have hitems : ∀ item ∈ front ++ new :: back, item.depth + 2 ≤ bound := by
    intro item hitem
    rcases mem_filled hitem with rfl | hold
    · exact hnew
    · exact (depth_member h.members hold).trans hnode
  rw [fill, set, depth]
  rw [depth] at hnode
  obtain ⟨bound, rfl⟩ : ∃ lower, bound = lower + 2 := ⟨bound - 2, by omega⟩
  apply Nat.succ_le_succ
  apply fieldsDepth_le.mpr
  intro entry hentry
  rcases mem_setField hentry with rfl | hkept
  · rw [depth]
    exact Nat.succ_le_succ (itemsDepth_le.mpr fun item hitem => Nat.le_of_add_le_add_right (hitems item hitem))
  · exact fieldsDepth_le.mp (Nat.le_of_succ_le_succ hnode) entry hkept

theorem depth_memberValue {entry child : Json} (h : entry.memberValue = some child) :
    child.depth + 1 ≤ entry.depth := by
  obtain ⟨items, rfl, hitem⟩ := exists_items_of_memberValue h
  exact depth_item (List.mem_of_getElem? hitem)

theorem depth_setMemberValue_le {entry child value : Json} {bound : Nat} (h : entry.memberValue = some child)
    (hentry : entry.depth ≤ bound) (hvalue : value.depth + 1 ≤ bound) :
    (entry.setMemberValue value).depth ≤ bound := by
  obtain ⟨items, rfl, hitem⟩ := exists_items_of_memberValue h
  rw [setMemberValue, depth]
  rw [depth] at hentry
  obtain ⟨bound, rfl⟩ : ∃ lower, bound = lower + 1 := ⟨bound - 1, by omega⟩
  apply Nat.succ_le_succ
  apply itemsDepth_le.mpr
  intro item hitem
  rcases List.mem_or_eq_of_mem_set hitem with hkept | rfl
  · exact itemsDepth_le.mp (Nat.le_of_succ_le_succ hentry) item hkept
  · exact Nat.le_of_succ_le_succ hvalue

/-- Each part of the path nests three containers: a node, its members and the member. -/
theorem Injected.depth (h : Injected key node part rest node' ids) :
    3 * (rest.length + 1) ≤ node'.depth ∧ node'.depth ≤ max node.depth (3 * (rest.length + 1)) := by
  induction h with
  | @last node part front back old slot =>
    have hpair : (pair part (ofF64 key)).depth = 1 := by rw [depth_pair, depth_ofF64]
    constructor
    · exact (by omega : 3 * 1 ≤ (pair part (ofF64 key)).depth + 2).trans slot.le_depth_fill
    · exact slot.depth_fill_le (Nat.le_max_left _ _) (by rw [hpair]; exact Nat.le_max_right _ _)
  | @descend node entry child child' part next rest front back ids slot value inner ih =>
    have hinner := depth_memberValue (@memberValue_setMemberValue entry child child' value)
    have hlower := @Slot.le_depth_fill _ _ _ _ _ (entry.setMemberValue child') slot
    have hentry := @depth_member _ _ entry slot.members (by simp)
    have hchild := depth_memberValue value
    rw [List.length_cons]
    constructor
    · omega
    · refine slot.depth_fill_le (Nat.le_max_left _ _) ?_
      have hupper : (entry.setMemberValue child').depth ≤ max node.depth (3 * (rest.length + 1 + 1)) - 2 :=
        depth_setMemberValue_le value (by omega) (by omega)
      omega
  | @create node child' part next rest front id ids slot bound inner ih =>
    have hlower := @Slot.le_depth_fill _ _ _ _ _ (pair part child') slot
    have hempty : (emptyObject id).depth = 2 := rfl
    rw [depth_pair] at hlower
    rw [List.length_cons]
    constructor
    · omega
    · refine slot.depth_fill_le (Nat.le_max_left _ _) ?_
      rw [depth_pair]
      omega

/-! ## Names of fields -/

theorem Slot.wellFormed_fill {new : Json} (h : Slot node part front old back) (hnode : node.WellFormed)
    (hnew : new.WellFormed) : (node.fill front new back).WellFormed := by
  obtain ⟨fields, rfl, hfield⟩ := exists_field_of_members h.members
  rw [WellFormed] at hnode
  have hfields := fieldsWellFormed_iff.mp hnode.2
  have hmembers : ∀ item ∈ front ++ (old.toList ++ back), item.WellFormed := by
    have harray := hfields _ (mem_of_field hfield)
    rw [WellFormed] at harray
    exact itemsWellFormed_iff.mp harray
  rw [fill, set, WellFormed, map_fst_setField]
  refine ⟨hnode.1, fieldsWellFormed_iff.mpr ?_⟩
  intro entry hentry
  rcases mem_setField hentry with rfl | hkept
  · rw [WellFormed]
    apply itemsWellFormed_iff.mpr
    intro item hitem
    rcases mem_filled hitem with rfl | hold
    · exact hnew
    · exact hmembers item hold
  · exact hfields entry hkept

theorem wellFormed_member {item : Json} (hmembers : node.members = some entries) (hnode : node.WellFormed)
    (h : item ∈ entries) : item.WellFormed := by
  obtain ⟨fields, rfl, hfield⟩ := exists_field_of_members hmembers
  rw [WellFormed] at hnode
  have harray := fieldsWellFormed_iff.mp hnode.2 _ (mem_of_field hfield)
  rw [WellFormed] at harray
  exact itemsWellFormed_iff.mp harray item h

theorem wellFormed_pair {value : Json} (h : value.WellFormed) : (pair part value).WellFormed := by
  simp [pair, WellFormed, ItemsWellFormed, h]

theorem wellFormed_ofF64 : (ofF64 key).WellFormed := by
  rw [ofF64]
  split <;> simp [WellFormed]

theorem wellFormed_emptyObject {id : Nat} : (emptyObject id).WellFormed := by
  have hnames : ["id".toList, "n".toList, "t".toList, "v".toList].Pairwise (· < ·) := by decide
  simp only [emptyObject, WellFormed, FieldsWellFormed, ItemsWellFormed, and_true]
  exact hnames

theorem wellFormed_memberValue {entry child : Json} (h : entry.memberValue = some child)
    (hentry : entry.WellFormed) : child.WellFormed := by
  obtain ⟨items, rfl, hitem⟩ := exists_items_of_memberValue h
  rw [WellFormed] at hentry
  exact itemsWellFormed_iff.mp hentry child (List.mem_of_getElem? hitem)

theorem wellFormed_setMemberValue {entry value : Json} (hentry : entry.WellFormed) (hvalue : value.WellFormed) :
    (entry.setMemberValue value).WellFormed := by
  cases entry with
  | Array items =>
    rw [WellFormed] at hentry
    rw [setMemberValue, WellFormed]
    apply itemsWellFormed_iff.mpr
    intro item hitem
    rcases List.mem_or_eq_of_mem_set hitem with hkept | rfl
    · exact itemsWellFormed_iff.mp hentry item hkept
    · exact hvalue
  | _ => exact hentry

theorem Injected.wellFormed (h : Injected key node part rest node' ids) (hnode : node.WellFormed) :
    node'.WellFormed := by
  induction h with
  | last slot => exact slot.wellFormed_fill hnode (wellFormed_pair wellFormed_ofF64)
  | @descend node entry child child' part next rest front back ids slot value inner ih =>
    have hentry : entry.WellFormed := wellFormed_member slot.members hnode (by simp)
    have hchild := ih (wellFormed_memberValue value hentry)
    exact slot.wellFormed_fill hnode (wellFormed_setMemberValue hentry hchild)
  | create slot bound inner ih =>
    exact slot.wellFormed_fill hnode (wellFormed_pair (ih wellFormed_emptyObject))

end Injections

theorem cloneKey_ofF64 {number : Double} (h : number.isFinite = true) :
    (ofF64 number).cloneKey = some (.Number number) := by
  rw [ofF64, dif_pos h, cloneKey]
  simp [asF64, JsonNumber.asF64, h]

theorem cloneKey_ofF64_eq_some {number : Double} {key : Key} (h : (ofF64 number).cloneKey = some key) :
    key = .Number number := by
  by_cases hfinite : number.isFinite = true
  · rw [cloneKey_ofF64 hfinite] at h
    exact (Option.some.inj h).symm
  · rw [ofF64, dif_neg hfinite, cloneKey] at h
    cases h

end Json

/-! ## Reading a stored text -/

/-- `serde_json` reads texts that are nested less deep than this. -/
def RECURSION_LIMIT : Nat := 128

/-- How `serde_json` reads the text of a record, and the text that it has written: what is read has
its fields in order and is not too deep, and what is written is read again unless it is too deep. -/
structure SerdeJson.Rules (json : SerdeJson) (value stored : Str) : Prop where
  read : ∀ clone, json.fromStr value = some clone → clone.WellFormed ∧ clone.depth < RECURSION_LIMIT
  reread : ∀ clone, clone.WellFormed → json.toString clone = stored →
    json.fromStr stored = if clone.depth < RECURSION_LIMIT then some clone else none

/-- The stored text has the key at the path, all else is as it was, and the new containers have
identifiers of their own. -/
def ReadsBack (json : SerdeJson) (value stored path : Str) (number : Double) : Prop :=
  ∃ clone clone' part rest ids, json.fromStr value = some clone ∧ json.fromStr stored = some clone' ∧
    path.splitOn '.' = part :: rest ∧ extractPath clone' path = some (.Number number) ∧
      Json.Injected number clone part rest clone' ids ∧ ids.Nodup ∧ ∀ id ∈ ids, id ∉ clone.usedIds

/-- The path comes to no length, unless it ends there and the length is the key. -/
def AvoidsLengths (json : SerdeJson) (value path : Str) (number : Double) : Prop :=
  ∀ clone, json.fromStr value = some clone →
    ∀ found, clone.lengthOnPath (path.splitOn '.') = some found → found = (number, [])

/-- The most parts that a path may have for its record to be read again. -/
def MAX_READABLE_PARTS : Nat := 42

/-- The text that an injection leaves. -/
theorem inject_ok {json : SerdeJson} {value path stored : Str} {number : Double}
    (h : inject json value path (.Number number) = .ok stored) :
    ∃ clone clone' part rest ids, json.fromStr value = some clone ∧ path.splitOn '.' = part :: rest ∧
      Json.Injected number clone part rest clone' ids ∧ json.toString clone' = stored ∧ ids.Nodup ∧
        ∀ id ∈ ids, id ∉ clone.usedIds := by
  rw [inject] at h
  split at h
  next => cases h
  next clone hread =>
    split at h
    next => cases h
    next nextId hnext =>
      obtain ⟨⟨clone', nextId'⟩, hinject, h⟩ := bind_eq_ok.mp h
      cases h
      obtain ⟨ids, hinjected, hids⟩ := Json.injectParts_ok hinject
      have hparts : path.splitOn '.' = (path.splitOn '.').headD [] :: (path.splitOn '.').tail := by
        cases hsplit : path.splitOn '.' with
        | nil => exact absurd hsplit (List.splitOn_ne_nil _ _)
        | cons => rfl
      refine ⟨clone, clone', _, _, ids, hread, hparts, hinjected, rfl, ?_, ?_⟩
      · rw [hids]
        exact List.nodup_range'
      · intro id hid hused
        rw [hids, List.mem_range'_1] at hid
        have hbound := Json.le_maximumId hused
        have hsum := (checkedAdd_eq_some.mp hnext).1
        omega

theorem path_ne_nil {definition : StoreDefinition} {path : Str} (hdefinition : definition.validate = .ok ())
    (hpath : definition.keyPath = some path) : path ≠ [] := by
  rintro rfl
  rw [StoreDefinition.validate] at hdefinition
  obtain ⟨⟨⟩, -, h⟩ := bind_eq_ok.mp hdefinition
  rw [hpath] at h
  dsimp only at h
  rw [if_pos (.inr (by decide))] at h
  cases h

/-- What a path finds in the clone that an injection leaves. -/
theorem extractPath_injected {clone clone' : Json} {path part : Str} {rest : List Str} {ids : List Nat}
    {number : Double} (hpath : path ≠ []) (hparts : path.splitOn '.' = part :: rest)
    (h : Json.Injected number clone part rest clone' ids) (hfinite : number.isFinite = true) :
    extractPath clone' path = some (.Number number) ↔
      ∀ found, clone.lengthOnPath (part :: rest) = some found → found = (number, []) := by
  rw [extractPath, Json.projectPath, if_neg hpath, hparts, h.projectParts]
  cases hfound : clone.lengthOnPath (part :: rest) with
  | none =>
    refine iff_of_true (Json.cloneKey_ofF64 hfinite) ?_
    intro found hnone
    cases hnone
  | some found =>
    obtain ⟨length, left⟩ := found
    constructor
    · rintro hextract _ ⟨⟩
      cases left with
      | nil =>
        have hkey := Json.cloneKey_ofF64_eq_some hextract
        rw [Key.Number.inj hkey]
      | cons => cases hextract
    · intro hall
      cases hall _ rfl
      exact Json.cloneKey_ofF64 hfinite

theorem isFinite_of_validate {number : Double} (h : (Key.Number number).validate 0 = .ok ()) :
    number.isFinite = true := by
  rw [Key.validate] at h
  have hrest := (failIf_bind_eq_ok.mp h).2
  rw [failIf] at hrest
  split at hrest
  next => cases hrest
  next hfinite => exact (Bool.not_eq_false _).mp hfinite

/-- A generated key reads back exactly if its path comes to no length and is not too deep. -/
theorem inline_key_reads_back_iff {json : SerdeJson} {value stored path : Str} {number : Double}
    {definition : StoreDefinition} (hrules : json.Rules value stored) (hdefinition : definition.validate = .ok ())
    (hpath : definition.keyPath = some path) (hkey : (Key.Number number).validate 0 = .ok ())
    (hinject : inject json value path (.Number number) = .ok stored) :
    ReadsBack json value stored path number ↔
      AvoidsLengths json value path number ∧ (path.splitOn '.').length ≤ MAX_READABLE_PARTS := by
  obtain ⟨clone, clone', part, rest, ids, hread, hparts, hinjected, hwritten, hnodup, hfresh⟩ := inject_ok hinject
  obtain ⟨hwellFormed, hclone⟩ := hrules.read clone hread
  have hreread := hrules.reread clone' (hinjected.wellFormed hwellFormed) hwritten
  have hextract := extractPath_injected (path_ne_nil hdefinition hpath) hparts hinjected (isFinite_of_validate hkey)
  obtain ⟨hlower, hupper⟩ := hinjected.depth
  rw [AvoidsLengths, hparts, List.length_cons, MAX_READABLE_PARTS]
  rw [RECURSION_LIMIT] at hreread hclone
  constructor
  · rintro ⟨before, after, part', rest', ids', hbefore, hafter, -, hfound, -⟩
    cases hread.symm.trans hbefore
    rw [hreread] at hafter
    split at hafter
    next hdepth =>
      cases hafter
      refine ⟨?_, by omega⟩
      rintro _ hsame
      cases hread.symm.trans hsame
      exact hextract.mp hfound
    next => cases hafter
  · rintro ⟨havoids, hshort⟩
    have hdepth : clone'.depth < 128 := by omega
    rw [if_pos hdepth] at hreread
    exact ⟨clone, clone', part, rest, ids, hread, hreread, hparts, hextract.mpr (havoids clone hread), hinjected,
      hnodup, hfresh⟩

open Classical in
/-- Two texts and their clones. -/
private noncomputable def tableJson (value stored : Str) (before after : Json) : SerdeJson where
  fromStr text := if text = value then some before else if text = stored then some after else none
  toString clone := if clone = after then stored else []

private theorem table_rules {value stored : Str} {before after : Json} (hvalue : stored ≠ value)
    (hstored : stored ≠ []) (hwellFormed : before.WellFormed) (hbefore : before.depth < RECURSION_LIMIT)
    (hafter : after.depth < RECURSION_LIMIT) : (tableJson value stored before after).Rules value stored where
  read clone h := by
    simp only [tableJson, if_true, Option.some.injEq] at h
    rw [← h]
    exact ⟨hwellFormed, hbefore⟩
  reread clone _ h := by
    have hsame : clone = after := by
      by_contra hne
      simp only [tableJson, if_neg hne] at h
      exact hstored h.symm
    simp [tableJson, hsame, hvalue, hafter]

private def numberOf (value : Fin (2 ^ 64)) : Json := .Number (.PosInt value)

private theorem zero_lt_word : 0 < 2 ^ 64 := by decide

private theorem one_lt_word : 1 < 2 ^ 64 := by decide

/-- `{"id":1,"l":0,"t":"array","v":[]}` -/
private def emptyArray : Json :=
  .Object [("id".toList, numberOf ⟨1, one_lt_word⟩), ("l".toList, numberOf ⟨0, zero_lt_word⟩), ("t".toList, .String "array".toList),
    ("v".toList, .Array [])]

private def generatedKey : Double := Double.ofU64 1

private def withMember (clone : Json) (part : Str) : Json := clone.fill [] (Json.pair part (Json.ofF64 generatedKey)) []

private theorem generatedKey_finite : generatedKey.isFinite = true := by decide +kernel

private theorem depth_withMember {clone : Json} {part : Str} (h : clone.Slot part [] none []) (hclone : clone.depth < 128) :
    (withMember clone part).depth < RECURSION_LIMIT := by
  have hdepth := (Json.Injected.last h : Json.Injected generatedKey clone part [] _ []).depth.2
  rw [RECURSION_LIMIT]
  exact Nat.lt_of_le_of_lt hdepth (Nat.max_lt.mpr ⟨hclone, by decide⟩)

private theorem inject_table {value stored part : Str} {before : Json}
    (hinject : before.injectParts part [] generatedKey 2 = .ok (withMember before part, 2))
    (hid : before.maximumId = 1) (hparts : part.splitOn '.' = [part]) :
    inject (tableJson value stored before (withMember before part)) value part (.Number generatedKey) =
      .ok stored := by
  have hread : (tableJson value stored before (withMember before part)).fromStr value = some before := by
    simp [tableJson]
  have hwrite : (tableJson value stored before (withMember before part)).toString (withMember before part) = stored := by
    simp [tableJson]
  have hnext : checkedAdd 64 1 1 = some 2 := by decide
  simp only [inject, hread, hid, hnext, hparts, List.headD_cons, List.tail_cons, hinject]
  exact congrArg Except.ok hwrite

private def arrayText : Str := "\x7b\"t\":\"array\",\"id\":1,\"l\":0,\"v\":[]\x7d".toList

private def arrayStored : Str := "\x7b\"id\":1,\"l\":0,\"t\":\"array\",\"v\":[[\"length\",1.0]]\x7d".toList

private noncomputable def arrayJson : SerdeJson :=
  tableJson arrayText arrayStored emptyArray (withMember emptyArray "length".toList)

private theorem emptyArray_slot (part : Str) : emptyArray.Slot part [] none [] :=
  ⟨.inr rfl, rfl, by simp, by simp, fun _ => rfl⟩

private theorem emptyArray_wellFormed : emptyArray.WellFormed := by
  have hnames : ["id".toList, "l".toList, "t".toList, "v".toList].Pairwise (· < ·) := by decide
  simp only [emptyArray, numberOf, Json.WellFormed, Json.FieldsWellFormed, Json.ItemsWellFormed, and_true]
  exact hnames

/-- The key `1` is put in an empty array under the name `length`, and `0` is read. -/
theorem array_length_read :
    arrayJson.Rules arrayText arrayStored ∧
      inject arrayJson arrayText "length".toList (.Number generatedKey) = .ok arrayStored ∧
        ¬ ReadsBack arrayJson arrayText arrayStored "length".toList generatedKey := by
  have hinject : emptyArray.injectParts "length".toList [] generatedKey 2 =
      .ok (withMember emptyArray "length".toList, 2) := rfl
  refine ⟨table_rules (by decide) (by decide) emptyArray_wellFormed (by decide)
    (depth_withMember (emptyArray_slot _) (by decide)), inject_table hinject (by decide) (by decide), ?_⟩
  rintro ⟨before, after, part, rest, ids, hbefore, -, hparts, hfound, hinjected, -⟩
  have hread : some emptyArray = some before := by
    rw [← hbefore]
    simp [arrayJson, tableJson]
  cases hread
  have hlength := (extractPath_injected (by decide) hparts hinjected generatedKey_finite).mp hfound
  rw [← hparts] at hlength
  have hsame := congrArg Prod.fst (hlength (Double.ofU64 0, []) rfl)
  have hdiffer : Double.ofU64 0 ≠ generatedKey := by decide +kernel
  exact hdiffer hsame

private def objectText : Str := "\x7b\"t\":\"object\",\"id\":1,\"n\":false,\"v\":[]\x7d".toList

private def objectStored : Str :=
  "\x7b\"id\":1,\"n\":false,\"t\":\"object\",\"v\":[[\"k\",1.0]]\x7d".toList

/-- In an object the key is read again. -/
theorem inline_key_reads_back_sample :
    ReadsBack (tableJson objectText objectStored (Json.emptyObject 1) (withMember (Json.emptyObject 1) "k".toList))
      objectText objectStored "k".toList generatedKey := by
  have hslot : (Json.emptyObject 1).Slot "k".toList [] none [] :=
    ⟨.inl rfl, rfl, by simp, by simp, fun _ => rfl⟩
  have hinject : (Json.emptyObject 1).injectParts "k".toList [] generatedKey 2 =
      .ok (withMember (Json.emptyObject 1) "k".toList, 2) := rfl
  have hrules := @table_rules objectText objectStored _ _ (by decide) (by decide)
    (@Json.wellFormed_emptyObject 1) (by decide) (depth_withMember hslot (by decide))
  refine (@inline_key_reads_back_iff _ _ _ _ _ ⟨"s".toList, some "k".toList, true, []⟩ hrules rfl rfl rfl
    (inject_table hinject (by decide) (by decide))).mpr ⟨?_, by decide⟩
  intro clone hread found hfound
  have hclone : some (Json.emptyObject 1) = some clone := by
    rw [← hread]
    simp [tableJson]
  cases hclone
  have hparts : "k".toList.splitOn '.' = ["k".toList] := by decide
  rw [hparts, Json.lengthOnPath_emptyObject] at hfound
  cases hfound

end BetterWebBrowser.IndexedDb
