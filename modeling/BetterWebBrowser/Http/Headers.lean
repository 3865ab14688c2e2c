import BetterWebBrowser.Framework.Str

/-!
# Header lists

Header lines in the order they were added, with names in lower case and trimmed values.
-/

namespace BetterWebBrowser.Http

open Framework

structure Header where
  name : Str
  value : Str
deriving DecidableEq

/-- A byte of a header name. -/
def isNameChar (c : Char) : Bool := Str.isAsciiAlphanumeric c || "!#$%&'*+-.^_`|~".toList.contains c

def normalizeName (name : Str) : Except Str Str :=
  if name = [] ∨ ¬ name.all isNameChar then .error ("invalid HTTP header name: ".toList ++ name)
  else .ok (Str.toAsciiLowercase name)

def isBlank (c : Char) : Bool := c == ' ' || c == '\t'

def isLineBlank (c : Char) : Bool := isBlank c || c == '\r' || c == '\n'

def normalizeValue (value : Str) : Except Str Str :=
  let value := Str.trimMatches isLineBlank value
  if value.any fun c => c == '\x00' || c == '\r' || c == '\n' then
    .error "HTTP header values cannot contain NUL, CR, or LF".toList
  else .ok (Str.trimMatches isBlank value)

theorem normalizeName_ok {name normal : Str} (h : normalizeName name = .ok normal) :
    normal = Str.toAsciiLowercase name := by
  rw [normalizeName] at h
  split at h
  · cases h
  · exact (Except.ok.inj h).symm

/-- Normalized values stay as they are. -/
theorem normalizeValue_ok {value normal : Str} (h : normalizeValue value = .ok normal) :
    normalizeValue normal = .ok normal := by
  have hweak : Str.trimMatches isBlank (Str.trimMatches isLineBlank value) = Str.trimMatches isLineBlank value :=
    Str.trimMatches_of_weaker (fun c hc => by simp [isLineBlank, hc]) (Str.trimMatches_trimMatches _ _)
  simp only [normalizeValue, hweak] at h
  split at h
  · cases h
  · rename_i hclean
    obtain rfl := Except.ok.inj h
    simp only [normalizeValue, Str.trimMatches_trimMatches, hweak, if_neg hclean]

/-- A line as `append` leaves it. -/
structure Header.Normal (header : Header) : Prop where
  name : Str.toAsciiLowercase header.name = header.name
  value : normalizeValue header.value = .ok header.value

structure HeaderList where
  entries : List Header
  normal : ∀ header ∈ entries, header.Normal

namespace HeaderList

instance : DecidableEq HeaderList := fun a b =>
  decidable_of_iff (a.entries = b.entries) ⟨fun h => by cases a; cases b; simp_all, fun h => by rw [h]⟩

def new : HeaderList := ⟨[], fun _ h => absurd h List.not_mem_nil⟩

def append (headers : HeaderList) (name value : Str) : Except Str HeaderList :=
  match hname : normalizeName name with
  | .error message => .error message
  | .ok name =>
    match hvalue : normalizeValue value with
    | .error message => .error message
    | .ok value =>
      .ok ⟨headers.entries ++ [⟨name, value⟩], by
        intro header hmem
        rcases List.mem_append.mp hmem with hmem | hmem
        · exact headers.normal header hmem
        · obtain rfl := List.mem_singleton.mp hmem
          refine ⟨?_, normalizeValue_ok hvalue⟩
          rw [normalizeName_ok hname, Str.toAsciiLowercase_toAsciiLowercase]⟩

def named (name : Str) (header : Header) : Bool := Str.eqIgnoreAsciiCase header.name name

def remove (headers : HeaderList) (name : Str) : HeaderList where
  entries := headers.entries.filter fun header => !named name header
  normal := fun header hmem => headers.normal header (List.mem_filter.mp hmem).1

def set (headers : HeaderList) (name value : Str) : Except Str HeaderList := do
  let normalized ← normalizeName name
  (headers.remove normalized).append normalized value

def get (headers : HeaderList) (name : Str) : Option Str :=
  (headers.entries.find? (named name)).map Header.value

def values (headers : HeaderList) (name : Str) : List Str :=
  (headers.entries.filter (named name)).map Header.value

def contains (headers : HeaderList) (name : Str) : Bool := (headers.get name).isSome

/-! ## Values of a field -/

theorem get_eq_head? (headers : HeaderList) (name : Str) : headers.get name = (headers.values name).head? := by
  rw [get, values, List.head?_map, List.head?_filter]

theorem named_normal {header : Header} (h : header.Normal) {name : Str} :
    named name header = decide (header.name = Str.toAsciiLowercase name) := by
  rw [named, Str.eqIgnoreAsciiCase, h.name]

theorem append_ok {headers result : HeaderList} {name value : Str} (h : headers.append name value = .ok result) :
    ∃ normal, normalizeValue value = .ok normal ∧
      result.entries = headers.entries ++ [⟨Str.toAsciiLowercase name, normal⟩] := by
  rw [append] at h
  split at h
  · cases h
  · rename_i normalized hname
    split at h
    · cases h
    · rename_i normal hvalue
      obtain rfl := Except.ok.inj h
      refine ⟨normal, hvalue, ?_⟩
      change headers.entries ++ [⟨normalized, normal⟩] = _
      rw [normalizeName_ok hname]

/-- `set` leaves one line of the field and no other change. -/
theorem values_set {headers result : HeaderList} {header : Header} (hnormal : header.Normal)
    (h : headers.set header.name header.value = .ok result) (name : Str) :
    result.values name =
      if Str.toAsciiLowercase name = header.name then [header.value] else headers.values name := by
  rw [set] at h
  cases hname : normalizeName header.name with
  | error message => rw [hname] at h; cases h
  | ok normalized =>
    rw [hname] at h
    obtain rfl := normalizeName_ok hname
    obtain ⟨value, hvalue, hentries⟩ := append_ok h
    obtain rfl := Except.ok.inj (hvalue.symm.trans hnormal.value)
    rw [values, hentries, Str.toAsciiLowercase_toAsciiLowercase, hnormal.name, List.filter_append, List.map_append]
    by_cases heq : Str.toAsciiLowercase name = header.name
    · rw [if_pos heq]
      have hlast : named name ⟨header.name, header.value⟩ = true := by
        rw [named_normal hnormal, heq]
        exact decide_eq_true rfl
      have hothers : ((headers.remove header.name).entries.filter (named name)) = [] := by
        rw [List.filter_eq_nil_iff]
        intro other hmem hsame
        obtain ⟨hmem, hother⟩ := List.mem_filter.mp hmem
        rw [named_normal (headers.normal other hmem), decide_eq_true_eq, heq] at hsame
        rw [named_normal (headers.normal other hmem), hsame, hnormal.name] at hother
        simp at hother
      rw [hothers, List.filter_cons_of_pos hlast]
      rfl
    · rw [if_neg heq]
      have hlast : named name ⟨header.name, header.value⟩ = false := by
        rw [named_normal hnormal]
        exact decide_eq_false fun hsame => heq hsame.symm
      rw [List.filter_cons_of_neg (by rw [hlast]; exact Bool.false_ne_true), List.filter_nil, List.map_nil,
        List.append_nil, remove, List.filter_filter, values]
      congr 1
      apply List.filter_congr
      intro other hmem
      rw [named_normal (headers.normal other hmem), named_normal (headers.normal other hmem), hnormal.name]
      by_cases hsame : other.name = Str.toAsciiLowercase name
      · rw [hsame, decide_eq_false heq]
        simp
      · rw [decide_eq_false hsame]
        simp

end HeaderList

end BetterWebBrowser.Http
