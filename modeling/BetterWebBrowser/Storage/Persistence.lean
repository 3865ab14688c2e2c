import BetterWebBrowser.Framework.Utf16
import BetterWebBrowser.Storage.Local

/-!
# Storage files

The JSON text that the areas of all origins are written to, its limit, and what the loader
checks. Reading JSON is a parameter.
-/

namespace BetterWebBrowser.Storage

open Framework Navigation

def MAX_PERSISTED_STORAGE_BYTES : Nat := 64 * 1024 * 1024

def FORMAT_VERSION : Nat := 2

/-- A string on disk: a JSON string, or code units that no string has. -/
inductive StoredString
  | Text (text : Str)
  | Units (units : List Utf16.CodeUnit)
deriving DecidableEq

def StorageString.serialize (string : StorageString) : StoredString :=
  match Utf16.decode string.units with
  | some text => .Text text
  | none => .Units string.units

def StoredString.deserialize : StoredString → StorageString
  | .Text text => ⟨Utf16.encode text⟩
  | .Units units => ⟨units⟩

/-- Strings come back, isolated surrogates included. -/
@[simp] theorem deserialize_serialize (string : StorageString) : string.serialize.deserialize = string := by
  rw [StorageString.serialize]
  split
  next text htext =>
    rw [StoredString.deserialize, Utf16.encode_decode htext]
  next => rfl

structure PersistedOrigin where
  origin : Str
  version : Nat
  entries : List (StoredString × StoredString)
deriving DecidableEq

structure PersistedStorage where
  formatVersion : Nat
  origins : List PersistedOrigin
deriving DecidableEq

/-! ## The text -/

namespace SerdeJson

/-- The escapes of JSON strings. -/
def escape (c : Char) : Str :=
  if c = '"' then "\\\"".toList
  else if c = '\\' then "\\\\".toList
  else if c.toNat = 0x08 then "\\b".toList
  else if c.toNat = 0x09 then "\\t".toList
  else if c.toNat = 0x0a then "\\n".toList
  else if c.toNat = 0x0c then "\\f".toList
  else if c.toNat = 0x0d then "\\r".toList
  else if c.toNat < 0x20 then
    "\\u00".toList ++ [Nat.digitChar (c.toNat / 16), Nat.digitChar (c.toNat % 16)]
  else [c]

def string (text : Str) : Str := '"' :: text.flatMap escape ++ ['"']

/-- Items with commas between them. -/
def commas (items : List Str) : Str := List.intercalate [','] items

def array (items : List Str) : Str := '[' :: commas items ++ [']']

def number (value : Nat) : Str := Nat.toDigits 10 value

/-- A struct with its fields in the order of their declaration. -/
def struct (fields : List (String × Str)) : Str :=
  Char.ofNat 0x7b :: commas (fields.map fun field => string field.1.toList ++ ':' :: field.2) ++ [Char.ofNat 0x7d]

end SerdeJson

open SerdeJson

def StoredString.json : StoredString → Str
  | .Text text => string text
  | .Units units => array (units.map fun unit => number unit.val)

def PersistedOrigin.json (origin : PersistedOrigin) : Str :=
  struct [("origin", string origin.origin), ("version", number origin.version),
    ("entries", array (origin.entries.map fun entry => array [entry.1.json, entry.2.json]))]

def PersistedStorage.json (disk : PersistedStorage) : Str :=
  struct [("format_version", number disk.formatVersion),
    ("origins", array (disk.origins.map PersistedOrigin.json))]

/-! ## Writing and reading -/

def PersistedOrigin.fromArea (origin : Str) (area : StorageAreaState) : PersistedOrigin :=
  ⟨origin, area.version, area.entries.entries.map fun entry => (entry.1.serialize, entry.2.serialize)⟩

/-- The origins in the order of their names. -/
def PersistedStorage.fromState (state : Origins) : PersistedStorage :=
  ⟨FORMAT_VERSION, state.entries.map fun entry => PersistedOrigin.fromArea entry.1 entry.2⟩

/-- The writer refuses what would not fit the file. -/
def encode (state : Origins) : StorageResult (List UInt8) :=
  let bytes := Str.utf8 (PersistedStorage.fromState state).json
  if MAX_PERSISTED_STORAGE_BYTES < bytes.length then .error .QuotaExceeded else .ok bytes

section Load

variable (urlParse : Str → Option Url) (fromSlice : List UInt8 → Except String PersistedStorage)

/-- The area of a persisted origin. -/
def PersistedOrigin.intoArea (persisted : PersistedOrigin) : StorageResult StorageAreaState :=
  match storageOrigin urlParse (persisted.origin ++ ['/']) with
  | .error error => .error error
  | .ok parsed =>
    if parsed ≠ persisted.origin ∨ persisted.version = 0 then
      .error (.Invalid "persisted storage origin")
    else
      StorageAreaState.fromSnapshot ⟨persisted.version,
        persisted.entries.map fun entry => (entry.1.deserialize, entry.2.deserialize)⟩

/-- Insert the areas of persisted origins, each origin once. -/
def intoOrigins : Origins → List PersistedOrigin → StorageResult Origins
  | origins, [] => .ok origins
  | origins, persisted :: rest =>
    match persisted.intoArea urlParse with
    | .error error => .error error
    | .ok area =>
      if origins.contains persisted.origin then .error (.Invalid "duplicate storage origin")
      else intoOrigins (origins.insert persisted.origin area) rest

def PersistedStorage.intoState (disk : PersistedStorage) : StorageResult Origins :=
  if (disk.formatVersion ≠ 1 ∧ disk.formatVersion ≠ FORMAT_VERSION) ∨
      MAX_STORAGE_ORIGINS < disk.origins.length then
    .error (.Invalid "storage file metadata")
  else intoOrigins urlParse OrdMap.empty disk.origins

/-- `file` is what the file system has: an error, no file, or its bytes. -/
def loadFile (file : Except String (Option (List UInt8))) : StorageResult (Option Origins) :=
  match file with
  | .error detail => .error (.Persistence detail)
  | .ok none => .ok none
  | .ok (some bytes) =>
    if MAX_PERSISTED_STORAGE_BYTES < bytes.length then .error .QuotaExceeded
    else
      match fromSlice bytes with
      | .error detail => .error (.Persistence detail)
      | .ok disk => (disk.intoState urlParse).map some

/-- A missing or broken file is replaced by its backup. -/
def load (file backup : Except String (Option (List UInt8))) : StorageResult Origins :=
  match loadFile urlParse fromSlice file with
  | .ok (some state) => .ok state
  | .ok none => (loadFile urlParse fromSlice backup).map fun state => state.getD OrdMap.empty
  | .error primary =>
    match loadFile urlParse fromSlice backup with
    | .error error => .error error
    | .ok none => .error primary
    | .ok (some state) => .ok state

end Load

/-! ## The round trip -/

/-- What the URL parser does with the serialized origin of a network URL: the same scheme, host and
port are read from it, and the root path. Hosts are lowercase, and network URLs have a path. -/
structure OriginRules (urlParse : Str → Option Url) : Prop where
  host : ∀ {input parsed url}, urlParse input = some parsed → ParsedUrl.ofUrl parsed = some url →
    Str.toAsciiLowercase url.host = url.host
  path : ∀ {input parsed url}, urlParse input = some parsed → ParsedUrl.ofUrl parsed = some url →
    ∃ rest, url.pathAndQuery = '/' :: rest
  reparse : ∀ {input parsed url}, urlParse input = some parsed →
    parsed.scheme = "http".toList ∨ parsed.scheme = "https".toList → ParsedUrl.ofUrl parsed = some url →
      ∃ root, urlParse (url.origin ++ ['/']) = some root ∧ root.scheme = parsed.scheme ∧
        ParsedUrl.ofUrl root = some { url with pathAndQuery := ['/'] }

section RoundTrip

variable {urlParse : Str → Option Url}

theorem trim_origin {url : ParsedUrl} (h : url.scheme = "http".toList ∨ url.scheme = "https".toList) :
    Str.trim (url.origin ++ ['/']) = url.origin ++ ['/'] := by
  have hhead : ∃ rest, url.origin ++ ['/'] = 'h' :: rest := by
    rw [ParsedUrl.origin]
    rcases h with h | h <;> rw [h] <;> split <;> exact ⟨_, rfl⟩
  obtain ⟨rest, hrest⟩ := hhead
  have hfront : (url.origin ++ ['/']).dropWhile Str.isWhitespace = url.origin ++ ['/'] := by
    rw [hrest, List.dropWhile_cons, if_neg (by decide)]
  rw [Str.trim, Str.trimMatches, hfront, List.reverse_append, List.reverse_singleton, List.singleton_append,
    List.dropWhile_cons, if_neg (by decide), List.reverse_cons, List.reverse_reverse]

/-- An origin with storage is the one of a network URL. -/
theorem exists_url_of_storageOrigin {input origin : Str} (h : storageOrigin urlParse input = .ok origin) :
    ∃ parsed url, urlParse (Str.trim input) = some parsed ∧
      (parsed.scheme = "http".toList ∨ parsed.scheme = "https".toList) ∧ ParsedUrl.ofUrl parsed = some url ∧
        Str.byteLen url.canonical ≤ MAX_URL_BYTES ∧
          (Origin.Tuple url.scheme (Str.toAsciiLowercase url.host) url.port).serialize = origin ∧
            origin ≠ "null".toList := by
  rw [storageOrigin] at h
  split at h
  next => cases h
  next tuple htuple =>
    split at h
    next => cases h
    next hnull =>
      cases h
      rw [Origin.parse] at htuple
      split at htuple
      next => cases htuple
      next =>
        split at htuple
        next => cases htuple
        next parsed hparsed =>
          split at htuple
          next hscheme =>
            obtain ⟨url, hurl, rfl⟩ := Option.map_eq_some_iff.mp htuple
            rw [ParsedUrl.parse] at hurl
            split at hurl
            next => cases hurl
            next =>
              have htrim : Str.trim (Str.trim input) = Str.trim input := Str.trimMatches_trimMatches _ _
              rw [htrim, hparsed, Option.bind_some] at hurl
              split at hurl
              next => cases hurl
              next url' hof =>
                split at hurl
                next => cases hurl
                next hfits =>
                  cases hurl
                  exact ⟨parsed, url, hparsed, hscheme, hof, not_lt.mp hfits, rfl, hnull⟩
          next =>
            split at htuple
            next =>
              split at htuple
              next => cases htuple
              next =>
                cases htuple
                exact absurd rfl hnull
            next => cases htuple

theorem scheme_of_ofUrl {parsed : Url} {url : ParsedUrl} (h : ParsedUrl.ofUrl parsed = some url) :
    url.scheme = "http".toList ∨ url.scheme = "https".toList := by
  rw [ParsedUrl.ofUrl] at h
  split at h
  next => cases h
  next hscheme =>
    rw [not_and_or, not_not, not_not] at hscheme
    split at h
    next => cases h
    next =>
      split at h
      next =>
        cases h
        exact hscheme
      next => cases h

/-- The name of a stored origin is read as that origin. -/
theorem storageOrigin_reparse (hrules : OriginRules urlParse) {input origin : Str}
    (h : storageOrigin urlParse input = .ok origin) : storageOrigin urlParse (origin ++ ['/']) = .ok origin := by
  obtain ⟨parsed, url, hparsed, hscheme, hurl, hfits, hserialize, hnull⟩ := exists_url_of_storageOrigin h
  obtain ⟨root, hroot, hrootScheme, hrootUrl⟩ := hrules.reparse hparsed hscheme hurl
  have horigin : url.origin = origin := by
    rw [← hserialize, hrules.host hparsed hurl]
    rfl
  have hlength : Str.byteLen (origin ++ ['/']) ≤ MAX_URL_BYTES := by
    obtain ⟨rest, hrest⟩ := hrules.path hparsed hurl
    rw [ParsedUrl.canonical, horigin, hrest, Str.byteLen_append, Str.byteLen_cons] at hfits
    rw [Str.byteLen_append, Str.byteLen_cons, Str.byteLen_nil]
    omega
  have htrim : Str.trim (origin ++ ['/']) = origin ++ ['/'] := by
    rw [← horigin]
    exact trim_origin (scheme_of_ofUrl hurl)
  rw [horigin] at hroot
  have hparse : ParsedUrl.parse urlParse (origin ++ ['/']) = some { url with pathAndQuery := ['/'] } := by
    have hcanonical : ParsedUrl.canonical { url with pathAndQuery := ['/'] } = origin ++ ['/'] := by
      rw [← horigin]
      rfl
    rw [ParsedUrl.parse, if_neg (not_lt.mpr hlength), htrim, hroot, Option.bind_some, hrootUrl]
    dsimp only
    rw [hcanonical, if_neg (not_lt.mpr hlength)]
  have htuple : Origin.parse urlParse (origin ++ ['/']) =
      some (.Tuple url.scheme (Str.toAsciiLowercase url.host) url.port) := by
    rw [Origin.parse, if_neg (not_lt.mpr hlength), htrim, hroot]
    dsimp only
    rw [hrootScheme, if_pos hscheme, hparse]
    rfl
  rw [storageOrigin, htuple]
  dsimp only
  rw [hserialize, if_neg hnull]

theorem intoArea_fromArea {origin : Str} {area : StorageAreaState}
    (horigin : storageOrigin urlParse (origin ++ ['/']) = .ok origin) (harea : area.Valid) :
    (PersistedOrigin.fromArea origin area).intoArea urlParse = .ok area := by
  have hentries : (area.entries.entries.map fun entry => (entry.1.serialize, entry.2.serialize)).map
      (fun entry => (entry.1.deserialize, entry.2.deserialize)) = area.entries.entries := by
    rw [List.map_map]
    conv_rhs => rw [← List.map_id area.entries.entries]
    apply List.map_congr_left
    intro entry _
    simp
  rw [PersistedOrigin.intoArea, PersistedOrigin.fromArea]
  dsimp only
  rw [horigin]
  dsimp only
  rw [if_neg, hentries]
  · exact harea.fromSnapshot_snapshot
  · rw [not_or, not_not]
    exact ⟨rfl, harea.version_pos.ne'⟩

/-- Names that are their own origins, with areas that keep the quotas. -/
def Restorable (urlParse : Str → Option Url) (entry : Str × StorageAreaState) : Prop :=
  storageOrigin urlParse (entry.1 ++ ['/']) = .ok entry.1 ∧ entry.2.Valid

theorem intoOrigins_fromArea {entries : List (Str × StorageAreaState)} {origins : Origins}
    (hrestorable : ∀ entry ∈ entries, Restorable urlParse entry) (hnodup : (entries.map Prod.fst).Nodup)
    (hfresh : ∀ entry ∈ entries, origins.contains entry.1 = false) :
    intoOrigins urlParse origins (entries.map fun entry => PersistedOrigin.fromArea entry.1 entry.2) =
      .ok (entries.foldl (fun origins entry => origins.insert entry.1 entry.2) origins) := by
  induction entries generalizing origins with
  | nil => rfl
  | cons entry entries ih =>
    obtain ⟨hentry, hrest⟩ := List.forall_mem_cons.mp hrestorable
    obtain ⟨hfirst, hothers⟩ := List.forall_mem_cons.mp hfresh
    rw [List.map_cons, List.nodup_cons] at hnodup
    rw [List.map_cons, intoOrigins, intoArea_fromArea hentry.1 hentry.2]
    have hnew : origins.contains (PersistedOrigin.fromArea entry.1 entry.2).origin = false := hfirst
    dsimp only
    rw [if_neg (by rw [hnew]; exact Bool.false_ne_true)]
    refine ih hrest hnodup.2 ?_
    intro other hother
    have hne : other.1 ≠ entry.1 := by
      intro hsame
      exact hnodup.1 (hsame ▸ List.mem_map_of_mem hother)
    rw [OrdMap.contains]
    exact (congrArg Option.isSome (OrdMap.get_insert_ne origins entry.2 hne)).trans (hothers other hother)

/-- What can be written is read again. -/
theorem load_encode {state : Origins} {bytes : List UInt8} (hrestorable : ∀ entry ∈ state.entries, Restorable urlParse entry)
    (hlen : state.len ≤ MAX_STORAGE_ORIGINS) (hencode : encode state = .ok bytes)
    {fromSlice : List UInt8 → Except String PersistedStorage}
    (hread : fromSlice bytes = .ok (PersistedStorage.fromState state))
    (backup : Except String (Option (List UInt8))) :
    load urlParse fromSlice (.ok (some bytes)) backup = .ok state := by
  have hfits : ¬ MAX_PERSISTED_STORAGE_BYTES < bytes.length := by
    rw [encode] at hencode
    split at hencode
    next => cases hencode
    next hfits =>
      cases hencode
      exact hfits
  have hstate : (PersistedStorage.fromState state).intoState urlParse = .ok state := by
    rw [PersistedStorage.intoState, PersistedStorage.fromState, if_neg]
    · dsimp only
      rw [intoOrigins_fromArea hrestorable (OrdMap.nodup_keys state) (fun _ _ => rfl)]
      exact congrArg Except.ok (OrdMap.ofList_entries state)
    · rw [not_or, List.length_map]
      exact ⟨fun hversion => hversion.2 rfl, not_lt.mpr hlen⟩
  have hfile : loadFile urlParse fromSlice (.ok (some bytes)) = .ok (some state) := by
    rw [loadFile, if_neg hfits, hread]
    dsimp only
    rw [hstate]
    rfl
  rw [load, hfile]

end RoundTrip

end BetterWebBrowser.Storage
