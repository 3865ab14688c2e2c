import BetterWebBrowser.Framework.OrdMap
import BetterWebBrowser.Framework.RankedMap
import BetterWebBrowser.Framework.Utf16
import Mathlib.Data.List.Lex

/-!
# Import maps

Rules from module specifiers to addresses, for all modules or for those in a scope. Rules and
scopes are ranked by the code units of their keys, so that the longest match comes first.
-/

namespace BetterWebBrowser.Script

open Framework

def MAX_IMPORT_MAP_BYTES : Nat := 1024 * 1024
def MAX_IMPORT_MAP_ENTRIES : Nat := 4096
def MAX_DIAGNOSTICS : Nat := 64

/-- Members of an object in the order of the source. -/
inductive JsonNode
  | Object (entries : List (Str × JsonNode))
  | String (value : Str)
  | Other

namespace JsonNode

def object : JsonNode → Option (List (Str × JsonNode))
  | .Object entries => some entries
  | _ => none

def string : JsonNode → Option Str
  | .String value => some value
  | _ => none

/-- The last member of a name. -/
def field (node : JsonNode) (name : Str) : Option JsonNode :=
  node.object.bind fun entries => (entries.reverse.find? fun entry => decide (entry.1 = name)).map Prod.snd

end JsonNode

/-- The URLs of the `url` package and the parser of `serde_json`. -/
structure UrlApi (U : Type) where
  parse : Str → Option U
  join : U → Str → Option U
  href : U → Str
  scheme : U → Str
  jsonParse : Str → Except Str JsonNode

/-- A null address blocks its specifiers. -/
abbrev SpecifierMap := RankedMap Utf16.encode (Option Str)

structure ImportMap where
  imports : SpecifierMap
  scopes : RankedMap Utf16.encode SpecifierMap
  integrity : OrdMap Str Str
  diagnostics : List Str

def ImportMap.default : ImportMap := ⟨.empty, .empty, .empty, []⟩

/-- A specifier that was resolved, which later maps are not to change. -/
structure ResolvedSpecifier where
  baseUrl : Str
  specifier : Str
  mayPrefixMatch : Bool
deriving DecidableEq

section Api

variable {U : Type} (api : UrlApi U)

def resolveUrlLike (specifier : Str) (base : U) : Option U :=
  if Str.startsWith specifier "/".toList || Str.startsWith specifier "./".toList ||
      Str.startsWith specifier "../".toList then api.join base specifier
  else api.parse specifier

def isSpecialUrl (url : U) : Bool :=
  ["ftp".toList, "file".toList, "http".toList, "https".toList, "ws".toList, "wss".toList].contains (api.scheme url)

def ResolvedSpecifier.new (referrerUrl specifier : Str) : Except Str ResolvedSpecifier :=
  match api.parse referrerUrl with
  | none => .error "module referrer URL is invalid".toList
  | some base =>
    let asUrl := resolveUrlLike api specifier base
    .ok ⟨api.href base, asUrl.elim specifier api.href, asUrl.all (isSpecialUrl api)⟩

/-! ## Parsing -/

def warn (diagnostics : List Str) (message : Str) : List Str :=
  if diagnostics.length < MAX_DIAGNOSTICS then diagnostics ++ [message] else diagnostics

/-- The entries counted and the warnings given so far. -/
structure Parsing where
  total : Nat
  diagnostics : List Str

def countEntry (parsing : Parsing) : Except Str Parsing :=
  if MAX_IMPORT_MAP_ENTRIES < parsing.total + 1 then .error "import map exceeds the entry-count limit".toList
  else .ok { parsing with total := parsing.total + 1 }

def Parsing.warn (parsing : Parsing) (message : Str) : Parsing :=
  { parsing with diagnostics := Script.warn parsing.diagnostics message }

/-- The later of two members of one name counts, in the place of the first. -/
def latest {V : Type} (entries : KeyedList Str V) (name : Str) (value : V) : KeyedList Str V :=
  entries.combine (fun _ later => later) (name, value)

def normalizeAddress (base : U) (key : Str) (value : JsonNode) : Option Str :=
  match value.string.bind fun value => resolveUrlLike api value base with
  | some url =>
    if !(Str.stripSuffix key ['/']).isSome || (Str.stripSuffix (api.href url) ['/']).isSome then some (api.href url)
    else none
  | none => none

def normalizeSpecifier (base : U) (state : KeyedList Str (Option Str) × Parsing) (entry : Str × JsonNode) :
    Except Str (KeyedList Str (Option Str) × Parsing) := do
  let parsing ← countEntry state.2
  if entry.1 = [] then return (state.1, parsing.warn "ignored empty import-map specifier key".toList)
  let name := (resolveUrlLike api entry.1 base).elim entry.1 api.href
  match normalizeAddress api base entry.1 entry.2 with
  | some address => return (latest state.1 name (some address), parsing)
  | none =>
    return (latest state.1 name none, parsing.warn ("blocked invalid import-map address for: ".toList ++ entry.1))

def normalizeSpecifiers (entries : List (Str × JsonNode)) (base : U) (parsing : Parsing) :
    Except Str (SpecifierMap × Parsing) := do
  let (normalized, parsing) ← entries.foldlM (normalizeSpecifier api base) (.empty, parsing)
  return (.ofKeyed Utf16.encode_injective normalized, parsing)

def parseImports (value : JsonNode) (base : U) (parsing : Parsing) : Except Str (SpecifierMap × Parsing) :=
  match value.field "imports".toList with
  | none => .ok (.empty, parsing)
  | some imports =>
    match imports.object with
    | none => .error "import map 'imports' must be a JSON object".toList
    | some imports => normalizeSpecifiers api imports base parsing

def parseScope (base : U) (state : KeyedList Str SpecifierMap × Parsing) (entry : Str × JsonNode) :
    Except Str (KeyedList Str SpecifierMap × Parsing) := do
  let parsing ← countEntry state.2
  match entry.2.object with
  | none => throw ("import map scope '".toList ++ entry.1 ++ "' must be a JSON object".toList)
  | some imports =>
    match api.join base entry.1 with
    | none => return (state.1, parsing.warn ("ignored invalid scope URL: ".toList ++ entry.1))
    | some scopeUrl =>
      let (normalized, parsing) ← normalizeSpecifiers api imports base parsing
      return (latest state.1 (api.href scopeUrl) normalized, parsing)

def parseScopes (value : JsonNode) (base : U) (parsing : Parsing) :
    Except Str (RankedMap Utf16.encode SpecifierMap × Parsing) :=
  match value.field "scopes".toList with
  | none => .ok (.empty, parsing)
  | some scopes =>
    match scopes.object with
    | none => .error "import map 'scopes' must be a JSON object".toList
    | some scopes => do
      let (scopes, parsing) ← scopes.foldlM (parseScope api base) (.empty, parsing)
      return (.ofKeyed Utf16.encode_injective scopes, parsing)

def parseIntegrityEntry (base : U) (state : OrdMap Str Str × Parsing) (entry : Str × JsonNode) :
    Except Str (OrdMap Str Str × Parsing) := do
  let parsing ← countEntry state.2
  match resolveUrlLike api entry.1 base with
  | none => return (state.1, parsing.warn ("ignored invalid integrity URL: ".toList ++ entry.1))
  | some url =>
    match entry.2.string with
    | none =>
      return (state.1, parsing.warn ("ignored non-string integrity metadata for: ".toList ++ entry.1))
    | some metadata => return (state.1.insert (api.href url) metadata, parsing)

def parseIntegrity (value : JsonNode) (base : U) (parsing : Parsing) :
    Except Str (OrdMap Str Str × Parsing) :=
  match value.field "integrity".toList with
  | none => .ok (.empty, parsing)
  | some integrity =>
    match integrity.object with
    | none => .error "import map 'integrity' must be a JSON object".toList
    | some integrity => integrity.foldlM (parseIntegrityEntry api base) (.empty, parsing)

def warnUnknown (root : List (Str × JsonNode)) (diagnostics : List Str) : List Str :=
  root.foldl (fun diagnostics entry =>
    if ["imports".toList, "scopes".toList, "integrity".toList].contains entry.1 then diagnostics
    else warn diagnostics ("ignored unknown import map key: ".toList ++ entry.1)) diagnostics

namespace ImportMap

def parse (source baseUrl : Str) : Except Str ImportMap :=
  if MAX_IMPORT_MAP_BYTES < Str.byteLen source then .error "import map exceeds the source-byte limit".toList
  else
    match api.parse baseUrl with
    | none => .error "import map base URL is invalid".toList
    | some base =>
      match api.jsonParse source with
      | .error error => .error ("invalid import map JSON: ".toList ++ error)
      | .ok value =>
        match value.object with
        | none => .error "import map top-level value must be a JSON object".toList
        | some root => do
          let (imports, parsing) ← parseImports api value base ⟨0, []⟩
          let (scopes, parsing) ← parseScopes api value base parsing
          let (integrity, parsing) ← parseIntegrity api value base parsing
          return ⟨imports, scopes, integrity, warnUnknown root parsing.diagnostics⟩

end ImportMap

end Api

/-! ## Matching -/

def scopeMatches (scope referrer : Str) : Bool :=
  decide (scope = referrer) || ((Str.stripSuffix scope ['/']).isSome && Str.startsWith referrer scope)

def ruleMatchesRecord (key : Str) (record : ResolvedSpecifier) : Bool :=
  decide (key = record.specifier) ||
    ((Str.stripSuffix key ['/']).isSome && Str.startsWith record.specifier key && record.mayPrefixMatch)

section Api

variable {U : Type} (api : UrlApi U)

/-- What a rule that matches gives. -/
def applyRule (key : Str) (address : Option Str) (normalized : Str) : Except Str Str :=
  match address with
  | none =>
    if key = normalized then .error ("module specifier was blocked by import map: ".toList ++ normalized)
    else .error ("module specifier was blocked by import map prefix: ".toList ++ key)
  | some address =>
    if key = normalized then .ok address
    else
      match (api.parse address).bind fun url => api.join url (normalized.drop key.length) with
      | some url =>
        if Str.startsWith (api.href url) address then .ok (api.href url)
        else .error ("module specifier escaped import map prefix: ".toList ++ key)
      | none => .error ("module specifier escaped import map prefix: ".toList ++ key)

def matchSpecifier (normalized : Str) (mayPrefixMatch : Bool) : List (Str × Option Str) → Option (Except Str Str)
  | [] => none
  | (key, address) :: entries =>
    if key = normalized then some (applyRule api key address normalized)
    else if mayPrefixMatch && (Str.stripSuffix key ['/']).isSome && Str.startsWith normalized key then
      some (applyRule api key address normalized)
    else matchSpecifier normalized mayPrefixMatch entries

/-- The loop over the scopes. -/
def matchScopes (normalized : Str) (mayPrefixMatch : Bool) (referrer : Str) :
    List (Str × SpecifierMap) → Option (Except Str Str)
  | [] => none
  | (scope, imports) :: scopes =>
    if scopeMatches scope referrer then
      match matchSpecifier api normalized mayPrefixMatch imports.entries with
      | some result => some result
      | none => matchScopes normalized mayPrefixMatch referrer scopes
    else matchScopes normalized mayPrefixMatch referrer scopes

namespace ImportMap

/-- `.ok none`: no rule matches. -/
def resolve (map : ImportMap) (specifier referrerUrl : Str) : Except Str (Option Str) :=
  match api.parse referrerUrl with
  | none => .error "module referrer URL is invalid".toList
  | some base =>
    let asUrl := resolveUrlLike api specifier base
    let normalized := asUrl.elim specifier api.href
    let mayPrefixMatch := asUrl.all (isSpecialUrl api)
    match matchScopes api normalized mayPrefixMatch (api.href base) map.scopes.entries with
    | some result => result.map some
    | none =>
      match matchSpecifier api normalized mayPrefixMatch map.imports.entries with
      | some result => result.map some
      | none => .ok none

end ImportMap

end Api

/-! ## Merging -/

/-- The rules of a later map whose keys are new. -/
def mergeSpecifierMaps (previous later : SpecifierMap) : SpecifierMap :=
  .ofKeyed Utf16.encode_injective (later.entries.foldl KeyedList.pushMissing previous.toKeyed)

/-- Without the rules that match a record inside the scope. -/
def filterScope (resolved : List ResolvedSpecifier) (scope : Str) (rules : SpecifierMap) : SpecifierMap :=
  rules.filter fun rule =>
    resolved.all fun record => !(scopeMatches scope record.baseUrl && ruleMatchesRecord rule.1 record)

def filterImports (resolved : List ResolvedSpecifier) (imports : SpecifierMap) : SpecifierMap :=
  imports.filter fun rule => resolved.all fun record => !Str.startsWith rule.1 record.specifier

namespace ImportMap

def entryCount (map : ImportMap) : Nat :=
  map.imports.entries.length + (map.scopes.entries.map fun scope => scope.2.entries.length + 1).sum +
    map.integrity.len

/-- The two maps in one, before the number of entries is checked. -/
def merged (map newer : ImportMap) (resolved : List ResolvedSpecifier) : ImportMap where
  imports := mergeSpecifierMaps map.imports (filterImports resolved newer.imports)
  scopes := .ofKeyed Utf16.encode_injective
    ((newer.scopes.mapValues (filterScope resolved)).entries.foldl (KeyedList.combine mergeSpecifierMaps)
      map.scopes.toKeyed)
  integrity := newer.integrity.entries.foldl (fun integrity entry =>
    if integrity.contains entry.1 then integrity else integrity.insert entry.1 entry.2) map.integrity
  diagnostics := newer.diagnostics.foldl warn map.diagnostics

/-- The map after the call, and its result. -/
def merge (map newer : ImportMap) (resolved : List ResolvedSpecifier) : ImportMap × Except Str Unit :=
  let merged := map.merged newer resolved
  if MAX_IMPORT_MAP_ENTRIES < merged.entryCount then
    (map, .error "merged import maps exceed the entry-count limit".toList)
  else (merged, .ok ())

end ImportMap

end BetterWebBrowser.Script
