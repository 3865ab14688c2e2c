import BetterWebBrowser.Csp.Sources
import BetterWebBrowser.Framework.OrdMap

/-!
# Policy containers

A policy keeps its text and the directives that the text enforces. What a text enforces
depends on how it was delivered: a `meta` element cannot set three of the directives.
-/

namespace BetterWebBrowser.Csp

open Framework

/-- The message of a network error. -/
inductive FetchError
  | Network (message : Str)
deriving DecidableEq

def unsupported (feature : Str) : FetchError :=
  .Network ("Content Security Policy requires unsupported ".toList ++ feature ++
    "; child document refused".toList)

structure Policy where
  origin : Url
  serialized : Str
  directives : OrdMap Str (List Str)
  mixedContent : Bool
deriving DecidableEq

structure ScriptSource where
  nonce : Option Str
  parserInserted : Bool
deriving DecidableEq

/-- No nonce, inserted by the parser. -/
def ScriptSource.default : ScriptSource := ⟨none, true⟩

/-! ## Parsing -/

def named (names : List String) (name : Str) : Bool := names.any fun known => decide (name = known.toList)

def isSourceDirective : Str → Bool := named
  ["default-src", "script-src", "script-src-elem", "script-src-attr", "style-src",
    "style-src-elem", "style-src-attr", "connect-src", "img-src", "font-src", "media-src",
    "manifest-src", "object-src", "child-src", "frame-src", "worker-src", "base-uri",
    "form-action", "frame-ancestors"]

/-- Enforcement that is not implemented. -/
def isRefusedDirective : Str → Bool := named
  ["sandbox", "upgrade-insecure-requests", "require-trusted-types-for", "trusted-types",
    "navigate-to", "webrtc"]

def isReportingDirective : Str → Bool := named ["report-uri", "report-to"]

/-- Directives that HTML ignores in a `meta` policy. -/
def isIgnoredInMeta : Str → Bool := named ["report-uri", "frame-ancestors", "sandbox"]

structure Parsed where
  directives : OrdMap Str (List Str)
  mixedContent : Bool

/-- The words of each directive. -/
def directiveWords (serialized : Str) : List (List Str) :=
  (serialized.splitOn ';').map Str.splitAsciiWhitespace

def directiveName (word : Str) : Str := Str.toAsciiLowercase word

/-- One directive; the first of several with one name counts. -/
def parseDirective (fromMeta : Bool) (parsed : Parsed) : List Str → Except FetchError Parsed
  | [] => .ok parsed
  | word :: values =>
    let name := directiveName word
    if parsed.directives.contains name then .ok parsed
    else if fromMeta ∧ isIgnoredInMeta name then .ok parsed
    else if name = "block-all-mixed-content".toList then
      .ok ⟨parsed.directives.insert name values, true⟩
    else if isReportingDirective name then .ok parsed
    else if isSourceDirective name then
      .ok ⟨parsed.directives.insert name (values.filter Sources.supported), parsed.mixedContent⟩
    else if isRefusedDirective name then .error (unsupported name)
    else .ok parsed

def parsePolicy (urlParse : Str → Option Url) (url serialized : Str) (fromMeta : Bool) :
    Except FetchError Policy :=
  match urlParse url with
  | none => .error (unsupported "origin URL".toList)
  | some origin =>
    match (directiveWords serialized).foldlM (parseDirective fromMeta) ⟨OrdMap.empty, false⟩ with
    | .error error => .error error
    | .ok parsed => .ok ⟨origin, Str.trim serialized, parsed.directives, parsed.mixedContent⟩

structure PolicyContainer where
  policies : List Policy
deriving DecidableEq

namespace PolicyContainer

def fromSerializedPolicies (urlParse : Str → Option Url) (url : Str) (policies : List Str) :
    Except FetchError PolicyContainer :=
  if 32 < policies.length then .error (unsupported "policy count".toList)
  else
    match policies.mapM fun policy => parsePolicy urlParse url policy false with
    | .error error => .error error
    | .ok policies => .ok ⟨policies⟩

/-- One more policy, unless there are 32 already. -/
def pushPolicy (urlParse : Str → Option Url) (url : Str) (fromMeta : Bool) (self : PolicyContainer)
    (serialized : Str) : Except FetchError PolicyContainer :=
  if 32 ≤ self.policies.length then .error (unsupported "policy count".toList)
  else
    match parsePolicy urlParse url serialized fromMeta with
    | .error error => .error error
    | .ok policy => .ok ⟨self.policies ++ [policy]⟩

/-- `values` are the values of the `content-security-policy` header. -/
def fromHeaders (urlParse : Str → Option Url) (url : Str) (values : List Str) :
    Except FetchError PolicyContainer :=
  (values.flatMap fun header => header.splitOn ',').foldlM (pushPolicy urlParse url false) ⟨[]⟩

def appendMeta (urlParse : Str → Option Url) (url : Str) : PolicyContainer → Str →
    Except FetchError PolicyContainer :=
  pushPolicy urlParse url true

def serializedPolicies (self : PolicyContainer) : List Str := self.policies.map Policy.serialized

end PolicyContainer

/-! ## Queries -/

namespace Policy

def fallbacks (name : Str) : List Str :=
  if name = "script-src-elem".toList then
    ["script-src-elem", "script-src", "default-src"].map String.toList
  else if name = "script-src-attr".toList then
    ["script-src-attr", "script-src", "default-src"].map String.toList
  else if name = "style-src-elem".toList then
    ["style-src-elem", "style-src", "default-src"].map String.toList
  else if name = "style-src-attr".toList then
    ["style-src-attr", "style-src", "default-src"].map String.toList
  else if name = "frame-src".toList then ["frame-src", "child-src", "default-src"].map String.toList
  else if name = "worker-src".toList then
    ["worker-src", "child-src", "script-src", "default-src"].map String.toList
  else if named ["base-uri", "form-action", "frame-ancestors"] name then [name]
  else [name, "default-src".toList]

/-- The source list that governs a directive. -/
def list (policy : Policy) (name : Str) : Option (List Str) :=
  (fallbacks name).findSome? policy.directives.get

/-- The list of a directive, where there is one, satisfies a test. -/
def listSatisfies (policy : Policy) (name : Str) (test : List Str → Bool) : Bool :=
  (policy.list name).all test

def blocksMixedContent (policy : Policy) (url : Url) : Bool :=
  policy.mixedContent && decide (policy.origin.scheme = "https".toList ∧ url.scheme = "http".toList)

end Policy

def hasKeyword (list : List Str) (keyword : String) : Bool :=
  list.any fun source => Str.eqIgnoreAsciiCase source keyword.toList

def nonceMatches (list : List Str) (nonce : Option Str) : Bool :=
  nonce.any fun nonce =>
    decide (nonce ≠ []) && list.any fun source => decide (Sources.nonceValue source = some nonce)

def policyAllowsScriptUrl (policy : Policy) (directive : Str) (url : Url) (redirects : Nat)
    (script : ScriptSource) : Bool :=
  if policy.blocksMixedContent url then false
  else policy.listSatisfies directive fun list =>
    if nonceMatches list script.nonce then true
    else if hasKeyword list "'strict-dynamic'" then !script.parserInserted
    else list.any fun source => Sources.sourceMatches source url policy.origin redirects

inductive RequestDestination
  | Document | Object | Script | Worker | Fetch | Style | Image | Font | Video | Audio
deriving DecidableEq

namespace PolicyContainer

def allowsScriptUrl (urlParse : Str → Option Url) (self : PolicyContainer) (directive url : Str)
    (redirects : Nat) (script : ScriptSource) : Bool :=
  match urlParse url with
  | none => false
  | some url => self.policies.all fun policy =>
    policyAllowsScriptUrl policy directive url redirects script

def allowsUrl (urlParse : Str → Option Url) (self : PolicyContainer) (directive url : Str)
    (redirects : Nat) : Bool :=
  if named ["script-src", "script-src-elem"] directive then
    self.allowsScriptUrl urlParse directive url redirects .default
  else
    match urlParse url with
    | none => false
    | some url => self.policies.all fun policy =>
      !policy.blocksMixedContent url && policy.listSatisfies directive fun list =>
        list.any fun source => Sources.sourceMatches source url policy.origin redirects

def FETCH_DIRECTIVES : List Str :=
  ["child-src", "connect-src", "font-src", "frame-src", "img-src", "manifest-src", "media-src",
    "object-src", "script-src", "script-src-elem", "style-src", "style-src-elem",
    "worker-src"].map String.toList

def allowsResourceHint (urlParse : Str → Option Url) (self : PolicyContainer) (url : Str) : Bool :=
  match urlParse url with
  | none => false
  | some url => self.policies.all fun policy =>
    if policy.blocksMixedContent url then false
    else if ¬ policy.directives.contains "default-src".toList then true
    else FETCH_DIRECTIVES.any fun name => (policy.directives.get name).any fun list =>
      list.any fun source => Sources.sourceMatches source url policy.origin 0

def allowsKeyword (self : PolicyContainer) (directive : Str) (keyword : String) : Bool :=
  self.policies.all fun policy => policy.listSatisfies directive fun list => hasKeyword list keyword

def allowsEval (self : PolicyContainer) : Bool := self.allowsKeyword "script-src".toList "'unsafe-eval'"

def allowsStyleInline (self : PolicyContainer) : Bool :=
  self.policies.all fun policy => policy.listSatisfies "style-src-elem".toList fun list =>
    !(list.any fun source => (Sources.nonceValue source).isSome || Sources.hashSource source) &&
      hasKeyword list "'unsafe-inline'"

def checksAncestors (self : PolicyContainer) : Bool :=
  self.policies.any fun policy => policy.directives.contains "frame-ancestors".toList

def requestDirective : RequestDestination → Str
  | .Document => "frame-src".toList
  | .Object => "object-src".toList
  | .Script => "script-src-elem".toList
  | .Worker => "worker-src".toList
  | .Fetch => "connect-src".toList
  | .Style => "style-src-elem".toList
  | .Image => "img-src".toList
  | .Font => "font-src".toList
  | .Video => "media-src".toList
  | .Audio => "media-src".toList

def checkRequestWithScript (urlParse : Str → Option Url) (self : PolicyContainer)
    (destination : RequestDestination) (url : Str) (redirects : Nat) (script : Option ScriptSource) :
    Except FetchError Unit :=
  let directive := requestDirective destination
  let allowed :=
    if destination = .Script then
      self.allowsScriptUrl urlParse directive url redirects (script.getD .default)
    else self.allowsUrl urlParse directive url redirects
  if allowed then .ok ()
  else .error (.Network ("Content Security Policy blocked ".toList ++ directive ++ " request".toList))

end PolicyContainer

end BetterWebBrowser.Csp
