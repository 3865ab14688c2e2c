import BetterWebBrowser.Csp.Policy

/-!
# Policies read back from their text

A container hands its policies to child documents as text, and the child reads every text as
if a header had delivered it. That gives the policies back as long as no text depends on how
it was delivered and trimming takes no character that a directive would have kept.
-/

namespace BetterWebBrowser.Csp

open Framework

/-! ## Trimming -/

private theorem directiveWords_cons {c : Char} (h : Str.isAsciiWhitespace c = true) (s : Str) :
    directiveWords (c :: s) = directiveWords s := by
  have hc : c ≠ ';' := by
    rintro rfl
    revert h
    decide
  rw [directiveWords, directiveWords, List.splitOn_cons_eq_if_modifyHead, if_neg (by simpa using hc)]
  cases hsplit : s.splitOn ';' with
  | nil => rfl
  | cons directive rest => simp [h]

/-- Only the last directive sees a character at the end. -/
private theorem splitOn_append {c : Char} (hc : c ≠ ';') (s : Str) :
    ∃ init last, s.splitOn ';' = init ++ [last] ∧ (s ++ [c]).splitOn ';' = init ++ [last ++ [c]] := by
  induction s with
  | nil =>
    refine ⟨[], [], by simp, ?_⟩
    simp [List.splitOn_cons_eq_if_modifyHead, hc]
  | cons d s ih =>
    obtain ⟨init, last, hs, happend⟩ := ih
    rw [List.cons_append, List.splitOn_cons_eq_if_modifyHead, List.splitOn_cons_eq_if_modifyHead, hs,
      happend]
    split_ifs
    · exact ⟨[] :: init, last, rfl, rfl⟩
    · cases init with
      | nil => exact ⟨[], d :: last, rfl, rfl⟩
      | cons directive init => exact ⟨(d :: directive) :: init, last, rfl, rfl⟩

private theorem directiveWords_append {c : Char} (h : Str.isAsciiWhitespace c = true) (s : Str) :
    directiveWords (s ++ [c]) = directiveWords s := by
  have hc : c ≠ ';' := by
    rintro rfl
    revert h
    decide
  obtain ⟨init, last, hs, happend⟩ := splitOn_append hc s
  rw [directiveWords, directiveWords, hs, happend]
  simp [h]

/-- White space around a policy separates nothing. -/
theorem directiveWords_trimMatches (s : Str) :
    directiveWords (Str.trimMatches Str.isAsciiWhitespace s) = directiveWords s := by
  have hfront : ∀ t : Str, directiveWords (t.dropWhile Str.isAsciiWhitespace) = directiveWords t := by
    intro t
    induction t with
    | nil => rfl
    | cons c t ih =>
      rw [List.dropWhile_cons]
      split_ifs with hc
      · rw [ih, directiveWords_cons hc]
      · rfl
  have hback : ∀ t : Str,
      directiveWords ((t.reverse.dropWhile Str.isAsciiWhitespace).reverse) = directiveWords t := by
    intro t
    induction t using List.reverseRecOn with
    | nil => rfl
    | append_singleton t c ih =>
      rw [List.reverse_append, List.reverse_singleton, List.singleton_append, List.dropWhile_cons]
      split_ifs with hc
      · rw [ih, directiveWords_append hc]
      · simp
  rw [Str.trimMatches, hback, hfront]

private theorem trim_trim (s : Str) : Str.trim (Str.trim s) = Str.trim s :=
  Str.trimMatches_trimMatches Str.isWhitespace s

/-- A directive of the text has one of the names. -/
def HasDirective (names : List String) (text : Str) : Prop :=
  ∃ words ∈ directiveWords text, ∃ word ∈ words.head?, named names (directiveName word) = true

private theorem named_singleton (name : String) (word : Str) :
    named [name] word = true ↔ word = name.toList := by
  simp only [named, List.any_cons, List.any_nil, Bool.or_false, decide_eq_true_eq]

instance (names : List String) (text : Str) : Decidable (HasDirective names text) :=
  decidable_of_iff ((directiveWords text).any fun words =>
    words.head?.any fun word => named names (directiveName word)) (by
      simp only [HasDirective, List.any_eq_true, Option.any_eq_true, Option.mem_def])

/-- Trimming `White_Space` takes ASCII white space only. -/
def TrimsAscii (text : Str) : Prop := Str.trim text = Str.trimMatches Str.isAsciiWhitespace text

instance (text : Str) : Decidable (TrimsAscii text) := inferInstanceAs (Decidable (_ = _))

theorem directiveWords_trim {text : Str} (h : TrimsAscii text) :
    directiveWords (Str.trim text) = directiveWords text := by
  rw [h, directiveWords_trimMatches]

/-! ## One policy -/

section Policy

variable {urlParse : Str → Option Url} {url : Str}

/-- A directive that both deliveries enforce, or both ignore, parses the same. -/
private theorem parseDirective_meta {words : List Str}
    (h : ∀ word ∈ words.head?, named ["sandbox", "frame-ancestors"] (directiveName word) = false)
    (parsed : Parsed) : parseDirective true parsed words = parseDirective false parsed words := by
  cases words with
  | nil => rfl
  | cons word values =>
    have hname := h word rfl
    by_cases hignored : isIgnoredInMeta (directiveName word) = true
    · -- Of the three, only the reporting directive is left, which both ignore.
      have hreport : directiveName word = "report-uri".toList := by
        simp only [isIgnoredInMeta, named, List.any_cons, List.any_nil, Bool.or_eq_true,
          Bool.or_eq_false_iff, decide_eq_true_eq, decide_eq_false_iff_not] at hignored hname
        tauto
      have hmixed : "report-uri".toList ≠ "block-all-mixed-content".toList := by decide
      have hreporting : isReportingDirective "report-uri".toList = true := by decide
      rw [hreport] at hignored
      simp only [parseDirective, hreport, hignored, hmixed, hreporting, if_false, if_true, and_true,
        Bool.false_eq_true]
    · simp only [parseDirective, hignored, and_false, if_false, Bool.false_eq_true]

private theorem foldlM_parseDirective_meta {words : List (List Str)}
    (h : ∀ directive ∈ words, ∀ word ∈ directive.head?,
      named ["sandbox", "frame-ancestors"] (directiveName word) = false) (parsed : Parsed) :
    words.foldlM (parseDirective true) parsed = words.foldlM (parseDirective false) parsed := by
  induction words generalizing parsed with
  | nil => rfl
  | cons directive words ih =>
    have hdirective := parseDirective_meta (h directive List.mem_cons_self) parsed
    rw [List.foldlM_cons, List.foldlM_cons, hdirective]
    congr 1
    funext next
    exact ih (fun other hother => h other (List.mem_cons_of_mem _ hother)) next

/-- The trimmed text of a policy gives the policy back. -/
theorem parsePolicy_serialized {text : Str} {fromMeta : Bool} {policy : Policy}
    (hparse : parsePolicy urlParse url text fromMeta = .ok policy) (htrim : TrimsAscii text)
    (hmeta : fromMeta = true → ¬ HasDirective ["sandbox", "frame-ancestors"] text) :
    parsePolicy urlParse url policy.serialized false = .ok policy := by
  have hdelivery : (directiveWords text).foldlM (parseDirective fromMeta) ⟨OrdMap.empty, false⟩ =
      (directiveWords text).foldlM (parseDirective false) ⟨OrdMap.empty, false⟩ := by
    cases fromMeta with
    | false => rfl
    | true =>
      apply foldlM_parseDirective_meta
      intro directive hdirective word hword
      rw [← Bool.not_eq_true]
      intro hname
      exact hmeta rfl ⟨directive, hdirective, word, hword, hname⟩
  rw [parsePolicy] at hparse
  cases horigin : urlParse url with
  | none => rw [horigin] at hparse; cases hparse
  | some origin =>
    rw [horigin, hdelivery] at hparse
    simp only at hparse
    cases hfold : (directiveWords text).foldlM (parseDirective false) ⟨OrdMap.empty, false⟩ with
    | error error => rw [hfold] at hparse; cases hparse
    | ok parsed =>
      rw [hfold] at hparse
      have hpolicy := Except.ok.inj hparse
      have hserialized : policy.serialized = Str.trim text := by rw [← hpolicy]
      rw [parsePolicy, horigin, hserialized, directiveWords_trim htrim]
      simp only [hfold]
      rw [← hpolicy, trim_trim]

end Policy

/-! ## Directives that only a header can set -/

/-- What a header directive leaves behind. `sandbox` is refused whenever it is met, since it
is never among the directives. -/
private theorem parseDirective_sandbox {parsed parsed' : Parsed} {words : List Str}
    (h : parseDirective false parsed words = .ok parsed')
    (hparsed : parsed.directives.contains "sandbox".toList = false) :
    parsed'.directives.contains "sandbox".toList = false ∧
      ∀ word ∈ words.head?, directiveName word ≠ "sandbox".toList := by
  have hinsert : ∀ (name : Str) (values : List Str), name ≠ "sandbox".toList →
      (parsed.directives.insert name values).contains "sandbox".toList = false := by
    intro name values hname
    rw [← Bool.not_eq_true, OrdMap.contains_insert, hparsed]
    simpa using hname.symm
  cases words with
  | nil =>
    cases h
    exact ⟨hparsed, by simp⟩
  | cons word values =>
    have hmet : ∀ test : Str → Bool, test (directiveName word) ≠ test "sandbox".toList →
        directiveName word ≠ "sandbox".toList := fun test htest heq => htest (by rw [heq])
    simp only [List.head?_cons, Option.mem_def, Option.some.injEq, forall_eq']
    simp only [parseDirective, Bool.false_eq_true, false_and, if_false] at h
    split_ifs at h with hknown hmixed hreport hsource hrefused
    · cases h
      exact ⟨hparsed, hmet parsed.directives.contains (by rw [hknown, hparsed]; decide)⟩
    · cases h
      have hname : directiveName word ≠ "sandbox".toList := by
        rw [hmixed]
        decide
      exact ⟨hinsert _ _ hname, hname⟩
    · cases h
      exact ⟨hparsed, hmet isReportingDirective (by rw [hreport]; decide)⟩
    · cases h
      have hname := hmet isSourceDirective (by rw [hsource]; decide)
      exact ⟨hinsert _ _ hname, hname⟩
    · cases h
      refine ⟨hparsed, hmet isRefusedDirective ?_⟩
      rw [Bool.not_eq_true] at hrefused
      rw [hrefused]
      decide

private theorem foldlM_sandbox {words : List (List Str)} {parsed parsed' : Parsed}
    (h : words.foldlM (parseDirective false) parsed = .ok parsed')
    (hparsed : parsed.directives.contains "sandbox".toList = false) :
    ∀ directive ∈ words, ∀ word ∈ directive.head?, directiveName word ≠ "sandbox".toList := by
  induction words generalizing parsed with
  | nil => simp
  | cons directive words ih =>
    rw [List.foldlM_cons] at h
    cases hstep : parseDirective false parsed directive with
    | error error => rw [hstep] at h; cases h
    | ok middle =>
      rw [hstep] at h
      obtain ⟨hmiddle, hdirective⟩ := parseDirective_sandbox hstep hparsed
      intro other hother
      rcases List.mem_cons.mp hother with rfl | hother
      · exact hdirective
      · exact ih h hmiddle other hother

/-- A header directive keeps the ones before it, and `frame-ancestors` is always enforced. -/
private theorem parseDirective_ancestors {parsed parsed' : Parsed} {words : List Str}
    (h : parseDirective false parsed words = .ok parsed')
    (hancestors : parsed.directives.contains "frame-ancestors".toList = true ∨
      ∃ word ∈ words.head?, directiveName word = "frame-ancestors".toList) :
    parsed'.directives.contains "frame-ancestors".toList = true := by
  cases words with
  | nil =>
    cases h
    simpa using hancestors
  | cons word values =>
    simp only [List.head?_cons, Option.mem_def, Option.some.injEq, exists_eq_left'] at hancestors
    simp only [parseDirective, Bool.false_eq_true, false_and, if_false] at h
    have hmet : ∀ test : Str → Bool, test (directiveName word) ≠ test "frame-ancestors".toList →
        parsed.directives.contains "frame-ancestors".toList = true :=
      fun test htest => hancestors.resolve_right fun heq => htest (by rw [heq])
    split_ifs at h with hknown hmixed hreport hsource hrefused
    · cases h
      rcases hancestors with hold | hnew
      · exact hold
      · rw [← hnew, hknown]
    · cases h
      have hold := hancestors.resolve_right fun heq => absurd (hmixed.symm.trans heq) (by decide)
      exact (parsed.directives.contains_insert _ _ _).mpr (Or.inr hold)
    · cases h
      exact hmet isReportingDirective (by rw [hreport]; decide)
    · cases h
      exact (parsed.directives.contains_insert _ _ _).mpr (hancestors.symm.imp_left Eq.symm)
    · cases h
      refine hmet isSourceDirective ?_
      rw [Bool.not_eq_true] at hsource
      rw [hsource]
      decide

private theorem foldlM_ancestors {words : List (List Str)} {parsed parsed' : Parsed}
    (h : words.foldlM (parseDirective false) parsed = .ok parsed')
    (hancestors : parsed.directives.contains "frame-ancestors".toList = true ∨
      ∃ directive ∈ words, ∃ word ∈ directive.head?,
        directiveName word = "frame-ancestors".toList) :
    parsed'.directives.contains "frame-ancestors".toList = true := by
  induction words generalizing parsed with
  | nil =>
    cases h
    simpa using hancestors
  | cons directive words ih =>
    rw [List.foldlM_cons] at h
    cases hstep : parseDirective false parsed directive with
    | error error => rw [hstep] at h; cases h
    | ok middle =>
      rw [hstep] at h
      apply ih h
      rcases hancestors with hold | ⟨other, hother, hname⟩
      · exact Or.inl (parseDirective_ancestors hstep (Or.inl hold))
      · rcases List.mem_cons.mp hother with rfl | hother
        · exact Or.inl (parseDirective_ancestors hstep (Or.inr hname))
        · exact Or.inr ⟨other, hother, hname⟩

/-! ## Containers -/

/-- How a container begins. -/
inductive Delivery
  | Headers (values : List Str)
  | Serialized (policies : List Str)

namespace Delivery

def texts : Delivery → List Str
  | .Headers values => values.flatMap fun header => header.splitOn ','
  | .Serialized policies => policies

def container (urlParse : Str → Option Url) (url : Str) :
    Delivery → Except FetchError PolicyContainer
  | .Headers values => PolicyContainer.fromHeaders urlParse url values
  | .Serialized policies => PolicyContainer.fromSerializedPolicies urlParse url policies

end Delivery

namespace PolicyContainer

variable (urlParse : Str → Option Url) (url : Str)

/-- A container with the `meta` policies appended to it in turn. -/
def build (delivery : Delivery) (metas : List Str) : Except FetchError PolicyContainer :=
  match delivery.container urlParse url with
  | .error error => .error error
  | .ok container => metas.foldlM (appendMeta urlParse url) container

/-- Every query has one answer. -/
structure SameAnswers (first second : PolicyContainer) : Prop where
  allowsUrl : ∀ directive url redirects, first.allowsUrl urlParse directive url redirects =
    second.allowsUrl urlParse directive url redirects
  allowsScriptUrl : ∀ directive url redirects script,
    first.allowsScriptUrl urlParse directive url redirects script =
      second.allowsScriptUrl urlParse directive url redirects script
  allowsResourceHint : ∀ url, first.allowsResourceHint urlParse url =
    second.allowsResourceHint urlParse url
  allowsEval : first.allowsEval = second.allowsEval
  allowsStyleInline : first.allowsStyleInline = second.allowsStyleInline
  checksAncestors : first.checksAncestors = second.checksAncestors
  checkRequestWithScript : ∀ destination url redirects script,
    first.checkRequestWithScript urlParse destination url redirects script =
      second.checkRequestWithScript urlParse destination url redirects script

/-- The serialized policies give a container with the same answers. -/
def Survives (self : PolicyContainer) : Prop :=
  ∃ rebuilt, fromSerializedPolicies urlParse url self.serializedPolicies = .ok rebuilt ∧
    SameAnswers urlParse self rebuilt

/-- Each policy of a container with the text and the delivery it was parsed from. -/
def ParsedFrom (texts : List (Str × Bool)) (self : PolicyContainer) : Prop :=
  List.Forall₂ (fun text policy => parsePolicy urlParse url text.1 text.2 = .ok policy) texts
    self.policies ∧ self.policies.length ≤ 32

variable {urlParse url}

private theorem pushPolicy_parsedFrom {fromMeta : Bool} {texts : List (Str × Bool)}
    {self next : PolicyContainer} {text : Str} (h : pushPolicy urlParse url fromMeta self text = .ok next)
    (hself : ParsedFrom urlParse url texts self) :
    ParsedFrom urlParse url (texts ++ [(text, fromMeta)]) next := by
  rw [pushPolicy] at h
  split_ifs at h with hcount
  cases hparse : parsePolicy urlParse url text fromMeta with
  | error error => rw [hparse] at h; cases h
  | ok policy =>
    rw [hparse] at h
    cases h
    refine ⟨List.rel_append hself.1 (.cons hparse .nil), ?_⟩
    rw [List.length_append, List.length_singleton]
    omega

private theorem foldlM_pushPolicy {fromMeta : Bool} {texts : List (Str × Bool)}
    {self next : PolicyContainer} {added : List Str}
    (h : added.foldlM (pushPolicy urlParse url fromMeta) self = .ok next)
    (hself : ParsedFrom urlParse url texts self) :
    ParsedFrom urlParse url (texts ++ added.map fun text => (text, fromMeta)) next := by
  induction added generalizing self texts with
  | nil =>
    cases h
    simpa using hself
  | cons text added ih =>
    rw [List.foldlM_cons] at h
    cases hpush : pushPolicy urlParse url fromMeta self text with
    | error error => rw [hpush] at h; cases h
    | ok middle =>
      rw [hpush] at h
      have hnext := ih h (pushPolicy_parsedFrom hpush hself)
      rw [List.append_assoc] at hnext
      exact hnext

private theorem mapM_forall₂ {A B E : Type} {f : A → Except E B} {l : List A} {r : List B} :
    l.mapM f = .ok r ↔ List.Forall₂ (fun a b => f a = .ok b) l r := by
  induction l generalizing r with
  | nil =>
    rw [List.mapM_nil, List.forall₂_nil_left_iff]
    exact ⟨fun h => (Except.ok.inj h).symm, fun h => h ▸ rfl⟩
  | cons a l ih =>
    rw [List.mapM_cons, List.forall₂_cons_left_iff]
    cases hhead : f a with
    | error error =>
      refine ⟨fun h => (by cases h), ?_⟩
      rintro ⟨b, r', h, _⟩
      cases h
    | ok b =>
      cases htail : l.mapM f with
      | error error =>
        refine ⟨fun h => (by cases h), ?_⟩
        rintro ⟨_, r', _, h, _⟩
        rw [ih.mpr h] at htail
        cases htail
      | ok r' =>
        constructor
        · intro h
          cases h
          exact ⟨b, r', rfl, ih.mp htail, rfl⟩
        · rintro ⟨c, t, hc, ht, rfl⟩
          have hbc := Except.ok.inj hc
          have htail' := Except.ok.inj (htail.symm.trans (ih.mpr ht))
          rw [hbc, htail']
          rfl

theorem build_parsedFrom {delivery : Delivery} {metas : List Str} {container : PolicyContainer}
    (h : build urlParse url delivery metas = .ok container) :
    ParsedFrom urlParse url (delivery.texts.map (fun text => (text, false)) ++
      metas.map fun text => (text, true)) container := by
  rw [build] at h
  cases hstart : delivery.container urlParse url with
  | error error => rw [hstart] at h; cases h
  | ok start =>
    rw [hstart] at h
    refine foldlM_pushPolicy h ?_
    cases delivery with
    | Headers values =>
      have hempty : ParsedFrom urlParse url [] ⟨[]⟩ := ⟨.nil, by simp⟩
      exact foldlM_pushPolicy hstart hempty
    | Serialized policies =>
      simp only [Delivery.container, fromSerializedPolicies] at hstart
      split_ifs at hstart with hcount
      cases hmap : policies.mapM fun policy => parsePolicy urlParse url policy false with
      | error error => rw [hmap] at hstart; cases hstart
      | ok parsed =>
        rw [hmap] at hstart
        cases hstart
        have hall := mapM_forall₂.mp hmap
        have hlength := hall.length_eq
        refine ⟨List.forall₂_map_left_iff.mpr hall, ?_⟩
        simp only
        omega

/-- Reading a container back policy by policy. -/
theorem fromSerializedPolicies_ok {self rebuilt : PolicyContainer}
    (hlength : self.policies.length ≤ 32) :
    fromSerializedPolicies urlParse url self.serializedPolicies = .ok rebuilt ↔
      List.Forall₂ (fun policy policy' => parsePolicy urlParse url policy.serialized false = .ok policy')
        self.policies rebuilt.policies := by
  have hcount : ¬ 32 < self.serializedPolicies.length := by
    rw [serializedPolicies, List.length_map]
    omega
  rw [fromSerializedPolicies, if_neg hcount, ← List.forall₂_map_left_iff (f := Policy.serialized)
    (R := fun text policy' => parsePolicy urlParse url text false = .ok policy'), ← mapM_forall₂]
  change _ ↔ self.serializedPolicies.mapM _ = _
  cases self.serializedPolicies.mapM fun policy => parsePolicy urlParse url policy false with
  | error error => exact ⟨fun h => (by cases h), fun h => (by cases h)⟩
  | ok policies =>
    constructor
    · intro h
      cases h
      rfl
    · intro h
      cases h
      rfl

private theorem forall₂_mem_right {A B : Type} {R : A → B → Prop} {l : List A} {r : List B}
    (h : List.Forall₂ R l r) {b : B} (hb : b ∈ r) : ∃ a ∈ l, R a b := by
  induction h with
  | nil => cases hb
  | cons hab _ ih =>
    rcases List.mem_cons.mp hb with rfl | hb
    · exact ⟨_, List.mem_cons_self, hab⟩
    · obtain ⟨a, ha, hR⟩ := ih hb
      exact ⟨a, List.mem_cons_of_mem _ ha, hR⟩

private theorem forall₂_mem_left {A B : Type} {R : A → B → Prop} {l : List A} {r : List B}
    (h : List.Forall₂ R l r) {a : A} (ha : a ∈ l) : ∃ b ∈ r, R a b :=
  forall₂_mem_right h.flip ha

/-- A container whose texts do not depend on their delivery is read back as it is. -/
private theorem survives_of_parsedFrom {texts : List (Str × Bool)} {self : PolicyContainer}
    (hself : ParsedFrom urlParse url texts self)
    (htrim : ∀ text ∈ texts, TrimsAscii text.1)
    (hmeta : ∀ text ∈ texts, text.2 = true → ¬ HasDirective ["sandbox", "frame-ancestors"] text.1) :
    Survives urlParse url self := by
  refine ⟨self, (fromSerializedPolicies_ok hself.2).mpr ?_, ?_⟩
  · rw [List.forall₂_same]
    intro policy hpolicy
    obtain ⟨text, htext, hparse⟩ := forall₂_mem_right hself.1 hpolicy
    exact parsePolicy_serialized hparse (htrim text htext) (hmeta text htext)
  · exact ⟨fun _ _ _ => rfl, fun _ _ _ _ => rfl, fun _ => rfl, rfl, rfl, rfl, fun _ _ _ _ => rfl⟩

/-- What reading a text again as a header policy finds in it. -/
private theorem parsePolicy_trim {text : Str} {policy : Policy} (htrim : TrimsAscii text)
    (h : parsePolicy urlParse url (Str.trim text) false = .ok policy) :
    ¬ HasDirective ["sandbox"] text ∧
      (HasDirective ["frame-ancestors"] text →
        policy.directives.contains "frame-ancestors".toList = true) := by
  rw [parsePolicy, directiveWords_trim htrim] at h
  cases horigin : urlParse url with
  | none => rw [horigin] at h; cases h
  | some origin =>
    rw [horigin] at h
    simp only at h
    cases hfold : (directiveWords text).foldlM (parseDirective false) ⟨OrdMap.empty, false⟩ with
    | error error => rw [hfold] at h; cases h
    | ok parsed =>
      rw [hfold] at h
      cases h
      refine ⟨?_, ?_⟩
      · rintro ⟨words, hwords, word, hword, hname⟩
        exact foldlM_sandbox hfold rfl words hwords word hword ((named_singleton _ _).mp hname)
      · rintro ⟨words, hwords, word, hword, hname⟩
        exact foldlM_ancestors hfold
          (Or.inr ⟨words, hwords, word, hword, (named_singleton _ _).mp hname⟩)

private theorem parsePolicy_text {text : Str} {fromMeta : Bool} {policy : Policy}
    (h : parsePolicy urlParse url text fromMeta = .ok policy) : policy.serialized = Str.trim text := by
  rw [parsePolicy] at h
  cases horigin : urlParse url with
  | none => rw [horigin] at h; cases h
  | some origin =>
    rw [horigin] at h
    simp only at h
    cases hfold : (directiveWords text).foldlM (parseDirective fromMeta) ⟨OrdMap.empty, false⟩ with
    | error error => rw [hfold] at h; cases h
    | ok parsed =>
      rw [hfold] at h
      cases h
      rfl

/-- What it takes of a `meta` policy to survive. -/
private theorem meta_of_survives {texts : List (Str × Bool)} {self : PolicyContainer}
    (hself : ParsedFrom urlParse url texts self) (hsurvives : Survives urlParse url self)
    {text : Str} {fromMeta : Bool} (htext : (text, fromMeta) ∈ texts) (htrim : TrimsAscii text) :
    ¬ HasDirective ["sandbox"] text ∧
      (HasDirective ["frame-ancestors"] text → self.checksAncestors = true) := by
  obtain ⟨policy, hpolicy, hparse⟩ := forall₂_mem_left hself.1 htext
  obtain ⟨rebuilt, hrebuilt, hsame⟩ := hsurvives
  obtain ⟨policy', hpolicy', hreparse⟩ :=
    forall₂_mem_left ((fromSerializedPolicies_ok hself.2).mp hrebuilt) hpolicy
  rw [parsePolicy_text hparse] at hreparse
  obtain ⟨hsandbox, hancestors⟩ := parsePolicy_trim htrim hreparse
  refine ⟨hsandbox, ?_⟩
  intro h
  rw [hsame.checksAncestors]
  exact List.any_eq_true.mpr ⟨policy', hpolicy', hancestors h⟩

/-- A container survives its serialization when no `meta` policy has a directive that only a
header can set and trimming takes ASCII white space only. With such trimming it survives
only if no `meta` policy has `sandbox`, and `frame-ancestors` only beside an enforced one. -/
theorem serialization_survives (urlParse : Str → Option Url) (url : Str) (delivery : Delivery)
    (metas : List Str) (container : PolicyContainer)
    (hbuild : build urlParse url delivery metas = .ok container) :
    ((∀ text ∈ delivery.texts ++ metas, TrimsAscii text) →
      (∀ text ∈ metas, ¬ HasDirective ["sandbox", "frame-ancestors"] text) →
      Survives urlParse url container) ∧
    ((∀ text ∈ delivery.texts ++ metas, TrimsAscii text) → Survives urlParse url container →
      ∀ text ∈ metas, ¬ HasDirective ["sandbox"] text ∧
        (HasDirective ["frame-ancestors"] text → container.checksAncestors = true)) := by
  have hparsed := build_parsedFrom hbuild
  refine ⟨?_, ?_⟩
  · intro htrim hmeta
    refine survives_of_parsedFrom hparsed ?_ ?_
    · intro entry hentry
      rcases List.mem_append.mp hentry with hentry | hentry
      · obtain ⟨text, htext, rfl⟩ := List.mem_map.mp hentry
        exact htrim text (List.mem_append_left _ htext)
      · obtain ⟨text, htext, rfl⟩ := List.mem_map.mp hentry
        exact htrim text (List.mem_append_right _ htext)
    · intro entry hentry hfromMeta
      rcases List.mem_append.mp hentry with hentry | hentry
      · obtain ⟨text, htext, rfl⟩ := List.mem_map.mp hentry
        cases hfromMeta
      · obtain ⟨text, htext, rfl⟩ := List.mem_map.mp hentry
        exact hmeta text htext
  · intro htrim hsurvives text htext
    exact meta_of_survives hparsed hsurvives
      (List.mem_append_right _ (List.mem_map_of_mem htext)) (htrim text (List.mem_append_right _ htext))

/-! Documents whose policies come from `meta` elements. -/

private def sampleUrl : Str := "https://example.test/".toList

private def sampleOrigin : Url where
  scheme := "https".toList
  hostStr := some "example.test".toList
  port := none
  portOrKnownDefault := some 443
  path := "/".toList
  origin := some ("https".toList, "example.test".toList, 443)

private def sampleParse (text : Str) : Option Url :=
  if text = sampleUrl then some sampleOrigin else none

private def samplePolicy (text : String) (directives : OrdMap Str (List Str)) : PolicyContainer :=
  ⟨[⟨sampleOrigin, text.toList, directives, false⟩]⟩

private def sampleEnforced : PolicyContainer :=
  samplePolicy "script-src 'self'" (OrdMap.empty.insert "script-src".toList ["'self'".toList])

theorem serialization_survives_sample : Survives sampleParse sampleUrl sampleEnforced :=
  (serialization_survives sampleParse sampleUrl (.Headers []) ["script-src 'self' ".toList]
    sampleEnforced (by decide +kernel)).1 (by decide +kernel) (by decide +kernel)

/-- A sandbox is refused, ancestors are checked, and a directive that a no-break space hid
is enforced once the policies are read back. -/
theorem serialization_differs :
    (build sampleParse sampleUrl (.Headers []) ["script-src 'self'; sandbox".toList] =
        .ok (samplePolicy "script-src 'self'; sandbox"
          (OrdMap.empty.insert "script-src".toList ["'self'".toList])) ∧
      fromSerializedPolicies sampleParse sampleUrl ["script-src 'self'; sandbox".toList] =
        .error (unsupported "sandbox".toList)) ∧
    (build sampleParse sampleUrl (.Headers []) ["frame-ancestors 'none'".toList] =
        .ok (samplePolicy "frame-ancestors 'none'" OrdMap.empty) ∧
      (samplePolicy "frame-ancestors 'none'" OrdMap.empty).checksAncestors = false ∧
      ∃ rebuilt, fromSerializedPolicies sampleParse sampleUrl ["frame-ancestors 'none'".toList] =
        .ok rebuilt ∧ rebuilt.checksAncestors = true) ∧
    (build sampleParse sampleUrl (.Headers []) ["\u00a0default-src 'none'".toList] =
        .ok (samplePolicy "default-src 'none'" OrdMap.empty) ∧
      (samplePolicy "default-src 'none'" OrdMap.empty).allowsEval = true ∧
      ∃ rebuilt, fromSerializedPolicies sampleParse sampleUrl ["default-src 'none'".toList] =
        .ok rebuilt ∧ rebuilt.allowsEval = false) := by
  refine ⟨⟨by decide +kernel, by decide +kernel⟩,
    ⟨by decide +kernel, by decide +kernel, ?_⟩, ⟨by decide +kernel, by decide +kernel, ?_⟩⟩
  · exact ⟨samplePolicy "frame-ancestors 'none'"
      (OrdMap.empty.insert "frame-ancestors".toList ["'none'".toList]),
      by decide +kernel, by decide +kernel⟩
  · exact ⟨samplePolicy "default-src 'none'"
      (OrdMap.empty.insert "default-src".toList ["'none'".toList]),
      by decide +kernel, by decide +kernel⟩

end PolicyContainer

end BetterWebBrowser.Csp
