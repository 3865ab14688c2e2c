import BetterWebBrowser.Script.ImportMaps

/-!
# Resolved modules

A later map adds rules for new keys. Inside the scopes, the rules that match a resolution made
before are taken out first; from the rules for all modules only those are whose key goes on
from the resolved specifier, and a prefix of it is not among them.
-/

namespace BetterWebBrowser.Script

open Framework

variable {U : Type} (api : UrlApi U)

/-! ## First matches -/

theorem matchSpecifier_eq (record : ResolvedSpecifier) (entries : List (Str × Option Str)) :
    matchSpecifier api record.specifier record.mayPrefixMatch entries =
      (entries.find? fun rule => ruleMatchesRecord rule.1 record).map fun rule =>
        applyRule api rule.1 rule.2 record.specifier := by
  induction entries with
  | nil => rfl
  | cons rule entries ih =>
    obtain ⟨key, address⟩ := rule
    rw [matchSpecifier, List.find?_cons, ih]
    by_cases hkey : key = record.specifier
    · simp [ruleMatchesRecord, hkey]
    · by_cases hleading : (record.mayPrefixMatch && (Str.stripSuffix key ['/']).isSome &&
          Str.startsWith record.specifier key) = true
      · have hmatches : ruleMatchesRecord key record = true := by
          simp only [Bool.and_eq_true] at hleading
          simp [ruleMatchesRecord, hleading]
        simp [hkey, hleading, hmatches]
      · have hmatches : ruleMatchesRecord key record = false := by
          simp only [Bool.and_eq_true, not_and, Bool.not_eq_true] at hleading
          rw [ruleMatchesRecord, decide_eq_false hkey, Bool.false_or]
          cases hmay : record.mayPrefixMatch with
          | false => simp
          | true =>
            cases hslash : (Str.stripSuffix key ['/']).isSome with
            | false => simp
            | true => simp [hleading ⟨hmay, hslash⟩]
        simp [hkey, hleading, hmatches]

theorem matchScopes_eq (normalized : Str) (mayPrefixMatch : Bool) (referrer : Str)
    (scopes : List (Str × SpecifierMap)) :
    matchScopes api normalized mayPrefixMatch referrer scopes =
      scopes.findSome? fun scope =>
        if scopeMatches scope.1 referrer then matchSpecifier api normalized mayPrefixMatch scope.2.entries
        else none := by
  induction scopes with
  | nil => rfl
  | cons scope scopes ih =>
    obtain ⟨key, imports⟩ := scope
    rw [matchScopes, List.findSome?_cons, ih]
    split
    · split <;> simp_all
    · rfl

namespace ImportMap

variable (map newer : ImportMap) (records : List ResolvedSpecifier)

/-- What the scopes around the referrer give. -/
def scopeAnswer (record : ResolvedSpecifier) : Option (Except Str Str) :=
  matchScopes api record.specifier record.mayPrefixMatch record.baseUrl map.scopes.entries

/-- The rule for all modules that applies. -/
def importRule (record : ResolvedSpecifier) : Option (Str × Option Str) :=
  map.imports.entries.find? fun rule => ruleMatchesRecord rule.1 record

theorem resolve_eq {referrer specifier : Str} {record : ResolvedSpecifier}
    (h : ResolvedSpecifier.new api referrer specifier = .ok record) :
    map.resolve api specifier referrer =
      match map.scopeAnswer api record with
      | some answer => answer.map some
      | none =>
        match map.importRule record with
        | some rule => (applyRule api rule.1 rule.2 record.specifier).map some
        | none => .ok none := by
  rw [ResolvedSpecifier.new] at h
  cases hbase : api.parse referrer with
  | none =>
    rw [hbase] at h
    cases h
  | some base =>
    rw [hbase] at h
    obtain rfl := Except.ok.inj h
    rw [resolve, hbase]
    dsimp only
    have hmatch := matchSpecifier_eq api ⟨api.href base, (resolveUrlLike api specifier base).elim specifier api.href,
      (resolveUrlLike api specifier base).all (isSpecialUrl api)⟩ map.imports.entries
    dsimp only at hmatch
    rw [hmatch]
    dsimp only [scopeAnswer, importRule]
    generalize matchScopes api _ _ _ map.scopes.entries = answer
    cases answer with
    | some answer => rfl
    | none =>
      generalize map.imports.entries.find? _ = rule
      cases rule with
      | none => rfl
      | some rule => rfl

/-! ## Scopes -/

theorem get_mergeSpecifierMaps (previous later : SpecifierMap) (key : Str) :
    (mergeSpecifierMaps previous later).get key = (previous.get key).or (later.get key) := by
  rw [mergeSpecifierMaps, RankedMap.get_ofKeyed, KeyedList.get_foldl_pushMissing]
  rfl

theorem mem_filterScope {record : ResolvedSpecifier} (hrecord : record ∈ records) {scope : Str}
    (hscope : scopeMatches scope record.baseUrl = true) {rules : SpecifierMap} {rule : Str × Option Str}
    (hrule : rule ∈ (filterScope records scope rules).entries) : ruleMatchesRecord rule.1 record = false := by
  have hkept := (List.mem_filter.mp hrule).2
  have hrecord := List.all_eq_true.mp hkept record hrecord
  simpa [hscope] using hrecord

/-- New rules that do not match change no match. -/
theorem matchSpecifier_merge {record : ResolvedSpecifier} {previous later : SpecifierMap}
    (hlater : ∀ rule ∈ later.entries, ruleMatchesRecord rule.1 record = false) :
    matchSpecifier api record.specifier record.mayPrefixMatch (mergeSpecifierMaps previous later).entries =
      matchSpecifier api record.specifier record.mayPrefixMatch previous.entries := by
  rw [matchSpecifier_eq, matchSpecifier_eq]
  congr 1
  apply RankedMap.find?_congr
  intro rule hmatches
  rw [← RankedMap.get_eq_some, ← RankedMap.get_eq_some, get_mergeSpecifierMaps]
  have hnone : later.get rule.1 = none := by
    cases hget : later.get rule.1 with
    | none => rfl
    | some address =>
      have hfalse := hlater _ (RankedMap.get_eq_some.mp hget)
      rw [hmatches] at hfalse
      cases hfalse
  rw [hnone, Option.or_none]

theorem matchSpecifier_eq_none {record : ResolvedSpecifier} {rules : SpecifierMap}
    (hrules : ∀ rule ∈ rules.entries, ruleMatchesRecord rule.1 record = false) :
    matchSpecifier api record.specifier record.mayPrefixMatch rules.entries = none := by
  rw [matchSpecifier_eq, Option.map_eq_none_iff, List.find?_eq_none]
  intro rule hrule
  simp [hrules rule hrule]

theorem get_mapValues {V W : Type} (m : RankedMap Utf16.encode V) (f : Str → V → W) (key : Str) :
    (m.mapValues f).get key = (m.get key).map (f key) := by
  apply Option.ext
  intro value
  rw [RankedMap.get_eq_some, Option.map_eq_some_iff, RankedMap.mapValues, List.mem_map]
  constructor
  · rintro ⟨entry, hmem, heq⟩
    obtain ⟨rfl, rfl⟩ := Prod.mk.inj heq
    exact ⟨entry.2, RankedMap.get_eq_some.mpr hmem, rfl⟩
  · rintro ⟨old, hget, rfl⟩
    exact ⟨(key, old), RankedMap.get_eq_some.mp hget, rfl⟩

theorem get_merged_scopes (scope : Str) :
    (map.merged newer records).scopes.get scope =
      match (newer.scopes.get scope).map (filterScope records scope) with
      | none => map.scopes.get scope
      | some rules => some (((map.scopes.get scope).map fun old => mergeSpecifierMaps old rules).getD rules) := by
  have hkeys : ((newer.scopes.mapValues (filterScope records)).entries.map Prod.fst).Nodup :=
    (newer.scopes.mapValues (filterScope records)).toKeyed.nodup
  have hlookup : KeyedList.lookup (newer.scopes.mapValues (filterScope records)).entries scope =
      (newer.scopes.mapValues (filterScope records)).get scope := rfl
  rw [merged, RankedMap.get_ofKeyed, KeyedList.get_foldl_combine _ _ hkeys, ← get_mapValues, hlookup]
  cases (newer.scopes.mapValues (filterScope records)).get scope with
  | none => rfl
  | some rules => rfl

/-- What the scopes gave, they give after the merge. -/
theorem scopeAnswer_merged {record : ResolvedSpecifier} (hrecord : record ∈ records) :
    (map.merged newer records).scopeAnswer api record = map.scopeAnswer api record := by
  rw [scopeAnswer, scopeAnswer, matchScopes_eq, matchScopes_eq]
  apply RankedMap.findSome?_congr
  intro scope
  rw [get_merged_scopes]
  cases hnewer : newer.scopes.get scope with
  | none => rfl
  | some rules =>
    by_cases hscope : scopeMatches scope record.baseUrl = true
    · have hrules : ∀ rule ∈ (filterScope records scope rules).entries, ruleMatchesRecord rule.1 record = false :=
        fun rule hrule => mem_filterScope records hrecord hscope hrule
      cases map.scopes.get scope with
      | none => simp [hscope, matchSpecifier_eq_none api hrules]
      | some old => simp [hscope, matchSpecifier_merge api hrules]
    · cases map.scopes.get scope with
      | none => simp [hscope]
      | some old => simp [hscope]

/-! ## Rules for all modules -/

/-- The rule that a later map adds for the record: the first of its rules that is kept,
has a new key and matches. -/
def lateRule (record : ResolvedSpecifier) : Option (Str × Option Str) :=
  (filterImports records newer.imports).entries.find? fun rule =>
    decide (map.imports.get rule.1 = none) && ruleMatchesRecord rule.1 record

theorem get_merged_imports (key : Str) :
    (map.merged newer records).imports.get key =
      (map.imports.get key).or ((filterImports records newer.imports).get key) := by
  rw [merged, get_mergeSpecifierMaps]

theorem importRule_eq_some {record : ResolvedSpecifier} {rule : Str × Option Str} :
    map.importRule record = some rule ↔
      map.imports.get rule.1 = some rule.2 ∧ ruleMatchesRecord rule.1 record = true ∧
        ∀ key address, map.imports.get key = some address → ruleMatchesRecord key record = true →
          (key, address) = rule ∨ Utf16.encode key < Utf16.encode rule.1 := by
  rw [importRule, RankedMap.find?_eq_some_iff, RankedMap.get_eq_some]
  constructor
  · rintro ⟨hmem, hmatches, hmax⟩
    exact ⟨hmem, hmatches, fun key address hget => hmax (key, address) (RankedMap.get_eq_some.mp hget)⟩
  · rintro ⟨hmem, hmatches, hmax⟩
    exact ⟨hmem, hmatches, fun other hother => hmax other.1 other.2 (RankedMap.get_eq_some.mpr hother)⟩

theorem lateRule_eq_some {record : ResolvedSpecifier} {rule : Str × Option Str} :
    map.lateRule newer records record = some rule ↔
      ((filterImports records newer.imports).get rule.1 = some rule.2 ∧ map.imports.get rule.1 = none) ∧
        ruleMatchesRecord rule.1 record = true ∧
        ∀ key address, (filterImports records newer.imports).get key = some address →
          map.imports.get key = none → ruleMatchesRecord key record = true →
          (key, address) = rule ∨ Utf16.encode key < Utf16.encode rule.1 := by
  rw [lateRule, RankedMap.find?_eq_some_iff, RankedMap.get_eq_some]
  simp only [Bool.and_eq_true, decide_eq_true_eq]
  constructor
  · rintro ⟨hmem, ⟨hnew, hmatches⟩, hmax⟩
    exact ⟨⟨hmem, hnew⟩, hmatches, fun key address hget hnone hkey =>
      hmax (key, address) (RankedMap.get_eq_some.mp hget) ⟨hnone, hkey⟩⟩
  · rintro ⟨⟨hmem, hnew⟩, hmatches, hmax⟩
    exact ⟨hmem, ⟨hnew, hmatches⟩, fun other hother htests =>
      hmax other.1 other.2 (RankedMap.get_eq_some.mpr hother) htests.1 htests.2⟩

theorem importRule_eq_none {record : ResolvedSpecifier} :
    map.importRule record = none ↔
      ∀ key address, map.imports.get key = some address → ruleMatchesRecord key record = false := by
  rw [importRule, List.find?_eq_none]
  constructor
  · intro h key address hget
    simpa using h (key, address) (RankedMap.get_eq_some.mp hget)
  · intro h rule hrule
    simp [h rule.1 rule.2 (RankedMap.get_eq_some.mpr hrule)]

theorem lateRule_eq_none {record : ResolvedSpecifier} :
    map.lateRule newer records record = none ↔
      ∀ key address, (filterImports records newer.imports).get key = some address →
        map.imports.get key = none → ruleMatchesRecord key record = false := by
  rw [lateRule, List.find?_eq_none]
  simp only [Bool.and_eq_true, decide_eq_true_eq, not_and, Bool.not_eq_true]
  constructor
  · exact fun h key address hget => h (key, address) (RankedMap.get_eq_some.mp hget)
  · exact fun h rule hrule => h rule.1 rule.2 (RankedMap.get_eq_some.mpr hrule)

/-- A rule of the merged map is an old one, or a new one for a key without an old one. -/
theorem get_merged_imports_cases {key : Str} {address : Option Str}
    (h : (map.merged newer records).imports.get key = some address) :
    map.imports.get key = some address ∨
      map.imports.get key = none ∧ (filterImports records newer.imports).get key = some address := by
  rw [get_merged_imports, Option.or_eq_some_iff] at h
  exact h

/-- After the merge the greater of the two rules applies. -/
theorem importRule_merged (record : ResolvedSpecifier) :
    (map.merged newer records).importRule record =
      match map.importRule record, map.lateRule newer records record with
      | own, none => own
      | none, some late => some late
      | some own, some late => if Utf16.encode own.1 < Utf16.encode late.1 then some late else some own := by
  cases hlate : map.lateRule newer records record with
  | none =>
    have hlate := (map.lateRule_eq_none newer records).mp hlate
    apply RankedMap.find?_congr
    intro rule hmatches
    rw [← RankedMap.get_eq_some, ← RankedMap.get_eq_some, get_merged_imports, Option.or_eq_some_iff]
    constructor
    · rintro (hold | ⟨hnone, hnew⟩)
      · exact hold
      · rw [hlate _ _ hnew hnone] at hmatches
        cases hmatches
    · exact Or.inl
  | some late =>
    obtain ⟨⟨hkept, hnew⟩, hmatches, hmax⟩ := (map.lateRule_eq_some newer records).mp hlate
    have hmerged : (map.merged newer records).imports.get late.1 = some late.2 := by
      rw [get_merged_imports, hnew, hkept]
      rfl
    cases hown : map.importRule record with
    | none =>
      have hown := map.importRule_eq_none.mp hown
      refine (importRule_eq_some _).mpr ⟨hmerged, hmatches, ?_⟩
      intro key address hget hkey
      rcases map.get_merged_imports_cases newer records hget with hold | ⟨hnone, hget⟩
      · rw [hown _ _ hold] at hkey
        cases hkey
      · exact hmax key address hget hnone hkey
    | some own =>
      obtain ⟨hget, hownMatches, hownMax⟩ := map.importRule_eq_some.mp hown
      have hne : own.1 ≠ late.1 := by
        intro heq
        rw [heq, hnew] at hget
        cases hget
      dsimp only
      split
      · rename_i hlt
        refine (importRule_eq_some _).mpr ⟨hmerged, hmatches, ?_⟩
        intro key address hother hkey
        rcases map.get_merged_imports_cases newer records hother with hold | ⟨hnone, hother⟩
        · rcases hownMax key address hold hkey with rfl | hbelow
          · exact Or.inr hlt
          · exact Or.inr (hbelow.trans hlt)
        · exact hmax key address hother hnone hkey
      · rename_i hnlt
        have hlt : Utf16.encode late.1 < Utf16.encode own.1 :=
          lt_of_le_of_ne (not_lt.mp hnlt) fun heq => hne (Utf16.encode_injective heq).symm
        have hownMerged : (map.merged newer records).imports.get own.1 = some own.2 := by
          rw [get_merged_imports, hget]
          rfl
        refine (importRule_eq_some _).mpr ⟨hownMerged, hownMatches, ?_⟩
        intro key address hother hkey
        rcases map.get_merged_imports_cases newer records hother with hold | ⟨hnone, hother⟩
        · exact hownMax key address hold hkey
        · rcases hmax key address hother hnone hkey with rfl | hbelow
          · exact Or.inr hlt
          · exact Or.inr (hbelow.trans hlt)

/-! ## Resolutions made before -/

theorem merge_ok (h : (map.merge newer records).2 = .ok ()) :
    (map.merge newer records).1 = map.merged newer records := by
  rw [merge] at h ⊢
  split
  · rename_i hcount
    rw [if_pos hcount] at h
    cases h
  · rfl

theorem merge_error {error : Str} (h : (map.merge newer records).2 = .error error) :
    (map.merge newer records).1 = map := by
  rw [merge] at h ⊢
  split
  · rfl
  · rename_i hcount
    rw [if_neg hcount] at h
    cases h

theorem merge_ok_iff :
    (map.merge newer records).2 = .ok () ↔
      (map.merged newer records).entryCount ≤ MAX_IMPORT_MAP_ENTRIES := by
  rw [merge]
  by_cases hcount : MAX_IMPORT_MAP_ENTRIES < (map.merged newer records).entryCount
  · rw [if_pos hcount]
    constructor
    · intro h
      cases h
    · intro h
      exact absurd hcount (not_lt.mpr h)
  · rw [if_neg hcount]
    exact ⟨fun _ => not_lt.mp hcount, fun _ => rfl⟩

/-- The call either refuses the newer map or puts the two together. -/
theorem merge_cases :
    (map.merge newer records).1 = map ∨ (map.merge newer records).1 = map.merged newer records := by
  rw [merge]
  split
  · exact Or.inl rfl
  · exact Or.inr rfl

end ImportMap

theorem map_some_injective {answer answer' : Except Str Str} (h : answer.map some = answer'.map some) :
    answer = answer' := by
  cases answer with
  | error error =>
    cases answer' with
    | error error' => simpa [Except.map] using h
    | ok url => cases h
  | ok url =>
    cases answer' with
    | error error => cases h
    | ok url' => simpa [Except.map] using h

theorem map_some_ne_none (answer : Except Str Str) : answer.map some ≠ .ok none := by
  cases answer with
  | error error => simp [Except.map]
  | ok url => simp [Except.map]

/-- A specifier that a map resolves, and the record of it. -/
structure Resolution (map : ImportMap) where
  referrerUrl : Str
  specifier : Str
  record : ResolvedSpecifier
  result : Option Str
  recorded : ResolvedSpecifier.new api referrerUrl specifier = .ok record
  resolved : map.resolve api specifier referrerUrl = .ok result

variable {api}

/-- No late rule for all modules gets at the record: a scope answers for it, or an older rule
that matches has the greater key or gives the same address. -/
def ImportMap.Uncaptured (api : UrlApi U) (map newer : ImportMap) (records : List ResolvedSpecifier)
    (record : ResolvedSpecifier) : Prop :=
  (map.scopeAnswer api record).isSome = true ∨
    ∀ late, map.lateRule newer records record = some late →
      ∃ own, map.importRule record = some own ∧
        (Utf16.encode late.1 < Utf16.encode own.1 ∨
          applyRule api late.1 late.2 record.specifier = applyRule api own.1 own.2 record.specifier)

theorem Resolution.merged_iff {map : ImportMap} (resolution : Resolution api map) (newer : ImportMap)
    {records : List ResolvedSpecifier} (hrecord : resolution.record ∈ records) :
    (map.merged newer records).resolve api resolution.specifier resolution.referrerUrl = .ok resolution.result ↔
      map.Uncaptured api newer records resolution.record := by
  have hbefore := resolution.resolved
  rw [ImportMap.resolve_eq api _ resolution.recorded] at hbefore ⊢
  rw [ImportMap.scopeAnswer_merged api map newer records hrecord, ImportMap.Uncaptured, map.importRule_merged]
  cases hscopes : map.scopeAnswer api resolution.record with
  | some answer =>
    rw [hscopes] at hbefore
    simpa using hbefore
  | none =>
    rw [hscopes] at hbefore
    simp only [Option.isSome_none, Bool.false_eq_true, false_or]
    cases hlate : map.lateRule newer records resolution.record with
    | none => simpa using hbefore
    | some late =>
      cases hown : map.importRule resolution.record with
      | none =>
        rw [hown] at hbefore
        obtain hnone := Except.ok.inj hbefore
        rw [← hnone]
        constructor
        · intro h
          exact absurd h (map_some_ne_none _)
        · intro h
          obtain ⟨own, hsome, -⟩ := h late rfl
          cases hsome
      | some own =>
        rw [hown] at hbefore
        dsimp only at hbefore ⊢
        have hne : Utf16.encode late.1 ≠ Utf16.encode own.1 := by
          intro heq
          have hnew := ((map.lateRule_eq_some newer records).mp hlate).1.2
          rw [Utf16.encode_injective heq, (map.importRule_eq_some.mp hown).1] at hnew
          cases hnew
        by_cases hlt : Utf16.encode own.1 < Utf16.encode late.1
        · rw [if_pos hlt]
          dsimp only
          rw [← hbefore]
          constructor
          · intro heq
            refine fun _ h => ⟨own, rfl, Or.inr ?_⟩
            obtain rfl := Option.some.inj h
            exact map_some_injective heq
          · intro h
            obtain ⟨own', hsame, hgreater | heq⟩ := h late rfl
            · obtain rfl := Option.some.inj hsame
              exact absurd (hlt.trans hgreater) (lt_irrefl _)
            · obtain rfl := Option.some.inj hsame
              rw [heq]
        · rw [if_neg hlt]
          have hgreater : Utf16.encode late.1 < Utf16.encode own.1 := lt_of_le_of_ne (not_lt.mp hlt) hne
          simp only [hbefore, true_iff]
          intro late' hlate'
          obtain rfl := Option.some.inj hlate'
          exact ⟨own, rfl, Or.inl hgreater⟩

/-- What was resolved stays as it was, a refused map changes nothing, and no address in use
is changed. -/
structure MergeKeeps (map newer : ImportMap) (resolutions : List (Resolution api map)) : Prop where
  kept : (map.merge newer (resolutions.map Resolution.record)).2 = .ok () →
    ∀ resolution ∈ resolutions,
      (map.merge newer (resolutions.map Resolution.record)).1.resolve api resolution.specifier
        resolution.referrerUrl = map.resolve api resolution.specifier resolution.referrerUrl
  refused : ∀ error, (map.merge newer (resolutions.map Resolution.record)).2 = .error error →
    (map.merge newer (resolutions.map Resolution.record)).1 = map
  imports : ∀ key address, map.imports.get key = some address →
    (map.merge newer (resolutions.map Resolution.record)).1.imports.get key = some address
  scopes : ∀ scope rules key address, map.scopes.get scope = some rules → rules.get key = some address →
    ∃ merged, (map.merge newer (resolutions.map Resolution.record)).1.scopes.get scope = some merged ∧
      merged.get key = some address

namespace ImportMap

variable (map newer : ImportMap) (records : List ResolvedSpecifier)

theorem merge_imports {key : Str} {address : Option Str} (h : map.imports.get key = some address) :
    (map.merge newer records).1.imports.get key = some address := by
  rcases map.merge_cases newer records with heq | heq
  · rw [heq, h]
  · rw [heq, get_merged_imports, h]
    rfl

theorem merge_scopes {scope key : Str} {rules : SpecifierMap} {address : Option Str}
    (hscope : map.scopes.get scope = some rules) (hkey : rules.get key = some address) :
    ∃ merged, (map.merge newer records).1.scopes.get scope = some merged ∧ merged.get key = some address := by
  rcases map.merge_cases newer records with heq | heq
  · exact ⟨rules, by rw [heq, hscope], hkey⟩
  · rw [heq, get_merged_scopes, hscope]
    cases newer.scopes.get scope with
    | none => exact ⟨rules, rfl, hkey⟩
    | some later =>
      refine ⟨_, rfl, ?_⟩
      rw [Option.map_some, Option.getD_some, get_mergeSpecifierMaps, hkey]
      rfl

end ImportMap

/-- A merge keeps what was resolved exactly if it is refused or no late rule captures a record. -/
theorem merge_keeps_iff (map newer : ImportMap) (resolutions : List (Resolution api map)) :
    MergeKeeps map newer resolutions ↔
      MAX_IMPORT_MAP_ENTRIES < (map.merged newer (resolutions.map Resolution.record)).entryCount ∨
        ∀ resolution ∈ resolutions,
          map.Uncaptured api newer (resolutions.map Resolution.record) resolution.record := by
  constructor
  · intro h
    by_cases hcount : MAX_IMPORT_MAP_ENTRIES < (map.merged newer (resolutions.map Resolution.record)).entryCount
    · exact Or.inl hcount
    · refine Or.inr fun resolution hmem => ?_
      have hok := (map.merge_ok_iff newer _).mpr (not_lt.mp hcount)
      have hkept := h.kept hok resolution hmem
      rw [map.merge_ok newer _ hok, resolution.resolved] at hkept
      exact (resolution.merged_iff newer (List.mem_map_of_mem hmem)).mp hkept
  · intro h
    refine ⟨?_, fun _ => map.merge_error newer _, fun _ _ => map.merge_imports newer _,
      fun _ _ _ _ => map.merge_scopes newer _⟩
    intro hok resolution hmem
    rcases h with hcount | huncaptured
    · exact absurd ((map.merge_ok_iff newer _).mp hok) (not_le.mpr hcount)
    · rw [map.merge_ok newer _ hok, resolution.resolved]
      exact (resolution.merged_iff newer (List.mem_map_of_mem hmem)).mpr (huncaptured resolution hmem)

/-! ## A prefix that comes later -/

/-- Absolute URLs of `https`, and paths in the directory of a base. -/
private def sampleUrls : UrlApi Str where
  parse := fun url => if Str.startsWith url "https://".toList then some url else none
  join := fun base path => some ((base.reverse.dropWhile (· ≠ '/')).reverse ++ path)
  href := id
  scheme := fun _ => "https".toList
  jsonParse := fun _ => .ok (.Object [("imports".toList,
    .Object [("https://cdn.test/lib/".toList, .String "https://other.test/".toList)])])

/-- What `{"imports":{"https://cdn.test/lib/":"https://other.test/"}}` says. -/
private def lateMap : ImportMap where
  imports := ⟨[("https://cdn.test/lib/".toList, some "https://other.test/".toList)], List.pairwise_singleton _ _⟩
  scopes := .empty
  integrity := .empty
  diagnostics := []

private def libraryResolution : Resolution sampleUrls ImportMap.default where
  referrerUrl := "https://app.test/main.js".toList
  specifier := "https://cdn.test/lib/a.js".toList
  record := ⟨"https://app.test/main.js".toList, "https://cdn.test/lib/a.js".toList, true⟩
  result := none
  recorded := by decide +kernel
  resolved := by decide +kernel

/-- A library was loaded from its own URL; a prefix that comes later leads it to another host. -/
theorem late_prefix_captures :
    (ImportMap.parse sampleUrls "\x7b\x22imports\x22:\x7b\x22https://cdn.test/lib/\x22:\x22https://other.test/\x22\x7d\x7d".toList
        "https://app.test/".toList).toOption.map (fun map => (map.imports.entries, map.scopes.entries.length)) =
        some (lateMap.imports.entries, lateMap.scopes.entries.length) ∧
      (ImportMap.default.merge lateMap [libraryResolution.record]).2 = .ok () ∧
      ImportMap.default.resolve sampleUrls "https://cdn.test/lib/a.js".toList "https://app.test/main.js".toList =
        .ok none ∧
      (ImportMap.default.merge lateMap [libraryResolution.record]).1.resolve sampleUrls
          "https://cdn.test/lib/a.js".toList "https://app.test/main.js".toList =
        .ok (some "https://other.test/a.js".toList) ∧
      ¬ MergeKeeps ImportMap.default lateMap [libraryResolution] := by
  have hmerge : (ImportMap.default.merge lateMap [libraryResolution.record]).2 = .ok () :=
    (ImportMap.merge_ok_iff _ _ _).mpr (by decide +kernel)
  have hafter : (ImportMap.default.merge lateMap [libraryResolution.record]).1.resolve sampleUrls
      "https://cdn.test/lib/a.js".toList "https://app.test/main.js".toList =
        .ok (some "https://other.test/a.js".toList) := by decide +kernel
  refine ⟨by decide +kernel, hmerge, libraryResolution.resolved, hafter, fun h => ?_⟩
  have hkept := h.kept hmerge libraryResolution List.mem_cons_self
  rw [libraryResolution.resolved] at hkept
  exact absurd (hafter.symm.trans hkept) (by decide)

end BetterWebBrowser.Script
