import Mathlib.Data.List.Nodup
import Mathlib.Order.Basic
import Mathlib.Order.Lattice
import Mathlib.Algebra.Ring.Int.Defs
import Mathlib.Data.Nat.Cast.Basic

/-!
# Maps kept as ranked lists

Entries with different keys in a list. Ranked from the greatest key down, the first entry that
passes a test is the greatest one that does, whatever else is in the map.
-/

namespace BetterWebBrowser.Framework

/-- A list of entries with different keys. -/
structure KeyedList (K V : Type*) where
  entries : List (K × V)
  nodup : (entries.map Prod.fst).Nodup

namespace KeyedList

variable {K V : Type*}

def empty : KeyedList K V := ⟨[], List.nodup_nil⟩

def filter (m : KeyedList K V) (p : K × V → Bool) : KeyedList K V :=
  ⟨m.entries.filter p, (List.filter_sublist.map _).nodup m.nodup⟩

variable [DecidableEq K]

/-- The first value of a key in a list. -/
def lookup (entries : List (K × V)) (key : K) : Option V :=
  (entries.find? fun entry => decide (entry.1 = key)).map Prod.snd

def get (m : KeyedList K V) (key : K) : Option V := lookup m.entries key

theorem lookup_cons (entry : K × V) (entries : List (K × V)) (key : K) :
    lookup (entry :: entries) key = if entry.1 = key then some entry.2 else lookup entries key := by
  rw [lookup, List.find?_cons]
  by_cases h : entry.1 = key
  · simp [h]
  · simp [h, lookup]

theorem lookup_append (entries later : List (K × V)) (key : K) :
    lookup (entries ++ later) key = (lookup entries key).or (lookup later key) := by
  induction entries with
  | nil => rfl
  | cons entry entries ih =>
    rw [List.cons_append, lookup_cons, lookup_cons, ih]
    split <;> rfl

theorem lookup_eq_none {entries : List (K × V)} {key : K} :
    lookup entries key = none ↔ key ∉ entries.map Prod.fst := by
  rw [lookup, Option.map_eq_none_iff, List.find?_eq_none, List.mem_map]
  constructor
  · rintro h ⟨entry, hmem, rfl⟩
    exact h entry hmem (by simp)
  · intro h entry hmem hkey
    exact h ⟨entry, hmem, of_decide_eq_true hkey⟩

theorem lookup_eq_some {entries : List (K × V)} (h : (entries.map Prod.fst).Nodup) {key : K} {value : V} :
    lookup entries key = some value ↔ (key, value) ∈ entries := by
  induction entries with
  | nil => simp [lookup]
  | cons entry entries ih =>
    obtain ⟨hentry, hrest⟩ := List.nodup_cons.mp h
    rw [lookup_cons, List.mem_cons]
    split
    · rename_i heq
      constructor
      · intro hvalue
        obtain rfl := Option.some.inj hvalue
        exact Or.inl (Prod.ext heq.symm rfl)
      · rintro (rfl | hmem)
        · rfl
        · exact absurd (heq ▸ List.mem_map_of_mem hmem) hentry
    · rename_i hne
      rw [ih hrest]
      constructor
      · exact Or.inr
      · rintro (rfl | hmem)
        · exact absurd rfl hne
        · exact hmem

theorem get_eq_some {m : KeyedList K V} {key : K} {value : V} :
    m.get key = some value ↔ (key, value) ∈ m.entries := lookup_eq_some m.nodup

def push (m : KeyedList K V) (key : K) (value : V) (h : m.get key = none) : KeyedList K V :=
  ⟨m.entries ++ [(key, value)], by
    rw [List.map_append, List.nodup_append]
    refine ⟨m.nodup, List.nodup_singleton _, ?_⟩
    intro a ha b hb hab
    obtain rfl := List.mem_singleton.mp hb
    exact lookup_eq_none.mp h (hab ▸ ha)⟩

/-- The value of a key in the place that the key has. -/
def replace (m : KeyedList K V) (key : K) (value : V) : KeyedList K V :=
  ⟨m.entries.map fun entry => if entry.1 = key then (key, value) else entry, by
    have hkeys : (m.entries.map fun entry => if entry.1 = key then (key, value) else entry).map Prod.fst =
        m.entries.map Prod.fst := by
      rw [List.map_map]
      apply List.map_congr_left
      intro entry _
      simp only [Function.comp_apply]
      split
      · rename_i heq
        exact heq.symm
      · rfl
    rw [hkeys]
    exact m.nodup⟩

/-- An entry for a key that is not in use. -/
def pushMissing (m : KeyedList K V) (entry : K × V) : KeyedList K V :=
  if h : m.get entry.1 = none then m.push entry.1 entry.2 h else m

/-- An entry for a new key; for one in use, the two values are combined in its place. -/
def combine (f : V → V → V) (m : KeyedList K V) (entry : K × V) : KeyedList K V :=
  match h : m.get entry.1 with
  | none => m.push entry.1 entry.2 h
  | some previous => m.replace entry.1 (f previous entry.2)

theorem get_push {m : KeyedList K V} {key : K} {value : V} (h : m.get key = none) (other : K) :
    (m.push key value h).get other = if other = key then some value else m.get other := by
  rw [get, push, lookup_append, lookup_cons, ← get]
  by_cases heq : other = key
  · rw [heq, if_pos rfl, if_pos rfl, h]
    rfl
  · rw [if_neg (Ne.symm heq), if_neg heq]
    exact Option.or_none

theorem get_replace {m : KeyedList K V} {key : K} {value old : V} (h : m.get key = some old) (other : K) :
    (m.replace key value).get other = if other = key then some value else m.get other := by
  have hentries : ∀ entries : List (K × V),
      lookup (entries.map fun entry => if entry.1 = key then (key, value) else entry) other =
        if other = key then (lookup entries key).map (fun _ => value) else lookup entries other := by
    intro entries
    induction entries with
    | nil => simp [lookup]
    | cons entry entries ih =>
      rw [List.map_cons, lookup_cons, ih, lookup_cons, lookup_cons]
      by_cases hkey : entry.1 = key
      · by_cases hother : other = key
        · simp [hkey, hother]
        · simp [hkey, hother, Ne.symm hother]
      · by_cases hother : other = key
        · simp [hkey, hother]
        · simp [hkey, hother]
  rw [get, replace, hentries, ← get, ← get, h]
  rfl

theorem get_pushMissing (m : KeyedList K V) (entry : K × V) (key : K) :
    (m.pushMissing entry).get key = (m.get key).or (if entry.1 = key then some entry.2 else none) := by
  rw [pushMissing]
  split
  · rename_i hnone
    rw [get_push]
    by_cases heq : key = entry.1
    · simp [heq, hnone]
    · simp [heq, Ne.symm heq]
  · rename_i hsome
    obtain ⟨old, hold⟩ := Option.ne_none_iff_exists'.mp hsome
    by_cases heq : key = entry.1
    · simp [heq, hold]
    · simp [Ne.symm heq]

/-- The entries that are there stay, and the first one of each other key is added. -/
theorem get_foldl_pushMissing (m : KeyedList K V) (later : List (K × V)) (key : K) :
    (later.foldl pushMissing m).get key = (m.get key).or (lookup later key) := by
  induction later generalizing m with
  | nil => simp [lookup]
  | cons entry later ih =>
    rw [List.foldl_cons, ih, get_pushMissing, lookup_cons, Option.or_assoc]
    congr 1
    split <;> rfl

theorem get_combine (f : V → V → V) (m : KeyedList K V) (entry : K × V) (key : K) :
    (m.combine f entry).get key =
      if key = entry.1 then some (((m.get key).map fun old => f old entry.2).getD entry.2) else m.get key := by
  rw [combine]
  split
  · rename_i hnone
    rw [get_push]
    by_cases heq : key = entry.1
    · simp [heq, hnone]
    · simp [heq]
  · rename_i old hold
    rw [get_replace hold]
    by_cases heq : key = entry.1
    · simp [heq, hold]
    · simp [heq]

/-- Different keys are combined one by one. -/
theorem get_foldl_combine (f : V → V → V) (m : KeyedList K V) {later : List (K × V)}
    (hlater : (later.map Prod.fst).Nodup) (key : K) :
    (later.foldl (combine f) m).get key =
      match lookup later key with
      | none => m.get key
      | some value => some (((m.get key).map fun old => f old value).getD value) := by
  induction later generalizing m with
  | nil => rfl
  | cons entry later ih =>
    obtain ⟨hentry, hrest⟩ := List.nodup_cons.mp hlater
    rw [List.foldl_cons, ih _ hrest, get_combine, lookup_cons]
    by_cases heq : entry.1 = key
    · have hlast : lookup later key = none := lookup_eq_none.mpr (heq ▸ hentry)
      rw [hlast, if_pos heq, if_pos heq.symm]
    · rw [if_neg (Ne.symm heq), if_neg heq]

end KeyedList

/-- Entries from the greatest key down. -/
structure RankedMap {K ρ : Type*} [Preorder ρ] (rank : K → ρ) (V : Type*) where
  entries : List (K × V)
  sorted : entries.Pairwise fun a b => rank b.1 < rank a.1

namespace RankedMap

variable {K V W ρ : Type*} [LinearOrder ρ] {rank : K → ρ}

def empty : RankedMap rank V := ⟨[], List.Pairwise.nil⟩

def toKeyed (m : RankedMap rank V) : KeyedList K V :=
  ⟨m.entries, by
    rw [List.Nodup, List.pairwise_map]
    exact m.sorted.imp fun hlt heq => absurd (heq ▸ hlt) (lt_irrefl _)⟩

def get [DecidableEq K] (m : RankedMap rank V) (key : K) : Option V := m.toKeyed.get key

theorem get_eq_some [DecidableEq K] {m : RankedMap rank V} {key : K} {value : V} :
    m.get key = some value ↔ (key, value) ∈ m.entries := KeyedList.get_eq_some

def mapValues (m : RankedMap rank V) (f : K → V → W) : RankedMap rank W :=
  ⟨m.entries.map fun entry => (entry.1, f entry.1 entry.2), List.pairwise_map.mpr m.sorted⟩

def filter (m : RankedMap rank V) (p : K × V → Bool) : RankedMap rank V :=
  ⟨m.entries.filter p, m.sorted.filter p⟩

/-- The list `sort_by` makes, which keeps the order of equal ranks. -/
def sortDescending (rank : K → ρ) (entries : List (K × V)) : List (K × V) :=
  entries.mergeSort fun a b => decide (rank b.1 ≤ rank a.1)

@[simp] theorem mem_sortDescending {entries : List (K × V)} {entry : K × V} :
    entry ∈ sortDescending rank entries ↔ entry ∈ entries := List.mem_mergeSort

def ofKeyed (hrank : Function.Injective rank) (m : KeyedList K V) : RankedMap rank V :=
  ⟨sortDescending rank m.entries, by
    have hle : (sortDescending rank m.entries).Pairwise fun a b => rank b.1 ≤ rank a.1 := by
      have htrans : ∀ a b c : K × V, decide (rank b.1 ≤ rank a.1) = true →
          decide (rank c.1 ≤ rank b.1) = true → decide (rank c.1 ≤ rank a.1) = true := by
        intro a b c hab hbc
        rw [decide_eq_true_eq] at hab hbc ⊢
        exact hbc.trans hab
      have htotal : ∀ a b : K × V, (decide (rank b.1 ≤ rank a.1) || decide (rank a.1 ≤ rank b.1)) = true := by
        intro a b
        rw [Bool.or_eq_true, decide_eq_true_eq, decide_eq_true_eq]
        exact le_total _ _
      exact (List.pairwise_mergeSort htrans htotal m.entries).imp fun h => of_decide_eq_true h
    have hnodup : ((sortDescending rank m.entries).map Prod.fst).Nodup :=
      ((List.mergeSort_perm _ _).map Prod.fst).nodup_iff.mpr m.nodup
    exact (hle.and (List.pairwise_map.mp hnodup)).imp fun h => lt_of_le_of_ne h.1 fun heq => h.2 (hrank heq).symm⟩

@[simp] theorem mem_ofKeyed {hrank : Function.Injective rank} {m : KeyedList K V} {entry : K × V} :
    entry ∈ (ofKeyed hrank m).entries ↔ entry ∈ m.entries := mem_sortDescending

theorem get_ofKeyed [DecidableEq K] (hrank : Function.Injective rank) (m : KeyedList K V) (key : K) :
    (ofKeyed hrank m).get key = m.get key := by
  apply Option.ext
  intro value
  rw [get_eq_some, mem_ofKeyed, KeyedList.get_eq_some]

/-! ## The greatest entry -/

/-- The first entry that passes is the greatest that does. -/
theorem find?_eq_some_iff {m : RankedMap rank V} {p : K × V → Bool} {entry : K × V} :
    m.entries.find? p = some entry ↔
      entry ∈ m.entries ∧ p entry = true ∧
        ∀ other ∈ m.entries, p other = true → other = entry ∨ rank other.1 < rank entry.1 := by
  obtain ⟨entries, hsorted⟩ := m
  induction entries with
  | nil => simp
  | cons first entries ih =>
    obtain ⟨hfirst, hrest⟩ := List.pairwise_cons.mp hsorted
    have ih := ih hrest
    by_cases hp : p first = true
    · rw [List.find?_cons_of_pos hp]
      constructor
      · intro heq
        obtain rfl := Option.some.inj heq
        refine ⟨List.mem_cons_self, hp, ?_⟩
        intro other hother _
        rcases List.mem_cons.mp hother with rfl | hother
        · exact Or.inl rfl
        · exact Or.inr (hfirst other hother)
      · rintro ⟨hmem, -, hmax⟩
        rcases List.mem_cons.mp hmem with rfl | hmem
        · rfl
        · rcases hmax first List.mem_cons_self hp with rfl | hlt
          · rfl
          · exact absurd (hlt.trans (hfirst entry hmem)) (lt_irrefl _)
    · rw [List.find?_cons_of_neg hp, ih]
      constructor
      · rintro ⟨hmem, hpass, hmax⟩
        refine ⟨List.mem_cons_of_mem _ hmem, hpass, ?_⟩
        intro other hother hpo
        rcases List.mem_cons.mp hother with rfl | hother
        · exact absurd hpo hp
        · exact hmax other hother hpo
      · rintro ⟨hmem, hpass, hmax⟩
        rcases List.mem_cons.mp hmem with rfl | hmem
        · exact absurd hpass hp
        · exact ⟨hmem, hpass, fun other hother => hmax other (List.mem_cons_of_mem _ hother)⟩

/-- The first entry that passes depends only on the entries that pass. -/
theorem find?_congr {m m' : RankedMap rank V} {p : K × V → Bool}
    (h : ∀ entry, p entry = true → (entry ∈ m'.entries ↔ entry ∈ m.entries)) :
    m'.entries.find? p = m.entries.find? p := by
  cases hfind : m.entries.find? p with
  | none =>
    rw [List.find?_eq_none] at hfind ⊢
    exact fun entry hentry hp => hfind entry ((h entry hp).mp hentry) hp
  | some entry =>
    rw [find?_eq_some_iff] at hfind ⊢
    obtain ⟨hmem, hp, hmax⟩ := hfind
    exact ⟨(h entry hp).mpr hmem, hp, fun other hother hpo => hmax other ((h other hpo).mp hother) hpo⟩

/-- The first answer depends only on what each key answers. -/
theorem findSome?_congr [DecidableEq K] {m m' : RankedMap rank V} {f : K × V → Option W}
    (h : ∀ key, ((m'.get key).bind fun value => f (key, value)) = (m.get key).bind fun value => f (key, value)) :
    m'.entries.findSome? f = m.entries.findSome? f := by
  have hanswer : ∀ m : RankedMap rank V, ∀ answer, m.entries.findSome? f = some answer ↔
      ∃ key, ((m.get key).bind fun value => f (key, value)) = some answer ∧
        ∀ other, ((m.get other).bind fun value => f (other, value)).isSome → other = key ∨ rank other < rank key := by
    intro m answer
    have hbind : m.entries.findSome? f = (m.entries.find? fun entry => (f entry).isSome).bind f := by
      induction m.entries with
      | nil => rfl
      | cons entry entries ih =>
        cases hf : f entry with
        | none => simpa [List.findSome?_cons, List.find?_cons, hf] using ih
        | some answer => simp [hf]
    rw [hbind, Option.bind_eq_some_iff]
    constructor
    · rintro ⟨entry, hfind, hf⟩
      obtain ⟨hmem, -, hmax⟩ := find?_eq_some_iff.mp hfind
      refine ⟨entry.1, by rw [get_eq_some.mpr hmem]; exact hf, ?_⟩
      intro other hother
      obtain ⟨answer, hanswer⟩ := Option.isSome_iff_exists.mp hother
      obtain ⟨value, hvalue, hf⟩ := Option.bind_eq_some_iff.mp hanswer
      rcases hmax (other, value) (get_eq_some.mp hvalue) (by rw [hf]; rfl) with heq | hlt
      · exact Or.inl (congrArg Prod.fst heq)
      · exact Or.inr hlt
    · rintro ⟨key, hkey, hmax⟩
      obtain ⟨value, hvalue, hf⟩ := Option.bind_eq_some_iff.mp hkey
      refine ⟨(key, value), find?_eq_some_iff.mpr ⟨get_eq_some.mp hvalue, by rw [hf]; rfl, ?_⟩, hf⟩
      intro other hother hpass
      have hget : m.get other.1 = some other.2 := get_eq_some.mpr hother
      rcases hmax other.1 (by rw [hget]; exact hpass) with heq | hlt
      · rw [heq, hvalue] at hget
        exact Or.inl (Prod.ext heq (Option.some.inj hget).symm)
      · exact Or.inr hlt
  apply Option.ext
  intro answer
  rw [hanswer, hanswer]
  simp only [h]

end RankedMap

end BetterWebBrowser.Framework
