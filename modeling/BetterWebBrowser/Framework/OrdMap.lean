import Mathlib.Data.List.Induction
import Mathlib.Data.List.Pairwise
import Mathlib.Order.Basic
import Mathlib.Order.Lattice
import Mathlib.Algebra.BigOperators.Group.List.Basic
import Mathlib.Tactic.SplitIfs
import Mathlib.Algebra.Ring.Int.Defs
import Mathlib.Data.Nat.Cast.Basic

/-!
# Finite maps kept in key order

A map is its list of entries with strictly increasing keys, so two maps with the same
lookups are equal and iteration order is the key order. `weight` sums a cost over the
entries; the byte and entry quotas of a client are weights.
-/

namespace BetterWebBrowser.Framework

variable {K V : Type*} [LinearOrder K]

/-- Strictly increasing keys; each key occurs at most once. -/
def KeySorted (l : List (K × V)) : Prop := l.Pairwise fun a b => a.1 < b.1

/-- Value of the first entry with key `k`. -/
def lookupEntry (k : K) : List (K × V) → Option V
  | [] => none
  | e :: l => if k = e.1 then some e.2 else lookupEntry k l

/-- Insertion in key order; an entry with the same key is replaced. -/
def insertEntry (k : K) (v : V) : List (K × V) → List (K × V)
  | [] => [(k, v)]
  | e :: l =>
    if k < e.1 then (k, v) :: e :: l
    else if k = e.1 then (k, v) :: l
    else e :: insertEntry k v l

def eraseEntry (k : K) (l : List (K × V)) : List (K × V) := l.filter fun e => decide (e.1 ≠ k)

private theorem mem_insertEntry {k : K} {v : V} {l : List (K × V)} {e : K × V}
    (h : e ∈ insertEntry k v l) : e = (k, v) ∨ e ∈ l := by
  induction l with
  | nil => simpa [insertEntry] using h
  | cons a l ih =>
    rw [insertEntry] at h
    split_ifs at h with hlt heq
    · rcases List.mem_cons.mp h with h | h
      · exact Or.inl h
      · exact Or.inr h
    · rcases List.mem_cons.mp h with h | h
      · exact Or.inl h
      · exact Or.inr (List.mem_cons_of_mem _ h)
    · rcases List.mem_cons.mp h with h | h
      · exact Or.inr (h ▸ List.mem_cons_self)
      · exact (ih h).imp_right (List.mem_cons_of_mem _)

private theorem keySorted_insertEntry (k : K) (v : V) {l : List (K × V)} (h : KeySorted l) :
    KeySorted (insertEntry k v l) := by
  induction l with
  | nil => simp [insertEntry, KeySorted]
  | cons a l ih =>
    have ha := (List.pairwise_cons.mp h).1
    have hl := (List.pairwise_cons.mp h).2
    rw [insertEntry]
    split_ifs with hlt heq
    · refine List.pairwise_cons.mpr ⟨?_, h⟩
      intro e he
      rcases List.mem_cons.mp he with rfl | he
      · exact hlt
      · exact hlt.trans (ha e he)
    · exact List.pairwise_cons.mpr ⟨fun e he => heq ▸ ha e he, hl⟩
    · refine List.pairwise_cons.mpr ⟨?_, ih hl⟩
      intro e he
      rcases mem_insertEntry he with rfl | he
      · exact lt_of_le_of_ne (not_lt.mp hlt) (Ne.symm heq)
      · exact ha e he

private theorem lookupEntry_insertEntry_self (k : K) (v : V) (l : List (K × V)) :
    lookupEntry k (insertEntry k v l) = some v := by
  induction l with
  | nil => simp [insertEntry, lookupEntry]
  | cons a l ih =>
    rw [insertEntry]
    split_ifs with hlt heq
    · simp [lookupEntry]
    · simp [lookupEntry]
    · simp [lookupEntry, heq, ih]

private theorem lookupEntry_insertEntry_ne {k j : K} (v : V) (l : List (K × V)) (h : j ≠ k) :
    lookupEntry j (insertEntry k v l) = lookupEntry j l := by
  induction l with
  | nil => simp [insertEntry, lookupEntry, h]
  | cons a l ih =>
    rw [insertEntry]
    split_ifs with hlt heq
    · simp [lookupEntry, h]
    · subst heq; simp [lookupEntry, h]
    · simp [lookupEntry, ih]

private theorem lookupEntry_eraseEntry_self (k : K) (l : List (K × V)) :
    lookupEntry k (eraseEntry k l) = none := by
  induction l with
  | nil => rfl
  | cons a l ih =>
    by_cases ha : a.1 = k
    · simpa [eraseEntry, ha] using ih
    · have hk : k ≠ a.1 := Ne.symm ha
      simpa [eraseEntry, ha, lookupEntry, hk] using ih

private theorem lookupEntry_eraseEntry_ne {k j : K} (l : List (K × V)) (h : j ≠ k) :
    lookupEntry j (eraseEntry k l) = lookupEntry j l := by
  induction l with
  | nil => rfl
  | cons a l ih =>
    by_cases ha : a.1 = k
    · have hj : j ≠ a.1 := fun hj => h (hj.trans ha)
      simpa [eraseEntry, ha, lookupEntry, hj, h] using ih
    · by_cases hj : j = a.1
      · simp [eraseEntry, ha, lookupEntry, hj]
      · simpa [eraseEntry, ha, lookupEntry, hj] using ih

private theorem lookupEntry_eq_none_of_lt {k : K} {l : List (K × V)}
    (h : ∀ e ∈ l, k < e.1) : lookupEntry k l = none := by
  induction l with
  | nil => rfl
  | cons a l ih =>
    have ha : k ≠ a.1 := (h a List.mem_cons_self).ne
    simp [lookupEntry, ha, ih fun e he => h e (List.mem_cons_of_mem _ he)]

private theorem keySorted_ext {l m : List (K × V)} (hl : KeySorted l) (hm : KeySorted m)
    (h : ∀ k, lookupEntry k l = lookupEntry k m) : l = m := by
  induction l generalizing m with
  | nil =>
    cases m with
    | nil => rfl
    | cons b m => simpa [lookupEntry] using h b.1
  | cons a l ih =>
    cases m with
    | nil => simpa [lookupEntry] using h a.1
    | cons b m =>
      have ha := List.pairwise_cons.mp hl
      have hb := List.pairwise_cons.mp hm
      have hkey : a.1 = b.1 := by
        rcases lt_trichotomy a.1 b.1 with hab | hab | hab
        · have hnone : lookupEntry a.1 (b :: m) = none := by
            apply lookupEntry_eq_none_of_lt
            intro e he
            rcases List.mem_cons.mp he with rfl | he
            · exact hab
            · exact hab.trans (hb.1 e he)
          rw [← h a.1] at hnone
          simp [lookupEntry] at hnone
        · exact hab
        · have hnone : lookupEntry b.1 (a :: l) = none := by
            apply lookupEntry_eq_none_of_lt
            intro e he
            rcases List.mem_cons.mp he with rfl | he
            · exact hab
            · exact hab.trans (ha.1 e he)
          rw [h b.1] at hnone
          simp [lookupEntry] at hnone
      have hval : a.2 = b.2 := by simpa [lookupEntry, hkey] using h a.1
      have htail : ∀ k, lookupEntry k l = lookupEntry k m := by
        intro k
        by_cases hk : k = a.1
        · rw [lookupEntry_eq_none_of_lt fun e he => hk ▸ ha.1 e he,
            lookupEntry_eq_none_of_lt fun e he => hk ▸ hkey ▸ hb.1 e he]
        · have hkb : k ≠ b.1 := hkey ▸ hk
          simpa [lookupEntry, hk, hkb] using h k
      rw [ih ha.2 hb.2 htail, Prod.ext hkey hval]

/-- A finite map with its entries in key order. -/
structure OrdMap (K V : Type*) [LinearOrder K] where
  entries : List (K × V)
  sorted : KeySorted entries

namespace OrdMap

instance [DecidableEq V] : DecidableEq (OrdMap K V) := fun m n =>
  decidable_of_iff (m.entries = n.entries) (by cases m; cases n; simp)

def empty : OrdMap K V := ⟨[], List.Pairwise.nil⟩

instance : Inhabited (OrdMap K V) := ⟨empty⟩

def get (m : OrdMap K V) (k : K) : Option V := lookupEntry k m.entries

def contains (m : OrdMap K V) (k : K) : Bool := (m.get k).isSome

def insert (m : OrdMap K V) (k : K) (v : V) : OrdMap K V :=
  ⟨insertEntry k v m.entries, keySorted_insertEntry k v m.sorted⟩

def erase (m : OrdMap K V) (k : K) : OrdMap K V :=
  ⟨eraseEntry k m.entries, List.Pairwise.filter _ m.sorted⟩

def len (m : OrdMap K V) : Nat := m.entries.length

def isEmpty (m : OrdMap K V) : Bool := m.entries.isEmpty

/-- Insert the entries of a list from left to right; a later entry replaces an earlier one. -/
def ofList (l : List (K × V)) : OrdMap K V := l.foldl (fun m e => m.insert e.1 e.2) empty

@[simp] theorem get_empty (k : K) : (empty : OrdMap K V).get k = none := rfl

@[simp] theorem get_insert_self (m : OrdMap K V) (k : K) (v : V) : (m.insert k v).get k = some v :=
  lookupEntry_insertEntry_self k v m.entries

theorem get_insert_ne (m : OrdMap K V) {k j : K} (v : V) (h : j ≠ k) :
    (m.insert k v).get j = m.get j :=
  lookupEntry_insertEntry_ne v m.entries h

theorem get_insert (m : OrdMap K V) (k j : K) (v : V) :
    (m.insert k v).get j = if j = k then some v else m.get j := by
  split_ifs with h
  · subst h; exact get_insert_self m j v
  · exact get_insert_ne m v h

@[simp] theorem get_erase_self (m : OrdMap K V) (k : K) : (m.erase k).get k = none :=
  lookupEntry_eraseEntry_self k m.entries

theorem get_erase_ne (m : OrdMap K V) {k j : K} (h : j ≠ k) : (m.erase k).get j = m.get j :=
  lookupEntry_eraseEntry_ne m.entries h

theorem get_erase (m : OrdMap K V) (k j : K) :
    (m.erase k).get j = if j = k then none else m.get j := by
  split_ifs with h
  · subst h; exact get_erase_self m j
  · exact get_erase_ne m h

theorem ext_entries {m n : OrdMap K V} (h : m.entries = n.entries) : m = n := by
  cases m
  cases n
  simp_all

/-- Maps with the same lookups are equal. -/
theorem ext_get {m n : OrdMap K V} (h : ∀ k, m.get k = n.get k) : m = n :=
  ext_entries (keySorted_ext m.sorted n.sorted h)

theorem insert_get_eq (m : OrdMap K V) {k : K} {v : V} (h : m.get k = some v) :
    m.insert k v = m := by
  apply ext_get
  intro j
  rw [get_insert]
  split_ifs with hj
  · rw [hj, h]
  · rfl

theorem insert_insert (m : OrdMap K V) (k : K) (v w : V) :
    (m.insert k v).insert k w = m.insert k w := by
  apply ext_get
  intro j
  by_cases hj : j = k <;> simp [get_insert, hj]

theorem erase_eq_of_get_none (m : OrdMap K V) {k : K} (h : m.get k = none) : m.erase k = m := by
  apply ext_get
  intro j
  rw [get_erase]
  split_ifs with hj
  · rw [hj, h]
  · rfl

theorem erase_insert (m : OrdMap K V) (k : K) (v : V) : (m.insert k v).erase k = m.erase k := by
  refine ext_get fun j => ?_
  rw [get_erase, get_erase]
  by_cases h : j = k
  · rw [if_pos h, if_pos h]
  · rw [if_neg h, if_neg h, get_insert_ne m v h]

theorem erase_insert_of_ne (m : OrdMap K V) {k j : K} (v : V) (h : k ≠ j) :
    (m.insert k v).erase j = (m.erase j).insert k v := by
  refine ext_get fun i => ?_
  rw [get_erase, get_insert, get_insert, get_erase]
  by_cases hi : i = j
  · rw [if_pos hi, if_pos hi, if_neg (fun hk => h (hk.symm.trans hi))]
  · rw [if_neg hi, if_neg hi]

theorem erase_erase_comm (m : OrdMap K V) (k j : K) : (m.erase k).erase j = (m.erase j).erase k := by
  refine ext_get fun i => ?_
  rw [get_erase, get_erase, get_erase, get_erase]
  by_cases hk : i = k
  · rw [if_pos hk, if_pos hk, ite_self]
  · rw [if_neg hk, if_neg hk]

theorem mem_entries_iff_get (m : OrdMap K V) (k : K) (v : V) :
    (k, v) ∈ m.entries ↔ m.get k = some v := by
  obtain ⟨l, hl⟩ := m
  change (k, v) ∈ l ↔ lookupEntry k l = some v
  induction l with
  | nil => simp [lookupEntry]
  | cons a l ih =>
    have ha := List.pairwise_cons.mp hl
    by_cases hk : k = a.1
    · have hnot : (k, v) ∉ l := fun h => absurd (ha.1 _ h) (by simp [hk])
      obtain ⟨key, value⟩ := a
      simp only at hk
      subst hk
      simp [hnot, lookupEntry, eq_comm]
    · have hne : (k, v) ≠ a := fun h => hk (by rw [← h])
      simp only [List.mem_cons, hne, false_or, lookupEntry, hk, if_false]
      exact ih ha.2

/-- Entries below the key stay in front. -/
theorem insertEntry_append {k : K} (v : V) {l : List (K × V)} (h : ∀ e ∈ l, e.1 < k)
    (rest : List (K × V)) : insertEntry k v (l ++ rest) = l ++ insertEntry k v rest := by
  induction l with
  | nil => rfl
  | cons a l ih =>
    have ha := h a List.mem_cons_self
    rw [List.cons_append, insertEntry, if_neg ha.not_gt, if_neg ha.ne',
      ih fun e he => h e (List.mem_cons_of_mem _ he)]
    rfl

private theorem insertEntry_of_lt {k : K} (v : V) {l : List (K × V)} (h : ∀ e ∈ l, e.1 < k) :
    insertEntry k v l = l ++ [(k, v)] := by
  induction l with
  | nil => rfl
  | cons a l ih =>
    have ha := h a List.mem_cons_self
    rw [insertEntry, if_neg ha.not_gt, if_neg ha.ne', ih fun e he => h e (List.mem_cons_of_mem _ he)]
    rfl

private theorem ofList_entries_of_sorted (l : List (K × V)) (h : KeySorted l) :
    (ofList l).entries = l := by
  induction l using List.reverseRecOn with
  | nil => rfl
  | append_singleton l e ih =>
    have hl := List.pairwise_append.mp h
    have hstep : ofList (l ++ [e]) = (ofList l).insert e.1 e.2 := by simp [ofList]
    rw [hstep]
    change insertEntry e.1 e.2 (ofList l).entries = _
    rw [ih hl.1, insertEntry_of_lt e.2 fun a ha => hl.2.2 a ha e List.mem_cons_self]

/-- Rebuilding a map from its own entries gives the map back. -/
@[simp] theorem ofList_entries (m : OrdMap K V) : ofList m.entries = m :=
  ext_entries (ofList_entries_of_sorted m.entries m.sorted)

/-- Keep the entries whose keys a predicate accepts. -/
def filterKeys (m : OrdMap K V) (p : K → Prop) [DecidablePred p] : OrdMap K V :=
  ⟨m.entries.filter fun e => p e.1, List.Pairwise.filter _ m.sorted⟩

/-! ## Several entries at once -/

/-- Insert a list of entries from left to right. -/
def insertAll (m : OrdMap K V) (l : List (K × V)) : OrdMap K V :=
  l.foldl (fun m e => m.insert e.1 e.2) m

def eraseAll (m : OrdMap K V) (keys : List K) : OrdMap K V := keys.foldl erase m

theorem get_eraseAll (m : OrdMap K V) (keys : List K) (j : K) :
    (m.eraseAll keys).get j = if j ∈ keys then none else m.get j := by
  induction keys generalizing m with
  | nil => simp [eraseAll]
  | cons k keys ih =>
    have hstep : m.eraseAll (k :: keys) = (m.erase k).eraseAll keys := rfl
    rw [hstep, ih, get_erase]
    by_cases hk : j = k <;> simp [hk]

/-- A list of entries hides the map under it. -/
theorem get_insertAll (m : OrdMap K V) (l : List (K × V)) (j : K) :
    (m.insertAll l).get j = ((ofList l).get j).or (m.get j) := by
  induction l using List.reverseRecOn with
  | nil => simp [insertAll, ofList]
  | append_singleton l e ih =>
    have hinsert : m.insertAll (l ++ [e]) = (m.insertAll l).insert e.1 e.2 := by simp [insertAll]
    have hofList : ofList (l ++ [e]) = (ofList l).insert e.1 e.2 := by simp [ofList]
    rw [hinsert, hofList, get_insert, get_insert]
    split_ifs
    · rfl
    · exact ih

theorem contains_ofList (l : List (K × V)) (j : K) :
    (ofList l).contains j = true ↔ j ∈ l.map Prod.fst := by
  induction l using List.reverseRecOn with
  | nil => simp [ofList, contains]
  | append_singleton l e ih =>
    have hofList : ofList (l ++ [e]) = (ofList l).insert e.1 e.2 := by simp [ofList]
    rw [hofList, contains, get_insert]
    by_cases hj : j = e.1
    · simp [hj]
    · simpa [hj, contains] using ih

theorem insertAll_append (m : OrdMap K V) (l l' : List (K × V)) :
    m.insertAll (l ++ l') = (m.insertAll l).insertAll l' := by
  simp [insertAll]

/-- Dropping all entries of some keys drops exactly their lookups. -/
theorem get_ofList_filter (p : K → Bool) (l : List (K × V)) (j : K) :
    (ofList (l.filter fun e => p e.1)).get j = if p j then (ofList l).get j else none := by
  induction l using List.reverseRecOn with
  | nil => simp [ofList]
  | append_singleton l e ih =>
    have hofList : ofList (l ++ [e]) = (ofList l).insert e.1 e.2 := by simp [ofList]
    rw [List.filter_append, hofList, get_insert]
    by_cases he : p e.1 = true
    · have hfilter : ofList ((l.filter fun e => p e.1) ++ [e].filter fun e => p e.1) =
          (ofList (l.filter fun e => p e.1)).insert e.1 e.2 := by simp [ofList, he]
      rw [hfilter, get_insert, ih]
      by_cases hj : j = e.1
      · simp [hj, he]
      · simp [hj]
    · have hfilter : (l.filter fun e => p e.1) ++ [e].filter (fun e => p e.1) =
          l.filter fun e => p e.1 := by simp [he]
      rw [hfilter, ih]
      by_cases hj : j = e.1
      · simp [hj, he]
      · simp [hj]

/-- The first value of each key, keys of `seen` left out: a loop that keeps a value when its
key goes into a set. -/
def retainFirst {A : Type*} (key : A → K) (seen : List K) : List A → List A
  | [] => []
  | a :: l =>
    if key a ∈ seen then retainFirst key seen l else a :: retainFirst key (key a :: seen) l

/-- Inserting the last value of each key has the effect of inserting all of them. -/
theorem get_insertAll_retainFirst {A : Type*} (key : A → K) (value : A → V) (seen : List K)
    (l : List A) (m : OrdMap K V) (j : K) :
    (m.insertAll ((retainFirst key seen l).reverse.map fun a => (key a, value a))).get j =
      if j ∈ seen then m.get j
      else (m.insertAll (l.reverse.map fun a => (key a, value a))).get j := by
  induction l generalizing seen with
  | nil => simp [retainFirst, insertAll]
  | cons a l ih =>
    have hall : m.insertAll ((a :: l).reverse.map fun a => (key a, value a)) =
        (m.insertAll (l.reverse.map fun a => (key a, value a))).insert (key a) (value a) := by
      simp [insertAll]
    rw [hall, get_insert, retainFirst]
    by_cases hseen : key a ∈ seen
    · rw [if_pos hseen, ih]
      split_ifs with hj hja
      · rfl
      · exact absurd (hja ▸ hseen) hj
      · rfl
    · have hlast : m.insertAll ((a :: retainFirst key (key a :: seen) l).reverse.map
          fun a => (key a, value a)) = (m.insertAll ((retainFirst key (key a :: seen) l).reverse.map
            fun a => (key a, value a))).insert (key a) (value a) := by
        simp [insertAll]
      rw [if_neg hseen, hlast, get_insert, ih]
      by_cases hja : j = key a
      · simp [hja, hseen]
      · simp [hja]

theorem mem_map_retainFirst {A : Type*} (key : A → K) (seen : List K) (l : List A) (k : K) :
    k ∈ (retainFirst key seen l).map key ↔ k ∉ seen ∧ k ∈ l.map key := by
  induction l generalizing seen with
  | nil => simp [retainFirst]
  | cons a l ih =>
    rw [retainFirst]
    by_cases hseen : key a ∈ seen
    · rw [if_pos hseen, ih, List.map_cons, List.mem_cons]
      constructor
      · exact fun h => ⟨h.1, .inr h.2⟩
      · rintro ⟨hk, rfl | hmem⟩
        · exact absurd hseen hk
        · exact ⟨hk, hmem⟩
    · rw [if_neg hseen, List.map_cons, List.mem_cons, ih, List.map_cons, List.mem_cons, List.mem_cons]
      by_cases hk : k = key a
      · subst hk
        simp [hseen]
      · simp [hk]

theorem nodup_map_retainFirst {A : Type*} (key : A → K) (seen : List K) (l : List A) :
    ((retainFirst key seen l).map key).Nodup := by
  induction l generalizing seen with
  | nil => exact List.nodup_nil
  | cons a l ih =>
    rw [retainFirst]
    split
    next => exact ih seen
    next =>
      rw [List.map_cons, List.nodup_cons, mem_map_retainFirst]
      exact ⟨fun h => h.1 (List.mem_cons_self ..), ih _⟩

theorem retainFirst_sublist {A : Type*} (key : A → K) (seen : List K) (l : List A) :
    (retainFirst key seen l).Sublist l := by
  induction l generalizing seen with
  | nil => exact List.Sublist.refl _
  | cons a l ih =>
    rw [retainFirst]
    split
    next => exact (ih seen).cons a
    next => exact (ih _).cons_cons a

/-! ## Maps of values -/

section MapValues

variable {W : Type*}

private theorem keySorted_mapValues (f : K → V → W) {l : List (K × V)} (h : KeySorted l) :
    KeySorted (l.map fun e => (e.1, f e.1 e.2)) :=
  List.pairwise_map.mpr h

/-- The same keys with other values. -/
def mapValues (f : K → V → W) (m : OrdMap K V) : OrdMap K W :=
  ⟨m.entries.map fun e => (e.1, f e.1 e.2), keySorted_mapValues f m.sorted⟩

private theorem lookupEntry_mapValues (f : K → V → W) (k : K) (l : List (K × V)) :
    lookupEntry k (l.map fun e => (e.1, f e.1 e.2)) = (lookupEntry k l).map (f k) := by
  induction l with
  | nil => rfl
  | cons e l ih =>
    rw [List.map_cons, lookupEntry, lookupEntry]
    by_cases h : k = e.1
    · rw [if_pos h, if_pos h, h]
      rfl
    · rw [if_neg h, if_neg h, ih]

theorem get_mapValues (f : K → V → W) (m : OrdMap K V) (k : K) :
    (m.mapValues f).get k = (m.get k).map (f k) :=
  lookupEntry_mapValues f k m.entries

end MapValues

/-! ## Sets -/

/-- Keys of a map, in order. -/
def keys (m : OrdMap K V) : List K := m.entries.map Prod.fst

theorem mem_keys (m : OrdMap K V) (k : K) : k ∈ m.keys ↔ m.contains k = true := by
  rw [keys, ← contains_ofList, ofList_entries]

theorem nodup_keys (m : OrdMap K V) : m.keys.Nodup :=
  List.pairwise_map.mpr (m.sorted.imp fun h => ne_of_lt h)

/-- The set of a list, as a map to nothing. -/
def setOf (l : List K) : OrdMap K Unit := ofList (l.map fun k => (k, ()))

theorem contains_setOf (l : List K) (k : K) : (setOf l).contains k = true ↔ k ∈ l := by
  rw [setOf, contains_ofList]
  simp

theorem contains_insert (m : OrdMap K V) (k j : K) (v : V) :
    (m.insert k v).contains j = true ↔ j = k ∨ m.contains j = true := by
  rw [contains, get_insert]
  by_cases h : j = k <;> simp [h, contains]

theorem contains_erase (m : OrdMap K V) (k j : K) :
    (m.erase k).contains j = true ↔ j ≠ k ∧ m.contains j = true := by
  rw [contains, get_erase]
  by_cases h : j = k <;> simp [h, contains]

/-- Total cost of the entries. -/
def weight (f : K → V → Nat) (m : OrdMap K V) : Nat := (m.entries.map fun e => f e.1 e.2).sum

@[simp] theorem weight_empty (f : K → V → Nat) : (empty : OrdMap K V).weight f = 0 := rfl

theorem len_eq_weight (m : OrdMap K V) : m.len = m.weight fun _ _ => 1 := by
  rw [len, weight]
  generalize m.entries = entries
  induction entries with
  | nil => rfl
  | cons entry entries ih => rw [List.length_cons, List.map_cons, List.sum_cons, ← ih, Nat.add_comm]

private theorem lookupEntry_none_tail {k : K} {a : K × V} {l : List (K × V)} (hk : k ≠ a.1)
    (h : lookupEntry k (a :: l) = none) : lookupEntry k l = none := by
  simpa [lookupEntry, hk] using h

private theorem sum_insertEntry_none (f : K → V → Nat) {k : K} (v : V) {l : List (K × V)}
    (h : lookupEntry k l = none) :
    ((insertEntry k v l).map fun e => f e.1 e.2).sum =
      (l.map fun e => f e.1 e.2).sum + f k v := by
  induction l with
  | nil => simp [insertEntry]
  | cons a l ih =>
    have hk : k ≠ a.1 := by
      intro hk
      simp [lookupEntry, hk] at h
    rw [insertEntry]
    split_ifs with hlt
    · simp only [List.map_cons, List.sum_cons]
      omega
    · simp only [List.map_cons, List.sum_cons, ih (lookupEntry_none_tail hk h)]
      omega

private theorem sum_insertEntry_some (f : K → V → Nat) {k : K} (v : V) {w : V}
    {l : List (K × V)} (hl : KeySorted l) (h : lookupEntry k l = some w) :
    ((insertEntry k v l).map fun e => f e.1 e.2).sum + f k w =
      (l.map fun e => f e.1 e.2).sum + f k v := by
  induction l with
  | nil => simp [lookupEntry] at h
  | cons a l ih =>
    have ha := List.pairwise_cons.mp hl
    rw [insertEntry]
    by_cases hk : k = a.1
    · have hw : a.2 = w := by simpa [lookupEntry, hk] using h
      subst hk hw
      simp only [lt_irrefl, if_false, if_true, List.map_cons, List.sum_cons]
      omega
    · have htail : lookupEntry k l = some w := by simpa [lookupEntry, hk] using h
      have hlt : ¬ k < a.1 := by
        intro hlt
        rw [lookupEntry_eq_none_of_lt fun e he => hlt.trans (ha.1 e he)] at htail
        cases htail
      simp only [hlt, hk, if_false, List.map_cons, List.sum_cons]
      have := ih ha.2 htail
      omega

private theorem sum_eraseEntry (f : K → V → Nat) {k : K} {w : V} {l : List (K × V)}
    (hl : KeySorted l) (h : lookupEntry k l = some w) :
    ((eraseEntry k l).map fun e => f e.1 e.2).sum + f k w =
      (l.map fun e => f e.1 e.2).sum := by
  induction l with
  | nil => simp [lookupEntry] at h
  | cons a l ih =>
    have ha := List.pairwise_cons.mp hl
    by_cases hk : k = a.1
    · have hw : a.2 = w := by simpa [lookupEntry, hk] using h
      have htail : eraseEntry k l = l := by
        apply List.filter_eq_self.mpr
        intro e he
        have := (ha.1 e he).ne'
        simpa [hk] using this
      have hcons : eraseEntry k (a :: l) = eraseEntry k l := by simp [eraseEntry, hk]
      rw [hcons, htail, hk, ← hw]
      simp only [List.map_cons, List.sum_cons]
      omega
    · have htail : lookupEntry k l = some w := by simpa [lookupEntry, hk] using h
      have hcons : eraseEntry k (a :: l) = a :: eraseEntry k l := by
        have : a.1 ≠ k := Ne.symm hk
        simp [eraseEntry, this]
      rw [hcons]
      simp only [List.map_cons, List.sum_cons]
      have := ih ha.2 htail
      omega

theorem weight_insert_of_none (f : K → V → Nat) {m : OrdMap K V} {k : K} (v : V)
    (h : m.get k = none) : (m.insert k v).weight f = m.weight f + f k v :=
  sum_insertEntry_none f v h

theorem weight_insert_of_some (f : K → V → Nat) {m : OrdMap K V} {k : K} (v : V) {w : V}
    (h : m.get k = some w) : (m.insert k v).weight f + f k w = m.weight f + f k v :=
  sum_insertEntry_some f v m.sorted h

theorem weight_erase_of_some (f : K → V → Nat) {m : OrdMap K V} {k : K} {w : V}
    (h : m.get k = some w) : (m.erase k).weight f + f k w = m.weight f :=
  sum_eraseEntry f m.sorted h

theorem le_weight_of_get (f : K → V → Nat) {m : OrdMap K V} {k : K} {w : V}
    (h : m.get k = some w) : f k w ≤ m.weight f := by
  have := weight_erase_of_some f h
  omega

theorem weight_erase_le (f : K → V → Nat) (m : OrdMap K V) (k : K) :
    (m.erase k).weight f ≤ m.weight f := by
  cases h : m.get k with
  | none => rw [erase_eq_of_get_none m h]
  | some w =>
    have := weight_erase_of_some f h
    omega

theorem isEmpty_iff (m : OrdMap K V) : m.isEmpty = true ↔ m = empty := by
  obtain ⟨l, hl⟩ := m
  cases l with
  | nil => simp [isEmpty, empty]
  | cons a l =>
    have hne : (⟨a :: l, hl⟩ : OrdMap K V) ≠ empty := fun h => by
      simpa [empty] using congrArg OrdMap.entries h
    simp [isEmpty, hne]

end OrdMap

end BetterWebBrowser.Framework
