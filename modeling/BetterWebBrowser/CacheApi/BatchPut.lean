import BetterWebBrowser.CacheApi.Model
import BetterWebBrowser.Persistence.Recovery
import Mathlib.Data.List.Pairwise

/-!
# Batches of entries

A batch is checked for requests that match an earlier entry of it, so that no entry of the
batch is deleted by a later one: what is left of the stored entries comes first and the batch
follows as it is. A command that fails leaves the state as it was.
-/

namespace BetterWebBrowser.CacheApi

open Framework Persistence

namespace Env

variable (env : Env)

/-- Later requests of a batch match none of its earlier entries. -/
def Distinct (entries : List CacheEntry) : Prop :=
  entries.Pairwise fun earlier later => env.matchesEntry later.request earlier .default = false

/-- The stored entries that no request of a batch matches. -/
def unmatched (entries stored : List CacheEntry) : List CacheEntry :=
  stored.filter fun cached => !entries.any fun entry => env.matchesEntry entry.request cached .default

theorem checkDuplicates_ok {previous entries : List CacheEntry}
    (h : env.checkDuplicates previous entries = .ok ()) :
    env.Distinct entries ∧ ∀ earlier ∈ previous, ∀ entry ∈ entries,
      env.matchesEntry entry.request earlier .default = false := by
  induction entries generalizing previous with
  | nil => exact ⟨List.Pairwise.nil, by simp⟩
  | cons entry entries ih =>
    rw [checkDuplicates] at h
    split at h
    · cases h
    · rename_i hnew
      obtain ⟨hrest, hprevious⟩ := ih h
      simp only [List.any_eq_true, not_exists, not_and, Bool.not_eq_true] at hnew
      constructor
      · exact List.Pairwise.cons (hprevious entry (by simp)) hrest
      · intro earlier hearlier later hlater
        rcases List.mem_cons.mp hlater with rfl | hlater
        · exact hnew earlier hearlier
        · exact hprevious earlier (by simp [hearlier]) later hlater

/-- Putting the entries of a batch in turn deletes stored entries only. -/
theorem foldl_putEntry {entries : List CacheEntry} (h : env.Distinct entries) (stored : List CacheEntry) :
    entries.foldl env.putEntry stored = env.unmatched entries stored ++ entries := by
  induction entries generalizing stored with
  | nil => simp [unmatched]
  | cons entry entries ih =>
    obtain ⟨hentry, hrest⟩ := List.pairwise_cons.mp h
    have hkept : env.unmatched entries [entry] = [entry] := by
      simpa [unmatched] using hentry
    rw [List.foldl_cons, ih hrest, putEntry, unmatched, List.filter_append, List.filter_filter]
    rw [unmatched] at hkept
    rw [hkept, List.append_assoc, List.singleton_append, unmatched]
    congr 2
    funext cached
    simp [Bool.and_comm]

end Env

/-! ## Replacing the entries of a cache -/

theorem replaceEntries_comp {name : Str} {f g : List CacheEntry → List CacheEntry}
    {caches replaced : List NamedCache} (h : replaceEntries name f caches = some replaced) :
    replaceEntries name g replaced = replaceEntries name (fun stored => g (f stored)) caches := by
  induction caches generalizing replaced with
  | nil => cases h
  | cons cache caches ih =>
    rw [replaceEntries] at h
    split at h
    · rename_i hname
      obtain rfl := Option.some.inj h
      simp [replaceEntries, hname]
    · rename_i hname
      obtain ⟨rest, hrest, rfl⟩ := Option.map_eq_some_iff.mp h
      simp [replaceEntries, hname, ih hrest]

theorem findCache_replaceEntries {name : Str} {f : List CacheEntry → List CacheEntry}
    {caches replaced : List NamedCache} (h : replaceEntries name f caches = some replaced) :
    (findCache caches name).isSome ∧
      findCache replaced name = (findCache caches name).map (fun cache => ⟨cache.name, f cache.entries⟩) ∧
      ∀ other, other ≠ name → findCache replaced other = findCache caches other := by
  induction caches generalizing replaced with
  | nil => cases h
  | cons cache caches ih =>
    rw [replaceEntries] at h
    split at h
    · rename_i hname
      obtain rfl := Option.some.inj h
      refine ⟨by simp [findCache, hname], by simp [findCache, hname], ?_⟩
      intro other hother
      have hne : ¬ cache.name = other := fun heq => hother (heq ▸ hname)
      simp [findCache, hne]
    · rename_i hname
      obtain ⟨rest, hrest, rfl⟩ := Option.map_eq_some_iff.mp h
      obtain ⟨hsome, hnamed, hothers⟩ := ih hrest
      refine ⟨by simpa [findCache, hname] using hsome, by simpa [findCache, hname] using hnamed, ?_⟩
      intro other hother
      by_cases hcache : cache.name = other
      · simp [findCache, hcache]
      · simpa [findCache, hcache] using hothers other hother

@[simp] theorem cachesOf_insert (state : State) (origin : Str) (caches : List NamedCache) :
    cachesOf (state.insert origin caches) origin = caches := by
  simp [cachesOf]

namespace Env

variable {env : Env}

theorem put_ok {name : Str} {entries : List CacheEntry} {caches : List NamedCache} {effect : Effect}
    (h : env.put name entries caches = .ok effect) :
    (entries = [] ∧ effect = ⟨caches, .null, false⟩) ∨
      (entries ≠ [] ∧ env.Distinct entries ∧ ∃ replaced,
        replaceEntries name (fun stored => entries.foldl env.putEntry stored) caches = some replaced ∧
        effect = ⟨replaced, .null, true⟩) := by
  rw [put] at h
  cases hname : validateName name with
  | error error => rw [hname] at h; cases h
  | ok =>
    by_cases hempty : entries = []
    · rw [hname, if_pos hempty] at h
      exact Or.inl ⟨hempty, (Except.ok.inj h).symm⟩
    · rw [hname, if_neg hempty] at h
      cases hvalid : entries.forM env.validateEntry with
      | error error => rw [hvalid] at h; cases h
      | ok =>
        cases hdistinct : env.checkDuplicates [] entries with
        | error error => rw [hvalid, hdistinct] at h; cases h
        | ok =>
          cases hreplaced : replaceEntries name (fun stored => entries.foldl env.putEntry stored) caches with
          | none => rw [hvalid, hdistinct, hreplaced] at h; cases h
          | some replaced =>
            rw [hvalid, hdistinct, hreplaced] at h
            have hdistinct := (env.checkDuplicates_ok hdistinct).1
            exact Or.inr ⟨hempty, hdistinct, replaced, rfl, (Except.ok.inj h).symm⟩

/-- Opening and putting reply `null` in any case; a command that reads changes nothing. -/
def ReportsNoChange : CacheCommand → CacheReply → Prop
  | .Open _, _ | .Put _ _, _ => False
  | .DeleteCache _, reply | .DeleteEntry _ _ _, reply => reply = .bool false
  | _, _ => True

theorem effect_unchanged {command : CacheCommand} {caches : List NamedCache} {effect : Effect}
    (h : env.effect command caches = .ok effect) (hreports : ReportsNoChange command effect.reply) :
    effect.changed = false := by
  cases command with
  | Open name => exact absurd hreports id
  | Put name entries => exact absurd hreports id
  | DeleteCache name =>
    cases h
    exact CacheReply.bool.inj hreports
  | DeleteEntry name request options =>
    cases h
    rw [ReportsNoChange, deleteEntry] at hreports
    rw [deleteEntry]
    split
    · rename_i hcache hkept
      rw [hcache, hkept] at hreports
      exact CacheReply.bool.inj hreports
    · rfl
  | _ => cases h; rfl

end Env

/-! ## Commands -/

namespace CacheStorage

variable {env : Env} {origin : Str} {command : CacheCommand} {fates : List (Fate IoError)}
  {storage : CacheStorage} {disk : Disk}

/-- An error that comes from none of the file-system calls. -/
def NotIo (env : Env) (error : CacheError) : Prop := ∀ io, error ≠ .Persistence (env.ioError io)

/-- The disk after a failed command: only a failed write can have touched it. -/
structure Preserved (env : Env) (error : CacheError) (before after : Disk) : Prop where
  kept : Kept before after
  same : NotIo env error → after = before

theorem Preserved.unchanged {error : CacheError} : Preserved env error disk disk := ⟨Or.inl rfl, fun _ => rfl⟩

theorem write_error {path : StorePath} {state : State} {error : CacheError} {final : Disk}
    (h : write env path state fates disk = (final, some (.error error))) :
    Preserved env error disk final := by
  rw [write] at h
  split at h
  · cases h; exact Preserved.unchanged
  · split at h
    · cases h; exact Preserved.unchanged
    · split at h
      · cases h
      · rename_i ioError hrun
        cases h
        exact ⟨writeRecoverable_error hrun, fun hnot => absurd rfl (hnot ioError)⟩
      · cases h

theorem commit_ok {candidate : State} {reply given : CacheReply}
    (h : (commit env candidate given fates storage disk).result = some (.ok reply)) :
    (commit env candidate given fates storage disk).storage = storage.withState candidate ∧ reply = given := by
  unfold commit at h ⊢
  cases hvalid : env.validate candidate MAX_ORIGIN_BYTES MAX_TOTAL_BYTES with
  | error error => simp [hvalid] at h
  | ok =>
    cases hpath : storage.path with
    | none =>
      simp only [hvalid, hpath] at h
      exact ⟨rfl, (Except.ok.inj (Option.some.inj h)).symm⟩
    | some path =>
      simp only [hvalid, hpath] at h ⊢
      split at h
      · cases h
      · cases h
      · exact ⟨rfl, (Except.ok.inj (Option.some.inj h)).symm⟩

theorem commit_error {candidate : State} {given : CacheReply} {error : CacheError}
    (h : (commit env candidate given fates storage disk).result = some (.error error)) :
    (commit env candidate given fates storage disk).storage = storage ∧
      Preserved env error disk (commit env candidate given fates storage disk).disk := by
  unfold commit at h ⊢
  cases hvalid : env.validate candidate MAX_ORIGIN_BYTES MAX_TOTAL_BYTES with
  | error error => exact ⟨rfl, Preserved.unchanged⟩
  | ok =>
    cases hpath : storage.path with
    | none => simp [hvalid, hpath] at h
    | some path =>
      simp only [hvalid, hpath] at h ⊢
      split at h
      · cases h
      · rename_i hwrite
        cases h
        exact ⟨rfl, write_error hwrite⟩
      · cases h

/-- A storage that holds its state does not read the file. -/
@[simp] theorem ensureLoaded_withState (state : State) :
    (storage.withState state).ensureLoaded env disk = .ok state := rfl

theorem execute_ok {reply : CacheReply}
    (h : (execute env origin command fates storage disk).result = some (.ok reply)) :
    ∃ old effect, storage.ensureLoaded env disk = .ok old ∧
      env.effect command (cachesOf old origin) = .ok effect ∧ reply = effect.reply ∧
      ∀ after, (execute env origin command fates storage disk).storage.ensureLoaded env after =
        .ok (if effect.changed then old.insert origin effect.caches else old) := by
  unfold execute at h ⊢
  cases horigin : env.checkOrigin origin with
  | error error => simp [horigin] at h
  | ok =>
    cases hload : storage.ensureLoaded env disk with
    | error error => simp [horigin, hload] at h
    | ok old =>
      cases heffect : env.effect command (cachesOf old origin) with
      | error error => simp [horigin, hload, heffect] at h
      | ok effect =>
        simp only [horigin, hload, heffect] at h ⊢
        split at h
        · rename_i hchanged
          obtain ⟨hstorage, hreply⟩ := commit_ok h
          refine ⟨old, effect, rfl, heffect, hreply, fun after => ?_⟩
          rw [if_pos hchanged, if_pos hchanged, hstorage]
          rfl
        · rename_i hsame
          refine ⟨old, effect, rfl, heffect, (Except.ok.inj (Option.some.inj h)).symm, fun after => ?_⟩
          rw [if_neg hsame, if_neg hsame]
          rfl

theorem execute_error {error : CacheError}
    (h : (execute env origin command fates storage disk).result = some (.error error)) :
    (execute env origin command fates storage disk).storage.ensureLoaded env
        (execute env origin command fates storage disk).disk = storage.ensureLoaded env disk ∧
      Preserved env error disk (execute env origin command fates storage disk).disk := by
  unfold execute at h ⊢
  cases horigin : env.checkOrigin origin with
  | error error => exact ⟨rfl, Preserved.unchanged⟩
  | ok =>
    cases hload : storage.ensureLoaded env disk with
    | error error => exact ⟨by simp [hload], by simpa [hload] using Preserved.unchanged⟩
    | ok old =>
      cases heffect : env.effect command (cachesOf old origin) with
      | error error =>
        simp only [heffect]
        exact ⟨rfl, Preserved.unchanged⟩
      | ok effect =>
        simp only [horigin, hload, heffect] at h ⊢
        split at h
        · rename_i hchanged
          obtain ⟨hstorage, hdisk⟩ := commit_error h
          rw [if_pos hchanged, hstorage]
          exact ⟨rfl, hdisk⟩
        · cases h

/-- The command finds nothing to change. -/
def NoChange (env : Env) (origin : Str) (command : CacheCommand) (storage : CacheStorage) (disk : Disk) : Prop :=
  ∃ old effect, storage.ensureLoaded env disk = .ok old ∧
    env.effect command (cachesOf old origin) = .ok effect ∧ effect.changed = false

theorem execute_noChange (h : NoChange env origin command storage disk) :
    (execute env origin command fates storage disk).storage.ensureLoaded env
        (execute env origin command fates storage disk).disk = storage.ensureLoaded env disk ∧
      (execute env origin command fates storage disk).disk = disk := by
  obtain ⟨old, effect, hload, heffect, hsame⟩ := h
  unfold execute
  cases env.checkOrigin origin with
  | error error => exact ⟨rfl, rfl⟩
  | ok => simp [hload, heffect, hsame]

/-! ## Batches -/

/-- What a batch makes of the caches: the entries of the named one that no request matches
stay and the batch follows, which is what putting one entry after the other gives. -/
structure Placed (env : Env) (origin name : Str) (entries : List CacheEntry) (old new : State) : Prop where
  named : entries ≠ [] → (findCache (cachesOf old origin) name).isSome
  batch : findCache (cachesOf new origin) name = (findCache (cachesOf old origin) name).map fun cache =>
    ⟨cache.name, env.unmatched entries cache.entries ++ entries⟩
  oneByOne : findCache (cachesOf new origin) name = (findCache (cachesOf old origin) name).map fun cache =>
    ⟨cache.name, entries.foldl env.putEntry cache.entries⟩
  otherCaches : ∀ other, other ≠ name →
    findCache (cachesOf new origin) other = findCache (cachesOf old origin) other
  otherOrigins : ∀ other, other ≠ origin → new.get other = old.get other

/-- A `Put` command for each entry, as long as each of them is accepted. -/
def putEach (env : Env) (origin name : Str) :
    List (CacheEntry × List (Fate IoError)) → CacheStorage → Disk → Option (CacheStorage × Disk)
  | [], storage, disk => some (storage, disk)
  | (entry, fates) :: steps, storage, disk =>
    match execute env origin (.Put name [entry]) fates storage disk with
    | ⟨storage', disk', some (.ok _)⟩ => putEach env origin name steps storage' disk'
    | _ => none

/-- The state that a batch leaves, as the model of `Put` computes it. -/
def AfterPut (env : Env) (origin name : Str) (entries : List CacheEntry) (old new : State) : Prop :=
  (entries = [] ∧ new = old) ∨
    (entries ≠ [] ∧ ∃ replaced,
      replaceEntries name (fun stored => entries.foldl env.putEntry stored) (cachesOf old origin) =
        some replaced ∧ new = old.insert origin replaced)

theorem AfterPut.unique {name : Str} {entries : List CacheEntry} {old new new' : State}
    (h : AfterPut env origin name entries old new) (h' : AfterPut env origin name entries old new') :
    new = new' := by
  rcases h with ⟨rfl, rfl⟩ | ⟨hne, replaced, hreplaced, rfl⟩
  · rcases h' with ⟨-, rfl⟩ | ⟨hne, -⟩
    · rfl
    · exact absurd rfl hne
  · rcases h' with ⟨hempty, -⟩ | ⟨-, replaced', hreplaced', rfl⟩
    · exact absurd hempty hne
    · rw [hreplaced] at hreplaced'
      rw [Option.some.inj hreplaced']

/-- One entry and then the rest is the same as all at once. -/
theorem AfterPut.cons {name : Str} {entry : CacheEntry} {entries : List CacheEntry} {old mid new : State}
    (hfirst : AfterPut env origin name [entry] old mid) (hrest : AfterPut env origin name entries mid new) :
    AfterPut env origin name (entry :: entries) old new := by
  rcases hfirst with ⟨hempty, -⟩ | ⟨-, replaced, hreplaced, rfl⟩
  · cases hempty
  · refine Or.inr ⟨by simp, ?_⟩
    rcases hrest with ⟨rfl, rfl⟩ | ⟨-, replaced', hreplaced', rfl⟩
    · exact ⟨replaced, hreplaced, rfl⟩
    · rw [cachesOf_insert, replaceEntries_comp hreplaced] at hreplaced'
      exact ⟨replaced', hreplaced', OrdMap.insert_insert _ _ _ _⟩

theorem execute_put {name : Str} {entries : List CacheEntry} {reply : CacheReply}
    (h : (execute env origin (.Put name entries) fates storage disk).result = some (.ok reply)) :
    ∃ old new, storage.ensureLoaded env disk = .ok old ∧
      (∀ after, (execute env origin (.Put name entries) fates storage disk).storage.ensureLoaded env after =
        .ok new) ∧
      env.Distinct entries ∧ AfterPut env origin name entries old new := by
  obtain ⟨old, effect, hload, heffect, -, hnew⟩ := execute_ok h
  refine ⟨old, _, hload, hnew, ?_⟩
  rcases Env.put_ok heffect with ⟨rfl, rfl⟩ | ⟨hne, hdistinct, replaced, hreplaced, rfl⟩
  · exact ⟨List.Pairwise.nil, Or.inl ⟨rfl, rfl⟩⟩
  · exact ⟨hdistinct, Or.inr ⟨hne, replaced, hreplaced, rfl⟩⟩

theorem putEach_afterPut {name : Str} {steps : List (CacheEntry × List (Fate IoError))} {old : State}
    {final : CacheStorage × Disk} (hload : storage.ensureLoaded env disk = .ok old)
    (h : putEach env origin name steps storage disk = some final) :
    ∃ new, final.1.ensureLoaded env final.2 = .ok new ∧
      AfterPut env origin name (steps.map Prod.fst) old new := by
  induction steps generalizing storage disk old with
  | nil =>
    cases h
    exact ⟨old, hload, Or.inl ⟨rfl, rfl⟩⟩
  | cons step steps ih =>
    obtain ⟨entry, fates⟩ := step
    rw [putEach] at h
    split at h
    · rename_i storage' disk' reply houtcome
      have hresult : (execute env origin (.Put name [entry]) fates storage disk).result = some (.ok reply) := by
        rw [houtcome]
      obtain ⟨old', mid, hload', hmid, -, hfirst⟩ := execute_put hresult
      rw [houtcome] at hmid
      obtain rfl : old = old' := Except.ok.inj (hload.symm.trans hload')
      obtain ⟨new, hnew, hrest⟩ := ih (hmid disk') h
      exact ⟨new, hnew, hfirst.cons hrest⟩
    · cases h

theorem AfterPut.placed {name : Str} {entries : List CacheEntry} {old new : State}
    (hdistinct : env.Distinct entries) (h : AfterPut env origin name entries old new) :
    Placed env origin name entries old new := by
  have hfold : (fun stored => entries.foldl env.putEntry stored) =
      fun stored => env.unmatched entries stored ++ entries :=
    funext fun stored => env.foldl_putEntry hdistinct stored
  rcases h with ⟨rfl, rfl⟩ | ⟨hne, replaced, hreplaced, rfl⟩
  · have hall : ∀ stored, env.unmatched [] stored = stored := by simp [Env.unmatched]
    refine ⟨fun hne => absurd rfl hne, ?_, ?_, fun _ _ => rfl, fun _ _ => rfl⟩
    · simp [hall]
    · simp
  · obtain ⟨hsome, hnamed, hothers⟩ := findCache_replaceEntries hreplaced
    refine ⟨fun _ => hsome, ?_, ?_, ?_, fun other hother => OrdMap.get_insert_ne _ _ hother⟩
    · rw [cachesOf_insert, hnamed]
      simp only [env.foldl_putEntry hdistinct]
    · rw [cachesOf_insert, hnamed]
    · intro other hother
      rw [cachesOf_insert, hothers other hother]

/-- A batch that is accepted places its entries after the stored ones that none of its
requests matches, as accepted commands for one entry each do, and a command that fails or
finds nothing to change leaves the state as it was. Only a failed write touches the files. -/
theorem batch_put (env : Env) (origin : Str) (fates : List (Fate IoError)) (storage : CacheStorage) (disk : Disk) :
    (∀ name entries reply,
      (execute env origin (.Put name entries) fates storage disk).result = some (.ok reply) →
      ∃ old new, storage.ensureLoaded env disk = .ok old ∧
        (∀ after, (execute env origin (.Put name entries) fates storage disk).storage.ensureLoaded env after =
          .ok new) ∧
        Placed env origin name entries old new ∧
        ∀ steps final, steps.map Prod.fst = entries →
          putEach env origin name steps storage disk = some final →
          final.1.ensureLoaded env final.2 = .ok new) ∧
    (∀ command error, (execute env origin command fates storage disk).result = some (.error error) →
      (execute env origin command fates storage disk).storage.ensureLoaded env
          (execute env origin command fates storage disk).disk = storage.ensureLoaded env disk ∧
        Preserved env error disk (execute env origin command fates storage disk).disk) ∧
    ∀ command, (NoChange env origin command storage disk ∨ ∃ reply,
        (execute env origin command fates storage disk).result = some (.ok reply) ∧
          Env.ReportsNoChange command reply) →
      (execute env origin command fates storage disk).storage.ensureLoaded env
          (execute env origin command fates storage disk).disk = storage.ensureLoaded env disk ∧
        (execute env origin command fates storage disk).disk = disk := by
  refine ⟨?_, fun _ _ h => execute_error h, ?_⟩
  rotate_left
  · intro command h
    apply execute_noChange
    rcases h with h | ⟨reply, hresult, hreports⟩
    · exact h
    · obtain ⟨old, effect, hload, heffect, rfl, -⟩ := execute_ok hresult
      exact ⟨old, effect, hload, heffect, Env.effect_unchanged heffect hreports⟩
  intro name entries reply h
  obtain ⟨old, new, hload, hnew, hdistinct, hafter⟩ := execute_put h
  refine ⟨old, new, hload, hnew, hafter.placed hdistinct, ?_⟩
  rintro steps final rfl heach
  obtain ⟨new', hnew', hafter'⟩ := putEach_afterPut hload heach
  rw [hnew', hafter.unique hafter']

/-! Opening a cache when neither the new file nor the old one can be put in place. -/

private def alphaOrigin : Str := "https://alpha.example".toList

private def alphaState : State := OrdMap.empty.insert alphaOrigin [⟨"v1".toList, []⟩]

private def alphaBytes : List UInt8 :=
  Str.utf8 "\x7b\"format_version\":1,\"state\":\x7b\"origins\":\x7b\"https://alpha.example\":[\x7b\"name\":\"v1\",\"entries\":[]\x7d]\x7d\x7d\x7d".toList

private def emptyBytes : List UInt8 :=
  Str.utf8 "\x7b\"format_version\":1,\"state\":\x7b\"origins\":\x7b\x7d\x7d\x7d".toList

private def sampleEnv : Env where
  urlParse := fun text =>
    if text = alphaOrigin then
      some ⟨⟨"https".toList, [], none, some (.Domain "alpha.example".toList), some 443, "/".toList, none,
        "https://alpha.example/".toList⟩, alphaOrigin, "https://alpha.example/".toList⟩
    else none
  ipIsLoopback := fun _ => false
  base64Decode := fun _ => none
  cachesToVec := fun _ => .ok (Str.utf8 "[\x7b\"name\":\"v1\",\"entries\":[]\x7d]".toList)
  diskToVec := fun _ state => .ok (if state.isEmpty then emptyBytes else alphaBytes)
  diskFromSlice := fun bytes => if bytes = emptyBytes then .ok (1, OrdMap.empty) else .ok (1, alphaState)
  ioError := fun _ => "access is denied".toList

theorem failed_write_moves_file :
    (execute sampleEnv alphaOrigin (.Open "v1".toList)
        [.performs, .performs, .performs, .performs, .performs, .performs, .fails .Other, .fails .Other]
        («open» ⟨true⟩) ⟨some (.data emptyBytes), none, none⟩).result =
        some (.error (.Persistence "access is denied".toList)) ∧
      (execute sampleEnv alphaOrigin (.Open "v1".toList)
        [.performs, .performs, .performs, .performs, .performs, .performs, .fails .Other, .fails .Other]
        («open» ⟨true⟩) ⟨some (.data emptyBytes), none, none⟩).disk =
        ⟨none, some (.data alphaBytes), some (.data emptyBytes)⟩ := by
  decide +kernel

end CacheStorage

end BetterWebBrowser.CacheApi
