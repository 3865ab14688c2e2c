import BetterWebBrowser.Framework.Transaction
import BetterWebBrowser.Storage.Delivery

/-!
# How a write sequence is cut into batches

Each batch is a transaction on the map of its origin. Cuts without a rejected batch are
therefore indistinguishable from submitting the writes one at a time, and a batch with one
refused write drops all its writes, which is where two cuts can differ.
-/

namespace BetterWebBrowser.Storage

open Framework Navigation

namespace StorageCoordinator

/-! ## The authority as a machine on one map -/

/-- The origin may hold a map in this area. -/
def RoomFor (hub : StorageCoordinator) (area : StorageAreaKind) (origin : Str) : Prop :=
  area = .Local → hub.localStorage.origins.HasRoom origin

open Classical in
/-- One write on one map: the map after it and its change, or a refusal. -/
noncomputable def submit (room : Prop) (state : StorageAreaState) (operation : StorageOperation) :
    Option (StorageAreaState × Option StorageChange) :=
  if room ∧ state.Takes operation then some (state.after operation, state.record operation) else none

theorem runAll_submit_of_admits {room : Prop} {state : StorageAreaState}
    {operations : List StorageOperation} (hroom : room) (h : state.Admits operations) :
    runAll (submit room) state operations = some (state.run operations, state.records operations) := by
  induction operations generalizing state with
  | nil => rfl
  | cons operation operations ih =>
    have htakes : room ∧ state.Takes operation := ⟨hroom, h.1⟩
    rw [runAll, submit, if_pos htakes]
    simp [ih h.2, StorageAreaState.records]

theorem admits_of_runAll_submit {room : Prop} {state : StorageAreaState}
    {operations : List StorageOperation} (hne : operations ≠ [])
    (h : (runAll (submit room) state operations).isSome) : room ∧ state.Admits operations := by
  induction operations generalizing state with
  | nil => exact absurd rfl hne
  | cons operation operations ih =>
    by_cases htakes : room ∧ state.Takes operation
    · refine ⟨htakes.1, htakes.2, ?_⟩
      cases operations with
      | nil => trivial
      | cons next rest =>
        refine (ih (by simp) ?_).2
        rw [runAll, submit, if_pos htakes] at h
        simpa using h
    · rw [runAll, submit, if_neg htakes] at h
      cases h

theorem runAll_submit_of_refused {room : Prop} {state : StorageAreaState}
    {operations : List StorageOperation} (hne : operations ≠ [])
    (h : ¬ (room ∧ state.Admits operations)) : runAll (submit room) state operations = none := by
  by_contra hsome
  exact h (admits_of_runAll_submit hne (Option.ne_none_iff_isSome.mp hsome))

/-! ## Cuts -/

/-- `batches` of one area and source go in one after the other, every call returns
`ok true` and the disk works; queues may drain in between. The reports are the changes the
source receives, the errors what its error slot holds after each batch. -/
inductive Cut (urlParse : Str → Option Url) (area : StorageAreaKind) (source : Nat) :
    StorageCoordinator → SessionStorage → List (List StorageWrite) → StorageCoordinator →
      SessionStorage → List (Option StorageChange) → List (Option String) → Prop
  | nil {hub : StorageCoordinator} {session : SessionStorage} :
      Cut urlParse area source hub session [] hub session [] []
  | batch {hub hub₁ hub' : StorageCoordinator} {session session₁ session' : SessionStorage}
      {writes : List StorageWrite} {batches : List (List StorageWrite)} {endpoint endpoint₁ : Endpoint}
      {updates : List StorageUpdate} {reported : List (Option StorageChange)}
      {errors : List (Option String)} :
      writes ≠ [] → (∀ write ∈ writes, write.mutation.area = area) →
      hub.apply urlParse (fun _ => .ok ()) source writes session = (hub₁, session₁, .ok true) →
      hub.find source = some endpoint → hub₁.find source = some endpoint₁ →
      endpoint₁.queue = endpoint.queue ++ updates →
      Cut urlParse area source hub₁ session₁ batches hub' session' reported errors →
      Cut urlParse area source hub session (writes :: batches) hub' session'
        (updates.map StorageUpdate.change ++ reported) (endpoint₁.error :: errors)
  | drain {hub hub' : StorageCoordinator} {session session' : SessionStorage}
      {batches : List (List StorageWrite)} {reported : List (Option StorageChange)}
      {errors : List (Option String)} (id : Nat) (accepts : StorageUpdate → Bool) :
      Cut urlParse area source (hub.takeIf id accepts).1 session batches hub' session' reported errors →
      Cut urlParse area source hub session batches hub' session' reported errors

/-- A published batch is a transaction on its map, and does not change the room. -/
theorem Published.transaction {urlParse : Str → Option Url} {hub hub' : StorageCoordinator}
    {session session' : SessionStorage} {batch : Batch} {endpoint : Endpoint}
    {changes : List (Option StorageChange)} {rejection : Option String}
    (hwrites : batch.writes ≠ [])
    (h : Published urlParse (fun _ => .ok ()) hub session batch endpoint changes rejection hub' session') :
    (hub'.areaOf session' batch.area batch.origin, changes) =
        Framework.transaction (submit (hub.RoomFor batch.area batch.origin)) (fun _ => none)
          (hub.areaOf session batch.area batch.origin) (operations batch.writes) ∧
      (rejection = none ↔ (runAll (submit (hub.RoomFor batch.area batch.origin))
        (hub.areaOf session batch.area batch.origin) (operations batch.writes)).isSome) ∧
      (hub'.RoomFor batch.area batch.origin ↔ hub.RoomFor batch.area batch.origin) := by
  have hoperations : operations batch.writes ≠ [] := by simpa [operations] using hwrites
  rcases h.outcome with ⟨hnone, haccepted⟩ | ⟨hsome, hrejected⟩
  · have hroom : hub.RoomFor batch.area batch.origin := fun harea => (haccepted.room harea hwrites).1
    have hroom' : hub'.RoomFor batch.area batch.origin := fun harea => (haccepted.room harea hwrites).2
    rw [Framework.transaction, runAll_submit_of_admits hroom haccepted.admits]
    simp [hroom, hroom', haccepted.area_eq, haccepted.changes_eq, hnone]
  · have hrefused : ¬ (hub.RoomFor batch.area batch.origin ∧
        (hub.areaOf session batch.area batch.origin).Admits (operations batch.writes)) := by
      rintro ⟨hroom, hadmits⟩
      rcases hrejected.reason with hnot | ⟨harea, hfull⟩ | ⟨_, _, hdisk⟩
      · exact hnot hadmits
      · exact hfull (hroom harea)
      · cases hdisk
    have harea : hub'.areaOf session' batch.area batch.origin =
        hub.areaOf session batch.area batch.origin := by
      rw [hrejected.session_eq]
      simp only [areaOf, hrejected.local_eq]
    rw [Framework.transaction, runAll_submit_of_refused hoperations hrefused]
    refine ⟨?_, ?_, ?_⟩
    · rw [Option.getD_none, harea, hrejected.changes_eq, map_const_operations]
    · simpa [Option.ne_none_iff_isSome] using hsome
    · simp only [RoomFor, hrejected.local_eq]

private theorem takeIf_frame (hub : StorageCoordinator) (id : Nat) (accepts : StorageUpdate → Bool) :
    (hub.takeIf id accepts).1.localStorage = hub.localStorage ∧
      ∀ other, ((hub.takeIf id accepts).1.find other).map Endpoint.origin =
        (hub.find other).map Endpoint.origin := by
  unfold takeIf
  cases hfind : hub.find id with
  | none => exact ⟨rfl, fun _ => rfl⟩
  | some endpoint =>
    refine ⟨rfl, fun other => ?_⟩
    have horigin : (endpoint.takeIf accepts).1.origin = endpoint.origin := by
      unfold Endpoint.takeIf
      cases endpoint.queue with
      | nil => rfl
      | cons update queue =>
        simp only
        split_ifs <;> rfl
    simp only [find_update]
    split_ifs with hother
    · simp [hother, hfind, horigin]
    · rfl

/-- A cut is the sequence of its transactions, and the error slots say which of them were
refused. No other map changes. -/
theorem cut_transactions {urlParse : Str → Option Url} {area : StorageAreaKind} {source : Nat}
    {hub hub' : StorageCoordinator} {session session' : SessionStorage}
    {batches : List (List StorageWrite)} {reported : List (Option StorageChange)}
    {errors : List (Option String)} {origin : Str}
    (h : Cut urlParse area source hub session batches hub' session' reported errors)
    (hsource : (hub.find source).map Endpoint.origin = some origin) :
    (hub'.areaOf session' area origin, reported) =
        transactions (submit (hub.RoomFor area origin)) (fun _ => none)
          (hub.areaOf session area origin) (batches.map operations) ∧
      ((∀ error ∈ errors, error = none) ↔
        Committed (submit (hub.RoomFor area origin)) (hub.areaOf session area origin)
          (batches.map operations)) ∧
      ∀ area' origin', area' ≠ area ∨ origin' ≠ origin →
        hub'.areaOf session' area' origin' = hub.areaOf session area' origin' := by
  induction h with
  | nil => simp [transactions, Committed]
  | drain id accepts _ ih =>
    obtain ⟨hlocal, horigins⟩ := takeIf_frame _ id accepts
    have := ih ((horigins source).trans hsource)
    simpa only [areaOf, RoomFor, hlocal] using this
  | @batch hub hub₁ _ session session₁ _ writes batches endpoint endpoint₁ updates _ _ hwrites hareas
      happly hfind hfind₁ hqueue _ ih =>
    rcases apply_cases happly with
      ⟨_, hempty⟩ | ⟨_, batch, old, changes, rejection, rfl, rfl, _, hpublished⟩
    · exact absurd (hempty rfl) hwrites
    · obtain rfl : old = endpoint := Option.some.inj (hpublished.source.symm.trans hfind)
      obtain rfl : origin = batch.origin := by
        rw [hfind] at hsource
        exact (Option.some.inj hsource).symm.trans hpublished.origin_eq.symm
      obtain rfl : batch.area = area := by
        obtain ⟨write, hwrite⟩ := List.exists_mem_of_ne_nil _ hwrites
        exact ((checkWrites_ok hpublished.checked).2.2 write hwrite).2.1.symm.trans (hareas write hwrite)
      obtain ⟨hstep, hcommitted, hroom⟩ := hpublished.transaction hwrites
      have herror : endpoint₁.error = rejection ∧ updates.map StorageUpdate.change = changes := by
        have hnew := (hpublished.find_eq batch.source).symm.trans hfind₁
        rw [hpublished.source, Option.map_some, deliver_source] at hnew
        obtain rfl := Option.some.inj hnew
        obtain rfl := List.append_cancel_left hqueue
        refine ⟨rfl, ?_⟩
        simpa [Batch.updates] using
          (makeUpdates_source batch.area batch.version hpublished.changes_length).1
      have horigin₁ : (hub₁.find batch.source).map Endpoint.origin = some batch.origin := by
        rw [hpublished.find_eq, hpublished.source, Option.map_some, deliver_source,
          hpublished.origin_eq]
        rfl
      obtain ⟨hrest, hcommittedRest, hframe⟩ := ih horigin₁
      rw [show hub₁.RoomFor batch.area batch.origin = hub.RoomFor batch.area batch.origin from
        propext hroom] at hrest hcommittedRest
      refine ⟨?_, ?_, ?_⟩
      · rw [List.map_cons, transactions, ← hstep, herror.2]
        simp only [← hrest]
      · rw [List.map_cons, List.forall_mem_cons, herror.1, hcommitted, hcommittedRest, Committed]
        rw [Framework.transaction] at hstep
        cases hrun : runAll (submit (hub.RoomFor batch.area batch.origin))
            (hub.areaOf session batch.area batch.origin) (operations batch.writes) with
        | none => simp
        | some result =>
          rw [hrun, Option.getD_some] at hstep
          simp [← hstep]
      · intro area' origin' hne
        rw [hframe area' origin' hne]
        exact hpublished.areaOf_frame hne

section Cut

variable {urlParse : Str → Option Url} {area : StorageAreaKind} {source : Nat}
  {hub hub' : StorageCoordinator} {session session' : SessionStorage}
  {batches : List (List StorageWrite)} {reported : List (Option StorageChange)}
  {errors : List (Option String)}

private theorem Cut.find_source
    (h : Cut urlParse area source hub session batches hub' session' reported errors)
    (hne : batches ≠ []) : ∃ origin, (hub.find source).map Endpoint.origin = some origin := by
  induction h with
  | nil => exact absurd rfl hne
  | batch _ _ _ hfind _ _ _ _ => exact ⟨_, by rw [hfind]; rfl⟩
  | drain id accepts _ ih =>
    obtain ⟨origin, horigin⟩ := ih hne
    exact ⟨origin, ((takeIf_frame _ id accepts).2 source).symm.trans horigin⟩

private theorem Cut.of_nil
    (h : Cut urlParse area source hub session batches hub' session' reported errors)
    (hnil : batches = []) :
    reported = [] ∧ errors = [] ∧
      ∀ kind origin, hub'.areaOf session' kind origin = hub.areaOf session kind origin := by
  induction h with
  | nil => exact ⟨rfl, rfl, fun _ _ => rfl⟩
  | batch => cases hnil
  | drain id accepts _ ih => simpa only [areaOf, (takeIf_frame _ id accepts).1] using ih hnil

private theorem Cut.batches_ne_nil
    (h : Cut urlParse area source hub session batches hub' session' reported errors) :
    ∀ writes ∈ batches, writes ≠ [] := by
  induction h with
  | nil => simp
  | batch hwrites _ _ _ _ _ _ ih => exact List.forall_mem_cons.mpr ⟨hwrites, ih⟩
  | drain _ _ _ ih => exact ih

/-- A call that returns `ok true` starts a cut. -/
private theorem Cut.of_apply {hub₁ : StorageCoordinator} {session₁ : SessionStorage}
    {writes : List StorageWrite} (hne : writes ≠ [])
    (hareas : ∀ write ∈ writes, write.mutation.area = area)
    (happly : hub.apply urlParse (fun _ => .ok ()) source writes session = (hub₁, session₁, .ok true))
    (h : Cut urlParse area source hub₁ session₁ batches hub' session' reported errors) :
    ∃ reported' errors',
      Cut urlParse area source hub session (writes :: batches) hub' session' reported' errors' := by
  rcases apply_cases happly with
    ⟨_, hempty⟩ | ⟨_, batch, endpoint, changes, rejection, rfl, rfl, _, hpublished⟩
  · exact absurd (hempty rfl) hne
  · have hfind₁ := hpublished.find_eq batch.source
    rw [hpublished.source, Option.map_some, deliver_source] at hfind₁
    exact ⟨_, _, .batch hne hareas happly hpublished.source hfind₁ rfl h⟩

end Cut

private theorem flatten_operations (batches : List (List StorageWrite)) :
    (batches.map operations).flatten = operations batches.flatten := by
  induction batches with
  | nil => rfl
  | cons writes batches ih => simp [ih]

/-- Batches are transactions. A cut in which no batch is rejected is matched by every other
cut of the same writes, the one-at-a-time cut among them: nothing is rejected there either,
and the authority and the reported changes are the same. A rejected batch leaves the authority
as it was and reports no change for any of its writes. -/
theorem batches_all_or_nothing (urlParse : Str → Option Url) (area : StorageAreaKind)
    (source : Nat) (hub hub₁ : StorageCoordinator) (session session₁ : SessionStorage)
    (batches : List (List StorageWrite)) (reported₁ : List (Option StorageChange))
    (errors₁ : List (Option String))
    (h₁ : Cut urlParse area source hub session batches hub₁ session₁ reported₁ errors₁) :
    (∀ (others : List (List StorageWrite)) (hub₂ : StorageCoordinator) (session₂ : SessionStorage)
        (reported₂ : List (Option StorageChange)) (errors₂ : List (Option String)),
        Cut urlParse area source hub session others hub₂ session₂ reported₂ errors₂ →
        others.flatten = batches.flatten → (∀ error ∈ errors₁, error = none) →
        (∀ error ∈ errors₂, error = none) ∧ reported₂ = reported₁ ∧
          ∀ kind origin, hub₂.areaOf session₂ kind origin = hub₁.areaOf session₁ kind origin) ∧
      (∀ writes, batches = [writes] → (∃ error ∈ errors₁, error ≠ none) →
        reported₁ = (writes.map fun _ => none) ∧
          ∀ kind origin, hub₁.areaOf session₁ kind origin = hub.areaOf session kind origin) := by
  refine ⟨?_, ?_⟩
  · intro others hub₂ session₂ reported₂ errors₂ h₂ hflatten haccepted
    by_cases hnil : batches = []
    · have hothers : others = [] := by
        cases others with
        | nil => rfl
        | cons writes others =>
          have hne := h₂.batches_ne_nil writes List.mem_cons_self
          simp [hne, hnil] at hflatten
      obtain ⟨hreported₁, _, hareas₁⟩ := h₁.of_nil hnil
      obtain ⟨hreported₂, herrors₂, hareas₂⟩ := h₂.of_nil hothers
      refine ⟨by simp [herrors₂], hreported₂.trans hreported₁.symm, ?_⟩
      exact fun kind origin => (hareas₂ kind origin).trans (hareas₁ kind origin).symm
    · obtain ⟨origin, hsource⟩ := h₁.find_source hnil
      obtain ⟨hrun₁, hcommitted₁, hframe₁⟩ := cut_transactions h₁ hsource
      obtain ⟨hrun₂, hcommitted₂, hframe₂⟩ := cut_transactions h₂ hsource
      have hoperations : (batches.map operations).flatten = (others.map operations).flatten := by
        rw [flatten_operations, flatten_operations, hflatten]
      obtain ⟨hall, hsame⟩ := (hcommitted₁.mp haccepted).transactions_eq _ hoperations
      rw [← hrun₁, ← hrun₂, Prod.mk.injEq] at hsame
      refine ⟨hcommitted₂.mpr hall, hsame.2.symm, ?_⟩
      intro kind origin'
      by_cases hkey : kind = area ∧ origin' = origin
      · rw [hkey.1, hkey.2, hsame.1]
      · rw [hframe₁ kind origin' (by tauto), hframe₂ kind origin' (by tauto)]
  · rintro writes rfl ⟨error, herror, hne⟩
    obtain ⟨origin, hsource⟩ := h₁.find_source (by simp)
    obtain ⟨hrun, hcommitted, hframe⟩ := cut_transactions h₁ hsource
    have hrefused : runAll (submit (hub.RoomFor area origin)) (hub.areaOf session area origin)
        (operations writes) = none := by
      cases hrunAll : runAll (submit (hub.RoomFor area origin)) (hub.areaOf session area origin)
          (operations writes) with
      | none => rfl
      | some result =>
        have hok := hcommitted.mpr ⟨result.1, result.2, hrunAll, trivial⟩
        exact absurd (hok error herror) hne
    simp only [List.map_cons, List.map_nil, transactions, Framework.transaction, hrefused,
      Option.getD_none, List.append_nil, Prod.mk.injEq] at hrun
    refine ⟨hrun.2.trans (map_const_operations none writes), ?_⟩
    intro kind origin'
    by_cases hkey : kind = area ∧ origin' = origin
    · rw [hkey.1, hkey.2, hrun.1]
    · exact hframe kind origin' (by tauto)

def samplePair : List StorageWrite :=
  [sampleWrite 1 (.Set (sampleString 97) (sampleString 98)), sampleWrite 2 (.Remove (sampleString 97))]

/-- A set and a remove go in together as they go in one at a time. -/
theorem batches_all_or_nothing_sample :
    ∃ hub₁ hub₂ session₁ session₂ reported errors₁ errors₂,
      Cut sampleParse .Local 0 sampleHub ⟨OrdMap.empty⟩ [samplePair] hub₁ session₁ reported errors₁ ∧
        Cut sampleParse .Local 0 sampleHub ⟨OrdMap.empty⟩ (samplePair.map fun write => [write])
          hub₂ session₂ reported errors₂ ∧
        ∀ kind origin, hub₂.areaOf session₂ kind origin = hub₁.areaOf session₁ kind origin := by
  let first := sampleHub.apply sampleParse (fun _ => .ok ()) 0 (samplePair.take 1) ⟨OrdMap.empty⟩
  have hpair : (sampleHub.apply sampleParse (fun _ => .ok ()) 0 samplePair ⟨OrdMap.empty⟩).2.2 =
      .ok true := by decide
  have hfirst : first.2.2 = .ok true := by decide
  have hsecond : (first.1.apply sampleParse (fun _ => .ok ()) 0 (samplePair.drop 1) first.2.1).2.2 =
      .ok true := by decide
  have hareas : ∀ write ∈ samplePair, write.mutation.area = .Local := by decide
  obtain ⟨reported₁, errors₁, hbatched⟩ :=
    Cut.of_apply (by decide) hareas (Prod.ext rfl (Prod.ext rfl hpair)) .nil
  obtain ⟨_, _, hrest⟩ := Cut.of_apply (by decide)
    (fun write hwrite => hareas write (List.mem_of_mem_drop hwrite))
    (Prod.ext rfl (Prod.ext rfl hsecond)) .nil
  obtain ⟨reported₂, errors₂, hsingly⟩ := Cut.of_apply (by decide)
    (fun write hwrite => hareas write (List.mem_of_mem_take hwrite))
    (Prod.ext rfl (Prod.ext rfl hfirst)) hrest
  have haccepted : ∀ error ∈ errors₁, error = none := by
    have hsource : (sampleHub.find 0).map Endpoint.origin = some sampleOrigin := by decide
    have hroom : sampleHub.RoomFor .Local sampleOrigin := fun _ => Or.inr (by decide)
    have hadmits : (sampleHub.areaOf ⟨OrdMap.empty⟩ .Local sampleOrigin).Admits
        (operations samplePair) := ⟨by decide, by decide, trivial⟩
    exact (cut_transactions hbatched hsource).2.1.mpr
      ⟨_, _, runAll_submit_of_admits hroom hadmits, trivial⟩
  obtain ⟨_, hreported, hauthority⟩ := (batches_all_or_nothing _ _ _ _ _ _ _ _ _ _ hbatched).1
    _ _ _ _ _ hsingly (by decide) haccepted
  rw [hreported] at hsingly
  exact ⟨_, _, _, _, reported₁, errors₁, errors₂, hbatched, hsingly, hauthority⟩

/-! ## A batch that loses an acceptable write

The store of one origin holds three mebibytes that the document does not know of. Its first
write adds three more and exceeds the quota, its second write is one small entry. -/

theorem byteLen_replicate (n : Nat) : StorageString.byteLen ⟨List.replicate n 97⟩ = n := by
  change StorageString.quotaBytesAfter false (List.replicate n 97) = n
  induction n with
  | zero => rfl
  | succ n ih =>
    have hunit : (97 : Fin 65536).val ≤ 0x7f := by decide
    rw [List.replicate_succ, StorageString.quotaBytesAfter, if_pos hunit, ih, Nat.add_comm]

def fullArea (large : StorageString) : StorageAreaState :=
  ⟨2, OrdMap.empty.insert (sampleString 99) large⟩

/-- One document over that store, just subscribed. -/
def fullHub (large : StorageString) : StorageCoordinator :=
  ⟨⟨OrdMap.empty.insert sampleOrigin (fullArea large)⟩,
    [⟨0, true, sampleOrigin, [], 0, fun _ => 0, none⟩], 1⟩

def largeWrite (large : StorageString) : StorageWrite :=
  sampleWrite 1 (.Set (sampleString 98) large)

def smallWrite : StorageWrite := sampleWrite 2 (.Set (sampleString 97) (sampleString 97))

/-- The batch that starts with the large write. -/
def largeBatch (large : StorageString) (rest : List StorageWrite) : Batch :=
  ⟨0, .Local, sampleOrigin, sampleUrl, largeWrite large :: rest, 0 + (largeWrite large :: rest).length, 2⟩

section FullStore

variable {large : StorageString}

private theorem fullArea_bytes : (fullArea large).byteLen = 1 + large.byteLen := by
  change OrdMap.weight entryBytes (OrdMap.insert OrdMap.empty (sampleString 99) large) = _
  rw [OrdMap.weight_insert_of_none _ _ (OrdMap.get_empty _), OrdMap.weight_empty, Nat.zero_add]
  rfl

variable (hlarge : large.byteLen = 3 * 1024 * 1024)
include hlarge

private theorem fullArea_valid : (fullArea large).Valid := by
  refine ⟨Nat.succ_pos 1, ?_, ?_, ?_⟩
  · change 2 ≤ U64_MAX
    decide
  · change 1 ≤ MAX_STORAGE_ENTRIES_PER_ORIGIN
    decide
  · rw [fullArea_bytes, hlarge]
    decide

private theorem large_refused (rest : List StorageOperation) :
    ¬ (fullArea large).Admits (.Set (sampleString 98) large :: rest) := by
  rintro ⟨htakes, _⟩
  have hle := (htakes.valid (fullArea_valid hlarge)).byteLen_le
  have hbytes : ((fullArea large).after (.Set (sampleString 98) large)).byteLen =
      (1 + large.byteLen) + (1 + large.byteLen) := by
    rw [StorageAreaState.byteLen, StorageAreaState.after_entries]
    change OrdMap.weight entryBytes (OrdMap.insert (fullArea large).entries (sampleString 98) large) = _
    rw [OrdMap.weight_insert_of_none _ _ rfl]
    change (fullArea large).byteLen + (1 + large.byteLen) = _
    rw [fullArea_bytes]
  rw [hbytes, hlarge] at hle
  revert hle
  decide

private theorem small_taken :
    (fullArea large).Admits (operations [smallWrite]) := by
  have hcheck : (fullArea large).checkSet (sampleString 97) (sampleString 97) = .ok () := by
    have hold : (fullArea large).oldBytes (sampleString 97) = 0 := rfl
    have hlen : ¬ MAX_STORAGE_ENTRIES_PER_ORIGIN ≤ (fullArea large).entries.len := by
      change ¬ 1024 ≤ 1
      decide
    have hbytes : ¬ MAX_STORAGE_BYTES_PER_ORIGIN <
        (fullArea large).byteLen - 0 + (sampleString 97).byteLen + (sampleString 97).byteLen := by
      rw [fullArea_bytes, hlarge]
      decide
    simp only [StorageAreaState.checkSet, hlen, and_false, if_false, hold, validateBytes, hbytes]
  refine ⟨?_, trivial⟩
  have hvalidate : StorageMutation.validate
      ⟨.Local, (fullArea large).version, .Set (sampleString 97) (sampleString 97)⟩ = .ok () := rfl
  have hget : (fullArea large).entries.get (sampleString 97) = none := rfl
  have hmax : (fullArea large).version ≠ U64_MAX := by
    change 2 ≠ U64_MAX
    decide
  change (fullArea large).apply
    ⟨.Local, (fullArea large).version, .Set (sampleString 97) (sampleString 97)⟩ = _
  simp [StorageAreaState.apply, hvalidate, hmax, StorageAreaState.applyOperation, hget, hcheck,
    StorageAreaState.after, StorageAreaState.operationChanges, smallWrite, sampleWrite,
    StorageWrite.operation, StorageAreaState.applyEntries]

private theorem checkWrites_large {rest : List StorageWrite}
    (hrest : rest = [] ∨ rest = [smallWrite]) :
    checkWrites sampleParse .Local sampleOrigin 0 (largeWrite large :: rest) =
      .ok (0 + (largeWrite large :: rest).length) := by
  apply checkWrites_of_numbered
  · rcases hrest with rfl | rfl
    · exact ⟨rfl, trivial⟩
    · exact ⟨rfl, rfl, trivial⟩
  · rcases hrest with rfl | rfl <;> simp [U64_MAX]
  · intro write hwrite
    have hsmall : smallWrite.validate = .ok () ∧ smallWrite.mutation.area = .Local ∧
        storageOrigin sampleParse smallWrite.sourceUrl = .ok sampleOrigin := by
      decide
    rcases List.mem_cons.mp hwrite with rfl | hwrite
    · refine ⟨?_, rfl, hsmall.2.2⟩
      have hbytes : ¬ MAX_STORAGE_BYTES_PER_ORIGIN < (sampleString 98).byteLen + large.byteLen := by
        rw [hlarge]
        decide
      have hurl : ¬ MAX_URL_BYTES < Str.byteLen sampleUrl := by decide
      simp [StorageWrite.validate, largeWrite, sampleWrite, hurl, StorageMutation.validate,
        validateBytes, hbytes]
    · rcases hrest with rfl | rfl
      · cases hwrite
      · rw [List.mem_singleton.mp hwrite]
        exact hsmall

/-- The rejected call, with or without the small write in its batch. -/
private theorem large_batch_rejected {rest : List StorageWrite}
    (hrest : rest = [] ∨ rest = [smallWrite]) :
    ∃ reason, (fullHub large).apply sampleParse (fun _ => .ok ()) 0 (largeWrite large :: rest)
        ⟨OrdMap.empty⟩ =
      ((fullHub large).retain.mapEndpoints ((largeBatch large rest).deliver
        ((largeBatch large rest).writes.map fun _ => none) (some reason)), ⟨OrdMap.empty⟩, .ok true) := by
  have hfind : (fullHub large).find 0 = some ⟨sampleOrigin, [], 0, fun _ => 0, none⟩ := rfl
  have harea : (fullHub large).areaOf ⟨OrdMap.empty⟩ .Local sampleOrigin = fullArea large := rfl
  have hpublish : (fullHub large).apply sampleParse (fun _ => .ok ()) 0 (largeWrite large :: rest)
      ⟨OrdMap.empty⟩ = (largeBatch large rest).publish sampleParse (fun _ => .ok ())
        (fullHub large).retain ⟨OrdMap.empty⟩ (fullArea large) :=
    apply_eq_publish (fun _ => .ok ()) hfind (checkWrites_large hlarge hrest)
      (by rw [show (largeWrite large).mutation.area = .Local from rfl, harea]; exact fullArea_valid hlarge)
  rw [hpublish]
  refine Batch.publish_rejected _ _ _ (large_refused hlarge (operations rest)) ?_
  have htargets : ((fullHub large).retain.endpoints.filter fun r =>
      (largeBatch large rest).targets r.id r.endpoint) =
      [⟨0, true, sampleOrigin, [], 0, fun _ => 0, none⟩] := rfl
  have hurl : Str.byteLen sampleUrl = 15 := by decide
  rw [htargets]
  rcases hrest with rfl | rfl <;>
    simp [reserve, Batch.updates, makeUpdates, updatesBytes, StorageUpdate.byteLen, largeBatch,
      largeWrite, smallWrite, sampleWrite, hurl, MAX_QUEUED_BROWSER_WRITES, MAX_PENDING_STORAGE_BYTES]

/-- The document's endpoint after its large write was rejected. -/
private def rejectedEndpoint (reason : String) : Endpoint :=
  ⟨sampleOrigin, [⟨.Local, 2, 1, none, sampleUrl⟩], 15, Function.update (fun _ => 0) .Local 1, some reason⟩

/-- The coordinator after the large write was rejected on its own. -/
private def rejectedHub (large : StorageString) (reason : String) : StorageCoordinator :=
  ⟨⟨OrdMap.empty.insert sampleOrigin (fullArea large)⟩, [⟨0, true, rejectedEndpoint reason⟩], 1⟩

private theorem large_alone_rejected :
    ∃ reason, (fullHub large).apply sampleParse (fun _ => .ok ()) 0 [largeWrite large] ⟨OrdMap.empty⟩ =
      (rejectedHub large reason, ⟨OrdMap.empty⟩, .ok true) := by
  obtain ⟨reason, happly⟩ := large_batch_rejected hlarge (Or.inl rfl)
  refine ⟨reason, happly.trans ?_⟩
  have hurl : updatesBytes [⟨.Local, 2, 1, none, sampleUrl⟩] = 15 := by decide
  rw [rejectedHub, rejectedEndpoint, ← hurl]
  rfl

/-- The small write alone goes through. -/
private theorem small_alone_published (reason : String) :
    ∃ hub' session', (rejectedHub large reason).apply sampleParse (fun _ => .ok ()) 0 [smallWrite]
      ⟨OrdMap.empty⟩ = (hub', session', .ok true) := by
  have hfind : (rejectedHub large reason).find 0 = some (rejectedEndpoint reason) := rfl
  have harea : (rejectedHub large reason).areaOf ⟨OrdMap.empty⟩ .Local sampleOrigin =
      fullArea large := rfl
  have hcheck : checkWrites sampleParse .Local sampleOrigin 1 [smallWrite] = .ok 2 := by decide
  have hpublish : (rejectedHub large reason).apply sampleParse (fun _ => .ok ()) 0 [smallWrite]
      ⟨OrdMap.empty⟩ = Batch.publish ⟨0, .Local, sampleOrigin, sampleUrl, [smallWrite], 2, 2⟩
        sampleParse (fun _ => .ok ()) (rejectedHub large reason).retain ⟨OrdMap.empty⟩
        (fullArea large) :=
    apply_eq_publish (fun _ => .ok ()) hfind hcheck
      (by rw [show smallWrite.mutation.area = .Local from rfl]; exact harea ▸ fullArea_valid hlarge)
  rw [hpublish]
  apply Batch.publish_ok
  have htargets : ((rejectedHub large reason).retain.endpoints.filter fun r =>
      Batch.targets ⟨0, .Local, sampleOrigin, sampleUrl, [smallWrite], 2, 2⟩ r.id r.endpoint) =
      [⟨0, true, rejectedEndpoint reason⟩] := rfl
  have hupdates : Batch.updates ⟨0, .Local, sampleOrigin, sampleUrl, [smallWrite], 2, 2⟩
      ((fullArea large).records (operations [smallWrite])) 0 =
      [⟨.Local, 3, 2, some ⟨3, some (sampleString 97), none, some (sampleString 97)⟩, sampleUrl⟩] := rfl
  have hbytes : updatesBytes
      [⟨.Local, 3, 2, some ⟨3, some (sampleString 97), none, some (sampleString 97)⟩, sampleUrl⟩] =
      17 := by decide
  rw [htargets, preflight_of_admits (small_taken hlarge)]
  simp only [reserve, hupdates, hbytes]
  simp [rejectedEndpoint, MAX_QUEUED_BROWSER_WRITES, MAX_PENDING_STORAGE_BYTES]

private theorem cut_batched : ∃ hub' session' reported errors, Cut sampleParse .Local 0
    (fullHub large) ⟨OrdMap.empty⟩ [[largeWrite large, smallWrite]] hub' session' reported errors := by
  obtain ⟨reason, happly⟩ := large_batch_rejected hlarge (Or.inr rfl)
  have hareas : ∀ write ∈ [largeWrite large, smallWrite], write.mutation.area = .Local := by
    simp [largeWrite, smallWrite, sampleWrite]
  obtain ⟨reported, errors, hcut⟩ := Cut.of_apply (by simp) hareas happly .nil
  exact ⟨_, _, reported, errors, hcut⟩

private theorem cut_singly : ∃ hub' session' reported errors, Cut sampleParse .Local 0
    (fullHub large) ⟨OrdMap.empty⟩ [[largeWrite large], [smallWrite]] hub' session' reported errors := by
  obtain ⟨reason, hlargeApply⟩ := large_alone_rejected hlarge
  obtain ⟨hub', session', hsmallApply⟩ := small_alone_published hlarge reason
  have hareas : ∀ write ∈ [largeWrite large], write.mutation.area = .Local := by
    simp [largeWrite, sampleWrite]
  have hsmallArea : ∀ write ∈ [smallWrite], write.mutation.area = .Local := by decide
  obtain ⟨_, _, hrest⟩ := Cut.of_apply (by simp) hsmallArea hsmallApply .nil
  obtain ⟨reported, errors, hcut⟩ := Cut.of_apply (by simp) hareas hlargeApply hrest
  exact ⟨_, _, reported, errors, hcut⟩

omit hlarge in
private theorem full_reports {batches : List (List StorageWrite)} {hub' : StorageCoordinator}
    {session' : SessionStorage} {reported : List (Option StorageChange)} {errors : List (Option String)}
    (h : Cut sampleParse .Local 0 (fullHub large) ⟨OrdMap.empty⟩ batches hub' session' reported errors) :
    reported = (transactions (submit True) (fun _ => none) (fullArea large)
      (batches.map operations)).2 := by
  have hroom : (fullHub large).RoomFor .Local sampleOrigin = True :=
    propext ⟨fun _ => trivial, fun _ _ => Or.inl rfl⟩
  have hsource : ((fullHub large).find 0).map Endpoint.origin = some sampleOrigin := rfl
  have hrun := (cut_transactions h hsource).1
  rw [hroom] at hrun
  exact congrArg Prod.snd hrun

/-- The small write is reported when it comes alone and lost when it shares a batch. -/
private theorem reports_differ :
    (transactions (submit True) (fun _ => none) (fullArea large)
        ([[largeWrite large, smallWrite]].map operations)).2 ≠
      (transactions (submit True) (fun _ => none) (fullArea large)
        ([[largeWrite large], [smallWrite]].map operations)).2 := by
  have hrefused (rest : List StorageWrite) : runAll (submit True) (fullArea large)
      (operations (largeWrite large :: rest)) = none :=
    runAll_submit_of_refused (by simp) fun h => large_refused hlarge (operations rest) h.2
  have hsmall := runAll_submit_of_admits trivial (small_taken hlarge)
  simp only [List.map_cons, List.map_nil, transactions, Framework.transaction, hrefused,
    Option.getD_none, hsmall, Option.getD_some]
  have hrecord : (fullArea large).records (operations [smallWrite]) =
      [some ⟨3, some (sampleString 97), none, some (sampleString 97)⟩] := rfl
  rw [hrecord]
  simp

end FullStore

/-- Cutting the same writes differently can change what is stored: a write that the authority
takes on its own is dropped when it shares its batch with a refused one. -/
theorem batches_visible :
    ¬ ∀ (urlParse : Str → Option Url) (area : StorageAreaKind) (source : Nat)
      (hub hub₁ hub₂ : StorageCoordinator) (session session₁ session₂ : SessionStorage)
      (batches others : List (List StorageWrite)) (reported₁ reported₂ : List (Option StorageChange))
      (errors₁ errors₂ : List (Option String)),
      Cut urlParse area source hub session batches hub₁ session₁ reported₁ errors₁ →
      Cut urlParse area source hub session others hub₂ session₂ reported₂ errors₂ →
      batches.flatten = others.flatten → reported₁ = reported₂ ∧
        ∀ kind origin, hub₁.areaOf session₁ kind origin = hub₂.areaOf session₂ kind origin := by
  intro hinvisible
  have hlarge := byteLen_replicate (3 * 1024 * 1024)
  obtain ⟨_, _, _, _, hbatched⟩ := cut_batched hlarge
  obtain ⟨_, _, _, _, hsingly⟩ := cut_singly hlarge
  have hsame := (hinvisible _ _ _ _ _ _ _ _ _ _ _ _ _ _ _ hbatched hsingly rfl).1
  rw [full_reports hbatched, full_reports hsingly] at hsame
  exact reports_differ hlarge hsame

end StorageCoordinator

end BetterWebBrowser.Storage
