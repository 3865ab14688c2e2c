import BetterWebBrowser.Storage.Delivery
import BetterWebBrowser.Storage.Projection

/-!
# Documents converge to the authority

A queue replays the authority for its document: read from the base of the document, the
queued updates lead to the map of the authority and leave exactly the writes that have not
been submitted. Every step of the system keeps this, whatever is refused or fails on disk.
-/

namespace BetterWebBrowser.Storage

open Framework Navigation

open StorageProjection StorageCoordinator

/-! ## Replaying a queue -/

/-- The queue leads from `base` with `pending` and `acknowledged` to `final`, `rest`, `last`. -/
def Replays : StorageAreaState → List StorageWrite → Nat → List StorageUpdate →
    StorageAreaState → List StorageWrite → Nat → Prop
  | base, pending, acknowledged, [], final, rest, last =>
    base = final ∧ pending = rest ∧ acknowledged = last
  | base, pending, acknowledged, update :: queue, final, rest, last =>
    ∃ base' pending' acknowledged',
      Receives base pending acknowledged update base' pending' acknowledged' ∧
        Replays base' pending' acknowledged' queue final rest last

namespace Replays

theorem append {base middle final : StorageAreaState} {pending between rest : List StorageWrite}
    {acknowledged count last : Nat} {first second : List StorageUpdate}
    (h : Replays base pending acknowledged first middle between count)
    (h' : Replays middle between count second final rest last) :
    Replays base pending acknowledged (first ++ second) final rest last := by
  induction first generalizing base pending acknowledged with
  | nil =>
    obtain ⟨rfl, rfl, rfl⟩ := h
    exact h'
  | cons update first ih =>
    obtain ⟨_, _, _, hreceives, hrest⟩ := h
    exact ⟨_, _, _, hreceives, ih hrest⟩

/-- Writes that join the journal stay behind the ones the queue acknowledges. -/
theorem extend {base final : StorageAreaState} {pending rest : List StorageWrite}
    {acknowledged last : Nat} {queue : List StorageUpdate} (more : List StorageWrite)
    (h : Replays base pending acknowledged queue final rest last) :
    Replays base (pending ++ more) acknowledged queue final (rest ++ more) last := by
  induction queue generalizing base pending acknowledged with
  | nil =>
    obtain ⟨rfl, rfl, rfl⟩ := h
    exact ⟨rfl, rfl, rfl⟩
  | cons update queue ih =>
    obtain ⟨base', pending', acknowledged', hreceives, hrest⟩ := h
    refine ⟨base', pending' ++ more, acknowledged', ⟨hreceives.valid, hreceives.advances, ?_⟩, ih hrest⟩
    rcases hreceives.acknowledges with ⟨hzero, rfl, rfl⟩ | ⟨hack, rfl, write, rfl, hwrite⟩
    · exact Or.inl ⟨hzero, rfl, rfl⟩
    · exact Or.inr ⟨hack, rfl, write, rfl, hwrite⟩

end Replays

/-! ## The updates of one write -/

@[simp] theorem before_operation (area : Option StorageAreaState) (operation : StorageOperation)
    (version : Nat) :
    StorageChange.operation { StorageChange.before area operation with version := version } =
      operation := by
  cases operation <;> rfl

section OneWrite

variable {area : StorageAreaState} {operation : StorageOperation}

private theorem validateBytes_ok {bytes : Nat} :
    validateBytes bytes = .ok () ↔ bytes ≤ MAX_STORAGE_BYTES_PER_ORIGIN := by
  unfold validateBytes
  split_ifs with h
  · simp [h]
  · simpa using h

private theorem oldBytes_le (hvalid : area.Valid) (key : StorageString)
    (hkey : key.byteLen ≤ MAX_STORAGE_BYTES_PER_ORIGIN) :
    key.byteLen + StorageChange.optionBytes (area.entries.get key) ≤ MAX_STORAGE_BYTES_PER_ORIGIN := by
  cases hget : area.entries.get key with
  | none => simpa [StorageChange.optionBytes] using hkey
  | some value => exact (OrdMap.le_weight_of_get entryBytes hget).trans hvalid.byteLen_le

/-- Mutations within the bounds make changes within the bounds. -/
private theorem change_validate {version : Nat} (hvalid : area.Valid) (hversion : version ≠ 0)
    (hmutation : StorageMutation.validate ⟨.Local, area.version, operation⟩ = .ok ()) :
    StorageChange.validate { StorageChange.before (some area) operation with version := version } =
      .ok () := by
  simp only [StorageMutation.validate, hvalid.version_pos.ne', if_false] at hmutation
  cases operation with
  | Set key value =>
    have hnew := validateBytes_ok.mp hmutation
    have hold := oldBytes_le hvalid key ((Nat.le_add_right _ _).trans hnew)
    simp only [StorageChange.validate, StorageChange.before, hversion, Option.bind_some]
    simp [StorageChange.optionBytes, validateBytes_ok.mpr hnew] at hold ⊢
    simp [validateBytes_ok.mpr hold]
  | Remove key =>
    have hnew := validateBytes_ok.mp hmutation
    have hold := oldBytes_le hvalid key hnew
    simp only [StorageChange.validate, StorageChange.before, hversion, Option.bind_some]
    simp [StorageChange.optionBytes, validateBytes_ok.mpr hnew] at hold ⊢
    simp [validateBytes_ok.mpr hold]
  | Clear =>
    simp [StorageChange.validate, StorageChange.before, hversion, StorageChange.optionBytes,
      validateBytes]

private theorem record_some {change : StorageChange} (h : area.record operation = some change) :
    area.operationChanges operation = true ∧
      change = { StorageChange.before (some area) operation with version := area.version + 1 } := by
  unfold StorageAreaState.record at h
  split_ifs at h with hchanges
  exact ⟨hchanges, (Option.some.inj h).symm⟩

private theorem record_none (h : area.record operation = none) :
    area.operationChanges operation = false := by
  unfold StorageAreaState.record at h
  split_ifs at h with hchanges
  simpa using hchanges

/-- Version of the map after the operation, as the updates carry it. -/
theorem record_version (area : StorageAreaState) (operation : StorageOperation) :
    (area.record operation).elim area.version StorageChange.version =
      (area.after operation).version := by
  cases h : area.record operation with
  | some change =>
    obtain ⟨hchanges, rfl⟩ := record_some h
    simp [StorageAreaState.after_version, hchanges]
  | none => simp [StorageAreaState.after_version, record_none h]

/-- The authority's change is one the base can follow. -/
private theorem advance_record (htakes : area.Takes operation) (acknowledgement : Nat) (url : Str) :
    advance area ⟨.Local, (area.after operation).version, acknowledgement, area.record operation, url⟩ =
      .ok (area.after operation) := by
  cases h : area.record operation with
  | none =>
    have hsame : area.after operation = area := by simp [StorageAreaState.after, record_none h]
    simp [advance, hsame]
  | some change =>
    obtain ⟨hchanges, rfl⟩ := record_some h
    have hlast := (StorageAreaState.apply_ok htakes).2.2.2.2 hchanges
    have hold : ((StorageChange.before (some area) operation).key.any fun key =>
        decide (area.entries.get key ≠ (StorageChange.before (some area) operation).oldValue)) =
          false := by
      cases operation <;> simp [StorageChange.before]
    have happly := htakes.apply .Local
    rw [hchanges] at happly
    simp only [advance, hlast, if_false, ne_eq, not_true_eq_false, before_operation, happly]
    simp only [ne_eq] at hold
    simp only [hold, Bool.false_eq_true, if_false]

/-- An update for a valid write is well formed. -/
private theorem update_validate {write : StorageWrite} (hvalid : area.Valid)
    (hwrite : write.validate = .ok ()) (htakes : area.Takes write.operation) (acknowledgement : Nat)
    (hack : acknowledgement ≠ 0 ∨ (area.record write.operation).isSome) :
    StorageUpdate.validate ⟨.Local, (area.after write.operation).version, acknowledgement,
      area.record write.operation, write.sourceUrl⟩ = .ok () := by
  have hversion : (area.after write.operation).version ≠ 0 := (htakes.valid hvalid).version_pos.ne'
  have hurl : ¬ MAX_URL_BYTES < Str.byteLen write.sourceUrl := by
    unfold StorageWrite.validate at hwrite
    split_ifs at hwrite with hidentity
    exact (not_or.mp hidentity).2
  have hempty : ¬ (acknowledgement = 0 ∧ area.record write.operation = none) := by
    rintro ⟨hzero, hnone⟩
    rcases hack with hne | hsome
    · exact hne hzero
    · simp [hnone] at hsome
  simp only [StorageUpdate.validate, hversion, hurl, hempty, or_self, if_false]
  cases h : area.record write.operation with
  | none => rfl
  | some change =>
    have hrecord := record_version area write.operation
    obtain ⟨_, rfl⟩ := record_some h
    rw [h, Option.elim_some] at hrecord
    change area.version + 1 = _ at hrecord
    have hmutation := (StorageAreaState.apply_ok htakes).1
    simp only [hrecord.symm, ne_eq, not_true_eq_false, if_false]
    exact change_validate hvalid (Nat.succ_ne_zero _) hmutation

/-- The source can follow the update of its oldest pending write. -/
private theorem receives_own {write : StorageWrite} (hvalid : area.Valid)
    (hwrite : write.validate = .ok ()) (htakes : area.Takes write.operation)
    (pending : List StorageWrite) {acknowledged : Nat} (hsequence : write.sequence = acknowledged + 1) :
    Receives area (write :: pending) acknowledged
      ⟨.Local, (area.after write.operation).version, write.sequence, area.record write.operation,
        write.sourceUrl⟩
      (area.after write.operation) pending (acknowledged + 1) := by
  refine ⟨update_validate hvalid hwrite htakes _ (Or.inl (by omega)), advance_record htakes _ _,
    Or.inr ⟨hsequence, rfl, write, rfl, hsequence, ?_⟩⟩
  intro change h
  obtain ⟨_, rfl⟩ := record_some h
  exact before_operation _ _ _

/-- Any other document can follow the change. -/
private theorem receives_foreign {write : StorageWrite} (hvalid : area.Valid)
    (hwrite : write.validate = .ok ()) (htakes : area.Takes write.operation)
    (hsome : (area.record write.operation).isSome) (pending : List StorageWrite)
    (acknowledged : Nat) :
    Receives area pending acknowledged
      ⟨.Local, (area.after write.operation).version, 0, area.record write.operation, write.sourceUrl⟩
      (area.after write.operation) pending acknowledged :=
  ⟨update_validate hvalid hwrite htakes 0 (Or.inr hsome), advance_record htakes 0 _,
    Or.inl ⟨rfl, rfl, rfl⟩⟩

/-- The source retires a refused write without moving its base. -/
private theorem receives_refused {write : StorageWrite} (hvalid : area.Valid)
    (hwrite : write.validate = .ok ()) (pending : List StorageWrite) {acknowledged : Nat}
    (hsequence : write.sequence = acknowledged + 1) :
    Receives area (write :: pending) acknowledged
      ⟨.Local, area.version, write.sequence, none, write.sourceUrl⟩ area pending (acknowledged + 1) := by
  refine ⟨?_, by simp [advance], Or.inr ⟨hsequence, rfl, write, rfl, hsequence, by simp⟩⟩
  have hidentity : write.sequence ≠ 0 ∧ ¬ MAX_URL_BYTES < Str.byteLen write.sourceUrl := by
    unfold StorageWrite.validate at hwrite
    split_ifs at hwrite with hidentity
    exact not_or.mp hidentity
  simp [StorageUpdate.validate, hvalid.version_pos.ne', hidentity]

end OneWrite

/-! ## The updates of a batch -/

section Batch

variable {area : StorageAreaState} {writes : List StorageWrite}

theorem replays_accepted (hvalid : area.Valid) (hadmits : area.Admits (operations writes))
    (hwrites : ∀ write ∈ writes, write.validate = .ok ()) {acknowledged : Nat}
    (hnumbered : Numbered acknowledged writes) (rest : List StorageWrite) :
    Replays area (writes ++ rest) acknowledged
      (makeUpdates .Local true area.version writes (area.records (operations writes)))
      (area.run (operations writes)) rest (acknowledged + writes.length) := by
  induction writes generalizing area acknowledged with
  | nil => exact ⟨rfl, rfl, rfl⟩
  | cons write writes ih =>
    have htail := ih (hadmits.1.valid hvalid) hadmits.2
      (fun w hw => hwrites w (List.mem_cons_of_mem _ hw)) hnumbered.2
    simp only [makeUpdates, operations_cons, StorageAreaState.records, record_version, Bool.true_or,
      if_true, List.length_cons]
    rw [Nat.add_right_comm] at htail
    exact ⟨_, _, _, receives_own hvalid (hwrites write List.mem_cons_self) hadmits.1 _ hnumbered.1, htail⟩

theorem replays_foreign (hvalid : area.Valid) (hadmits : area.Admits (operations writes))
    (hwrites : ∀ write ∈ writes, write.validate = .ok ()) (pending : List StorageWrite)
    (acknowledged : Nat) :
    Replays area pending acknowledged
      (makeUpdates .Local false area.version writes (area.records (operations writes)))
      (area.run (operations writes)) pending acknowledged := by
  induction writes generalizing area with
  | nil => exact ⟨rfl, rfl, rfl⟩
  | cons write writes ih =>
    have htail := ih (hadmits.1.valid hvalid) hadmits.2
      (fun w hw => hwrites w (List.mem_cons_of_mem _ hw))
    simp only [makeUpdates, operations_cons, StorageAreaState.records, record_version, Bool.false_or,
      Bool.false_eq_true, if_false]
    cases h : area.record write.operation with
    | some change =>
      have hreceives := receives_foreign hvalid (hwrites write List.mem_cons_self) hadmits.1
        (by simp [h]) pending acknowledged
      rw [h] at hreceives
      exact ⟨_, _, _, hreceives, htail⟩
    | none =>
      have hsame : area.after write.operation = area := by
        simp [StorageAreaState.after, record_none h]
      rw [hsame] at htail
      simpa [hsame] using htail

theorem replays_rejected (hvalid : area.Valid)
    (hwrites : ∀ write ∈ writes, write.validate = .ok ()) {acknowledged : Nat}
    (hnumbered : Numbered acknowledged writes) (rest : List StorageWrite) :
    Replays area (writes ++ rest) acknowledged
      (makeUpdates .Local true area.version writes (writes.map fun _ => none)) area rest
      (acknowledged + writes.length) := by
  induction writes generalizing acknowledged with
  | nil => exact ⟨rfl, rfl, rfl⟩
  | cons write writes ih =>
    have htail := ih (fun w hw => hwrites w (List.mem_cons_of_mem _ hw)) hnumbered.2
    rw [Nat.add_right_comm] at htail
    exact ⟨_, _, _, receives_refused hvalid (hwrites write List.mem_cons_self) _ hnumbered.1, htail⟩

end Batch

/-! ## The system -/

/-- A document: its replica and the writes it has not submitted. -/
structure Document where
  projection : StorageProjection
  outbox : List StorageWrite

/-- The coordinator and the live documents by subscription. -/
structure System where
  hub : StorageCoordinator
  documents : Nat → Option Document

/-- `submit` hands over the first `count` unsubmitted writes; the disk and the session storage
of the caller are free at each call. -/
inductive SystemAction
  | subscribe (url : Str)
  | drop (id : Nat)
  | write (id : Nat) (url : Str) (operation : StorageOperation)
  | submit (id count : Nat) (persist : Persist) (session : SessionStorage)
  | deliver (id : Nat) (accepts : StorageUpdate → Bool)

namespace System

def start (authority : LocalStorage) : System := ⟨new authority, fun _ => none⟩

def setDocument (system : System) (id : Nat) (document : Option Document) : System :=
  { system with documents := Function.update system.documents id document }

def subscribe (urlParse : Str → Option Url) (system : System) (url : Str) : System :=
  match system.hub.subscribe urlParse url with
  | (hub, .error _) => { system with hub := hub }
  | (hub, .ok (snapshot, id)) =>
    match StorageProjection.fromSnapshot snapshot with
    | .error _ => { system with hub := hub }
    | .ok projection => { system with hub := hub }.setDocument id (some ⟨projection, []⟩)

def write (system : System) (id : Nat) (url : Str) (operation : StorageOperation) : System :=
  match system.documents id with
  | none => system
  | some document =>
    match document.projection.write .Local url operation with
    | .error _ => system
    | .ok (projection, sent) =>
      system.setDocument id (some ⟨projection, document.outbox ++ sent.toList⟩)

/-- Only `ok true` takes the batch out of the outbox; it is retried otherwise. -/
def submit (urlParse : Str → Option Url) (system : System) (id count : Nat) (persist : Persist)
    (session : SessionStorage) : System :=
  match system.documents id with
  | none => system
  | some document =>
    match system.hub.apply urlParse persist id (document.outbox.take count) session with
    | (hub, _, .ok true) =>
      { system with hub := hub }.setDocument id
        (some { document with outbox := document.outbox.drop count })
    | (hub, _, _) => { system with hub := hub }

/-- A refused update would leave the document where it was. -/
def deliver (system : System) (id : Nat) (accepts : StorageUpdate → Bool) : System :=
  match system.documents id with
  | none => system
  | some document =>
    match system.hub.takeIf id accepts with
    | (hub, none) => { system with hub := hub }
    | (hub, some update) =>
      match document.projection.apply update with
      | .error _ => { system with hub := hub }
      | .ok projection =>
        { system with hub := hub }.setDocument id (some { document with projection := projection })

def step (urlParse : Str → Option Url) (system : System) : SystemAction → System
  | .subscribe url => system.subscribe urlParse url
  | .drop id => { system with hub := system.hub.unsubscribe id }.setDocument id none
  | .write id url operation => system.write id url operation
  | .submit id count persist session => system.submit urlParse id count persist session
  | .deliver id accepts => system.deliver id accepts

/-! ## The invariant -/

/-- The document's replica is its queue away from the map of the authority. -/
structure Tracks (area : StorageAreaState) (endpoint : Endpoint) (document : Document) : Prop where
  replays : Replays document.projection.base document.projection.pending
    document.projection.acknowledged endpoint.queue area document.outbox (endpoint.sequences .Local)
  numbered : Numbered (endpoint.sequences .Local) document.outbox
  last_eq : document.projection.lastSequence = endpoint.sequences .Local + document.outbox.length
  areas : ∀ write ∈ document.outbox, write.mutation.area = .Local
  consistent : document.projection.Consistent

structure Invariant (system : System) : Prop where
  valid : system.hub.localStorage.origins.Valid
  fresh : ∀ id endpoint, system.hub.find id = some endpoint → id < system.hub.nextId
  tracks : ∀ id document, system.documents id = some document →
    ∃ endpoint, system.hub.find id = some endpoint ∧
      Tracks (system.hub.localStorage.origins.area endpoint.origin) endpoint document

theorem numbered_append {n : Nat} {first second : List StorageWrite} :
    Numbered n (first ++ second) ↔ Numbered n first ∧ Numbered (n + first.length) second := by
  induction first generalizing n with
  | nil => simp [Numbered]
  | cons write first ih =>
    have hcount : n + 1 + first.length = n + (first.length + 1) := by omega
    simp only [List.cons_append, Numbered, ih, List.length_cons, hcount, and_assoc]

/-- A document that starts from the snapshot is level with the authority. -/
theorem tracks_new {area : StorageAreaState} (hvalid : area.Valid) (origin : Str) :
    ∃ projection, StorageProjection.fromSnapshot area.snapshot = .ok projection ∧
      Tracks area ⟨origin, [], 0, fun _ => 0, none⟩ ⟨projection, []⟩ := by
  have hprojection : StorageProjection.fromSnapshot area.snapshot = .ok ⟨area, area, [], 0, 0, 0⟩ := by
    simp [StorageProjection.fromSnapshot, hvalid.fromSnapshot_snapshot]
  exact ⟨_, hprojection, ⟨rfl, rfl, rfl⟩, trivial, rfl, by simp, fromSnapshot_consistent hprojection⟩

theorem Tracks.write {area : StorageAreaState} {endpoint : Endpoint} {document : Document}
    (h : Tracks area endpoint document) {url : Str} {operation : StorageOperation}
    {projection : StorageProjection} {sent : Option StorageWrite}
    (hwrite : document.projection.write .Local url operation = .ok (projection, sent)) :
    Tracks area endpoint ⟨projection, document.outbox ++ sent.toList⟩ := by
  have hconsistent := h.consistent.write hwrite
  rcases write_ok hwrite with
    ⟨rfl, rfl⟩ | ⟨write, rfl, hsequence, harea, _, hbase, hpending, hlast, hack, _⟩
  · simpa using h
  · refine ⟨?_, ?_, ?_, ?_, hconsistent⟩
    · simp only [hbase, hpending, hack]
      exact h.replays.extend [write]
    · exact numbered_append.mpr ⟨h.numbered, by rw [hsequence, h.last_eq], trivial⟩
    · simp only [hlast, h.last_eq, Option.toList_some, List.length_append, List.length_singleton]
      omega
    · intro w hw
      rcases List.mem_append.mp hw with hw | hw
      · exact h.areas w hw
      · rw [List.mem_singleton.mp hw, harea]

/-- The front update is accepted, and the rest of the queue still leads to the authority. -/
theorem Tracks.deliver {area : StorageAreaState} {endpoint : Endpoint} {document : Document}
    (h : Tracks area endpoint document) {update : StorageUpdate} {queue : List StorageUpdate}
    (hqueue : endpoint.queue = update :: queue) (bytes : Nat) :
    ∃ projection, document.projection.apply update = .ok projection ∧
      Tracks area { endpoint with queue := queue, bytes := bytes }
        { document with projection := projection } := by
  have hreplays := h.replays
  rw [hqueue] at hreplays
  obtain ⟨base', pending', acknowledged', hreceives, hrest⟩ := hreplays
  obtain ⟨projection, happly, rfl, rfl, rfl, hlast, hconsistent⟩ :=
    apply_of_receives h.consistent hreceives
  exact ⟨projection, happly, hrest, h.numbered, hlast.trans h.last_eq, h.areas, hconsistent⟩

section Published

variable {urlParse : Str → Option Url} {persist : Persist} {hub hub' : StorageCoordinator}
  {session session' : SessionStorage} {batch : Batch} {source : Endpoint}
  {changes : List (Option StorageChange)} {rejection : Option String}

/-- Own batches: the acknowledgements continue the queue up to the new map. -/
theorem Tracks.submitted
    (h : Published urlParse persist hub session batch source changes rejection hub' session')
    (hvalid : (hub.localStorage.origins.area source.origin).Valid) {document : Document}
    (ht : Tracks (hub.localStorage.origins.area source.origin) source document) {count : Nat}
    (hwrites : batch.writes = document.outbox.take count) (hne : batch.writes ≠ []) :
    Tracks (hub'.localStorage.origins.area source.origin)
      (batch.deliver changes rejection batch.source source)
      { document with outbox := document.outbox.drop count } := by
  obtain ⟨hlast, hnumbered, hchecked⟩ := checkWrites_ok h.checked
  have harea : batch.area = .Local := by
    obtain ⟨write, hwrite⟩ := List.exists_mem_of_ne_nil _ hne
    rw [← (hchecked write hwrite).2.1]
    exact ht.areas write (List.mem_of_mem_take (hwrites ▸ hwrite))
  have hvalidWrites : ∀ write ∈ batch.writes, write.validate = .ok () :=
    fun write hwrite => (hchecked write hwrite).1
  have hversion : batch.version = (hub.localStorage.origins.area source.origin).version := by
    rw [h.version_eq, h.origin_eq, harea]
    rfl
  have hsplit : document.outbox = batch.writes ++ document.outbox.drop count := by
    rw [hwrites, List.take_append_drop]
  have hlength : document.outbox.length = batch.writes.length + (document.outbox.drop count).length := by
    rw [← List.length_append, ← hsplit]
  rw [harea] at hlast hnumbered
  have hupdates : batch.updates changes batch.source =
      makeUpdates .Local true (hub.localStorage.origins.area source.origin).version batch.writes
        changes := by
    simp [Batch.updates, harea, hversion]
  -- The acknowledgements lead from the map before the batch to the map after it.
  have hreplay : Replays (hub.localStorage.origins.area source.origin) document.outbox
      (source.sequences .Local) (batch.updates changes batch.source)
      (hub'.localStorage.origins.area source.origin) (document.outbox.drop count) batch.sequence := by
    rw [hupdates, hlast]
    conv => arg 2; rw [hsplit]
    rcases h.outcome with ⟨_, haccepted⟩ | ⟨_, hrejected⟩
    · have hadmits := haccepted.admits
      have hchanges := haccepted.changes_eq
      have hrun := haccepted.area_eq
      rw [harea, h.origin_eq] at hadmits hchanges hrun
      simp only [areaOf] at hadmits hchanges hrun
      rw [hchanges, hrun]
      exact replays_accepted hvalid hadmits hvalidWrites hnumbered _
    · rw [hrejected.changes_eq, hrejected.local_eq]
      exact replays_rejected hvalid hvalidWrites hnumbered _
  have hsequence : Function.update source.sequences batch.area batch.sequence .Local = batch.sequence := by
    rw [harea, Function.update_self]
  rw [deliver_source]
  refine ⟨?_, ?_, ?_, fun write hwrite => ht.areas write (List.mem_of_mem_drop hwrite), ht.consistent⟩
  · simp only [hsequence]
    exact ht.replays.append hreplay
  · simp only [hsequence]
    have hboth := ht.numbered
    rw [hsplit, numbered_append] at hboth
    rw [hlast]
    exact hboth.2
  · simp only [hsequence]
    rw [ht.last_eq, hlast, hlength]
    omega

/-- Batches of other documents: every change of its origin reaches the queue. -/
theorem Tracks.received
    (h : Published urlParse persist hub session batch source changes rejection hub' session')
    {endpoint : Endpoint} (hvalid : (hub.localStorage.origins.area endpoint.origin).Valid)
    {document : Document} (ht : Tracks (hub.localStorage.origins.area endpoint.origin) endpoint document)
    {id : Nat} (hid : id ≠ batch.source) :
    Tracks (hub'.localStorage.origins.area endpoint.origin)
      (batch.deliver changes rejection id endpoint) document := by
  rw [deliver_other hid]
  split_ifs with htarget
  · obtain ⟨harea, horigin⟩ := htarget
    obtain ⟨_, _, hchecked⟩ := checkWrites_ok h.checked
    have hvalidWrites : ∀ write ∈ batch.writes, write.validate = .ok () :=
      fun write hwrite => (hchecked write hwrite).1
    have hversion : batch.version = (hub.localStorage.origins.area endpoint.origin).version := by
      rw [h.version_eq, ← horigin, harea]
      rfl
    have hupdates : batch.updates changes id =
        makeUpdates .Local false (hub.localStorage.origins.area endpoint.origin).version batch.writes
          changes := by
      simp [Batch.updates, harea, hversion, hid]
    have hreplay : Replays (hub.localStorage.origins.area endpoint.origin) document.outbox
        (endpoint.sequences .Local) (batch.updates changes id)
        (hub'.localStorage.origins.area endpoint.origin) document.outbox
        (endpoint.sequences .Local) := by
      rw [hupdates]
      rcases h.outcome with ⟨_, haccepted⟩ | ⟨_, hrejected⟩
      · have hadmits := haccepted.admits
        have hchanges := haccepted.changes_eq
        have hrun := haccepted.area_eq
        rw [harea, ← horigin] at hadmits hchanges hrun
        simp only [areaOf] at hadmits hchanges hrun
        rw [hchanges, hrun]
        exact replays_foreign hvalid hadmits hvalidWrites _ _
      · rw [hrejected.changes_eq, hrejected.local_eq, makeUpdates_other_none _ _ _ _ (by simp)]
        exact ⟨rfl, rfl, rfl⟩
    exact ⟨ht.replays.append hreplay, ht.numbered, ht.last_eq, ht.areas, ht.consistent⟩
  · have hother : StorageAreaKind.Local ≠ batch.area ∨ endpoint.origin ≠ batch.origin := by
      by_cases harea : batch.area = .Local
      · exact Or.inr fun horigin => htarget ⟨harea, horigin⟩
      · exact Or.inl (Ne.symm harea)
    have hsame : hub'.localStorage.origins.area endpoint.origin =
        hub.localStorage.origins.area endpoint.origin := h.areaOf_frame hother
    rw [hsame]
    exact ht

/-- A published batch keeps the quotas of the local store. -/
theorem published_valid
    (h : Published urlParse persist hub session batch source changes rejection hub' session')
    (hvalid : hub.localStorage.origins.Valid) : hub'.localStorage.origins.Valid := by
  rcases h.outcome with ⟨_, haccepted⟩ | ⟨_, hrejected⟩
  · have hframe := haccepted.frame
    cases harea : batch.area with
    | Local =>
      simp only [harea] at hframe
      intro origin area hget
      by_cases horigin : origin = batch.origin
      · have hrun := haccepted.area_eq
        have hadmits := haccepted.admits
        rw [harea] at hrun hadmits
        simp only [areaOf] at hrun hadmits
        have hnew : hub'.localStorage.origins.area batch.origin = area := by
          simp [Origins.area, ← horigin, hget]
        rw [← hnew, hrun]
        exact hadmits.valid (hvalid.area batch.origin)
      · exact hvalid origin area (hframe.2 origin horigin ▸ hget)
    | Session =>
      simp only [harea] at hframe
      exact hframe.1 ▸ hvalid
  · exact hrejected.local_eq ▸ hvalid

end Published

/-! ## Steps keep the invariant -/

section Steps

variable {urlParse : Str → Option Url} {system : System}

theorem setDocument_tracks {id : Nat} {document : Option Document}
    (h : ∀ other found, other ≠ id → system.documents other = some found →
      ∃ endpoint, system.hub.find other = some endpoint ∧
        Tracks (system.hub.localStorage.origins.area endpoint.origin) endpoint found)
    (hid : ∀ found, document = some found → ∃ endpoint, system.hub.find id = some endpoint ∧
      Tracks (system.hub.localStorage.origins.area endpoint.origin) endpoint found) :
    ∀ other found, (system.setDocument id document).documents other = some found →
      ∃ endpoint, (system.setDocument id document).hub.find other = some endpoint ∧
        Tracks ((system.setDocument id document).hub.localStorage.origins.area endpoint.origin)
          endpoint found := by
  intro other found hfound
  by_cases hother : other = id
  · subst hother
    exact hid found (by simpa [setDocument] using hfound)
  · exact h other found hother (by simpa [setDocument, hother] using hfound)

theorem Invariant.subscribe (h : system.Invariant) (url : Str) :
    (system.subscribe urlParse url).Invariant := by
  unfold System.subscribe
  rcases hsubscribe : system.hub.subscribe urlParse url with ⟨hub, result⟩
  obtain ⟨hlocal, ⟨hfind, hnext, error, rfl⟩ | ⟨origin, _, rfl, hnext, hfind⟩⟩ :=
    find_subscribe hsubscribe
  · refine ⟨hlocal ▸ h.valid, ?_, ?_⟩
    · intro id endpoint hid
      exact hnext ▸ h.fresh id endpoint (hfind id ▸ hid)
    · intro id document hdocument
      obtain ⟨endpoint, hid, htracks⟩ := h.tracks id document hdocument
      exact ⟨endpoint, (hfind id).trans hid, by rw [hlocal]; exact htracks⟩
  · have hvalid := h.valid.area origin
    obtain ⟨projection, hprojection, htracks⟩ := tracks_new hvalid origin
    have hnone : system.hub.find system.hub.nextId = none := by
      by_contra hsome
      obtain ⟨endpoint, hendpoint⟩ := Option.ne_none_iff_exists'.mp hsome
      exact lt_irrefl _ (h.fresh _ endpoint hendpoint)
    simp only [hprojection]
    refine ⟨hlocal ▸ h.valid, ?_, setDocument_tracks ?_ ?_⟩
    · intro id endpoint hid
      change hub.find id = some endpoint at hid
      change id < hub.nextId
      rw [hfind] at hid
      rcases Option.or_eq_some_iff.mp hid with hold | ⟨_, hnew⟩
      · have := h.fresh id endpoint hold
        omega
      · split_ifs at hnew with hsame
        omega
    · intro other found hne hfound
      obtain ⟨endpoint, hid, hold⟩ := h.tracks other found hfound
      exact ⟨endpoint, by rw [hfind, hid]; rfl, by rw [hlocal]; exact hold⟩
    · intro found hfound
      obtain rfl := Option.some.inj hfound
      refine ⟨⟨origin, [], 0, fun _ => 0, none⟩, ?_, by rw [hlocal]; exact htracks⟩
      rw [hfind, hnone, if_pos rfl]
      rfl

theorem Invariant.drop (h : system.Invariant) (id : Nat) :
    (step urlParse system (.drop id)).Invariant := by
  refine ⟨h.valid, ?_, setDocument_tracks ?_ (by simp)⟩
  · intro other endpoint hother
    change (system.hub.unsubscribe id).find other = some endpoint at hother
    rw [find_unsubscribe] at hother
    split_ifs at hother
    exact h.fresh other endpoint hother
  · intro other found hne hfound
    obtain ⟨endpoint, hid, htracks⟩ := h.tracks other found hfound
    exact ⟨endpoint, by rw [find_unsubscribe, if_neg hne, hid], htracks⟩

theorem Invariant.write (h : system.Invariant) (id : Nat) (url : Str) (operation : StorageOperation) :
    (system.write id url operation).Invariant := by
  unfold System.write
  cases hdocument : system.documents id with
  | none => exact h
  | some document =>
    cases hwrite : document.projection.write .Local url operation with
    | error e => simpa [hwrite] using h
    | ok result =>
      obtain ⟨projection, sent⟩ := result
      simp only [hwrite]
      refine ⟨h.valid, h.fresh, setDocument_tracks (fun other found _ => h.tracks other found) ?_⟩
      intro found hfound
      obtain rfl := Option.some.inj hfound
      obtain ⟨endpoint, hfind, htracks⟩ := h.tracks id document hdocument
      exact ⟨endpoint, hfind, htracks.write hwrite⟩

/-- Replacing the endpoint of one document keeps the others. -/
private theorem Invariant.update (h : system.Invariant) {id : Nat} {document : Document}
    {endpoint endpoint' : Endpoint} (hfind : system.hub.find id = some endpoint)
    (horigin : endpoint'.origin = endpoint.origin)
    (htracks : Tracks (system.hub.localStorage.origins.area endpoint.origin) endpoint' document) :
    (System.setDocument { system with hub := system.hub.update id endpoint' } id
      (some document)).Invariant := by
  have hupdate (other : Nat) : (system.hub.update id endpoint').find other =
      if other = id then some endpoint' else system.hub.find other := by
    rw [find_update]
    split_ifs with hother
    · rw [hother, hfind, Option.map_some]
    · rfl
  refine ⟨h.valid, ?_, setDocument_tracks ?_ ?_⟩
  · intro other found hother
    change (system.hub.update id endpoint').find other = some found at hother
    rw [hupdate] at hother
    split_ifs at hother with hid
    · exact hid ▸ h.fresh id endpoint hfind
    · exact h.fresh other found hother
  · intro other found hne hfound
    obtain ⟨old, hold, htracksOld⟩ := h.tracks other found hfound
    exact ⟨old, by rw [hupdate, if_neg hne, hold], htracksOld⟩
  · intro found hfound
    obtain rfl := Option.some.inj hfound
    exact ⟨endpoint', by rw [hupdate, if_pos rfl], by rw [horigin]; exact htracks⟩

private theorem setDocument_self (system : System) {id : Nat} {document : Document}
    (h : system.documents id = some document) : system.setDocument id (some document) = system := by
  simp only [setDocument, ← h, Function.update_eq_self]

theorem Invariant.deliver (h : system.Invariant) (id : Nat) (accepts : StorageUpdate → Bool) :
    (system.deliver id accepts).Invariant := by
  unfold System.deliver
  cases hdocument : system.documents id with
  | none => exact h
  | some document =>
    obtain ⟨endpoint, hfind, htracks⟩ := h.tracks id document hdocument
    have hstay : System.Invariant { system with hub := system.hub.update id endpoint } := by
      have hkept := h.update hfind rfl htracks
      rwa [setDocument_self { system with hub := system.hub.update id endpoint } hdocument] at hkept
    simp only [takeIf, hfind, Endpoint.takeIf]
    cases hqueue : endpoint.queue with
    | nil => exact hstay
    | cons update queue =>
      simp only
      by_cases haccepts : accepts update = true
      · obtain ⟨projection, happly, hnext⟩ := htracks.deliver hqueue (endpoint.bytes - update.byteLen)
        simp only [haccepts, if_true, happly]
        exact h.update hfind rfl hnext
      · simp only [haccepts, Bool.false_eq_true, if_false]
        exact hstay

theorem Invariant.submit (h : system.Invariant) (id count : Nat) (persist : Persist)
    (session : SessionStorage) : (system.submit urlParse id count persist session).Invariant := by
  unfold System.submit
  cases hdocument : system.documents id with
  | none => exact h
  | some document =>
    simp only
    rcases happly : system.hub.apply urlParse persist id (document.outbox.take count) session with
      ⟨hub, session', result⟩
    rcases apply_cases happly with
      ⟨hsame, hempty⟩ | ⟨rfl, batch, source, changes, rejection, rfl, hwrites, hne, hpublished⟩
    · have hkept : System.Invariant { system with hub := hub } := by
        refine ⟨hsame.local_eq ▸ h.valid, ?_, ?_⟩
        · intro other endpoint hother
          exact hsame.nextId_eq ▸ h.fresh other endpoint (hsame.find_eq other ▸ hother)
        · intro other found hfound
          obtain ⟨endpoint, hfind, htracks⟩ := h.tracks other found hfound
          exact ⟨endpoint, (hsame.find_eq other).trans hfind, by rw [hsame.local_eq]; exact htracks⟩
      cases result with
      | error e => exact hkept
      | ok taken =>
        cases taken with
        | false => exact hkept
        | true =>
          have hdrop : document.outbox.drop count = document.outbox := by
            have hsplit := List.take_append_drop count document.outbox
            rwa [hempty rfl, List.nil_append] at hsplit
          simp only [hdrop]
          rwa [setDocument_self { system with hub := hub } hdocument]
    · obtain ⟨endpoint, hfind, htracks⟩ := h.tracks batch.source document hdocument
      obtain rfl : source = endpoint := Option.some.inj (hpublished.source.symm.trans hfind)
      refine ⟨published_valid hpublished h.valid, ?_, setDocument_tracks ?_ ?_⟩
      · intro other found hother
        change hub.find other = some found at hother
        rw [hpublished.find_eq] at hother
        obtain ⟨old, hold, _⟩ := Option.map_eq_some_iff.mp hother
        exact hpublished.nextId_eq ▸ h.fresh other old hold
      · intro other found hother hfound
        obtain ⟨old, hold, htracksOld⟩ := h.tracks other found hfound
        refine ⟨_, by rw [hpublished.find_eq, hold]; rfl, ?_⟩
        have hnext := Tracks.received hpublished (h.valid.area _) htracksOld hother
        rwa [deliver_origin]
      · intro found hfound
        obtain rfl := Option.some.inj hfound
        refine ⟨_, by rw [hpublished.find_eq, hfind]; rfl, ?_⟩
        have hnext := Tracks.submitted hpublished (h.valid.area _) htracks hwrites (hwrites ▸ hne)
        rwa [deliver_origin]

end Steps

theorem step_invariant {urlParse : Str → Option Url} {system : System} (h : system.Invariant)
    (action : SystemAction) : (step urlParse system action).Invariant := by
  cases action with
  | subscribe url => exact h.subscribe url
  | drop id => exact h.drop id
  | write id url operation => exact h.write id url operation
  | submit id count persist session => exact h.submit id count persist session
  | deliver id accepts => exact h.deliver id accepts

theorem run_invariant {urlParse : Str → Option Url} {authority : LocalStorage}
    (hvalid : authority.origins.Valid) {actions : List SystemAction} {system : System}
    (h : Run (fun s action t => t = step urlParse s action) (start authority) actions system) :
    system.Invariant := by
  refine h.invariant Invariant ?_ ?_
  · exact ⟨hvalid, by simp [start, find, new], by simp [start]⟩
  · rintro s action _ hs rfl
    exact step_invariant hs action

/-- In every state of every run, each live document can apply the front update of its queue,
and once it has nothing left to submit or to receive it shows the authority's snapshot. -/
theorem documents_converge (urlParse : Str → Option Url) (authority : LocalStorage)
    (hvalid : authority.origins.Valid) (actions : List SystemAction) (system : System)
    (hrun : Run (fun s action t => t = step urlParse s action) (start authority) actions system)
    (id : Nat) (document : Document) (hdocument : system.documents id = some document) :
    ∃ endpoint, system.hub.find id = some endpoint ∧
      (∀ update, endpoint.queue.head? = some update →
        ∃ projection, document.projection.apply update = .ok projection) ∧
      (document.outbox = [] → endpoint.queue = [] →
        document.projection.view.snapshot = system.hub.localStorage.origins.snapshot endpoint.origin) := by
  obtain ⟨endpoint, hfind, htracks⟩ := (run_invariant hvalid hrun).tracks id document hdocument
  refine ⟨endpoint, hfind, ?_, ?_⟩
  · intro update hhead
    obtain ⟨queue, hqueue⟩ : ∃ queue, endpoint.queue = update :: queue := by
      cases hq : endpoint.queue with
      | nil => simp [hq] at hhead
      | cons first queue =>
        rw [hq] at hhead
        exact ⟨queue, by rw [Option.some.inj hhead]⟩
    obtain ⟨projection, happly, _⟩ := htracks.deliver hqueue 0
    exact ⟨projection, happly⟩
  · intro houtbox hqueue
    have hreplays := htracks.replays
    rw [hqueue, houtbox] at hreplays
    obtain ⟨hbase, hpending, _⟩ := hreplays
    have hentries := htracks.consistent.entries_eq
    rw [hpending, overlay_nil, hbase] at hentries
    have hversion := htracks.consistent.version_eq hpending
    rw [hbase] at hversion
    rw [Origins.snapshot_eq_area_snapshot]
    simp only [StorageAreaState.snapshot, view, hentries, hversion]

/-- Two documents, a concurrent write each, everything delivered. -/
def sampleActions : List SystemAction :=
  [.subscribe sampleUrl, .subscribe sampleUrl,
    .write 0 sampleUrl (.Set (sampleString 97) (sampleString 98)),
    .write 1 sampleUrl (.Set (sampleString 97) (sampleString 99)),
    .submit 0 1 (fun _ => .ok ()) ⟨OrdMap.empty⟩, .submit 1 1 (fun _ => .ok ()) ⟨OrdMap.empty⟩,
    .deliver 0 fun _ => true, .deliver 0 fun _ => true, .deliver 1 fun _ => true,
    .deliver 1 fun _ => true]

theorem documents_converge_sample : ∃ system document endpoint,
    Run (fun s action t => t = step sampleParse s action) (start ⟨OrdMap.empty⟩) sampleActions system ∧
      system.documents 0 = some document ∧ system.hub.find 0 = some endpoint ∧
      document.projection.view.snapshot = system.hub.localStorage.origins.snapshot endpoint.origin := by
  have hrun := Run.foldl (step sampleParse) (start ⟨OrdMap.empty⟩) sampleActions
  have hdone : ((sampleActions.foldl (step sampleParse) (start ⟨OrdMap.empty⟩)).documents 0).map
      Document.outbox = some [] := by decide
  have hempty : ((sampleActions.foldl (step sampleParse) (start ⟨OrdMap.empty⟩)).hub.find 0).map
      Endpoint.queue = some [] := by decide
  obtain ⟨document, hdocument, houtbox⟩ := Option.map_eq_some_iff.mp hdone
  have hvalid : Origins.Valid OrdMap.empty := by
    intro origin area hget
    cases hget
  obtain ⟨endpoint, hfind, _, hview⟩ :=
    documents_converge sampleParse ⟨OrdMap.empty⟩ hvalid sampleActions _ hrun 0 document hdocument
  rw [hfind, Option.map_some] at hempty
  exact ⟨_, document, endpoint, hrun, hdocument, hfind, hview houtbox (Option.some.inj hempty)⟩

end System

end BetterWebBrowser.Storage
