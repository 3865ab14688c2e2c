import BetterWebBrowser.Storage.BatchRun

/-!
# The replica of a document

A projection keeps the authoritative map it has heard of, the writes the authority has not
acknowledged yet and the map that the page sees, which is the former under the latter. An
update that fails leaves the projection alone.
-/

namespace BetterWebBrowser.Storage

open Framework Navigation

structure StorageProjection where
  base : StorageAreaState
  visible : StorageAreaState
  pending : List StorageWrite
  lastSequence : Nat
  acknowledged : Nat
  pendingBytes : Nat
deriving DecidableEq

namespace StorageProjection

def fromSnapshot (snapshot : StorageAreaSnapshot) : StorageResult StorageProjection :=
  match StorageAreaState.fromSnapshot snapshot with
  | .error error => .error error
  | .ok base => .ok ⟨base, base, [], 0, 0, 0⟩

def view (projection : StorageProjection) : StorageAreaState := projection.visible

/-- What a pending write costs of the journal's budget. -/
def writeBytes (write : StorageWrite) : Nat := write.mutation.byteLen + Str.byteLen write.sourceUrl

/-- The journal has no room for a `Set`; removals are always admitted. -/
def journalFull (projection : StorageProjection) (mutation : StorageMutation) (sourceUrl : Str) : Bool :=
  match mutation.operation with
  | .Set _ _ =>
    decide (MAX_PENDING_STORAGE_BYTES <
        projection.pendingBytes + (mutation.byteLen + Str.byteLen sourceUrl) ∨
      MAX_QUEUED_BROWSER_WRITES ≤ projection.pending.length)
  | _ => false

/-- A synchronous write of the page; without a change there is nothing to send. -/
def write (projection : StorageProjection) (area : StorageAreaKind) (sourceUrl : Str)
    (operation : StorageOperation) : StorageResult (StorageProjection × Option StorageWrite) :=
  if ¬ projection.visible.operationChanges operation then .ok (projection, none)
  else
    let mutation : StorageMutation := ⟨area, projection.visible.version, operation⟩
    if projection.journalFull mutation sourceUrl then .error .QuotaExceeded
    else if projection.lastSequence = U64_MAX then
      .error (.Invalid "storage write sequence exhausted")
    else
      let write : StorageWrite := ⟨projection.lastSequence + 1, sourceUrl, mutation⟩
      match write.validate with
      | .error error => .error error
      | .ok () =>
        match projection.visible.apply write.mutation with
        | .error error => .error error
        | .ok (visible, _) =>
          .ok ({ projection with
              visible := visible,
              pending := projection.pending ++ [write],
              lastSequence := projection.lastSequence + 1,
              pendingBytes := projection.pendingBytes + writeBytes write }, some write)

/-- The entries under a list of pending writes; quotas play no role here. -/
def overlay (entries : OrdMap StorageString StorageString) (pending : List StorageWrite) :
    OrdMap StorageString StorageString :=
  pending.foldl (fun entries write => StorageAreaState.applyEntries entries write.operation) entries

/-- The authoritative map after an update. -/
def advance (base : StorageAreaState) (update : StorageUpdate) : StorageResult StorageAreaState :=
  match update.change with
  | some change =>
    if base.version = U64_MAX then .error (.Invalid "storage version exhausted")
    else if change.version ≠ base.version + 1 then .error (.Invalid "storage update order")
    else if change.key.any fun key => decide (base.entries.get key ≠ change.oldValue) then
      .error (.Invalid "storage change old value")
    else
      match base.apply ⟨update.area, base.version, change.operation⟩ with
      | .error error => .error error
      | .ok (_, false) => .error (.Invalid "redundant storage change")
      | .ok (base, true) => .ok base
  | none =>
    if update.version ≠ base.version then .error (.Invalid "storage acknowledgement version")
    else .ok base

/-- The acknowledged write did to the base what it did to the visible map. -/
def preservesProjection (projection : StorageProjection) (update : StorageUpdate) : Bool :=
  decide (update.acknowledgement ≠ 0) && projection.pending.head?.any fun write =>
    match update.change with
    | none => !projection.base.operationChanges write.operation
    | some change => decide (change.operation = write.operation)

def apply (projection : StorageProjection) (update : StorageUpdate) : StorageResult StorageProjection :=
  match update.validate with
  | .error error => .error error
  | .ok () =>
    if update.acknowledgement ≠ 0 ∧ (update.acknowledgement ≠ projection.acknowledged + 1 ∨
        projection.pending.head?.map StorageWrite.sequence ≠ some update.acknowledgement) then
      .error (.Invalid "storage acknowledgement order")
    else
      match advance projection.base update with
      | .error error => .error error
      | .ok base =>
        let retired :=
          if update.acknowledgement ≠ 0 then
            { projection with
                base := base,
                pending := projection.pending.tail,
                pendingBytes := projection.pendingBytes - (projection.pending.head?.elim 0 writeBytes),
                acknowledged := update.acknowledgement }
          else { projection with base := base }
        if projection.preservesProjection update then
          .ok { retired with visible := { projection.visible with version := base.version } }
        else .ok { retired with visible := { base with entries := overlay base.entries retired.pending } }

/-! ## The visible map -/

/-- The page sees the base under the pending writes. -/
structure Consistent (projection : StorageProjection) : Prop where
  entries_eq : projection.visible.entries = overlay projection.base.entries projection.pending
  version_eq : projection.pending = [] → projection.visible.version = projection.base.version

@[simp] theorem overlay_nil (entries : OrdMap StorageString StorageString) : overlay entries [] = entries :=
  rfl

@[simp] theorem overlay_cons (entries : OrdMap StorageString StorageString) (write : StorageWrite)
    (pending : List StorageWrite) :
    overlay entries (write :: pending) =
      overlay (StorageAreaState.applyEntries entries write.operation) pending := rfl

theorem overlay_append (entries : OrdMap StorageString StorageString)
    (first second : List StorageWrite) :
    overlay entries (first ++ second) = overlay (overlay entries first) second := by
  simp [overlay]

theorem fromSnapshot_consistent {snapshot : StorageAreaSnapshot} {projection : StorageProjection}
    (h : fromSnapshot snapshot = .ok projection) : projection.Consistent := by
  unfold fromSnapshot at h
  cases hbase : StorageAreaState.fromSnapshot snapshot with
  | error e => simp [hbase] at h
  | ok base =>
    simp only [hbase, Except.ok.injEq] at h
    subst h
    exact ⟨rfl, fun _ => rfl⟩

/-- A write that is sent joins the journal and acts on the visible map. -/
theorem write_ok {projection projection' : StorageProjection} {area : StorageAreaKind}
    {sourceUrl : Str} {operation : StorageOperation} {sent : Option StorageWrite}
    (h : projection.write area sourceUrl operation = .ok (projection', sent)) :
    (sent = none ∧ projection' = projection) ∨
      ∃ write, sent = some write ∧ write.sequence = projection.lastSequence + 1 ∧
        write.mutation.area = area ∧ write.operation = operation ∧
        projection'.base = projection.base ∧ projection'.pending = projection.pending ++ [write] ∧
        projection'.lastSequence = projection.lastSequence + 1 ∧
        projection'.acknowledged = projection.acknowledged ∧
        projection'.visible = projection.visible.after operation := by
  by_cases hchanges : projection.visible.operationChanges operation = true
  · by_cases hfull : projection.journalFull ⟨area, projection.visible.version, operation⟩ sourceUrl = true
    · simp [write, hchanges, hfull] at h
    · by_cases hlast : projection.lastSequence = U64_MAX
      · simp [write, hchanges, hfull, hlast] at h
      · simp only [write, hchanges, hfull, hlast, not_true_eq_false, Bool.false_eq_true, if_false] at h
        cases hvalid : StorageWrite.validate ⟨projection.lastSequence + 1, sourceUrl,
            ⟨area, projection.visible.version, operation⟩⟩ with
        | error e => simp [hvalid] at h
        | ok u =>
          simp only [hvalid] at h
          cases happly : projection.visible.apply ⟨area, projection.visible.version, operation⟩ with
          | error e => simp [happly] at h
          | ok result =>
            obtain ⟨visible, changed⟩ := result
            simp only [happly, Except.ok.injEq, Prod.mk.injEq] at h
            obtain ⟨rfl, rfl⟩ := h
            exact Or.inr ⟨_, rfl, rfl, rfl, rfl, rfl, rfl, rfl, rfl,
              (StorageAreaState.apply_ok happly).2.2.2.1⟩
  · simp only [write, hchanges, Bool.false_eq_true, not_false_eq_true, if_true, Except.ok.injEq,
      Prod.mk.injEq] at h
    exact Or.inl ⟨h.2.symm, h.1.symm⟩

theorem Consistent.write {projection projection' : StorageProjection} {area : StorageAreaKind}
    {sourceUrl : Str} {operation : StorageOperation} {sent : Option StorageWrite}
    (hc : projection.Consistent)
    (h : projection.write area sourceUrl operation = .ok (projection', sent)) :
    projection'.Consistent := by
  rcases write_ok h with ⟨_, rfl⟩ | ⟨write, _, _, _, hoperation, hbase, hpending, _, _, hvisible⟩
  · exact hc
  · refine ⟨?_, ?_⟩
    · rw [hvisible, hbase, hpending, overlay_append, ← hc.entries_eq,
        StorageAreaState.after_entries, overlay_cons, overlay_nil, hoperation]
    · intro hnil
      simp [hpending] at hnil

/-! ## Updates -/

/-- The base an update leads to. -/
theorem advance_ok {base base' : StorageAreaState} {update : StorageUpdate}
    (h : advance base update = .ok base') :
    base' = update.change.elim base fun change => base.after change.operation := by
  unfold advance at h
  cases hchange : update.change with
  | none =>
    simp only [hchange] at h
    split_ifs at h
    exact (Except.ok.inj h).symm
  | some change =>
    simp only [hchange] at h
    split_ifs at h
    cases happly : base.apply ⟨update.area, base.version, change.operation⟩ with
    | error e => simp [happly] at h
    | ok result =>
      obtain ⟨next, changed⟩ := result
      cases changed with
      | false => simp [happly] at h
      | true =>
        simp only [happly, Except.ok.injEq] at h
        subst h
        exact (StorageAreaState.apply_ok happly).2.2.2.1

/-- What makes an update acceptable: it continues the base and, if it acknowledges, it
names the oldest pending write and its operation. -/
structure Receives (base : StorageAreaState) (pending : List StorageWrite) (acknowledged : Nat)
    (update : StorageUpdate) (base' : StorageAreaState) (pending' : List StorageWrite)
    (acknowledged' : Nat) : Prop where
  valid : update.validate = .ok ()
  advances : advance base update = .ok base'
  acknowledges :
    (update.acknowledgement = 0 ∧ pending' = pending ∧ acknowledged' = acknowledged) ∨
    (update.acknowledgement = acknowledged + 1 ∧ acknowledged' = acknowledged + 1 ∧
      ∃ write, pending = write :: pending' ∧ write.sequence = acknowledged + 1 ∧
        ∀ change, update.change = some change → change.operation = write.operation)

/-- An acceptable update is accepted and keeps the page's map consistent. -/
theorem apply_of_receives {projection : StorageProjection} {update : StorageUpdate}
    {base' : StorageAreaState} {pending' : List StorageWrite} {acknowledged' : Nat}
    (hc : projection.Consistent)
    (h : Receives projection.base projection.pending projection.acknowledged update base' pending'
      acknowledged') :
    ∃ projection', projection.apply update = .ok projection' ∧ projection'.base = base' ∧
      projection'.pending = pending' ∧ projection'.acknowledged = acknowledged' ∧
      projection'.lastSequence = projection.lastSequence ∧ projection'.Consistent := by
  have hbase := advance_ok h.advances
  rcases h.acknowledges with ⟨hzero, rfl, rfl⟩ | ⟨hack, rfl, write, hpending, hsequence, hoperation⟩
  · have hforeign : projection.preservesProjection update = false := by
      simp [preservesProjection, hzero]
    simp only [apply, h.valid, hzero, ne_eq, not_true_eq_false, false_and, if_false, h.advances,
      hforeign, Bool.false_eq_true]
    exact ⟨_, rfl, rfl, rfl, rfl, rfl, rfl, fun hnil => rfl⟩
  · have hne : update.acknowledgement ≠ 0 := by omega
    have hhead : projection.pending.head? = some write := by rw [hpending]; rfl
    have htail : projection.pending.tail = pending' := by rw [hpending]; rfl
    have horder : ¬ (update.acknowledgement ≠ 0 ∧
        (update.acknowledgement ≠ projection.acknowledged + 1 ∨
          projection.pending.head?.map StorageWrite.sequence ≠ some update.acknowledgement)) := by
      simp [hack, hhead, hsequence]
    have hentries : projection.preservesProjection update = true →
        base'.entries = StorageAreaState.applyEntries projection.base.entries write.operation := by
      intro hkeep
      simp only [preservesProjection, hhead, Option.any_some, Bool.and_eq_true] at hkeep
      cases hchange : update.change with
      | none =>
        have hsame : projection.base.operationChanges write.operation = false := by
          simpa [hchange] using hkeep.2
        rw [hbase, hchange, Option.elim_none, StorageAreaState.applyEntries_of_unchanged hsame]
      | some change =>
        rw [hbase, hchange, Option.elim_some, StorageAreaState.after_entries,
          hoperation change hchange]
    simp only [apply, h.valid]
    rw [if_neg horder]
    simp only [h.advances, if_pos hne]
    cases hkeep : projection.preservesProjection update with
    | true =>
      refine ⟨_, rfl, rfl, htail, hack, rfl, ?_, fun _ => rfl⟩
      simp only [hc.entries_eq, hpending, List.tail_cons, overlay_cons, hentries hkeep]
    | false => exact ⟨_, rfl, rfl, htail, hack, rfl, rfl, fun _ => rfl⟩

end StorageProjection

end BetterWebBrowser.Storage
