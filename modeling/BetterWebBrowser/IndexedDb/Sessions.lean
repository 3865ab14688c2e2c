import BetterWebBrowser.Framework.Outcome
import BetterWebBrowser.Framework.Transition
import BetterWebBrowser.IndexedDb.Model
import Mathlib.Logic.Function.Basic

/-!
# Runs of sessions

Which commits of readwrite sessions replace the database they were opened on. The check of a
commit compares a version and a generation, which a database that was deleted and created
again can have a second time.
-/

namespace BetterWebBrowser.IndexedDb

open Framework Navigation

variable {Records Operation Result : Type} {layer : RecordLayer Records Operation Result}
  {urlParse : Str → Option Url} {save : State Records → DbOutcome Unit}

/-! ## What an operation stores -/

/-- Two databases of the same version and generation. -/
def SameStamp (first second : Database Records) : Prop :=
  first.version = second.version ∧ first.generation = second.generation

private theorem applyOne_stamp {mode : TransactionMode} {database database' : Database Records}
    {operation : Operation} {result : Result}
    (h : applyOne layer mode database operation = .ok (result, database')) :
    SameStamp database' database := by
  rw [applyOne] at h
  split at h
  next => cases h
  next =>
    split at h
    next => cases h
    next store hstore =>
      obtain ⟨⟨result', store'⟩, -, h⟩ := bind_eq_ok.mp h
      cases h
      exact ⟨rfl, rfl⟩

theorem apply_stamp {mode : TransactionMode} {database database' : Database Records}
    {operations : List Operation} {results : List Result}
    (h : database.apply layer mode operations = .ok (results, database')) :
    SameStamp database' database := by
  induction operations generalizing database results with
  | nil =>
    cases h
    exact ⟨rfl, rfl⟩
  | cons operation operations ih =>
    rw [Database.apply] at h
    obtain ⟨⟨result, middle⟩, hone, h⟩ := bind_eq_ok.mp h
    obtain ⟨⟨results', last⟩, hrest, h⟩ := bind_eq_ok.mp h
    cases h
    have hfirst := applyOne_stamp hone
    have hlast := ih hrest
    exact ⟨hlast.1.trans hfirst.1, hlast.2.trans hfirst.2⟩

private theorem removeStore_stamp {database database' : Database Records} {store : Str}
    (h : removeStore database store = .ok database') : SameStamp database' database := by
  rw [removeStore] at h
  split at h
  · cases h
    exact ⟨rfl, rfl⟩
  · cases h

private theorem createStore_stamp {database database' : Database Records}
    {definition : StoreDefinition} (h : createStore layer database definition = .ok database') :
    SameStamp database' database := by
  rw [createStore] at h
  obtain ⟨-, -, h⟩ := bind_eq_ok.mp h
  split at h
  · cases h
  · cases h
    exact ⟨rfl, rfl⟩

private theorem redefineStore_stamp {database database' : Database Records}
    {definition : StoreDefinition} (h : redefineStore database definition = .ok database') :
    SameStamp database' database := by
  rw [redefineStore] at h
  obtain ⟨-, -, h⟩ := bind_eq_ok.mp h
  split at h
  next => cases h
  next store hstore =>
    split at h
    · cases h
    · cases h
      exact ⟨rfl, rfl⟩

private theorem foldlM_stamp {A : Type} {f : Database Records → A → DbOutcome (Database Records)}
    (hf : ∀ before item after, f before item = .ok after → SameStamp after before)
    {items : List A} {database database' : Database Records}
    (h : items.foldlM f database = .ok database') : SameStamp database' database := by
  apply foldlM_invariant (I := fun after => SameStamp after database) _ ⟨rfl, rfl⟩ h
  intro before item after hbefore hstep
  have hafter := hf before item after hstep
  exact ⟨hafter.1.trans hbefore.1, hafter.2.trans hbefore.2⟩

private theorem redefineStores_stamp {database database' : Database Records}
    {definitions : List StoreDefinition}
    (h : redefineStores database definitions = .ok database') : SameStamp database' database := by
  rw [redefineStores] at h
  split at h
  · cases h
    exact ⟨rfl, rfl⟩
  · split at h
    · cases h
    · exact foldlM_stamp (fun _ _ _ hstep => redefineStore_stamp hstep) h

private theorem update_eq_ok {A : Type} {action : State Records → DbOutcome (A × State Records)}
    {state state' : State Records} {result : A}
    (h : update save action state = .ok (result, state')) : action state = .ok (result, state') := by
  rw [update] at h
  obtain ⟨⟨result', candidate⟩, haction, h⟩ := bind_eq_ok.mp h
  obtain ⟨-, -, h⟩ := bind_eq_ok.mp h
  cases h
  exact haction

variable {state state' : State Records} {url name : Str}

theorem upgradeWithSchema_spec {previousVersion version : Nat} {create : List StoreDefinition}
    {remove : List Str} {writes : List Operation} {definitions : List StoreDefinition}
    {results : List Result}
    (h : upgradeWithSchema layer urlParse save state url name previousVersion version create remove
      writes definitions = .ok (results, state')) :
    ∃ origin stored, originOf urlParse url = .ok origin ∧
      ((state.database origin name).getD .initial).version = previousVersion ∧
      state' = state.setDatabase origin name stored ∧ stored.version = version ∧
      stored.generation =
        wrappingAdd ((state.database origin name).getD .initial).generation 1 := by
  rw [upgradeWithSchema] at h
  obtain ⟨-, -, h⟩ := bind_eq_ok.mp h
  obtain ⟨-, h⟩ := failIf_bind_eq_ok.mp h
  obtain ⟨origin, horigin, h⟩ := bind_eq_ok.mp h
  have hstored := update_eq_ok h
  obtain ⟨hversion, hstored⟩ := failIf_bind_eq_ok.mp hstored
  obtain ⟨removed, hremoved, hstored⟩ := bind_eq_ok.mp hstored
  obtain ⟨created, hcreated, hstored⟩ := bind_eq_ok.mp hstored
  obtain ⟨redefined, hredefined, hstored⟩ := bind_eq_ok.mp hstored
  obtain ⟨⟨results', written⟩, hwritten, hstored⟩ := bind_eq_ok.mp hstored
  obtain ⟨-, -, hstored⟩ := bind_eq_ok.mp hstored
  obtain ⟨-, -, hstored⟩ := bind_eq_ok.mp hstored
  cases hstored
  refine ⟨origin, _, horigin, not_not.mp hversion, rfl, rfl, ?_⟩
  have hgeneration := calc written.generation
    _ = redefined.generation := (apply_stamp hwritten).2
    _ = created.generation := (redefineStores_stamp hredefined).2
    _ = removed.generation := (foldlM_stamp (fun _ _ _ => createStore_stamp) hcreated).2
    _ = _ := (foldlM_stamp (fun _ _ _ => removeStore_stamp) hremoved).2
  show wrappingAdd written.generation 1 = _
  rw [hgeneration]

theorem transaction_readWrite_spec {expectedVersion : Nat} {operations : List Operation}
    {results : List Result}
    (h : transaction layer urlParse save state url name expectedVersion .ReadWrite operations =
      .ok (results, state')) :
    ∃ origin database stored, originOf urlParse url = .ok origin ∧
      state.database origin name = some database ∧ database.version = expectedVersion ∧
      state' = state.setDatabase origin name stored ∧ stored.version = expectedVersion ∧
      stored.generation = wrappingAdd database.generation 1 := by
  rw [transaction] at h
  obtain ⟨-, h⟩ := failIf_bind_eq_ok.mp h
  obtain ⟨origin, horigin, h⟩ := bind_eq_ok.mp h
  obtain ⟨⟨results', written⟩, haction, hstored⟩ := bind_eq_ok.mp (update_eq_ok h)
  cases hstored
  rw [runTransaction] at haction
  cases hdatabase : state.database origin name with
  | none =>
    rw [hdatabase] at haction
    cases haction
  | some database =>
    rw [hdatabase] at haction
    obtain ⟨hversion, haction⟩ := failIf_bind_eq_ok.mp haction
    obtain ⟨⟨results'', written'⟩, hwritten, haction⟩ := bind_eq_ok.mp haction
    obtain ⟨-, -, haction⟩ := bind_eq_ok.mp haction
    cases haction
    have hstamp := apply_stamp hwritten
    have hexpected := not_not.mp hversion
    refine ⟨origin, database, _, horigin, hdatabase, hexpected, rfl, hstamp.1.trans hexpected, ?_⟩
    show wrappingAdd written.generation 1 = _
    rw [hstamp.2]

theorem beginSession_spec {expectedVersion : Nat} {mode : TransactionMode}
    {session : DbSession Records}
    (h : beginSession urlParse state url name expectedVersion mode = .ok session) :
    ∃ database, state.database session.origin session.name = some database ∧
      session.version = database.version ∧ session.generation = database.generation ∧
      session.database = database := by
  rw [beginSession] at h
  obtain ⟨origin, -, h⟩ := bind_eq_ok.mp h
  cases hdatabase : state.database origin name with
  | none =>
    rw [hdatabase] at h
    cases h
  | some database =>
    rw [hdatabase] at h
    obtain ⟨-, h⟩ := failIf_bind_eq_ok.mp h
    cases h
    exact ⟨database, hdatabase, rfl, rfl, rfl⟩

theorem commitSession_spec {session : DbSession Records} {result : Unit}
    (hmode : session.mode = .ReadWrite)
    (h : commitSession save state session = .ok (result, state')) :
    ∃ database stored, state.database session.origin session.name = some database ∧
      database.version = session.version ∧ database.generation = session.generation ∧
      state' = state.setDatabase session.origin session.name stored ∧
      stored.version = session.database.version ∧
      stored.generation = wrappingAdd session.database.generation 1 := by
  rw [commitSession, if_neg (by rw [hmode]; decide)] at h
  have hstored := update_eq_ok h
  cases hdatabase : state.database session.origin session.name with
  | none =>
    rw [hdatabase] at hstored
    cases hstored
  | some database =>
    rw [hdatabase] at hstored
    obtain ⟨hsame, hstored⟩ := failIf_bind_eq_ok.mp hstored
    cases hstored
    rw [not_or, not_not, not_not] at hsame
    exact ⟨database, _, rfl, hsame.1, hsame.2, rfl, rfl, rfl⟩

theorem delete_spec {version : Nat} (h : delete urlParse save state url name = .ok (version, state')) :
    ∃ origin, originOf urlParse url = .ok origin ∧ state' = state.removeDatabase origin name := by
  rw [delete] at h
  obtain ⟨-, -, h⟩ := bind_eq_ok.mp h
  obtain ⟨origin, horigin, h⟩ := bind_eq_ok.mp h
  cases update_eq_ok h
  exact ⟨origin, horigin, rfl⟩

theorem step_spec {session session' : DbSession Records} {operations : List Operation}
    {results : List Result} (h : session.step layer operations = .ok (results, session')) :
    ∃ database, session' = { session with database := database } ∧
      SameStamp database session.database := by
  rw [DbSession.step] at h
  obtain ⟨-, h⟩ := failIf_bind_eq_ok.mp h
  obtain ⟨⟨results', candidate⟩, hcandidate, h⟩ := bind_eq_ok.mp h
  obtain ⟨-, -, h⟩ := bind_eq_ok.mp h
  cases h
  exact ⟨candidate, rfl, apply_stamp hcandidate⟩

namespace State

@[simp] theorem database_setDatabase (state : State Records) (origin name : Str)
    (database : Database Records) :
    (state.setDatabase origin name database).database origin name = some database := by
  simp [State.database, setDatabase]

theorem database_setDatabase_ne (state : State Records) {origin name origin' name' : Str}
    (database : Database Records) (h : ¬ (origin' = origin ∧ name' = name)) :
    (state.setDatabase origin name database).database origin' name' =
      state.database origin' name' := by
  by_cases horigin : origin' = origin
  · subst horigin
    have hname : name' ≠ name := fun hname => h ⟨rfl, hname⟩
    rw [State.database, setDatabase, OrdMap.get_insert_self, Option.bind_some,
      OrdMap.get_insert_ne _ _ hname, State.database]
    cases state.origins.get origin' with
    | none => rfl
    | some group => rfl
  · rw [State.database, setDatabase, OrdMap.get_insert_ne _ _ horigin, State.database]

@[simp] theorem database_removeDatabase (state : State Records) (origin name : Str) :
    (state.removeDatabase origin name).database origin name = none := by
  rw [removeDatabase]
  cases hgroup : state.origins.get origin with
  | none => simp [State.database, hgroup]
  | some group => simp [State.database]

theorem database_removeDatabase_ne (state : State Records) {origin name origin' name' : Str}
    (h : ¬ (origin' = origin ∧ name' = name)) :
    (state.removeDatabase origin name).database origin' name' = state.database origin' name' := by
  rw [removeDatabase]
  cases hgroup : state.origins.get origin with
  | none => rfl
  | some group =>
    by_cases horigin : origin' = origin
    · subst horigin
      have hname : name' ≠ name := fun hname => h ⟨rfl, hname⟩
      simp [State.database, hgroup, OrdMap.get_erase_ne _ hname]
    · simp [State.database, OrdMap.get_insert_ne _ _ horigin]

end State

/-! ## Runs -/

/-- A session, the database it was opened on, and whether another operation has touched it since. -/
structure OpenSession (Records : Type) where
  session : DbSession Records
  base : Database Records
  changed : Bool

/-- The database that an open session would replace. -/
def OpenSession.Targets (opened : OpenSession Records) (origin name : Str) : Prop :=
  opened.session.origin = origin ∧ opened.session.name = name

instance (opened : OpenSession Records) (origin name : Str) :
    Decidable (opened.Targets origin name) := by
  unfold OpenSession.Targets
  infer_instance

structure SessionHistory (Records : Type) where
  state : State Records
  sessions : Nat → Option (OpenSession Records) := fun _ => none

/-- A call; `save` says what becomes of the file. -/
inductive DbCall (Records Operation : Type)
  | beginSession (id : Nat) (url name : Str) (expectedVersion : Nat) (mode : TransactionMode)
  | step (id : Nat) (operations : List Operation)
  | commitSession (id : Nat) (save : State Records → DbOutcome Unit)
  | transaction (url name : Str) (expectedVersion : Nat) (mode : TransactionMode)
      (operations : List Operation) (save : State Records → DbOutcome Unit)
  | upgradeWithSchema (url name : Str) (previousVersion version : Nat)
      (create : List StoreDefinition) (remove : List Str) (writes : List Operation)
      (definitions : List StoreDefinition) (save : State Records → DbOutcome Unit)
  | delete (url name : Str) (save : State Records → DbOutcome Unit)

namespace SessionHistory

/-- Another operation touches a database. -/
def touch (sessions : Nat → Option (OpenSession Records)) (origin name : Str) (id : Nat) :
    Option (OpenSession Records) :=
  (sessions id).map fun opened =>
    if opened.Targets origin name then { opened with changed := true } else opened

def touchUrl (urlParse : Str → Option Url) (sessions : Nat → Option (OpenSession Records))
    (url name : Str) : Nat → Option (OpenSession Records) :=
  match originOf urlParse url with
  | .error _ => sessions
  | .ok origin => touch sessions origin name

variable (layer urlParse)

/-- One call. A failed one leaves the databases; a committed session is gone either way. -/
def call (history : SessionHistory Records) (call : DbCall Records Operation) :
    SessionHistory Records :=
  match call with
  | .beginSession id url name expectedVersion mode =>
    match beginSession urlParse history.state url name expectedVersion mode with
    | .error _ => history
    | .ok session => { history with
        sessions := Function.update history.sessions id (some ⟨session, session.database, false⟩) }
  | .step id operations =>
    match history.sessions id with
    | none => history
    | some opened =>
      match opened.session.step layer operations with
      | .error _ => history
      | .ok (_, session) => { history with
          sessions := Function.update history.sessions id (some { opened with session := session }) }
  | .commitSession id save =>
    match history.sessions id with
    | none => history
    | some opened =>
      let closed := Function.update history.sessions id none
      match commitSession save history.state opened.session with
      | .error _ => { history with sessions := closed }
      | .ok (_, state) =>
        if opened.session.mode = .ReadOnly then { history with sessions := closed }
        else ⟨state, touch closed opened.session.origin opened.session.name⟩
  | .transaction url name expectedVersion mode operations save =>
    match transaction layer urlParse save history.state url name expectedVersion mode operations with
    | .error _ => history
    | .ok (_, state) =>
      if mode = .ReadOnly then history else ⟨state, touchUrl urlParse history.sessions url name⟩
  | .upgradeWithSchema url name previousVersion version create remove writes definitions save =>
    match upgradeWithSchema layer urlParse save history.state url name previousVersion version create
      remove writes definitions with
    | .error _ => history
    | .ok (_, state) => ⟨state, touchUrl urlParse history.sessions url name⟩
  | .delete url name save =>
    match delete urlParse save history.state url name with
    | .error _ => history
    | .ok (_, state) => ⟨state, touchUrl urlParse history.sessions url name⟩

/-- The database, version and generation that a call is about to store. -/
def stamp (history : SessionHistory Records) (call : DbCall Records Operation) :
    Option (Str × Str × Nat × Nat) :=
  match call with
  | .commitSession id _ =>
    match history.sessions id with
    | none => none
    | some opened =>
      match opened.session.mode, history.state.database opened.session.origin opened.session.name with
      | .ReadWrite, some database =>
        if database.version = opened.session.version ∧
            database.generation = opened.session.generation then
          some (opened.session.origin, opened.session.name, opened.session.version,
            wrappingAdd opened.session.generation 1)
        else none
      | _, _ => none
  | .transaction url name expectedVersion .ReadWrite _ _ =>
    match originOf urlParse url with
    | .error _ => none
    | .ok origin =>
      match history.state.database origin name with
      | none => none
      | some database =>
        if database.version = expectedVersion then
          some (origin, name, expectedVersion, wrappingAdd database.generation 1)
        else none
  | .upgradeWithSchema url name previousVersion version _ _ _ _ _ =>
    match originOf urlParse url with
    | .error _ => none
    | .ok origin =>
      let database := (history.state.database origin name).getD .initial
      if database.version = previousVersion then
        some (origin, name, version, wrappingAdd database.generation 1)
      else none
  | _ => none

/-- The call does not store the version and generation of a readwrite session still open. -/
def Separated (history : SessionHistory Records) (call : DbCall Records Operation) : Prop :=
  ∀ origin name version generation,
    history.stamp urlParse call = some (origin, name, version, generation) →
    ∀ id opened, history.sessions id = some opened → opened.session.mode = .ReadWrite →
      opened.Targets origin name →
      ¬ (version = opened.session.version ∧ generation = opened.session.generation)

/-- What is known of a readwrite session. -/
structure Tracked (state : State Records) (opened : OpenSession Records) : Prop where
  begun : opened.session.version = opened.base.version ∧
    opened.session.generation = opened.base.generation
  working : SameStamp opened.session.database opened.base
  unchanged : opened.changed = false →
    state.database opened.session.origin opened.session.name = some opened.base
  distinct : opened.changed = true → ∀ database,
    state.database opened.session.origin opened.session.name = some database →
    ¬ (database.version = opened.session.version ∧
      database.generation = opened.session.generation)

def Invariant (history : SessionHistory Records) : Prop :=
  ∀ id opened, history.sessions id = some opened → opened.session.mode = .ReadWrite →
    Tracked history.state opened

variable {history : SessionHistory Records} {layer urlParse} {opened : OpenSession Records}
  {state state' : State Records} {origin name : Str}

/-- A database is stored with a version and generation that no session on it has. -/
private theorem Tracked.set (h : Tracked state opened) {stored : Database Records}
    (hdistinct : opened.Targets origin name →
      ¬ (stored.version = opened.session.version ∧ stored.generation = opened.session.generation)) :
    Tracked (state.setDatabase origin name stored)
      (if opened.Targets origin name then { opened with changed := true } else opened) := by
  split
  next htargets =>
    obtain ⟨horigin, hname⟩ := htargets
    refine ⟨h.begun, h.working, fun hfalse => Bool.noConfusion hfalse, ?_⟩
    intro _ database hdatabase
    change (state.setDatabase origin name stored).database opened.session.origin
      opened.session.name = some database at hdatabase
    rw [horigin, hname, State.database_setDatabase] at hdatabase
    rw [← Option.some.inj hdatabase]
    exact hdistinct ⟨horigin, hname⟩
  next htargets =>
    have hother := state.database_setDatabase_ne stored htargets
    refine ⟨h.begun, h.working, ?_, ?_⟩
    · rw [hother]
      exact h.unchanged
    · rw [hother]
      exact h.distinct

private theorem Tracked.remove (h : Tracked state opened) (origin name : Str) :
    Tracked (state.removeDatabase origin name)
      (if opened.Targets origin name then { opened with changed := true } else opened) := by
  split
  next htargets =>
    obtain ⟨horigin, hname⟩ := htargets
    refine ⟨h.begun, h.working, fun hfalse => Bool.noConfusion hfalse, ?_⟩
    intro _ database hdatabase
    change (state.removeDatabase origin name).database opened.session.origin
      opened.session.name = some database at hdatabase
    rw [horigin, hname, State.database_removeDatabase] at hdatabase
    cases hdatabase
  next htargets =>
    have hother := state.database_removeDatabase_ne htargets
    refine ⟨h.begun, h.working, ?_, ?_⟩
    · rw [hother]
      exact h.unchanged
    · rw [hother]
      exact h.distinct

private theorem invariant_touch {sessions : Nat → Option (OpenSession Records)}
    (h : ∀ id opened, sessions id = some opened → opened.session.mode = .ReadWrite →
      Tracked state' (if opened.Targets origin name then { opened with changed := true }
        else opened)) :
    Invariant ⟨state', touch sessions origin name⟩ := by
  intro id opened hopened hmode
  change (sessions id).map _ = some opened at hopened
  obtain ⟨before, hbefore, rfl⟩ := Option.map_eq_some_iff.mp hopened
  apply h id before hbefore
  split at hmode
  · exact hmode
  · exact hmode

/-- Storing a database keeps the invariant if no open session has its version and generation. -/
private theorem invariant_set {sessions : Nat → Option (OpenSession Records)}
    {stored : Database Records} (h : Invariant ⟨state, sessions⟩)
    (hdistinct : ∀ id opened, sessions id = some opened → opened.session.mode = .ReadWrite →
      opened.Targets origin name →
      ¬ (stored.version = opened.session.version ∧ stored.generation = opened.session.generation)) :
    Invariant ⟨state.setDatabase origin name stored, touch sessions origin name⟩ :=
  invariant_touch fun id opened hopened hmode =>
    (h id opened hopened hmode).set (hdistinct id opened hopened hmode)

private theorem invariant_close (h : Invariant history) (id : Nat) :
    Invariant ⟨history.state, Function.update history.sessions id none⟩ := by
  intro other opened hopened hmode
  change Function.update history.sessions id none other = some opened at hopened
  by_cases hother : other = id
  · subst hother
    rw [Function.update_self] at hopened
    cases hopened
  · rw [Function.update_of_ne hother] at hopened
    exact h other opened hopened hmode

private theorem invariant_open (h : Invariant history) (id : Nat)
    (htracked : opened.session.mode = .ReadWrite → Tracked history.state opened) :
    Invariant ⟨history.state, Function.update history.sessions id (some opened)⟩ := by
  intro other found hfound hmode
  change Function.update history.sessions id (some opened) other = some found at hfound
  by_cases hother : other = id
  · subst hother
    rw [Function.update_self] at hfound
    cases hfound
    exact htracked hmode
  · rw [Function.update_of_ne hother] at hfound
    exact h other found hfound hmode

/-- Every separated call keeps what is known of the open sessions. -/
theorem call_invariant (h : Invariant history) {dbCall : DbCall Records Operation}
    (hseparated : history.Separated urlParse dbCall) :
    Invariant (history.call layer urlParse dbCall) := by
  cases dbCall with
  | beginSession id url name expectedVersion mode =>
    rw [call]
    split
    next => exact h
    next session hbegin =>
      obtain ⟨database, hdatabase, hversion, hgeneration, hcopy⟩ := beginSession_spec hbegin
      apply invariant_open h
      intro _
      rw [hcopy]
      refine ⟨⟨hversion, hgeneration⟩, ?_, fun _ => hdatabase, fun htrue => Bool.noConfusion htrue⟩
      show SameStamp session.database database
      rw [hcopy]
      exact ⟨rfl, rfl⟩
  | step id operations =>
    rw [call]
    cases hopened : history.sessions id with
    | none => exact h
    | some opened =>
      dsimp only
      split
      next => exact h
      next results session hstep =>
        obtain ⟨database, rfl, hstamp⟩ := step_spec hstep
        apply invariant_open h
        intro hmode
        obtain ⟨hbegun, hworking, hunchanged, hdistinct⟩ := h id opened hopened hmode
        exact ⟨hbegun, ⟨hstamp.1.trans hworking.1, hstamp.2.trans hworking.2⟩, hunchanged, hdistinct⟩
  | commitSession id save =>
    rw [call]
    cases hopened : history.sessions id with
    | none => exact h
    | some opened =>
      dsimp only
      split
      next => exact invariant_close h id
      next result state hcommit =>
        cases hmode : opened.session.mode with
        | ReadOnly => exact invariant_close h id
        | ReadWrite =>
          obtain ⟨database, stored, hdatabase, hversion, hgeneration, rfl, hstored, hnext⟩ :=
            commitSession_spec hmode hcommit
          have htracked := h id opened hopened hmode
          apply invariant_set (invariant_close h id)
          intro other found hfound hfoundMode htargets
          have hbefore : history.sessions other = some found := by
            by_cases hother : other = id
            · subst hother
              rw [Function.update_self] at hfound
              cases hfound
            · rwa [Function.update_of_ne hother] at hfound
          rw [hstored, hnext, htracked.working.1, htracked.working.2, ← htracked.begun.1,
            ← htracked.begun.2]
          apply hseparated _ _ _ _ _ other found hbefore hfoundMode htargets
          simp [stamp, hopened, hmode, hdatabase, hversion, hgeneration]
  | transaction url name expectedVersion mode operations save =>
    rw [call]
    split
    next => exact h
    next results state htransaction =>
      cases mode with
      | ReadOnly => exact h
      | ReadWrite =>
        obtain ⟨origin, database, stored, horigin, hdatabase, hversion, rfl, hstored, hnext⟩ :=
          transaction_readWrite_spec htransaction
        rw [if_neg (by decide), touchUrl, horigin]
        apply invariant_set h
        rw [hstored, hnext]
        apply hseparated
        simp [stamp, horigin, hdatabase, hversion]
  | upgradeWithSchema url name previousVersion version create remove writes definitions save =>
    rw [call]
    split
    next => exact h
    next results state hupgrade =>
      obtain ⟨origin, stored, horigin, hprevious, rfl, hstored, hnext⟩ :=
        upgradeWithSchema_spec hupgrade
      rw [touchUrl, horigin]
      apply invariant_set h
      rw [hstored, hnext]
      apply hseparated
      simp [stamp, horigin, hprevious]
  | delete url name save =>
    rw [call]
    split
    next => exact h
    next version state hdelete =>
      obtain ⟨origin, horigin, rfl⟩ := delete_spec hdelete
      rw [touchUrl, horigin]
      exact invariant_touch fun id opened hopened hmode =>
        (h id opened hopened hmode).remove origin name

/-- In a run of separated calls, a readwrite session that commits replaces the database that it
was opened on, and no other operation has touched that database since. -/
theorem commits_replace_base {state : State Records} {calls : List (DbCall Records Operation)}
    (hallowed : Run.Allowed (Separated urlParse) (call layer urlParse) ⟨state, fun _ => none⟩ calls)
    {history : SessionHistory Records}
    (hhistory : history = calls.foldl (call layer urlParse) ⟨state, fun _ => none⟩) {id : Nat}
    (hopened : history.sessions id = some opened) (hmode : opened.session.mode = .ReadWrite)
    {result : Unit} (hcommit : commitSession save history.state opened.session =
      .ok (result, state')) :
    opened.changed = false ∧ history.state.database opened.session.origin opened.session.name =
      some opened.base := by
  have hinvariant : Invariant history := by
    rw [hhistory]
    apply (Run.guarded hallowed).invariant Invariant
    · intro other found hfound
      cases hfound
    · rintro before label _ hbefore ⟨hseparated, rfl⟩
      exact call_invariant hbefore hseparated
  obtain ⟨hbegun, hworking, hunchanged, hdistinct⟩ := hinvariant id opened hopened hmode
  obtain ⟨database, stored, hdatabase, hversion, hgeneration, -⟩ := commitSession_spec hmode hcommit
  cases hchanged : opened.changed with
  | false => exact ⟨rfl, hunchanged hchanged⟩
  | true => exact absurd ⟨hversion, hgeneration⟩ (hdistinct hchanged database hdatabase)

/-- Stores without records; a result is encoded as `"Unit"`. -/
def sampleLayer : RecordLayer Unit Unit Unit where
  empty := ()
  target _ := ([], false)
  apply store _ := .ok ((), store)
  validateIndexes _ := .ok ()
  encodedLength results := some (if results = [] then 2 else 7 * results.length + 1)

def sampleUrl : Str := "https://a/".toList

def sampleParse (input : Str) : Option Url :=
  if input = sampleUrl then some ⟨"https".toList, [], none, some (.Domain "a".toList), some 443,
    "/".toList, none, "https://a/".toList⟩
  else none

def sampleStore (name : Str) : StoreDefinition := ⟨name, none, false, []⟩

/-- A database is opened, deleted and created again with another store. -/
def recreated : List (DbCall Unit Unit) :=
  [.upgradeWithSchema sampleUrl ['d'] 0 1 [sampleStore ['x']] [] [] [] fun _ => .ok (),
    .beginSession 0 sampleUrl ['d'] 1 .ReadWrite,
    .delete sampleUrl ['d'] fun _ => .ok (),
    .upgradeWithSchema sampleUrl ['d'] 0 1 [sampleStore ['y']] [] [] [] fun _ => .ok ()]

/-- The names of the stores of the database. -/
def storeNames (state : State Unit) : Option (List Str) :=
  (state.database "https://a".toList ['d']).map fun database => database.stores.keys

theorem commits_replace_base_fails : ∃ opened state',
    (recreated.foldl (call sampleLayer sampleParse) ⟨{}, fun _ => none⟩).sessions 0 = some opened ∧
      opened.session.mode = .ReadWrite ∧
      commitSession (fun _ => .ok ())
        (recreated.foldl (call sampleLayer sampleParse) ⟨{}, fun _ => none⟩).state opened.session =
          .ok ((), state') ∧
      opened.changed = true ∧ opened.base.stores.keys = [['x']] ∧
      storeNames (recreated.foldl (call sampleLayer sampleParse) ⟨{}, fun _ => none⟩).state =
        some [['y']] ∧ storeNames state' = some [['x']] := by
  refine ⟨_, _, rfl, rfl, rfl, rfl, rfl, rfl, rfl⟩

theorem commits_replace_base_sample :
    ∃ opened : OpenSession Unit, opened.changed = false ∧
      ((recreated.take 2).foldl (call sampleLayer sampleParse) ⟨{}, fun _ => none⟩).state.database
        opened.session.origin opened.session.name = some opened.base := by
  have hallowed : Run.Allowed (Separated sampleParse) (call sampleLayer sampleParse)
      ⟨{}, fun _ => none⟩ (recreated.take 2) := by
    refine ⟨?_, ?_, trivial⟩
    · intro origin name version generation _ id opened hopened
      cases hopened
    · intro origin name version generation hstamp
      cases hstamp
  have hcommits : ∃ opened state',
      ((recreated.take 2).foldl (call sampleLayer sampleParse) ⟨{}, fun _ => none⟩).sessions 0 =
        some opened ∧ opened.session.mode = .ReadWrite ∧
      commitSession (fun _ => .ok ())
        ((recreated.take 2).foldl (call sampleLayer sampleParse) ⟨{}, fun _ => none⟩).state
        opened.session = .ok ((), state') := ⟨_, _, rfl, rfl, rfl⟩
  obtain ⟨opened, state', hopened, hmode, hcommit⟩ := hcommits
  exact ⟨opened, commits_replace_base hallowed rfl hopened hmode hcommit⟩

end SessionHistory

end BetterWebBrowser.IndexedDb
