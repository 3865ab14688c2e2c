import BetterWebBrowser.RendererProcess.FetchFlow

/-!
# The credit is exact

Calls come from any number of producers in any order; each one is atomic, and a waiting
reservation is a call that is tried again. The ledger of a request is the list of what it
has reserved since it was registered.
-/

namespace BetterWebBrowser.RendererProcess

open Framework

/-! ## Calls -/

inductive FlowCall
  | register (document : DocumentId) (id : Nat) (limited : Bool)
  | markPrioritized (document : DocumentId) (id : Nat)
  | reserve (document : DocumentId) (id offset bytes : Nat)
  | consume (document : DocumentId) (id total : Nat)
  | hasCapacity (document : DocumentId) (id bytes : Nat)
  | tryReserve (document : DocumentId) (id offset bytes : Nat)
  | retire (document : DocumentId) (id : Nat)
  | clear

inductive FlowReply
  | Ok
  /-- `Ok(false)`. -/
  | No
  | Err (message : String)
  /-- The producer goes on waiting. -/
  | Waits
deriving DecidableEq

namespace FlowReply

def ofUnit : Except String Unit → FlowReply
  | .ok () => Ok
  | .error message => Err message

def ofBool : Except String Bool → FlowReply
  | .ok true => Ok
  | .ok false => No
  | .error message => Err message

end FlowReply

namespace FetchFlow

/-- A call, as seen from outside; `none` is a panic. -/
def perform (flow : FetchFlow) : FlowCall → Option (FlowReply × FetchFlow)
  | .register document id limited =>
    some (.ofUnit (flow.register document id limited).1, (flow.register document id limited).2)
  | .markPrioritized document id => some (.Ok, flow.markPrioritized document id)
  | .reserve document id offset bytes => do
    let (result, flow) ← flow.reserve document id offset bytes
    pure (match result with
      | some result => .ofUnit result
      | none => .Waits, flow)
  | .consume document id total => do
    let (result, flow) ← flow.consume document id total
    pure (.ofUnit result, flow)
  | .hasCapacity document id bytes => do
    let result ← flow.hasCapacity document id bytes
    pure (.ofBool result, flow)
  | .tryReserve document id offset bytes => do
    let (result, flow) ← flow.tryReserve document id offset bytes
    pure (.ofBool result, flow)
  | .retire document id => do
    let flow ← flow.retire document id
    pure (.Ok, flow)
  | .clear => some (.Ok, flow.clear)

/-! ## What the state says about its requests -/

/-- What a request holds of the bytes in flight. -/
def outstanding (_key : RequestKey) (credit : Credit) : Nat :=
  if credit.limited then credit.reserved - credit.consumed else 0

/-- The request has read no more than was reserved, and has at most a window unread. -/
def InWindow (credit : Credit) : Prop :=
  credit.consumed ≤ credit.reserved ∧
    (credit.limited → credit.reserved - credit.consumed ≤ MAX_FETCH_STREAM_WINDOW_BYTES)

structure Credited (flow : FetchFlow) : Prop where
  inWindow : ∀ key credit, flow.requests.get key = some credit → InWindow credit
  counted : flow.inFlight = flow.requests.weight outstanding
  capped : flow.inFlight ≤ MAX_FETCH_STREAM_IN_FLIGHT_BYTES

namespace Credited

variable {flow : FetchFlow} {key : RequestKey} {credit credit' : Credit}

theorem empty : Credited empty where
  inWindow := by
    intro key credit hget
    cases hget
  counted := rfl
  capped := Nat.zero_le _

private theorem outstanding_le (h : Credited flow) (hget : flow.requests.get key = some credit) :
    outstanding key credit ≤ flow.inFlight := by
  rw [h.counted]
  exact OrdMap.le_weight_of_get outstanding hget

/-- A request is registered with no credit taken. -/
private theorem insert_fresh (h : Credited flow) (hget : flow.requests.get key = none)
    (hwindow : InWindow credit) (hzero : outstanding key credit = 0) :
    Credited { flow with requests := flow.requests.insert key credit } where
  inWindow := by
    intro other found hfound
    rw [OrdMap.get_insert] at hfound
    split at hfound
    · cases hfound
      exact hwindow
    · exact h.inWindow other found hfound
  counted := by
    show flow.inFlight = (flow.requests.insert key credit).weight outstanding
    rw [OrdMap.weight_insert_of_none outstanding credit hget, hzero, h.counted]
    rfl
  capped := h.capped

/-- A request changes its credit and the counter moves with it. -/
private theorem insert_known (h : Credited flow) (hget : flow.requests.get key = some credit)
    (hwindow : InWindow credit') {inFlight : Nat}
    (hmoved : inFlight + outstanding key credit = flow.inFlight + outstanding key credit')
    (hcapped : inFlight ≤ MAX_FETCH_STREAM_IN_FLIGHT_BYTES) :
    Credited ⟨flow.requests.insert key credit', inFlight⟩ where
  inWindow := by
    intro other found hfound
    rw [OrdMap.get_insert] at hfound
    split at hfound
    · cases hfound
      exact hwindow
    · exact h.inWindow other found hfound
  counted := by
    show inFlight = (flow.requests.insert key credit').weight outstanding
    have hweight := OrdMap.weight_insert_of_some outstanding credit' hget
    rw [← h.counted] at hweight
    omega
  capped := hcapped

private theorem erase_known (h : Credited flow) (hget : flow.requests.get key = some credit)
    {inFlight : Nat} (hmoved : inFlight + outstanding key credit = flow.inFlight) :
    Credited ⟨flow.requests.erase key, inFlight⟩ where
  inWindow := by
    intro other found hfound
    rw [OrdMap.get_erase] at hfound
    split at hfound
    · cases hfound
    · exact h.inWindow other found hfound
  counted := by
    show inFlight = (flow.requests.erase key).weight outstanding
    have hweight := OrdMap.weight_erase_of_some outstanding hget
    rw [← h.counted] at hweight
    omega
  capped := by
    show inFlight ≤ _
    have hcapped := h.capped
    omega

/-- Whether the bytes fit is always known. -/
theorem fits_eq (h : Credited flow) (hget : flow.requests.get key = some credit) (bytes : Nat) :
    flow.fits credit bytes = some (!credit.limited ||
      decide (credit.reserved - credit.consumed + bytes ≤ MAX_FETCH_STREAM_WINDOW_BYTES ∧
        flow.inFlight + bytes ≤ MAX_FETCH_STREAM_IN_FLIGHT_BYTES)) := by
  rw [fits]
  cases hlimited : credit.limited with
  | false => rfl
  | true => simp [checkedSub_of_le (h.inWindow key credit hget).1]

theorem grant_credited (h : Credited flow) (hget : flow.requests.get key = some credit)
    {bytes : Nat} (hfits : flow.fits credit bytes = some true) :
    Credited (flow.grant key credit bytes).2 := by
  rw [h.fits_eq hget] at hfits
  obtain ⟨hconsumed, hwindow⟩ := h.inWindow key credit hget
  rw [grant]
  cases hadd : checkedAdd 32 credit.reserved (bytes % 2 ^ 32) with
  | none => exact h
  | some reserved =>
    have hreserved : credit.reserved + bytes % 2 ^ 32 = reserved := (checkedAdd_eq_some.mp hadd).1
    cases hlimited : credit.limited with
    | false =>
      apply h.insert_known hget
      · exact ⟨by show credit.consumed ≤ reserved; omega, by simp⟩
      · simp [outstanding, hlimited]
      · exact h.capped
    | true =>
      simp only [hlimited, Bool.not_true, Bool.false_or, Option.some.injEq,
        decide_eq_true_eq] at hfits
      have hbytes : bytes % 2 ^ 32 = bytes := by
        apply Nat.mod_eq_of_lt
        have hbound := hfits.1
        rw [MAX_FETCH_STREAM_WINDOW_BYTES] at hbound
        omega
      apply h.insert_known hget
      · refine ⟨by show credit.consumed ≤ reserved; omega, fun _ => ?_⟩
        show reserved - credit.consumed ≤ _
        omega
      · simp only [outstanding, hlimited, if_true]
        omega
      · exact hfits.2

end Credited

end FetchFlow

/-! ## What a call does -/

namespace FlowCall

/-- The request a call registers. -/
def registers : FlowCall → Option RequestKey
  | register document id _ => some (toLex (document, id))
  | _ => none

/-- The request, offset and size a call reserves for. -/
def reserves : FlowCall → Option (RequestKey × Nat × Nat)
  | reserve document id offset bytes => some (toLex (document, id), offset, bytes)
  | tryReserve document id offset bytes => some (toLex (document, id), offset, bytes)
  | _ => none

end FlowCall

namespace FetchFlow

/-- Every way a call can end. -/
inductive Effect (flow : FetchFlow) : FlowCall → FlowReply → FetchFlow → Prop
  | refused {call : FlowCall} {reply : FlowReply} (hreply : reply ≠ .Ok) : Effect flow call reply flow
  | idle {call : FlowCall} (hregisters : call.registers = none) (hreserves : call.reserves = none) :
      Effect flow call .Ok flow
  | registered {call : FlowCall} {key : RequestKey} {limited : Bool}
      (hregisters : call.registers = some key) (hget : flow.requests.get key = none) :
      Effect flow call .Ok { flow with
        requests := flow.requests.insert key ⟨limited, false, 0, 0⟩ }
  | granted {call : FlowCall} {key : RequestKey} {credit : Credit} {bytes reserved : Nat}
      (hregisters : call.registers = none)
      (hreserves : call.reserves = some (key, credit.reserved, bytes))
      (hget : flow.requests.get key = some credit) (hfits : flow.fits credit bytes = some true)
      (hadd : checkedAdd 32 credit.reserved (bytes % 2 ^ 32) = some reserved) :
      Effect flow call .Ok (flow.grant key credit bytes).2
  | changed {call : FlowCall} {key : RequestKey} {credit credit' : Credit} {inFlight : Nat}
      (hregisters : call.registers = none) (hreserves : call.reserves = none)
      (hget : flow.requests.get key = some credit) (hreserved : credit'.reserved = credit.reserved)
      (hwindow : InWindow credit')
      (hmoved : inFlight + outstanding key credit = flow.inFlight + outstanding key credit')
      (hcapped : inFlight ≤ flow.inFlight) :
      Effect flow call .Ok ⟨flow.requests.insert key credit', inFlight⟩
  | retired {call : FlowCall} {key : RequestKey} {credit : Credit} {inFlight : Nat}
      (hregisters : call.registers = none) (hreserves : call.reserves = none)
      (hget : flow.requests.get key = some credit)
      (hmoved : inFlight + outstanding key credit = flow.inFlight) :
      Effect flow call .Ok ⟨flow.requests.erase key, inFlight⟩
  | cleared {call : FlowCall} (hregisters : call.registers = none)
      (hreserves : call.reserves = none) : Effect flow call .Ok empty

variable {flow flow' : FetchFlow} {call : FlowCall} {reply : FlowReply}

private theorem grant_effect {key : RequestKey} {credit : Credit} {bytes : Nat}
    (hregisters : call.registers = none)
    (hreserves : call.reserves = some (key, credit.reserved, bytes))
    (hget : flow.requests.get key = some credit) (hfits : flow.fits credit bytes = some true) :
    Effect flow call (.ofUnit (flow.grant key credit bytes).1) (flow.grant key credit bytes).2 := by
  cases hadd : checkedAdd 32 credit.reserved (bytes % 2 ^ 32) with
  | none =>
    rw [grant, hadd]
    exact .refused (by simp [FlowReply.ofUnit])
  | some reserved =>
    have hok : (flow.grant key credit bytes).1 = .ok () := by rw [grant, hadd]
    rw [hok]
    exact .granted hregisters hreserves hget hfits hadd

private theorem reserve_effect (h : Credited flow) (document : DocumentId) (id offset bytes : Nat) :
    ∃ reply flow', flow.perform (.reserve document id offset bytes) = some (reply, flow') ∧
      Effect flow (.reserve document id offset bytes) reply flow' := by
  rw [perform, reserve]
  cases hget : flow.requests.get (toLex (document, id)) with
  | none => exact ⟨_, flow, rfl, .refused (by simp [FlowReply.ofUnit])⟩
  | some credit =>
    by_cases hoffset : credit.reserved = offset
    · subst hoffset
      simp only [ne_eq, not_true_eq_false, if_false]
      cases hfits : flow.fits credit bytes with
      | none =>
        rw [h.fits_eq hget] at hfits
        cases hfits
      | some fits =>
        cases fits with
        | true => exact ⟨_, _, rfl, grant_effect rfl rfl hget hfits⟩
        | false => exact ⟨_, flow, rfl, .refused (by simp)⟩
    · simp only [ne_eq, hoffset, not_false_eq_true, if_true]
      exact ⟨_, flow, rfl, .refused (by simp [FlowReply.ofUnit])⟩

private theorem tryReserve_effect (h : Credited flow) (document : DocumentId)
    (id offset bytes : Nat) :
    ∃ reply flow', flow.perform (.tryReserve document id offset bytes) = some (reply, flow') ∧
      Effect flow (.tryReserve document id offset bytes) reply flow' := by
  rw [perform, tryReserve]
  cases hget : flow.requests.get (toLex (document, id)) with
  | none => exact ⟨_, flow, rfl, .refused (by simp [FlowReply.ofBool])⟩
  | some credit =>
    by_cases hoffset : credit.reserved = offset
    · subst hoffset
      simp only [ne_eq, not_true_eq_false, if_false]
      cases hfits : flow.fits credit bytes with
      | none =>
        rw [h.fits_eq hget] at hfits
        cases hfits
      | some fits =>
        cases fits with
        | true =>
          have hgrant : Effect flow (.tryReserve document id credit.reserved bytes)
              (.ofUnit (flow.grant (toLex (document, id)) credit bytes).1)
              (flow.grant (toLex (document, id)) credit bytes).2 := grant_effect rfl rfl hget hfits
          refine ⟨_, _, rfl, ?_⟩
          show Effect flow _ (.ofBool ((flow.grant (toLex (document, id)) credit bytes).1.map
            fun _ => true)) _
          cases hresult : (flow.grant (toLex (document, id)) credit bytes).1 with
          | ok _ => rw [hresult] at hgrant; exact hgrant
          | error message => rw [hresult] at hgrant; exact hgrant
        | false => exact ⟨_, flow, rfl, .refused (by simp [FlowReply.ofBool])⟩
    · simp only [ne_eq, hoffset, not_false_eq_true, if_true]
      exact ⟨_, flow, rfl, .refused (by simp [FlowReply.ofBool])⟩

private theorem consume_effect (h : Credited flow) (document : DocumentId) (id total : Nat) :
    ∃ reply flow', flow.perform (.consume document id total) = some (reply, flow') ∧
      Effect flow (.consume document id total) reply flow' := by
  rw [perform, consume]
  cases hget : flow.requests.get (toLex (document, id)) with
  | none => exact ⟨_, flow, rfl, .idle rfl rfl⟩
  | some credit =>
    by_cases hrange : total < credit.consumed ∨ credit.reserved < total
    · simp only [hrange, if_true]
      exact ⟨_, flow, rfl, .refused (by simp [FlowReply.ofUnit])⟩
    · simp only [hrange, if_false]
      rw [not_or, not_lt, not_lt] at hrange
      obtain ⟨hconsumed, hwindow⟩ := h.inWindow _ credit hget
      have hshare := h.outstanding_le hget
      have hin : InWindow { credit with consumed := total } :=
        ⟨hrange.2, fun hlimited => by
          show credit.reserved - total ≤ _
          have hbefore := hwindow hlimited
          omega⟩
      have hfreed : flow.freeInFlight credit (total - credit.consumed) =
          some (flow.inFlight - if credit.limited then total - credit.consumed else 0) := by
        rw [freeInFlight]
        cases hlimited : credit.limited with
        | false => rfl
        | true =>
          simp only [outstanding, hlimited, if_true] at hshare ⊢
          exact checkedSub_of_le (by omega)
      refine ⟨.Ok, ⟨flow.requests.insert (toLex (document, id)) { credit with consumed := total },
        flow.inFlight - if credit.limited then total - credit.consumed else 0⟩, ?_,
        .changed rfl rfl hget rfl hin ?_ (Nat.sub_le _ _)⟩
      · simp only [checkedSub_of_le hrange.1, Option.bind_eq_bind, Option.bind_some, hfreed]
        rfl
      · simp only [outstanding] at hshare ⊢
        split at hshare
        · simp only [*, if_true]
          omega
        · simp [*]

private theorem retire_effect (h : Credited flow) (document : DocumentId) (id : Nat) :
    ∃ reply flow', flow.perform (.retire document id) = some (reply, flow') ∧
      Effect flow (.retire document id) reply flow' := by
  rw [perform, retire]
  cases hget : flow.requests.get (toLex (document, id)) with
  | none => exact ⟨_, flow, rfl, .idle rfl rfl⟩
  | some credit =>
    have hshare := h.outstanding_le hget
    obtain ⟨hconsumed, -⟩ := h.inWindow _ credit hget
    cases hlimited : credit.limited with
    | false =>
      refine ⟨.Ok, ⟨flow.requests.erase (toLex (document, id)), flow.inFlight⟩, by simp [hlimited],
        .retired rfl rfl hget ?_⟩
      simp [outstanding, hlimited]
    | true =>
      simp only [outstanding, hlimited, if_true] at hshare
      refine ⟨.Ok, ⟨flow.requests.erase (toLex (document, id)),
        flow.inFlight - (credit.reserved - credit.consumed)⟩, ?_, .retired rfl rfl hget ?_⟩
      · simp [hlimited, checkedSub_of_le hconsumed, checkedSub_of_le hshare]
      · simp only [outstanding, hlimited, if_true]
        omega

/-- No call underflows, and each ends in one of the listed ways. -/
theorem perform_effect (h : Credited flow) (call : FlowCall) :
    ∃ reply flow', flow.perform call = some (reply, flow') ∧ Effect flow call reply flow' := by
  cases call with
  | register document id limited =>
    rw [perform, register]
    cases hget : flow.requests.get (toLex (document, id)) with
    | none =>
      simp only [OrdMap.contains, hget, Option.isSome_none, Bool.false_eq_true, if_false]
      exact ⟨_, _, rfl, .registered rfl hget⟩
    | some credit =>
      simp only [OrdMap.contains, hget, Option.isSome_some, if_true]
      exact ⟨_, _, rfl, .refused (by simp [FlowReply.ofUnit])⟩
  | markPrioritized document id =>
    rw [perform, markPrioritized]
    cases hget : flow.requests.get (toLex (document, id)) with
    | none => exact ⟨_, _, rfl, .idle rfl rfl⟩
    | some credit =>
      refine ⟨_, _, rfl, .changed rfl rfl hget rfl ?_ rfl le_rfl⟩
      exact h.inWindow _ credit hget
  | reserve document id offset bytes => exact reserve_effect h document id offset bytes
  | consume document id total => exact consume_effect h document id total
  | hasCapacity document id bytes =>
    rw [perform, hasCapacity]
    cases hget : flow.requests.get (toLex (document, id)) with
    | none => exact ⟨_, _, rfl, .refused (by simp [FlowReply.ofBool])⟩
    | some credit =>
      simp only [h.fits_eq hget]
      generalize (!credit.limited || _) = fits
      cases fits with
      | true => exact ⟨_, _, rfl, .idle rfl rfl⟩
      | false => exact ⟨_, _, rfl, .refused (by simp [FlowReply.ofBool])⟩
  | tryReserve document id offset bytes => exact tryReserve_effect h document id offset bytes
  | retire document id => exact retire_effect h document id
  | clear => exact ⟨_, _, rfl, .cleared rfl rfl⟩

theorem Effect.credited (heffect : Effect flow call reply flow') (h : Credited flow) :
    Credited flow' := by
  cases heffect with
  | refused hreply => exact h
  | idle hregisters hreserves => exact h
  | registered hregisters hget =>
    exact h.insert_fresh hget ⟨le_rfl, fun _ => Nat.zero_le _⟩ (by simp [outstanding])
  | granted hregisters hreserves hget hfits hadd => exact h.grant_credited hget hfits
  | changed hregisters hreserves hget hreserved hwindow hmoved hcapped =>
    exact h.insert_known hget hwindow hmoved (hcapped.trans h.capped)
  | retired hregisters hreserves hget hmoved => exact h.erase_known hget hmoved
  | cleared hregisters hreserves => exact .empty

theorem Effect.refused_unchanged (heffect : Effect flow call reply flow') (hreply : reply ≠ .Ok) :
    flow' = flow := by
  cases heffect with
  | refused _ => rfl
  | _ => exact absurd rfl hreply

end FetchFlow

/-! ## Runs -/

/-- The reservations start at contiguous offsets from 0 and end at `stop`. -/
inductive Contiguous : List (Nat × Nat) → Nat → Prop
  | nil : Contiguous [] 0
  | snoc {ledger : List (Nat × Nat)} {stop : Nat} (bytes : Nat) :
      Contiguous ledger stop → Contiguous (ledger ++ [(stop, bytes)]) (stop + bytes)

/-- The state, and the successful reservations of each request since it was registered. -/
structure FlowHistory where
  flow : FetchFlow
  ledger : RequestKey → List (Nat × Nat)

namespace FlowHistory

def init : FlowHistory := ⟨.empty, fun _ => []⟩

/-- A successful call opens or extends the ledger of its request. -/
def record (ledger : RequestKey → List (Nat × Nat)) (call : FlowCall) (reply : FlowReply) :
    RequestKey → List (Nat × Nat) :=
  if reply = .Ok then
    match call.registers, call.reserves with
    | some key, _ => Function.update ledger key []
    | none, some (key, offset, bytes) =>
      Function.update ledger key (ledger key ++ [(offset, bytes)])
    | none, none => ledger
  else ledger

/-- One atomic call; chunks are smaller than `2^32`. -/
def Step (history : FlowHistory) (call : FlowCall) (history' : FlowHistory) : Prop :=
  (∀ key offset bytes, call.reserves = some (key, offset, bytes) → bytes < 2 ^ 32) ∧
    ∃ reply flow', history.flow.perform call = some (reply, flow') ∧
      history' = ⟨flow', record history.ledger call reply⟩

end FlowHistory

/-- What holds in every state that calls lead to. -/
structure Exact (history : FlowHistory) : Prop where
  consumed_le : ∀ key credit, history.flow.requests.get key = some credit →
    credit.consumed ≤ credit.reserved
  window : ∀ key credit, history.flow.requests.get key = some credit → credit.limited →
    credit.reserved - credit.consumed ≤ MAX_FETCH_STREAM_WINDOW_BYTES
  inFlight_eq : history.flow.inFlight = history.flow.requests.weight FetchFlow.outstanding
  inFlight_le : history.flow.inFlight ≤ MAX_FETCH_STREAM_IN_FLIGHT_BYTES
  no_underflow : ∀ call, history.flow.perform call ≠ none
  refused_unchanged : ∀ call reply flow', history.flow.perform call = some (reply, flow') →
    reply ≠ .Ok → flow' = history.flow
  contiguous : ∀ key, ∃ stop, Contiguous (history.ledger key) stop ∧
    ∀ credit, history.flow.requests.get key = some credit → credit.reserved = stop
  /-- With nothing unread, a window can be reserved at once. -/
  no_wait : (∀ key credit, history.flow.requests.get key = some credit → credit.limited →
      credit.consumed = credit.reserved) →
    ∀ call document id offset bytes credit reply flow',
      call = .reserve document id offset bytes ∨ call = .tryReserve document id offset bytes →
      history.flow.requests.get (toLex (document, id)) = some credit → credit.reserved = offset →
      bytes ≤ MAX_FETCH_STREAM_WINDOW_BYTES → history.flow.perform call = some (reply, flow') →
      reply ≠ .Waits ∧ reply ≠ .No

namespace FlowHistory

variable {history history' : FlowHistory}

/-- The ledger of every request is contiguous and ends where its credit stands. -/
def Booked (history : FlowHistory) : Prop :=
  ∀ key, ∃ stop, Contiguous (history.ledger key) stop ∧
    ∀ credit, history.flow.requests.get key = some credit → credit.reserved = stop

private theorem Booked.keep (h : history.Booked) {flow : FetchFlow}
    (hkeep : ∀ key credit, flow.requests.get key = some credit →
      ∃ before, history.flow.requests.get key = some before ∧ credit.reserved = before.reserved) :
    Booked ⟨flow, history.ledger⟩ := by
  intro key
  obtain ⟨stop, hcontiguous, hstop⟩ := h key
  refine ⟨stop, hcontiguous, ?_⟩
  intro credit hget
  obtain ⟨before, hbefore, hreserved⟩ := hkeep key credit hget
  rw [hreserved]
  exact hstop before hbefore

private theorem Booked.update (h : history.Booked) {flow : FetchFlow} {key : RequestKey}
    {ledger : List (Nat × Nat)} (stop : Nat) (hcontiguous : Contiguous ledger stop)
    (hkey : ∀ credit, flow.requests.get key = some credit → credit.reserved = stop)
    (hother : ∀ other, other ≠ key → flow.requests.get other = history.flow.requests.get other) :
    Booked ⟨flow, Function.update history.ledger key ledger⟩ := by
  intro other
  by_cases hsame : other = key
  · subst hsame
    refine ⟨stop, ?_, hkey⟩
    simpa using hcontiguous
  · obtain ⟨before, hbefore, hstop⟩ := h other
    refine ⟨before, by simpa [Function.update_of_ne hsame] using hbefore, ?_⟩
    intro credit hget
    rw [hother other hsame] at hget
    exact hstop credit hget

/-- A successful reservation continues where the last one ended. -/
private theorem Booked.granted (h : history.Booked) {key : RequestKey} {credit : Credit}
    {bytes reserved : Nat} (hget : history.flow.requests.get key = some credit)
    (hadd : checkedAdd 32 credit.reserved (bytes % 2 ^ 32) = some reserved)
    (hbytes : bytes < 2 ^ 32) :
    Booked ⟨(history.flow.grant key credit bytes).2,
      Function.update history.ledger key (history.ledger key ++ [(credit.reserved, bytes)])⟩ := by
  have hgranted : (history.flow.grant key credit bytes).2.requests =
      history.flow.requests.insert key { credit with reserved := reserved } := by
    rw [FetchFlow.grant, hadd]
  have hreserved : reserved = credit.reserved + bytes := by
    rw [Nat.mod_eq_of_lt hbytes] at hadd
    exact (checkedAdd_eq_some.mp hadd).1.symm
  obtain ⟨stop, hcontiguous, hstop⟩ := h key
  have hat : credit.reserved = stop := hstop credit hget
  apply h.update (credit.reserved + bytes)
  · rw [hat]
    exact hcontiguous.snoc bytes
  · intro found hfound
    rw [hgranted, OrdMap.get_insert_self] at hfound
    cases hfound
    exact hreserved
  · intro other hother
    rw [hgranted, OrdMap.get_insert_ne _ _ hother]

/-- What every call keeps. -/
def Invariant (history : FlowHistory) : Prop := history.flow.Credited ∧ history.Booked

theorem init_invariant : init.Invariant := by
  refine ⟨.empty, ?_⟩
  intro key
  refine ⟨0, .nil, ?_⟩
  intro credit hget
  cases hget

theorem step_invariant {call : FlowCall} (h : history.Invariant)
    (hstep : history.Step call history') : history'.Invariant := by
  obtain ⟨hchunk, reply, flow', hperform, rfl⟩ := hstep
  obtain ⟨reply', flow'', hperform', heffect⟩ := FetchFlow.perform_effect h.1 call
  rw [hperform'] at hperform
  cases hperform
  refine ⟨heffect.credited h.1, ?_⟩
  cases heffect with
  | refused hreply =>
    rw [record, if_neg hreply]
    exact h.2
  | idle hregisters hreserves =>
    simp only [record, hregisters, hreserves, if_true]
    exact h.2
  | registered hregisters hget =>
    simp only [record, hregisters, if_true]
    apply h.2.update 0 .nil
    · intro credit hfound
      rw [OrdMap.get_insert_self] at hfound
      cases hfound
      rfl
    · intro other hother
      exact OrdMap.get_insert_ne _ _ hother
  | granted hregisters hreserves hget hfits hadd =>
    simp only [record, hregisters, hreserves, if_true]
    exact h.2.granted hget hadd (hchunk _ _ _ hreserves)
  | changed hregisters hreserves hget hreserved hwindow hmoved hcapped =>
    simp only [record, hregisters, hreserves, if_true]
    apply h.2.keep
    intro key found hfound
    rw [OrdMap.get_insert] at hfound
    split at hfound
    next hkey =>
      cases hfound
      exact ⟨_, hkey ▸ hget, hreserved⟩
    next => exact ⟨found, hfound, rfl⟩
  | retired hregisters hreserves hget hmoved =>
    simp only [record, hregisters, hreserves, if_true]
    apply h.2.keep
    intro key found hfound
    rw [OrdMap.get_erase] at hfound
    split at hfound
    · cases hfound
    · exact ⟨found, hfound, rfl⟩
  | cleared hregisters hreserves =>
    simp only [record, hregisters, hreserves, if_true]
    apply h.2.keep
    intro key found hfound
    cases hfound

/-- With nothing unread, no bytes are in flight. -/
private theorem inFlight_eq_zero {flow : FetchFlow} (h : flow.Credited)
    (hread : ∀ key credit, flow.requests.get key = some credit → credit.limited →
      credit.consumed = credit.reserved) : flow.inFlight = 0 := by
  rw [h.counted, OrdMap.weight]
  apply List.sum_eq_zero
  intro share hshare
  obtain ⟨⟨key, credit⟩, hentry, rfl⟩ := List.mem_map.mp hshare
  have hget := (OrdMap.mem_entries_iff_get _ _ _).mp hentry
  show (if credit.limited then credit.reserved - credit.consumed else 0) = 0
  split
  next hlimited =>
    rw [hread key credit hget hlimited]
    exact Nat.sub_self _
  next => rfl

private theorem fits_of_read {flow : FetchFlow} (h : flow.Credited)
    (hread : ∀ key credit, flow.requests.get key = some credit → credit.limited →
      credit.consumed = credit.reserved)
    {key : RequestKey} {credit : Credit} (hget : flow.requests.get key = some credit) {bytes : Nat}
    (hbytes : bytes ≤ MAX_FETCH_STREAM_WINDOW_BYTES) : flow.fits credit bytes = some true := by
  rw [h.fits_eq hget]
  cases hlimited : credit.limited with
  | false => rfl
  | true =>
    have hnone := inFlight_eq_zero h hread
    have hall := hread key credit hget hlimited
    have hroom : MAX_FETCH_STREAM_WINDOW_BYTES ≤ MAX_FETCH_STREAM_IN_FLIGHT_BYTES := by decide
    have hfits : credit.reserved - credit.consumed + bytes ≤ MAX_FETCH_STREAM_WINDOW_BYTES ∧
        flow.inFlight + bytes ≤ MAX_FETCH_STREAM_IN_FLIGHT_BYTES := by omega
    simp [hfits]

private theorem no_wait_of_read {flow : FetchFlow} (h : flow.Credited)
    (hread : ∀ key credit, flow.requests.get key = some credit → credit.limited →
      credit.consumed = credit.reserved)
    {call : FlowCall} {document : DocumentId} {id offset bytes : Nat} {credit : Credit}
    {reply : FlowReply} {flow' : FetchFlow}
    (hcall : call = .reserve document id offset bytes ∨ call = .tryReserve document id offset bytes)
    (hget : flow.requests.get (toLex (document, id)) = some credit)
    (hoffset : credit.reserved = offset) (hbytes : bytes ≤ MAX_FETCH_STREAM_WINDOW_BYTES)
    (hperform : flow.perform call = some (reply, flow')) : reply ≠ .Waits ∧ reply ≠ .No := by
  have hfits := fits_of_read h hread hget hbytes
  rcases hcall with rfl | rfl
  · simp only [FetchFlow.perform, FetchFlow.reserve, hget, hoffset, ne_eq, not_true_eq_false,
      if_false, hfits] at hperform
    cases hgrant : (flow.grant (toLex (document, id)) credit bytes).1 with
    | ok _ =>
      simp [hgrant, FlowReply.ofUnit] at hperform
      rw [← hperform.1]
      decide
    | error message =>
      simp [hgrant, FlowReply.ofUnit] at hperform
      simp [← hperform.1]
  · simp only [FetchFlow.perform, FetchFlow.tryReserve, hget, hoffset, ne_eq, not_true_eq_false,
      if_false, hfits] at hperform
    cases hgrant : (flow.grant (toLex (document, id)) credit bytes).1 with
    | ok _ =>
      simp [hgrant, FlowReply.ofBool, Except.map] at hperform
      rw [← hperform.1]
      decide
    | error message =>
      simp [hgrant, FlowReply.ofBool, Except.map] at hperform
      simp [← hperform.1]

/-- Whatever the producers and the renderer do, the credit adds up. -/
theorem credit_exact (calls : List FlowCall) (history : FlowHistory)
    (hrun : Run Step init calls history) : Exact history := by
  obtain ⟨hcredited, hbooked⟩ := hrun.invariant Invariant init_invariant
    fun _ _ _ hinvariant hstep => step_invariant hinvariant hstep
  exact
    { consumed_le := fun key credit hget => (hcredited.inWindow key credit hget).1
      window := fun key credit hget => (hcredited.inWindow key credit hget).2
      inFlight_eq := hcredited.counted
      inFlight_le := hcredited.capped
      no_underflow := by
        intro call hpanic
        obtain ⟨reply, flow', hperform, -⟩ := FetchFlow.perform_effect hcredited call
        rw [hperform] at hpanic
        cases hpanic
      refused_unchanged := by
        intro call reply flow' hperform hreply
        obtain ⟨reply', flow'', hperform', heffect⟩ := FetchFlow.perform_effect hcredited call
        rw [hperform'] at hperform
        cases hperform
        exact heffect.refused_unchanged hreply
      contiguous := hbooked
      no_wait := fun hread _ _ _ _ _ _ _ _ hcall hget hoffset hbytes hperform =>
        no_wait_of_read hcredited hread hcall hget hoffset hbytes hperform }

/-- A limited request reserves twice and reads the first chunk. -/
theorem credit_exact_sample : ∃ history : FlowHistory,
    history.flow.inFlight = 8 ∧ Exact history := by
  have hregister : Run Step init [.register 1 7 true] _ :=
    Run.nil.snoc ⟨by simp [FlowCall.reserves], _, _, rfl, rfl⟩
  have hfirst : Run Step init [.register 1 7 true, .reserve 1 7 0 5] _ :=
    hregister.snoc ⟨by simp [FlowCall.reserves], _, _, rfl, rfl⟩
  have hsecond : Run Step init [.register 1 7 true, .reserve 1 7 0 5, .tryReserve 1 7 5 8] _ :=
    hfirst.snoc ⟨by simp [FlowCall.reserves], _, _, rfl, rfl⟩
  have hread : Run Step init [.register 1 7 true, .reserve 1 7 0 5, .tryReserve 1 7 5 8,
      .consume 1 7 5] _ :=
    hsecond.snoc ⟨by simp [FlowCall.reserves], _, _, rfl, rfl⟩
  exact ⟨_, by decide, credit_exact _ _ hread⟩

end FlowHistory

end BetterWebBrowser.RendererProcess
