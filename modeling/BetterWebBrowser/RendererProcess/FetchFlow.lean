import BetterWebBrowser.Framework.Checked
import BetterWebBrowser.Framework.OrdMap
import BetterWebBrowser.Framework.Transition
import Mathlib.Data.Prod.Lex
import Mathlib.Tactic.Linarith

/-!
# Consumption credit of Fetch responses

Network threads reserve what they are about to send and the renderer returns it as it reads.
The producers share one counter of bytes in flight. Subtractions are checked: a call that
would underflow has no result.
-/

namespace BetterWebBrowser.RendererProcess

open Framework

abbrev DocumentId := Nat

def MAX_FETCH_STREAM_WINDOW_BYTES : Nat := 256 * 1024

def MAX_FETCH_STREAM_IN_FLIGHT_BYTES : Nat := 4 * 1024 * 1024

/-! ## The source -/

abbrev RequestKey := DocumentId ×ₗ Nat

structure Credit where
  limited : Bool
  prioritized : Bool
  reserved : Nat
  consumed : Nat
deriving DecidableEq

structure FetchFlow where
  requests : OrdMap RequestKey Credit
  inFlight : Nat

namespace FetchFlow

def empty : FetchFlow := ⟨.empty, 0⟩

def register (flow : FetchFlow) (document : DocumentId) (id : Nat) (limited : Bool) :
    Except String Unit × FetchFlow :=
  if flow.requests.contains (toLex (document, id)) then
    (.error "duplicate Fetch flow identity", flow)
  else
    (.ok (), { flow with
      requests := flow.requests.insert (toLex (document, id)) ⟨limited, false, 0, 0⟩ })

def markPrioritized (flow : FetchFlow) (document : DocumentId) (id : Nat) : FetchFlow :=
  match flow.requests.get (toLex (document, id)) with
  | some credit => { flow with
      requests := flow.requests.insert (toLex (document, id)) { credit with prioritized := true } }
  | none => flow

/-- The window of the request and the bytes in flight both leave room. -/
def fits (flow : FetchFlow) (credit : Credit) (bytes : Nat) : Option Bool :=
  if credit.limited then do
    let outstanding ← checkedSub credit.reserved credit.consumed
    pure (decide (outstanding + bytes ≤ MAX_FETCH_STREAM_WINDOW_BYTES ∧
      flow.inFlight + bytes ≤ MAX_FETCH_STREAM_IN_FLIGHT_BYTES))
  else pure true

/-- What both kinds of reservation do once the bytes fit. -/
def grant (flow : FetchFlow) (key : RequestKey) (credit : Credit) (bytes : Nat) :
    Except String Unit × FetchFlow :=
  match checkedAdd 32 credit.reserved (bytes % 2 ^ 32) with
  | none => (.error "Fetch response credit overflow", flow)
  | some reserved =>
    (.ok (), {
      requests := flow.requests.insert key { credit with reserved := reserved }
      inFlight := if credit.limited then flow.inFlight + bytes else flow.inFlight })

/-- One turn of the waiting loop; `none` is another wait for a change. -/
def reserve (flow : FetchFlow) (document : DocumentId) (id offset bytes : Nat) :
    Option (Option (Except String Unit) × FetchFlow) :=
  match flow.requests.get (toLex (document, id)) with
  | none => some (some (.error "Fetch response was cancelled or retired"), flow)
  | some credit =>
    if credit.reserved ≠ offset then
      some (some (.error "Fetch producer offset does not match reserved bytes"), flow)
    else do
      if ← flow.fits credit bytes then
        let (result, flow) := flow.grant (toLex (document, id)) credit bytes
        pure (some result, flow)
      else pure (none, flow)

/-- Only limited requests count in flight. -/
def freeInFlight (flow : FetchFlow) (credit : Credit) (freed : Nat) : Option Nat :=
  if credit.limited then checkedSub flow.inFlight freed else some flow.inFlight

def consume (flow : FetchFlow) (document : DocumentId) (id total : Nat) :
    Option (Except String Unit × FetchFlow) :=
  match flow.requests.get (toLex (document, id)) with
  | none => some (.ok (), flow)
  | some credit =>
    if total < credit.consumed ∨ credit.reserved < total then
      some (.error "Fetch consumption exceeds delivered bytes or moves backwards", flow)
    else do
      let freed ← checkedSub total credit.consumed
      let inFlight ← flow.freeInFlight credit freed
      pure (.ok (), {
        requests := flow.requests.insert (toLex (document, id)) { credit with consumed := total }
        inFlight := inFlight })

def hasCapacity (flow : FetchFlow) (document : DocumentId) (id bytes : Nat) :
    Option (Except String Bool) :=
  match flow.requests.get (toLex (document, id)) with
  | none => some (.error "Fetch response was cancelled or retired")
  | some credit => do
    let fits ← flow.fits credit bytes
    pure (.ok fits)

def tryReserve (flow : FetchFlow) (document : DocumentId) (id offset bytes : Nat) :
    Option (Except String Bool × FetchFlow) :=
  match flow.requests.get (toLex (document, id)) with
  | none => some (.error "Fetch response was cancelled or retired", flow)
  | some credit =>
    if credit.reserved ≠ offset then
      some (.error "Fetch producer offset does not match reserved bytes", flow)
    else do
      if ← flow.fits credit bytes then
        let (result, flow) := flow.grant (toLex (document, id)) credit bytes
        pure (result.map fun _ => true, flow)
      else pure (.ok false, flow)

def retire (flow : FetchFlow) (document : DocumentId) (id : Nat) : Option FetchFlow :=
  match flow.requests.get (toLex (document, id)) with
  | none => some flow
  | some credit => do
    let requests := flow.requests.erase (toLex (document, id))
    if credit.limited then
      let outstanding ← checkedSub credit.reserved credit.consumed
      let inFlight ← checkedSub flow.inFlight outstanding
      pure { requests := requests, inFlight := inFlight }
    else pure { flow with requests := requests }

def clear (_flow : FetchFlow) : FetchFlow := empty

end FetchFlow

end BetterWebBrowser.RendererProcess
