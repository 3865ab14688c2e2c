import BetterWebBrowser.Webgl.CommandSession

/-!
# The calls of a realm

The methods of `Contexts`, with the mailbox, the replies and the owner around them. Every method
runs to its end; the slices of the schedule say what the owner and the other realms do whenever it
looks for room or for a reply, and before it gives something up.
-/

namespace BetterWebBrowser.Webgl.Session

open Framework Framework.Str
open IndexedDb (Json)

/-- A request of this realm has a ticket, under which its reply comes back. -/
structure Request where
  ticket : Option Nat
  operation : Operation

structure Flight where
  reply : Nat
  ids : Finset Nat

structure Contexts where
  live : Finset Nat
  leases : OrdMap Nat Nat
  asynchronous : Finset Nat
  sync_replies : Cache
  pending : Pending
  inflight : Option Flight
  profiling : Bool

def Contexts.default : Contexts := ⟨∅, .empty, ∅, .default, .default, none, false⟩

/-- What happens beside the realm. -/
inductive Turn
  /-- The owner looks into the mailbox. -/
  | receive
  /-- The owner carries out what it has received; another realm may not wait for its reply. -/
  | execute (heard : Bool)
  /-- Another realm sends a request. -/
  | peer (operation : Operation)
  /-- Another realm retires a context. -/
  | retire (id : Nat)

/-- What happens before the realm looks, and whether its deadline has passed then. -/
structure Slice where
  turns : List Turn
  expired : Bool

structure System (G F : Type) where
  contexts : Contexts
  owner : Owner G
  mailbox : Option Request
  /-- What the owner has taken out of the mailbox. -/
  serving : Option Request
  retired : List Nat
  /-- The leases that the realm holds. -/
  held : Finset Nat
  replies : List (Nat × Reply F)
  /-- The tickets whose replies can still be read. -/
  listening : Finset Nat
  tickets : Nat
  /-- The contexts of other realms. -/
  peers : Finset Nat
  schedule : List Slice
  /-- Everything the realm has accepted for a context, for the record. -/
  issued : List (Nat × Job)

namespace System

variable {G F : Type} (native : Native G F)

def new (schedule : List Slice) : System G F where
  contexts := .default
  owner := .default
  mailbox := none
  serving := none
  retired := []
  held := ∅
  replies := []
  listening := ∅
  tickets := 0
  peers := ∅
  schedule := schedule
  issued := []

/-! ## Beside the realm -/

def receive (s : System G F) : System G F :=
  match s.serving with
  | some _ => s
  | none =>
    let owner := s.owner.sweep s.retired s.held
    match s.mailbox with
    | some request => { s with owner := owner, retired := [], mailbox := none, serving := some request }
    | none =>
      { s with owner := { owner with backend := owner.backend.progress_compilers native }, retired := [] }

/-- A context that another realm has got. -/
def granted : Reply F → Finset Nat
  | .Created (some id) => {id}
  | _ => ∅

def execute (heard : Bool) (s : System G F) : System G F :=
  match s.serving with
  | none => s
  | some request =>
    let result := s.owner.perform native s.held request.operation
    match request.ticket with
    | some ticket =>
      if ticket ∈ s.listening then
        { s with serving := none, owner := result.2.2, replies := s.replies ++ [(ticket, result.1)] }
      else { s with serving := none, owner := result.2.1.foldl Owner.remove result.2.2 }
    | none =>
      if heard = true then
        { s with serving := none, owner := result.2.2, peers := s.peers ∪ granted result.1 }
      else { s with serving := none, owner := result.2.1.foldl Owner.remove result.2.2 }

/-- A request that another realm can send: its own contexts only. -/
def foreign (peers : Finset Nat) : Operation → Bool
  | .Create _ _ _ lease _ => lease.isNone
  | operation => operation.jobs.all fun job => decide (job.1 ∈ peers)

def turn (s : System G F) : Turn → System G F
  | .receive => s.receive native
  | .execute heard => s.execute native heard
  | .peer operation =>
    if s.mailbox.isNone = true ∧ foreign s.peers operation = true then { s with mailbox := some ⟨none, operation⟩ }
    else s
  | .retire id => if id ∈ s.peers then { s with retired := s.retired ++ [id] } else s

def turns (s : System G F) (turns : List Turn) : System G F := turns.foldl (turn native) s

/-- Without a slice nothing happens any more and every deadline passes. -/
def slice (s : System G F) : Slice := s.schedule.head?.getD ⟨[], true⟩

/-- What happens before the realm goes on. -/
def pause (s : System G F) : System G F :=
  { s with schedule := s.schedule.tail }.turns native s.slice.turns

/-! ## Requests -/

/-- Puts a request into the mailbox. -/
def post (s : System G F) (operation : Operation) : System G F :=
  { s with
    mailbox := some ⟨some s.tickets, operation⟩
    listening := insert s.tickets s.listening
    tickets := s.tickets + 1 }

/-- The request is sent as soon as the mailbox has room. -/
def submitIn (operation : Operation) : List Slice → System G F → Option Nat × System G F
  | [], s =>
    let s := s.pause native
    if s.mailbox.isNone = true then (some s.tickets, s.post operation) else (none, s)
  | slice :: rest, s =>
    let s := s.pause native
    if s.mailbox.isNone = true then (some s.tickets, s.post operation)
    else if slice.expired = true then (none, s)
    else submitIn operation rest s

def submit (s : System G F) (operation : Operation) : Option Nat × System G F :=
  submitIn native operation s.schedule s

/-- Nobody reads the reply any more. -/
def close (s : System G F) (ticket : Nat) : System G F :=
  { s with
    listening := s.listening.erase ticket
    replies := s.replies.filter fun reply => decide (reply.1 ≠ ticket) }

/-- Gives the reply up, later than it was looked for. -/
def abandon (s : System G F) (ticket : Nat) : System G F := (s.pause native).close ticket

def reply (s : System G F) (ticket : Nat) : Option (Reply F) := s.replies.lookup ticket

def waitIn (ticket : Nat) : List Slice → System G F → Option (Reply F) × System G F
  | [], s =>
    let s := s.pause native
    match s.reply ticket with
    | some reply => (some reply, s.close ticket)
    | none => (none, s.abandon native ticket)
  | slice :: rest, s =>
    let s := s.pause native
    match s.reply ticket with
    | some reply => (some reply, s.close ticket)
    | none => if slice.expired = true then (none, s.abandon native ticket) else waitIn ticket rest s

def wait (s : System G F) (ticket : Nat) : Option (Reply F) × System G F :=
  waitIn native ticket s.schedule s

/-- `none` while the reply may still come, `some none` if it is too late for it. -/
def poll (s : System G F) (ticket : Nat) : Option (Option (Reply F)) × System G F :=
  let expired := s.slice.expired
  let s := s.pause native
  match s.reply ticket with
  | some reply => (some (some reply), s)
  | none => if expired = true then (some none, s) else (none, s)

/-- A request about contexts, which the realm waits for. -/
def request (s : System G F) (operation : Operation) : Option (Reply F) × System G F :=
  match s.submit native operation with
  | (none, s) => (none, s)
  | (some ticket, s) => { s with issued := s.issued ++ operation.jobs }.wait native ticket

/-! ## Batches -/

def withContexts (s : System G F) (contexts : Contexts) : System G F := { s with contexts := contexts }

def withPending (s : System G F) (pending : Pending) : System G F :=
  s.withContexts { s.contexts with pending := pending }

def withReplies (s : System G F) (sync_replies : Cache) : System G F :=
  s.withContexts { s.contexts with sync_replies := sync_replies }

def withInflight (s : System G F) (inflight : Option Flight) : System G F :=
  s.withContexts { s.contexts with inflight := inflight }

/-- The contexts' leases are dropped. -/
def release (s : System G F) (leases : List Nat) : System G F :=
  let s := s.pause native
  { s with held := leases.foldl Finset.erase s.held }

def retire (s : System G F) (ids : List Nat) : System G F :=
  let s := s.pause native
  { s with retired := s.retired ++ ids }

def forget (contexts : Contexts) (id : Nat) : Contexts :=
  { contexts with
    live := contexts.live.erase id
    leases := contexts.leases.erase id
    asynchronous := contexts.asynchronous.erase id }

def remove (s : System G F) (id : Nat) : System G F :=
  let lease := s.contexts.leases.get id
  let present := decide (id ∈ s.contexts.live)
  let s := (s.withPending (s.contexts.pending.remove id)).withReplies (s.contexts.sync_replies.remove id)
  if present = true then ((s.withContexts (forget s.contexts id)).release native lease.toList).retire native [id]
  else s

def apply_batch_reply (s : System G F) (reply : Option (Reply F)) (ids : Finset Nat) : System G F :=
  let lost := match reply with
    | some (.Batch lost) => lost
    | _ => ids.sort (· ≤ ·)
  (lost.filter fun id => decide (id ∈ ids)).foldl (remove native) s

def reap_pending (s : System G F) (wait : Bool) : System G F :=
  match s.contexts.inflight with
  | none => s
  | some flight =>
    if wait = true then
      match (s.withInflight none).wait native flight.reply with
      | (reply, s) => s.apply_batch_reply native reply flight.ids
    else
      match s.poll native flight.reply with
      | (none, s) => s
      | (some reply, s) => ((s.withInflight none).apply_batch_reply native reply flight.ids).abandon native flight.reply

def submit_pending (s : System G F) : System G F :=
  let s := s.reap_pending native true
  let commands := s.contexts.pending.commands
  let s := s.withPending .default
  if commands = [] then s
  else
    let ids := (commands.map Prod.fst).toFinset
    match s.submit native (.Batch commands) with
    | (some reply, s) => s.withInflight (some ⟨reply, ids⟩)
    | (none, s) => s.apply_batch_reply native none ids

def flush_pending (s : System G F) : System G F := (s.submit_pending native).reap_pending native true

/-! ## Methods -/

inductive Call
  | create (width height : Nat) (options : Str)
  | remove (id : Nat)
  | clear
  | complete_task
  | execute (id : Nat) (command : Str) (bytes : Option (List UInt8))
  | execute_numeric (id : Nat) (command : NumericCommand)
  | read_pixels (id : Nat) (command : Str) (bytes : Option (List UInt8))
  | snapshot (id : Nat) (straight_alpha : Bool)
  | gpu_frame (id : Nat)
  | paint_fallback (id : Nat)
  | set_profiling (enabled : Bool)
  | resource_diagnostics

inductive Answer (F : Type)
  | Done
  | Created (id : Option Nat)
  | Value (value : Json)
  | Flag (live : Bool)
  | Pixels (reply : PixelReply)
  | Bitmap (bitmap : Option Bitmap)
  | Frame (frame : Except Str F)
  | Fallback (bitmap : Except Str (Option Bitmap))
  | Report (report : List Str)

def paint_fallback (s : System G F) (id : Nat) : Except Str (Option Bitmap) × System G F :=
  let s := s.flush_pending native
  if id ∉ s.contexts.live then (.error "GPU Canvas owner is unavailable".toList, s)
  else
    match s.request native (.PaintFallback id) with
    | (some (.PaintFallback bitmap), s) => (bitmap, s)
    | (some _, s) => (.error "GPU Canvas owner returned an invalid fallback reply".toList, s)
    | (none, s) => (.error "GPU Canvas owner did not reply".toList, s)

def gpu_frame (s : System G F) (id : Nat) : Except Str F × System G F :=
  let s := s.flush_pending native
  if id ∉ s.contexts.live then (.error "GPU Canvas owner is unavailable".toList, s)
  else
    match s.request native (.GpuFrame id) with
    | (some (.GpuFrame frame), s) => (frame, s)
    | (some _, s) => (.error "GPU Canvas owner returned an invalid frame reply".toList, s)
    | (none, s) => (.error "GPU Canvas owner did not reply".toList, s)

def set_profiling (s : System G F) (enabled : Bool) : System G F :=
  if s.contexts.profiling = enabled then s
  else
    let s := s.flush_pending native
    let s := s.withContexts { s.contexts with profiling := enabled }
    let ids := s.contexts.live.sort (· ≤ ·)
    if ids = [] then s
    else
      match s.request native (.Profiling ids enabled) with
      | (some .Profiling, s) => s
      | (_, s) => ids.foldl (remove native) s

def resource_diagnostics (s : System G F) : List Str × System G F :=
  if s.contexts.live = ∅ then ([], s)
  else
    let s := s.flush_pending native
    match s.request native (.ResourceDiagnostics (s.contexts.live.sort (· ≤ ·))) with
    | (some (.ResourceDiagnostics report), s) => (report, s)
    | (_, s) => (["WebGL resource diagnostics unavailable: native owner did not reply".toList], s)

/-- The lease of a new context. -/
def lease (s : System G F) : Nat × System G F :=
  (s.tickets, { s with held := insert s.tickets s.held })

def entered (contexts : Contexts) (id lease : Nat) (api : ApiVersion) : Contexts :=
  { contexts with
    live := insert id contexts.live
    leases := contexts.leases.insert id lease
    asynchronous := if api = .Two then insert id contexts.asynchronous else contexts.asynchronous }

def create (s : System G F) (width height : Nat) (options : Str) : Option Nat × System G F :=
  let s := s.flush_pending native
  if MAX_CONTEXTS ≤ s.contexts.live.card ∨ 1024 < byteLen options then (none, s)
  else
    match native.api options with
    | none => (none, s)
    | some api =>
      let (lease, s) := s.lease
      match s.request native (.Create width height options (some lease) s.contexts.profiling) with
      | (some (.Created (some id)), s) => (some id, s.withContexts (entered s.contexts id lease api))
      | (_, s) => (none, s.release native [lease])

def clear (s : System G F) : System G F :=
  let inflight := s.contexts.inflight
  let s := s.withPending .default
  let s := match inflight with
    | some flight => (s.withInflight none).abandon native flight.reply
    | none => s
  let s := s.withReplies .default
  if s.contexts.live = ∅ then s
  else
    let s := s.retire native (s.contexts.live.sort (· ≤ ·))
    let leases := s.contexts.leases.entries.map Prod.snd
    (s.withContexts { s.contexts with live := ∅, leases := .empty, asynchronous := ∅ }).release native leases

def complete_task (s : System G F) : System G F :=
  let s := s.flush_pending native
  let s := s.withReplies .default
  if s.contexts.asynchronous = ∅ then s
  else
    let ids := s.contexts.asynchronous.sort (· ≤ ·)
    match s.request native (.TaskBoundary ids) with
    | (some (.TaskBoundary lost), s) => lost.foldl (remove native) s
    | (_, s) => ids.foldl (remove native) s

/-- Puts a command into the queue and hands a full queue over. -/
def enqueue (s : System G F) (id : Nat) (entry : Entry) (pending : Pending) : System G F :=
  let s := (s.withReplies (s.contexts.sync_replies.remove id)).withPending pending
  let s : System G F := { s with issued := s.issued ++ [(id, .Queued entry)] }
  if s.contexts.pending.full = true then s.submit_pending native else s

def execute_numeric (s : System G F) (id : Nat) (command : NumericCommand) : Bool × System G F :=
  let s := s.reap_pending native false
  if id ∉ s.contexts.live then (false, s)
  else
    let s := s.enqueue native id (.Numeric command) (s.contexts.pending.push_numeric id command)
    (decide (id ∈ s.contexts.live), s)

/-- Queued commands return nothing. -/
def queued (s : System G F) (id : Nat) : Json × System G F :=
  (if id ∈ s.contexts.live then .Null else LOST, s)

/-- `{"i":[code],"op":"bridgeError"}` -/
def bridgeError : Str := "\x7b\"i\":[1285],\"op\":\"bridgeError\"\x7d".toList

def oversized (command : Str) (bytes : Option (List UInt8)) : Bool :=
  decide (MAX_COMMAND_BYTES < byteLen command) || bytes.any fun b => decide (MAX_UPLOAD_BYTES < b.length)

/-- Sends a command and keeps its reply. -/
def ask (s : System G F) (id : Nat) (command serialized : Str) (bytes : Option (List UInt8)) : Json × System G F :=
  match s.request native (.Command id serialized bytes) with
  | (some (.Command value), s) =>
    (value, s.withReplies (s.contexts.sync_replies.record native.fromStr id command value))
  | (_, s) => (LOST, s.withReplies (s.contexts.sync_replies.remove id))

/-- A command that has to wait for its reply. -/
def execute_now (s : System G F) (id : Nat) (command : Str) (bytes : Option (List UInt8)) : Json × System G F :=
  let s := s.flush_pending native
  if id ∉ s.contexts.live then (LOST, s)
  else if oversized command bytes = true then s.ask native id command bridgeError none
  else
    match s.contexts.sync_replies.get native.fromStr id command with
    | some value => (value, s)
    | none => s.ask native id command command bytes

def execute_upload (s : System G F) (id : Nat) (command : Str) (payload : List UInt8) : Json × System G F :=
  let s := if s.contexts.pending.upload_fits payload.length = true then s else s.submit_pending native
  -- Submission can retire a lost owner before the next allocation.
  if id ∉ s.contexts.live then (LOST, s)
  else
    (s.enqueue native id (.Upload command payload) (s.contexts.pending.push_upload id command payload)).queued id

def execute_data (s : System G F) (id : Nat) (command : Str) (bytes : Option (List UInt8)) : Json × System G F :=
  let s := s.reap_pending native false
  if id ∉ s.contexts.live then (LOST, s)
  else
    match bytes with
    | some payload =>
      if Pending.upload_candidate command payload.length = true then s.execute_upload native id command payload
      else s.execute_now native id command (some payload)
    | none =>
      if Pending.candidate command = true then
        (s.enqueue native id (.Json command) (s.contexts.pending.push id command)).queued id
      else s.execute_now native id command none

/-- `{"op":"bridgeError","i":[1285]}` -/
def pixelError : Str := "\x7b\"op\":\"bridgeError\",\"i\":[1285]\x7d".toList

def read_pixels (s : System G F) (id : Nat) (command : Str) (bytes : Option (List UInt8)) : PixelReply × System G F :=
  let s := s.flush_pending native
  if id ∉ s.contexts.live then (.Lost, s)
  else if 1024 < byteLen command ∨ bytes.any (fun b => decide (MAX_UPLOAD_BYTES < b.length)) = true then
    (.Error, (s.execute_data native id pixelError none).2)
  else
    match s.request native (.Pixels id command bytes) with
    | (some (.Pixels .Lost), s) => (.Lost, s.withReplies (s.contexts.sync_replies.remove id))
    | (some (.Pixels value), s) => (value, s)
    | (_, s) => (.Lost, s.withReplies (s.contexts.sync_replies.remove id))

def snapshot (s : System G F) (id : Nat) (straight_alpha : Bool) : Option Bitmap × System G F :=
  let s := s.flush_pending native
  if id ∉ s.contexts.live then (none, s)
  else
    match s.request native (.Snapshot id straight_alpha) with
    | (some (.Snapshot bitmap), s) => (bitmap, s)
    | (_, s) => (none, s)

def run (s : System G F) : Call → Answer F × System G F
  | .create width height options =>
    let result := s.create native width height options
    (.Created result.1, result.2)
  | .remove id => (.Done, s.remove native id)
  | .clear => (.Done, s.clear native)
  | .complete_task => (.Done, s.complete_task native)
  | .execute id command bytes =>
    let result := s.execute_data native id command bytes
    (.Value result.1, result.2)
  | .execute_numeric id command =>
    let result := s.execute_numeric native id command
    (.Flag result.1, result.2)
  | .read_pixels id command bytes =>
    let result := s.read_pixels native id command bytes
    (.Pixels result.1, result.2)
  | .snapshot id straight_alpha =>
    let result := s.snapshot native id straight_alpha
    (.Bitmap result.1, result.2)
  | .gpu_frame id =>
    let result := s.gpu_frame native id
    (.Frame result.1, result.2)
  | .paint_fallback id =>
    let result := s.paint_fallback native id
    (.Fallback result.1, result.2)
  | .set_profiling enabled => (.Done, s.set_profiling native enabled)
  | .resource_diagnostics =>
    let result := s.resource_diagnostics native
    (.Report result.1, result.2)

end System

end BetterWebBrowser.Webgl.Session
