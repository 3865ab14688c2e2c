import BetterWebBrowser.Webgl.CommandOrder

/-!
# Requests and batches of a realm

What a request, a batch and the loss of a context keep of the order of commands, whatever the owner
and the other realms do while the realm waits.
-/

namespace BetterWebBrowser.Webgl.Session

open Framework Framework.Str
open IndexedDb (Json)

namespace System

variable {G F : Type} (native : Native G F) {s s' s'' : System G F} {m : Midway} {id ticket : Nat}

/-- The realm's own part is as it was. -/
structure Beside (s s' : System G F) : Prop where
  contexts : s'.contexts = s.contexts
  held : s'.held = s.held
  listening : s'.listening = s.listening
  tickets : s'.tickets = s.tickets
  issued : s'.issued = s.issued

theorem Beside.refl (s : System G F) : Beside s s := ⟨rfl, rfl, rfl, rfl, rfl⟩

theorem Beside.trans (h : Beside s s') (h' : Beside s' s'') : Beside s s'' where
  contexts := h'.contexts.trans h.contexts
  held := h'.held.trans h.held
  listening := h'.listening.trans h.listening
  tickets := h'.tickets.trans h.tickets
  issued := h'.issued.trans h.issued

theorem beside_turn (s : System G F) (turn : Turn) : Beside s (s.turn native turn) := by
  cases turn with
  | receive =>
    simp only [System.turn, receive]
    split
    · exact .refl s
    split <;> exact ⟨rfl, rfl, rfl, rfl, rfl⟩
  | execute heard =>
    simp only [System.turn, execute]
    split
    · exact .refl s
    split
    · split <;> exact ⟨rfl, rfl, rfl, rfl, rfl⟩
    · split <;> exact ⟨rfl, rfl, rfl, rfl, rfl⟩
  | peer operation =>
    simp only [System.turn]
    split <;> exact ⟨rfl, rfl, rfl, rfl, rfl⟩
  | retire id =>
    simp only [System.turn]
    split <;> exact ⟨rfl, rfl, rfl, rfl, rfl⟩

theorem beside_pause (s : System G F) : Beside s (s.pause native) :=
  pause_induction native (fun t turn h => h.trans (beside_turn native t turn)) ⟨rfl, rfl, rfl, rfl, rfl⟩

/-! ## Requests -/

/-- A request is given up, or it is sent when the mailbox has room. -/
theorem submit_cases {P : System G F → Prop} (hpause : ∀ s, P s → P (s.pause native)) (h : P s) (operation : Operation) :
    ∃ t, P t ∧ Beside s t ∧
      (s.submit native operation = (none, t) ∨
        t.mailbox = none ∧ s.submit native operation = (some t.tickets, t.post operation)) := by
  have hrun : ∀ (slices : List Slice) (s : System G F), P s →
      ∃ t, P t ∧ Beside s t ∧ (submitIn native operation slices s = (none, t) ∨
        t.mailbox = none ∧ submitIn native operation slices s = (some t.tickets, t.post operation)) := by
    intro slices
    induction slices with
    | nil =>
      intro s h
      refine ⟨s.pause native, hpause _ h, beside_pause native s, ?_⟩
      rw [submitIn]
      by_cases hroom : (s.pause native).mailbox.isNone = true
      · exact .inr ⟨Option.isNone_iff_eq_none.mp hroom, if_pos hroom⟩
      · exact .inl (if_neg hroom)
    | cons slice slices ih =>
      intro s h
      rw [submitIn]
      by_cases hroom : (s.pause native).mailbox.isNone = true
      · refine ⟨s.pause native, hpause _ h, beside_pause native s, .inr ⟨Option.isNone_iff_eq_none.mp hroom, ?_⟩⟩
        simp only [hroom, if_true]
      by_cases hexpired : slice.expired = true
      · refine ⟨s.pause native, hpause _ h, beside_pause native s, .inl ?_⟩
        simp only [hroom, hexpired, if_true, if_false, Bool.false_eq_true]
      · obtain ⟨t, ht, hbeside, hcases⟩ := ih (s.pause native) (hpause _ h)
        refine ⟨t, ht, (beside_pause native s).trans hbeside, ?_⟩
        simpa only [hroom, hexpired, if_false, Bool.false_eq_true] using hcases
  exact hrun s.schedule s h

theorem abandon_cases {P : System G F → Prop} (hpause : ∀ s, P s → P (s.pause native)) (h : P s) (ticket : Nat) :
    ∃ t, P t ∧ Beside s t ∧ s.abandon native ticket = t.close ticket :=
  ⟨s.pause native, hpause _ h, beside_pause native s, rfl⟩

/-- A reply is read, or it is given up. -/
theorem wait_cases {P : System G F → Prop} (hpause : ∀ s, P s → P (s.pause native)) (h : P s) (ticket : Nat) :
    ∃ t reply, P t ∧ Beside s t ∧ s.wait native ticket = (reply, t.close ticket) ∧
      ∀ value, reply = some value → t.reply ticket = some value := by
  have hrun : ∀ (slices : List Slice) (s : System G F), P s →
      ∃ t reply, P t ∧ Beside s t ∧ waitIn native ticket slices s = (reply, t.close ticket) ∧
        ∀ value, reply = some value → t.reply ticket = some value := by
    intro slices
    induction slices with
    | nil =>
      intro s h
      rw [waitIn]
      cases hreply : (s.pause native).reply ticket with
      | some value =>
        exact ⟨s.pause native, some value, hpause _ h, beside_pause native s, rfl, fun _ heq => heq ▸ hreply⟩
      | none =>
        obtain ⟨t, ht, hbeside, habandon⟩ := abandon_cases native hpause (hpause _ h) ticket
        exact ⟨t, none, ht, (beside_pause native s).trans hbeside, by simp only [habandon], by simp⟩
    | cons slice slices ih =>
      intro s h
      rw [waitIn]
      cases hreply : (s.pause native).reply ticket with
      | some value =>
        exact ⟨s.pause native, some value, hpause _ h, beside_pause native s, rfl, fun _ heq => heq ▸ hreply⟩
      | none =>
        by_cases hexpired : slice.expired = true
        · obtain ⟨t, ht, hbeside, habandon⟩ := abandon_cases native hpause (hpause _ h) ticket
          exact ⟨t, none, ht, (beside_pause native s).trans hbeside, by simp only [hexpired, if_true, habandon], by simp⟩
        · obtain ⟨t, reply, ht, hbeside, heq, hread⟩ := ih (s.pause native) (hpause _ h)
          refine ⟨t, reply, ht, (beside_pause native s).trans hbeside, ?_, hread⟩
          simpa only [hreply, hexpired, if_false, Bool.false_eq_true] using heq
  exact hrun s.schedule s h

theorem poll_cases {P : System G F → Prop} (hpause : ∀ s, P s → P (s.pause native)) (h : P s) (ticket : Nat) :
    ∃ t, P t ∧ Beside s t ∧ (s.poll native ticket = (none, t) ∨
      ∃ reply, s.poll native ticket = (some reply, t) ∧ ∀ value, reply = some value → t.reply ticket = some value) := by
  refine ⟨s.pause native, hpause _ h, beside_pause native s, ?_⟩
  rw [poll]
  cases hreply : (s.pause native).reply ticket with
  | some value => exact .inr ⟨some value, rfl, fun _ heq => heq⟩
  | none =>
    by_cases hexpired : s.slice.expired = true
    · exact .inr ⟨none, by simp only [hexpired, if_true], by simp⟩
    · exact .inl (by simp only [hexpired, if_false, Bool.false_eq_true])

theorem mem_of_reply {reply : Reply F} (h : s.reply ticket = some reply) : (ticket, reply) ∈ s.replies := by
  rw [System.reply, List.lookup_eq_some_iff] at h
  obtain ⟨before, after, heq, -⟩ := h
  rw [heq]
  simp

/-- Only replies that nobody needs are given up. -/
theorem Sound.close (h : Sound m s) (ticket : Nat) (hother : ∀ batch ∈ m.flight, batch.reply ≠ ticket) :
    Sound m (s.close ticket) where
  __ := h
  told := by
    intro record hrecord hrefused hlive
    refine (h.told record hrecord hrefused hlive).imp_right ?_
    rintro ⟨batch, hflight, hid, lost, hreply, hlost⟩
    refine ⟨batch, hflight, hid, lost, ?_, hlost⟩
    exact List.mem_filter.mpr ⟨hreply, decide_eq_true (hother batch hflight)⟩
  batches := by
    intro request hrequest other commands heq
    refine (h.batches request hrequest other commands heq).imp_left ?_
    rintro ⟨batch, hflight, rfl, hlistening, hids⟩
    exact ⟨batch, hflight, rfl, Finset.mem_erase.mpr ⟨hother batch hflight, hlistening⟩, hids⟩
  tickets := h.tickets.sublist ((List.filter_sublist.map _).append (List.Sublist.refl _))
  posted := fun other hmem => h.posted other (((List.filter_sublist.map _).append (List.Sublist.refl _)).subset hmem)
  newborn := by
    intro other id hreply
    have hnew := h.newborn other id (List.mem_filter.mp hreply).1
    exact ⟨hnew.1, hnew.2.1, fun third hthird => hnew.2.2 third (List.mem_filter.mp hthird).1⟩

/-- The reply to a batch is known: its lost contexts are suspects, or all of them if there is no reply. -/
theorem Sound.settle {batch : Flight} {lost : Finset Nat} (h : Sound m s) (hflight : m.flight = some batch)
    (htold : ∀ id, s.Told m.flight id → id ∈ lost)
    (hrest : (∃ reply, (batch.reply, reply) ∈ s.replies) ∨ batch.ids ⊆ lost) :
    Sound ⟨m.hand, none, m.suspects ∪ lost⟩ s where
  __ := h
  told := by
    intro record hrecord hrefused hlive
    rcases h.told record hrecord hrefused hlive with hsuspect | htell
    · exact .inl (Finset.mem_union_left _ hsuspect)
    · exact .inl (Finset.mem_union_right _ (htold _ htell))
  batches := by
    intro request hrequest ticket commands heq
    rcases h.batches request hrequest ticket commands heq with ⟨other, hother, rfl, -, hids⟩ | hgone
    · obtain rfl : batch = other := Option.some.inj (hflight.symm.trans hother)
      right
      intro command hcommand _
      rcases hrest with ⟨reply, hreply⟩ | hall
      · -- The owner is done with a request that it has replied to.
        have htickets := List.pairwise_append.mp h.tickets
        have hlt := htickets.2.2 batch.reply (List.mem_map_of_mem hreply) batch.reply
          (List.mem_filterMap.mpr ⟨request, hrequest, by rw [heq]⟩)
        exact absurd hlt (lt_irrefl _)
      · exact Finset.mem_union_right _ (hall (hids command hcommand))
    · exact .inr fun command hcommand hlive => Finset.mem_union_left _ (hgone command hcommand hlive)

/-- More contexts may be suspected. -/
theorem Sound.suspect (h : Sound m s) {suspects : Finset Nat} (hle : m.suspects ⊆ suspects) :
    Sound { m with suspects := suspects } s where
  __ := h
  told := fun record hrecord hrefused hlive => (h.told record hrecord hrefused hlive).imp_left fun hid => hle hid
  batches := fun request hrequest ticket commands heq => (h.batches request hrequest ticket commands heq).imp_right
    fun hgone command hcommand hlive => hle (hgone command hcommand hlive)

/-- What is over is forgotten. -/
theorem Sound.clean (h : Sound m s) (hhand : ∀ command ∈ m.hand, command.1 ∉ s.contexts.live)
    (hsuspects : ∀ id ∈ m.suspects, id ∉ s.contexts.live) : Sound ⟨[], m.flight, ∅⟩ s := by
  have hline : ∀ id ∈ s.contexts.live, jobsOf id (s.line m.hand) = jobsOf id (s.line []) := by
    intro id hid
    have hjobs : jobsOf id (Operation.Batch m.hand).jobs = [] := by
      refine jobsOf_eq_nil fun job hjob heq => ?_
      obtain ⟨command, hcommand, rfl⟩ := List.mem_map.mp hjob
      exact hhand command hcommand (heq ▸ hid)
    have hnone : (Operation.Batch []).jobs = [] := rfl
    simp [line, waiting, hjobs, hnone]
  have hknown : ∀ id, s.Known [] id → s.Known m.hand id := by
    rintro id (hlive | hpeer | ⟨job, hjob, rfl⟩)
    · exact .inl hlive
    · exact .inr (.inl hpeer)
    · refine .inr (.inr ⟨job, ?_, rfl⟩)
      have hnone : (Operation.Batch []).jobs = [] := rfl
      simp only [line, waiting, hnone, List.mem_append, List.append_nil] at hjob ⊢
      tauto
  refine { h with
    ordered := ?ordered, told := ?told, batches := ?batches, names := ?names, newborn := ?newborn,
    hand := ?limited }
  case ordered => exact fun id hid => (h.ordered id hid).trans (hline id hid)
  case told =>
    intro record hrecord hrefused hlive
    exact (h.told record hrecord hrefused hlive).imp_left fun hid => absurd hlive (hsuspects _ hid)
  case batches =>
    intro request hrequest ticket commands heq
    refine (h.batches request hrequest ticket commands heq).imp_right fun hgone command hcommand hlive => ?_
    exact absurd hlive (hsuspects _ (hgone command hcommand hlive))
  case names => exact fun id hid => h.names id (hknown id hid)
  case newborn =>
    intro ticket id hreply
    have hnew := h.newborn ticket id hreply
    exact ⟨hnew.1, fun hid => hnew.2.1 (hknown id hid), hnew.2.2⟩
  case limited => exact ⟨Nat.zero_le _, Nat.zero_le _⟩

/-! ## Sending -/

theorem requests_post (hroom : s.mailbox = none) (operation : Operation) :
    (s.post operation).requests = s.requests ++ [⟨some s.tickets, operation⟩] := by
  simp [requests, post, hroom]

theorem ticketLine_post (hroom : s.mailbox = none) (operation : Operation) :
    (s.post operation).ticketLine = s.ticketLine ++ [s.tickets] := by
  rw [ticketLine, requests_post hroom]
  simp [post, ticketLine]

/-- A new request has the highest number. -/
theorem tickets_post (htickets : s.ticketLine.Pairwise (· < ·)) (hposted : ∀ ticket ∈ s.ticketLine, ticket < s.tickets)
    (hroom : s.mailbox = none) (operation : Operation) : (s.post operation).ticketLine.Pairwise (· < ·) ∧
      ∀ ticket ∈ (s.post operation).ticketLine, ticket < (s.post operation).tickets := by
  rw [ticketLine_post hroom]
  constructor
  · refine List.pairwise_append.mpr ⟨htickets, List.pairwise_singleton _ _, fun ticket hticket other hother => ?_⟩
    rw [List.mem_singleton.mp hother]
    exact hposted ticket hticket
  · intro ticket hticket
    rcases List.mem_append.mp hticket with hold | hnew
    · exact (hposted ticket hold).trans (Nat.lt_succ_self _)
    · rw [List.mem_singleton.mp hnew]
      exact Nat.lt_succ_self _

/-- The commands in hand become the batch that is out. -/
theorem Sound.postBatch {commands : List (Nat × Entry)} (h : Sound ⟨commands, none, ∅⟩ s) (hroom : s.mailbox = none) :
    Sound ⟨[], some ⟨s.tickets, (commands.map Prod.fst).toFinset⟩, ∅⟩ (s.post (.Batch commands)) := by
  have hline : (s.post (.Batch commands)).line [] = s.line commands := by
    have hnone : (Operation.Batch []).jobs = [] := rfl
    rw [line, line, waiting, waiting, requests_post hroom, hnone]
    simp [post]
  have hknown : ∀ id, (s.post (.Batch commands)).Known [] id ↔ s.Known commands id := by
    intro id
    rw [Known, Known, hline]
    rfl
  refine { h with
    ordered := ?ordered, told := ?told, batches := ?batches, foreign := ?foreign, tickets := ?tickets,
    posted := ?posted, names := ?names, newborn := ?newborn, hand := ?limited, small := ?small }
  case ordered =>
    rw [hline]
    exact h.ordered
  case told =>
    intro record hrecord hrefused hlive
    rcases h.told record hrecord hrefused hlive with hid | ⟨batch, hbatch, -⟩
    · exact .inl hid
    · simp at hbatch
  case batches =>
    intro request hrequest ticket others heq
    rw [requests_post hroom, List.mem_append, List.mem_singleton] at hrequest
    rcases hrequest with hold | hnew
    · rcases h.batches request hold ticket others heq with ⟨batch, hbatch, -⟩ | hgone
      · simp at hbatch
      · exact .inr hgone
    · rw [heq] at hnew
      cases hnew
      refine .inl ⟨_, rfl, rfl, Finset.mem_insert_self _ _, fun command hcommand => ?_⟩
      exact List.mem_toFinset.mpr (List.mem_map_of_mem hcommand)
  case foreign =>
    intro request hrequest hticket
    rw [requests_post hroom, List.mem_append, List.mem_singleton] at hrequest
    rcases hrequest with hold | hnew
    · exact h.foreign request hold hticket
    · simp [hnew] at hticket
  case tickets => exact (tickets_post h.tickets h.posted hroom _).1
  case posted => exact (tickets_post h.tickets h.posted hroom _).2
  case names => exact fun id hid => h.names id ((hknown id).mp hid)
  case newborn =>
    intro ticket id hreply
    have hnew := h.newborn ticket id hreply
    exact ⟨hnew.1, fun hid => hnew.2.1 ((hknown id).mp hid), hnew.2.2⟩
  case limited => exact ⟨Nat.zero_le _, Nat.zero_le _⟩
  case small =>
    intro request hrequest ticket others heq
    rw [requests_post hroom, List.mem_append, List.mem_singleton] at hrequest
    rcases hrequest with hold | hnew
    · exact h.small request hold ticket others heq
    · rw [heq] at hnew
      cases hnew
      exact h.hand

/-! ## Batches -/

/-- Only what the realm keeps for itself is changed. -/
theorem Sound.withContexts (h : Sound m s) (contexts : Contexts) (hlive : contexts.live = s.contexts.live)
    (hasynchronous : contexts.asynchronous = s.contexts.asynchronous) (hpending : contexts.pending = s.contexts.pending) :
    Sound m (s.withContexts contexts) := by
  refine h.lapse ⟨rfl, rfl, rfl, rfl, rfl, rfl, rfl, rfl, hlive.subset, ?_, ?_, ?_, ?_⟩
  · exact hasynchronous.subset.trans (h.asynchronous.trans hlive.superset)
  · exact hpending ▸ List.Sublist.refl _
  · intro id _
    rw [show (s.withContexts contexts).contexts.pending = s.contexts.pending from hpending]
  · rw [show (s.withContexts contexts).contexts.pending = s.contexts.pending from hpending]
    exact h.counted

/-- The queue is taken into the hand. -/
theorem Sound.take {flight : Option Flight} (h : Sound ⟨[], flight, ∅⟩ s) :
    Sound ⟨s.contexts.pending.commands, flight, ∅⟩ (s.withPending .default) := by
  have hline : (s.withPending .default).line s.contexts.pending.commands = s.line [] := by
    simp [line, waiting, System.withPending, System.withContexts, Pending.default, Operation.jobs, requests]
  have hknown : ∀ id, (s.withPending .default).Known s.contexts.pending.commands id ↔ s.Known [] id := by
    intro id
    rw [Known, Known, hline]
    rfl
  refine { h with
    ordered := ?ordered, names := ?names, newborn := ?newborn, counted := ?counted, queue := ?queue,
    hand := ?limited }
  case ordered =>
    rw [hline]
    exact h.ordered
  case names => exact fun id hid => h.names id ((hknown id).mp hid)
  case newborn =>
    intro ticket id hreply
    have hnew := h.newborn ticket id hreply
    exact ⟨hnew.1, fun hid => hnew.2.1 ((hknown id).mp hid), hnew.2.2⟩
  case counted => rfl
  case queue => exact ⟨Nat.zero_le _, Nat.zero_le _⟩
  case limited => exact h.queue

/-! ## Giving a context up -/

theorem jobsOf_remove (pending : Pending) {id other : Nat} (hne : other ≠ id) :
    jobsOf other (Operation.Batch (pending.remove id).commands).jobs =
      jobsOf other (Operation.Batch pending.commands).jobs := by
  simp only [Pending.remove, Operation.jobs, jobsOf, List.filter_map, List.filter_filter]
  congr 2
  apply List.filter_congr
  intro command _
  by_cases hsame : command.1 = other <;> simp [hsame, hne]

/-- What giving contexts up leaves of the realm's part. -/
structure Falls (s s' : System G F) : Prop where
  live : s'.contexts.live ⊆ s.contexts.live
  inflight : s'.contexts.inflight = s.contexts.inflight
  queue : s'.contexts.pending.commands.Sublist s.contexts.pending.commands

theorem Falls.refl (s : System G F) : Falls s s := ⟨Finset.Subset.refl _, rfl, List.Sublist.refl _⟩

theorem Falls.trans (h : Falls s s') (h' : Falls s' s'') : Falls s s'' :=
  ⟨h'.live.trans h.live, h'.inflight.trans h.inflight, h'.queue.trans h.queue⟩

theorem Beside.falls (h : Beside s s') : Falls s s' :=
  ⟨h.contexts ▸ Finset.Subset.refl _, h.contexts ▸ rfl, h.contexts ▸ List.Sublist.refl _⟩

theorem Sound.release (h : Sound m s) (leases : List Nat) : Sound m (s.release native leases) :=
  (h.pause native).alike ⟨rfl, rfl, rfl, rfl, rfl, rfl, rfl, rfl, rfl⟩

theorem contexts_release (s : System G F) (leases : List Nat) : (s.release native leases).contexts = s.contexts :=
  (beside_pause native s).contexts

theorem Sound.retire (h : Sound m s) (ids : List Nat) : Sound m (s.retire native ids) :=
  (h.pause native).alike ⟨rfl, rfl, rfl, rfl, rfl, rfl, rfl, rfl, rfl⟩

theorem contexts_retire (s : System G F) (ids : List Nat) : (s.retire native ids).contexts = s.contexts :=
  (beside_pause native s).contexts

theorem Sound.remove (h : Sound m s) (id : Nat) :
    Sound m (s.remove native id) ∧ Falls s (s.remove native id) ∧ id ∉ (s.remove native id).contexts.live := by
  have hqueue : (s.contexts.pending.remove id).commands.Sublist s.contexts.pending.commands := List.filter_sublist
  rw [System.remove]
  by_cases hpresent : id ∈ s.contexts.live
  · simp only [hpresent, decide_true, if_true]
    have hlapse : Sound m (((s.withPending (s.contexts.pending.remove id)).withReplies
        (s.contexts.sync_replies.remove id)).withContexts (forget ((s.withPending
          (s.contexts.pending.remove id)).withReplies (s.contexts.sync_replies.remove id)).contexts id)) := by
      refine h.lapse ⟨rfl, rfl, rfl, rfl, rfl, rfl, rfl, rfl, Finset.erase_subset _ _, ?_, hqueue, ?_, rfl⟩
      · exact Finset.erase_subset_erase id h.asynchronous
      · exact fun other hother => jobsOf_remove _ (Finset.ne_of_mem_erase hother)
    refine ⟨(hlapse.release native _).retire native _, ?_, ?_⟩
    · refine ⟨?_, ?_, ?_⟩
      · rw [contexts_retire, contexts_release]
        exact Finset.erase_subset _ _
      · rw [contexts_retire, contexts_release]
        rfl
      · rw [contexts_retire, contexts_release]
        exact hqueue
    · rw [contexts_retire, contexts_release]
      exact Finset.notMem_erase _ _
  · simp only [hpresent, decide_false, Bool.false_eq_true, if_false]
    refine ⟨?_, ⟨Finset.Subset.refl _, rfl, hqueue⟩, hpresent⟩
    refine h.lapse ⟨rfl, rfl, rfl, rfl, rfl, rfl, rfl, rfl, Finset.Subset.refl _, h.asynchronous, hqueue, ?_, rfl⟩
    exact fun other hother => jobsOf_remove _ fun heq => hpresent (heq ▸ hother)

theorem Sound.foldl_remove (h : Sound m s) (ids : List Nat) :
    Sound m (ids.foldl (System.remove native) s) ∧ Falls s (ids.foldl (System.remove native) s) ∧
      ∀ id ∈ ids, id ∉ (ids.foldl (System.remove native) s).contexts.live := by
  induction ids generalizing s with
  | nil => exact ⟨h, .refl s, fun _ hid => absurd hid List.not_mem_nil⟩
  | cons first ids ih =>
    have hfirst := h.remove native first
    have hrest := ih hfirst.1
    refine ⟨hrest.1, hfirst.2.1.trans hrest.2.1, fun id hid => ?_⟩
    rcases List.mem_cons.mp hid with rfl | hlater
    · exact fun hlive => hfirst.2.2 (hrest.2.1.live hlive)
    · exact hrest.2.2 id hlater

/-! ## Replies to batches -/

/-- The contexts that a reply to a batch gives up. -/
def lostOf (reply : Option (Reply F)) (ids : Finset Nat) : List Nat :=
  (match reply with
    | some (.Batch lost) => lost
    | _ => ids.sort (· ≤ ·)).filter fun id => decide (id ∈ ids)

theorem mem_lostOf_of_not_batch {reply : Option (Reply F)} {ids : Finset Nat}
    (h : ∀ lost, reply ≠ some (.Batch lost)) (id : Nat) : id ∈ lostOf reply ids ↔ id ∈ ids := by
  unfold lostOf
  split
  · next lost => exact absurd rfl (h lost)
  · simp

/-- A ticket has one reply. -/
theorem Sound.reply_unique (h : Sound m s) {reply other : Reply F} (hreply : (ticket, reply) ∈ s.replies)
    (hother : (ticket, other) ∈ s.replies) : reply = other := by
  have hnodup : (s.replies.map Prod.fst).Nodup := (List.pairwise_append.mp h.tickets).1.imp ne_of_lt
  exact congrArg Prod.snd (List.inj_on_of_nodup_map hnodup hreply hother rfl)

theorem Sound.answered {hand : List (Nat × Entry)} {flight : Flight} (h : Sound ⟨hand, some flight, ∅⟩ s)
    (reply : Option (Reply F)) (hread : ∀ value, reply = some value → s.reply flight.reply = some value) :
    Sound ⟨hand, none, (lostOf reply flight.ids).toFinset⟩ s := by
  rw [← Finset.empty_union (lostOf reply flight.ids).toFinset]
  refine h.settle rfl ?_ ?_
  · rintro id ⟨batch, hbatch, hid, lost, hreply, hlost⟩
    obtain rfl : flight = batch := Option.some.inj hbatch
    rw [List.mem_toFinset]
    by_cases hnone : ∀ lost, reply ≠ some (.Batch lost)
    · exact (mem_lostOf_of_not_batch hnone id).mpr hid
    · obtain ⟨told, htold⟩ := not_forall_not.mp hnone
      have hsame := h.reply_unique hreply (mem_of_reply (hread _ htold))
      rw [Reply.Batch.injEq] at hsame
      simp [lostOf, htold, hid, ← hsame, hlost]
  · cases hvalue : reply with
    | some value => exact .inl ⟨value, mem_of_reply (hread value hvalue)⟩
    | none =>
      right
      intro id hid
      rw [List.mem_toFinset]
      exact (mem_lostOf_of_not_batch (by simp) id).mpr hid

theorem Sound.apply_batch_reply {hand : List (Nat × Entry)} {reply : Option (Reply F)} {ids : Finset Nat}
    (h : Sound ⟨hand, none, (lostOf reply ids).toFinset⟩ s) (hhand : ∀ command ∈ hand, command.1 ∈ lostOf reply ids) :
    Sound ⟨[], none, ∅⟩ (s.apply_batch_reply native reply ids) ∧ Falls s (s.apply_batch_reply native reply ids) := by
  have hremoved := h.foldl_remove native (lostOf reply ids)
  refine ⟨hremoved.1.clean (fun command hcommand => ?_) fun id hid => ?_, hremoved.2.1⟩
  · exact hremoved.2.2 _ (hhand command hcommand)
  · exact hremoved.2.2 id (List.mem_toFinset.mp hid)

/-- What a method leaves of the contexts and of the queue. -/
structure Leaves (s s' : System G F) : Prop where
  live : s'.contexts.live ⊆ s.contexts.live
  queue : s'.contexts.pending.commands.Sublist s.contexts.pending.commands

theorem Sound.reap_wait (h : Sound s.contexts.rest s) :
    Sound ⟨[], none, ∅⟩ (s.reap_pending native true) ∧ (s.reap_pending native true).contexts.inflight = none ∧
      Leaves s (s.reap_pending native true) := by
  rw [System.reap_pending]
  cases hflight : s.contexts.inflight with
  | none =>
    rw [Contexts.rest, hflight] at h
    exact ⟨h, hflight, Finset.Subset.refl _, List.Sublist.refl _⟩
  | some flight =>
    rw [Contexts.rest, hflight] at h
    simp only [if_true]
    have hgone : Sound ⟨[], some flight, ∅⟩ (s.withInflight none) := h.withContexts _ rfl rfl rfl
    obtain ⟨t, reply, ht, hbeside, heq, hread⟩ := wait_cases native (fun _ h => Sound.pause native h) hgone flight.reply
    have hclosed := (ht.answered reply hread).close flight.reply (by simp)
    have happlied := hclosed.apply_batch_reply native (by simp)
    have hfalls := hbeside.falls
    rw [heq]
    exact ⟨happlied.1, happlied.2.inflight.trans hfalls.inflight, happlied.2.live.trans hfalls.live,
      happlied.2.queue.trans hfalls.queue⟩

theorem Sound.reap_poll (h : Sound s.contexts.rest s) :
    Sound (s.reap_pending native false).contexts.rest (s.reap_pending native false) ∧
      Leaves s (s.reap_pending native false) := by
  rw [System.reap_pending]
  cases hflight : s.contexts.inflight with
  | none => exact ⟨h, Finset.Subset.refl _, List.Sublist.refl _⟩
  | some flight =>
    simp only [Bool.false_eq_true, if_false]
    obtain ⟨t, ht, hbeside, heq | ⟨reply, heq, hread⟩⟩ :=
      poll_cases native (fun _ h => Sound.pause native h) h flight.reply
    · rw [heq]
      simp only []
      rw [hbeside.contexts]
      exact ⟨ht, hbeside.falls.live, hbeside.falls.queue⟩
    · rw [heq]
      rw [Contexts.rest, hflight] at ht
      have hgone : Sound ⟨[], some flight, ∅⟩ (t.withInflight none) := ht.withContexts _ rfl rfl rfl
      have happlied := (hgone.answered reply hread).apply_batch_reply native (by simp)
      have hfalls := happlied.2
      obtain ⟨u, hu, hlater, habandon⟩ := abandon_cases native (fun _ h => Sound.pause native h) happlied.1 flight.reply
      have hend : u.contexts.inflight = none := hlater.falls.inflight.trans hfalls.inflight
      simp only [habandon]
      refine ⟨?_, ?_, ?_⟩
      · rw [show (u.close flight.reply).contexts.rest = ⟨[], none, ∅⟩ by rw [Contexts.rest, ← hend]; rfl]
        exact hu.close flight.reply (by simp)
      · exact (hlater.falls.live.trans hfalls.live).trans hbeside.falls.live
      · exact (hlater.falls.queue.trans hfalls.queue).trans hbeside.falls.queue

theorem Sound.submit_pending (h : Sound s.contexts.rest s) :
    Sound (s.submit_pending native).contexts.rest (s.submit_pending native) ∧
      (s.submit_pending native).contexts.live ⊆ s.contexts.live ∧
      (s.submit_pending native).contexts.pending.commands = [] := by
  obtain ⟨hsound, hinflight, hleaves⟩ := h.reap_wait native
  rw [System.submit_pending]
  have htake := hsound.take
  generalize s.reap_pending native true = t at *
  by_cases hempty : t.contexts.pending.commands = []
  · simp only [hempty, if_true]
    rw [hempty] at htake
    refine ⟨?_, hleaves.live, rfl⟩
    rw [show (t.withPending .default).contexts.rest = ⟨[], none, ∅⟩ by rw [Contexts.rest, ← hinflight]; rfl]
    exact htake
  simp only [hempty, if_false]
  obtain ⟨u, hu, hbeside, heq | ⟨hroom, heq⟩⟩ :=
    submit_cases native (fun _ h => Sound.pause native h) htake (.Batch t.contexts.pending.commands)
  · rw [heq]
    have hnone : ∀ id, id ∈ lostOf (none : Option (Reply F)) (t.contexts.pending.commands.map Prod.fst).toFinset ↔
        id ∈ (t.contexts.pending.commands.map Prod.fst).toFinset := mem_lostOf_of_not_batch (by simp)
    have happlied := (hu.suspect (Finset.empty_subset _)).apply_batch_reply native
      (fun command hcommand => (hnone _).mpr (List.mem_toFinset.mpr (List.mem_map_of_mem hcommand)))
    have hfalls := hbeside.falls.trans happlied.2
    refine ⟨?_, hfalls.live.trans hleaves.live, List.sublist_nil.mp hfalls.queue⟩
    rw [Contexts.rest, hfalls.inflight]
    exact hinflight ▸ happlied.1
  · rw [heq]
    refine ⟨(hu.postBatch hroom).withContexts _ rfl rfl rfl, hbeside.falls.live.trans hleaves.live, ?_⟩
    exact List.sublist_nil.mp hbeside.falls.queue

end System

end BetterWebBrowser.Webgl.Session
