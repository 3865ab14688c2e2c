import BetterWebBrowser.Webgl.CommandRuns

/-!
# The calls of a realm keep the order

Every method takes the realm from rest to rest, so what holds between two calls holds in every run.
-/

namespace BetterWebBrowser.Webgl.Session

open Framework Framework.Str
open IndexedDb (Json)

namespace System

variable {G F : Type} (native : Native G F) {s : System G F} {m : Midway} {id : Nat} {operation : Operation}

/-! ## Between requests -/

/-- Nothing is queued and nothing is out. -/
structure Idle (s : System G F) : Prop where
  sound : Sound ⟨[], none, ∅⟩ s
  inflight : s.contexts.inflight = none
  queue : s.contexts.pending.commands = []

/-- Between two calls. -/
structure Resting (s : System G F) : Prop where
  sound : Sound s.contexts.rest s
  room : s.contexts.pending.commands.length < Pending.MAX_COMMANDS

theorem Idle.resting (h : Idle s) : Resting s where
  sound := by
    rw [Contexts.rest, h.inflight]
    exact h.sound
  room := by
    rw [h.queue]
    decide

theorem Resting.idle_flush (h : Resting s) : Idle (s.flush_pending native) ∧
    (s.flush_pending native).contexts.live ⊆ s.contexts.live := by
  have hsubmit := h.sound.submit_pending native
  have hreap := hsubmit.1.reap_wait native
  refine ⟨⟨hreap.1, hreap.2.1, ?_⟩, hreap.2.2.live.trans hsubmit.2.1⟩
  exact List.sublist_nil.mp (hsubmit.2.2 ▸ hreap.2.2.queue)

theorem Idle.foldl_remove (h : Idle s) (ids : List Nat) : Idle (ids.foldl (System.remove native) s) := by
  have hremoved := h.sound.foldl_remove native ids
  exact ⟨hremoved.1, hremoved.2.1.inflight.trans h.inflight, List.sublist_nil.mp (h.queue ▸ hremoved.2.1.queue)⟩

theorem Idle.withReplies (h : Idle s) (sync_replies : Cache) : Idle (s.withReplies sync_replies) :=
  ⟨h.sound.withContexts _ rfl rfl rfl, h.inflight, h.queue⟩

theorem Idle.release (h : Idle s) (leases : List Nat) : Idle (s.release native leases) := by
  have hcontexts := contexts_release native s leases
  refine ⟨h.sound.release native leases, ?_, ?_⟩
  · rw [hcontexts]
    exact h.inflight
  · rw [hcontexts]
    exact h.queue

/-! ## Asking -/

/-- The owner has given a name that nobody has heard of. -/
structure Fresh (s : System G F) (id : Nat) : Prop where
  next : id ≤ s.owner.backend.next
  unknown : ¬s.Known [] id
  unread : ∀ other, (other, Reply.Created (some id)) ∉ s.replies

/-- What the owner still has for a context are requests of its own. -/
theorem Sound.asked_waiting (h : Sound ⟨[], none, ∅⟩ s) (hqueue : s.contexts.pending.commands = [])
    (hid : id ∈ s.contexts.live) : ∀ job ∈ jobsOf id (s.waiting []), ∃ operation, job = .Asked operation := by
  intro job hjob
  have hmem : (id, job) ∈ s.waiting [] := by
    rw [jobsOf, List.mem_map] at hjob
    obtain ⟨entry, hentry, rfl⟩ := hjob
    rw [List.mem_filter, decide_eq_true_eq] at hentry
    exact hentry.2 ▸ hentry.1
  have hnone : (Operation.Batch []).jobs = [] := rfl
  rw [waiting, hqueue, hnone, List.append_nil, List.append_nil, List.mem_flatMap] at hmem
  obtain ⟨request, hrequest, hentry⟩ := hmem
  cases job with
  | Asked operation => exact ⟨operation, rfl⟩
  | Queued entry =>
    exfalso
    obtain ⟨commands, hbatch⟩ : ∃ commands, request.operation = .Batch commands := by
      by_contra hnot
      exact Owner.asked_of_mem_jobs (fun commands heq => hnot ⟨commands, heq⟩) hentry entry rfl
    cases hticket : request.ticket with
    | none => exact h.apart id hid (h.foreign request hrequest hticket _ hentry)
    | some ticket =>
      have hcommand : (id, entry) ∈ commands := by
        rw [hbatch] at hentry
        simpa [Operation.jobs] using hentry
      have heq : request = ⟨some ticket, .Batch commands⟩ := by rw [← hticket, ← hbatch]
      rcases h.batches request hrequest ticket commands heq with ⟨batch, hflight, -⟩ | hgone
      · simp at hflight
      · exact absurd (hgone _ hcommand hid) (Finset.notMem_empty _)

theorem jobsOf_records (id : Nat) (records : List Handled) :
    jobsOf id (records.map Handled.entry) = (records.filter fun record => decide (record.id = id)).map Handled.job := by
  rw [jobsOf, List.filter_map, List.map_map]
  rfl

/-- Every command has been done, and no context in use has refused one. -/
theorem Sound.settled (h : Sound ⟨[], none, ∅⟩ s) (hqueue : s.contexts.pending.commands = [])
    (hid : id ∈ s.contexts.live) (more : List (Nat × Job)) (hmore : ∀ job ∈ more, ∀ entry, job.2 ≠ .Queued entry) :
    s.Settled id (s.issued ++ more) := by
  refine ⟨_, [], jobsOf id (s.waiting []) ++ jobsOf id more, (List.append_nil _).symm, ?_, ?_, ?_⟩
  · intro record hrecord hrefused
    rw [List.mem_filter, decide_eq_true_eq] at hrecord
    rcases h.told record hrecord.1 hrefused (hrecord.2 ▸ hid) with hsuspect | ⟨batch, hbatch, -⟩
    · exact absurd hsuspect (Finset.notMem_empty _)
    · simp at hbatch
  · rw [jobsOf_append, h.ordered id hid, System.line, jobsOf_append, jobsOf_records, List.append_assoc]
  · intro job hjob
    rcases List.mem_append.mp hjob with hwaiting | hnew
    · exact h.asked_waiting hqueue hid job hwaiting
    · rw [jobsOf, List.mem_map] at hnew
      obtain ⟨entry, hentry, rfl⟩ := hnew
      cases hkind : entry.2 with
      | Asked operation => exact ⟨operation, rfl⟩
      | Queued command => exact absurd hkind (hmore entry (List.mem_filter.mp hentry).1 command)

theorem Sound.postAsked {operation : Operation} (h : Sound ⟨[], none, ∅⟩ s)
    (hqueue : s.contexts.pending.commands = []) (hroom : s.mailbox = none)
    (hasked : ∀ commands, operation ≠ .Batch commands) (hids : ∀ job ∈ operation.jobs, job.1 ∈ s.contexts.live) :
    Sound ⟨[], none, ∅⟩ { s.post operation with issued := s.issued ++ operation.jobs } := by
  have hnone : (Operation.Batch []).jobs = [] := rfl
  have hrequests := requests_post hroom operation
  have hline : line { s.post operation with issued := s.issued ++ operation.jobs } [] = s.line [] ++ operation.jobs := by
    have hsame : requests { s.post operation with issued := s.issued ++ operation.jobs } =
        (s.post operation).requests := rfl
    rw [line, line, waiting, waiting, hsame, hrequests]
    simp [post, hqueue, hnone]
  have hknown : ∀ id, Known { s.post operation with issued := s.issued ++ operation.jobs } [] id → s.Known [] id := by
    intro id hid
    rw [Known, hline] at hid
    rcases hid with hlive | hpeer | ⟨job, hjob, rfl⟩
    · exact .inl hlive
    · exact .inr (.inl hpeer)
    · by_cases hnew : job ∈ operation.jobs
      · exact .inl (hids job hnew)
      · refine .inr (.inr ⟨job, ?_, rfl⟩)
        simp only [List.mem_append] at hjob ⊢
        tauto
  refine { h with
    ordered := ?ordered, batches := ?batches, foreign := ?foreign, tickets := ?tickets,
    posted := ?posted, names := ?names, newborn := ?newborn, small := ?small, barrier := ?barrier }
  case ordered =>
    intro id hid
    rw [hline, jobsOf_append, jobsOf_append, h.ordered id hid]
  case batches =>
    intro request hrequest ticket commands heq
    replace hrequest : request ∈ (s.post operation).requests := hrequest
    rw [hrequests, List.mem_append, List.mem_singleton] at hrequest
    rcases hrequest with hold | hnew
    · rcases h.batches request hold ticket commands heq with ⟨batch, hbatch, -⟩ | hgone
      · simp at hbatch
      · exact .inr hgone
    · rw [heq, Request.mk.injEq] at hnew
      exact absurd hnew.2.symm (hasked commands)
  case foreign =>
    intro request hrequest hticket
    replace hrequest : request ∈ (s.post operation).requests := hrequest
    rw [hrequests, List.mem_append, List.mem_singleton] at hrequest
    rcases hrequest with hold | hnew
    · exact h.foreign request hold hticket
    · simp [hnew] at hticket
  case tickets => exact (tickets_post h.tickets h.posted hroom operation).1
  case posted => exact (tickets_post h.tickets h.posted hroom operation).2
  case names => exact fun id hid => h.names id (hknown id hid)
  case newborn =>
    intro ticket id hreply
    have hnew := h.newborn ticket id hreply
    exact ⟨hnew.1, fun hid => hnew.2.1 (hknown id hid), hnew.2.2⟩
  case small =>
    intro request hrequest ticket commands heq
    replace hrequest : request ∈ (s.post operation).requests := hrequest
    rw [hrequests, List.mem_append, List.mem_singleton] at hrequest
    rcases hrequest with hold | hnew
    · exact h.small request hold ticket commands heq
    · rw [heq, Request.mk.injEq] at hnew
      exact absurd hnew.2.symm (hasked commands)
  case barrier =>
    intro before job asked after heq id hid
    have hjobs : ∀ job ∈ operation.jobs, ∀ entry, job.2 ≠ .Queued entry := fun job => Owner.asked_of_mem_jobs hasked
    rcases List.append_eq_append_iff.mp heq with ⟨some, hbefore, hrest⟩ | ⟨some, hissued, hrest⟩
    · rw [hbefore]
      exact h.settled hqueue hid some fun other hother => hjobs other (hrest ▸ List.mem_append_left _ hother)
    · cases some with
      | nil =>
        rw [List.append_nil] at hissued
        have hsettled := h.settled hqueue hid [] (by simp)
        rwa [List.append_nil, hissued] at hsettled
      | cons first rest =>
        rw [List.cons_append, List.cons.injEq] at hrest
        exact h.barrier before job asked rest (hrest.1 ▸ hissued) id hid

theorem Idle.request_cases (h : Idle s) (operation : Operation) (hasked : ∀ commands, operation ≠ .Batch commands)
    (hids : ∀ job ∈ operation.jobs, job.1 ∈ s.contexts.live) :
    ∃ reply t, s.request native operation = (reply, t) ∧ Idle t ∧
      ∀ id, reply = some (.Created (some id)) → Fresh t id := by
  obtain ⟨t, ht, hbeside, heq | ⟨hroom, heq⟩⟩ := submit_cases native (fun _ h => Sound.pause native h) h.sound operation
  · refine ⟨none, t, by rw [System.request, heq], ⟨ht, ?_, ?_⟩, by simp⟩
    · rw [hbeside.contexts]
      exact h.inflight
    · rw [hbeside.contexts]
      exact h.queue
  · have hpost := ht.postAsked (by rw [hbeside.contexts]; exact h.queue) hroom hasked
      (by rw [hbeside.contexts]; exact hids)
    obtain ⟨u, reply, hu, hlater, hwait, hread⟩ := wait_cases native (fun _ h => Sound.pause native h) hpost t.tickets
    have hcontexts : (u.close t.tickets).contexts = s.contexts := hlater.contexts.trans hbeside.contexts
    refine ⟨reply, u.close t.tickets, ?_, ⟨hu.close t.tickets (by simp), ?_, ?_⟩, ?_⟩
    · rw [System.request, heq]
      exact hwait
    · rw [hcontexts]
      exact h.inflight
    · rw [hcontexts]
      exact h.queue
    · intro id hreply
      have hmem := mem_of_reply (hread _ hreply)
      have hnew := hu.newborn t.tickets id hmem
      refine ⟨hnew.1, hnew.2.1, fun other hother => ?_⟩
      have hfound := List.mem_filter.mp hother
      exact of_decide_eq_true hfound.2 (hnew.2.2 other hfound.1)

/-! ## Contexts that come in -/

theorem Sound.enter {lease : Nat} {api : ApiVersion} (h : Sound ⟨[], none, ∅⟩ s) (hfresh : Fresh s id) :
    Sound ⟨[], none, ∅⟩ (s.withContexts (entered s.contexts id lease api)) := by
  have hnobody : ∀ job ∈ s.issued ++ s.line [], job.1 ≠ id :=
    fun job hjob heq => hfresh.unknown (.inr (.inr ⟨job, hjob, heq⟩))
  have hissued : ∀ job ∈ s.issued, job.1 ≠ id := fun job hjob => hnobody job (List.mem_append_left _ hjob)
  have hline : ∀ job ∈ s.line [], job.1 ≠ id := fun job hjob => hnobody job (List.mem_append_right _ hjob)
  have hhandled : ∀ record ∈ s.owner.backend.handled, record.id ≠ id :=
    fun record hrecord => hline record.entry (List.mem_append_left _ (List.mem_map_of_mem hrecord))
  have hlive : ∀ other, other ∈ (s.withContexts (entered s.contexts id lease api)).contexts.live →
      other = id ∨ other ∈ s.contexts.live := fun other hother => Finset.mem_insert.mp hother
  have hknown : ∀ other, (s.withContexts (entered s.contexts id lease api)).Known [] other →
      other = id ∨ s.Known [] other := by
    rintro other (hother | hpeer | hjob)
    · exact (hlive other hother).imp_right .inl
    · exact .inr (.inr (.inl hpeer))
    · exact .inr (.inr (.inr hjob))
  refine { h with
    ordered := ?ordered, told := ?told, batches := ?batches, apart := ?apart, names := ?names,
    newborn := ?newborn, asynchronous := ?asynchronous, barrier := ?barrier }
  case ordered =>
    intro other hother
    rcases hlive other hother with rfl | hold
    · rw [show (s.withContexts (entered s.contexts other lease api)).issued = s.issued from rfl, jobsOf_eq_nil hissued]
      exact (jobsOf_eq_nil hline).symm
    · exact h.ordered other hold
  case told =>
    intro record hrecord hrefused hother
    rcases hlive _ hother with heq | hold
    · exact absurd heq (hhandled record hrecord)
    · exact h.told record hrecord hrefused hold
  case batches =>
    intro request hrequest ticket commands heq
    refine (h.batches request hrequest ticket commands heq).imp_right fun hgone command hcommand hother => ?_
    rcases hlive _ hother with hsame | hold
    · refine absurd hsame (hline (command.1, .Queued command.2) ?_)
      simp only [System.line, waiting, List.mem_append, List.mem_flatMap]
      refine .inr (.inl (.inl ⟨request, hrequest, ?_⟩))
      rw [heq]
      exact List.mem_map_of_mem hcommand
    · exact hgone command hcommand hold
  case apart =>
    intro other hother
    rcases hlive other hother with rfl | hold
    · exact fun hpeer => hfresh.unknown (.inr (.inl hpeer))
    · exact h.apart other hold
  case names =>
    intro other hother
    rcases hknown other hother with rfl | hold
    · exact hfresh.next
    · exact h.names other hold
  case newborn =>
    intro ticket other hreply
    have hnew := h.newborn ticket other hreply
    refine ⟨hnew.1, fun hother => ?_, hnew.2.2⟩
    rcases hknown other hother with rfl | hold
    · exact hfresh.unread ticket hreply
    · exact hnew.2.1 hold
  case asynchronous =>
    intro other hother
    rw [show (s.withContexts (entered s.contexts id lease api)).contexts.live = insert id s.contexts.live from rfl]
    simp only [System.withContexts, entered] at hother
    split at hother
    · exact Finset.insert_subset_insert id h.asynchronous hother
    · exact Finset.mem_insert_of_mem (h.asynchronous hother)
  case barrier =>
    intro before job operation after heq other hother
    rcases hlive other hother with rfl | hold
    · refine ⟨[], [], [], ?_, by simp, ?_, by simp⟩
      · rw [List.nil_append, List.filter_eq_nil_iff]
        exact fun record hrecord => by simpa using hhandled record hrecord
      · refine jobsOf_eq_nil fun entry hentry => hissued entry ?_
        rw [show s.issued = _ from heq]
        exact List.mem_append_left _ hentry
    · exact h.barrier before job operation after heq other hold

/-! ## Commands that are queued -/

theorem Sound.push {entry : Entry} {pending : Pending} (h : Sound m s) (hid : id ∈ s.contexts.live)
    (hcommands : pending.commands = s.contexts.pending.commands ++ [(id, entry)])
    (hcounted : pending.upload_bytes = Pending.weight pending.commands) (hlimited : Pending.Limited pending.commands)
    (sync_replies : Cache) : Sound m { (s.withReplies sync_replies).withPending pending with
      issued := s.issued ++ [(id, .Queued entry)] } := by
  have hline : line { (s.withReplies sync_replies).withPending pending with
      issued := s.issued ++ [(id, .Queued entry)] } m.hand = s.line m.hand ++ [(id, .Queued entry)] := by
    simp [line, waiting, System.withReplies, System.withPending, System.withContexts, hcommands, Operation.jobs, requests]
  have hknown : ∀ other, Known { (s.withReplies sync_replies).withPending pending with
      issued := s.issued ++ [(id, .Queued entry)] } m.hand other → s.Known m.hand other := by
    intro other hother
    rw [Known, hline] at hother
    rcases hother with hlive | hpeer | ⟨job, hjob, rfl⟩
    · exact .inl hlive
    · exact .inr (.inl hpeer)
    · by_cases hnew : job = (id, .Queued entry)
      · exact .inl (hnew ▸ hid)
      · refine .inr (.inr ⟨job, ?_, rfl⟩)
        simp only [List.mem_append, List.mem_singleton] at hjob ⊢
        tauto
  refine { h with
    ordered := ?ordered, names := ?names, newborn := ?newborn, counted := ?counted, queue := ?queue,
    barrier := ?barrier }
  case ordered =>
    intro other hother
    rw [hline, jobsOf_append, jobsOf_append, h.ordered other hother]
  case names => exact fun other hother => h.names other (hknown other hother)
  case newborn =>
    intro ticket other hreply
    have hnew := h.newborn ticket other hreply
    exact ⟨hnew.1, fun hother => hnew.2.1 (hknown other hother), hnew.2.2⟩
  case counted => exact hcounted
  case queue => exact hlimited
  case barrier =>
    intro before job operation after heq other hother
    rcases List.eq_nil_or_concat after with rfl | ⟨rest, last, rfl⟩
    · have hlast := (List.append_inj' heq rfl).2
      simp at hlast
    · rw [List.concat_eq_append, ← List.cons_append, ← List.append_assoc] at heq
      exact h.barrier before job operation rest (List.append_inj' heq rfl).1 other hother

theorem Idle.leased (h : Idle s) (lease : Nat) : Idle { s with held := insert lease s.held } :=
  ⟨h.sound.alike ⟨rfl, rfl, rfl, rfl, rfl, rfl, rfl, rfl, rfl⟩, h.inflight, h.queue⟩

theorem Idle.withProfiling (h : Idle s) (enabled : Bool) :
    Idle (s.withContexts { s.contexts with profiling := enabled }) :=
  ⟨h.sound.withContexts _ rfl rfl rfl, h.inflight, h.queue⟩

theorem Idle.request (h : Idle s) (operation : Operation) (hasked : ∀ commands, operation ≠ .Batch commands)
    (hids : ∀ job ∈ operation.jobs, job.1 ∈ s.contexts.live) : Idle (s.request native operation).2 := by
  obtain ⟨reply, t, heq, ht, -⟩ := h.request_cases native operation hasked hids
  rw [heq]
  exact ht

theorem Resting.reap_pending (h : Resting s) : Resting (s.reap_pending native false) := by
  have hreap := h.sound.reap_poll native
  exact ⟨hreap.1, hreap.2.queue.length_le.trans_lt h.room⟩

theorem Sound.resting_submit (h : Sound s.contexts.rest s) : Resting (s.submit_pending native) where
  sound := (h.submit_pending native).1
  room := by
    rw [(h.submit_pending native).2.2]
    decide

theorem Resting.enqueue {entry : Entry} {pending : Pending} (h : Resting s) (hid : id ∈ s.contexts.live)
    (hcommands : pending.commands = s.contexts.pending.commands ++ [(id, entry)])
    (hbytes : pending.upload_bytes = s.contexts.pending.upload_bytes + entry.weight)
    (hfits : pending.upload_bytes ≤ Pending.MAX_PENDING_BYTES) : Resting (s.enqueue native id entry pending) := by
  have hcounted : pending.upload_bytes = Pending.weight pending.commands := by
    rw [hbytes, h.sound.counted, hcommands]
    simp [Pending.weight]
  have hlength : pending.commands.length = s.contexts.pending.commands.length + 1 := by simp [hcommands]
  have hroom := h.room
  have hlimited : Pending.Limited pending.commands := ⟨by omega, hcounted ▸ hfits⟩
  have hpush := h.sound.push hid hcommands hcounted hlimited (s.contexts.sync_replies.remove id)
  rw [System.enqueue]
  split
  · exact Sound.resting_submit native hpush
  · next hfull =>
    have hne : pending.commands.length ≠ Pending.MAX_COMMANDS := fun heq => hfull (decide_eq_true heq)
    exact ⟨hpush, lt_of_le_of_ne hlimited.1 hne⟩

theorem Resting.fits (h : Resting s) : s.contexts.pending.upload_bytes ≤ Pending.MAX_PENDING_BYTES := by
  rw [h.sound.counted]
  exact h.sound.queue.2

theorem Resting.remove (h : Resting s) (id : Nat) : Resting (s.remove native id) := by
  have hremoved := h.sound.remove native id
  refine ⟨?_, hremoved.2.1.queue.length_le.trans_lt h.room⟩
  rw [Contexts.rest, hremoved.2.1.inflight]
  exact hremoved.1

/-- Without contexts nothing is under way. -/
theorem Sound.deserted (h : Sound m s) (hnone : s.contexts.live = ∅) : Sound ⟨[], m.flight, ∅⟩ s :=
  h.clean (fun _ _ hlive => absurd (hnone ▸ hlive) (Finset.notMem_empty _))
    fun _ _ hlive => absurd (hnone ▸ hlive) (Finset.notMem_empty _)

/-- What a clear does to the contexts. -/
def emptied (s : System G F) : System G F :=
  if s.contexts.live = ∅ then s
  else
    let s := s.retire native (s.contexts.live.sort (· ≤ ·))
    (s.withContexts { s.contexts with live := ∅, leases := .empty, asynchronous := ∅ }).release native
      (s.contexts.leases.entries.map Prod.snd)

theorem Sound.emptied {hand : List (Nat × Entry)} {suspects : Finset Nat} (h : Sound ⟨hand, none, suspects⟩ s)
    (hinflight : s.contexts.inflight = none) (hqueue : s.contexts.pending.commands = []) :
    Idle (s.emptied native) := by
  rw [System.emptied]
  split
  · next hnone => exact ⟨h.deserted hnone, hinflight, hqueue⟩
  have hretired := h.retire native (s.contexts.live.sort (· ≤ ·))
  have hcontexts := contexts_retire native s (s.contexts.live.sort (· ≤ ·))
  simp only []
  generalize s.retire native (s.contexts.live.sort (· ≤ ·)) = u at hretired hcontexts ⊢
  have hgone : Sound ⟨hand, none, suspects⟩
      (u.withContexts { u.contexts with live := ∅, leases := .empty, asynchronous := ∅ }) := by
    refine hretired.lapse ⟨rfl, rfl, rfl, rfl, rfl, rfl, rfl, rfl, Finset.empty_subset _, Finset.empty_subset _,
      ?_, ?_, ?_⟩
    · exact List.Sublist.refl _
    · exact fun _ _ => rfl
    · exact hretired.counted
  refine Idle.release native ⟨hgone.deserted rfl, ?_, ?_⟩ _
  · exact (congrArg Contexts.inflight hcontexts).trans hinflight
  · exact (congrArg (fun contexts => contexts.pending.commands) hcontexts).trans hqueue

theorem Resting.clear (h : Resting s) : Resting (s.clear native) := by
  have htake : Sound ⟨s.contexts.pending.commands, s.contexts.inflight, ∅⟩ (s.withPending .default) := h.sound.take
  rw [System.clear]
  cases hflight : s.contexts.inflight with
  | none =>
    rw [hflight] at htake
    have hreplies : Sound _ ((s.withPending .default).withReplies .default) := htake.withContexts _ rfl rfl rfl
    exact (hreplies.emptied native hflight rfl).resting
  | some flight =>
    rw [hflight] at htake
    have hgone : Sound _ ((s.withPending .default).withInflight none) := htake.withContexts _ rfl rfl rfl
    obtain ⟨t, ht, hbeside, habandon⟩ :=
      abandon_cases native (fun _ h => Sound.pause native h) (hgone.answered none (by simp)) flight.reply
    have hreplies : Sound _ ((t.close flight.reply).withReplies .default) :=
      (ht.close flight.reply (by simp)).withContexts _ rfl rfl rfl
    simp only [habandon]
    refine (hreplies.emptied native ?_ ?_).resting
    · exact congrArg Contexts.inflight hbeside.contexts
    · exact congrArg (fun contexts => contexts.pending.commands) hbeside.contexts

/-! ## Methods that look at a context -/

/-- What looking at a context leaves behind. -/
def observe (s : System G F) (id : Nat) (operation : Operation) : System G F :=
  let s := s.flush_pending native
  if id ∉ s.contexts.live then s else (s.request native operation).2

theorem observe_paint_fallback (s : System G F) (id : Nat) :
    (s.paint_fallback native id).2 = s.observe native id (.PaintFallback id) := by
  rw [System.paint_fallback, observe]
  by_cases hlive : id ∈ (s.flush_pending native).contexts.live
  · simp only [hlive, not_true, if_false]
    split <;> next hmatch => rw [hmatch]
  · simp only [hlive, not_false_eq_true, if_true]

theorem observe_gpu_frame (s : System G F) (id : Nat) :
    (s.gpu_frame native id).2 = s.observe native id (.GpuFrame id) := by
  rw [System.gpu_frame, observe]
  by_cases hlive : id ∈ (s.flush_pending native).contexts.live
  · simp only [hlive, not_true, if_false]
    split <;> next hmatch => rw [hmatch]
  · simp only [hlive, not_false_eq_true, if_true]

theorem observe_snapshot (s : System G F) (id : Nat) (straight_alpha : Bool) :
    (s.snapshot native id straight_alpha).2 = s.observe native id (.Snapshot id straight_alpha) := by
  rw [System.snapshot, observe]
  by_cases hlive : id ∈ (s.flush_pending native).contexts.live
  · simp only [hlive, not_true, if_false]
    split <;> next hmatch => rw [hmatch]
  · simp only [hlive, not_false_eq_true, if_true]

theorem Resting.observe (h : Resting s) (hasked : ∀ commands, operation ≠ .Batch commands)
    (hjobs : operation.jobs = [(id, .Asked operation)]) : Resting (s.observe native id operation) := by
  have hidle := (h.idle_flush native).1
  rw [System.observe]
  split
  · exact hidle.resting
  next hlive =>
  exact (hidle.request native operation hasked (by simpa [hjobs] using hlive)).resting

theorem Resting.set_profiling (h : Resting s) (enabled : Bool) : Resting (s.set_profiling native enabled) := by
  have hidle := (h.idle_flush native).1
  rw [System.set_profiling]
  generalize s.flush_pending native = t at hidle ⊢
  split
  · exact h
  simp only []
  have hprofiling := hidle.withProfiling enabled
  generalize t.withContexts { t.contexts with profiling := enabled } = t at hprofiling ⊢
  split
  · exact hprofiling.resting
  have hrequest := hprofiling.request native (.Profiling (t.contexts.live.sort (· ≤ ·)) enabled)
    (by simp) (by simp [Operation.jobs])
  split
  · next hmatch => rw [hmatch] at hrequest; exact hrequest.resting
  · next hmatch => rw [hmatch] at hrequest; exact (hrequest.foldl_remove native _).resting

theorem Resting.resource_diagnostics (h : Resting s) : Resting (s.resource_diagnostics native).2 := by
  have hidle := (h.idle_flush native).1
  rw [System.resource_diagnostics]
  generalize s.flush_pending native = t at hidle ⊢
  split
  · exact h
  simp only []
  have hrequest := hidle.request native (.ResourceDiagnostics (t.contexts.live.sort (· ≤ ·)))
    (by simp) (by simp [Operation.jobs])
  split <;> next hmatch => rw [hmatch] at hrequest; exact hrequest.resting

theorem Resting.complete_task (h : Resting s) : Resting (s.complete_task native) := by
  have hidle := (h.idle_flush native).1.withReplies .default
  rw [System.complete_task]
  generalize (s.flush_pending native).withReplies .default = t at hidle ⊢
  simp only []
  split
  · exact hidle.resting
  have hrequest := hidle.request native (.TaskBoundary (t.contexts.asynchronous.sort (· ≤ ·)))
    (by simp) (by simpa [Operation.jobs] using fun id hid => hidle.sound.asynchronous hid)
  split <;> next hmatch => rw [hmatch] at hrequest; exact (hrequest.foldl_remove native _).resting

theorem Resting.create (h : Resting s) (width height : Nat) (options : Str) :
    Resting (s.create native width height options).2 := by
  have hidle := (h.idle_flush native).1
  rw [System.create]
  generalize s.flush_pending native = t at hidle ⊢
  split
  · exact hidle.resting
  split
  · exact hidle.resting
  simp only [System.lease]
  obtain ⟨reply, u, heq, hu, hfresh⟩ := (hidle.leased t.tickets).request_cases native
    (.Create width height options (some t.tickets) t.contexts.profiling) (by simp) (by simp [Operation.jobs])
  rw [heq]
  split
  · next hmatch =>
    cases hmatch
    exact (Idle.mk (hu.sound.enter (hfresh _ rfl)) hu.inflight hu.queue).resting
  · next hmatch =>
    cases hmatch
    exact (hu.release native _).resting

theorem Idle.ask (h : Idle s) (hid : id ∈ s.contexts.live) (command serialized : Str) (bytes : Option (List UInt8)) :
    Idle (s.ask native id command serialized bytes).2 := by
  have hrequest := h.request native (.Command id serialized bytes) (by simp)
    (by simpa [Operation.jobs] using hid)
  rw [System.ask]
  split <;> next hmatch => rw [hmatch] at hrequest; exact hrequest.withReplies _

theorem Resting.execute_now (h : Resting s) (id : Nat) (command : Str) (bytes : Option (List UInt8)) :
    Resting (s.execute_now native id command bytes).2 := by
  have hidle := (h.idle_flush native).1
  rw [System.execute_now]
  generalize s.flush_pending native = t at hidle ⊢
  split
  · exact hidle.resting
  next hlive =>
  have hid : id ∈ t.contexts.live := not_not.mp hlive
  split
  · exact (hidle.ask native hid _ _ _).resting
  split
  · exact hidle.resting
  · exact (hidle.ask native hid _ _ _).resting

theorem Resting.execute_numeric (h : Resting s) (id : Nat) (command : NumericCommand) :
    Resting (s.execute_numeric native id command).2 := by
  have hreap := h.reap_pending native
  rw [System.execute_numeric]
  generalize s.reap_pending native false = t at hreap ⊢
  simp only []
  split
  · exact hreap
  next hlive =>
  exact hreap.enqueue native (not_not.mp hlive) rfl rfl hreap.fits

theorem Resting.execute_upload (h : Resting s) (id : Nat) (command : Str) (payload : List UInt8)
    (hsmall : payload.length ≤ Pending.MAX_QUEUED_UPLOAD) : Resting (s.execute_upload native id command payload).2 := by
  obtain ⟨t, ht, hrest, hfits⟩ : ∃ t,
      (if s.contexts.pending.upload_fits payload.length = true then s else s.submit_pending native) = t ∧ Resting t ∧
        t.contexts.pending.upload_bytes + payload.length ≤ Pending.MAX_PENDING_BYTES := by
    split
    · next hfits =>
      refine ⟨s, rfl, h, ?_⟩
      rw [Pending.upload_fits, Option.any_eq_true] at hfits
      obtain ⟨total, htotal, hle⟩ := hfits
      rw [(checkedAdd_eq_some.mp htotal).1]
      exact of_decide_eq_true hle
    · have hsubmit := h.sound.submit_pending native
      refine ⟨_, rfl, h.sound.resting_submit native, ?_⟩
      have hnone : Pending.weight [] = 0 := rfl
      rw [hsubmit.1.counted, hsubmit.2.2, hnone, Nat.zero_add]
      exact hsmall.trans (by decide)
  rw [System.execute_upload]
  simp only [ht]
  split
  · exact hrest
  next hlive =>
  exact hrest.enqueue native (not_not.mp hlive) rfl rfl hfits

theorem Resting.execute_data (h : Resting s) (id : Nat) (command : Str) (bytes : Option (List UInt8)) :
    Resting (s.execute_data native id command bytes).2 := by
  have hreap := h.reap_pending native
  unfold System.execute_data
  generalize s.reap_pending native false = t at hreap ⊢
  simp only []
  split
  · exact hreap
  next hlive =>
  cases bytes with
  | some payload =>
    simp only []
    split
    · next hcandidate =>
      rw [Pending.upload_candidate, Bool.and_eq_true, Bool.and_eq_true] at hcandidate
      exact hreap.execute_upload native id command payload (of_decide_eq_true hcandidate.1.1)
    · exact hreap.execute_now native id command _
  | none =>
    simp only []
    split
    · exact hreap.enqueue native (not_not.mp hlive) rfl rfl hreap.fits
    · exact hreap.execute_now native id command _

theorem Resting.read_pixels (h : Resting s) (id : Nat) (command : Str) (bytes : Option (List UInt8)) :
    Resting (s.read_pixels native id command bytes).2 := by
  have hidle := (h.idle_flush native).1
  rw [System.read_pixels]
  generalize s.flush_pending native = t at hidle ⊢
  split
  · exact hidle.resting
  next hlive =>
  split
  · exact hidle.resting.execute_data native id pixelError none
  have hrequest := hidle.request native (.Pixels id command bytes) (by simp)
    (by simpa [Operation.jobs] using hlive)
  split
  · next hmatch => rw [hmatch] at hrequest; exact (hrequest.withReplies _).resting
  · next hmatch => rw [hmatch] at hrequest; exact hrequest.resting
  · next hmatch => rw [hmatch] at hrequest; exact (hrequest.withReplies _).resting

/-- Every call keeps the order. -/
theorem Resting.run (h : Resting s) (call : Call) : Resting (s.run native call).2 := by
  cases call with
  | create width height options => exact h.create native width height options
  | remove id => exact h.remove native id
  | clear => exact h.clear native
  | complete_task => exact h.complete_task native
  | execute id command bytes => exact h.execute_data native id command bytes
  | execute_numeric id command => exact h.execute_numeric native id command
  | read_pixels id command bytes => exact h.read_pixels native id command bytes
  | snapshot id straight_alpha =>
    rw [System.run, observe_snapshot]
    exact h.observe native (by simp) rfl
  | gpu_frame id =>
    rw [System.run, observe_gpu_frame]
    exact h.observe native (by simp) rfl
  | paint_fallback id =>
    rw [System.run, observe_paint_fallback]
    exact h.observe native (by simp) rfl
  | set_profiling enabled => exact h.set_profiling native enabled
  | resource_diagnostics => exact h.resource_diagnostics native

/-! ## Runs -/

theorem resting_new (schedule : List Slice) : Resting (System.new schedule : System G F) where
  sound := by
    constructor <;> simp [System.new, Contexts.default, Contexts.rest, requests, ticketLine, Known, line, waiting,
      Owner.default, BackendContexts.default, Pending.default, Operation.jobs, Pending.weight, Pending.Limited]
  room := show 0 < 128 by decide

/-- The realm after its calls. -/
def after (schedule : List Slice) (calls : List Call) : System G F :=
  calls.foldl (fun s call => (s.run native call).2) (.new schedule)

theorem resting_after (schedule : List Slice) (calls : List Call) : Resting (after native schedule calls) := by
  have hrun : ∀ (calls : List Call) (s : System G F), Resting s →
      Resting (calls.foldl (fun s call => (s.run native call).2) s) := by
    intro calls
    induction calls with
    | nil => exact fun s h => h
    | cons call calls ih => exact fun s h => ih _ (h.run native call)
  exact hrun calls _ (resting_new schedule)

/-- Between two calls, every job of a context in use is done, with the owner, in the mailbox or in the queue: none is
lost, none is there twice and none has overtaken another. -/
theorem jobs_in_order (schedule : List Slice) (calls : List Call) {id : Nat}
    (h : id ∈ (after native schedule calls).contexts.live) :
    jobsOf id (after native schedule calls).issued =
      jobsOf id ((after native schedule calls).owner.backend.handled.map Handled.entry) ++
        jobsOf id ((after native schedule calls).requests.flatMap fun request => request.operation.jobs) ++
        jobsOf id (Operation.Batch (after native schedule calls).contexts.pending.commands).jobs := by
  have hnone : (Operation.Batch []).jobs = [] := rfl
  rw [(resting_after native schedule calls).sound.ordered id h, line, waiting, Contexts.rest, hnone, List.append_nil,
    jobsOf_append, jobsOf_append, List.append_assoc]

/-- A driver that takes everything. -/
def obliging : Native Unit Unit where
  fromStr := fun _ => none
  api := fun _ => some .Two
  create := fun _ _ _ _ => some ()
  version := fun _ => .Two
  resource_bytes := fun _ => 0
  limit := fun context _ => context
  make_current := fun context => (true, context)
  dispatch_data := fun context _ _ => (.ok .Null, context)
  progress_program_links := fun context => (.ok (), context)
  progress_compilers := fun context => context
  error := fun context _ => context
  poisoned := fun _ => false
  read_pixels_data := fun context _ _ => (.ok [], context)
  snapshot := fun context _ => (none, context)
  poll_gpu_frame := fun context => (.ok (), context)
  last_gpu_bitmap := fun _ => none
  complete_gpu_task := fun context => (.ok (), context)
  enable_profile := fun context _ => context
  diagnostics := fun context _ => ([], context)

/-- The owner carries out every request at once. -/
def prompt : List Slice :=
  [⟨[], false⟩, ⟨[.receive, .execute true], false⟩, ⟨[], false⟩, ⟨[.receive, .execute true], false⟩, ⟨[], false⟩,
    ⟨[.receive, .execute true], false⟩]

/-- A context is created, cleared and looked at. -/
def visit : List Call :=
  [.create 1 1 [], .execute_numeric 1 ⟨"clear".toList, [16384], [], by decide⟩, .snapshot 1 false]

theorem jobs_in_order_visit : jobsOf 1 (after obliging prompt visit).issued =
    jobsOf 1 ((after obliging prompt visit).owner.backend.handled.map Handled.entry) ++
      jobsOf 1 ((after obliging prompt visit).requests.flatMap fun request => request.operation.jobs) ++
      jobsOf 1 (Operation.Batch (after obliging prompt visit).contexts.pending.commands).jobs :=
  jobs_in_order obliging prompt visit (by decide +kernel)

/-- A request of a context's own. -/
def asks : Nat × Job → Bool
  | (_, .Asked _) => true
  | (_, .Queued _) => false

/-- When anything is asked, every context in use has got every command that was queued before. -/
theorem commands_before_questions (schedule : List Slice) (calls : List Call) {n id : Nat}
    (hasks : (after native schedule calls).issued[n]?.any asks = true)
    (hid : id ∈ (after native schedule calls).contexts.live) :
    (after native schedule calls).Settled id ((after native schedule calls).issued.take n) := by
  obtain ⟨⟨context, job⟩, hjob, hasked⟩ := Option.any_eq_true _ _ |>.mp hasks
  obtain ⟨hn, hget⟩ := List.getElem?_eq_some_iff.mp hjob
  have hsplit : (after native schedule calls).issued = (after native schedule calls).issued.take n ++
      (context, job) :: (after native schedule calls).issued.drop (n + 1) := by
    rw [← hget, ← List.drop_eq_getElem_cons hn, List.take_append_drop]
  cases job with
  | Queued entry => simp [asks] at hasked
  | Asked operation => exact (resting_after native schedule calls).sound.barrier _ context operation _ hsplit id hid

theorem commands_before_questions_visit :
    (after obliging prompt visit).Settled 1 ((after obliging prompt visit).issued.take 1) :=
  commands_before_questions obliging prompt visit (by decide +kernel) (by decide +kernel)

/-- The queue and every batch of the realm have their limits, and the bytes of the queue are counted exactly. -/
theorem queue_stays_bounded (schedule : List Slice) (calls : List Call) :
    (after native schedule calls).contexts.pending.commands.length < Pending.MAX_COMMANDS ∧
      (after native schedule calls).contexts.pending.upload_bytes =
        Pending.weight (after native schedule calls).contexts.pending.commands ∧
      (after native schedule calls).contexts.pending.upload_bytes ≤ Pending.MAX_PENDING_BYTES ∧
      ∀ request ∈ (after native schedule calls).requests, ∀ ticket commands,
        request = ⟨some ticket, .Batch commands⟩ → Pending.Limited commands :=
  have hrest := resting_after native schedule calls
  ⟨hrest.room, hrest.sound.counted, hrest.fits, hrest.sound.small⟩

end System

end BetterWebBrowser.Webgl.Session
