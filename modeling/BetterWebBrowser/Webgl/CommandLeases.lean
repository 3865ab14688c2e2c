import BetterWebBrowser.Webgl.CommandCalls

/-!
# Leases of native contexts

The owner keeps a native context as long as somebody holds its lease, and a realm holds the leases
of the contexts that it uses and of no other.
-/

namespace BetterWebBrowser.Webgl.Session

open Framework Framework.Str
open IndexedDb (Json)

/-! ## The owner's leases -/

namespace Owner

variable {G F : Type} (native : Native G F) {owner after : Owner G} {held : Finset Nat} {operation : Operation}
  {id lease : Nat}

/-- A native context under the lease of a realm. -/
def Owns (owner : Owner G) (id lease : Nat) : Prop :=
  owner.backend.contexts.contains id = true ∧ owner.leases.get id = some (some lease)

/-- Every native context has its lease. -/
def Named (owner : Owner G) : Prop :=
  ∀ id, owner.backend.contexts.contains id = true → ∃ lease, owner.leases.get id = some lease

/-- The lease that a request brings. -/
def Brings (operation : Operation) (lease : Nat) : Prop :=
  ∃ width height options profiling, operation = .Create width height options (some lease) profiling

theorem Unchanged.named (h : Unchanged owner after) (hnamed : owner.Named) : after.Named := by
  intro id hid
  have hbefore := h.contexts id hid
  rw [hbefore.2]
  exact hnamed id hbefore.1

theorem Unchanged.owns (h : Unchanged owner after) (howns : after.Owns id lease) : owner.Owns id lease := by
  have hbefore := h.contexts id howns.1
  exact ⟨hbefore.1, hbefore.2 ▸ howns.2⟩

theorem Grows.named (h : Grows held owner operation after) (hnamed : owner.Named) : after.Named := by
  obtain ⟨width, height, options, lease, profiling, -, -, hleases⟩ := h.created
  intro id hid
  rw [hleases, OrdMap.get_insert]
  split
  · exact ⟨lease, rfl⟩
  · next hne => exact hnamed id ((h.contexts id hid).resolve_left hne)

theorem Grows.owns (h : Grows held owner operation after) (howns : after.Owns id lease) :
    owner.Owns id lease ∨ id = owner.backend.next + 1 ∧ Brings operation lease := by
  obtain ⟨width, height, options, brought, profiling, hoperation, -, hleases⟩ := h.created
  have hget := howns.2
  rw [hleases, OrdMap.get_insert] at hget
  split at hget
  · next heq =>
    refine .inr ⟨heq, width, height, options, profiling, ?_⟩
    rw [hoperation, Option.some.inj hget]
  · next hne => exact .inl ⟨(h.contexts id howns.1).resolve_left hne, hget⟩

/-- What carrying a request out does to the leases. -/
structure Leases (owner : Owner G) (operation : Operation) (reply : Reply F) (after : Owner G) : Prop where
  named : after.Named
  owns : ∀ id lease, after.Owns id lease → owner.Owns id lease ∨ id = owner.backend.next + 1 ∧ Brings operation lease
  created : ∀ id, reply = .Created (some id) → id = owner.backend.next + 1

theorem leases_perform (hnamed : owner.Named) (held : Finset Nat) (operation : Operation) :
    Leases owner operation (owner.perform native held operation).1 (owner.perform native held operation).2.2 := by
  cases performed native owner held operation with
  | unchanged h hreply =>
    exact ⟨h.named hnamed, fun id lease howns => .inl (h.owns howns), fun id heq => absurd heq (hreply id)⟩
  | grows h hreply =>
    refine ⟨h.named hnamed, fun id lease howns => h.owns howns, fun id heq => ?_⟩
    rw [hreply] at heq
    cases heq
    rfl

theorem Leases.unchanged {reply : Reply F} {later : Owner G} (h : Leases owner operation reply after)
    (hlater : Unchanged after later) : Leases owner operation reply later :=
  ⟨hlater.named h.named, fun id lease howns => h.owns id lease (hlater.owns howns), h.created⟩

/-- A context that the owner keeps has a lease that somebody holds. -/
theorem alive_of_retain {owner : Owner G} (hnamed : owner.Named) (held : Finset Nat) {id : Nat}
    (hid : (owner.retain held).backend.contexts.contains id = true) :
    ∃ lease, (owner.retain held).leases.get id = some lease ∧ alive held lease = true := by
  rw [retain, ← List.foldl_map] at hid ⊢
  have hunchanged := unchanged_foldl_remove
    ((owner.leases.entries.filter fun entry => !alive held entry.2).map Prod.fst) owner
  have hbefore := hunchanged.contexts id hid
  obtain ⟨lease, hlease⟩ := hnamed id hbefore.1
  refine ⟨lease, hbefore.2.trans hlease, ?_⟩
  by_contra hdead
  have hremoved : ∀ (ids : List Nat) (owner : Owner G), id ∈ ids →
      (ids.foldl remove owner).backend.contexts.contains id ≠ true := by
    intro ids
    induction ids with
    | nil => exact fun _ hmem => absurd hmem List.not_mem_nil
    | cons first ids ih =>
      intro owner hmem hcontains
      rcases List.mem_cons.mp hmem with rfl | hlater
      · have hgone := ((unchanged_foldl_remove ids (owner.remove id)).contexts id hcontains).1
        rw [remove, BackendContexts.remove, OrdMap.contains_erase] at hgone
        simp at hgone
      · exact ih (owner.remove first) hlater hcontains
  refine hremoved _ owner (List.mem_map.mpr ⟨(id, lease), List.mem_filter.mpr ⟨?_, ?_⟩, rfl⟩) hid
  · exact (OrdMap.mem_entries_iff_get _ _ _).mpr hlease
  · simpa using hdead

end Owner

namespace System

variable {G F : Type} (native : Native G F) {s s' : System G F} {spare : Finset Nat} {id lease : Nat} {operation : Operation}

/-- The realm holds the leases of its contexts and `spare` ones. A context's lease bears the number of the request
that created it. -/
structure Leased (spare : Finset Nat) (s : System G F) : Prop where
  named : s.owner.Named
  asked : ∀ request ∈ s.requests, ∀ lease, Owner.Brings request.operation lease → request.ticket = some lease
  recorded : ∀ id lease, s.owner.Owns id lease →
    lease < s.tickets ∧ ∀ request ∈ s.requests, request.ticket ≠ some lease
  answered : ∀ ticket id, (ticket, Reply.Created (some id)) ∈ s.replies →
    ∀ other, s.owner.Owns other ticket → other = id
  held : ∀ lease ∈ s.held, lease ∈ spare ∨ ∃ id ∈ s.contexts.live, s.contexts.leases.get id = some lease
  linked : ∀ id ∈ s.contexts.live, ∀ lease, s.contexts.leases.get id = some lease →
    (lease < s.tickets ∧ ∀ request ∈ s.requests, request.ticket ≠ some lease) ∧
      ∀ other, s.owner.Owns other lease → other = id
  tickets : s.ticketLine.Pairwise (· < ·)
  posted : ∀ ticket ∈ s.ticketLine, ticket < s.tickets
  few : s.contexts.live.card ≤ MAX_CONTEXTS

/-! ## Beside the realm -/

theorem Leased.served {request : Request} {reply : Reply F} (sent : List (Nat × Reply F)) (h : Leased spare s)
    (hserving : s.serving = some request) (howner : Owner.Leases s.owner request.operation reply s'.owner)
    (hbeside : Beside s s') (hrequests : s'.requests = s.mailbox.toList) (hreplies : s'.replies = s.replies ++ sent)
    (hsent : ∀ entry ∈ sent, entry.2 = reply) (haddressed : (sent.map Prod.fst).Sublist request.ticket.toList) :
    Leased spare s' := by
  have hall : s.requests = request :: s.mailbox.toList := by simp [System.requests, hserving]
  have hmem : request ∈ s.requests := by simp [hall]
  have hsub : ∀ other ∈ s'.requests, other ∈ s.requests := by
    rw [hrequests, hall]
    exact fun other hother => List.mem_cons_of_mem _ hother
  have hline := ticketLine_serving hserving
  have htickets := ticketLine_served hserving hrequests hreplies haddressed
  have hpairwise := List.pairwise_append.mp (hline ▸ h.tickets)
  -- The number of the lease is the ticket of the request.
  have hown : ∀ lease, Owner.Brings request.operation lease → request.ticket = some lease := h.asked request hmem
  have hnext : ∀ lease, request.ticket = some lease → ∀ other ∈ s'.requests, other.ticket ≠ some lease := by
    intro lease hticket other hother heq
    rw [hrequests] at hother
    have hlt := (List.pairwise_append.mp hpairwise.2.1).2.2 lease (by simp [hticket]) lease
      (List.mem_filterMap.mpr ⟨other, hother, heq⟩)
    exact absurd hlt (lt_irrefl _)
  constructor
  case named => exact howner.named
  case asked => exact fun other hother => h.asked other (hsub other hother)
  case recorded =>
    intro id lease howns
    rw [hbeside.tickets]
    rcases howner.owns id lease howns with hold | ⟨-, hbrings⟩
    · exact ⟨(h.recorded id lease hold).1, fun other hother => (h.recorded id lease hold).2 other (hsub other hother)⟩
    · refine ⟨h.posted lease ?_, hnext lease (hown lease hbrings)⟩
      rw [hline, hown lease hbrings]
      simp
  case answered =>
    intro ticket id hreply other howns
    rw [hreplies, List.mem_append] at hreply
    rcases hreply with hold | hnew
    · rcases howner.owns other ticket howns with hbefore | ⟨-, hbrings⟩
      · exact h.answered ticket id hold other hbefore
      · have hlt := hpairwise.2.2 ticket (List.mem_map_of_mem hold) ticket (by simp [hown ticket hbrings])
        exact absurd hlt (lt_irrefl _)
    · have hticket := haddressed.subset (List.mem_map_of_mem hnew)
      rw [Option.mem_toList] at hticket
      rcases howner.owns other ticket howns with hbefore | ⟨hother, -⟩
      · exact absurd hticket ((h.recorded other ticket hbefore).2 request hmem)
      · rw [hother, howner.created id (hsent _ hnew).symm]
  case held =>
    rw [hbeside.held, hbeside.contexts]
    exact h.held
  case linked =>
    rw [hbeside.contexts, hbeside.tickets]
    intro id hid lease hlease
    have hlinked := h.linked id hid lease hlease
    refine ⟨⟨hlinked.1.1, fun other hother => hlinked.1.2 other (hsub other hother)⟩, fun other howns => ?_⟩
    rcases howner.owns other lease howns with hbefore | ⟨-, hbrings⟩
    · exact hlinked.2 other hbefore
    · exact absurd (hown lease hbrings) (hlinked.1.2 request hmem)
  case tickets => exact h.tickets.sublist htickets
  case posted =>
    rw [hbeside.tickets]
    exact fun ticket hticket => h.posted ticket (htickets.subset hticket)
  case few =>
    rw [hbeside.contexts]
    exact h.few

/-- The owner may have given contexts up. -/
theorem Leased.beside (h : Leased spare s) (howner : Owner.Unchanged s.owner s'.owner) (hbeside : Beside s s')
    (hrequests : s'.requests = s.requests) (hreplies : s'.replies = s.replies) : Leased spare s' where
  named := howner.named h.named
  asked := by
    rw [hrequests]
    exact h.asked
  recorded := by
    rw [hrequests, hbeside.tickets]
    exact fun id lease howns => h.recorded id lease (howner.owns howns)
  answered := by
    rw [hreplies]
    exact fun ticket id hreply other howns => h.answered ticket id hreply other (howner.owns howns)
  held := by
    rw [hbeside.held, hbeside.contexts]
    exact h.held
  linked := by
    rw [hrequests, hbeside.tickets, hbeside.contexts]
    intro id hid lease hlease
    have hlinked := h.linked id hid lease hlease
    exact ⟨hlinked.1, fun other howns => hlinked.2 other (howner.owns howns)⟩
  tickets := by
    rw [ticketLine, hreplies, hrequests]
    exact h.tickets
  posted := by
    rw [ticketLine, hreplies, hrequests, hbeside.tickets]
    exact h.posted
  few := by
    rw [hbeside.contexts]
    exact h.few

theorem Leased.receive (h : Leased spare s) : Leased spare (s.receive native) := by
  have hswept := Owner.unchanged_sweep s.owner s.retired s.held
  rw [System.receive]
  split
  · exact h
  next hserving =>
  simp only []
  split
  · next request hmailbox =>
    exact h.beside hswept ⟨rfl, rfl, rfl, rfl, rfl⟩ (by simp [requests, hserving, hmailbox]) rfl
  · have hlater := Owner.unchanged_of_kept (BackendContexts.kept_progress_compilers native
      (s.owner.sweep s.retired s.held).backend)
    exact h.beside (hswept.trans hlater) ⟨rfl, rfl, rfl, rfl, rfl⟩ rfl rfl

theorem Leased.execute (h : Leased spare s) (heard : Bool) : Leased spare (s.execute native heard) := by
  rw [System.execute]
  split
  · exact h
  next request hserving =>
  have hleases := Owner.leases_perform native h.named s.held request.operation
  have hremoved := fun ids => hleases.unchanged (Owner.unchanged_foldl_remove ids _)
  simp only []
  split
  · next ticket hticket =>
    split
    · exact h.served [(ticket, (s.owner.perform native s.held request.operation).1)] hserving hleases
        ⟨rfl, rfl, rfl, rfl, rfl⟩ rfl rfl (by simp) (by simp [hticket])
    · exact h.served [] hserving (hremoved _) ⟨rfl, rfl, rfl, rfl, rfl⟩ rfl (List.append_nil _).symm (by simp)
        (List.nil_sublist _)
  · split
    · exact h.served [] hserving hleases ⟨rfl, rfl, rfl, rfl, rfl⟩ rfl (List.append_nil _).symm (by simp)
        (List.nil_sublist _)
    · exact h.served [] hserving (hremoved _) ⟨rfl, rfl, rfl, rfl, rfl⟩ rfl (List.append_nil _).symm (by simp)
        (List.nil_sublist _)

theorem Leased.peer (h : Leased spare s) {operation : Operation} (hroom : s.mailbox.isNone = true)
    (hforeign : System.foreign s.peers operation = true) : Leased spare { s with mailbox := some ⟨none, operation⟩ } := by
  have hnone : s.mailbox = none := Option.isNone_iff_eq_none.mp hroom
  have hrequests : requests { s with mailbox := some ⟨none, operation⟩ } = s.requests ++ [⟨none, operation⟩] := by
    simp [requests, hnone]
  have htickets : ticketLine { s with mailbox := some ⟨none, operation⟩ } = s.ticketLine := by
    simp [ticketLine, hrequests]
  have hunasked : ∀ lease, (∀ request ∈ s.requests, request.ticket ≠ some lease) →
      ∀ request ∈ requests { s with mailbox := some ⟨none, operation⟩ }, request.ticket ≠ some lease := by
    intro lease hold request hrequest
    rw [hrequests, List.mem_append, List.mem_singleton] at hrequest
    rcases hrequest with hmem | rfl
    · exact hold request hmem
    · exact Option.some_ne_none lease |>.symm
  refine { h with asked := ?asked, recorded := ?recorded, linked := ?linked, tickets := ?tickets, posted := ?posted }
  case asked =>
    intro request hrequest lease hbrings
    rw [hrequests, List.mem_append, List.mem_singleton] at hrequest
    rcases hrequest with hmem | rfl
    · exact h.asked request hmem lease hbrings
    · obtain ⟨width, height, options, profiling, rfl⟩ := hbrings
      simp [foreign] at hforeign
  case recorded =>
    intro id lease howns
    have hrecorded := h.recorded id lease howns
    exact ⟨hrecorded.1, hunasked lease hrecorded.2⟩
  case linked =>
    intro id hid lease hlease
    have hlinked := h.linked id hid lease hlease
    exact ⟨⟨hlinked.1.1, hunasked lease hlinked.1.2⟩, hlinked.2⟩
  case tickets => exact htickets ▸ h.tickets
  case posted => exact htickets ▸ h.posted

theorem Leased.turn (h : Leased spare s) (turn : Turn) : Leased spare (s.turn native turn) := by
  cases turn with
  | receive => exact h.receive native
  | execute heard => exact h.execute native heard
  | peer operation =>
    simp only [System.turn]
    split
    · next hcondition => exact h.peer hcondition.1 hcondition.2
    · exact h
  | retire id =>
    simp only [System.turn]
    split
    · exact h.beside (.refl _) ⟨rfl, rfl, rfl, rfl, rfl⟩ rfl rfl
    · exact h

theorem Leased.pause (h : Leased spare s) : Leased spare (s.pause native) :=
  pause_induction native (fun _ turn h => Leased.turn native h turn) (h.beside (.refl _) ⟨rfl, rfl, rfl, rfl, rfl⟩ rfl rfl)

/-! ## The realm's leases -/

theorem Leased.withContexts (h : Leased spare s) (contexts : Contexts) (hlive : contexts.live = s.contexts.live)
    (hleases : contexts.leases = s.contexts.leases) : Leased spare (s.withContexts contexts) where
  __ := h
  held := by
    intro lease hlease
    rw [show (s.withContexts contexts).contexts = contexts from rfl, hlive, hleases]
    exact h.held lease hlease
  linked := by
    rw [show (s.withContexts contexts).contexts = contexts from rfl, hlive, hleases]
    exact h.linked
  few := by
    rw [show (s.withContexts contexts).contexts = contexts from rfl, hlive]
    exact h.few

theorem Leased.close (h : Leased spare s) (ticket : Nat) : Leased spare (s.close ticket) where
  __ := h
  answered := fun other id hreply => h.answered other id (List.mem_filter.mp hreply).1
  tickets := h.tickets.sublist ((List.filter_sublist.map _).append (List.Sublist.refl _))
  posted := fun other hmem => h.posted other (((List.filter_sublist.map _).append (List.Sublist.refl _)).subset hmem)

theorem Leased.post (h : Leased spare s) (hroom : s.mailbox = none) {operation : Operation}
    (hbrings : ∀ lease, Owner.Brings operation lease → lease = s.tickets) (issued : List (Nat × Job)) :
    Leased spare { s.post operation with issued := issued } := by
  have hrequests : requests { s.post operation with issued := issued } = s.requests ++ [⟨some s.tickets, operation⟩] :=
    requests_post hroom operation
  have hunasked : ∀ lease, (lease < s.tickets ∧ ∀ request ∈ s.requests, request.ticket ≠ some lease) →
      lease < s.tickets + 1 ∧
        ∀ request ∈ requests { s.post operation with issued := issued }, request.ticket ≠ some lease := by
    intro lease hold
    refine ⟨hold.1.trans (Nat.lt_succ_self _), fun request hrequest heq => ?_⟩
    rw [hrequests, List.mem_append, List.mem_singleton] at hrequest
    rcases hrequest with hmem | rfl
    · exact hold.2 request hmem heq
    · exact absurd (Option.some.inj heq) hold.1.ne'
  refine { h with asked := ?asked, recorded := ?recorded, linked := ?linked, tickets := ?tickets, posted := ?posted }
  case asked =>
    intro request hrequest lease hbrought
    rw [hrequests, List.mem_append, List.mem_singleton] at hrequest
    rcases hrequest with hmem | rfl
    · exact h.asked request hmem lease hbrought
    · rw [hbrings lease hbrought]
  case recorded => exact fun id lease howns => hunasked lease (h.recorded id lease howns)
  case linked =>
    intro id hid lease hlease
    have hlinked := h.linked id hid lease hlease
    exact ⟨hunasked lease hlinked.1, hlinked.2⟩
  case tickets => exact (tickets_post h.tickets h.posted hroom operation).1
  case posted => exact (tickets_post h.tickets h.posted hroom operation).2

theorem mem_foldl_erase {leases : List Nat} {held : Finset Nat} :
    lease ∈ leases.foldl Finset.erase held ↔ lease ∈ held ∧ lease ∉ leases := by
  induction leases generalizing held with
  | nil => simp
  | cons first leases ih =>
    rw [List.foldl_cons, ih]
    simp only [Finset.mem_erase, List.mem_cons]
    tauto

theorem Leased.release {leases : List Nat} (h : Leased spare s) (hspare : ∀ lease ∈ spare, lease ∈ leases) :
    Leased ∅ (s.release native leases) := by
  have hpaused := h.pause native
  rw [System.release]
  generalize s.pause native = t at hpaused ⊢
  refine { hpaused with held := ?held }
  case held =>
    intro lease hlease
    have hkept := mem_foldl_erase.mp hlease
    exact .inr ((hpaused.held lease hkept.1).resolve_left fun hmem => hkept.2 (hspare lease hmem))

theorem Leased.retire (h : Leased spare s) (ids : List Nat) : Leased spare (s.retire native ids) :=
  (h.pause native).beside (.refl _) ⟨rfl, rfl, rfl, rfl, rfl⟩ rfl rfl

/-- The leases of contexts that go out of use are spare. -/
theorem Leased.forget (h : Leased ∅ s) (leases : List Nat) (contexts : Contexts)
    (hlive : contexts.live ⊆ s.contexts.live)
    (hkept : ∀ id ∈ contexts.live, contexts.leases.get id = s.contexts.leases.get id)
    (hgone : ∀ id ∈ s.contexts.live, ∀ lease, s.contexts.leases.get id = some lease → id ∉ contexts.live →
      lease ∈ leases) :
    Leased leases.toFinset (s.withContexts contexts) where
  __ := h
  held := by
    intro lease hlease
    obtain ⟨id, hused, hget⟩ := (h.held lease hlease).resolve_left (Finset.notMem_empty _)
    by_cases hid : id ∈ contexts.live
    · exact .inr ⟨id, hid, (hkept id hid).trans hget⟩
    · exact .inl (List.mem_toFinset.mpr (hgone id hused lease hget hid))
  linked := by
    intro id hid lease hlease
    exact h.linked id (hlive hid) lease ((hkept id hid).symm.trans hlease)
  few := (Finset.card_le_card hlive).trans h.few

theorem Leased.remove (h : Leased ∅ s) (id : Nat) : Leased ∅ (s.remove native id) := by
  rw [System.remove]
  have hqueue : Leased ∅ ((s.withPending (s.contexts.pending.remove id)).withReplies
      (s.contexts.sync_replies.remove id)) := h.withContexts _ rfl rfl
  split
  · have hgone := hqueue.forget (s.contexts.leases.get id).toList (System.forget _ id) (Finset.erase_subset id _)
      (fun other hother => OrdMap.get_erase_ne _ (Finset.ne_of_mem_erase hother))
      (fun other hother lease hlease hnot => ?_)
    · exact (hgone.release native fun lease hlease => List.mem_toFinset.mp hlease).retire native _
    · have hsame : other = id := by
        by_contra hne
        exact hnot (Finset.mem_erase.mpr ⟨hne, hother⟩)
      rw [hsame] at hlease
      exact Option.mem_toList.mpr hlease
  · exact hqueue

theorem Leased.foldl_remove (h : Leased ∅ s) (ids : List Nat) : Leased ∅ (ids.foldl (System.remove native) s) := by
  induction ids generalizing s with
  | nil => exact h
  | cons id ids ih => exact ih (h.remove native id)

theorem Leased.apply_batch_reply (h : Leased ∅ s) (reply : Option (Reply F)) (ids : Finset Nat) :
    Leased ∅ (s.apply_batch_reply native reply ids) := h.foldl_remove native _

theorem Leased.enter {api : ApiVersion} (h : Leased {lease} s) (hid : id ∉ s.contexts.live)
    (hunasked : lease < s.tickets ∧ ∀ request ∈ s.requests, request.ticket ≠ some lease)
    (howns : ∀ other, s.owner.Owns other lease → other = id) (hroom : s.contexts.live.card < MAX_CONTEXTS) :
    Leased ∅ (s.withContexts (entered s.contexts id lease api)) where
  __ := h
  held := by
    intro other hother
    right
    rcases h.held other hother with hspare | ⟨context, hcontext, hget⟩
    · rw [Finset.mem_singleton] at hspare
      exact ⟨id, Finset.mem_insert_self _ _, by rw [hspare]; exact OrdMap.get_insert_self _ _ _⟩
    · have hne : context ≠ id := fun heq => hid (heq ▸ hcontext)
      exact ⟨context, Finset.mem_insert_of_mem hcontext, (OrdMap.get_insert_ne _ _ hne).trans hget⟩
  linked := by
    intro context hcontext other hother
    rcases Finset.mem_insert.mp hcontext with rfl | hold
    · rw [show (s.withContexts (entered s.contexts context lease api)).contexts.leases.get context = some lease from
        OrdMap.get_insert_self _ _ _] at hother
      cases hother
      exact ⟨hunasked, howns⟩
    · have hne : context ≠ id := fun heq => hid (heq ▸ hold)
      exact h.linked context hold other ((OrdMap.get_insert_ne _ _ hne).symm.trans hother)
  few := (Finset.card_insert_le _ _).trans hroom

/-! ## Methods -/

theorem Leased.reap_pending (h : Leased ∅ s) (wait : Bool) : Leased ∅ (s.reap_pending native wait) := by
  rw [System.reap_pending]
  split
  · exact h
  next flight hflight =>
  have hgone : Leased ∅ (s.withInflight none) := h.withContexts _ rfl rfl
  split
  · obtain ⟨t, reply, ht, -, heq, -⟩ := wait_cases native (fun _ h => Leased.pause native h) hgone flight.reply
    rw [heq]
    exact (ht.close flight.reply).apply_batch_reply native _ _
  · obtain ⟨t, ht, -, heq | ⟨reply, heq, -⟩⟩ := poll_cases native (fun _ h => Leased.pause native h) h flight.reply
    · rw [heq]
      exact ht
    · rw [heq]
      have hdone : Leased ∅ (t.withInflight none) := ht.withContexts _ rfl rfl
      exact ((hdone.apply_batch_reply native reply flight.ids).pause native).close flight.reply

theorem Leased.submit_pending (h : Leased ∅ s) : Leased ∅ (s.submit_pending native) := by
  have hreap := h.reap_pending native true
  rw [System.submit_pending]
  generalize s.reap_pending native true = t at hreap ⊢
  have hqueue : Leased ∅ (t.withPending .default) := hreap.withContexts _ rfl rfl
  simp only []
  split
  · exact hqueue
  obtain ⟨u, hu, -, heq | ⟨hroom, heq⟩⟩ := submit_cases native (fun _ h => Leased.pause native h) hqueue
    (.Batch t.contexts.pending.commands)
  · rw [heq]
    exact hu.apply_batch_reply native _ _
  · rw [heq]
    have hpost : Leased ∅ (u.post (.Batch t.contexts.pending.commands)) :=
      hu.post hroom (by simp [Owner.Brings]) u.issued
    exact hpost.withContexts _ rfl rfl

theorem Leased.flush_pending (h : Leased ∅ s) : Leased ∅ (s.flush_pending native) :=
  (h.submit_pending native).reap_pending native true

theorem Leased.request_cases (h : Leased spare s) (operation : Operation)
    (hbrings : ∀ lease, Owner.Brings operation lease → lease = s.tickets) :
    ∃ reply t, s.request native operation = (reply, t) ∧ Leased spare t ∧ t.contexts = s.contexts ∧
      ∀ id, reply = some (.Created (some id)) →
        (s.tickets < t.tickets ∧ ∀ request ∈ t.requests, request.ticket ≠ some s.tickets) ∧
          ∀ other, t.owner.Owns other s.tickets → other = id := by
  obtain ⟨t, ht, hbeside, heq | ⟨hroom, heq⟩⟩ := submit_cases native (fun _ h => Leased.pause native h) h operation
  · exact ⟨none, t, by rw [System.request, heq], ht, hbeside.contexts, by simp⟩
  · have hpost := ht.post hroom (by rw [hbeside.tickets]; exact hbrings) (t.issued ++ operation.jobs)
    obtain ⟨u, reply, hu, hlater, hwait, hread⟩ := wait_cases native (fun _ h => Leased.pause native h) hpost t.tickets
    refine ⟨reply, u.close t.tickets, ?_, hu.close t.tickets, hlater.contexts.trans hbeside.contexts, ?_⟩
    · rw [System.request, heq]
      exact hwait
    · intro id hreply
      have hmem := mem_of_reply (hread _ hreply)
      rw [← hbeside.tickets]
      refine ⟨⟨?_, fun request hrequest hticket => ?_⟩, hu.answered t.tickets id hmem⟩
      · exact hu.posted _ (List.mem_append_left _ (List.mem_map_of_mem hmem))
      · have hlt := (List.pairwise_append.mp hu.tickets).2.2 t.tickets (List.mem_map_of_mem hmem) t.tickets
          (List.mem_filterMap.mpr ⟨request, hrequest, hticket⟩)
        exact absurd hlt (lt_irrefl _)

theorem Leased.request (h : Leased ∅ s) (operation : Operation) (hbrings : ∀ lease, ¬Owner.Brings operation lease) :
    Leased ∅ (s.request native operation).2 := by
  obtain ⟨reply, t, heq, ht, -⟩ := h.request_cases native operation fun lease hbrought => absurd hbrought (hbrings lease)
  rw [heq]
  exact ht

theorem Leased.enqueue (h : Leased ∅ s) (id : Nat) (entry : Entry) (pending : Pending) :
    Leased ∅ (s.enqueue native id entry pending) := by
  have hqueue : Leased ∅ ((s.withReplies (s.contexts.sync_replies.remove id)).withPending pending) :=
    h.withContexts _ rfl rfl
  have hissued : Leased ∅ { (s.withReplies (s.contexts.sync_replies.remove id)).withPending pending with
      issued := s.issued ++ [(id, .Queued entry)] } := ⟨hqueue.named, hqueue.asked, hqueue.recorded, hqueue.answered,
    hqueue.held, hqueue.linked, hqueue.tickets, hqueue.posted, hqueue.few⟩
  rw [System.enqueue]
  split
  · exact Leased.submit_pending native hissued
  · exact hissued

theorem Leased.observe (h : Leased ∅ s) (hbrings : ∀ lease, ¬Owner.Brings operation lease) :
    Leased ∅ (s.observe native id operation) := by
  have hflush := h.flush_pending native
  rw [System.observe]
  split
  · exact hflush
  · exact hflush.request native operation hbrings

theorem Leased.set_profiling (h : Leased ∅ s) (enabled : Bool) : Leased ∅ (s.set_profiling native enabled) := by
  have hflush := h.flush_pending native
  rw [System.set_profiling]
  generalize s.flush_pending native = t at hflush ⊢
  split
  · exact h
  have hprofiling : Leased ∅ (t.withContexts { t.contexts with profiling := enabled }) := hflush.withContexts _ rfl rfl
  simp only []
  generalize t.withContexts { t.contexts with profiling := enabled } = t at hprofiling ⊢
  split
  · exact hprofiling
  have hrequest := hprofiling.request native (.Profiling (t.contexts.live.sort (· ≤ ·)) enabled) (by simp [Owner.Brings])
  split
  · next hmatch => rw [hmatch] at hrequest; exact hrequest
  · next hmatch => rw [hmatch] at hrequest; exact hrequest.foldl_remove native _

theorem Leased.resource_diagnostics (h : Leased ∅ s) : Leased ∅ (s.resource_diagnostics native).2 := by
  have hflush := h.flush_pending native
  rw [System.resource_diagnostics]
  generalize s.flush_pending native = t at hflush ⊢
  split
  · exact h
  have hrequest := hflush.request native (.ResourceDiagnostics (t.contexts.live.sort (· ≤ ·))) (by simp [Owner.Brings])
  simp only []
  split <;> next hmatch => rw [hmatch] at hrequest; exact hrequest

theorem Leased.complete_task (h : Leased ∅ s) : Leased ∅ (s.complete_task native) := by
  have hflush : Leased ∅ ((s.flush_pending native).withReplies .default) :=
    (h.flush_pending native).withContexts _ rfl rfl
  rw [System.complete_task]
  generalize (s.flush_pending native).withReplies .default = t at hflush ⊢
  simp only []
  split
  · exact hflush
  have hrequest := hflush.request native (.TaskBoundary (t.contexts.asynchronous.sort (· ≤ ·))) (by simp [Owner.Brings])
  split <;> next hmatch => rw [hmatch] at hrequest; exact hrequest.foldl_remove native _

theorem Leased.create (h : Leased ∅ s) (hrest : Resting s) (width height : Nat) (options : Str) :
    Leased ∅ (s.create native width height options).2 := by
  have hflush := h.flush_pending native
  have hidle := (hrest.idle_flush native).1
  rw [System.create]
  generalize s.flush_pending native = t at hflush hidle ⊢
  split
  · exact hflush
  next hroom =>
  split
  · exact hflush
  simp only [System.lease]
  have hleased : Leased {t.tickets} { t with held := insert t.tickets t.held } := by
    refine ⟨hflush.named, hflush.asked, hflush.recorded, hflush.answered, ?_, hflush.linked, hflush.tickets,
      hflush.posted, hflush.few⟩
    intro lease hlease
    rcases Finset.mem_insert.mp hlease with rfl | hold
    · exact .inl (Finset.mem_singleton_self _)
    · exact .inr ((hflush.held lease hold).resolve_left (Finset.notMem_empty _))
  obtain ⟨reply, u, heq, hu, hcontexts, hcreated⟩ := hleased.request_cases native
    (.Create width height options (some t.tickets) t.contexts.profiling) (by
      rintro lease ⟨width, height, options, profiling, hcreate⟩
      cases hcreate
      rfl)
  obtain ⟨reply', u', heq', -, hfresh⟩ := (hidle.leased t.tickets).request_cases native
    (.Create width height options (some t.tickets) t.contexts.profiling) (by simp) (by simp [Operation.jobs])
  obtain ⟨rfl, rfl⟩ := Prod.mk.inj (heq.symm.trans heq')
  rw [heq]
  split
  · next hmatch =>
    cases hmatch
    have hnew := hcreated _ rfl
    refine hu.enter (fun hlive => (hfresh _ rfl).unknown (.inl hlive)) hnew.1 hnew.2 ?_
    rw [hcontexts]
    exact Nat.lt_of_not_le fun hfull => hroom (.inl hfull)
  · next hmatch =>
    cases hmatch
    exact hu.release native (by simp)

theorem Leased.clear (h : Leased ∅ s) : Leased ∅ (s.clear native) := by
  have hqueue : Leased ∅ (s.withPending .default) := h.withContexts _ rfl rfl
  have hempty : ∀ t : System G F, Leased ∅ t → Leased ∅ (t.emptied native) := by
    intro t ht
    rw [emptied]
    split
    · exact ht
    have hretired := ht.retire native (t.contexts.live.sort (· ≤ ·))
    simp only []
    generalize t.retire native (t.contexts.live.sort (· ≤ ·)) = u at hretired ⊢
    have hgone := hretired.forget (u.contexts.leases.entries.map Prod.snd)
      { u.contexts with live := ∅, leases := .empty, asynchronous := ∅ } (Finset.empty_subset _)
      (fun id hid => absurd hid (Finset.notMem_empty id))
      fun id _ lease hget _ => List.mem_map.mpr ⟨(id, lease), (OrdMap.mem_entries_iff_get _ _ _).mpr hget, rfl⟩
    exact hgone.release native fun lease hlease => List.mem_toFinset.mp hlease
  rw [System.clear]
  cases s.contexts.inflight with
  | none => exact hempty _ (hqueue.withContexts _ rfl rfl)
  | some flight =>
    have hgone : Leased ∅ ((s.withPending .default).withInflight none) := hqueue.withContexts _ rfl rfl
    exact hempty _ (((hgone.pause native).close flight.reply).withContexts _ rfl rfl)

theorem Leased.ask (h : Leased ∅ s) (id : Nat) (command serialized : Str) (bytes : Option (List UInt8)) :
    Leased ∅ (s.ask native id command serialized bytes).2 := by
  have hrequest := h.request native (.Command id serialized bytes) (by simp [Owner.Brings])
  rw [System.ask]
  split <;> next hmatch => rw [hmatch] at hrequest; exact hrequest.withContexts _ rfl rfl

theorem Leased.execute_now (h : Leased ∅ s) (id : Nat) (command : Str) (bytes : Option (List UInt8)) :
    Leased ∅ (s.execute_now native id command bytes).2 := by
  have hflush := h.flush_pending native
  rw [System.execute_now]
  generalize s.flush_pending native = t at hflush ⊢
  split
  · exact hflush
  split
  · exact hflush.ask native _ _ _ _
  split
  · exact hflush
  · exact hflush.ask native _ _ _ _

theorem Leased.execute_numeric (h : Leased ∅ s) (id : Nat) (command : NumericCommand) :
    Leased ∅ (s.execute_numeric native id command).2 := by
  have hreap := h.reap_pending native false
  rw [System.execute_numeric]
  split
  · exact hreap
  · exact hreap.enqueue native _ _ _

theorem Leased.execute_upload (h : Leased ∅ s) (id : Nat) (command : Str) (payload : List UInt8) :
    Leased ∅ (s.execute_upload native id command payload).2 := by
  have hroom : Leased ∅
      (if s.contexts.pending.upload_fits payload.length = true then s else s.submit_pending native) := by
    split
    · exact h
    · exact h.submit_pending native
  rw [System.execute_upload]
  generalize (if s.contexts.pending.upload_fits payload.length = true then s else s.submit_pending native) = t at hroom ⊢
  split
  · exact hroom
  · exact hroom.enqueue native _ _ _

theorem Leased.execute_data (h : Leased ∅ s) (id : Nat) (command : Str) (bytes : Option (List UInt8)) :
    Leased ∅ (s.execute_data native id command bytes).2 := by
  have hreap := h.reap_pending native false
  unfold System.execute_data
  generalize s.reap_pending native false = t at hreap ⊢
  simp only []
  split
  · exact hreap
  cases bytes with
  | some payload =>
    simp only []
    split
    · exact hreap.execute_upload native id command payload
    · exact hreap.execute_now native id command _
  | none =>
    simp only []
    split
    · exact hreap.enqueue native _ _ _
    · exact hreap.execute_now native id command _

theorem Leased.read_pixels (h : Leased ∅ s) (id : Nat) (command : Str) (bytes : Option (List UInt8)) :
    Leased ∅ (s.read_pixels native id command bytes).2 := by
  have hflush := h.flush_pending native
  rw [System.read_pixels]
  generalize s.flush_pending native = t at hflush ⊢
  split
  · exact hflush
  split
  · exact hflush.execute_data native id pixelError none
  have hrequest := hflush.request native (.Pixels id command bytes) (by simp [Owner.Brings])
  split
  · next hmatch => rw [hmatch] at hrequest; exact hrequest.withContexts _ rfl rfl
  · next hmatch => rw [hmatch] at hrequest; exact hrequest
  · next hmatch => rw [hmatch] at hrequest; exact hrequest.withContexts _ rfl rfl

theorem Leased.run (h : Leased ∅ s) (hrest : Resting s) (call : Call) : Leased ∅ (s.run native call).2 := by
  cases call with
  | create width height options => exact h.create native hrest width height options
  | remove id => exact h.remove native id
  | clear => exact h.clear native
  | complete_task => exact h.complete_task native
  | execute id command bytes => exact h.execute_data native id command bytes
  | execute_numeric id command => exact h.execute_numeric native id command
  | read_pixels id command bytes => exact h.read_pixels native id command bytes
  | snapshot id straight_alpha =>
    rw [System.run, observe_snapshot]
    exact h.observe native (by simp [Owner.Brings])
  | gpu_frame id =>
    rw [System.run, observe_gpu_frame]
    exact h.observe native (by simp [Owner.Brings])
  | paint_fallback id =>
    rw [System.run, observe_paint_fallback]
    exact h.observe native (by simp [Owner.Brings])
  | set_profiling enabled => exact h.set_profiling native enabled
  | resource_diagnostics => exact h.resource_diagnostics native

/-! ## Runs -/

theorem leased_new (schedule : List Slice) : Leased ∅ (System.new schedule : System G F) := by
  constructor <;> simp [System.new, Contexts.default, requests, ticketLine, Owner.Named, Owner.Owns, Owner.default,
    BackendContexts.default, OrdMap.contains]

theorem leased_after (schedule : List Slice) (calls : List Call) : Leased ∅ (after native schedule calls) := by
  have hrun : ∀ (calls : List Call) (s : System G F), Resting s → Leased ∅ s →
      Leased ∅ (calls.foldl (fun s call => (s.run native call).2) s) := by
    intro calls
    induction calls with
    | nil => exact fun s _ h => h
    | cons call calls ih => exact fun s hrest h => ih _ (hrest.run native call) (h.run native hrest call)
  exact hrun calls _ (resting_new schedule) (leased_new schedule)

/-- What the owner keeps is leased to a context in use, or it is another realm's. -/
theorem Leased.swept (h : Leased ∅ s) (hserving : s.serving = none)
    (hid : (s.receive native).owner.backend.contexts.contains id = true) :
    (s.receive native).owner.leases.get id = some none ∨ id ∈ s.contexts.live := by
  have hswept : (s.owner.sweep s.retired s.held).backend.contexts.contains id = true ∧
      (s.receive native).owner.leases = (s.owner.sweep s.retired s.held).leases := by
    rw [System.receive, hserving] at hid ⊢
    simp only [] at hid ⊢
    split at hid
    · exact ⟨hid, rfl⟩
    · exact ⟨(BackendContexts.kept_progress_compilers native _).contexts id hid, rfl⟩
  have hnamed := (Owner.unchanged_foldl_remove s.retired s.owner).named h.named
  obtain ⟨lease, hlease, halive⟩ := Owner.alive_of_retain hnamed s.held hswept.1
  cases lease with
  | none => exact .inl (hswept.2 ▸ hlease)
  | some lease =>
    right
    obtain ⟨context, hcontext, hget⟩ := (h.held lease (of_decide_eq_true halive)).resolve_left (Finset.notMem_empty _)
    have howns := (Owner.unchanged_sweep s.owner s.retired s.held).owns ⟨hswept.1, hlease⟩
    rw [(h.linked context hcontext lease hget).2 id howns]
    exact hcontext

/-- After any calls, when the owner looks into the mailbox next, the contexts that it keeps for the realm are in use,
and they are at most eight: a creation that was given up, a context that was lost or removed, and everything after a
clear leave nothing behind. -/
theorem nothing_left_behind (schedule : List Slice) (calls : List Call) {id : Nat}
    (hserving : (after native schedule calls).serving.isNone = true)
    (hid : ((after native schedule calls).receive native).owner.backend.contexts.contains id = true) :
    (((after native schedule calls).receive native).owner.leases.get id = some none ∨
      id ∈ (after native schedule calls).contexts.live) ∧
      (after native schedule calls).contexts.live.card ≤ MAX_CONTEXTS := by
  have hleased := leased_after native schedule calls
  exact ⟨hleased.swept native (Option.isNone_iff_eq_none.mp hserving) hid, hleased.few⟩

theorem nothing_left_behind_visit :
    (((after obliging prompt visit).receive obliging).owner.leases.get 1 = some none ∨
      1 ∈ (after obliging prompt visit).contexts.live) ∧
      (after obliging prompt visit).contexts.live.card ≤ MAX_CONTEXTS :=
  nothing_left_behind obliging prompt visit (by decide +kernel) (by decide +kernel)

end System

end BetterWebBrowser.Webgl.Session
