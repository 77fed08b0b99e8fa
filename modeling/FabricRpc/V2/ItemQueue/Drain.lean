import FabricRpc.V2.ItemQueue.Order

namespace FabricRpc.V2.ItemQueue

variable {τ ε σ : Type*}

-- The assertions of ~basic_item_queue.
def Drained (q : ItemQueue τ ε σ) : Prop := q.items = [] ∧ q.queueEntries = []

section Balance

variable [DecidableEq ε] {ops : List (Op τ ε σ)}

theorem run_cancelled_nil (hc : Uncancelled ops) : (run ops).cancelled = [] := by
  induction ops using List.reverseRecOn with
  | nil => rfl
  | append_singleton ops op ih =>
      obtain ⟨hops, hop⟩ := uncancelled_snoc hc
      have hold := ih hops
      rw [run_snoc]
      cases op with
      | push item =>
          rcases push_cases (run ops).queue item with ⟨-, hp⟩ | ⟨entries, e, -, hp⟩
          · simp only [Trace.apply, hp, Trace.finish, hold]
          · simp only [Trace.apply, hp, Trace.finish, hold]
      | asyncPop event msgout =>
          rcases asyncPop_cases (run ops).queue event msgout with ⟨-, hp⟩ | ⟨items, item, -, hp⟩
          · simp only [Trace.apply, hp, Trace.finish, hold]
          · simp only [Trace.apply, hp, Trace.finish, hold]
      | cancel event => exact absurd rfl (hop event)

-- The pops beyond the pushes wait, and the pushes beyond the pops are stored.
theorem run_balance (hc : Uncancelled ops) :
    (run ops).queue.items.length = (pushes ops).length - (pops ops).length ∧
      (run ops).queue.queueEntries.length = (pops ops).length - (pushes ops).length := by
  obtain ⟨finished, h⟩ := run_accounts ops
  have hitems := congrArg Multiset.card h.items
  have hentries := congrArg Multiset.card h.entries
  have hwritten := congrArg List.length h.written
  simp only [Multiset.card_add, Multiset.coe_card, List.length_map, run_cancelled_nil hc,
    List.length_nil] at hitems hentries hwritten
  rcases h.exclusive with hnil | hnil
  · rw [hnil] at hitems ⊢
    simp only [List.length_nil] at hitems ⊢
    omega
  · rw [hnil] at hentries ⊢
    simp only [List.length_nil] at hentries ⊢
    omega

theorem items_nil_iff (hc : Uncancelled ops) :
    (run ops).queue.items = [] ↔ (pushes ops).length ≤ (pops ops).length := by
  rw [← List.length_eq_zero_iff, (run_balance hc).1]
  omega

end Balance

section Cancels

variable [DecidableEq ε]

theorem foldl_cancel_items (events : List ε) (q : ItemQueue τ ε σ) :
    (events.foldl cancel q).items = q.items := by
  induction events generalizing q with
  | nil => rfl
  | cons event events ih => rw [List.foldl_cons, ih, cancel_items]

-- The waiters by their events, the one that a cancel can reach first.
def reachable (q : ItemQueue τ ε σ) : List ε := (q.queueEntries.map QueueEntry.event).reverse

theorem reachable_cancel (q : ItemQueue τ ε σ) (event : ε) :
    (q.cancel event).reachable =
      if q.reachable.head? = some event then q.reachable.tail else q.reachable := by
  rcases q.queueEntries.eq_nil_or_concat' with hq | ⟨entries, e, hq⟩
  · simp [reachable, cancel, hq]
  · by_cases he : e.event = event
    · simp [reachable, cancel, hq, he]
    · simp [reachable, cancel, hq, he]

-- Cancels empty a queue if they come in an order that reaches every waiter.
theorem foldl_cancel_nil_iff (events : List ε) (q : ItemQueue τ ε σ) :
    (events.foldl cancel q).queueEntries = [] ↔ q.reachable.Sublist events := by
  induction events generalizing q with
  | nil => simp [reachable]
  | cons event events ih =>
      rw [List.foldl_cons, ih, reachable_cancel]
      cases hq : q.reachable with
      | nil => simp
      | cons first others =>
          by_cases hfirst : first = event
          · subst hfirst
            simp
          · rw [List.sublist_cons_iff]
            simp [hfirst]

end Cancels

end FabricRpc.V2.ItemQueue
