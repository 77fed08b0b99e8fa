import FabricRpc.V2.ItemQueue
import Mathlib.Algebra.Order.Group.Multiset
import Mathlib.Data.List.Induction

namespace FabricRpc.V2.ItemQueue

variable {τ ε σ : Type*}

@[simp] theorem pushes_nil : pushes ([] : List (Op τ ε σ)) = [] := rfl

@[simp] theorem pops_nil : pops ([] : List (Op τ ε σ)) = [] := rfl

@[simp] theorem pushes_append (ops more : List (Op τ ε σ)) :
    pushes (ops ++ more) = pushes ops ++ pushes more := List.filterMap_append

@[simp] theorem pops_append (ops more : List (Op τ ε σ)) :
    pops (ops ++ more) = pops ops ++ pops more := List.filterMap_append

@[simp] theorem pushes_push (item : τ) (ops : List (Op τ ε σ)) :
    pushes (.push item :: ops) = item :: pushes ops := rfl

@[simp] theorem pushes_asyncPop (event : ε) (msgout : σ) (ops : List (Op τ ε σ)) :
    pushes (.asyncPop event msgout :: ops) = pushes ops := rfl

@[simp] theorem pushes_cancel (event : ε) (ops : List (Op τ ε σ)) :
    pushes (.cancel event :: ops) = pushes ops := rfl

@[simp] theorem pops_push (item : τ) (ops : List (Op τ ε σ)) :
    pops (.push item :: ops) = pops ops := rfl

@[simp] theorem pops_asyncPop (event : ε) (msgout : σ) (ops : List (Op τ ε σ)) :
    pops (.asyncPop event msgout :: ops) = ⟨event, msgout⟩ :: pops ops := rfl

@[simp] theorem pops_cancel (event : ε) (ops : List (Op τ ε σ)) :
    pops (.cancel event :: ops) = pops ops := rfl

-- Stored items and waiting pops never meet in one queue.
def Exclusive (q : ItemQueue τ ε σ) : Prop := q.items = [] ∨ q.queueEntries = []

theorem new_exclusive : Exclusive (new : ItemQueue τ ε σ) := .inl rfl

theorem push_exclusive (q : ItemQueue τ ε σ) (item : τ) (hq : Exclusive q) :
    Exclusive (q.push item).1 := by
  rcases push_cases q item with ⟨_, hp⟩ | ⟨entries, e, he, hp⟩
  · rw [hp]
    exact .inr rfl
  · rw [hp]
    have hitems : q.items = [] := hq.resolve_right (by simp [he])
    exact .inl hitems

theorem asyncPop_exclusive (q : ItemQueue τ ε σ) (event : ε) (msgout : σ) (hq : Exclusive q) :
    Exclusive (q.asyncPop event msgout).1 := by
  rcases asyncPop_cases q event msgout with ⟨_, hp⟩ | ⟨items, item, hi, hp⟩
  · rw [hp]
    exact .inl rfl
  · rw [hp]
    have hentries : q.queueEntries = [] := hq.resolve_left (by simp [hi])
    exact .inr hentries

theorem cancel_exclusive [DecidableEq ε] (q : ItemQueue τ ε σ) (event : ε) (hq : Exclusive q) :
    Exclusive (q.cancel event) := by
  rcases cancel_cases q event with hc | ⟨entries, e, he, _, hc⟩
  · rwa [hc]
  · rw [hc]
    exact .inl (hq.resolve_right (by simp [he]))

-- Where every pushed item and every started pop is after the calls. The list
-- `finished` holds the pops that received an item, in the order of receipt.
structure Accounts (ops : List (Op τ ε σ)) (t : Trace τ ε σ)
    (finished : List (QueueEntry ε σ)) : Prop where
  exclusive : Exclusive t.queue
  items : (pushes ops : Multiset τ) = t.queue.items + (t.written.map Prod.snd : Multiset τ)
  entries : (pops ops : Multiset (QueueEntry ε σ)) =
    t.queue.queueEntries + (finished : Multiset (QueueEntry ε σ)) + t.cancelled
  written : t.written.map Prod.fst = finished.map QueueEntry.item
  signalled : t.signalled = finished.map QueueEntry.event

theorem new_accounts : Accounts ([] : List (Op τ ε σ)) .new [] where
  exclusive := new_exclusive
  items := rfl
  entries := rfl
  written := rfl
  signalled := rfl

section Step

variable [DecidableEq ε] {ops : List (Op τ ε σ)} {t : Trace τ ε σ}
  {finished : List (QueueEntry ε σ)}

theorem push_accounts (item : τ) (h : Accounts ops t finished) :
    ∃ finished', Accounts (ops ++ [.push item]) (t.apply (.push item)) finished' := by
  have hex := push_exclusive t.queue item h.exclusive
  rcases push_cases t.queue item with ⟨he, hp⟩ | ⟨entries, e, he, hp⟩
  · rw [hp] at hex
    refine ⟨finished, ?_⟩
    simp only [Trace.apply, hp, Trace.finish]
    refine ⟨hex, ?_, ?_, h.written, h.signalled⟩
    · simp only [pushes_append, pushes_push, pushes_nil, ← Multiset.coe_add, h.items]
      ac_rfl
    · simp only [pops_append, pops_push, pops_nil, List.append_nil, h.entries, he]
  · rw [hp] at hex
    refine ⟨finished ++ [e], ?_⟩
    simp only [Trace.apply, hp, Trace.finish]
    refine ⟨hex, ?_, ?_, ?_, ?_⟩
    · simp only [pushes_append, pushes_push, pushes_nil, List.map_append, List.map_cons,
        List.map_nil,
        ← Multiset.coe_add, h.items, add_assoc]
    · simp only [pops_append, pops_push, pops_nil, List.append_nil, ← Multiset.coe_add, h.entries,
        he]
      ac_rfl
    · simp [h.written]
    · simp [h.signalled]

theorem asyncPop_accounts (event : ε) (msgout : σ) (h : Accounts ops t finished) :
    ∃ finished', Accounts (ops ++ [.asyncPop event msgout])
      (t.apply (.asyncPop event msgout)) finished' := by
  have hex := asyncPop_exclusive t.queue event msgout h.exclusive
  rcases asyncPop_cases t.queue event msgout with ⟨hi, hp⟩ | ⟨items, item, hi, hp⟩
  · rw [hp] at hex
    refine ⟨finished, ?_⟩
    simp only [Trace.apply, hp, Trace.finish]
    refine ⟨hex, ?_, ?_, h.written, h.signalled⟩
    · simp only [pushes_append, pushes_asyncPop, pushes_nil, List.append_nil, h.items, hi]
    · simp only [pops_append, pops_asyncPop, pops_nil, ← Multiset.coe_add, h.entries]
      ac_rfl
  · rw [hp] at hex
    refine ⟨finished ++ [⟨event, msgout⟩], ?_⟩
    simp only [Trace.apply, hp, Trace.finish]
    refine ⟨hex, ?_, ?_, ?_, ?_⟩
    · simp only [pushes_append, pushes_asyncPop, pushes_nil, List.append_nil, List.map_append,
        List.map_cons,
        List.map_nil, ← Multiset.coe_add, h.items, hi]
      ac_rfl
    · simp only [pops_append, pops_asyncPop, pops_nil, ← Multiset.coe_add, h.entries]
      ac_rfl
    · simp [h.written]
    · simp [h.signalled]

theorem cancel_accounts (event : ε) (h : Accounts ops t finished) :
    Accounts (ops ++ [.cancel event]) (t.apply (.cancel event)) finished := by
  have hex := cancel_exclusive t.queue event h.exclusive
  rcases cancel_cases t.queue event with hc | ⟨entries, e, he, _, hc⟩
  · rw [hc] at hex
    simp only [Trace.apply, hc, List.drop_length, List.append_nil]
    refine ⟨hex, ?_, ?_, h.written, h.signalled⟩
    · simpa using h.items
    · simpa using h.entries
  · rw [hc] at hex
    have hdrop : t.queue.queueEntries.drop entries.length = [e] := by simp [he]
    simp only [Trace.apply, hc, hdrop]
    refine ⟨hex, ?_, ?_, h.written, h.signalled⟩
    · simpa using h.items
    · simp only [pops_append, pops_cancel, pops_nil, List.append_nil, ← Multiset.coe_add, h.entries,
        he]
      ac_rfl

theorem run_accounts (ops : List (Op τ ε σ)) : ∃ finished, Accounts ops (run ops) finished := by
  induction ops using List.reverseRecOn with
  | nil => exact ⟨[], new_accounts⟩
  | append_singleton ops op ih =>
      obtain ⟨finished, h⟩ := ih
      rw [run_snoc]
      cases op with
      | push item => exact push_accounts item h
      | asyncPop event msgout => exact asyncPop_accounts event msgout h
      | cancel event => exact ⟨finished, cancel_accounts event h⟩

end Step

-- With its own address and its own event for every pop, an entry is found
-- again from either of them.
theorem entry_of_event {ops : List (Op τ ε σ)} {e other : QueueEntry ε σ}
    (hevents : ((pops ops).map QueueEntry.event).Nodup) (he : e ∈ pops ops)
    (hother : other ∈ pops ops) (h : e.event = other.event) : e = other :=
  List.inj_on_of_nodup_map hevents he hother h

-- The law of the item queue: it loses no item, delivers none twice, fills each
-- pop's address at most once and never that of a cancelled pop, and sets the
-- event of exactly the pops that it filled.
theorem item_queue_conserves [DecidableEq ε] (ops : List (Op τ ε σ))
    (hevents : ((pops ops).map QueueEntry.event).Nodup)
    (hslots : ((pops ops).map QueueEntry.item).Nodup) :
    ((run ops).queue.items = [] ∨ (run ops).queue.queueEntries = []) ∧
    (pushes ops : Multiset τ) =
      (run ops).queue.items + ((run ops).written.map Prod.snd : Multiset τ) ∧
    ((run ops).written.map Prod.fst).Nodup ∧
    (∀ e ∈ pops ops, e.event ∈ (run ops).signalled ↔ e.item ∈ (run ops).written.map Prod.fst) ∧
    ∀ e ∈ (run ops).cancelled, e.item ∉ (run ops).written.map Prod.fst := by
  obtain ⟨finished, h⟩ := run_accounts ops
  have hperm : (pops ops).Perm
      ((run ops).queue.queueEntries ++ finished ++ (run ops).cancelled) := by
    apply Multiset.coe_eq_coe.mp
    simpa only [← Multiset.coe_add] using h.entries
  have hnodup := (hperm.map QueueEntry.item).nodup_iff.mp hslots
  rw [List.map_append, List.map_append, List.nodup_append] at hnodup
  obtain ⟨hleft, -, hdisjoint⟩ := hnodup
  have hfinished : ∀ e ∈ finished, e ∈ pops ops := fun e he => hperm.mem_iff.mpr (by simp [he])
  refine ⟨h.exclusive, h.items, ?_, ?_, ?_⟩
  · rw [h.written]
    exact (List.nodup_append.mp hleft).2.1
  · intro e he
    rw [h.written, h.signalled]
    constructor
    · intro hm
      obtain ⟨f, hf, hfe⟩ := List.mem_map.mp hm
      have hef : f = e := entry_of_event hevents (hfinished f hf) he hfe
      exact List.mem_map.mpr ⟨f, hf, by rw [hef]⟩
    · intro hm
      obtain ⟨f, hf, hfe⟩ := List.mem_map.mp hm
      have hef : f = e := List.inj_on_of_nodup_map hslots (hfinished f hf) he hfe
      exact List.mem_map.mpr ⟨f, hf, by rw [hef]⟩
  · intro e he hm
    rw [h.written] at hm
    exact hdisjoint e.item (by simp only [List.mem_append]; exact .inr hm) e.item
      (List.mem_map_of_mem he) rfl

-- Two pops wait, one is cancelled, and one of two pushes finishes the other.
theorem item_queue_conserves_two_pops :
    let ops : List (Op ℕ ℕ ℕ) :=
      [.asyncPop 0 10, .asyncPop 1 11, .cancel 1, .push 7, .push 8]
    ((pops ops).map QueueEntry.event).Nodup ∧ ((pops ops).map QueueEntry.item).Nodup ∧
    (run ops).written = [(10, 7)] ∧ (run ops).cancelled = [⟨1, 11⟩] ∧
    (pushes ops : Multiset ℕ) =
      (run ops).queue.items + ((run ops).written.map Prod.snd : Multiset ℕ) :=
  ⟨by decide, by decide, by decide, by decide,
    (item_queue_conserves _ (by decide) (by decide)).2.1⟩

end FabricRpc.V2.ItemQueue
