import FabricRpc.Lib.Rendezvous
import FabricRpc.V2.ItemQueue.Conservation

namespace FabricRpc.V2.ItemQueue

open Lib (Rendezvous)

variable {τ ε σ : Type*}

def Op.arrival : Op τ ε σ → Option (τ ⊕ QueueEntry ε σ)
  | .push item => some (.inl item)
  | .asyncPop event msgout => some (.inr ⟨event, msgout⟩)
  | .cancel _ => none

-- What the class is named for: the first-in first-out queue that the same
-- pushes and pops would make.
def fifo (ops : List (Op τ ε σ)) : Rendezvous τ (QueueEntry ε σ) :=
  .meet (ops.filterMap Op.arrival)

theorem arrivals_offers (ops : List (Op τ ε σ)) :
    (ops.filterMap Op.arrival).filterMap Sum.getLeft? = pushes ops := by
  rw [List.filterMap_filterMap]
  apply List.filterMap_congr
  rintro (_ | _ | _) _ <;> rfl

theorem arrivals_takers (ops : List (Op τ ε σ)) :
    (ops.filterMap Op.arrival).filterMap Sum.getRight? = pops ops := by
  rw [List.filterMap_filterMap]
  apply List.filterMap_congr
  rintro (_ | _ | _) _ <;> rfl

theorem fifo_pushes (ops : List (Op τ ε σ)) :
    pushes ops = (fifo ops).matched.map Prod.snd ++ (fifo ops).offers :=
  (arrivals_offers ops).symm.trans (Rendezvous.meet_served _).offers

theorem fifo_pops (ops : List (Op τ ε σ)) :
    pops ops = (fifo ops).matched.map Prod.fst ++ (fifo ops).takers :=
  (arrivals_takers ops).symm.trans (Rendezvous.meet_served _).takers

theorem fifo_exclusive (ops : List (Op τ ε σ)) :
    (fifo ops).offers = [] ∨ (fifo ops).takers = [] :=
  (Rendezvous.meet_served _).exclusive

theorem fifo_snoc_push (ops : List (Op τ ε σ)) (item : τ) :
    fifo (ops ++ [.push item]) = (fifo ops).offer item := by
  simp [fifo, Op.arrival, Rendezvous.arrive]

theorem fifo_snoc_asyncPop (ops : List (Op τ ε σ)) (event : ε) (msgout : σ) :
    fifo (ops ++ [.asyncPop event msgout]) = (fifo ops).take ⟨event, msgout⟩ := by
  simp [fifo, Op.arrival, Rendezvous.arrive]

-- The vector that the next call takes from holds at most one element: at most
-- one waiting pop before a push, at most one stored item before a pop.
def Fits (before : List (Op τ ε σ)) : Op τ ε σ → Prop
  | .push _ => (pops before).length ≤ (pushes before).length + 1
  | .asyncPop _ _ => (pushes before).length ≤ (pops before).length + 1
  | .cancel _ => True

def Shallow (ops : List (Op τ ε σ)) : Prop :=
  ∀ before op after, ops = before ++ op :: after → Fits before op

def Uncancelled (ops : List (Op τ ε σ)) : Prop := ∀ event, .cancel event ∉ ops

theorem shallow_nil : Shallow ([] : List (Op τ ε σ)) := by
  intro before op after h
  simp at h

theorem shallow_snoc (ops : List (Op τ ε σ)) (op : Op τ ε σ) :
    Shallow (ops ++ [op]) ↔ Shallow ops ∧ Fits ops op := by
  constructor
  · intro h
    refine ⟨fun before o after he => h before o (after ++ [op]) (by simp [he]), ?_⟩
    exact h ops op [] rfl
  · rintro ⟨h, hop⟩ before o after he
    rcases after.eq_nil_or_concat' with rfl | ⟨after, last, rfl⟩
    · obtain ⟨rfl, ho⟩ := List.append_inj' he rfl
      cases ho
      exact hop
    · rw [← List.cons_append, ← List.append_assoc] at he
      obtain ⟨he, -⟩ := List.append_inj' he rfl
      exact h before o after he

theorem uncancelled_snoc {ops : List (Op τ ε σ)} {op : Op τ ε σ}
    (h : Uncancelled (ops ++ [op])) : Uncancelled ops ∧ ∀ event, op ≠ .cancel event := by
  refine ⟨fun event hm => h event (by simp [hm]), ?_⟩
  rintro event rfl
  exact h event (by simp)

theorem Uncancelled.append {ops more : List (Op τ ε σ)} (h : Uncancelled ops)
    (hmore : Uncancelled more) : Uncancelled (ops ++ more) := by
  intro event hm
  rcases List.mem_append.mp hm with hm | hm
  · exact h event hm
  · exact hmore event hm

section Refinement

variable [DecidableEq ε]

-- The trace of a queue that did what the first-in first-out queue does.
structure Refines (t : Trace τ ε σ) (r : Rendezvous τ (QueueEntry ε σ)) : Prop where
  items : t.queue.items = r.offers
  queueEntries : t.queue.queueEntries = r.takers
  written : t.written = r.matched.map fun m => (m.1.item, m.2)
  signalled : t.signalled = r.matched.map fun m => m.1.event

theorem push_refines {t : Trace τ ε σ} {r : Rendezvous τ (QueueEntry ε σ)} (item : τ)
    (h : Refines t r) (htakers : r.takers.length ≤ 1) :
    Refines (t.apply (.push item)) (r.offer item) := by
  rcases push_cases t.queue item with ⟨he, hp⟩ | ⟨entries, e, he, hp⟩
  · have ht : r.takers = [] := h.queueEntries.symm.trans he
    simp only [Trace.apply, hp, Trace.finish, Rendezvous.offer, ht]
    exact ⟨by rw [h.items], rfl, h.written, h.signalled⟩
  · have ht : r.takers = entries ++ [e] := h.queueEntries.symm.trans he
    have hentries : entries = [] := by
      rw [ht] at htakers
      exact List.length_eq_zero_iff.mp (by simpa using htakers)
    subst hentries
    simp only [Trace.apply, hp, Trace.finish, Rendezvous.offer, ht, List.nil_append]
    exact ⟨h.items, rfl, by simp [h.written], by simp [h.signalled]⟩

theorem asyncPop_refines {t : Trace τ ε σ} {r : Rendezvous τ (QueueEntry ε σ)} (event : ε)
    (msgout : σ) (h : Refines t r) (hoffers : r.offers.length ≤ 1) :
    Refines (t.apply (.asyncPop event msgout)) (r.take ⟨event, msgout⟩) := by
  rcases asyncPop_cases t.queue event msgout with ⟨hi, hp⟩ | ⟨items, item, hi, hp⟩
  · have ho : r.offers = [] := h.items.symm.trans hi
    simp only [Trace.apply, hp, Trace.finish, Rendezvous.take, ho]
    exact ⟨rfl, by rw [h.queueEntries], h.written, h.signalled⟩
  · have ho : r.offers = items ++ [item] := h.items.symm.trans hi
    have hitems : items = [] := by
      rw [ho] at hoffers
      exact List.length_eq_zero_iff.mp (by simpa using hoffers)
    subst hitems
    simp only [Trace.apply, hp, Trace.finish, Rendezvous.take, ho, List.nil_append]
    exact ⟨rfl, h.queueEntries, by simp [h.written], by simp [h.signalled]⟩

-- As long as no call finds two elements where it takes one, the item queue is
-- the first-in first-out queue.
theorem run_refines_fifo (ops : List (Op τ ε σ)) (hc : Uncancelled ops) (hs : Shallow ops) :
    Refines (run ops) (fifo ops) := by
  induction ops using List.reverseRecOn with
  | nil => exact ⟨rfl, rfl, rfl, rfl⟩
  | append_singleton ops op ih =>
      obtain ⟨hc, hop⟩ := uncancelled_snoc hc
      obtain ⟨hs, hfits⟩ := (shallow_snoc ops op).mp hs
      have h := ih hc hs
      have hserved := Rendezvous.meet_served (ops.filterMap Op.arrival)
      rw [run_snoc]
      cases op with
      | push item =>
          rw [fifo_snoc_push]
          apply push_refines item h
          apply hserved.takers_length_le
          rwa [arrivals_takers, arrivals_offers]
      | asyncPop event msgout =>
          rw [fifo_snoc_asyncPop]
          apply asyncPop_refines event msgout h
          apply hserved.offers_length_le
          rwa [arrivals_takers, arrivals_offers]
      | cancel event => exact absurd rfl (hop event)

-- On such calls the items written so far are the items pushed first, in order.
theorem written_prefix_pushes (ops : List (Op τ ε σ)) (hc : Uncancelled ops)
    (hs : Shallow ops) : (run ops).written.map Prod.snd <+: pushes ops := by
  rw [(run_refines_fifo ops hc hs).written, List.map_map, fifo_pushes]
  exact List.prefix_append _ _

end Refinement

-- The queue never looks at an item or an address: renaming them renames the trace.
def Op.map {τ' σ' : Type*} (f : τ → τ') (g : σ → σ') : Op τ ε σ → Op τ' ε σ'
  | .push item => .push (f item)
  | .asyncPop event msgout => .asyncPop event (g msgout)
  | .cancel event => .cancel event

def QueueEntry.map {σ' : Type*} (g : σ → σ') (e : QueueEntry ε σ) : QueueEntry ε σ' :=
  ⟨e.event, g e.item⟩

def Trace.map {τ' σ' : Type*} (f : τ → τ') (g : σ → σ') (t : Trace τ ε σ) : Trace τ' ε σ' where
  queue := ⟨t.queue.items.map f, t.queue.queueEntries.map (QueueEntry.map g)⟩
  written := t.written.map (Prod.map g f)
  signalled := t.signalled
  cancelled := t.cancelled.map (QueueEntry.map g)

theorem apply_map [DecidableEq ε] {τ' σ' : Type*} (f : τ → τ') (g : σ → σ') (t : Trace τ ε σ)
    (op : Op τ ε σ) : (t.map f g).apply (op.map f g) = (t.apply op).map f g := by
  cases op with
  | push item =>
      rcases push_cases t.queue item with ⟨he, hp⟩ | ⟨entries, e, he, hp⟩
      · have hmap := push_of_nil (q := (t.map f g).queue) (by simp [Trace.map, he]) (f item)
        simp only [Trace.apply, Op.map, hp, hmap, Trace.finish]
        simp [Trace.map]
      · have hmap := push_of_concat (q := (t.map f g).queue)
          (by simp [Trace.map, he]; exact ⟨rfl, rfl⟩) (f item)
        simp only [Trace.apply, Op.map, hp, hmap, Trace.finish]
        simp [Trace.map, QueueEntry.map]
  | asyncPop event msgout =>
      rcases asyncPop_cases t.queue event msgout with ⟨hi, hp⟩ | ⟨items, item, hi, hp⟩
      · have hmap := asyncPop_of_nil (q := (t.map f g).queue) (by simp [Trace.map, hi]) event
          (g msgout)
        simp only [Trace.apply, Op.map, hp, hmap, Trace.finish]
        simp [Trace.map, QueueEntry.map]
      · have hmap := asyncPop_of_concat (q := (t.map f g).queue)
          (by simp [Trace.map, hi]; exact ⟨rfl, rfl⟩) event (g msgout)
        simp only [Trace.apply, Op.map, hp, hmap, Trace.finish]
        simp [Trace.map]
  | cancel event =>
      rcases t.queue.queueEntries.eq_nil_or_concat' with he | ⟨entries, e, he⟩
      · simp [Trace.apply, Op.map, cancel, Trace.map, he]
      · by_cases hev : e.event = event
        · simp [Trace.apply, Op.map, cancel, Trace.map, he, hev, QueueEntry.map]
        · simp [Trace.apply, Op.map, cancel, Trace.map, he, hev, QueueEntry.map]

theorem run_map [DecidableEq ε] {τ' σ' : Type*} (f : τ → τ') (g : σ → σ')
    (ops : List (Op τ ε σ)) : run (ops.map (Op.map f g)) = (run ops).map f g := by
  induction ops using List.reverseRecOn with
  | nil => rfl
  | append_singleton ops op ih =>
      rw [List.map_append, List.map_cons, List.map_nil, run_snoc, run_snoc, ih, apply_map]

-- The k-th push carries the number k and the k-th pop asks for delivery number k.
def numberFrom (i j : ℕ) : List (Op τ ε σ) → List (Op (ℕ × τ) ε (ℕ × σ))
  | [] => []
  | .push item :: ops => .push (i, item) :: numberFrom (i + 1) j ops
  | .asyncPop event msgout :: ops => .asyncPop event (j, msgout) :: numberFrom i (j + 1) ops
  | .cancel event :: ops => .cancel event :: numberFrom i j ops

def numbered (ops : List (Op τ ε σ)) : List (Op (ℕ × τ) ε (ℕ × σ)) := numberFrom 0 0 ops

-- Per delivery, the number of the pop served and the number of the item it got.
def deliveries [DecidableEq ε] (ops : List (Op τ ε σ)) : List (ℕ × ℕ) :=
  (run (numbered ops)).written.map fun w => (w.1.1, w.2.1)

-- The queue is a queue on these calls: the k-th delivery hands the k-th item
-- pushed to the k-th pop started.
def InOrder [DecidableEq ε] (ops : List (Op τ ε σ)) : Prop :=
  ∀ k (hk : k < (deliveries ops).length), (deliveries ops)[k] = (k, k)

theorem numberFrom_erase (i j : ℕ) (ops : List (Op τ ε σ)) :
    (numberFrom i j ops).map (Op.map Prod.snd Prod.snd) = ops := by
  induction ops generalizing i j with
  | nil => rfl
  | cons op ops ih => cases op <;> simp [numberFrom, Op.map, ih]

-- Numbering changes nothing that the queue does.
theorem run_numbered [DecidableEq ε] (ops : List (Op τ ε σ)) :
    (run (numbered ops)).map Prod.snd Prod.snd = run ops := by
  rw [← run_map, numbered, numberFrom_erase]

theorem numberFrom_append (i j : ℕ) (ops more : List (Op τ ε σ)) :
    numberFrom i j (ops ++ more) = numberFrom i j ops ++
      numberFrom (i + (pushes ops).length) (j + (pops ops).length) more := by
  induction ops generalizing i j with
  | nil => rfl
  | cons op ops ih =>
      cases op with
      | push item =>
          simp only [List.cons_append, numberFrom, ih, pushes_push, pops_push, List.length_cons]
          congr 3
          omega
      | asyncPop event msgout =>
          simp only [List.cons_append, numberFrom, ih, pushes_asyncPop, pops_asyncPop,
            List.length_cons]
          congr 3
          omega
      | cancel event => simp only [List.cons_append, numberFrom, ih, pushes_cancel, pops_cancel]

theorem numbered_snoc (ops : List (Op τ ε σ)) (op : Op τ ε σ) :
    numbered (ops ++ [op]) =
      numbered ops ++ numberFrom (pushes ops).length (pops ops).length [op] := by
  simp [numbered, numberFrom_append]

theorem numbered_pushes (ops : List (Op τ ε σ)) :
    (pushes (numbered ops)).map Prod.fst = List.range (pushes ops).length := by
  induction ops using List.reverseRecOn with
  | nil => rfl
  | append_singleton ops op ih =>
      rw [numbered_snoc, pushes_append, List.map_append, ih]
      cases op <;> simp [numberFrom, List.range_succ]

theorem numbered_pops (ops : List (Op τ ε σ)) :
    (pops (numbered ops)).map (fun e => e.item.1) = List.range (pops ops).length := by
  induction ops using List.reverseRecOn with
  | nil => rfl
  | append_singleton ops op ih =>
      rw [numbered_snoc, pops_append, List.map_append, ih]
      cases op <;> simp [numberFrom, List.range_succ]

theorem numbered_pushes_length (ops : List (Op τ ε σ)) :
    (pushes (numbered ops)).length = (pushes ops).length := by
  simpa using congrArg List.length (numbered_pushes ops)

theorem numbered_pops_length (ops : List (Op τ ε σ)) :
    (pops (numbered ops)).length = (pops ops).length := by
  simpa using congrArg List.length (numbered_pops ops)

theorem numbered_uncancelled {ops : List (Op τ ε σ)} (hc : Uncancelled ops) :
    Uncancelled (numbered ops) := by
  induction ops using List.reverseRecOn with
  | nil =>
      intro event hm
      simp [numbered, numberFrom] at hm
  | append_singleton ops op ih =>
      obtain ⟨hc, hop⟩ := uncancelled_snoc hc
      intro event hm
      rw [numbered_snoc, List.mem_append] at hm
      rcases hm with hm | hm
      · exact ih hc event hm
      · cases op with
        | push item => simp [numberFrom] at hm
        | asyncPop _ _ => simp [numberFrom] at hm
        | cancel event' => exact hop event' rfl

-- Numbering leaves the calls as deep or as shallow as they were.
theorem numbered_shallow {ops : List (Op τ ε σ)} (hs : Shallow ops) : Shallow (numbered ops) := by
  induction ops using List.reverseRecOn with
  | nil => exact shallow_nil
  | append_singleton ops op ih =>
      obtain ⟨hprev, hfits⟩ := (shallow_snoc ops op).mp hs
      have hsnoc := shallow_snoc (numbered ops)
      rw [numbered_snoc]
      cases op with
      | push item =>
          refine (hsnoc _).mpr ⟨ih hprev, ?_⟩
          simpa only [Fits, numbered_pushes_length, numbered_pops_length] using hfits
      | asyncPop event msgout =>
          refine (hsnoc _).mpr ⟨ih hprev, ?_⟩
          simpa only [Fits, numbered_pushes_length, numbered_pops_length] using hfits
      | cancel event => exact (hsnoc _).mpr ⟨ih hprev, trivial⟩

-- An initial piece of 0, 1, 2, ... has k at index k.
theorem getElem_of_append_eq_range {numbers rest : List ℕ} {n : ℕ}
    (h : numbers ++ rest = List.range n) (k : ℕ) (hk : k < numbers.length) :
    numbers[k] = k := by
  have hlen : k < (numbers ++ rest).length := by
    simp only [List.length_append]
    omega
  have hall : (numbers ++ rest)[k] = k := by simp only [h, List.getElem_range]
  rwa [List.getElem_append_left hk] at hall

-- The last of 0, 1, 2, ..., n - 1 is n - 1.
theorem last_of_append_eq_range {numbers : List ℕ} {last n : ℕ}
    (h : numbers ++ [last] = List.range n) : last + 1 = n := by
  have hlen := congrArg List.length h
  simp only [List.length_append, List.length_cons, List.length_nil, List.length_range] at hlen
  have hbound : numbers.length < (numbers ++ [last]).length := by simp
  have hget : (numbers ++ [last])[numbers.length] = numbers.length := by
    simp only [h, List.getElem_range]
  simp only [List.getElem_concat_length] at hget
  omega

theorem matched_pushes (ops : List (Op τ ε σ)) :
    (fifo (numbered ops)).matched.map (fun m => m.2.1) ++
      (fifo (numbered ops)).offers.map Prod.fst = List.range (pushes ops).length := by
  rw [← numbered_pushes, fifo_pushes, List.map_append, List.map_map]
  rfl

theorem matched_pops (ops : List (Op τ ε σ)) :
    (fifo (numbered ops)).matched.map (fun m => m.1.item.1) ++
      (fifo (numbered ops)).takers.map (fun e => e.item.1) = List.range (pops ops).length := by
  rw [← numbered_pops, fifo_pops, List.map_append, List.map_map]
  rfl

-- Each push is matched or offered, and each pop is matched or a taker.
theorem matched_lengths (ops : List (Op τ ε σ)) :
    (fifo (numbered ops)).matched.length + (fifo (numbered ops)).offers.length =
        (pushes ops).length ∧
      (fifo (numbered ops)).matched.length + (fifo (numbered ops)).takers.length =
        (pops ops).length := by
  have hpushes := congrArg List.length (matched_pushes ops)
  have hpops := congrArg List.length (matched_pops ops)
  simp only [List.length_append, List.length_map, List.length_range] at hpushes hpops
  exact ⟨hpushes, hpops⟩

section Deliveries

variable [DecidableEq ε]

theorem deliveries_of_refines {ops : List (Op τ ε σ)}
    (h : Refines (run (numbered ops)) (fifo (numbered ops))) :
    deliveries ops = (fifo (numbered ops)).matched.map fun m => (m.1.item.1, m.2.1) := by
  simp [deliveries, h.written]

theorem in_order_of_shallow (ops : List (Op τ ε σ)) (hc : Uncancelled ops) (hs : Shallow ops) :
    InOrder ops := by
  have hd := deliveries_of_refines
    (run_refines_fifo (numbered ops) (numbered_uncancelled hc) (numbered_shallow hs))
  intro k hk
  have hk' : k < (fifo (numbered ops)).matched.length := by simpa [hd] using hk
  have hpush := getElem_of_append_eq_range (matched_pushes ops) k (by simpa using hk')
  have hpop := getElem_of_append_eq_range (matched_pops ops) k (by simpa using hk')
  simp only [List.getElem_map] at hpush hpop
  simp only [hd, List.getElem_map, hpush, hpop]

theorem deliveries_snoc (ops : List (Op τ ε σ)) (op : Op τ ε σ) :
    deliveries ops <+: deliveries (ops ++ [op]) := by
  unfold deliveries
  apply List.IsPrefix.map
  rw [numbered_snoc]
  cases op with
  | push item =>
      simp only [numberFrom, run_snoc, Trace.apply]
      rcases push_cases (run (numbered ops)).queue ((pushes ops).length, item) with
        ⟨_, hp⟩ | ⟨_, _, _, hp⟩ <;> simp [hp, Trace.finish]
  | asyncPop event msgout =>
      simp only [numberFrom, run_snoc, Trace.apply]
      rcases asyncPop_cases (run (numbered ops)).queue event ((pops ops).length, msgout) with
        ⟨_, hp⟩ | ⟨_, _, _, hp⟩ <;> simp [hp, Trace.finish]
  | cancel event => simp [numberFrom, Trace.apply]

theorem in_order_of_snoc {ops : List (Op τ ε σ)} {op : Op τ ε σ} (h : InOrder (ops ++ [op])) :
    InOrder ops := by
  obtain ⟨more, hmore⟩ := deliveries_snoc ops op
  intro k hk
  have hall := h k (by rw [← hmore]; simp; omega)
  simp only [← hmore] at hall
  rwa [List.getElem_append_left hk] at hall

theorem length_deliveries {ops : List (Op τ ε σ)}
    (h : Refines (run (numbered ops)) (fifo (numbered ops))) :
    (deliveries ops).length = (fifo (numbered ops)).matched.length := by
  rw [deliveries_of_refines h, List.length_map]

-- A delivery that is in order is of the next pop and of the next push.
theorem InOrder.last {ops : List (Op τ ε σ)} {op : Op τ ε σ} {pop push : ℕ}
    (hin : InOrder (ops ++ [op]))
    (hd : deliveries (ops ++ [op]) = deliveries ops ++ [(pop, push)]) :
    pop = (deliveries ops).length ∧ push = (deliveries ops).length := by
  have hk := hin (deliveries ops).length (by simp [hd])
  simpa only [hd, List.getElem_concat_length, Prod.mk.injEq] using hk

-- A push that finds two waiting pops serves the later one.
theorem fits_of_in_order_push {ops : List (Op τ ε σ)} {item : τ}
    (h : Refines (run (numbered ops)) (fifo (numbered ops)))
    (hin : InOrder (ops ++ [.push item])) : Fits ops (.push item) := by
  obtain ⟨hlenpushes, hlenpops⟩ := matched_lengths ops
  unfold Fits
  by_contra hdeep
  rcases push_cases (run (numbered ops)).queue ((pushes ops).length, item) with
    ⟨he, _⟩ | ⟨entries, e, he, hp⟩
  · have ht : (fifo (numbered ops)).takers = [] := h.queueEntries.symm.trans he
    simp only [ht, List.length_nil] at hlenpops
    omega
  · have ht : (fifo (numbered ops)).takers = entries ++ [e] := h.queueEntries.symm.trans he
    have ho : (fifo (numbered ops)).offers = [] :=
      (fifo_exclusive (numbered ops)).resolve_right (by simp [ht])
    simp only [ho, List.length_nil] at hlenpushes
    have hpops := matched_pops ops
    rw [ht, List.map_append, ← List.append_assoc] at hpops
    have hlast : e.item.1 + 1 = (pops ops).length := last_of_append_eq_range hpops
    have hd : deliveries (ops ++ [.push item]) =
        deliveries ops ++ [(e.item.1, (pushes ops).length)] := by
      simp [deliveries, numbered_snoc, numberFrom, Trace.apply, hp, Trace.finish]
    have hlen := length_deliveries h
    have hnext := hin.last hd
    omega

-- A pop that finds two stored items takes the later one.
theorem fits_of_in_order_pop {ops : List (Op τ ε σ)} {event : ε} {msgout : σ}
    (h : Refines (run (numbered ops)) (fifo (numbered ops)))
    (hin : InOrder (ops ++ [.asyncPop event msgout])) : Fits ops (.asyncPop event msgout) := by
  obtain ⟨hlenpushes, hlenpops⟩ := matched_lengths ops
  unfold Fits
  by_contra hdeep
  rcases asyncPop_cases (run (numbered ops)).queue event ((pops ops).length, msgout) with
    ⟨hi, _⟩ | ⟨items, item, hi, hp⟩
  · have ho : (fifo (numbered ops)).offers = [] := h.items.symm.trans hi
    simp only [ho, List.length_nil] at hlenpushes
    omega
  · have ho : (fifo (numbered ops)).offers = items ++ [item] := h.items.symm.trans hi
    have ht : (fifo (numbered ops)).takers = [] :=
      (fifo_exclusive (numbered ops)).resolve_left (by simp [ho])
    simp only [ht, List.length_nil] at hlenpops
    have hpushes := matched_pushes ops
    rw [ho, List.map_append, ← List.append_assoc] at hpushes
    have hlast : item.1 + 1 = (pushes ops).length := last_of_append_eq_range hpushes
    have hd : deliveries (ops ++ [.asyncPop event msgout]) =
        deliveries ops ++ [((pops ops).length, item.1)] := by
      simp [deliveries, numbered_snoc, numberFrom, Trace.apply, hp, Trace.finish]
    have hlen := length_deliveries h
    have hnext := hin.last hd
    omega

theorem shallow_of_in_order (ops : List (Op τ ε σ)) (hc : Uncancelled ops) (hin : InOrder ops) :
    Shallow ops := by
  induction ops using List.reverseRecOn with
  | nil => exact shallow_nil
  | append_singleton ops op ih =>
      obtain ⟨hc, hop⟩ := uncancelled_snoc hc
      have hs := ih hc (in_order_of_snoc hin)
      have h := run_refines_fifo (numbered ops) (numbered_uncancelled hc) (numbered_shallow hs)
      refine (shallow_snoc ops op).mpr ⟨hs, ?_⟩
      cases op with
      | push item => exact fits_of_in_order_push h hin
      | asyncPop event msgout => exact fits_of_in_order_pop h hin
      | cancel event => exact absurd rfl (hop event)

-- The item queue takes from the back of both vectors. It is a queue on exactly
-- the calls where the back is the front.
theorem item_queue_in_order_iff_shallow (ops : List (Op τ ε σ)) (hc : Uncancelled ops) :
    InOrder ops ↔ Shallow ops :=
  ⟨shallow_of_in_order ops hc, in_order_of_shallow ops hc⟩

end Deliveries

theorem item_queue_in_order_iff_shallow_two :
    InOrder ([.push 7, .asyncPop 0 10, .push 8, .asyncPop 1 11] : List (Op ℕ ℕ ℕ)) ↔
      Shallow ([.push 7, .asyncPop 0 10, .push 8, .asyncPop 1 11] : List (Op ℕ ℕ ℕ)) :=
  item_queue_in_order_iff_shallow _ (by simp [Uncancelled])

-- Of two stored items the later one is delivered first.
theorem item_queue_delivers_last_first :
    ∃ ops : List (Op ℕ ℕ ℕ), Uncancelled ops ∧ ops = [.push 7, .push 8, .asyncPop 0 10] ∧
      (run ops).written = [(10, 8)] ∧ ¬InOrder ops := by
  refine ⟨_, by simp [Uncancelled], rfl, rfl, ?_⟩
  intro h
  exact absurd (h 0 (by decide)) (by decide)

end FabricRpc.V2.ItemQueue
