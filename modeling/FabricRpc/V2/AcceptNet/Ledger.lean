import FabricRpc.V2.AcceptNet.Sequential

namespace FabricRpc.V2.AcceptNet

variable {τ κ ρ : Type*}

-- What the calls on a queue moved to the holder of an object, in order.
def writtenTo [DecidableEq ρ] (net : AcceptNet τ κ ρ) (k : κ) (c : ρ) : List τ :=
  ((ItemQueue.run (net.calls k)).written.filter (·.1 = c)).map Prod.snd

-- What the handlers of an object were called with, in order.
def handedTo [DecidableEq ρ] (net : AcceptNet τ κ ρ) (c : ρ) : List (Completion τ) :=
  (net.handed.filter (·.1 = c)).map Prod.snd

def itemsHandedTo [DecidableEq ρ] (net : AcceptNet τ κ ρ) (c : ρ) : List τ :=
  (net.handedTo c).filterMap Completion.item

-- The item that the accept under way will hand over. A holder that no accept
-- looks at is what the last handler copied.
def pending (p : Port τ) : List τ := if p.accepts = [] then [] else p.holder.toList

-- The calls on the queues account for the state: each queue is what its calls
-- made of it, and what they moved to an object was handed over or is pending.
structure Ledger [DecidableEq ρ] (net : AcceptNet τ κ ρ) : Prop where
  queues : ∀ k, net.queues k = (ItemQueue.run (net.calls k)).queue
  homes : ∀ k, ∀ w ∈ (ItemQueue.run (net.calls k)).written, net.home w.1 = some k
  written : ∀ c k, net.home c = some k →
    net.writtenTo k c = net.itemsHandedTo c ++ pending (net.ports c)
  unattached : ∀ c, net.home c = none → net.handedTo c = []
  handed : ∀ h ∈ net.handed, h.2.error = false ∧ h.2.item.isSome

theorem new_ledger [DecidableEq ρ] (home : ρ → Option κ) :
    Ledger (new home : AcceptNet τ κ ρ) where
  queues := fun _ => rfl
  homes := fun _ _ h => absurd h (by simp [new, ItemQueue.Trace.new])
  written := fun _ _ _ => rfl
  unattached := fun _ _ => rfl
  handed := fun _ h => absurd h (by simp [new])

-- What holds of objects that run one accept at a time.
structure Orderly [DecidableEq ρ] (kind : AcceptKind) (net : AcceptNet τ κ ρ) : Prop
  extends Sequential kind net, Ledger net

theorem new_orderly [DecidableEq ρ] (kind : AcceptKind) (home : ρ → Option κ) :
    Orderly kind (new home : AcceptNet τ κ ρ) :=
  ⟨new_sequential kind home, new_ledger home⟩

theorem Sound.of_waits {kind : AcceptKind} {p : Port τ} (h : Sound kind p True) :
    p.accepts ≠ [] ∧ p.holder = none := by
  unfold Sound at h
  split at h
  · exact absurd trivial h.1
  · exact absurd trivial h.1
  · rename_i ha
    refine ⟨by simp [ha], ?_⟩
    rcases h with h | h
    · exact h.2.1
    · exact absurd trivial h.1
  · rename_i ha
    refine ⟨by simp [ha], ?_⟩
    rcases h.1 with h | h
    · exact h.2.1
    · exact absurd trivial h.1
  · exact h.elim

section Ports

variable [DecidableEq ρ] {net : AcceptNet τ κ ρ} {c : ρ}

-- A port changes, but not in what it is about to hand over.
theorem updatePort_ledger {f : Port τ → Port τ} (h : Ledger net)
    (hpending : pending (f (net.ports c)) = pending (net.ports c)) :
    Ledger (net.updatePort c f) where
  queues := h.queues
  homes := h.homes
  written := by
    intro d k hd
    have hold := h.written d k hd
    by_cases hdc : d = c
    · subst hdc
      rw [updatePort_port, hpending]
      exact hold
    · rw [updatePort_port_ne _ _ hdc]
      exact hold
  unattached := h.unattached
  handed := h.handed

-- Nothing was moved to an object before it had a queue.
theorem setQueue_ledger {kind : AcceptKind} (h : Ledger net) (hs : Sequential kind net) (k : κ)
    (hc : net.home c = none) :
    Ledger { net with home := Function.update net.home c (some k) } where
  queues := h.queues
  homes := by
    intro l w hw
    have hhome := h.homes l w hw
    have hne : w.1 ≠ c := by
      rintro rfl
      simp [hc] at hhome
    simpa [hne] using hhome
  written := by
    intro d l hd
    by_cases hdc : d = c
    · subst hdc
      have hwritten : net.writtenTo l d = [] := by
        simp only [writtenTo, List.map_eq_nil_iff, List.filter_eq_nil_iff, decide_eq_true_eq]
        rintro w hw rfl
        simp [h.homes l w hw] at hc
      have hidle : (net.ports d).accepts = [] := by
        by_contra ha
        simpa [hc] using hs.homed d ha
      have hpending : pending (net.ports d) = [] := by simp [pending, hidle]
      have hhanded : net.itemsHandedTo d = [] := by simp [itemsHandedTo, h.unattached d hc]
      change net.writtenTo l d = net.itemsHandedTo d ++ pending (net.ports d)
      simp [hwritten, hpending, hhanded]
    · exact h.written d l (by simpa [hdc] using hd)
  unattached := by
    intro d hd
    by_cases hdc : d = c
    · simp [hdc] at hd
    · exact h.unattached d (by simpa [hdc] using hd)
  handed := h.handed

-- The handler takes what was pending.
theorem complete_ledger {net' : AcceptNet τ κ ρ} {item : τ} {rest : Option τ} {k : κ}
    (h : Ledger net) (hbusy : (net.ports c).accepts ≠ []) (hitem : (net.ports c).holder = some item)
    (hhome : net.home c = some k)
    (hports : net'.ports =
      Function.update net.ports c { net.ports c with holder := rest, accepts := [] })
    (hqueues : net'.queues = net.queues) (hhomes : net'.home = net.home)
    (hcalls : net'.calls = net.calls)
    (hhanded : net'.handed = net.handed ++ [(c, ⟨false, some item⟩)]) : Ledger net' where
  queues := by
    rw [hqueues, hcalls]
    exact h.queues
  homes := by
    rw [hcalls, hhomes]
    exact h.homes
  written := by
    intro d l hd
    rw [hhomes] at hd
    have hold := h.written d l hd
    have hwritten : net'.writtenTo l d = net.writtenTo l d := by simp [writtenTo, hcalls]
    rw [hwritten, hold]
    by_cases hdc : d = c
    · subst hdc
      have hbefore : pending (net.ports d) = [item] := by simp [pending, hbusy, hitem]
      have hafter : pending (net'.ports d) = [] := by simp [pending, hports]
      rw [hbefore, hafter]
      simp [itemsHandedTo, handedTo, hhanded]
    · have hport : net'.ports d = net.ports d := by simp [hports, hdc]
      have hcd : c ≠ d := fun hcd => hdc hcd.symm
      rw [hport]
      simp [itemsHandedTo, handedTo, hhanded, hcd]
  unattached := by
    intro d hd
    rw [hhomes] at hd
    have hcd : c ≠ d := by
      rintro rfl
      simp [hhome] at hd
    simpa [handedTo, hhanded, hcd] using h.unattached d hd
  handed := by
    intro x hx
    rw [hhanded, List.mem_append, List.mem_singleton] at hx
    rcases hx with hx | rfl
    · exact h.handed x hx
    · exact ⟨rfl, rfl⟩

end Ports

section Queues

variable [DecidableEq κ] [DecidableEq ρ] {net : AcceptNet τ κ ρ} {k : κ} {c : ρ}
  {op : ItemQueue.Op τ ρ ρ}

theorem apply_queues (h : Ledger net) {q : ItemQueue τ ρ ρ}
    (hq : (ItemQueue.run (net.calls k ++ [op])).queue = q) (l : κ) :
    (net.updateQueue k op q).queues l =
      (ItemQueue.run ((net.updateQueue k op q).calls l)).queue := by
  by_cases hl : l = k
  · subst hl
    rw [updateQueue_queue, updateQueue_call, hq]
  · rw [updateQueue_queue_ne _ _ _ hl, updateQueue_call_ne _ _ _ hl, h.queues]

-- A call that moves no item.
theorem updateQueue_ledger {q : ItemQueue τ ρ ρ} (h : Ledger net)
    (hq : (ItemQueue.run (net.calls k ++ [op])).queue = q)
    (hwritten : (ItemQueue.run (net.calls k ++ [op])).written =
      (ItemQueue.run (net.calls k)).written) : Ledger (net.updateQueue k op q) where
  queues := apply_queues h hq
  homes := by
    intro l w hw
    by_cases hl : l = k
    · subst hl
      rw [updateQueue_call, hwritten] at hw
      exact h.homes l w hw
    · rw [updateQueue_call_ne _ _ _ hl] at hw
      exact h.homes l w hw
  written := by
    intro d l hd
    have hsame : (net.updateQueue k op q).writtenTo l d = net.writtenTo l d := by
      by_cases hl : l = k
      · subst hl
        simp only [writtenTo, updateQueue_call, hwritten]
      · simp only [writtenTo, updateQueue_call_ne net op q hl]
    rw [hsame]
    exact h.written d l hd
  unattached := h.unattached
  handed := h.handed

-- A call that moves an item to an object that held none.
theorem updateQueue_updatePort_ledger {q : ItemQueue τ ρ ρ} {f : Port τ → Port τ} {item : τ}
    (h : Ledger net) (hq : (ItemQueue.run (net.calls k ++ [op])).queue = q)
    (hwritten : (ItemQueue.run (net.calls k ++ [op])).written =
      (ItemQueue.run (net.calls k)).written ++ [(c, item)])
    (hhome : net.home c = some k) (hempty : (net.ports c).holder = none)
    (hpending : pending (f (net.ports c)) = [item]) :
    Ledger ((net.updateQueue k op q).updatePort c f) where
  queues := apply_queues h hq
  homes := by
    intro l w hw
    rw [updatePort_calls] at hw
    by_cases hl : l = k
    · subst hl
      rw [updateQueue_call, hwritten, List.mem_append, List.mem_singleton] at hw
      rcases hw with hw | rfl
      · exact h.homes l w hw
      · exact hhome
    · rw [updateQueue_call_ne _ _ _ hl] at hw
      exact h.homes l w hw
  written := by
    intro d l hd
    rw [updatePort_home, updateQueue_home] at hd
    have hold := h.written d l hd
    by_cases hdc : d = c
    · subst hdc
      obtain rfl : k = l := Option.some.inj (hhome.symm.trans hd)
      have hnone : pending (net.ports d) = [] := by simp [pending, hempty]
      rw [hnone, List.append_nil] at hold
      rw [updatePort_port, updateQueue_ports, hpending]
      simp only [writtenTo, updatePort_calls, updateQueue_call, hwritten, List.filter_append,
        List.map_append]
      rw [← writtenTo, hold]
      simp [itemsHandedTo, handedTo]
    · have hcd : c ≠ d := fun hcd => hdc hcd.symm
      rw [updatePort_port_ne _ _ hdc, updateQueue_ports]
      have hsame : writtenTo ((net.updateQueue k op q).updatePort c f) l d = net.writtenTo l d := by
        by_cases hl : l = k
        · subst hl
          simp only [writtenTo, updatePort_calls, updateQueue_call, hwritten]
          simp [hcd]
        · simp [writtenTo, updateQueue_call_ne net op q hl]
      rw [hsame, hold]
      rfl
  unattached := h.unattached
  handed := h.handed

end Queues

section Steps

variable [DecidableEq κ] [DecidableEq ρ] {kind : AcceptKind} {net : AcceptNet τ κ ρ}

theorem push_ledger (h : Ledger net) (hs : Sequential kind net) (k : κ) (item : τ) :
    Ledger (net.push k item) := by
  rcases push_cases item (hs.entries k) with ⟨he, hp⟩ | ⟨entries, c, he, hhome, hp⟩
  · have hrun : (ItemQueue.run (net.calls k)).queue.push item =
        (⟨(net.queues k).items ++ [item], []⟩, none) := by
      rw [← h.queues k, ItemQueue.push_of_nil he]
    rw [hp]
    apply updateQueue_ledger h
    · simp [ItemQueue.Trace.apply, hrun, ItemQueue.Trace.finish]
    · simp [ItemQueue.Trace.apply, hrun, ItemQueue.Trace.finish]
  · have hrun : (ItemQueue.run (net.calls k)).queue.push item =
        (⟨(net.queues k).items, entries⟩, some (⟨c, c⟩, item)) := by
      rw [← h.queues k, ItemQueue.push_of_concat he]
    have hport := hs.ports c
    have hwaits : net.Waits c := ⟨k, hhome, by simp [waiters, he]⟩
    simp only [hwaits] at hport
    obtain ⟨hbusy, hempty⟩ := hport.of_waits
    have hwritten : (ItemQueue.run (net.calls k ++ [.push item])).written =
        (ItemQueue.run (net.calls k)).written ++ [(c, item)] := by
      simp [ItemQueue.Trace.apply, hrun, ItemQueue.Trace.finish]
    rw [hp, deliver]
    refine updateQueue_updatePort_ledger h ?_ hwritten hhome hempty ?_
    · simp [ItemQueue.Trace.apply, hrun, ItemQueue.Trace.finish]
    · simp [pending, Port.fill, Port.set, hbusy]

theorem pop_ledger {net' : AcceptNet τ κ ρ} {c : ρ} {i : ℕ} (h : Ledger net)
    (hs : Sequential kind net) (hi : (net.ports c).accepts[i]? = some .started)
    (hx : net.pop c i = .ok net') : Ledger net' := by
  obtain ⟨rfl, ha⟩ := (hs.ports c).accepts_eq hi
  obtain ⟨-, hempty, -⟩ := (hs.ports c).of_started ha
  obtain ⟨next, k, hhome, hnext, -, hcases⟩ := pop_cases hs hi
  obtain rfl : next = net' := Except.ok.inj (hnext.symm.trans hx)
  obtain ⟨hitems, rfl⟩ | ⟨items, item, hitems, rfl⟩ := hcases
  · have hrun : (ItemQueue.run (net.calls k)).queue.asyncPop c c =
        (⟨[], (net.queues k).queueEntries ++ [⟨c, c⟩]⟩, none) := by
      rw [← h.queues k, ItemQueue.asyncPop_of_nil hitems]
    apply updatePort_ledger
    · apply updateQueue_ledger h
      · simp [ItemQueue.Trace.apply, hrun, ItemQueue.Trace.finish]
      · simp [ItemQueue.Trace.apply, hrun, ItemQueue.Trace.finish]
    · simp [pending, popped, hempty]
  · have hrun : (ItemQueue.run (net.calls k)).queue.asyncPop c c =
        (⟨items, (net.queues k).queueEntries⟩, some (⟨c, c⟩, item)) := by
      rw [← h.queues k, ItemQueue.asyncPop_of_concat hitems]
    have hwritten : (ItemQueue.run (net.calls k ++ [.asyncPop c c])).written =
        (ItemQueue.run (net.calls k)).written ++ [(c, item)] := by
      simp [ItemQueue.Trace.apply, hrun, ItemQueue.Trace.finish]
    refine updateQueue_updatePort_ledger h ?_ hwritten hhome hempty ?_
    · simp [ItemQueue.Trace.apply, hrun, ItemQueue.Trace.finish]
    · simp [pending, popped, Port.fill, Port.set]

-- Every step of a loop that runs one accept at a time keeps the ledger.
theorem exec_ledger {net' : AcceptNet τ κ ρ} {labels : List (AcceptLabel τ κ ρ)}
    {label : AcceptLabel τ κ ρ} (h : Ledger net) (hs : Sequential kind net)
    (hallow : OneAtATime labels net label) (henabled : Enabled net label)
    (hx : exec kind net label = .ok net') : Ledger net' := by
  cases label with
  | attach c k =>
      obtain ⟨next, hnext, -, heq⟩ := setQueue_cases hs k hallow
      obtain rfl : next = net' := Except.ok.inj (hnext.symm.trans hx)
      rw [heq]
      exact setQueue_ledger h hs k hallow
  | push k item =>
      obtain rfl : net.push k item = net' := Except.ok.inj hx
      exact push_ledger h hs k item
  | start c =>
      obtain ⟨next, hnext, -, heq⟩ := start_cases hs hallow.1 hallow.2
      obtain rfl : next = net' := Except.ok.inj (hnext.symm.trans hx)
      rw [heq]
      apply updatePort_ledger h
      simp [pending, hallow.2]
  | pop c i => exact pop_ledger h hs henabled hx
  | wait c i =>
      obtain rfl : net.wait c i = net' := Except.ok.inj hx
      obtain ⟨rfl, ha⟩ := (hs.ports c).accepts_eq henabled
      rw [wait, setPhase]
      apply updatePort_ledger h
      simp [pending, ha]
  | complete c i error =>
      obtain ⟨fired, hi, hfired⟩ := henabled
      simp only [OneAtATime] at hallow
      subst hallow
      rw [hfired rfl] at hi
      obtain ⟨-, ha⟩ := (hs.ports c).accepts_eq hi
      have hbusy : (net.ports c).accepts ≠ [] := by simp [ha]
      obtain ⟨k, hhome⟩ := Option.isSome_iff_exists.mp (hs.homed c hbusy)
      obtain ⟨next, item, hitem, hnext, -, ⟨rest, hports⟩, hqueues, hhomes, hcalls, hhanded⟩ :=
        complete_cases hs hi
      obtain rfl : next = net' := Except.ok.inj (hnext.symm.trans hx)
      exact complete_ledger h hbusy hitem hhome hports hqueues hhomes hcalls hhanded
  | cancel c => exact hallow.elim

theorem push_orderly (h : Orderly kind net) (k : κ) (item : τ) : Orderly kind (net.push k item) :=
  ⟨push_sequential h.toSequential k item, push_ledger h.toLedger h.toSequential k item⟩

omit [DecidableEq κ] in
theorem setQueue_orderly (h : Orderly kind net) {c : ρ} (k : κ) (hc : net.home c = none) :
    ∃ net', net.setQueue c k = .ok net' ∧ Orderly kind net' ∧
      net' = { net with home := Function.update net.home c (some k) } := by
  obtain ⟨net', hx, hs, rfl⟩ := setQueue_cases h.toSequential k hc
  exact ⟨_, hx, ⟨hs, setQueue_ledger h.toLedger h.toSequential k hc⟩, rfl⟩

theorem exec_orderly {labels : List (AcceptLabel τ κ ρ)} {label : AcceptLabel τ κ ρ}
    (h : Orderly kind net) (hallow : OneAtATime labels net label) (henabled : Enabled net label) :
    ∃ net', exec kind net label = .ok net' ∧ Orderly kind net' := by
  obtain ⟨net', hx, hs⟩ := exec_sequential h.toSequential hallow henabled
  exact ⟨net', hx, hs, exec_ledger h.toLedger h.toSequential hallow henabled hx⟩

theorem run_orderly {home : ρ → Option κ} {labels : List (AcceptLabel τ κ ρ)}
    (hrun : (machine τ κ ρ kind).Run OneAtATime (new home) labels net) : Orderly kind net := by
  apply hrun.state_invariant (Orderly kind) (new_orderly kind home)
  intro labels net label net' h hallow henabled hx
  obtain ⟨next, hnext, hord⟩ := exec_orderly h hallow henabled
  obtain rfl : next = net' := Except.ok.inj (hnext.symm.trans hx)
  exact hord

end Steps

end FabricRpc.V2.AcceptNet
