import FabricRpc.V2.AcceptNet.Labels
import FabricRpc.V2.AcceptNet.Ledger

namespace FabricRpc.V2.AcceptNet

variable {τ κ ρ : Type*} [DecidableEq κ] [DecidableEq ρ] {kind : AcceptKind}
  {net net' : AcceptNet τ κ ρ} {label : AcceptLabel τ κ ρ}

-- What the calls on a queue moved out of it, and to whose holder, in order.
def movedFrom (net : AcceptNet τ κ ρ) (k : κ) : List (ρ × τ) :=
  (ItemQueue.run (net.calls k)).written

-- What holds in every run, however the accepts overlap: a queue is what its
-- calls made of it, only objects attached to it wait in it or were served from
-- it, and an object without a queue is as it was made.
structure Recorded (net : AcceptNet τ κ ρ) : Prop where
  queues : ∀ k, net.queues k = (ItemQueue.run (net.calls k)).queue
  entries : ∀ k, ∀ e ∈ (net.queues k).queueEntries, e.event = e.item ∧ net.home e.item = some k
  homes : ∀ k, ∀ w ∈ net.movedFrom k, net.home w.1 = some k
  unattached : ∀ c, net.home c = none → net.ports c = .new ∧ net.handedTo c = []

omit [DecidableEq κ] in
theorem new_recorded (home : ρ → Option κ) : Recorded (new home : AcceptNet τ κ ρ) where
  queues := fun _ => rfl
  entries := fun _ _ he => absurd he (by simp [new, ItemQueue.new])
  homes := fun _ _ hw => absurd hw (by simp [movedFrom, new, ItemQueue.Trace.new])
  unattached := fun _ _ => ⟨rfl, rfl⟩

-- The item that a step moves, with its queue and the object whose holder it is
-- moved to: a push finishes the entry at the back, a pop takes the item there.
def moved (net : AcceptNet τ κ ρ) : AcceptLabel τ κ ρ → Option (κ × ρ × τ)
  | .push k item => (net.queues k).queueEntries.getLast?.map fun e => (k, e.item, item)
  | .pop c _ => (net.home c).bind fun k => (net.queues k).items.getLast?.map (k, c, ·)
  | _ => none

-- What a step does to the items on their way: it moves one to a holder, it
-- hands over a holder, or it leaves them all alone.
inductive Effect (net net' : AcceptNet τ κ ρ) (label : AcceptLabel τ κ ρ) : Prop
  | moves (k : κ) (c : ρ) (item : τ) (hmoved : net.moved label = some (k, c, item))
      (hhome : net.home c = some k) (hhomes : net'.home = net.home)
      (hfrom : net'.movedFrom = Function.update net.movedFrom k (net.movedFrom k ++ [(c, item)]))
      (hholders : ∀ d, (net'.ports d).holder = if d = c then some item else (net.ports d).holder)
      (hhanded : net'.handed = net.handed)
  | completes (c : ρ) (i : ℕ) (error : Bool) (hlabel : label = .complete c i error)
      (hhome : (net.home c).isSome) (hhomes : net'.home = net.home)
      (hfrom : net'.movedFrom = net.movedFrom)
      (hholders : ∀ d, (net'.ports d).holder = if d = c then none else (net.ports d).holder)
      (hhanded : net'.handed = net.handed ++ [(c, ⟨error, (net.ports c).holder⟩)])
  | attaches (c : ρ) (k : κ) (hlabel : label = .attach c k) (hhome : net.home c = none)
      (hhomes : net'.home = Function.update net.home c (some k))
      (hfrom : net'.movedFrom = net.movedFrom) (hports : net'.ports = net.ports)
      (hhanded : net'.handed = net.handed)
  | keeps (hmoved : net.moved label = none) (hhomes : net'.home = net.home)
      (hfrom : net'.movedFrom = net.movedFrom)
      (hholders : ∀ d, (net'.ports d).holder = (net.ports d).holder)
      (hhanded : net'.handed = net.handed)
      (hcomplete : ∀ c i error, label ≠ .complete c i error)

section Step

-- A call that a step makes is by the label, and a pop is by the object's own step.
omit [DecidableEq ρ] in
theorem called_asyncPop {k : κ} {event msgout : ρ}
    (hop : ItemQueue.Op.asyncPop event msgout ∈ net.called k label) :
    event = msgout ∧ net.home msgout = some k := by
  cases label with
  | push l item => by_cases hl : l = k <;> simp [called, hl] at hop
  | pop c i =>
      by_cases hc : net.home c = some k
      · simp only [called, hc, if_true, List.mem_singleton, ItemQueue.Op.asyncPop.injEq] at hop
        obtain ⟨rfl, rfl⟩ := hop
        exact ⟨rfl, hc⟩
      · simp [called, hc] at hop
  | cancel c => by_cases hc : net.home c = some k <;> simp [called, hc] at hop
  | _ => exact absurd hop List.not_mem_nil

-- A step makes one call at most on a queue.
omit [DecidableEq ρ] in
theorem called_cases (net : AcceptNet τ κ ρ) (k : κ) (label : AcceptLabel τ κ ρ) :
    net.called k label = [] ∨ ∃ op, net.called k label = [op] := by
  cases label with
  | push l item => by_cases hl : l = k <;> simp [called, hl]
  | pop c i => by_cases hc : net.home c = some k <;> simp [called, hc]
  | cancel c => by_cases hc : net.home c = some k <;> simp [called, hc]
  | _ => exact .inl rfl

-- The entries of a queue come and go at the tail, and only a pop adds one.
theorem exec_queueEntries (hx : exec kind net label = .ok net') (k : κ) :
    (net'.queues k).queueEntries <+: (net.queues k).queueEntries ∨
      ∃ c i, label = .pop c i ∧ net.home c = some k ∧
        (net'.queues k).queueEntries = (net.queues k).queueEntries ++ [⟨c, c⟩] := by
  rw [exec_queues hx]
  rcases called_cases net k label with hcalled | ⟨op, hcalled⟩
  · rw [hcalled]
    exact .inl (List.prefix_refl _)
  · rw [hcalled]
    rcases ItemQueue.call_queueEntries (net.queues k) op with hpre | ⟨event, msgout, rfl, hgrow⟩
    · exact .inl hpre
    · obtain ⟨rfl, hhome⟩ := called_asyncPop (by rw [hcalled]; exact List.mem_singleton_self _)
      cases label with
      | pop c i =>
          simp only [called] at hcalled
          split at hcalled
          · obtain ⟨rfl, -⟩ := ItemQueue.Op.asyncPop.inj (List.singleton_inj.mp hcalled)
            exact .inr ⟨c, i, rfl, hhome, hgrow⟩
          · cases hcalled
      | push l item => by_cases hl : l = k <;> simp [called, hl] at hcalled
      | cancel c => by_cases hc : net.home c = some k <;> simp [called, hc] at hcalled
      | attach c l => cases hcalled
      | start c => cases hcalled
      | wait c i => cases hcalled
      | complete c i error => cases hcalled

-- A step that does not pop registers nothing.
theorem waiters_of_not_pop (hx : exec kind net label = .ok net') (hpop : ∀ c i, label ≠ .pop c i)
    {c : ρ} {k : κ} (hmem : c ∈ net'.waiters k) : c ∈ net.waiters k := by
  rcases exec_queueEntries hx k with hpre | ⟨d, i, hlabel, -⟩
  · exact (hpre.map QueueEntry.item).subset hmem
  · exact absurd hlabel (hpop d i)

theorem exec_home_some (hx : exec kind net label = .ok net') {c : ρ} {k : κ}
    (hc : net.home c = some k) : net'.home c = some k := by
  by_cases hattach : ∃ d l, label = .attach d l
  · obtain ⟨d, l, rfl⟩ := hattach
    have hd := setQueue_checks hx
    obtain rfl := setQueue_ok hx
    have hne : c ≠ d := by
      rintro rfl
      simp [hd] at hc
    simpa [hne] using hc
  · push Not at hattach
    rw [exec_home hx hattach, hc]

theorem exec_home_none (hx : exec kind net label = .ok net') {c : ρ}
    (hc : net'.home c = none) : net.home c = none := by
  cases hold : net.home c with
  | none => rfl
  | some k => simp [exec_home_some hx hold] at hc

theorem Recorded.exec_queue_run (h : Recorded net) (hx : exec kind net label = .ok net') (k : κ) :
    net'.queues k = (ItemQueue.run (net'.calls k)).queue := by
  rw [exec_queues hx, exec_calls hx, ItemQueue.run_append, ItemQueue.foldl_apply_queue, h.queues]

theorem Recorded.exec_entries (h : Recorded net) (hx : exec kind net label = .ok net') (k : κ) :
    ∀ e ∈ (net'.queues k).queueEntries, e.event = e.item ∧ net'.home e.item = some k := by
  intro e he
  have hkept : e ∈ (net.queues k).queueEntries → e.event = e.item ∧ net'.home e.item = some k := by
    intro hmem
    obtain ⟨hevent, hhome⟩ := h.entries k e hmem
    exact ⟨hevent, exec_home_some hx hhome⟩
  rw [exec_queues hx] at he
  rcases called_cases net k label with hcalled | ⟨op, hcalled⟩
  · rw [hcalled] at he
    exact hkept he
  · rw [hcalled] at he
    rcases ItemQueue.call_entries _ op e he with hmem | rfl
    · exact hkept hmem
    · obtain ⟨hevent, hhome⟩ := called_asyncPop (by rw [hcalled]; exact List.mem_singleton_self _)
      exact ⟨hevent, exec_home_some hx hhome⟩

theorem Recorded.exec_homes (h : Recorded net) (hx : exec kind net label = .ok net') (k : κ) :
    ∀ w ∈ net'.movedFrom k, net'.home w.1 = some k := by
  intro w hw
  rw [movedFrom, exec_calls hx, ItemQueue.run_append] at hw
  apply exec_home_some hx
  rcases called_cases net k label with hcalled | ⟨op, hcalled⟩
  · rw [hcalled] at hw
    exact h.homes k w hw
  · rw [hcalled] at hw
    rcases ItemQueue.apply_written _ op w hw with hw | ⟨e, he, hitem⟩ | ⟨event, rfl⟩
    · exact h.homes k w hw
    · rw [← h.queues] at he
      rw [← hitem]
      exact (h.entries k e he).2
    · exact (called_asyncPop (by rw [hcalled]; exact List.mem_singleton_self _)).2

-- Nothing happens to an object that has no queue.
theorem Recorded.exec_unattached (h : Recorded net) (henabled : Enabled net label)
    (hx : exec kind net label = .ok net') {c : ρ} (hc : net.home c = none) :
    net'.ports c = net.ports c ∧ net'.handedTo c = net.handedTo c := by
  have hidle : (net.ports c).accepts = [] := by
    rw [(h.unattached c hc).1]
    rfl
  cases label with
  | attach d l =>
      obtain rfl := setQueue_ok hx
      exact ⟨rfl, rfl⟩
  | push l item =>
      obtain rfl : net.push l item = net' := Except.ok.inj hx
      rcases push_cases item (h.entries l) with ⟨-, hp⟩ | ⟨entries, d, -, hhome, hp⟩
      · rw [hp]
        exact ⟨rfl, rfl⟩
      · have hne : c ≠ d := by
          rintro rfl
          simp [hc] at hhome
        rw [hp]
        exact ⟨updatePort_port_ne _ _ hne, rfl⟩
  | start d =>
      have hne : c ≠ d := by
        rintro rfl
        simpa [hc] using (start_checks hx).1
      obtain rfl := start_ok hx
      exact ⟨updatePort_port_ne _ _ hne, rfl⟩
  | pop d i =>
      obtain ⟨l, hhome, rfl⟩ := pop_ok hx
      have hne : c ≠ d := by
        rintro rfl
        simp [hc] at hhome
      rw [setPhase]
      rcases asyncPop_cases net l d with ⟨-, hp⟩ | ⟨items, item, -, hp⟩
      · rw [hp]
        exact ⟨updatePort_port_ne _ _ hne, rfl⟩
      · rw [hp, deliver, updatePort_updatePort]
        exact ⟨updatePort_port_ne _ _ hne, rfl⟩
  | wait d i =>
      have hne : c ≠ d := by
        rintro rfl
        simp [Enabled, hidle] at henabled
      obtain rfl : net.wait d i = net' := Except.ok.inj hx
      rw [wait, setPhase]
      exact ⟨updatePort_port_ne _ _ hne, rfl⟩
  | complete d i error =>
      have hne : c ≠ d := by
        rintro rfl
        simp [Enabled, hidle] at henabled
      obtain ⟨rest, rfl⟩ := complete_ok hx
      refine ⟨?_, ?_⟩
      · simp [handOver, updatePort, hne]
      · simp [handedTo, handOver, Ne.symm hne]
  | cancel d =>
      obtain rfl : net.cancel d = net' := Except.ok.inj hx
      rcases cancel_cases net d with ⟨-, hp⟩ | ⟨l, -, hp⟩ <;> rw [hp]
      · exact ⟨rfl, rfl⟩
      · exact ⟨rfl, rfl⟩

theorem exec_recorded (h : Recorded net) (henabled : Enabled net label)
    (hx : exec kind net label = .ok net') : Recorded net' where
  queues := h.exec_queue_run hx
  entries := h.exec_entries hx
  homes := h.exec_homes hx
  unattached := by
    intro c hc
    have hold := exec_home_none hx hc
    obtain ⟨hports, hhanded⟩ := h.exec_unattached henabled hx hold
    rw [hports, hhanded]
    exact h.unattached c hold

theorem run_recorded {allow : List (AcceptLabel τ κ ρ) → AcceptNet τ κ ρ → AcceptLabel τ κ ρ → Prop}
    {home : ρ → Option κ} {labels : List (AcceptLabel τ κ ρ)}
    (hrun : (machine τ κ ρ kind).Run allow (new home) labels net) : Recorded net :=
  hrun.state_invariant Recorded (new_recorded home)
    fun _ _ _ _ h _ henabled hx => exec_recorded h henabled hx

end Step

section Effect

theorem movedFrom_updateQueue (net : AcceptNet τ κ ρ) (k : κ) (op : ItemQueue.Op τ ρ ρ)
    (q : ItemQueue τ ρ ρ) : (net.updateQueue k op q).movedFrom =
      Function.update net.movedFrom k (ItemQueue.run (net.calls k ++ [op])).written := by
  funext l
  by_cases hl : l = k
  · subst hl
    simp [movedFrom]
  · simp [movedFrom, updateQueue_call_ne net op q hl, hl]

-- A call that moves nothing.
theorem movedFrom_kept {k : κ} {op : ItemQueue.Op τ ρ ρ} (q : ItemQueue τ ρ ρ)
    (h : (ItemQueue.run (net.calls k ++ [op])).written = (ItemQueue.run (net.calls k)).written) :
    (net.updateQueue k op q).movedFrom = net.movedFrom := by
  rw [movedFrom_updateQueue, h]
  exact Function.update_eq_self k net.movedFrom

omit [DecidableEq κ] in
theorem deliver_movedFrom (net : AcceptNet τ κ ρ) (c : ρ) (item : τ) :
    (net.deliver c item).movedFrom = net.movedFrom := rfl

omit [DecidableEq κ] in
theorem deliver_holder (net : AcceptNet τ κ ρ) (c d : ρ) (item : τ) :
    ((net.deliver c item).ports d).holder =
      if d = c then some item else (net.ports d).holder := by
  by_cases hd : d = c
  · subst hd
    simp [deliver, Port.fill, Port.set]
  · simp [deliver, updatePort_port_ne _ _ hd, hd]

omit [DecidableEq κ] in
theorem setPhase_movedFrom (net : AcceptNet τ κ ρ) (c : ρ) (i : ℕ) (phase : Phase) :
    (net.setPhase c i phase).movedFrom = net.movedFrom := rfl

omit [DecidableEq κ] in
theorem setPhase_holder (net : AcceptNet τ κ ρ) (c d : ρ) (i : ℕ) (phase : Phase) :
    ((net.setPhase c i phase).ports d).holder = (net.ports d).holder := by
  by_cases hd : d = c
  · subst hd
    simp [setPhase]
  · rw [setPhase, updatePort_port_ne _ _ hd]

theorem push_effect (h : Recorded net) (k : κ) (item : τ) :
    Effect net (net.push k item) (.push k item) := by
  rcases push_cases item (h.entries k) with ⟨he, hp⟩ | ⟨entries, c, he, hhome, hp⟩
  · have hrun : (ItemQueue.run (net.calls k)).queue.push item =
        (⟨(net.queues k).items ++ [item], []⟩, none) := by
      rw [← h.queues k, ItemQueue.push_of_nil he]
    rw [hp]
    refine .keeps (by simp [moved, he]) rfl (movedFrom_kept _ ?_) (fun _ => rfl) rfl (by simp)
    simp [ItemQueue.Trace.apply, hrun, ItemQueue.Trace.finish]
  · have hrun : (ItemQueue.run (net.calls k)).queue.push item =
        (⟨(net.queues k).items, entries⟩, some (⟨c, c⟩, item)) := by
      rw [← h.queues k, ItemQueue.push_of_concat he]
    rw [hp]
    refine .moves k c item (by simp [moved, he]) hhome rfl ?_ (deliver_holder _ c · item) rfl
    rw [deliver_movedFrom, movedFrom_updateQueue]
    simp [ItemQueue.Trace.apply, hrun, ItemQueue.Trace.finish, movedFrom]

theorem pop_effect (h : Recorded net) {c : ρ} {i : ℕ} (hx : net.pop c i = .ok net') :
    Effect net net' (.pop c i) := by
  obtain ⟨k, hhome, rfl⟩ := pop_ok hx
  rcases asyncPop_cases net k c with ⟨hi, hp⟩ | ⟨items, item, hi, hp⟩
  · have hrun : (ItemQueue.run (net.calls k)).queue.asyncPop c c =
        (⟨[], (net.queues k).queueEntries ++ [⟨c, c⟩]⟩, none) := by
      rw [← h.queues k, ItemQueue.asyncPop_of_nil hi]
    rw [hp]
    refine .keeps (by simp [moved, hhome, hi]) rfl ?_ (fun d => setPhase_holder _ c d i _) rfl
      (by simp)
    rw [setPhase_movedFrom]
    apply movedFrom_kept
    simp [ItemQueue.Trace.apply, hrun, ItemQueue.Trace.finish]
  · have hrun : (ItemQueue.run (net.calls k)).queue.asyncPop c c =
        (⟨items, (net.queues k).queueEntries⟩, some (⟨c, c⟩, item)) := by
      rw [← h.queues k, ItemQueue.asyncPop_of_concat hi]
    rw [hp]
    refine .moves k c item (by simp [moved, hhome, hi]) hhome rfl ?_ ?_ rfl
    · rw [setPhase_movedFrom, deliver_movedFrom, movedFrom_updateQueue]
      simp [ItemQueue.Trace.apply, hrun, ItemQueue.Trace.finish, movedFrom]
    · intro d
      rw [setPhase_holder, deliver_holder]
      rfl

theorem complete_effect (h : Recorded net) {c : ρ} {i : ℕ} {error : Bool}
    (henabled : Enabled net (.complete c i error))
    (hx : complete .request net c i error = .ok net') :
    Effect net net' (.complete c i error) := by
  obtain rfl : net.handOver c i error none = net' := Except.ok.inj hx
  refine .completes c i error rfl ?_ rfl rfl ?_ rfl
  · cases hhome : net.home c with
    | some k => rfl
    | none =>
        have hport := (h.unattached c hhome).1
        simp [Enabled, hport, Port.new] at henabled
  · intro d
    by_cases hd : d = c
    · subst hd
      simp [handOver]
    · simp [handOver, updatePort, hd]

theorem cancel_effect (net : AcceptNet τ κ ρ) (c : ρ) : Effect net (net.cancel c) (.cancel c) := by
  rcases cancel_cases net c with ⟨-, hp⟩ | ⟨k, -, hp⟩
  · rw [hp]
    exact .keeps rfl rfl rfl (fun _ => rfl) rfl (by simp)
  · rw [hp]
    refine .keeps rfl rfl (movedFrom_kept _ ?_) (fun _ => rfl) rfl (by simp)
    simp [ItemQueue.Trace.apply]

-- The steps of server connections, by what they do to the requests.
theorem exec_effect (h : Recorded net) (henabled : Enabled net label)
    (hx : exec .request net label = .ok net') : Effect net net' label := by
  cases label with
  | attach c k =>
      have hhome := setQueue_checks hx
      obtain rfl := setQueue_ok hx
      exact .attaches c k rfl hhome rfl rfl rfl rfl
  | push k item =>
      obtain rfl : net.push k item = net' := Except.ok.inj hx
      exact push_effect h k item
  | start c =>
      have hempty := (start_checks hx).2 rfl
      obtain rfl := start_ok hx
      refine .keeps rfl rfl rfl ?_ rfl (by simp)
      intro d
      by_cases hd : d = c
      · subst hd
        simp [hempty]
      · rw [updatePort_port_ne _ _ hd]
  | pop c i => exact pop_effect h hx
  | wait c i =>
      obtain rfl : net.wait c i = net' := Except.ok.inj hx
      exact .keeps rfl rfl rfl (fun d => setPhase_holder _ c d i _) rfl (by simp)
  | complete c i error => exact complete_effect h henabled hx
  | cancel c =>
      obtain rfl : net.cancel c = net' := Except.ok.inj hx
      exact cancel_effect net c

end Effect

end FabricRpc.V2.AcceptNet
