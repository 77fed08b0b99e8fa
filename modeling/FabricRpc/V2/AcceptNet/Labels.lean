import FabricRpc.V2.AcceptNet.Sequential

namespace FabricRpc.V2.AcceptNet

variable {τ κ ρ : Type*}

-- The items that the labels push to a queue, in order.
def AcceptLabel.pushed [DecidableEq κ] (k : κ) : AcceptLabel τ κ ρ → Option τ
  | .push l item => if l = k then some item else none
  | _ => none

def pushedTo [DecidableEq κ] (k : κ) (labels : List (AcceptLabel τ κ ρ)) : List τ :=
  labels.filterMap (AcceptLabel.pushed k)

-- The call that a step makes on a queue.
def called [DecidableEq κ] (net : AcceptNet τ κ ρ) (k : κ) :
    AcceptLabel τ κ ρ → List (ItemQueue.Op τ ρ ρ)
  | .push l item => if l = k then [.push item] else []
  | .pop c _ => if net.home c = some k then [.asyncPop c c] else []
  | .cancel c => if net.home c = some k then [.cancel c] else []
  | _ => []

theorem called_pushes [DecidableEq κ] (net : AcceptNet τ κ ρ) (k : κ) (label : AcceptLabel τ κ ρ) :
    ItemQueue.pushes (net.called k label) = pushedTo k [label] := by
  cases label with
  | push l item => by_cases hl : l = k <;> simp [called, hl, pushedTo, AcceptLabel.pushed]
  | pop c i => by_cases hc : net.home c = some k <;> simp [called, hc, pushedTo, AcceptLabel.pushed]
  | cancel c =>
      by_cases hc : net.home c = some k <;> simp [called, hc, pushedTo, AcceptLabel.pushed]
  | _ => rfl

theorem finish_calls [DecidableEq ρ] (net : AcceptNet τ κ ρ)
    (finished : Option (QueueEntry ρ ρ × τ)) :
    (net.finish finished).calls = net.calls := by
  cases finished <;> rfl

theorem finish_queues [DecidableEq ρ] (net : AcceptNet τ κ ρ)
    (finished : Option (QueueEntry ρ ρ × τ)) : (net.finish finished).queues = net.queues := by
  cases finished <;> rfl

theorem finish_home [DecidableEq ρ] (net : AcceptNet τ κ ρ)
    (finished : Option (QueueEntry ρ ρ × τ)) : (net.finish finished).home = net.home := by
  cases finished <;> rfl

theorem finish_handed [DecidableEq ρ] (net : AcceptNet τ κ ρ)
    (finished : Option (QueueEntry ρ ρ × τ)) : (net.finish finished).handed = net.handed := by
  cases finished <;> rfl

theorem calls_updateQueue [DecidableEq κ] (net : AcceptNet τ κ ρ) (k l : κ)
    (op : ItemQueue.Op τ ρ ρ)
    (q : ItemQueue τ ρ ρ) :
    (net.updateQueue l op q).calls k = net.calls k ++ if l = k then [op] else [] := by
  by_cases hl : l = k
  · subst hl
    simp
  · have hkl : k ≠ l := fun hkl => hl hkl.symm
    simp [updateQueue_call_ne net op q hkl, hl]

section Push

variable [DecidableEq κ] [DecidableEq ρ] (net : AcceptNet τ κ ρ) (k : κ) (item : τ)

theorem push_home : (net.push k item).home = net.home := by
  simp [push, finish_home]

theorem push_handed : (net.push k item).handed = net.handed := by
  simp [push, finish_handed]

theorem push_calls (l : κ) : (net.push k item).calls l =
    net.calls l ++ if k = l then [.push item] else [] := by
  simp [push, finish_calls, calls_updateQueue]

theorem push_pushes (l : κ) : ItemQueue.pushes ((net.push k item).calls l) =
    ItemQueue.pushes (net.calls l) ++ if k = l then [item] else [] := by
  rw [push_calls, ItemQueue.pushes_append]
  split <;> simp

theorem push_queue_ne {l : κ} (hl : l ≠ k) : (net.push k item).queues l = net.queues l := by
  simp [push, finish_queues, updateQueue_queue_ne net _ _ hl]

end Push

section Inversion

variable {net net' : AcceptNet τ κ ρ} {c : ρ}

theorem setQueue_ok [DecidableEq ρ] {k : κ} (hx : net.setQueue c k = .ok net') :
    net' = { net with home := Function.update net.home c (some k) } := by
  unfold setQueue at hx
  split at hx
  · exact absurd hx (by simp)
  · exact (Except.ok.inj hx).symm

theorem start_ok [DecidableEq ρ] {kind : AcceptKind} (hx : start kind net c = .ok net') :
    net' = net.updatePort c fun p =>
      { p.reset with holder := none, accepts := p.accepts ++ [.started] } := by
  unfold start at hx
  split at hx
  · exact absurd hx (by simp)
  · split at hx
    · exact absurd hx (by simp)
    · exact (Except.ok.inj hx).symm

-- An accept starts only on an object with a queue, and asserts an empty holder
-- on a server connection.
theorem start_checks [DecidableEq ρ] {kind : AcceptKind} (hx : start kind net c = .ok net') :
    (net.home c).isSome ∧ (kind = .request → (net.ports c).holder = none) := by
  unfold start at hx
  split at hx
  · exact absurd hx (by simp)
  · rename_i k hhome
    refine ⟨by simp [hhome], ?_⟩
    rintro rfl
    split at hx
    · exact absurd hx (by simp)
    · rename_i hnot
      cases hholder : (net.ports c).holder with
      | none => rfl
      | some item => exact (hnot item rfl hholder).elim

theorem setQueue_checks [DecidableEq ρ] {k : κ} (hx : net.setQueue c k = .ok net') :
    net.home c = none := by
  unfold setQueue at hx
  split at hx
  · exact absurd hx (by simp)
  · assumption

theorem pop_ok [DecidableEq κ] [DecidableEq ρ] {i : ℕ} (hx : net.pop c i = .ok net') :
    ∃ k, net.home c = some k ∧ net' = (net.asyncPop k c).setPhase c i .popped := by
  unfold pop at hx
  split at hx
  · exact absurd hx (by simp)
  · rename_i k hhome
    exact ⟨k, hhome, (Except.ok.inj hx).symm⟩

theorem complete_ok [DecidableEq ρ] {kind : AcceptKind} {i : ℕ} {error : Bool}
    (hx : complete kind net c i error = .ok net') :
    ∃ rest, net' = net.handOver c i error rest := by
  unfold complete at hx
  split at hx
  · exact ⟨_, (Except.ok.inj hx).symm⟩
  · exact absurd hx (by simp)
  · exact ⟨_, (Except.ok.inj hx).symm⟩

theorem cancel_cases [DecidableEq κ] [DecidableEq ρ] (net : AcceptNet τ κ ρ) (c : ρ) :
    (net.home c = none ∧ net.cancel c = net) ∨
    ∃ k, net.home c = some k ∧
      net.cancel c = net.updateQueue k (.cancel c) ((net.queues k).cancel c) := by
  unfold cancel
  split
  · rename_i hhome
    exact .inl ⟨hhome, rfl⟩
  · rename_i k hhome
    exact .inr ⟨k, hhome, rfl⟩

end Inversion

section Record

variable [DecidableEq κ] [DecidableEq ρ] {net net' : AcceptNet τ κ ρ} {kind : AcceptKind}
  {label : AcceptLabel τ κ ρ}

-- What a step does besides what it does to the accepting objects: it makes its
-- calls on the queues, and each part of the rest is touched by one kind of step.
structure Stepped (net net' : AcceptNet τ κ ρ) (label : AcceptLabel τ κ ρ) : Prop where
  queues : ∀ k, net'.queues k = (net.called k label).foldl ItemQueue.call (net.queues k)
  calls : ∀ k, net'.calls k = net.calls k ++ net.called k label
  home : (∀ c k, label ≠ .attach c k) → net'.home = net.home
  handed : (∀ c i error, label ≠ .complete c i error) → net'.handed = net.handed

-- One call on one queue.
theorem Stepped.of_call {l : κ} {op : ItemQueue.Op τ ρ ρ}
    (hcalled : ∀ k, net.called k label = if l = k then [op] else [])
    (hqueues : net'.queues = (net.updateQueue l op ((net.queues l).call op)).queues)
    (hcalls : net'.calls = (net.updateQueue l op ((net.queues l).call op)).calls)
    (hhome : net'.home = net.home) (hhanded : net'.handed = net.handed) :
    Stepped net net' label where
  queues := by
    intro k
    rw [hqueues, hcalled]
    by_cases hl : l = k
    · subst hl
      simp
    · rw [updateQueue_queue_ne net _ _ (Ne.symm hl), if_neg hl, List.foldl_nil]
  calls := by
    intro k
    rw [hcalls, hcalled]
    by_cases hl : l = k
    · subst hl
      simp
    · rw [updateQueue_call_ne net _ _ (Ne.symm hl), if_neg hl, List.append_nil]
  home := fun _ => hhome
  handed := fun _ => hhanded

theorem Stepped.of_none (hcalled : ∀ k, net.called k label = [])
    (hqueues : net'.queues = net.queues)
    (hcalls : net'.calls = net.calls) (hhome : (∀ c k, label ≠ .attach c k) → net'.home = net.home)
    (hhanded : (∀ c i error, label ≠ .complete c i error) → net'.handed = net.handed) :
    Stepped net net' label where
  queues := fun k => by rw [hqueues, hcalled, List.foldl_nil]
  calls := fun k => by rw [hcalls, hcalled, List.append_nil]
  home := hhome
  handed := hhanded

theorem exec_stepped (hx : exec kind net label = .ok net') : Stepped net net' label := by
  cases label with
  | attach c l =>
      obtain rfl := setQueue_ok hx
      exact .of_none (fun _ => rfl) rfl rfl (fun h => absurd rfl (h c l)) (fun _ => rfl)
  | push l item =>
      obtain rfl : net.push l item = net' := Except.ok.inj hx
      exact .of_call (fun _ => rfl) (finish_queues _ _) (finish_calls _ _) (push_home net l item)
        (push_handed net l item)
  | start c =>
      obtain rfl := start_ok hx
      exact .of_none (fun _ => rfl) rfl rfl (fun _ => rfl) (fun _ => rfl)
  | pop c i =>
      obtain ⟨l, hhome, rfl⟩ := pop_ok hx
      exact .of_call (by simp [called, hhome]) (finish_queues _ _) (finish_calls _ _)
        (finish_home _ _) (finish_handed _ _)
  | wait c i =>
      obtain rfl : net.wait c i = net' := Except.ok.inj hx
      exact .of_none (fun _ => rfl) rfl rfl (fun _ => rfl) (fun _ => rfl)
  | complete c i error =>
      obtain ⟨rest, rfl⟩ := complete_ok hx
      exact .of_none (fun _ => rfl) rfl rfl (fun _ => rfl) (fun h => absurd rfl (h c i error))
  | cancel c =>
      obtain rfl : net.cancel c = net' := Except.ok.inj hx
      rcases cancel_cases net c with ⟨hhome, hc⟩ | ⟨l, hhome, hc⟩
      · rw [hc]
        exact .of_none (by simp [called, hhome]) rfl rfl (fun _ => rfl) (fun _ => rfl)
      · rw [hc]
        exact .of_call (by simp [called, hhome]) rfl rfl rfl rfl

theorem exec_calls (hx : exec kind net label = .ok net') (k : κ) :
    net'.calls k = net.calls k ++ net.called k label := (exec_stepped hx).calls k

-- A step changes a queue by the calls that it makes on it.
theorem exec_queues (hx : exec kind net label = .ok net') (k : κ) :
    net'.queues k = (net.called k label).foldl ItemQueue.call (net.queues k) :=
  (exec_stepped hx).queues k

-- Only a call of set_queue attaches an object.
theorem exec_home (hx : exec kind net label = .ok net') (hattach : ∀ c k, label ≠ .attach c k) :
    net'.home = net.home := (exec_stepped hx).home hattach

-- Only the end of a wait calls a handler.
theorem exec_handed (hx : exec kind net label = .ok net')
    (hcomplete : ∀ c i error, label ≠ .complete c i error) : net'.handed = net.handed :=
  (exec_stepped hx).handed hcomplete

-- A step pushes to a queue what its label says.
theorem exec_pushes (hx : exec kind net label = .ok net') (k : κ) :
    ItemQueue.pushes (net'.calls k) = ItemQueue.pushes (net.calls k) ++ pushedTo k [label] := by
  rw [exec_calls hx, ItemQueue.pushes_append, called_pushes]

theorem run_pushes {labels : List (AcceptLabel τ κ ρ)}
    {allow : List (AcceptLabel τ κ ρ) → AcceptNet τ κ ρ → AcceptLabel τ κ ρ → Prop}
    {home : ρ → Option κ} (hrun : (machine τ κ ρ kind).Run allow (new home) labels net) (k : κ) :
    ItemQueue.pushes (net.calls k) = pushedTo k labels := by
  apply hrun.invariant fun labels net => ItemQueue.pushes (net.calls k) = pushedTo k labels
  · rfl
  · intro labels net label net' h _ _ hx
    rw [exec_pushes hx k, h, pushedTo, pushedTo, pushedTo, List.filterMap_append]

end Record

end FabricRpc.V2.AcceptNet
