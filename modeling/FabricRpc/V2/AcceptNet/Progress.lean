import FabricRpc.V2.AcceptNet.FailedInOrder

namespace FabricRpc.V2.AcceptNet

variable {τ κ ρ : Type*} [DecidableEq κ] [DecidableEq ρ] {kind : AcceptKind}
  {net net' : AcceptNet τ κ ρ} {label : AcceptLabel τ κ ρ} {c : ρ}

omit [DecidableEq κ] [DecidableEq ρ] in
theorem started_mem_set {p : Port τ} : .started ∈ p.set.accepts ↔ .started ∈ p.accepts := by
  have hwake (phase : Phase) : phase.wake = .started ↔ phase = .started := by
    cases phase <;> simp [Phase.wake]
  simp [Port.set, hwake]

-- The object is the one at the back of its queue.
def AtBack (net : AcceptNet τ κ ρ) (k : κ) (c : ρ) : Prop :=
  net.home c = some k ∧ ∃ entries, (net.queues k).queueEntries = entries ++ [⟨c, c⟩]

omit [DecidableEq κ] [DecidableEq ρ] in
theorem AtBack.waits {k : κ} (h : net.AtBack k c) : net.Waits c := by
  obtain ⟨hhome, entries, he⟩ := h
  exact ⟨k, hhome, by simp [waiters, he]⟩

theorem cancel_ports (net : AcceptNet τ κ ρ) (c : ρ) : (net.cancel c).ports = net.ports := by
  rcases cancel_cases net c with ⟨-, hp⟩ | ⟨k, -, hp⟩ <;> rw [hp]
  rfl

-- An object registers under its own event.
omit [DecidableEq κ] in
theorem InTime.entry_eq (h : InTime kind net) {k : κ} {e : QueueEntry ρ ρ}
    (he : e ∈ (net.queues k).queueEntries) : e = ⟨e.item, e.item⟩ := by
  have hevent := (h.entries k e he).1
  cases e
  exact congrArg (QueueEntry.mk · _) hevent

-- An object stops to wait when an item is moved to its holder, or by its own cancel
-- at the back of the queue.
theorem InTime.stops_waiting (h : InTime kind net) (hx : exec kind net label = .ok net')
    (hwaits : net.Waits c) (hstops : ¬net'.Waits c) :
    (net'.ports c).holder.isSome ∨ label = .cancel c ∧ ∃ k, net.AtBack k c := by
  obtain ⟨k, hhome, hmem⟩ := hwaits
  have hgone : c ∉ net'.waiters k := fun hmem => hstops ⟨k, exec_home_some hx hhome, hmem⟩
  rw [waiters, exec_queues hx] at hgone
  have hkept (hcalled : net.called k label = []) : False := hgone (by rwa [hcalled])
  cases label with
  | push l item =>
      by_cases hl : l = k
      · subst hl
        obtain rfl : net.push l item = net' := Except.ok.inj hx
        rcases push_cases item (h.entries l) with ⟨hnil, -⟩ | ⟨entries, d, he, -, hp⟩
        · simp [waiters, hnil] at hmem
        · have hc : c = d := by
            rw [waiters, he, List.map_append, List.mem_append] at hmem
            refine List.mem_singleton.mp (hmem.resolve_left ?_)
            simpa [called, ItemQueue.call, ItemQueue.push_of_concat he] using hgone
          rw [hp, deliver_holder, if_pos hc]
          exact .inl rfl
      · exact (hkept (by simp [called, hl])).elim
  | pop d i =>
      by_cases hd : net.home d = some k
      · simp only [called, hd, if_true, List.foldl_cons, List.foldl_nil, ItemQueue.call] at hgone
        rcases ItemQueue.asyncPop_cases (net.queues k) d d with ⟨-, hp⟩ | ⟨items, item, -, hp⟩
        · rw [hp, List.map_append, List.mem_append] at hgone
          exact absurd (.inl hmem) hgone
        · rw [hp] at hgone
          exact absurd hmem hgone
      · exact (hkept (by simp [called, hd])).elim
  | cancel d =>
      by_cases hd : net.home d = some k
      · simp only [called, hd, if_true, List.foldl_cons, List.foldl_nil, ItemQueue.call] at hgone
        rcases ItemQueue.cancel_cases (net.queues k) d with hc | ⟨entries, e, he, hevent, hc⟩
        · rw [hc] at hgone
          exact absurd hmem hgone
        · have hlast : e ∈ (net.queues k).queueEntries := by simp [he]
          have heta := h.entry_eq hlast
          rw [waiters, he, List.map_append, List.mem_append] at hmem
          rw [hc] at hgone
          obtain rfl : c = e.item := List.mem_singleton.mp (hmem.resolve_left hgone)
          have hcancel : d = e.item := hevent.symm.trans (congrArg QueueEntry.event heta)
          exact .inr ⟨congrArg _ hcancel, k, hhome, entries, heta ▸ he⟩
      · exact (hkept (by simp [called, hd])).elim
  | attach d l => exact (hkept rfl).elim
  | start d => exact (hkept rfl).elim
  | wait d i => exact (hkept rfl).elim
  | complete d i error => exact (hkept rfl).elim

theorem InTime.cancel_stops (h : InTime kind net) {k : κ} (hback : net.AtBack k c) :
    ¬(net.cancel c).Waits c := by
  obtain ⟨hhome, entries, he⟩ := hback
  have hcancel : net.cancel c =
      net.updateQueue k (.cancel c) ⟨(net.queues k).items, entries⟩ := by
    simp [cancel, hhome, ItemQueue.cancel, he]
  have hnodup := h.nodup k
  rw [waiters, he, List.map_append, List.nodup_append] at hnodup
  rw [hcancel, waits_updateQueue, if_pos hhome]
  exact fun hmem => hnodup.2.2 c hmem c (List.mem_singleton_self _) rfl

end FabricRpc.V2.AcceptNet

namespace FabricRpc.V2.Tagged

open AcceptNet (Enabled InOrder AtBack)

variable {τ κ ρ : Type*} [DecidableEq κ] [DecidableEq ρ] {kind : AcceptKind}
  {s s' : Tagged τ κ ρ} {label : AcceptLabel τ κ ρ} {labels : List (AcceptLabel τ κ ρ)}
  {net : AcceptNet τ κ ρ} {c : ρ}

-- A cancel takes out the accept under way on its object, which is at the back.
theorem Owned.cancelling_iff (h : Owned kind labels s) {a : ℕ} :
    s.cancelling label = some a ↔
      ∃ c k, label = .cancel c ∧ s.net.AtBack k c ∧ a ∈ s.accepts c := by
  constructor
  · intro hcancelling
    cases label with
    | cancel c =>
        obtain ⟨k, hhome, hlast⟩ := Option.bind_eq_some_iff.mp hcancelling
        split at hlast
        · rename_i hback
          obtain ⟨e, he, hevent⟩ := (Option.any_eq_true _ _).mp hback
          obtain ⟨entries, hentries⟩ := List.getLast?_eq_some_iff.mp he
          have heta := h.inTime.entry_eq (List.mem_of_getLast? he)
          obtain ⟨b, hb, hnumber⟩ := h.back hentries
          obtain rfl : a = b := Option.some.inj (hlast.symm.trans hnumber)
          obtain rfl : e.item = c :=
            (congrArg QueueEntry.event heta).symm.trans (of_decide_eq_true hevent)
          exact ⟨e.item, k, rfl, ⟨hhome, entries, heta ▸ hentries⟩, hb⟩
        · exact absurd hlast (by simp)
    | _ => exact absurd hcancelling (by simp [cancelling])
  · rintro ⟨c, k, rfl, ⟨hhome, entries, hback⟩, ha⟩
    obtain ⟨b, hb, hnumber⟩ := h.back hback
    obtain rfl := h.eq_of_mem ha hb
    simp [cancelling, hhome, hback, hnumber]

-- What a step does to an object and its accepts, as far as the registration goes.
inductive Progress (s s' : Tagged τ κ ρ) (c : ρ) : Prop
  | keeps (hsame : s'.accepts c = s.accepts c)
      (hstarted : .started ∈ (s'.net.ports c).accepts ↔ .started ∈ (s.net.ports c).accepts)
      (hholder : (s'.net.ports c).holder = (s.net.ports c).holder)
      (hwaits : s'.net.Waits c → s.net.Waits c)
  | fills (hsame : s'.accepts c = s.accepts c)
      (hstarted : .started ∈ (s'.net.ports c).accepts ↔ .started ∈ (s.net.ports c).accepts)
      (hholder : (s'.net.ports c).holder.isSome) (hwaits : s'.net.Waits c → s.net.Waits c)
  | starts (hnew : s'.accepts c = [s.next]) (hstarted : .started ∈ (s'.net.ports c).accepts)
  | pops (hsame : s'.accepts c = s.accepts c) (hold : .started ∈ (s.net.ports c).accepts)
      (hserved : s'.net.Waits c ∨ (s'.net.ports c).holder.isSome)
  | ends (hnone : s'.accepts c = [])

omit [DecidableEq κ] in
theorem advance_accepts_ne (s : Tagged τ κ ρ) (net : AcceptNet τ κ ρ) (hstart : label ≠ .start c)
    (hcomplete : ∀ i error, label ≠ .complete c i error) :
    (s.advance label net).accepts c = s.accepts c := by
  cases label with
  | start d =>
      have hd : c ≠ d := fun hd => hstart (hd ▸ rfl)
      simp [advance, hd]
  | complete d i error =>
      have hd : c ≠ d := fun hd => hcomplete i error (hd ▸ rfl)
      simp [advance, hd]
  | _ => rfl

-- A step that leaves the port alone.
theorem Owned.keeps (h : Owned kind labels s) (hx : AcceptNet.exec kind s.net label = .ok net)
    (hstart : label ≠ .start c) (hcomplete : ∀ i error, label ≠ .complete c i error)
    (hpop : ∀ i, label ≠ .pop c i) (hport : net.ports c = s.net.ports c) :
    Progress s (s.advance label net) c := by
  have hport : (s.advance label net).net.ports c = s.net.ports c := hport
  refine .keeps (advance_accepts_ne s net hstart hcomplete) ?_ ?_
    (h.inTime.toRecorded.exec_waits hx hpop)
  · rw [hport]
  · rw [hport]

theorem Owned.exec_progress (h : Owned kind labels s) (horder : InOrder s.net label)
    (henabled : Enabled s.net label) (hx : AcceptNet.exec kind s.net label = .ok net) (c : ρ) :
    Progress s (s.advance label net) c := by
  cases label with
  | attach d l =>
      obtain rfl := AcceptNet.setQueue_ok hx
      exact h.keeps hx (by simp) (by simp) (by simp) rfl
  | push l item =>
      obtain rfl : s.net.push l item = net := Except.ok.inj hx
      rcases AcceptNet.push_cases item (h.inTime.entries l) with ⟨-, hp⟩ | ⟨entries, d, -, -, hp⟩
      · exact h.keeps hx (by simp) (by simp) (by simp) (by rw [hp]; rfl)
      · by_cases hc : c = d
        · subst hc
          have hport : (s.net.push l item).ports c = ((s.net.ports c).fill item).set := by
            rw [hp, AcceptNet.deliver, AcceptNet.updatePort_port]
            rfl
          have hwaits := h.inTime.toRecorded.exec_waits (c := c) hx (by simp)
          refine .fills rfl ?_ ?_ hwaits
          · show _ ∈ ((s.net.push l item).ports c).accepts ↔ _
            rw [hport, AcceptNet.started_mem_set]
            rfl
          · show ((s.net.push l item).ports c).holder.isSome
            rw [hport]
            rfl
        · exact h.keeps hx (by simp) (by simp) (by simp)
            (by rw [hp]; exact AcceptNet.updatePort_port_ne _ _ hc)
  | start d =>
      obtain rfl := AcceptNet.start_ok hx
      by_cases hc : c = d
      · subst hc
        refine .starts ?_ (by simp [advance])
        have hnone : s.accepts c = [] := by
          rw [← List.length_eq_zero_iff, h.numbered.accepts, horder.2]
          rfl
        simp [advance, hnone]
      · exact h.keeps hx (fun heq => hc (AcceptLabel.start.inj heq).symm) (by simp) (by simp)
          (AcceptNet.updatePort_port_ne _ _ hc)
  | pop d i =>
      by_cases hc : c = d
      · subst hc
        refine .pops rfl (List.mem_of_getElem? henabled) ?_
        obtain ⟨k, hhome, rfl⟩ := AcceptNet.pop_ok hx
        rcases AcceptNet.asyncPop_cases s.net k c with ⟨-, hp⟩ | ⟨items, item, -, hp⟩
        · refine .inl ⟨k, AcceptNet.exec_home_some hx hhome, ?_⟩
          simp [advance, hp, AcceptNet.waiters, AcceptNet.setPhase]
        · refine .inr ?_
          show (((s.net.asyncPop k c).setPhase c i .popped).ports c).holder.isSome
          rw [AcceptNet.setPhase_holder, hp, AcceptNet.deliver_holder, if_pos rfl]
          rfl
      · refine h.keeps hx (by simp) (by simp) (fun j heq => hc (AcceptLabel.pop.inj heq).1.symm) ?_
        obtain ⟨k, -, rfl⟩ := AcceptNet.pop_ok hx
        rw [AcceptNet.setPhase, AcceptNet.updatePort_port_ne _ _ hc]
        rcases AcceptNet.asyncPop_cases s.net k d with ⟨-, hp⟩ | ⟨items, item, -, hp⟩
        · rw [hp]
          rfl
        · rw [hp]
          exact AcceptNet.updatePort_port_ne _ _ hc
  | wait d i =>
      obtain rfl : s.net.wait d i = net := Except.ok.inj hx
      by_cases hc : c = d
      · subst hc
        obtain ⟨rfl, hphases⟩ := (h.inTime.ports c).accepts_eq henabled
        refine .keeps rfl ?_ (AcceptNet.setPhase_holder s.net c c 0 _)
          (h.inTime.toRecorded.exec_waits hx (by simp))
        simp [advance, AcceptNet.wait, AcceptNet.setPhase, hphases]
      · refine h.keeps hx (by simp) (by simp) (by simp) ?_
        rw [AcceptNet.wait, AcceptNet.setPhase, AcceptNet.updatePort_port_ne _ _ hc]
  | complete d i error =>
      obtain ⟨rest, rfl⟩ := AcceptNet.complete_ok hx
      by_cases hc : c = d
      · subst hc
        obtain ⟨fired, hi, -⟩ := henabled
        obtain ⟨rfl, hphases⟩ := (h.inTime.ports c).accepts_eq hi
        obtain ⟨a, ha⟩ := List.length_eq_one_iff.mp
          (show (s.accepts c).length = 1 by rw [h.numbered.accepts, hphases]; rfl)
        exact .ends (by simp [advance, ha])
      · refine h.keeps hx (by simp) (fun j e heq => hc (AcceptLabel.complete.inj heq).1.symm)
          (by simp) ?_
        simp [AcceptNet.handOver, AcceptNet.updatePort, hc]
  | cancel d =>
      obtain rfl : s.net.cancel d = net := Except.ok.inj hx
      exact h.keeps hx (by simp) (by simp) (by simp)
        (congrFun (AcceptNet.cancel_ports s.net d) c)

end FabricRpc.V2.Tagged
