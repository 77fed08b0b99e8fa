import FabricRpc.V2.AcceptNet.Overlap

namespace FabricRpc.V2.AcceptNet

variable {τ κ ρ : Type*}

-- How the accepting loops use an object: it gets its queue once and before its
-- first accept, and the next accept starts after the handler of the previous one
-- was called. Waits may fail at any time, and objects may be cancelled.
def InOrder (net : AcceptNet τ κ ρ) : AcceptLabel τ κ ρ → Prop
  | .attach c _ => net.home c = none
  | .start c => (net.home c).isSome ∧ (net.ports c).accepts = []
  | _ => True

-- The shared fields of an object that runs one accept at a time. It may be
-- removed from its queue before it was served.
structure InStep (kind : AcceptKind) (p : Port τ) (waits : Prop) : Prop where
  one : p.accepts.length ≤ 1
  idle : p.accepts = [] → ¬waits ∧ (kind = .request → p.holder = none)
  started : .started ∈ p.accepts → ¬waits ∧ p.holder = none ∧ p.ev = false
  waiting : waits → p.holder = none
  popped : .popped ∈ p.accepts → p.ev = true → p.holder.isSome
  fired : .waiting true ∈ p.accepts → p.holder.isSome
  woken : p.holder.isSome → .waiting false ∉ p.accepts ∧ (.popped ∈ p.accepts → p.ev = true)

section Ports

variable {kind : AcceptKind} {p : Port τ} {waits waits' : Prop}

theorem InStep.mono (h : InStep kind p waits) (hw : waits' → waits) : InStep kind p waits' where
  one := h.one
  idle := fun ha => ⟨fun hnew => (h.idle ha).1 (hw hnew), (h.idle ha).2⟩
  started := fun ha => ⟨fun hnew => (h.started ha).1 (hw hnew), (h.started ha).2⟩
  waiting := fun hnew => h.waiting (hw hnew)
  popped := h.popped
  fired := h.fired
  woken := h.woken

theorem InStep.accepts_eq {i : ℕ} {phase : Phase} (h : InStep kind p waits)
    (hi : p.accepts[i]? = some phase) : i = 0 ∧ p.accepts = [phase] := by
  obtain ⟨hlt, hget⟩ := List.getElem?_eq_some_iff.mp hi
  have hone := h.one
  obtain rfl : i = 0 := by omega
  obtain ⟨only, honly⟩ := List.length_eq_one_iff.mp (show p.accepts.length = 1 by omega)
  refine ⟨rfl, ?_⟩
  simp only [honly, List.getElem_cons_zero] at hget
  rw [honly, hget]

-- An item fills the slot of an accept that was waiting for one.
theorem InStep.deliver (item : τ) (h : InStep kind p True) (hw : ¬waits) :
    InStep kind (p.fill item).set waits where
  one := by simpa [Port.fill, Port.set] using h.one
  idle := fun ha => absurd trivial (h.idle (by simpa [Port.fill, Port.set] using ha)).1
  started := by
    intro ha
    obtain ⟨phase, hphase, hwake⟩ := List.mem_map.mp ha
    cases phase with
    | started => exact absurd trivial (h.started hphase).1
    | popped => cases hwake
    | waiting fired => cases hwake
  waiting := fun hwaits => absurd hwaits hw
  popped := fun _ _ => rfl
  fired := fun _ => rfl
  woken := by
    refine fun _ => ⟨fun ha => ?_, fun _ => rfl⟩
    obtain ⟨phase, -, hwake⟩ := List.mem_map.mp ha
    cases phase <;> cases hwake

end Ports

section Step

variable [DecidableEq κ] [DecidableEq ρ] {kind : AcceptKind} {net net' : AcceptNet τ κ ρ}
  {label : AcceptLabel τ κ ρ} {c : ρ} {i : ℕ}

structure InTime (kind : AcceptKind) (net : AcceptNet τ κ ρ) : Prop extends Recorded net where
  nodup : ∀ k, (net.waiters k).Nodup
  ports : ∀ c, InStep kind (net.ports c) (net.Waits c)

-- An object starts to wait by its own pop only.
theorem Recorded.exec_waits (hr : Recorded net) (hx : exec kind net label = .ok net')
    (hpop : ∀ i, label ≠ .pop c i) (hwaits : net'.Waits c) : net.Waits c := by
  obtain ⟨k, -, hmem⟩ := hwaits
  have hold : c ∈ net.waiters k := by
    rcases exec_queueEntries hx k with hpre | ⟨d, i, rfl, -, hgrow⟩
    · exact (hpre.map QueueEntry.item).subset hmem
    · rw [waiters, hgrow, List.map_append, List.mem_append] at hmem
      rcases hmem with hmem | hmem
      · exact hmem
      · obtain rfl := List.mem_singleton.mp hmem
        exact absurd rfl (hpop i)
  obtain ⟨e, he, rfl⟩ := List.mem_map.mp hold
  exact ⟨k, (hr.entries k e he).2, hold⟩

-- The waiters of a queue stay apart, because an object that is about to pop
-- does not wait yet.
theorem InTime.exec_nodup (h : InTime kind net) (henabled : Enabled net label)
    (hx : exec kind net label = .ok net') (k : κ) : (net'.waiters k).Nodup := by
  rcases exec_queueEntries hx k with hpre | ⟨c, i, rfl, hhome, hgrow⟩
  · exact (h.nodup k).sublist (hpre.map QueueEntry.item).sublist
  · have hstarted : Phase.started ∈ (net.ports c).accepts := List.mem_of_getElem? henabled
    have hnot : c ∉ net.waiters k :=
      fun hmem => ((h.ports c).started hstarted).1 ((waits_of_home hhome).mpr hmem)
    rw [waiters, hgrow, List.map_append, List.nodup_append]
    refine ⟨h.nodup k, List.nodup_singleton _, ?_⟩
    rintro d hd b hb rfl
    rw [List.mem_singleton.mp hb] at hd
    exact hnot hd

-- A step that touches one port leaves the others in step.
theorem InTime.of_port (h : InTime kind net) (henabled : Enabled net label)
    (hx : exec kind net label = .ok net') (hpop : ∀ d i, label = .pop d i → d = c)
    (hothers : ∀ d, d ≠ c → net'.ports d = net.ports d)
    (hport : InStep kind (net'.ports c) (net'.Waits c)) : InTime kind net' where
  toRecorded := exec_recorded h.toRecorded henabled hx
  nodup := h.exec_nodup henabled hx
  ports := by
    intro d
    by_cases hd : d = c
    · subst hd
      exact hport
    · rw [hothers d hd]
      apply (h.ports d).mono
      exact h.toRecorded.exec_waits hx fun i hlabel => hd (hpop d i hlabel)

-- A step that touches no port.
theorem InTime.of_same (h : InTime kind net) (henabled : Enabled net label)
    (hx : exec kind net label = .ok net') (hpop : ∀ d i, label ≠ .pop d i)
    (hports : net'.ports = net.ports) : InTime kind net' where
  toRecorded := exec_recorded h.toRecorded henabled hx
  nodup := h.exec_nodup henabled hx
  ports := by
    intro d
    rw [hports]
    exact (h.ports d).mono (h.toRecorded.exec_waits hx (hpop d))

theorem push_inTime (h : InTime kind net) (k : κ) (item : τ) : InTime kind (net.push k item) := by
  have hx : exec kind net (.push k item) = .ok (net.push k item) := rfl
  have henabled : Enabled net (.push k item) := trivial
  rcases push_cases item (h.entries k) with ⟨-, hp⟩ | ⟨entries, c, he, hhome, hp⟩
  · exact h.of_same henabled hx (by simp) (by rw [hp]; rfl)
  · have hnodup := h.nodup k
    rw [waiters, he, List.map_append, List.nodup_append] at hnodup
    have hgone : ¬(net.push k item).Waits c := by
      rintro ⟨l, hl, hmem⟩
      rw [push_home, hhome] at hl
      obtain rfl := Option.some.inj hl
      rw [hp, waiters, deliver, updatePort_queues, updateQueue_queue] at hmem
      exact hnodup.2.2 c hmem c (List.mem_singleton_self _) rfl
    have hwaits : net.Waits c := ⟨k, hhome, by simp [waiters, he]⟩
    have hport := h.ports c
    simp only [hwaits] at hport
    apply h.of_port henabled hx (c := c) (by simp)
    · intro d hd
      rw [hp]
      exact updatePort_port_ne _ _ hd
    · have hfilled : (net.push k item).ports c = ((net.ports c).fill item).set := by
        rw [hp, deliver, updatePort_port]
        rfl
      rw [hfilled]
      exact hport.deliver item hgone

theorem start_inTime (h : InTime kind net) (hhome : (net.home c).isSome)
    (hidle : (net.ports c).accepts = []) :
    ∃ net', exec kind net (.start c) = .ok net' ∧ InTime kind net' := by
  obtain ⟨hwaits, hholder⟩ := (h.ports c).idle hidle
  obtain ⟨k, hk⟩ := Option.isSome_iff_exists.mp hhome
  have hx : exec kind net (.start c) = .ok (net.updatePort c fun p =>
      { p.reset with holder := none, accepts := p.accepts ++ [.started] }) := by
    cases kind with
    | request => simp [exec, start, hk, hholder rfl]
    | connection => simp [exec, start, hk]
  have henabled : Enabled net (.start c) := trivial
  refine ⟨_, hx, h.of_port henabled hx (c := c) (by simp) ?_ ?_⟩
  · exact fun d hd => updatePort_port_ne _ _ hd
  · rw [updatePort_port, waits_updatePort, hidle]
    exact ⟨by simp, by simp, by simpa [Port.reset] using hwaits, fun _ => rfl, by simp, by simp,
      by simp⟩

theorem pop_inTime (h : InTime kind net) (henabled : Enabled net (.pop c i)) :
    ∃ net', exec kind net (.pop c i) = .ok net' ∧ InTime kind net' := by
  obtain ⟨rfl, ha⟩ := (h.ports c).accepts_eq henabled
  obtain ⟨hwaits, hholder, hev⟩ := (h.ports c).started (List.mem_of_getElem? henabled)
  obtain ⟨k, hk⟩ : ∃ k, net.home c = some k := by
    cases hhome : net.home c with
    | some k => exact ⟨k, rfl⟩
    | none => simp [(h.unattached c hhome).1, Port.new] at ha
  have hx : exec kind net (.pop c 0) = .ok ((net.asyncPop k c).setPhase c 0 .popped) := by
    simp [exec, pop, hk]
  refine ⟨_, hx, ?_⟩
  rcases asyncPop_cases net k c with ⟨-, hp⟩ | ⟨items, item, -, hp⟩
  · rw [hp] at hx ⊢
    apply h.of_port henabled hx (c := c) (by simp)
    · exact fun d hd => updatePort_port_ne _ _ hd
    · rw [setPhase, updatePort_port, updateQueue_ports, ha]
      exact ⟨by simp, by simp, by simp, fun _ => hholder, by simp [hev], by simp, by simp [hholder]⟩
  · rw [hp] at hx ⊢
    have hnot : ¬((net.updateQueue k (.asyncPop c c)
        ⟨items, (net.queues k).queueEntries⟩).Waits c) := by
      rw [waits_updateQueue, if_pos hk]
      exact fun hmem => hwaits ((waits_of_home hk).mpr hmem)
    apply h.of_port henabled hx (c := c) (by simp)
    · intro d hd
      rw [setPhase, deliver, updatePort_updatePort, updatePort_port_ne _ _ hd, updateQueue_ports]
    · rw [setPhase, deliver, updatePort_updatePort, updatePort_port, waits_updatePort,
        updateQueue_ports]
      refine ⟨?_, ?_, ?_, fun hnew => absurd hnew hnot, fun _ _ => rfl, fun _ => rfl, ?_⟩
      · simp [Port.fill, Port.set, ha]
      · simp [Port.fill, Port.set, ha]
      · simp [Port.fill, Port.set, ha, Phase.wake]
      · simp [Port.fill, Port.set, ha]

theorem wait_inTime (h : InTime kind net) (henabled : Enabled net (.wait c i)) :
    InTime kind (net.wait c i) := by
  have hx : exec kind net (.wait c i) = .ok (net.wait c i) := rfl
  have hpopped := (h.ports c).popped (List.mem_of_getElem? henabled)
  obtain ⟨rfl, ha⟩ := (h.ports c).accepts_eq henabled
  apply h.of_port henabled hx (c := c) (by simp)
  · intro d hd
    rw [wait, setPhase, updatePort_port_ne _ _ hd]
  · rw [wait, setPhase, updatePort_port, waits_updatePort, ha]
    refine ⟨by simp, by simp, by simp, (h.ports c).waiting, by simp, ?_, ?_⟩
    · intro hfired
      exact hpopped (by simpa using hfired)
    · intro hsome
      have hev := ((h.ports c).woken hsome).2 (List.mem_of_getElem? henabled)
      simp [hev]

omit [DecidableEq κ] in
-- An accept that ends is no longer registered, unless its wait failed before an
-- item was there.
theorem InTime.empty_of_complete {error : Bool} (h : InTime kind net)
    (hquiet : (net.ports c).holder = none → error = true → kind = .request ∧ ¬net.Waits c)
    (henabled : Enabled net (.complete c i error)) (hholder : (net.ports c).holder = none) :
    kind = .request ∧ ¬net.Waits c := by
  apply hquiet hholder
  obtain ⟨fired, hi, hfired⟩ := henabled
  cases error with
  | true => rfl
  | false =>
      rw [hfired rfl] at hi
      have hsome := (h.ports c).fired (List.mem_of_getElem? hi)
      simp [hholder] at hsome

omit [DecidableEq κ] in
theorem InTime.not_waits_of_complete {error : Bool} (h : InTime kind net)
    (hquiet : (net.ports c).holder = none → error = true → kind = .request ∧ ¬net.Waits c)
    (henabled : Enabled net (.complete c i error)) : ¬net.Waits c := by
  intro hwaits
  exact (h.empty_of_complete hquiet henabled ((h.ports c).waiting hwaits)).2 hwaits

theorem complete_inTime {error : Bool} (h : InTime kind net)
    (hquiet : (net.ports c).holder = none → error = true → kind = .request ∧ ¬net.Waits c)
    (henabled : Enabled net (.complete c i error)) :
    ∃ net', exec kind net (.complete c i error) = .ok net' ∧ InTime kind net' := by
  have hwaits := h.not_waits_of_complete hquiet henabled
  obtain ⟨fired, hi, hfired⟩ := id henabled
  obtain ⟨rfl, ha⟩ := (h.ports c).accepts_eq hi
  have hnext (rest : Option τ) (hrest : kind = .request → rest = none)
      (hx : exec kind net (.complete c 0 error) = .ok (net.handOver c 0 error rest)) :
      InTime kind (net.handOver c 0 error rest) := by
    apply h.of_port henabled hx (c := c) (by simp)
    · intro d hd
      simp [handOver, updatePort, hd]
    · have hport : (net.handOver c 0 error rest).ports c =
          { net.ports c with holder := rest, accepts := [] } := by simp [handOver, ha]
      rw [hport]
      exact ⟨by simp, fun _ => ⟨hwaits, hrest⟩, by simp, fun hnew => absurd hnew hwaits, by simp,
        by simp, by simp⟩
  cases kind with
  | request => exact ⟨_, rfl, hnext none (fun _ => rfl) rfl⟩
  | connection =>
      cases hholder : (net.ports c).holder with
      | none => cases (h.empty_of_complete hquiet henabled hholder).1
      | some item =>
          have hx : exec .connection net (.complete c 0 error) =
              .ok (net.handOver c 0 error (some item)) := by simp [exec, complete, hholder]
          exact ⟨_, hx, hnext (some item) (by simp) hx⟩

theorem exec_inTime (h : InTime kind net) (hallow : InOrder net label)
    (hquiet : ∀ c i, label = .complete c i true → (net.ports c).holder = none →
      kind = .request ∧ ¬net.Waits c)
    (henabled : Enabled net label) :
    ∃ net', exec kind net label = .ok net' ∧ InTime kind net' := by
  cases label with
  | attach c k =>
      have hx : exec kind net (.attach c k) =
          .ok { net with home := Function.update net.home c (some k) } := by
        simp only [InOrder] at hallow
        simp [exec, setQueue, hallow]
      exact ⟨_, hx, h.of_same henabled hx (by simp) rfl⟩
  | push k item => exact ⟨_, rfl, push_inTime h k item⟩
  | start c => exact start_inTime h hallow.1 hallow.2
  | pop c i => exact pop_inTime h henabled
  | wait c i => exact ⟨_, rfl, wait_inTime h henabled⟩
  | complete c i error =>
      apply complete_inTime h _ henabled
      rintro hholder rfl
      exact hquiet c i rfl hholder
  | cancel c =>
      have hx : exec kind net (.cancel c) = .ok (net.cancel c) := rfl
      refine ⟨_, hx, h.of_same henabled hx (by simp) ?_⟩
      rcases cancel_cases net c with ⟨-, hp⟩ | ⟨k, -, hp⟩ <;> rw [hp]
      rfl

omit [DecidableEq κ] in
-- Items are moved to empty slots, and a wait that ended well finds one filled.
theorem InTime.inTurn (h : InTime kind net) (labels : List (AcceptLabel τ κ ρ))
    (henabled : Enabled net label) : InTurn labels net label := by
  constructor
  · intro k c item hmoved
    cases label with
    | push l x =>
        obtain ⟨e, hlast, heq⟩ := Option.map_eq_some_iff.mp hmoved
        obtain ⟨rfl, rfl, rfl⟩ : l = k ∧ e.item = c ∧ x = item := by simpa using heq
        have he := List.mem_of_getLast? hlast
        exact (h.ports e.item).waiting ⟨l, (h.entries l e he).2, List.mem_map.mpr ⟨e, he, rfl⟩⟩
    | pop d i =>
        obtain ⟨l, -, heq⟩ := Option.bind_eq_some_iff.mp hmoved
        obtain ⟨x, -, heq⟩ := Option.map_eq_some_iff.mp heq
        obtain ⟨rfl, rfl, rfl⟩ : l = k ∧ d = c ∧ x = item := by simpa using heq
        exact ((h.ports d).started (List.mem_of_getElem? henabled)).2.1
    | _ => cases hmoved
  · rintro c i rfl
    obtain ⟨fired, hi, hfired⟩ := henabled
    rw [hfired rfl] at hi
    exact (h.ports c).fired (List.mem_of_getElem? hi)

end Step

end FabricRpc.V2.AcceptNet
