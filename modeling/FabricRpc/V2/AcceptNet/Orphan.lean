import FabricRpc.V2.AcceptNet.Records

namespace FabricRpc.V2

-- An accept of the object is past async_pop, and no signal ends its wait: it
-- waits unsignalled, or it would start to wait under an event that is not set.
def Port.Sleeps {τ : Type*} (p : Port τ) : Prop :=
  (Phase.popped ∈ p.accepts ∧ p.ev = false) ∨ Phase.waiting false ∈ p.accepts

namespace Port

variable {τ : Type*} {p : Port τ}

theorem not_sleeps_new : ¬(new : Port τ).Sleeps := by
  simp [Sleeps, new]

-- A signal ends all waits, those that have not begun included.
theorem not_sleeps_set (p : Port τ) : ¬p.set.Sleeps := by
  rintro (⟨-, hev⟩ | hmem)
  · simp [set] at hev
  · obtain ⟨phase, -, hwake⟩ := List.mem_map.mp hmem
    cases phase <;> simp [Phase.wake] at hwake

end Port

namespace AcceptNet

variable {τ κ ρ : Type*} {live : κ → Prop}

-- The object is registered as a waiter in a queue that can still be pushed to.
def Awaits (live : κ → Prop) (net : AcceptNet τ κ ρ) (c : ρ) : Prop :=
  ∃ k, net.home c = some k ∧ c ∈ net.waiters k ∧ live k

-- Every sleeping accept can still be woken.
def NoOrphan (live : κ → Prop) (net : AcceptNet τ κ ρ) : Prop :=
  ∀ c, (net.ports c).Sleeps → net.Awaits live c

-- What must hold before a step. An accept resets the event of its object only
-- when no other one is about to wait for it, or the object is registered still.
-- One that finds its queue empty pops only while that can be pushed to. And the
-- waiter that a cancel removes does not belong to the only registration of an
-- object that sleeps.
def Wakeful (live : κ → Prop) (net : AcceptNet τ κ ρ) : AcceptLabel τ κ ρ → Prop
  | .start c => .popped ∈ (net.ports c).accepts → net.Awaits live c
  | .pop c _ => ∀ k, net.home c = some k → (net.queues k).items = [] → (net.ports c).ev = false →
      live k
  | .cancel c => ∀ k entries, net.home c = some k →
      (net.queues k).queueEntries = entries ++ [⟨c, c⟩] → (net.ports c).Sleeps →
      c ∈ entries.map QueueEntry.item
  | _ => True

section Frame

variable {net net' : AcceptNet τ κ ρ}

-- A step about one object leaves an orphan exactly if it orphans that object.
theorem noOrphan_iff (h : NoOrphan live net) (c : ρ)
    (hports : ∀ d, d ≠ c → net'.ports d = net.ports d)
    (hawaits : ∀ d, d ≠ c → net.Awaits live d → net'.Awaits live d) :
    NoOrphan live net' ↔ ((net'.ports c).Sleeps → net'.Awaits live c) := by
  constructor
  · exact fun hnext => hnext c
  · intro hc d hd
    by_cases hdc : d = c
    · subst hdc
      exact hc hd
    · rw [hports d hdc] at hd
      exact hawaits d hdc (h d hd)

theorem NoOrphan.frame (h : NoOrphan live net) (hports : net'.ports = net.ports)
    (hawaits : ∀ d, net.Awaits live d → net'.Awaits live d) : NoOrphan live net' := by
  intro d hd
  rw [hports] at hd
  exact hawaits d (h d hd)

theorem awaits_updatePort [DecidableEq ρ] (net : AcceptNet τ κ ρ) (c d : ρ) (f : Port τ → Port τ) :
    (net.updatePort c f).Awaits live d ↔ net.Awaits live d := Iff.rfl

variable [DecidableEq κ]

theorem Awaits.updateQueue {k : κ} {op : ItemQueue.Op τ ρ ρ} {q : ItemQueue τ ρ ρ} {d : ρ}
    (h : net.Awaits live d) (hkeep : d ∈ net.waiters k → d ∈ q.queueEntries.map QueueEntry.item) :
    (net.updateQueue k op q).Awaits live d := by
  obtain ⟨l, hhome, hmem, hlive⟩ := h
  refine ⟨l, hhome, ?_, hlive⟩
  by_cases hl : l = k
  · subst hl
    rw [waiters, updateQueue_queue]
    exact hkeep hmem
  · rw [waiters, updateQueue_queue_ne _ _ _ hl]
    exact hmem

end Frame

section Step

variable [DecidableEq κ] [DecidableEq ρ] {kind : AcceptKind} {net net' : AcceptNet τ κ ρ}
  {label : AcceptLabel τ κ ρ} {c : ρ}

theorem push_noOrphan (h : NoOrphan live net) (hr : Recorded net) (k : κ) (item : τ) :
    NoOrphan live (net.push k item) := by
  rcases push_cases item (hr.entries k) with ⟨he, hp⟩ | ⟨entries, c, he, -, hp⟩
  · rw [hp]
    refine h.frame rfl fun d hd => hd.updateQueue ?_
    simp [waiters, he]
  · rw [hp]
    refine (noOrphan_iff h c ?_ ?_).mpr ?_
    · intro d hd
      rw [deliver, updatePort_port_ne _ _ hd, updateQueue_ports]
    · intro d hd hawaits
      rw [deliver, awaits_updatePort]
      refine hawaits.updateQueue fun hmem => ?_
      rw [waiters, he, List.map_append, List.mem_append] at hmem
      exact hmem.resolve_right (by simp [hd])
    · rw [deliver, updatePort_port]
      exact fun hsleeps => absurd hsleeps (Port.not_sleeps_set _)

omit [DecidableEq κ] in
theorem attach_noOrphan (h : NoOrphan live net) {k : κ} (hx : net.setQueue c k = .ok net') :
    NoOrphan live net' := by
  have hhome := setQueue_checks hx
  obtain rfl := setQueue_ok hx
  refine h.frame rfl ?_
  rintro d ⟨l, hd, hmem, hlive⟩
  have hne : d ≠ c := by
    rintro rfl
    simp [hhome] at hd
  exact ⟨l, by simpa [hne] using hd, hmem, hlive⟩

omit [DecidableEq κ] in
theorem start_noOrphan_iff (h : NoOrphan live net) (hx : start kind net c = .ok net') :
    NoOrphan live net' ↔ (.popped ∈ (net.ports c).accepts → net.Awaits live c) := by
  obtain rfl := start_ok hx
  rw [noOrphan_iff h c (fun d hd => updatePort_port_ne _ _ hd) (fun d _ hd => hd),
    updatePort_port, awaits_updatePort]
  constructor
  · intro hnext hpopped
    exact hnext (.inl ⟨List.mem_append_left _ hpopped, rfl⟩)
  · rintro hpopped (⟨hmem, -⟩ | hmem)
    · rw [List.mem_append] at hmem
      exact hpopped (hmem.resolve_right (by simp))
    · rw [List.mem_append] at hmem
      exact h c (.inr (hmem.resolve_right (by simp)))

theorem pop_noOrphan_iff (h : NoOrphan live net) {i : ℕ}
    (henabled : (net.ports c).accepts[i]? = some .started) (hx : net.pop c i = .ok net') :
    NoOrphan live net' ↔ ∀ k, net.home c = some k → (net.queues k).items = [] →
      (net.ports c).ev = false → live k := by
  obtain ⟨k, hhome, rfl⟩ := pop_ok hx
  have hk (l : κ) (hl : net.home c = some l) : l = k := Option.some.inj (hl.symm.trans hhome)
  obtain ⟨hlt, -⟩ := List.getElem?_eq_some_iff.mp henabled
  rcases asyncPop_cases net k c with ⟨hi, hp⟩ | ⟨items, item, hi, hp⟩
  · have hregistered : (net.updateQueue k (.asyncPop c c)
        ⟨[], (net.queues k).queueEntries ++ [⟨c, c⟩]⟩).Awaits live c ↔ live k := by
      constructor
      · rintro ⟨l, hl, -, hlive⟩
        rwa [hk l hl] at hlive
      · exact fun hlive => ⟨k, hhome, by simp [waiters], hlive⟩
    rw [hp, setPhase, noOrphan_iff h c, updatePort_port, awaits_updatePort, hregistered]
    · constructor
      · intro hnext l hl _ hev
        rw [hk l hl]
        exact hnext (.inl ⟨List.mem_set hlt _, hev⟩)
      · rintro hlive (⟨-, hev⟩ | hmem)
        · exact hlive k hhome hi hev
        · have hwaited : Phase.waiting false ∈ (net.ports c).accepts :=
            (List.mem_or_eq_of_mem_set hmem).resolve_right (by simp)
          obtain ⟨l, hl, -, hlive⟩ := h c (.inr hwaited)
          rwa [hk l hl] at hlive
    · exact fun d hd => updatePort_port_ne _ _ hd
    · intro d _ hd
      rw [awaits_updatePort]
      refine hd.updateQueue fun hmem => ?_
      rw [List.map_append]
      exact List.mem_append_left _ hmem
  · refine iff_of_true ?_ ?_
    · rw [hp, setPhase, deliver, updatePort_updatePort]
      refine (noOrphan_iff h c ?_ ?_).mpr ?_
      · exact fun d hd => updatePort_port_ne _ _ hd
      · intro d _ hd
        rw [awaits_updatePort]
        exact hd.updateQueue fun hmem => hmem
      · rw [updatePort_port]
        rintro (⟨-, hev⟩ | hmem)
        · simp [Port.set] at hev
        · have hset : Phase.waiting false ∈ ((net.ports c).fill item).set.accepts :=
            (List.mem_or_eq_of_mem_set hmem).resolve_right (by simp)
          exact absurd (.inr hset) (Port.not_sleeps_set _)
    · intro l hl hnil
      rw [hk l hl, hi] at hnil
      exact absurd hnil (by simp)

omit [DecidableEq κ] in
theorem wait_noOrphan (h : NoOrphan live net) {i : ℕ}
    (henabled : (net.ports c).accepts[i]? = some .popped) : NoOrphan live (net.wait c i) := by
  rw [wait, setPhase]
  refine (noOrphan_iff h c (fun d hd => updatePort_port_ne _ _ hd) (fun d _ hd => hd)).mpr ?_
  rw [updatePort_port, awaits_updatePort]
  have hpopped : Phase.popped ∈ (net.ports c).accepts := List.mem_of_getElem? henabled
  rintro (⟨hmem, hev⟩ | hmem)
  · exact h c (.inl ⟨hpopped, hev⟩)
  · rcases List.mem_or_eq_of_mem_set hmem with hmem | heq
    · exact h c (.inr hmem)
    · exact h c (.inl ⟨hpopped, (Phase.waiting.inj heq).symm⟩)

omit [DecidableEq κ] in
theorem complete_noOrphan (h : NoOrphan live net) {i : ℕ} {error : Bool}
    (hx : complete kind net c i error = .ok net') : NoOrphan live net' := by
  obtain ⟨rest, rfl⟩ := complete_ok hx
  refine (noOrphan_iff h c ?_ ?_).mpr ?_
  · intro d hd
    simp [handOver, updatePort, hd]
  · exact fun d _ hd => hd
  · intro hsleeps
    apply h c
    simp only [handOver, updatePort, Function.update_self] at hsleeps
    rcases hsleeps with ⟨hmem, hev⟩ | hmem
    · exact .inl ⟨List.mem_of_mem_eraseIdx hmem, hev⟩
    · exact .inr (List.mem_of_mem_eraseIdx hmem)

theorem cancel_noOrphan_iff (h : NoOrphan live net) (hr : Recorded net) :
    NoOrphan live (net.cancel c) ↔ ∀ k entries, net.home c = some k →
      (net.queues k).queueEntries = entries ++ [⟨c, c⟩] → (net.ports c).Sleeps →
      c ∈ entries.map QueueEntry.item := by
  rcases cancel_cases net c with ⟨hhome, hc⟩ | ⟨k, hhome, hc⟩
  · rw [hc]
    exact iff_of_true h (by simp [hhome])
  · rcases ItemQueue.cancel_cases (net.queues k) c with hq | ⟨entries, ⟨event, d⟩, he, hevent, hq⟩
    · rw [hc, hq]
      refine iff_of_true (h.frame rfl fun d hd => hd.updateQueue fun hmem => hmem) ?_
      intro l entries hl he
      obtain rfl : k = l := Option.some.inj (hhome.symm.trans hl)
      have hlength := congrArg (fun q => q.queueEntries.length) hq
      simp [ItemQueue.cancel, he] at hlength
    · obtain ⟨hitem, -⟩ := hr.entries k ⟨event, d⟩ (by simp [he])
      simp only at hevent hitem
      obtain rfl : c = d := hevent.symm.trans hitem
      subst hevent
      rw [hc, hq]
      refine (noOrphan_iff h event ?_ ?_).trans ?_
      · exact fun _ _ => rfl
      · intro d hd hawaits
        refine hawaits.updateQueue fun hmem => ?_
        rw [waiters, he, List.map_append, List.mem_append] at hmem
        exact hmem.resolve_right (by simp [hd])
      · constructor
        · intro hnext l others hl hothers hsleeps
          obtain rfl : k = l := Option.some.inj (hhome.symm.trans hl)
          obtain ⟨rfl, -⟩ := List.append_inj' (he.symm.trans hothers) rfl
          obtain ⟨m, hm, hmem, -⟩ := hnext hsleeps
          obtain rfl : k = m := Option.some.inj (hhome.symm.trans hm)
          simpa [waiters] using hmem
        · intro hkept hsleeps
          obtain ⟨l, hl, -, hlive⟩ := h event hsleeps
          obtain rfl : k = l := Option.some.inj (hhome.symm.trans hl)
          exact ⟨k, hhome, by simpa [waiters] using hkept k entries hhome he hsleeps, hlive⟩

-- A step orphans an accept exactly if what must hold before it does not.
theorem exec_noOrphan_iff (h : NoOrphan live net) (hr : Recorded net) (henabled : Enabled net label)
    (hx : exec kind net label = .ok net') : NoOrphan live net' ↔ Wakeful live net label := by
  cases label with
  | attach c k => exact iff_of_true (attach_noOrphan h hx) trivial
  | push k item =>
      obtain rfl : net.push k item = net' := Except.ok.inj hx
      exact iff_of_true (push_noOrphan h hr k item) trivial
  | start c => exact start_noOrphan_iff h hx
  | pop c i => exact pop_noOrphan_iff h henabled hx
  | wait c i =>
      obtain rfl : net.wait c i = net' := Except.ok.inj hx
      exact iff_of_true (wait_noOrphan h henabled) trivial
  | complete c i error => exact iff_of_true (complete_noOrphan h hx) trivial
  | cancel c =>
      obtain rfl : net.cancel c = net' := Except.ok.inj hx
      exact cancel_noOrphan_iff h hr

end Step

end AcceptNet

end FabricRpc.V2
