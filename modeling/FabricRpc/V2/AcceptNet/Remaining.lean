import FabricRpc.V2.AcceptNet.WakeUp

namespace FabricRpc.V2

variable {τ κ ρ : Type*}

-- The steps of its own that an object takes until it waits, if it accepts in a loop.
def Port.remaining (p : Port τ) : ℕ :=
  match p.accepts with
  | [] => 3
  | .started :: _ => 2
  | .popped :: _ => 1
  | .waiting _ :: _ => 0

-- The object that takes a step of an accept of its own.
def AcceptLabel.object : AcceptLabel τ κ ρ → Option ρ
  | .start c => some c
  | .pop c _ => some c
  | .wait c _ => some c
  | .complete c _ _ => some c
  | _ => none

-- The end of a wait brings an object back to its start, by four steps.
def AcceptLabel.regained : AcceptLabel τ κ ρ → ℕ
  | .complete _ _ _ => 4
  | _ => 0

theorem Port.remaining_eq_three {p : Port τ} : p.remaining = 3 ↔ p.accepts = [] := by
  unfold Port.remaining
  split <;> simp_all

theorem Port.remaining_set (p : Port τ) (item : τ) : (p.fill item).set.remaining = p.remaining := by
  cases haccepts : p.accepts with
  | nil => simp [Port.remaining, Port.fill, Port.set, haccepts]
  | cons phase accepts =>
      cases phase <;> simp [Port.remaining, Port.fill, Port.set, haccepts, Phase.wake]

namespace AcceptNet

variable [DecidableEq κ] [DecidableEq ρ] {kind : AcceptKind} {net net' : AcceptNet τ κ ρ}
  {label : AcceptLabel τ κ ρ}

theorem push_remaining (h : Sequential kind net) (k : κ) (item : τ) (d : ρ) :
    ((net.push k item).ports d).remaining = (net.ports d).remaining := by
  rcases push_cases item (h.entries k) with ⟨-, hp⟩ | ⟨entries, c, -, -, hp⟩
  · rw [hp, updateQueue_ports]
  · rw [hp, deliver]
    by_cases hd : d = c
    · subst hd
      rw [updatePort_port, Port.remaining_set, updateQueue_ports]
    · rw [updatePort_port_ne _ _ hd, updateQueue_ports]

-- A step of its own brings an object closer to its wait, or back to its start.
-- The others are as far as before.
theorem exec_remaining (h : Sequential kind net) {labels : List (AcceptLabel τ κ ρ)}
    (hallow : OneAtATime labels net label) (henabled : Enabled net label)
    (hx : exec kind net label = .ok net') :
    (∀ d, label.object ≠ some d → (net'.ports d).remaining = (net.ports d).remaining) ∧
    ∀ d, label.object = some d →
      (net'.ports d).remaining + 1 = (net.ports d).remaining + label.regained := by
  cases label with
  | attach c k =>
      obtain ⟨next, hnext, -, rfl⟩ := setQueue_cases h k hallow
      obtain rfl := Except.ok.inj (hnext.symm.trans hx)
      exact ⟨fun _ _ => rfl, fun _ hd => absurd hd (by simp [AcceptLabel.object])⟩
  | push k item =>
      obtain rfl : net.push k item = net' := Except.ok.inj hx
      exact ⟨fun d _ => push_remaining h k item d,
        fun _ hd => absurd hd (by simp [AcceptLabel.object])⟩
  | start c =>
      obtain ⟨next, hnext, -, rfl⟩ := start_cases h hallow.1 hallow.2
      obtain rfl := Except.ok.inj (hnext.symm.trans hx)
      refine ⟨fun d hd => ?_, fun d hd => ?_⟩
      · rw [updatePort_port_ne]
        exact fun hdc => hd (by rw [hdc]; rfl)
      · obtain rfl := Option.some.inj hd
        simp [Port.remaining, Port.reset, hallow.2, AcceptLabel.regained]
  | pop c i =>
      obtain ⟨hzero, haccepts⟩ := (h.ports c).accepts_eq henabled
      obtain ⟨next, k, -, hnext, -, hcases⟩ := pop_cases h henabled
      obtain rfl := Except.ok.inj (hnext.symm.trans hx)
      refine ⟨fun d hd => ?_, fun d hd => ?_⟩
      · have hdc : d ≠ c := fun hdc => hd (by rw [hdc]; rfl)
        rcases hcases with ⟨-, rfl⟩ | ⟨items, item, -, rfl⟩ <;>
          rw [updatePort_port_ne _ _ hdc, updateQueue_ports]
      · obtain rfl := Option.some.inj hd
        rcases hcases with ⟨-, rfl⟩ | ⟨items, item, -, rfl⟩ <;>
          simp [Port.remaining, haccepts, popped, AcceptLabel.regained]
  | wait c i =>
      obtain ⟨rfl, haccepts⟩ := (h.ports c).accepts_eq henabled
      obtain rfl : net.wait c 0 = net' := Except.ok.inj hx
      refine ⟨fun d hd => ?_, fun d hd => ?_⟩
      · rw [wait, setPhase, updatePort_port_ne]
        exact fun hdc => hd (by rw [hdc]; rfl)
      · obtain rfl := Option.some.inj hd
        simp [wait, setPhase, Port.remaining, haccepts, AcceptLabel.regained]
  | complete c i error =>
      obtain ⟨fired, hi, hfired⟩ := henabled
      obtain rfl : error = false := hallow
      rw [hfired rfl] at hi
      obtain ⟨-, haccepts⟩ := (h.ports c).accepts_eq hi
      obtain ⟨next, item, -, hnext, -, ⟨rest, hports⟩, -⟩ := complete_cases h hi
      obtain rfl := Except.ok.inj (hnext.symm.trans hx)
      refine ⟨fun d hd => ?_, fun d hd => ?_⟩
      · have hdc : d ≠ c := fun hdc => hd (by rw [hdc]; rfl)
        rw [hports, Function.update_of_ne hdc]
      · obtain rfl := Option.some.inj hd
        simp [hports, Port.remaining, haccepts, AcceptLabel.regained]
  | cancel c => exact hallow.elim

omit [DecidableEq κ] [DecidableEq ρ] in
-- An object that can take no step of its own waits, and its queue is empty.
theorem Sequential.blocked (h : Sequential kind net) {c : ρ} {k : κ} (hhome : net.home c = some k)
    (hstart : (net.ports c).accepts ≠ []) (hpop : ¬net.Enabled (.pop c 0))
    (hwait : ¬net.Enabled (.wait c 0)) (hcomplete : ¬net.Enabled (.complete c 0 false)) :
    (net.ports c).remaining = 0 ∧ (net.ports c).holder = none ∧ (net.queues k).items = [] := by
  have hport := h.ports c
  unfold Sound at hport
  split at hport
  · rename_i haccepts
    exact absurd haccepts hstart
  · rename_i haccepts
    exact absurd (by simp [Enabled, haccepts]) hpop
  · rename_i haccepts
    exact absurd (by simp [Enabled, haccepts]) hwait
  · rename_i fired haccepts
    have hunset : fired = false := by
      by_contra htrue
      exact hcomplete ⟨fired, by simp [haccepts], fun _ => by simpa using htrue⟩
    have hi : (net.ports c).accepts[0]? = some (.waiting fired) := by simp [haccepts]
    obtain ⟨hitems, hholder⟩ := h.waiting_unsignalled hhome hi (.inl hunset)
    exact ⟨by simp [Port.remaining, haccepts], hholder, hitems⟩
  · exact hport.elim

end AcceptNet

end FabricRpc.V2
