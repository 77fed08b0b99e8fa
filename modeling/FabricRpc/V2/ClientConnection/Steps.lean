import FabricRpc.V2.ClientConnection.Sends

namespace FabricRpc.V2

variable {μ κ : Type*}

-- What a step of a connection does to an operation i.
structure SendOp.Follows (label : SendLabel μ κ) (i : ℕ) (op next : SendOp μ κ) : Prop where
  req : next.req = op.req
  sent : next.sent = op.sent ∨ next.sent = op.sent ++ [(op.req, sendTimeout)]
  began : next.began = op.began ∨ ∃ hr ctx, label = .began i hr ctx ∧ next.began = some (hr, ctx)
  handled : next.handled = op.handled ∨
    (∃ hr ctx, label = .began i hr ctx ∧ hr ≠ sOk ∧ next.began = some (hr, ctx) ∧
      next.handled = op.handled ++ [(hr, none)]) ∨
    ∃ hr reply, label = .finish i hr reply ∧ next.handled = op.handled ++ [(hr, reply)]

namespace SendOp

theorem Follows.refl (label : SendLabel μ κ) (i : ℕ) (op : SendOp μ κ) : op.Follows label i op :=
  ⟨rfl, .inl rfl, .inl rfl, .inl rfl⟩

theorem begin_follows (label : SendLabel μ κ) (i : ℕ) (op : SendOp μ κ) (ev : ℕ) :
    op.Follows label i (op.begin ev) := ⟨rfl, .inr rfl, .inl rfl, .inl rfl⟩

theorem onBegan_follows (i : ℕ) (hr : Int32) (ctx : Option κ) (op : SendOp μ κ) :
    op.Follows (.began i hr ctx) i (op.onBegan hr ctx) := by
  unfold onBegan
  split
  · split
    · rename_i hne
      exact ⟨rfl, .inl rfl, .inr ⟨hr, ctx, rfl, rfl⟩, .inr (.inl ⟨hr, ctx, rfl, hne, rfl, rfl⟩)⟩
    · exact ⟨rfl, .inl rfl, .inr ⟨hr, ctx, rfl, rfl⟩, .inl rfl⟩
  · exact .refl _ _ _

theorem wait_follows (label : SendLabel μ κ) (i : ℕ) (events : ℕ → Bool) (op : SendOp μ κ) :
    op.Follows label i (op.wait events) := by
  unfold wait
  split
  · exact ⟨rfl, .inl rfl, .inl rfl, .inl rfl⟩
  · exact .refl _ _ _

theorem onWaited_follows (i : ℕ) (hr : Int32) (reply : Option μ) (op : SendOp μ κ) :
    op.Follows (.finish i hr reply) i (op.onWaited hr reply) := by
  unfold onWaited
  split
  · exact ⟨rfl, .inl rfl, .inl rfl, .inr (.inr ⟨hr, reply, rfl, rfl⟩)⟩
  · exact .refl _ _ _

theorem wake_follows (label : SendLabel μ κ) (i ev : ℕ) (op : SendOp μ κ) :
    op.Follows label i (op.wake ev) := by
  unfold wake
  split
  · exact ⟨rfl, .inl rfl, .inl rfl, .inl rfl⟩
  · exact .refl _ _ _

end SendOp

namespace ClientConnection

variable {s s' : ClientConnection μ κ} {label : SendLabel μ κ}

-- The operations after a step: those before it, and one that was just sent.
structure Follows (label : SendLabel μ κ) (s s' : ClientConnection μ κ) : Prop where
  forward : ∀ (i : ℕ) (op : SendOp μ κ), s.ops[i]? = some op →
    ∃ next, s'.ops[i]? = some next ∧ op.Follows label i next
  backward : ∀ (i : ℕ) (next : SendOp μ κ), s'.ops[i]? = some next →
    (∃ op, s.ops[i]? = some op ∧ op.Follows label i next) ∨ next.handled = [] ∧ s.ops[i]? = none

theorem Follows.of_ops (hops : s'.ops = s.ops) : Follows label s s' where
  forward := fun i op hop => ⟨op, by rw [hops, hop], .refl _ _ _⟩
  backward := fun i next hnext => .inl ⟨next, by rw [← hops, hnext], .refl _ _ _⟩

theorem Follows.of_modify {i : ℕ} {f : SendOp μ κ → SendOp μ κ}
    (hops : s'.ops = s.ops.modify i f)
    (hf : ∀ op : SendOp μ κ, op.Follows label i (f op)) :
    Follows label s s' where
  forward := by
    intro j op hop
    by_cases hij : i = j
    · subst hij
      exact ⟨f op, by simp [hops, hop], hf op⟩
    · exact ⟨op, by simp [hops, hop, hij], .refl _ _ _⟩
  backward := by
    intro j next hnext
    rw [hops, List.getElem?_modify, Option.map_eq_map, Option.map_eq_some_iff] at hnext
    obtain ⟨op, hop, rfl⟩ := hnext
    refine .inl ⟨op, hop, ?_⟩
    split
    · rename_i hij
      subst hij
      exact hf op
    · exact .refl _ _ _

theorem asyncSend_follows (s : ClientConnection μ κ) (req : μ) :
    Follows label s (s.asyncSend req) where
  forward := by
    intro i op hop
    have hlt := (List.getElem?_eq_some_iff.mp hop).1
    exact ⟨op, by simp [asyncSend, List.getElem?_append_left hlt, hop], .refl _ _ _⟩
  backward := by
    intro i next hnext
    simp only [asyncSend] at hnext
    by_cases hlt : i < s.ops.length
    · rw [List.getElem?_append_left hlt] at hnext
      exact .inl ⟨next, hnext, .refl _ _ _⟩
    · rw [List.getElem?_append_right (by omega)] at hnext
      obtain ⟨-, rfl⟩ := List.getElem?_eq_some_iff.mp hnext
      exact .inr ⟨by simp, List.getElem?_eq_none (by omega)⟩

theorem exec_follows (hx : s.exec label = .ok s') : Follows label s s' := by
  cases label with
  | send req =>
      obtain rfl : s.asyncSend req = s' := Except.ok.inj hx
      exact asyncSend_follows s req
  | begin i =>
      simp only [exec, begin] at hx
      split at hx
      · obtain rfl := Except.ok.inj hx
        exact .of_ops rfl
      · rename_i op hop
        split at hx
        · exact absurd hx (by simp)
        · rename_i ev _
          obtain rfl := Except.ok.inj hx
          have hlt := (List.getElem?_eq_some_iff.mp hop).1
          refine ⟨?_, ?_⟩
          · intro j other hother
            by_cases hij : i = j
            · subst hij
              obtain rfl := Option.some.inj (hop.symm.trans hother)
              exact ⟨op.begin ev, List.getElem?_set_self hlt, SendOp.begin_follows _ i op ev⟩
            · exact ⟨other, by rw [List.getElem?_set_ne hij, hother], .refl _ _ _⟩
          · intro j next hnext
            by_cases hij : i = j
            · subst hij
              rw [List.getElem?_set_self hlt] at hnext
              obtain rfl := Option.some.inj hnext
              exact .inl ⟨op, hop, SendOp.begin_follows _ i op ev⟩
            · rw [List.getElem?_set_ne hij] at hnext
              exact .inl ⟨next, hnext, .refl _ _ _⟩
  | began i hr ctx =>
      obtain rfl := Except.ok.inj hx
      exact .of_modify rfl (SendOp.onBegan_follows i hr ctx)
  | wait i =>
      obtain rfl := Except.ok.inj hx
      exact .of_modify rfl (SendOp.wait_follows _ i s.events)
  | finish i hr reply =>
      obtain rfl := Except.ok.inj hx
      exact .of_modify rfl (SendOp.onWaited_follows i hr reply)
  | invoke c =>
      simp only [exec, invoke] at hx
      split at hx
      · exact absurd hx (by simp)
      · rename_i ev _
        obtain rfl := Except.ok.inj hx
        refine ⟨?_, ?_⟩
        · intro i op hop
          exact ⟨op.wake ev, by simp [hop], SendOp.wake_follows _ i ev op⟩
        · intro i next hnext
          simp only [List.getElem?_map, Option.map_eq_some_iff] at hnext
          obtain ⟨op, hop, rfl⟩ := hnext
          exact .inl ⟨op, hop, SendOp.wake_follows _ i ev op⟩
  | release c =>
      obtain rfl := Except.ok.inj hx
      exact .of_ops rfl

end ClientConnection

end FabricRpc.V2
