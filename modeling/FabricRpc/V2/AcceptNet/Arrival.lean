import FabricRpc.V2.AcceptNet.WakeUp
import FabricRpc.V2.ItemQueue.Order

namespace FabricRpc.V2.AcceptNet

variable {τ κ ρ : Type*} [DecidableEq κ] [DecidableEq ρ] {kind : AcceptKind}
  {net : AcceptNet τ κ ρ} {labels : List (AcceptLabel τ κ ρ)} {home : ρ → Option κ}

omit [DecidableEq ρ] in
theorem called_uncancelled {label : AcceptLabel τ κ ρ} (hcancel : ∀ c, label ≠ .cancel c)
    (k : κ) : ItemQueue.Uncancelled (net.called k label) := by
  intro event
  cases label with
  | push l item => by_cases hl : l = k <;> simp [called, hl]
  | pop c i => by_cases hc : net.home c = some k <;> simp [called, hc]
  | cancel c => exact absurd rfl (hcancel c)
  | _ => exact List.not_mem_nil

-- Loops that run one accept at a time cancel no call on a queue.
theorem run_uncancelled (hrun : (machine τ κ ρ kind).Run OneAtATime (new home) labels net)
    (k : κ) : ItemQueue.Uncancelled (net.calls k) := by
  apply hrun.state_invariant fun net => ItemQueue.Uncancelled (net.calls k)
  · intro event
    exact List.not_mem_nil
  · intro labels net label net' h hallow _ hx
    have hcancel : ∀ c, label ≠ .cancel c := by
      rintro c rfl
      exact hallow.elim
    rw [exec_calls hx k]
    exact h.append (called_uncancelled hcancel k)

-- The arrival order that a queue promises to its accept loop. It holds as long
-- as the queue never stores two items, or keeps two pops waiting, at a call that
-- takes one of them.
theorem accept_loop_in_arrival_order {k : κ} {c : ρ}
    (hrun : (machine τ κ ρ kind).Run OneAtATime (new home) labels net)
    (hc : ∀ d, net.home d = some k ↔ d = c) (hs : ItemQueue.Shallow (net.calls k)) :
    net.itemsHandedTo c <+: pushedTo k labels := by
  have hwritten := (run_orderly hrun).toLedger.written_eq hc
  have hstarts := ItemQueue.written_prefix_pushes (net.calls k) (run_uncancelled hrun k) hs
  rw [hwritten, run_pushes hrun k] at hstarts
  exact (List.prefix_append _ _).trans hstarts

end FabricRpc.V2.AcceptNet
