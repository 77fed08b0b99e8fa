import FabricRpc.V2.AcceptNet.Labels
import FabricRpc.V2.AcceptNet.Ledger

namespace FabricRpc.V2.AcceptNet

variable {τ κ ρ : Type*}

section Loop

variable {net : AcceptNet τ κ ρ} {k : κ} {c : ρ}

-- What was moved out of a queue with one object went to that object.
theorem Ledger.written_eq [DecidableEq ρ] (h : Ledger net) (hc : ∀ d, net.home d = some k ↔ d = c) :
    (ItemQueue.run (net.calls k)).written.map Prod.snd =
      net.itemsHandedTo c ++ pending (net.ports c) := by
  have hall : (ItemQueue.run (net.calls k)).written.filter (·.1 = c) =
      (ItemQueue.run (net.calls k)).written := by
    rw [List.filter_eq_self]
    intro w hw
    simpa using (hc w.1).mp (h.homes k w hw)
  rw [← h.written c k ((hc c).mpr rfl), writtenTo, hall]

-- Each item pushed to the queue of one object is stored, pending or handed over.
theorem Ledger.items_eq [DecidableEq ρ] (h : Ledger net) (hc : ∀ d, net.home d = some k ↔ d = c) :
    (ItemQueue.pushes (net.calls k) : Multiset τ) =
      (net.queues k).items + (pending (net.ports c) : Multiset τ) + net.itemsHandedTo c := by
  obtain ⟨finished, haccounts⟩ := ItemQueue.run_accounts (net.calls k)
  rw [haccounts.items, h.written_eq hc, h.queues, ← Multiset.coe_add]
  ac_rfl

-- A holder is only filled while an accept is under way.
theorem Sequential.pending_eq (h : Sequential .request net) (c : ρ) :
    pending (net.ports c) = (net.ports c).holder.toList := by
  by_cases ha : (net.ports c).accepts = []
  · simp [pending, ha, ((h.ports c).of_idle ha).2 rfl]
  · simp [pending, ha]

-- An accept that waits under an event that is not set has an entry in the
-- queue, and a queue with entries stores nothing.
theorem Sequential.waiting_unsignalled {kind : AcceptKind} {i : ℕ} {fired : Bool}
    (h : Sequential kind net) (hhome : net.home c = some k)
    (hi : (net.ports c).accepts[i]? = some (.waiting fired))
    (hunset : fired = false ∨ (net.ports c).ev = false) :
    (net.queues k).items = [] ∧ (net.ports c).holder = none := by
  obtain ⟨-, ha⟩ := (h.ports c).accepts_eq hi
  obtain ⟨hsettled, hev⟩ := (h.ports c).of_waiting ha
  have hunset : (net.ports c).ev = false := by
    rcases hunset with hf | he
    · rw [← hev, hf]
    · exact he
  rcases hsettled with ⟨hwaits, hholder, -⟩ | ⟨-, -, hset⟩
  · have hmem := (waits_of_home hhome).mp hwaits
    have hentries : (net.queues k).queueEntries ≠ [] := by
      intro hnil
      simp [waiters, hnil] at hmem
    exact ⟨(h.exclusive k).resolve_right hentries, hholder⟩
  · rw [hunset] at hset
    exact absurd hset (by simp)

-- The law of the accept loop of a server connection, which starts an accept
-- only after the previous one has completed: no assertion fails, each accept
-- completes with a request, each request pushed is in the queue, in the
-- holder or handed over, and no accept sleeps beside a request.
theorem accept_loop_loses_no_request [DecidableEq κ] [DecidableEq ρ] {home : ρ → Option κ}
    {labels : List (AcceptLabel τ κ ρ)}
    (hrun : (machine τ κ ρ .request).Run OneAtATime (new home) labels net) :
    (∀ label, OneAtATime labels net label → Enabled net label →
      ∃ net', exec .request net label = .ok net') ∧
    (∀ h ∈ net.handed, h.2.error = false ∧ h.2.item.isSome) ∧
    (∀ k c, (∀ d, net.home d = some k ↔ d = c) →
      (pushedTo k labels : Multiset τ) = (net.queues k).items +
        ((net.ports c).holder.toList : Multiset τ) + net.itemsHandedTo c) ∧
    ∀ (k : κ) (c : ρ) (i : ℕ) (fired : Bool), net.home c = some k →
      (net.ports c).accepts[i]? = some (.waiting fired) → fired = false ∨ (net.ports c).ev = false →
      (net.queues k).items = [] ∧ (net.ports c).holder = none := by
  have h := run_orderly hrun
  refine ⟨?_, h.handed, ?_, fun k c i fired hhome hi => h.waiting_unsignalled hhome hi⟩
  · intro label hallow henabled
    obtain ⟨net', hx, -⟩ := exec_orderly h hallow henabled
    exact ⟨net', hx⟩
  · intro k c hc
    rw [← run_pushes hrun k, ← h.pending_eq c]
    exact h.items_eq hc

-- Of two requests, one is pushed before the accept and one while it waits.
theorem accept_loop_loses_no_request_two :
    ∃ net : AcceptNet ℕ Unit Unit,
      (machine ℕ Unit Unit .request).Run OneAtATime (new fun _ => none)
        [.attach () (), .start (), .pop () 0, .wait () 0, .push () 7, .push () 8,
          .complete () 0 false] net ∧
      net.itemsHandedTo () = [7] ∧ (net.queues ()).items = [8] ∧
      (pushedTo () [.attach () (), .start (), .pop () 0, .wait () 0, .push () 7, .push () 8,
          (.complete () 0 false : AcceptLabel ℕ Unit Unit)] : Multiset ℕ) =
        (net.queues ()).items + ((net.ports ()).holder.toList : Multiset ℕ) +
          net.itemsHandedTo () := by
  have hrun : (machine ℕ Unit Unit .request).Run OneAtATime (new fun _ => none)
      [.attach () (), .start (), .pop () 0, .wait () 0, .push () 7, .push () 8,
        .complete () 0 false] _ :=
    .snoc (.snoc (.snoc (.snoc (.snoc (.snoc (.snoc .nil rfl trivial rfl) ⟨rfl, rfl⟩ trivial rfl)
      trivial rfl rfl) trivial rfl rfl) trivial trivial rfl) trivial trivial rfl)
      rfl ⟨true, rfl, fun _ => rfl⟩ rfl
  refine ⟨_, hrun, rfl, rfl, (accept_loop_loses_no_request hrun).2.2.1 () () ?_⟩
  intro d
  exact ⟨fun _ => rfl, fun _ => rfl⟩

end Loop

end FabricRpc.V2.AcceptNet
