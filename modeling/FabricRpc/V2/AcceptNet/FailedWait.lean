import FabricRpc.V2.AcceptNet.Tagged

namespace FabricRpc.V2.Tagged

open AcceptNet (Enabled Recorded)

variable {τ κ ρ : Type*} {s s' : Tagged τ κ ρ} {label : AcceptLabel τ κ ρ}

-- The accepts that failed before their slot was filled are as if they had not
-- been started: each one's handler was called once, with the error, none is
-- registered any more, and no push delivers to one.
structure Undone (s : Tagged τ κ ρ) : Prop where
  handed : ∀ a ∈ s.failed, s.called.filter (·.1 = a) = [(a, true)]
  unregistered : ∀ a ∈ s.failed, ∀ k, a ∉ s.entries k
  pushes : ∀ a ∈ s.failed, ∀ k, (s.entries k).getLast? ≠ some a

-- What such a failure needs of the state: the accept is that of a request, and its
-- waiter is not in a queue.
def Unregistered (kind : AcceptKind) (s : Tagged τ κ ρ) (label : AcceptLabel τ κ ρ) : Prop :=
  s.failsEmpty label = true →
    kind = .request ∧ ∀ a error, s.ending label = some (a, error) → ∀ k, a ∉ s.entries k

theorem failsEmpty_iff : s.failsEmpty label = true ↔
    ∃ c i, label = .complete c i true ∧ (s.net.ports c).holder = none := by
  cases label with
  | complete c i error => cases error <;> simp [failsEmpty]
  | _ => simp [failsEmpty]

theorem filter_keyed {called : List (ℕ × Bool)} {a : ℕ} {error : Bool}
    (hnodup : (called.map Prod.fst).Nodup) (hmem : (a, error) ∈ called) :
    called.filter (·.1 = a) = [(a, error)] := by
  induction called with
  | nil => exact absurd hmem List.not_mem_nil
  | cons call called ih =>
      rw [List.map_cons, List.nodup_cons] at hnodup
      rcases List.mem_cons.mp hmem with rfl | hmem
      · have hnone : called.filter (·.1 = a) = [] := by
          rw [List.filter_eq_nil_iff]
          intro other hother heq
          exact hnodup.1 (List.mem_map.mpr ⟨other, hother, of_decide_eq_true heq⟩)
        rw [List.filter_cons_of_pos (by simp), hnone]
      · have hne : call.1 ≠ a := by
          rintro rfl
          exact hnodup.1 (List.mem_map.mpr ⟨_, hmem, rfl⟩)
        rw [List.filter_cons_of_neg (by simpa using hne), ih hnodup.2 hmem]

theorem Numbered.undone_iff (h : Numbered s) :
    Undone s ↔ ∀ a ∈ s.failed, ∀ k, a ∉ s.entries k := by
  refine ⟨Undone.unregistered, fun hnot => ⟨?_, hnot, ?_⟩⟩
  · exact fun a ha => filter_keyed h.once (h.failed a ha)
  · exact fun a ha k hlast => hnot a ha k (List.mem_of_getLast? hlast)

variable [DecidableEq κ] [DecidableEq ρ] {kind : AcceptKind}

-- The end of an accept touches no queue.
theorem complete_entries (h : Numbered s) {c : ρ} {i : ℕ} {error : Bool} {net : AcceptNet τ κ ρ}
    (hx : AcceptNet.exec kind s.net (.complete c i error) = .ok net) (k : κ) :
    (s.advance (.complete c i error) net).entries k = s.entries k := by
  have hqueue : net.queues k = s.net.queues k := AcceptNet.exec_queues hx k
  show retag _ _ (net.queues k).queueEntries.length _ = _
  rw [hqueue]
  exact retag_self (h.entries k)

theorem exec_undone (h : Numbered s) (hundone : Undone s) (hallow : Unregistered kind s label)
    (henabled : Enabled s.net label) (hx : (machine τ κ ρ kind).exec s label = .ok s') :
    Undone s' := by
  rw [(exec_numbered h henabled hx).undone_iff]
  obtain ⟨net, hnet, rfl⟩ := exec_ok hx
  intro a ha k hmem
  rcases List.mem_append.mp ha with ha | ha
  · -- A number that was called is not registered again.
    rcases mem_retag hmem with hold | htag
    · exact hundone.unregistered a ha k hold
    · have hended := (h.ended a (List.mem_map_of_mem (h.failed a ha))).2
      cases label with
      | pop c i => exact hended c (List.mem_of_getElem? htag)
      | _ => cases htag
  · split at ha
    · rename_i hfails
      obtain ⟨c, i, rfl, -⟩ := failsEmpty_iff.mp hfails
      rw [complete_entries h hnet] at hmem
      obtain ⟨⟨b, error⟩, hending, rfl⟩ := Option.map_eq_some_iff.mp (Option.mem_toList.mp ha)
      exact (hallow hfails).2 b error hending k hmem
    · exact absurd ha List.not_mem_nil

end FabricRpc.V2.Tagged
