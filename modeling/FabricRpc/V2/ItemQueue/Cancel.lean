import FabricRpc.V2.ItemQueue

namespace FabricRpc.V2.ItemQueue

variable {τ ε σ : Type*} [DecidableEq ε]

-- What cancel is there for: the waiters with the event go, all else stays.
def Removes (q : ItemQueue τ ε σ) (event : ε) : Prop :=
  q.cancel event = ⟨q.items, q.queueEntries.filter (·.event ≠ event)⟩

-- Below the tail there is no waiter with the event.
def TailOnly (q : ItemQueue τ ε σ) (event : ε) : Prop :=
  ∀ e ∈ q.queueEntries.dropLast, e.event ≠ event

theorem cancel_of_nil {q : ItemQueue τ ε σ} (h : q.queueEntries = []) (event : ε) :
    q.cancel event = q := by
  simp [cancel, h]

theorem cancel_of_concat {q : ItemQueue τ ε σ} {entries : List (QueueEntry ε σ)}
    {e : QueueEntry ε σ} (h : q.queueEntries = entries ++ [e]) (event : ε) :
    q.cancel event = ⟨q.items, entries ++ if e.event = event then [] else [e]⟩ := by
  by_cases he : e.event = event
  · simp [cancel, h, he]
  · obtain ⟨items, queueEntries⟩ := q
    obtain rfl : queueEntries = entries ++ [e] := h
    simp [cancel, he]

-- The tail is removed or kept as it should be. What stands below stays.
theorem removes_iff_tailOnly (q : ItemQueue τ ε σ) (event : ε) :
    q.Removes event ↔ q.TailOnly event := by
  rcases q.queueEntries.eq_nil_or_concat' with h | ⟨entries, e, h⟩
  · obtain ⟨items, queueEntries⟩ := q
    obtain rfl : queueEntries = [] := h
    refine iff_of_true ?_ (fun _ he => absurd he List.not_mem_nil)
    rw [Removes, cancel_of_nil rfl]
    rfl
  · have hfilter : (entries ++ [e]).filter (·.event ≠ event) =
        entries.filter (·.event ≠ event) ++ if e.event = event then [] else [e] := by
      by_cases he : e.event = event <;> simp [he]
    rw [Removes, TailOnly, cancel_of_concat h, h, hfilter, List.dropLast_concat,
      ItemQueue.mk.injEq, List.append_left_inj]
    constructor
    · rintro ⟨-, hsame⟩ e he
      rw [hsame, List.mem_filter] at he
      exact of_decide_eq_true he.2
    · intro htail
      refine ⟨rfl, (List.filter_eq_self.mpr ?_).symm⟩
      exact fun e he => decide_eq_true (htail e he)

-- Nothing below the tail is ever removed.
theorem mem_cancel_of_dropLast {q : ItemQueue τ ε σ} {event : ε} {e : QueueEntry ε σ}
    (he : e ∈ q.queueEntries.dropLast) : e ∈ (q.cancel event).queueEntries := by
  rcases q.queueEntries.eq_nil_or_concat' with h | ⟨entries, last, h⟩
  · simp [h] at he
  · rw [h, List.dropLast_concat] at he
    rw [cancel_of_concat h]
    exact List.mem_append_left _ he

end FabricRpc.V2.ItemQueue
