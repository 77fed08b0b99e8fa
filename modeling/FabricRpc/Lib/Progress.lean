import FabricRpc.Lib.Machine
import Mathlib.Logic.Basic
import Mathlib.Algebra.Order.BigOperators.Group.Finset
import Mathlib.Data.Nat.Notation

namespace FabricRpc.Lib

-- A list over a finite set, with each element at most so many times.
theorem length_le_of_count {α : Type*} [DecidableEq α] {l : List α} {s : Finset α} {n : ℕ}
    (hmem : ∀ a ∈ l, a ∈ s) (hcount : ∀ a ∈ l, l.countP (fun b => b = a) ≤ n) :
    l.length ≤ n * s.card := by
  rw [← List.sum_toFinset_count_eq_length, Nat.mul_comm]
  calc
    _ ≤ l.toFinset.card * n := by
        apply Finset.sum_le_card_nsmul
        intro a ha
        exact hcount a (List.mem_toFinset.mp ha)
    _ ≤ s.card * n := by
        apply Nat.mul_le_mul_right
        apply Finset.card_le_card
        intro a ha
        exact hmem a (List.mem_toFinset.mp ha)

namespace Machine

variable {σ ι φ σ' ι' φ' : Type*} {m : Machine σ ι φ} {m' : Machine σ' ι' φ'}
  {allow : List ι → σ → ι → Prop} {allow' : List ι' → σ' → ι' → Prop}
  {start s : σ} {start' : σ'} {labels : List ι}

-- A relation that every step keeps, by steps of another machine, carries a run
-- over to a run of that machine.
theorem Run.simulates (rel : List ι → σ → List ι' → σ' → Prop) (hstart : rel [] start [] start')
    (hstep : ∀ labels s label next labels' t, rel labels s labels' t →
      m'.Run allow' start' labels' t → allow labels s label → m.enabled s label →
      m.exec s label = .ok next →
      ∃ labels'' t', m'.Run allow' start' labels'' t' ∧ rel (labels ++ [label]) next labels'' t')
    (hrun : m.Run allow start labels s) :
    ∃ labels' t, m'.Run allow' start' labels' t ∧ rel labels s labels' t := by
  apply hrun.invariant fun labels s => ∃ labels' t, m'.Run allow' start' labels' t ∧
    rel labels s labels' t
  · exact ⟨[], start', .nil, hstart⟩
  · rintro labels s label next ⟨labels', t, hrun', hrel⟩ hallow henabled hx
    exact hstep labels s label next labels' t hrel hrun' hallow henabled hx

-- No step of a kind can be taken.
def Quiet (m : Machine σ ι φ) (allow : List ι → σ → ι → Prop) (kind : ι → Prop) (labels : List ι)
    (s : σ) : Prop :=
  ∀ label, kind label → allow labels s label → ¬m.enabled s label

-- Steps of a kind that succeed and are bounded, whatever the others do, end in a
-- quiet state.
theorem Run.quiets (kind : ι → Prop) [DecidablePred kind] (bound : List ι → ℕ)
    (hkeep : ∀ labels label, kind label → bound (labels ++ [label]) = bound labels)
    (hbound : ∀ labels s, m.Run allow start labels s → labels.countP kind ≤ bound labels)
    (hexec : ∀ labels s label, m.Run allow start labels s → kind label → allow labels s label →
      m.enabled s label → ∃ next, m.exec s label = .ok next)
    (hrun : m.Run allow start labels s) :
    ∃ more t, (∀ label ∈ more, kind label) ∧ m.Run allow start (labels ++ more) t ∧
      m.Quiet allow kind (labels ++ more) t := by
  induction hleft : bound labels - labels.countP kind using Nat.strongRecOn
    generalizing labels s with
  | ind n ih =>
      by_cases hquiet : m.Quiet allow kind labels s
      · refine ⟨[], s, by simp, ?_, ?_⟩
        · simpa using hrun
        · simpa using hquiet
      · simp only [Quiet, not_forall, not_not] at hquiet
        obtain ⟨label, hkind, hallow, henabled⟩ := hquiet
        obtain ⟨next, hx⟩ := hexec labels s label hrun hkind hallow henabled
        have hrun' := hrun.snoc hallow henabled hx
        have hcount : (labels ++ [label]).countP kind = labels.countP kind + 1 := by simp [hkind]
        have hless := hbound _ _ hrun'
        rw [hkeep labels label hkind] at hless
        obtain ⟨more, t, hmore, hrun'', hquiet⟩ := ih (bound (labels ++ [label]) -
          (labels ++ [label]).countP kind) (by rw [hkeep labels label hkind]; omega) hrun' rfl
        have hassoc : labels ++ label :: more = labels ++ [label] ++ more := by simp
        refine ⟨label :: more, t, ?_, ?_, ?_⟩
        · intro other hother
          rcases List.mem_cons.mp hother with rfl | hother
          · exact hkind
          · exact hmore other hother
        · rw [hassoc]
          exact hrun''
        · rw [hassoc]
          exact hquiet

end Machine

end FabricRpc.Lib
