import Mathlib.Data.List.Basic

namespace FabricRpc.Lib

variable {α : Type*} (newline : α)

-- A text, by its lines. Each of them ends.
def unlines (lines : List (List α)) : List α := lines.flatMap fun line => line ++ [newline]

variable {newline} {lines more : List (List α)}

@[simp] theorem unlines_nil : unlines newline ([] : List (List α)) = [] := rfl

@[simp] theorem unlines_append :
    unlines newline (lines ++ more) = unlines newline lines ++ unlines newline more := by
  simp [unlines]

theorem mem_unlines {a : α} (h : a ∈ unlines newline lines) :
    (∃ line ∈ lines, a ∈ line) ∨ a = newline := by
  obtain ⟨line, hline, ha⟩ := List.mem_flatMap.mp h
  rcases List.mem_append.mp ha with ha | ha
  · exact .inl ⟨line, hline, ha⟩
  · exact .inr (List.mem_singleton.mp ha)

-- A line stands in the text.
theorem infix_unlines {line : List α} (h : line ∈ lines) : line <:+: unlines newline lines := by
  obtain ⟨before, after, rfl⟩ := List.append_of_mem h
  exact ⟨unlines newline before, newline :: unlines newline after, by simp [unlines]⟩

variable [DecidableEq α]

theorem splitOn_unlines_append (h : ∀ line ∈ lines, newline ∉ line) (rest : List α) :
    (unlines newline lines ++ rest).splitOn newline = lines ++ rest.splitOn newline := by
  induction lines with
  | nil => rfl
  | cons line lines ih =>
      have hsplit : unlines newline (line :: lines) ++ rest =
          line ++ newline :: (unlines newline lines ++ rest) := by
        simp [unlines]
      rw [hsplit, List.splitOn_append_cons_self_of_not_mem (h line List.mem_cons_self),
        ih fun other hmem => h other (List.mem_cons_of_mem _ hmem), List.cons_append]

-- The lines are read back, up to the empty text after the last one.
theorem splitOn_unlines (h : ∀ line ∈ lines, newline ∉ line) :
    (unlines newline lines).splitOn newline = lines ++ [[]] := by
  simpa using splitOn_unlines_append h []

end FabricRpc.Lib
