import Mathlib.Data.List.Infix

namespace FabricRpc.Lib

variable {α : Type*}

-- What stands before the first occurrence of an element is known from the list.
theorem append_cons_inj {a : α} {s s' t t' : List α} (hs : a ∉ s) (hs' : a ∉ s')
    (h : s ++ a :: t = s' ++ a :: t') : s = s' ∧ t = t' := by
  induction s generalizing s' with
  | nil =>
      cases s' with
      | nil => exact ⟨rfl, (List.cons.inj h).2⟩
      | cons b s' => exact absurd (List.cons.inj h).1 (fun hab => hs' (by simp [hab]))
  | cons b s ih =>
      cases s' with
      | nil => exact absurd (List.cons.inj h).1.symm (fun hab => hs (by simp [hab]))
      | cons b' s' =>
          rw [List.mem_cons, not_or] at hs hs'
          obtain ⟨rfl, htail⟩ := List.cons.inj h
          obtain ⟨rfl, ht⟩ := ih hs.2 hs'.2 htail
          exact ⟨rfl, ht⟩

section Replace

variable [DecidableEq α]

-- Replaces every occurrence of a key, from the left and without overlap. The
-- number counts what is left of the occurrence that was just replaced.
def replaceFrom (key value : List α) : ℕ → List α → List α
  | _, [] => []
  | skip + 1, _ :: s => replaceFrom key value skip s
  | 0, a :: s =>
      if key.isPrefixOf (a :: s) then value ++ replaceFrom key value (key.length - 1) s
      else a :: replaceFrom key value 0 s

def replaceAll (key value s : List α) : List α := replaceFrom key value 0 s

-- A name between two marks.
def placeholder (mark : α) (name : List α) : List α := mark :: name ++ [mark]

variable {mark : α} {name : List α}

omit [DecidableEq α] in
@[simp] theorem length_placeholder : (placeholder mark name).length = name.length + 2 := by
  simp [placeholder]

-- A placeholder occurs at the beginning of a list only if the list begins with
-- a mark.
theorem placeholder_isPrefixOf_cons_ne {a : α} (ha : mark ≠ a) (s : List α) :
    (placeholder mark name).isPrefixOf (a :: s) = false := by
  have hne : (mark == a) = false := beq_false_of_ne ha
  simp [placeholder, List.isPrefixOf, hne]

-- It does not reach into a list without marks.
theorem placeholder_isPrefixOf_append {t : List α} (ht : mark ∉ t) (name s : List α) :
    (placeholder mark name).isPrefixOf (s ++ t) = (placeholder mark name).isPrefixOf s := by
  rw [Bool.eq_iff_iff, List.isPrefixOf_iff_prefix, List.isPrefixOf_iff_prefix]
  constructor
  · intro h
    rcases Nat.le_total (placeholder mark name).length s.length with hle | hlt
    · exact List.prefix_of_prefix_length_le h (List.prefix_append s t) hle
    · obtain ⟨rest, hrest⟩ := List.prefix_of_prefix_length_le (List.prefix_append s t) h hlt
      rw [← hrest, List.prefix_append_right_inj] at h
      -- What reaches beyond `s` ends with a mark.
      rcases rest.eq_nil_or_concat' with rfl | ⟨before, last, rfl⟩
      · exact ⟨[], by simpa using hrest.symm⟩
      · rw [placeholder, ← List.append_assoc] at hrest
        have hlast : last = mark := List.singleton_inj.mp (List.append_inj' hrest rfl).2
        exact absurd (h.subset (by simp [hlast])) ht
  · exact fun h => h.trans (List.prefix_append s t)

-- What has no mark before a list stays as it is,
theorem replaceAll_append_left {t : List α} (ht : mark ∉ t) (name value s : List α) :
    replaceAll (placeholder mark name) value (t ++ s) =
      t ++ replaceAll (placeholder mark name) value s := by
  induction t with
  | nil => rfl
  | cons a t ih =>
      rw [List.mem_cons, not_or] at ht
      simp only [List.cons_append, replaceAll, replaceFrom,
        placeholder_isPrefixOf_cons_ne ht.1, Bool.false_eq_true, if_false]
      exact congrArg (a :: ·) (ih ht.2)

-- so does what has none after it,
theorem replaceFrom_append_right {t : List α} (ht : mark ∉ t) (name value s : List α) (skip : ℕ)
    (hskip : skip ≤ s.length) :
    replaceFrom (placeholder mark name) value skip (s ++ t) =
      replaceFrom (placeholder mark name) value skip s ++ t := by
  induction s generalizing skip with
  | nil =>
      obtain rfl : skip = 0 := by simpa using hskip
      have hleft := replaceAll_append_left ht name value []
      simpa [replaceAll, replaceFrom] using hleft
  | cons a s ih =>
      cases skip with
      | succ skip => exact ih skip (by simpa using hskip)
      | zero =>
          have hsame := placeholder_isPrefixOf_append ht name (a :: s)
          rw [List.cons_append] at hsame
          simp only [List.cons_append, replaceFrom, hsame]
          cases hkey : (placeholder mark name).isPrefixOf (a :: s) with
          | true =>
              have hlen := (List.isPrefixOf_iff_prefix.mp hkey).length_le
              simp only [length_placeholder, List.length_cons] at hlen
              simp only [if_true, length_placeholder, List.append_assoc]
              rw [ih (name.length + 2 - 1) (by omega)]
          | false =>
              simp only [Bool.false_eq_true, if_false, List.cons_append]
              rw [ih 0 (by omega)]

theorem replaceAll_append_right {t : List α} (ht : mark ∉ t) (name value s : List α) :
    replaceAll (placeholder mark name) value (s ++ t) =
      replaceAll (placeholder mark name) value s ++ t :=
  replaceFrom_append_right ht name value s 0 (Nat.zero_le _)

-- and a list without marks.
theorem replaceAll_of_not_mem {s : List α} (hs : mark ∉ s) (name value : List α) :
    replaceAll (placeholder mark name) value s = s := by
  have hleft := replaceAll_append_left hs name value []
  simpa [replaceAll, replaceFrom] using hleft

theorem replaceFrom_length (key value s : List α) : replaceFrom key value s.length s = [] := by
  induction s with
  | nil => rfl
  | cons a s ih => exact ih

-- A placeholder on its own is what replaces it.
theorem replaceAll_placeholder (mark : α) (name value : List α) :
    replaceAll (placeholder mark name) value (placeholder mark name) = value := by
  have hself : (placeholder mark name).isPrefixOf (placeholder mark name) = true := by simp
  have hlen : (placeholder mark name).length - 1 = (name ++ [mark]).length := by simp
  rw [replaceAll, show placeholder mark name = mark :: (name ++ [mark]) from rfl] at *
  simp only [replaceFrom, hself, if_true, hlen, replaceFrom_length, List.append_nil]

end Replace

end FabricRpc.Lib
