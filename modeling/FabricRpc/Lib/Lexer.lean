import Mathlib.Data.List.Basic

namespace FabricRpc.Lib

-- What a character does to the brackets that are open: it opens one that is
-- closed by `a`, or it is the `a` that closes the last one.
inductive Nesting (α : Type*) where
  | keep
  | push (a : α)
  | pop (a : α)
  deriving DecidableEq

-- A reader of characters in modes, such as code, a comment or a string, that
-- keeps the brackets that are open.
structure Lexer (α μ : Type*) where
  step : μ → α → Option (μ × Nesting α)

namespace Lexer

variable {α μ : Type*} [DecidableEq α] (lexer : Lexer α μ)

def nest : Nesting α → List α → Option (List α)
  | .keep, stack => some stack
  | .push a, stack => some (a :: stack)
  | .pop _, [] => none
  | .pop a, b :: stack => if a = b then some stack else none

def read (mode : μ) (stack : List α) (a : α) : Option (μ × List α) :=
  (lexer.step mode a).bind fun (mode, nesting) =>
    (nest nesting stack).map fun stack => (mode, stack)

def scan (mode : μ) (stack : List α) : List α → Option (μ × List α)
  | [] => some (mode, stack)
  | a :: text => (lexer.read mode stack a).bind fun (mode, stack) => scan mode stack text

variable {lexer} {mode mode' : μ} {stack stack' : List α} {text more : List α}

@[simp] theorem scan_nil : lexer.scan mode stack [] = some (mode, stack) := rfl

-- A text is read part by part.
theorem scan_append (h : lexer.scan mode stack text = some (mode', stack')) :
    lexer.scan mode stack (text ++ more) = lexer.scan mode' stack' more := by
  induction text generalizing mode stack with
  | nil =>
      obtain ⟨rfl, rfl⟩ := Prod.mk.inj (Option.some.inj h)
      rfl
  | cons a text ih =>
      rw [List.cons_append]
      simp only [scan] at h ⊢
      cases hread : lexer.read mode stack a with
      | none =>
          rw [hread] at h
          exact absurd h (by simp)
      | some next =>
          rw [hread, Option.bind_some] at h
          rw [Option.bind_some]
          exact ih h

theorem nest_append {nesting : Nesting α} (h : nest nesting stack = some stack') (rest : List α) :
    nest nesting (stack ++ rest) = some (stack' ++ rest) := by
  cases nesting with
  | keep =>
      obtain rfl := Option.some.inj h
      rfl
  | push a =>
      obtain rfl := Option.some.inj h
      rfl
  | pop a =>
      cases stack with
      | nil => exact absurd h (by simp [nest])
      | cons b stack =>
          simp only [nest, Option.ite_none_right_eq_some, Option.some.injEq] at h
          obtain ⟨rfl, rfl⟩ := h
          simp [nest]

-- The brackets that a text does not close do not matter to it.
theorem scan_frame (h : lexer.scan mode stack text = some (mode', stack')) (rest : List α) :
    lexer.scan mode (stack ++ rest) text = some (mode', stack' ++ rest) := by
  induction text generalizing mode stack with
  | nil =>
      obtain ⟨rfl, rfl⟩ := Prod.mk.inj (Option.some.inj h)
      rfl
  | cons a text ih =>
      simp only [scan, read, Option.bind_eq_some_iff, Option.map_eq_some_iff] at h
      obtain ⟨⟨next, stack''⟩, ⟨⟨mode'', nesting⟩, hstep, opened, hnest, hnext⟩, htail⟩ := h
      obtain ⟨rfl, rfl⟩ := Prod.mk.inj hnext
      simp only [scan, read, hstep, Option.bind_some, nest_append hnest, Option.map_some]
      exact ih htail

-- A character that changes nothing in a mode.
def Calm (lexer : Lexer α μ) (mode : μ) (a : α) : Prop := lexer.step mode a = some (mode, .keep)

theorem scan_calm (h : ∀ a ∈ text, lexer.Calm mode a) :
    lexer.scan mode stack text = some (mode, stack) := by
  induction text with
  | nil => rfl
  | cons a text ih =>
      have ha : lexer.step mode a = some (mode, .keep) := h a List.mem_cons_self
      simp only [scan, read, ha, Option.bind_some, nest, Option.map_some]
      exact ih fun other hother => h other (List.mem_cons_of_mem _ hother)

end Lexer

end FabricRpc.Lib
