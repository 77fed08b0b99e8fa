import FabricRpc.Lib.Template.Spaced
import FabricRpc.V1.Generator.Contents
import FabricRpc.V2.Generator.Contents

namespace FabricRpc

open Lib
open V1 (dollar expand)

namespace Template

variable {keys : List Bytes} (t : Template keys)

-- The text with its last line ended, in pieces.
def pieces : List (Piece UInt8) := t.lines.flatMap (· ++ [.text [newline]])

theorem mark_not_mem_of_laid {pieces : List (Piece UInt8)}
    (h : Lib.laid dollar keys pieces = true) :
    ∀ text, .text text ∈ pieces → dollar ∉ text := by
  induction pieces with
  | nil => exact fun text hmem => absurd hmem List.not_mem_nil
  | cons piece pieces ih =>
      intro text hmem
      cases piece with
      | text first =>
          simp only [Lib.laid, Bool.and_eq_true, Bool.not_eq_true', List.contains_eq_mem,
            decide_eq_false_iff_not] at h
          rcases List.mem_cons.mp hmem with heq | hmem
          · obtain rfl := Piece.text.inj heq
            exact h.1
          · exact ih h.2 text hmem
      | hole name =>
          simp only [Lib.laid, Bool.and_eq_true] at h
          exact ih h.2 text ((List.mem_cons.mp hmem).resolve_left (by simp))

-- No key has a newline, so it is enough to look at the lines.
theorem spaced (h : ∀ line ∈ t.lines, apart keys line = true) : Spaced dollar keys t.pieces := by
  have hclear : clearText keys [newline] = true :=
    clearText_iff.mpr ⟨newline, List.mem_singleton_self _, t.named⟩
  exact spaced_of_apart (mark_not_mem_of_laid t.laid) (apart_lines hclear h)

end Template

section Templates

theorem v1_templates_apart : (V1.PbGen.templates.all fun t =>
    t.2.lines.all (apart t.1)) = true := by decide +kernel

theorem v2_templates_apart : (V2.templates.all fun t =>
    t.2.lines.all (apart t.1)) = true := by decide +kernel

theorem templates_spaced :
    ∀ t ∈ V1.PbGen.templates ++ V2.templates, Spaced dollar t.1 t.2.pieces := by
  intro t ht
  apply t.2.spaced
  rcases List.mem_append.mp ht with ht | ht
  · exact List.all_eq_true.mp (List.all_eq_true.mp v1_templates_apart t ht)
  · exact List.all_eq_true.mp (List.all_eq_true.mp v2_templates_apart t ht)

end Templates

section Expand

variable {vars order : List (Bytes × Bytes)} {pieces : List (Piece UInt8)}

-- The variables are replaced in any order.
theorem expand_perm (hkeys : Keys dollar (vars.map Prod.fst))
    (hvalues : ∀ var ∈ vars, dollar ∉ var.2)
    (hnamed : ∀ name, .hole name ∈ pieces → name ∈ vars.map Prod.fst)
    (h : Spaced dollar (vars.map Prod.fst) pieces) (hperm : order.Perm vars) :
    expand order (source dollar pieces) = fill vars pieces := by
  have hnames : (order.map Prod.fst).Perm (vars.map Prod.fst) := hperm.map _
  rw [← fill_perm hperm hkeys.nodup]
  apply replaceEach_spaced hkeys _ _ _ h
  · exact fun var hvar => List.mem_map_of_mem (hperm.mem_iff.mp hvar)
  · exact fun var hvar => hvalues var (hperm.mem_iff.mp hvar)
  · exact fun name hname => hnames.mem_iff.mpr (hnamed name hname)

end Expand

-- Replacing the variables one after another, in any order, prints what filling all
-- placeholders at once does, and every template of the generators is such a template.
theorem substitution_simultaneous :
    (∀ (p : Printer) (vars : List (Bytes × Bytes)) (pieces : List (Piece UInt8)),
      Keys dollar (vars.map Prod.fst) → (∀ var ∈ vars, dollar ∉ var.2) →
      (∀ name, .hole name ∈ pieces → name ∈ vars.map Prod.fst) →
      Spaced dollar (vars.map Prod.fst) pieces →
      p.addVars vars (source dollar pieces) = p.add (fill vars pieces) ∧
      ∀ order, order.Perm vars →
        p.addVars order (source dollar pieces) = p.addVars vars (source dollar pieces)) ∧
    ∀ t ∈ V1.PbGen.templates ++ V2.templates, Spaced dollar t.1 t.2.pieces := by
  refine ⟨?_, templates_spaced⟩
  intro p vars pieces hkeys hvalues hnamed h
  have hvars := expand_perm hkeys hvalues hnamed h (List.Perm.refl vars)
  refine ⟨by rw [Printer.addVars, hvars], fun order hperm => ?_⟩
  rw [Printer.addVars, Printer.addVars, hvars, expand_perm hkeys hvalues hnamed h hperm]

-- Two variables that have each other's names as their values.
theorem substitution_simultaneous_swap : ∀ order : List (Bytes × Bytes),
    order.Perm [(lit "a", lit "b"), (lit "b", lit "a")] →
    (Printer.new.addVars order (lit "$a$$b$, $a$")).output = lit "ba, b\n" := by
  let vars : List (Bytes × Bytes) := [(lit "a", lit "b"), (lit "b", lit "a")]
  let pieces : List (Piece UInt8) :=
    [.hole (lit "a"), .hole (lit "b"), .text (lit ", "), .hole (lit "a")]
  have hkeys : Keys dollar (vars.map Prod.fst) := by decide
  have hvalues : ∀ var ∈ vars, dollar ∉ var.2 := by decide
  have hlaid : laid dollar (vars.map Prod.fst) pieces = true := by decide
  have hnamed : ∀ name, .hole name ∈ pieces → name ∈ vars.map Prod.fst := fun name hname =>
    Template.hole_mem_keys hlaid hname
  have hspaced : Spaced dollar (vars.map Prod.fst) pieces :=
    spaced_of_apart (Template.mark_not_mem_of_laid hlaid) (by decide)
  obtain ⟨hadd, horder⟩ :=
    substitution_simultaneous.1 Printer.new vars pieces hkeys hvalues hnamed hspaced
  have hsource : source dollar pieces = lit "$a$$b$, $a$" := by decide
  intro order hperm
  rw [← hsource, horder order hperm, hadd]
  decide

end FabricRpc
