import FabricRpc.Printer

namespace FabricRpc

open Lib Printer
open V1 (dollar)

-- std::string::rfind
def rfind (pattern : Bytes) : Bytes → Option ℕ
  | [] => if pattern.isEmpty then some 0 else none
  | b :: text =>
      match rfind pattern text with
      | some i => some (i + 1)
      | none => if pattern.isPrefixOf (b :: text) then some 0 else none

-- The name of a file without its extension, as both generators take it.
def getProtoNameNoExt (filename : Bytes) : Bytes :=
  match rfind (lit ".proto") filename with
  | some dot => filename.take dot
  | none => filename

section Name

theorem rfind_of_short {pattern text : Bytes} (h : text.length < pattern.length) :
    rfind pattern text = none := by
  induction text with
  | nil =>
      rw [rfind, if_neg]
      rw [List.isEmpty_iff]
      rintro rfl
      exact absurd h (Nat.lt_irrefl 0)
  | cons b text ih =>
      have hnot : ¬ pattern.isPrefixOf (b :: text) = true := fun hpre =>
        absurd (List.isPrefixOf_iff_prefix.mp hpre).length_le (Nat.not_le.mpr h)
      rw [List.length_cons] at h
      rw [rfind, ih (by omega)]
      exact if_neg hnot

-- It is the last occurrence that is found.
theorem rfind_append {pattern : Bytes} (hne : pattern ≠ []) (base : Bytes) :
    rfind pattern (base ++ pattern) = some base.length := by
  induction base with
  | nil =>
      cases pattern with
      | nil => exact absurd rfl hne
      | cons b pattern =>
          rw [List.nil_append, rfind, rfind_of_short (by simp)]
          simp
  | cons b base ih => rw [List.cons_append, rfind, ih, List.length_cons]

theorem getProtoNameNoExt_append (base : Bytes) :
    getProtoNameNoExt (base ++ lit ".proto") = base := by
  rw [getProtoNameNoExt, rfind_append (by decide)]
  exact List.take_left

end Name

def preambleKeys : List Bytes := [lit "filename", lit "filename_base", lit "message_header_ext"]

-- `vars` at the top of a generated file.
def preambleVars (filename : Bytes) : List (Bytes × Bytes) :=
  [(lit "filename", filename), (lit "filename_base", getProtoNameNoExt filename),
    (lit "message_header_ext", lit ".pb.h")]

def sourceTemplate : Template preambleKeys := .ofText _
  (lit "// source: $filename$")
  [[.text (lit "// source: "), .hole (lit "filename")]]
  (by
    unfold preambleKeys
    repeat rw [lit_ofList]
    decide +kernel)

def pragmaTemplate : Template [] := .ofText _
  (lit "#pragma once")
  [[.text (lit "#pragma once")]]
  (by
    repeat rw [lit_ofList]
    decide +kernel)

def includeTemplate : Template preambleKeys := .ofText _
  (lit "#include \"$filename_base$$message_header_ext$\"")
  [[.text (lit "#include \""), .hole (lit "filename_base"), .hole (lit "message_header_ext"),
    .text (lit "\"")]]
  (by
    unfold preambleKeys
    repeat rw [lit_ofList]
    decide +kernel)

section Fill

variable {base : Bytes}

theorem preambleVars_append (base : Bytes) : preambleVars (base ++ lit ".proto") =
    [(lit "filename", base ++ lit ".proto"), (lit "filename_base", base),
      (lit "message_header_ext", lit ".pb.h")] := by
  rw [preambleVars, getProtoNameNoExt_append]

-- A file whose name is not taken for a placeholder or for two lines.
theorem preambleVars_values (hdollar : dollar ∉ base) (hline : newline ∉ base) :
    Template.Values preambleKeys (preambleVars (base ++ lit ".proto")) where
  names := rfl
  valid := by decide +kernel
  unmarked := by
    simp only [preambleVars_append, List.forall_mem_cons, List.mem_append, not_or,
      List.not_mem_nil, false_implies, implies_true, and_true]
    exact ⟨⟨hdollar, by decide⟩, hdollar, by decide⟩
  unlined := by
    simp only [preambleVars_append, List.forall_mem_cons, List.mem_append, not_or,
      List.not_mem_nil, false_implies, implies_true, and_true]
    exact ⟨⟨hline, by decide⟩, hline, by decide⟩

theorem lookup_filename : (preambleVars (base ++ lit ".proto")).lookup (lit "filename") =
    some (base ++ lit ".proto") := rfl

theorem lookup_filename_base :
    (preambleVars (base ++ lit ".proto")).lookup (lit "filename_base") = some base := by
  rw [preambleVars_append]
  rfl

theorem lookup_message_header_ext :
    (preambleVars (base ++ lit ".proto")).lookup (lit "message_header_ext") =
      some (lit ".pb.h") := rfl

theorem fill_source : sourceTemplate.lines.map (fill (preambleVars (base ++ lit ".proto"))) =
    [lit "// source: " ++ base ++ lit ".proto"] := by
  simp [sourceTemplate, fill, Piece.fill, lookup_filename]

theorem source_pragma : pragmaTemplate.lines.map (source dollar) = [lit "#pragma once"] := by
  simp [pragmaTemplate, source, Piece.source]

theorem fill_include : includeTemplate.lines.map (fill (preambleVars (base ++ lit ".proto"))) =
    [lit "#include \"" ++ base ++ lit ".pb.h" ++ lit "\""] := by
  simp [includeTemplate, fill, Piece.fill, lookup_filename_base, lookup_message_header_ext]

end Fill

end FabricRpc
