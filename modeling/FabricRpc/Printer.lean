import FabricRpc.Lib.Lines
import FabricRpc.Lib.Template
import FabricRpc.V1.Generator

namespace FabricRpc

open Lib
open V1 (dollar expand)

abbrev newline : UInt8 := 0x0A

-- The printer of both generators.
structure Printer where
  level : ℕ
  output : Bytes
  deriving DecidableEq

namespace Printer

def new : Printer := ⟨0, []⟩

def indentStr (level : ℕ) : Bytes := (List.replicate level (lit "  ")).flatten

-- What boost::split leaves of a text, without the empty strings.
def strsOf (lines : Bytes) : List Bytes := (lines.splitOn newline).filter fun str => !str.isEmpty

def add (p : Printer) (lines : Bytes) : Printer :=
  { p with
    output := p.output ++ (strsOf lines).flatMap fun str => indentStr p.level ++ str ++ lit "\n" }

def addLn (p : Printer) (lines : Bytes) : Printer := p.add (lines ++ lit "\n")

def addVars (p : Printer) (vars : List (Bytes × Bytes)) (lines : Bytes) : Printer :=
  p.add (expand vars lines)

def addLnVars (p : Printer) (vars : List (Bytes × Bytes)) (lines : Bytes) : Printer :=
  p.addVars vars (lines ++ lit "\n")

def indent (p : Printer) : Printer := { p with level := p.level + 1 }

-- The generators close what they have opened, so the assertion holds.
def outdent (p : Printer) : Printer := { p with level := p.level - 1 }

-- Prints lines at the current level.
def write (p : Printer) (strs : List Bytes) : Printer :=
  { p with output := p.output ++ unlines newline (strs.map (indentStr p.level ++ ·)) }

-- A line that is printed as it is.
def Line (str : Bytes) : Prop := newline ∉ str ∧ str ≠ []

section Write

variable (p : Printer) (strs more : List Bytes)

@[simp] theorem write_write : (p.write strs).write more = p.write (strs ++ more) := by
  simp [write]

theorem indentStr_succ (level : ℕ) (str : Bytes) :
    indentStr (level + 1) ++ str = indentStr level ++ (lit "  " ++ str) := by
  rw [indentStr, List.replicate_succ', List.flatten_append]
  simp [indentStr]

-- What stands between Indent and Outdent.
@[simp] theorem indent_write_outdent :
    (p.indent.write strs).outdent = p.write (strs.map (lit "  " ++ ·)) := by
  simp [indent, outdent, write, indentStr_succ, Function.comp_def]

theorem Line.indented {str : Bytes} (h : Line str) : Line (lit "  " ++ str) := by
  refine ⟨?_, by simp [h.2]⟩
  rw [List.mem_append, not_or]
  exact ⟨by decide, h.1⟩

theorem add_eq_write (lines : Bytes) : p.add lines = p.write (strsOf lines) := by
  rw [add, write, unlines, List.flatMap_map]
  rfl

variable {strs}

theorem strsOf_unlines (h : ∀ str ∈ strs, Line str) : strsOf (unlines newline strs) = strs := by
  rw [strsOf, splitOn_unlines fun str hmem => (h str hmem).1, List.filter_append]
  have hkept : strs.filter (fun str => !str.isEmpty) = strs := by
    rw [List.filter_eq_self]
    intro str hmem
    simpa using (h str hmem).2
  simp [hkept]

-- It does not matter whether the last line is ended.
theorem strsOf_ln (lines : Bytes) : strsOf (lines ++ [newline]) = strsOf lines := by
  rw [strsOf, List.splitOn_append_cons_self, List.filter_append]
  simp [strsOf]

@[simp] theorem new_write (strs : List Bytes) :
    (new.write strs).output = unlines newline strs := by
  have hindent : (indentStr new.level ++ ·) = (id : Bytes → Bytes) := by
    funext str
    rfl
  rw [write, hindent, List.map_id]
  rfl

theorem write_lines (h : ∀ str ∈ strs, Line str) : strsOf (new.write strs).output = strs := by
  rw [new_write, strsOf_unlines h]

end Write

section Loops

variable {α β : Type*}

-- A chain of branches, with what stands between them.
def chainLines (lines : α → List Bytes) (first : Bool) : List α → List Bytes
  | [] => []
  | item :: items =>
      (if first then [] else [lit "else "]) ++ lines item ++ chainLines lines false items

theorem chainLines_map (lines : β → List Bytes) (f : α → β) (first : Bool) (items : List α) :
    chainLines lines first (items.map f) = chainLines (fun item => lines (f item)) first items := by
  induction items generalizing first with
  | nil => rfl
  | cons item items ih => simp only [List.map_cons, chainLines, ih]

variable {lines : α → List Bytes}

theorem foldl_write {step : Printer → α → Printer}
    (hstep : ∀ p item, step p item = p.write (lines item)) (items : List α) (p : Printer) :
    items.foldl step p = p.write (items.flatMap lines) := by
  induction items generalizing p with
  | nil => simp [write]
  | cons item items ih =>
      rw [List.foldl_cons, hstep, ih, write_write]
      rfl

-- A loop over the branches, from its `i`-th step.
theorem foldl_zipIdx_write {step : Printer → α × ℕ → Printer}
    (hstep : ∀ p item i, step p (item, i) =
      p.write ((if i = 0 then [] else [lit "else "]) ++ lines item))
    (items : List α) (p : Printer) (i : ℕ) :
    (items.zipIdx i).foldl step p = p.write (chainLines lines (i == 0) items) := by
  induction items generalizing p i with
  | nil => simp [chainLines, write]
  | cons item items ih =>
      rw [List.zipIdx_cons, List.foldl_cons, hstep, ih, write_write]
      simp [chainLines]

theorem chainLines_line (h : ∀ item, ∀ str ∈ lines item, Line str) (first : Bool)
    (items : List α) : ∀ str ∈ chainLines lines first items, Line str := by
  induction items generalizing first with
  | nil => exact fun str hstr => absurd hstr List.not_mem_nil
  | cons item items ih =>
      have helse : ∀ str ∈ (if first then [] else [lit "else "]), Line str := by
        cases first with
        | true => exact fun str hstr => absurd hstr List.not_mem_nil
        | false =>
            intro str hstr
            obtain rfl := List.mem_singleton.mp hstr
            exact ⟨by decide, by decide⟩
      simp only [chainLines, List.forall_mem_append]
      exact ⟨⟨helse, h item⟩, ih false⟩

theorem lines_indented {strs : List Bytes} (h : ∀ str ∈ strs, Line str) :
    ∀ str ∈ strs.map (lit "  " ++ ·), Line str := by
  intro str hstr
  obtain ⟨line, hline, rfl⟩ := List.mem_map.mp hstr
  exact (h line hline).indented

end Loops

end Printer

-- The names of the placeholders in the texts of a file, of a service and of a method.
def fileKeys : List Bytes := [lit "Namespace", lit "Package"]

def serviceKeys : List Bytes := [lit "Namespace", lit "Package", lit "Service"]

def methodKeys : List Bytes :=
  [lit "Method", lit "Namespace", lit "Package", lit "Request", lit "Response", lit "Service"]

-- A text that the generators print, and its lines. No line is empty, and the
-- placeholders are those of `keys`.
structure Template (keys : List Bytes) where
  text : Bytes
  lines : List (List (Piece UInt8))
  text_eq : text = unlines newline (lines.map (source dollar)) ∨
    text ++ [newline] = unlines newline (lines.map (source dollar))
  laid : laid dollar keys (lines.flatMap (· ++ [.text [newline]])) = true
  named : ∀ key ∈ keys, newline ∉ key
  unbroken : ∀ line ∈ lines, ∀ piece ∈ line, newline ∉ piece.fill []
  filled : ∀ line ∈ lines, fill [] line ≠ []

namespace Template

open Printer

-- The conditions on a template, by evaluation.
def check (keys : List Bytes) (text : Bytes) (lines : List (List (Piece UInt8))) : Bool :=
  (text == unlines newline (lines.map (source dollar)) ||
    text ++ [newline] == unlines newline (lines.map (source dollar))) &&
  Lib.laid dollar keys (lines.flatMap (· ++ [.text [newline]])) &&
  keys.all (fun key => !key.contains newline) &&
  lines.all fun line => line.all (fun piece => !(piece.fill []).contains newline) &&
    !(fill [] line).isEmpty

theorem check_iff {keys : List Bytes} {text : Bytes} {lines : List (List (Piece UInt8))} :
    check keys text lines = true ↔
      (text = unlines newline (lines.map (source dollar)) ∨
        text ++ [newline] = unlines newline (lines.map (source dollar))) ∧
      Lib.laid dollar keys (lines.flatMap (· ++ [.text [newline]])) = true ∧
      (∀ key ∈ keys, newline ∉ key) ∧
      ∀ line ∈ lines, (∀ piece ∈ line, newline ∉ piece.fill []) ∧ fill [] line ≠ [] := by
  simp [check, and_assoc]

def ofText (keys : List Bytes) (text : Bytes) (lines : List (List (Piece UInt8)))
    (h : check keys text lines = true) : Template keys where
  text := text
  lines := lines
  text_eq := (check_iff.mp h).1
  laid := (check_iff.mp h).2.1
  named := (check_iff.mp h).2.2.1
  unbroken := fun line hline => ((check_iff.mp h).2.2.2 line hline).1
  filled := fun line hline => ((check_iff.mp h).2.2.2 line hline).2

@[simp] theorem ofText_text {keys : List Bytes} {text : Bytes} {lines : List (List (Piece UInt8))}
    (h : check keys text lines = true) : (ofText keys text lines h).text = text := rfl

@[simp] theorem ofText_lines {keys : List Bytes} {text : Bytes} {lines : List (List (Piece UInt8))}
    (h : check keys text lines = true) : (ofText keys text lines h).lines = lines := rfl

variable {keys : List Bytes} (t : Template keys) (p : Printer)

theorem source_lines : source dollar (t.lines.flatMap (· ++ [.text [newline]])) =
    unlines newline (t.lines.map (source dollar)) := by
  simp [source, unlines, List.flatMap_assoc, List.flatMap_map, Piece.source]

theorem fill_lines (vars : List (Bytes × Bytes)) :
    fill vars (t.lines.flatMap (· ++ [.text [newline]])) =
      unlines newline (t.lines.map (fill vars)) := by
  simp [fill, unlines, List.flatMap_assoc, List.flatMap_map, Piece.fill]

-- What is in a hole does not empty a line.
theorem fill_ne_nil {line : List (Piece UInt8)} (hline : fill [] line ≠ [])
    (content : Piece UInt8 → Bytes) (hcontent : ∀ text, content (.text text) = text) :
    line.flatMap content ≠ [] := by
  intro hempty
  apply hline
  rw [fill, List.flatMap_eq_nil_iff]
  intro piece hmem
  cases piece with
  | text text =>
      have hnil := List.flatMap_eq_nil_iff.mp hempty _ hmem
      rw [hcontent] at hnil
      exact hnil
  | hole name => rfl

theorem not_mem_content {line : List (Piece UInt8)} {content : Piece UInt8 → Bytes}
    (hmem : ∀ piece ∈ line, newline ∉ content piece) : newline ∉ line.flatMap content := by
  intro hin
  obtain ⟨piece, hpiece, hin⟩ := List.mem_flatMap.mp hin
  exact hmem piece hpiece hin

theorem hole_mem_keys {mark : UInt8} {pieces : List (Piece UInt8)} {name : Bytes}
    (h : Lib.laid mark keys pieces = true) (hmem : .hole name ∈ pieces) : name ∈ keys := by
  induction pieces with
  | nil => exact absurd hmem List.not_mem_nil
  | cons piece pieces ih =>
      cases piece with
      | text text =>
          simp only [Lib.laid, Bool.and_eq_true] at h
          exact ih h.2 (by simpa using hmem)
      | hole other =>
          simp only [Lib.laid, Bool.and_eq_true, List.contains_eq_mem, decide_eq_true_eq] at h
          rcases List.mem_cons.mp hmem with heq | hmem
          · obtain rfl := Piece.hole.inj heq
            exact h.1.1
          · exact ih h.2 hmem

-- A text that is printed without values.
theorem source_line : ∀ str ∈ t.lines.map (source dollar), Line str := by
  intro str hstr
  obtain ⟨line, hline, rfl⟩ := List.mem_map.mp hstr
  refine ⟨not_mem_content fun piece hpiece => ?_, fill_ne_nil (t.filled line hline) _ fun _ => rfl⟩
  cases piece with
  | text text => exact t.unbroken line hline _ hpiece
  | hole name =>
      have hkey : name ∈ keys := by
        apply hole_mem_keys t.laid
        exact List.mem_flatMap.mpr ⟨line, hline, List.mem_append_left _ hpiece⟩
      have hname := t.named name hkey
      have hmark : newline ≠ dollar := by decide
      simp [Piece.source, placeholder, hname, hmark]

theorem print : p.add t.text = p.write (t.lines.map (source dollar)) := by
  have hstrs : strsOf t.text = t.lines.map (source dollar) := by
    rcases t.text_eq with htext | htext
    · rw [htext, strsOf_unlines t.source_line]
    · rw [← strsOf_ln, htext, strsOf_unlines t.source_line]
  rw [add_eq_write, hstrs]

theorem printLn : p.addLn t.text = p.write (t.lines.map (source dollar)) := by
  rw [← print, add_eq_write, addLn, add_eq_write]
  exact congrArg p.write (strsOf_ln t.text)

theorem expand_ln (vars : List (Bytes × Bytes)) (lines : Bytes) :
    expand vars (lines ++ [newline]) = expand vars lines ++ [newline] := by
  have hplain : dollar ∉ [newline] := by decide
  induction vars generalizing lines with
  | nil => rfl
  | cons var vars ih =>
      have hstep := replaceAll_append_right hplain var.1 var.2 lines
      rw [expand, List.foldl_cons, hstep]
      exact ih _

section Values

-- Values for the placeholders. They have neither placeholders nor line breaks.
structure Values (keys : List Bytes) (vars : List (Bytes × Bytes)) : Prop where
  names : vars.map Prod.fst = keys
  valid : Keys dollar keys
  unmarked : ∀ var ∈ vars, dollar ∉ var.2
  unlined : ∀ var ∈ vars, newline ∉ var.2

variable {vars : List (Bytes × Bytes)} (h : Values keys vars)
include h

theorem fill_line : ∀ str ∈ t.lines.map (fill vars), Line str := by
  intro str hstr
  obtain ⟨line, hline, rfl⟩ := List.mem_map.mp hstr
  refine ⟨not_mem_content fun piece hpiece => ?_, fill_ne_nil (t.filled line hline) _ fun _ => rfl⟩
  cases piece with
  | text text => exact t.unbroken line hline _ hpiece
  | hole name =>
      cases hlookup : vars.lookup name with
      | none => simp [Piece.fill, hlookup]
      | some value =>
          obtain ⟨before, after, hsplit, -⟩ := List.lookup_eq_some_iff.mp hlookup
          simpa [Piece.fill, hlookup] using h.unlined (name, value) (by simp [hsplit])

theorem expand_source : expand vars (unlines newline (t.lines.map (source dollar))) =
    unlines newline (t.lines.map (fill vars)) := by
  obtain ⟨hnames, hvalid, hunmarked, -⟩ := h
  subst hnames
  rw [← source_lines, ← fill_lines]
  exact replaceEach_source hvalid hunmarked t.laid

theorem printVars : p.addVars vars t.text = p.write (t.lines.map (fill vars)) := by
  have hstrs : strsOf (expand vars t.text) = t.lines.map (fill vars) := by
    rcases t.text_eq with htext | htext
    · rw [htext, expand_source t h, strsOf_unlines (t.fill_line h)]
    · rw [← strsOf_ln, ← expand_ln, htext, expand_source t h, strsOf_unlines (t.fill_line h)]
  rw [addVars, add_eq_write, hstrs]

theorem printLnVars : p.addLnVars vars t.text = p.write (t.lines.map (fill vars)) := by
  rw [← printVars t p h, addVars, add_eq_write, addLnVars, addVars, add_eq_write]
  refine congrArg p.write ?_
  rw [show lit "\n" = [newline] from rfl, expand_ln, strsOf_ln]

-- What is printed has no placeholder.
theorem fill_unmarked : ∀ str ∈ t.lines.map (fill vars), dollar ∉ str := by
  intro str hstr hmem
  have hfill := mark_not_mem_fill h.unmarked t.laid
  rw [fill_lines] at hfill
  exact hfill ((infix_unlines hstr).subset hmem)

end Values

section Names

open V1 (MethodDescriptor ServiceDescriptor)

variable (service : ServiceDescriptor) (method : MethodDescriptor) {space : Bytes} {b : UInt8}

-- The names of a descriptor have neither dollar signs nor line breaks.
theorem namespace_not_mem (package : Package) (h : space.all identByte = true)
    (hb : identByte b = false) (hdot : b ≠ 0x2E) :
    b ∉ if package.scope.isEmpty then space else package.scope.dropLast := by
  split
  · intro hmem
    have hletter := List.all_eq_true.mp h b hmem
    simp [hb] at hletter
  · intro hmem
    exact scope_not_mem package hb hdot (List.dropLast_subset _ hmem)

theorem serviceNames_not_mem (hspace : b ∉ space) (hb : identByte b = false) (hdot : b ≠ 0x2E) :
    ∀ var ∈ [(lit "Namespace", space), (lit "Package", service.package.scope),
      (lit "Service", service.name.bytes)], b ∉ var.2 := by
  simp only [List.mem_cons, List.not_mem_nil, or_false]
  rintro var (rfl | rfl | rfl)
  · exact hspace
  · exact scope_not_mem service.package hb hdot
  · exact ident_not_mem service.name hb

theorem methodNames_not_mem (hspace : b ∉ space) (hb : identByte b = false) (hdot : b ≠ 0x2E) :
    ∀ var ∈ [(lit "Method", method.name.bytes), (lit "Namespace", space),
      (lit "Package", service.package.scope), (lit "Request", method.inputType.bytes),
      (lit "Response", method.outputType.bytes), (lit "Service", service.name.bytes)],
      b ∉ var.2 := by
  simp only [List.mem_cons, List.not_mem_nil, or_false]
  rintro var (rfl | rfl | rfl | rfl | rfl | rfl)
  · exact ident_not_mem method.name hb
  · exact hspace
  · exact scope_not_mem service.package hb hdot
  · exact ident_not_mem method.inputType hb
  · exact ident_not_mem method.outputType hb
  · exact ident_not_mem service.name hb

theorem fileNames_values (package : Package) (hdollar : dollar ∉ space) (hline : newline ∉ space) :
    Values fileKeys [(lit "Namespace", space), (lit "Package", package.scope)] where
  names := rfl
  valid := by decide +kernel
  unmarked := by
    simp only [List.forall_mem_cons, List.not_mem_nil, false_implies, implies_true, and_true]
    exact ⟨hdollar, scope_not_mem package (by decide) (by decide)⟩
  unlined := by
    simp only [List.forall_mem_cons, List.not_mem_nil, false_implies, implies_true, and_true]
    exact ⟨hline, scope_not_mem package (by decide) (by decide)⟩

theorem serviceNames_values (hdollar : dollar ∉ space) (hline : newline ∉ space) :
    Values serviceKeys [(lit "Namespace", space), (lit "Package", service.package.scope),
      (lit "Service", service.name.bytes)] where
  names := rfl
  valid := by decide +kernel
  unmarked := serviceNames_not_mem service hdollar (by decide) (by decide)
  unlined := serviceNames_not_mem service hline (by decide) (by decide)

theorem methodNames_values (hdollar : dollar ∉ space) (hline : newline ∉ space) :
    Values methodKeys [(lit "Method", method.name.bytes), (lit "Namespace", space),
      (lit "Package", service.package.scope), (lit "Request", method.inputType.bytes),
      (lit "Response", method.outputType.bytes), (lit "Service", service.name.bytes)] where
  names := rfl
  valid := by decide +kernel
  unmarked := methodNames_not_mem service method hdollar (by decide) (by decide)
  unlined := methodNames_not_mem service method hline (by decide) (by decide)

end Names

theorem source_unmarked (t : Template []) : ∀ str ∈ t.lines.map (source dollar), dollar ∉ str := by
  intro str hstr hmem
  have hfill : dollar ∉ fill [] (t.lines.flatMap (· ++ [.text [newline]])) :=
    mark_not_mem_fill (by simp) t.laid
  rw [← source_of_no_keys t.laid, source_lines] at hfill
  exact hfill ((infix_unlines hstr).subset hmem)

-- Without placeholders the values do not matter.
theorem text_unmarked (t : Template []) : dollar ∉ t.text := by
  intro hmem
  have hlines : dollar ∈ unlines newline (t.lines.map (source dollar)) := by
    rcases t.text_eq with htext | htext
    · exact htext ▸ hmem
    · exact htext ▸ List.mem_append_left _ hmem
  rcases mem_unlines hlines with ⟨str, hstr, hdollar⟩ | heq
  · exact t.source_unmarked str hstr hdollar
  · exact absurd heq (by decide)

theorem printPlain (t : Template []) (p : Printer) (vars : List (Bytes × Bytes)) :
    p.addVars vars t.text = p.write (t.lines.map (source dollar)) := by
  rw [← print, addVars, V1.expand_of_not_mem t.text_unmarked]

theorem printLnPlain (t : Template []) (p : Printer) (vars : List (Bytes × Bytes)) :
    p.addLnVars vars t.text = p.write (t.lines.map (source dollar)) := by
  rw [← printLn, addLnVars, addVars, show lit "\n" = [newline] from rfl, expand_ln,
    V1.expand_of_not_mem t.text_unmarked]
  rfl

-- The texts that both generators print.
section Shared

theorem check_else : check []
    (lit "else ")
    [[.text (lit "else ")]] = true := by
  decide

theorem check_if : check methodKeys
    (lit "if (url == \"/$Package$$Service$/$Method$\") \x7b\n")
    [[.text (lit "if (url == \""), .text (lit "/"), .hole (lit "Package"), .hole (lit "Service"),
      .text (lit "/"), .hole (lit "Method"), .text (lit "\") \x7b")]] = true := by
  decide

theorem check_close : check []
    (lit "\x7d")
    [[.text (lit "\x7d")]] = true := by
  decide

theorem check_closeClass : check []
    (lit "\x7d;")
    [[.text (lit "\x7d;")]] = true := by
  decide

theorem check_private : check []
    (lit "private:\n")
    [[.text (lit "private:")]] = true := by
  decide

theorem check_notSupported : check methodKeys
    (lit "// Streamingfor method $Method$ request $Request$ response " ++
      lit "$Response$ not supported ")
    [[.text (lit "// Streamingfor method "), .hole (lit "Method"), .text (lit " request "),
      .hole (lit "Request"), .text (lit " response "), .hole (lit "Response"),
      .text (lit " not supported ")]] = true := by
  decide

theorem check_client : check []
    (lit "// Client code")
    [[.text (lit "// Client code")]] = true := by
  decide

theorem check_namespace : check fileKeys
    (lit "namespace $Namespace$ \x7b")
    [[.text (lit "namespace "), .hole (lit "Namespace"), .text (lit " \x7b")]] = true := by
  decide

theorem check_endNamespace : check fileKeys
    (lit "\x7d // namespace $Namespace$")
    [[.text (lit "\x7d // namespace "), .hole (lit "Namespace")]] = true := by
  decide

end Shared

end Template

namespace Printer

-- No placeholder is left so far.
def Clean (p : Printer) : Prop := dollar ∉ p.output

theorem new_clean : Clean new := List.not_mem_nil

variable {p : Printer} {keys : List Bytes} {vars : List (Bytes × Bytes)}

theorem Clean.write (h : p.Clean) {strs : List Bytes} (hstrs : ∀ str ∈ strs, dollar ∉ str) :
    (p.write strs).Clean := by
  have hindent : dollar ∉ indentStr p.level := by
    intro hmem
    obtain ⟨spaces, hspaces, hmem⟩ := List.mem_flatten.mp hmem
    rw [(List.mem_replicate.mp hspaces).2] at hmem
    exact absurd hmem (by decide)
  intro hmem
  rcases List.mem_append.mp hmem with hmem | hmem
  · exact h hmem
  · rcases mem_unlines hmem with ⟨line, hline, hmem⟩ | heq
    · obtain ⟨str, hstr, rfl⟩ := List.mem_map.mp hline
      rcases List.mem_append.mp hmem with hmem | hmem
      · exact hindent hmem
      · exact hstrs str hstr hmem
    · exact absurd heq (by decide)

theorem Clean.indent (h : p.Clean) : p.indent.Clean := h

theorem Clean.outdent (h : p.Clean) : p.outdent.Clean := h

theorem Clean.template (h : p.Clean) (t : Template []) : (p.add t.text).Clean := by
  rw [t.print]
  exact h.write t.source_unmarked

theorem Clean.templateLn (h : p.Clean) (t : Template []) : (p.addLn t.text).Clean := by
  rw [t.printLn]
  exact h.write t.source_unmarked

theorem Clean.templateVars (h : p.Clean) (t : Template keys) (hvars : Template.Values keys vars) :
    (p.addVars vars t.text).Clean := by
  rw [t.printVars p hvars]
  exact h.write (t.fill_unmarked hvars)

theorem Clean.templateLnVars (h : p.Clean) (t : Template keys)
    (hvars : Template.Values keys vars) : (p.addLnVars vars t.text).Clean := by
  rw [t.printLnVars p hvars]
  exact h.write (t.fill_unmarked hvars)

theorem Clean.templateLnPlain (h : p.Clean) (t : Template []) (vars : List (Bytes × Bytes)) :
    (p.addLnVars vars t.text).Clean := by
  rw [t.printLnPlain]
  exact h.write t.source_unmarked

-- A loop prints no placeholder if no step does.
theorem Clean.foldl {α : Type*} {step : Printer → α → Printer} {items : List α} (h : p.Clean)
    (hstep : ∀ item ∈ items, ∀ p : Printer, p.Clean → (step p item).Clean) :
    (items.foldl step p).Clean := by
  induction items generalizing p with
  | nil => exact h
  | cons item items ih =>
      apply ih (hstep item List.mem_cons_self p h)
      exact fun other hmem => hstep other (List.mem_cons_of_mem _ hmem)

end Printer

end FabricRpc
