import FabricRpc.Lib.Lexer
import FabricRpc.Preamble

namespace FabricRpc.Cpp

open Lib Printer
open V1 (dollar)

-- Where a reader of C++ text is: in code, behind a slash there, in a comment of
-- one line, in one between /* and */, behind an asterisk there, in a string, or
-- behind a backslash there.
inductive Mode where
  | code
  | slash
  | line
  | block
  | star
  | string
  | escape
  deriving DecidableEq

-- Character literals are not read.
def stepCode (b : UInt8) : Option (Mode × Nesting UInt8) :=
  if b = 0x2F then some (.slash, .keep)
  else if b = 0x22 then some (.string, .keep)
  else if b = 0x27 then none
  else if b = 0x28 then some (.code, .push 0x29)
  else if b = 0x5B then some (.code, .push 0x5D)
  else if b = 0x7B then some (.code, .push 0x7D)
  else if b = 0x29 ∨ b = 0x5D ∨ b = 0x7D then some (.code, .pop b)
  else some (.code, .keep)

def lexer : Lexer UInt8 Mode where
  step
    | .code, b => stepCode b
    | .slash, b =>
        if b = 0x2F then some (.line, .keep)
        else if b = 0x2A then some (.block, .keep)
        else stepCode b
    | .line, b => some (if b = newline then .code else .line, .keep)
    | .block, b => some (if b = 0x2A then .star else .block, .keep)
    | .star, b =>
        some (if b = 0x2F then .code else if b = 0x2A then .star else .block, .keep)
    | .string, b =>
        if b = 0x22 then some (.code, .keep)
        else if b = 0x5C then some (.escape, .keep)
        else if b = newline then none
        else some (.string, .keep)
    | .escape, b => if b = newline then none else some (.string, .keep)

-- Every comment and every string is closed, a string on its line, and outside of
-- them the brackets nest.
def Closed (text : Bytes) : Prop := lexer.scan .code [] text = some (.code, [])

-- A line of a template, in whose holes may stand what is calm in these modes. A
-- comment of one line may go to its end.
def scanPiece (calm : List Mode) : Mode × List UInt8 → Piece UInt8 → Option (Mode × List UInt8)
  | (mode, stack), .text text => lexer.scan mode stack text
  | (mode, stack), .hole _ => if mode ∈ calm then some (mode, stack) else none

def scanLine (calm : List Mode) (stack : List UInt8) (line : List (Piece UInt8)) :
    Option (List UInt8) :=
  (line.foldlM (scanPiece calm) (.code, stack)).bind fun (mode, stack) =>
    if mode = .code ∨ mode = .line then some stack else none

def scanLines (calm : List Mode) (stack : List UInt8) (lines : List (List (Piece UInt8))) :
    Option (List UInt8) := lines.foldlM (scanLine calm) stack

section Lines

variable {calm : List Mode} {mode mode' : Mode} {stack stack' : List UInt8}
  {line : List (Piece UInt8)} {lines : List (List (Piece UInt8))} {content : Piece UInt8 → Bytes}

-- What stands in the pieces of a line.
structure Content (calm : List Mode) (content : Piece UInt8 → Bytes) (line : List (Piece UInt8)) :
    Prop where
  text : ∀ text, content (.text text) = text
  hole : ∀ name, .hole name ∈ line → ∀ mode ∈ calm, ∀ b ∈ content (.hole name),
    lexer.Calm mode b

theorem Content.of_cons {piece : Piece UInt8} (h : Content calm content (piece :: line)) :
    Content calm content line :=
  ⟨h.text, fun name hmem => h.hole name (List.mem_cons_of_mem _ hmem)⟩

theorem scan_pieces (hcontent : Content calm content line)
    (h : line.foldlM (scanPiece calm) (mode, stack) = some (mode', stack')) :
    lexer.scan mode stack (line.flatMap content) = some (mode', stack') := by
  induction line generalizing mode stack with
  | nil => exact h
  | cons piece line ih =>
      rw [List.foldlM_cons] at h
      obtain ⟨⟨next, opened⟩, hpiece, htail⟩ := Option.bind_eq_some_iff.mp h
      rw [List.flatMap_cons]
      cases piece with
      | text text =>
          rw [hcontent.text, Lexer.scan_append hpiece]
          exact ih hcontent.of_cons htail
      | hole name =>
          simp only [scanPiece, Option.ite_none_right_eq_some, Option.some.injEq] at hpiece
          obtain ⟨hmode, hsame⟩ := hpiece
          obtain ⟨rfl, rfl⟩ := Prod.mk.inj hsame
          have hcalm := hcontent.hole name List.mem_cons_self mode hmode
          rw [Lexer.scan_append (Lexer.scan_calm hcalm)]
          exact ih hcontent.of_cons htail

theorem scan_line (hcontent : Content calm content line)
    (h : scanLine calm stack line = some stack') :
    lexer.scan .code stack (line.flatMap content ++ [newline]) = some (.code, stack') := by
  obtain ⟨⟨mode, opened⟩, hpieces, hmode⟩ := Option.bind_eq_some_iff.mp h
  simp only [Option.ite_none_right_eq_some, Option.some.injEq] at hmode
  obtain ⟨hmode, rfl⟩ := hmode
  rw [Lexer.scan_append (scan_pieces hcontent hpieces)]
  rcases hmode with rfl | rfl
  · rfl
  · rfl

theorem foldlM_frame (h : line.foldlM (scanPiece calm) (mode, stack) = some (mode', stack'))
    (rest : List UInt8) :
    line.foldlM (scanPiece calm) (mode, stack ++ rest) = some (mode', stack' ++ rest) := by
  induction line generalizing mode stack with
  | nil =>
      obtain ⟨rfl, rfl⟩ := Prod.mk.inj (Option.some.inj h)
      rfl
  | cons piece line ih =>
      rw [List.foldlM_cons] at h ⊢
      obtain ⟨⟨next, opened⟩, hpiece, htail⟩ := Option.bind_eq_some_iff.mp h
      refine Option.bind_eq_some_iff.mpr ⟨(next, opened ++ rest), ?_, ih htail⟩
      cases piece with
      | text text => exact Lexer.scan_frame hpiece rest
      | hole name =>
          simp only [scanPiece, Option.ite_none_right_eq_some, Option.some.injEq] at hpiece ⊢
          obtain ⟨hmode, hsame⟩ := hpiece
          obtain ⟨rfl, rfl⟩ := Prod.mk.inj hsame
          exact ⟨hmode, rfl⟩

-- What a template leaves open does not depend on what is open around it.
theorem scanLines_frame (h : scanLines calm stack lines = some stack') (rest : List UInt8) :
    scanLines calm (stack ++ rest) lines = some (stack' ++ rest) := by
  induction lines generalizing stack with
  | nil =>
      obtain rfl := Option.some.inj h
      rfl
  | cons line lines ih =>
      rw [scanLines, List.foldlM_cons] at h ⊢
      obtain ⟨opened, hline, htail⟩ := Option.bind_eq_some_iff.mp h
      refine Option.bind_eq_some_iff.mpr ⟨opened ++ rest, ?_, ih htail⟩
      obtain ⟨⟨mode, stack''⟩, hpieces, hmode⟩ := Option.bind_eq_some_iff.mp hline
      simp only [Option.ite_none_right_eq_some, Option.some.injEq] at hmode
      obtain ⟨hmode, rfl⟩ := hmode
      rw [scanLine, foldlM_frame hpieces rest]
      exact if_pos hmode

end Lines

section Values

-- The bytes of names, of packages and of namespaces.
def wordByte (b : UInt8) : Bool := identByte b || b == 0x2E || b == 0x3A

-- Where names stand, and where the name of a file does.
def names : List Mode := [.code, .line, .string]

def quotes : List Mode := [.line, .string]

theorem calm_names {b : UInt8} (hb : wordByte b = true) : ∀ mode ∈ names, lexer.Calm mode b := by
  have hne (c : UInt8) (hc : wordByte c = false) : b ≠ c := by
    rintro rfl
    exact absurd (hb.symm.trans hc) (by simp)
  have hspecial := And.intro (hne 0x2F (by decide)) <| And.intro (hne 0x22 (by decide)) <|
    And.intro (hne 0x27 (by decide)) <| And.intro (hne 0x28 (by decide)) <|
    And.intro (hne 0x5B (by decide)) <| And.intro (hne 0x7B (by decide)) <|
    And.intro (hne 0x29 (by decide)) <| And.intro (hne 0x5D (by decide)) <|
    And.intro (hne 0x7D (by decide)) <| And.intro (hne newline (by decide)) (hne 0x5C (by decide))
  intro mode hmode
  simp only [names, List.mem_cons, List.not_mem_nil, or_false] at hmode
  rcases hmode with rfl | rfl | rfl
  · simp [Lexer.Calm, lexer, stepCode, hspecial]
  · simp [Lexer.Calm, lexer, hspecial]
  · simp [Lexer.Calm, lexer, hspecial]

theorem calm_quotes {b : UInt8} (hquote : b ≠ 0x22) (hback : b ≠ 0x5C) (hline : b ≠ newline) :
    ∀ mode ∈ quotes, lexer.Calm mode b := by
  intro mode hmode
  simp only [quotes, List.mem_cons, List.not_mem_nil, or_false] at hmode
  rcases hmode with rfl | rfl
  · simp [Lexer.Calm, lexer, hline]
  · simp [Lexer.Calm, lexer, hquote, hback, hline]

def Calms (calm : List Mode) (vars : List (Bytes × Bytes)) : Prop :=
  ∀ var ∈ vars, ∀ mode ∈ calm, ∀ b ∈ var.2, lexer.Calm mode b

theorem fill_content {calm : List Mode} {vars : List (Bytes × Bytes)} (hvars : Calms calm vars)
    (line : List (Piece UInt8)) : Content calm (Piece.fill vars) line where
  text := fun _ => rfl
  hole := by
    intro name _ mode hmode b hb
    cases hlookup : vars.lookup name with
    | none => simp [Piece.fill, hlookup] at hb
    | some value =>
        obtain ⟨before, after, hsplit, -⟩ := List.lookup_eq_some_iff.mp hlookup
        have hb : b ∈ value := by simpa [Piece.fill, hlookup] using hb
        exact hvars (name, value) (by simp [hsplit]) mode hmode b hb

-- A placeholder that was not replaced may stand in a comment.
theorem source_content {keys : List Bytes} (t : Template keys) {line : List (Piece UInt8)}
    (hline : line ∈ t.lines) : Content [.line] (Piece.source dollar) line where
  text := fun _ => rfl
  hole := by
    intro name hname mode hmode b hb
    obtain rfl := List.mem_singleton.mp hmode
    have hkey : name ∈ keys := by
      apply Template.hole_mem_keys t.laid
      exact List.mem_flatMap.mpr ⟨line, hline, List.mem_append_left _ hname⟩
    have hne : b ≠ newline := by
      rintro rfl
      have hmem : newline = dollar ∨ newline ∈ name ∨ newline = dollar := by
        simpa [Piece.source, placeholder] using hb
      rcases hmem with heq | hin | heq
      · exact absurd heq (by decide)
      · exact t.named name hkey hin
      · exact absurd heq (by decide)
    simp [Lexer.Calm, lexer, hne]

-- The names of a descriptor are calm wherever the generators write them.
theorem calms_names {vars : List (Bytes × Bytes)}
    (h : ∀ b, identByte b = false → b ≠ 0x2E → ∀ var ∈ vars, b ∉ var.2) : Calms names vars := by
  intro var hvar mode hmode b hb
  refine calm_names ?_ mode hmode
  cases hident : identByte b with
  | true => simp [wordByte, hident]
  | false =>
      have hdot : b = 0x2E := by
        by_contra hne
        exact h b hident hne var hvar hb
      simp [wordByte, hdot]

-- The name of a file, without its extension, that the generators can write in a
-- comment and between the quotes of an include.
structure Plain (base : Bytes) : Prop where
  dollar : dollar ∉ base
  newline : newline ∉ base
  quote : 0x22 ∉ base
  backslash : 0x5C ∉ base

section Plain

variable {base : Bytes} (h : Plain base)
include h

theorem Plain.values : Template.Values preambleKeys (preambleVars (base ++ lit ".proto")) :=
  preambleVars_values h.dollar h.newline

theorem Plain.calms : Calms quotes (preambleVars (base ++ lit ".proto")) := by
  have hcalm (value : Bytes) (h : 0x22 ∉ value ∧ 0x5C ∉ value ∧ FabricRpc.newline ∉ value) :
      ∀ mode ∈ quotes, ∀ b ∈ value, lexer.Calm mode b := by
    intro mode hmode b hb
    refine calm_quotes ?_ ?_ ?_ mode hmode
    · exact fun heq => h.1 (heq ▸ hb)
    · exact fun heq => h.2.1 (heq ▸ hb)
    · exact fun heq => h.2.2 (heq ▸ hb)
  have hproto : 0x22 ∉ lit ".proto" ∧ 0x5C ∉ lit ".proto" ∧ FabricRpc.newline ∉ lit ".proto" := by
    decide
  simp only [Calms, preambleVars_append, List.forall_mem_cons, List.not_mem_nil, false_implies,
    implies_true, and_true]
  refine ⟨hcalm _ ?_, hcalm _ ⟨h.quote, h.backslash, h.newline⟩, hcalm _ (by decide)⟩
  simp [h.quote, h.backslash, h.newline, hproto]

end Plain

theorem scan_shared_preamble : scanLines quotes [] sourceTemplate.lines = some [] ∧
    scanLines [.line] [] pragmaTemplate.lines = some [] ∧
    scanLines quotes [] includeTemplate.lines = some [] := by
  simp only [sourceTemplate, pragmaTemplate, includeTemplate, Template.ofText_lines]
  repeat rw [lit_ofList]
  exact ⟨rfl, rfl, rfl⟩

end Values

-- A template as it is printed, with what is calm in these modes in its holes.
def Prints {keys : List Bytes} (calm : List Mode) (t : Template keys) (p q : Printer) : Prop :=
  ∃ content, (∀ line ∈ t.lines, Content calm content line) ∧
    q = p.write (t.lines.map (·.flatMap content))

section Prints

variable {keys : List Bytes} (t : Template keys) {p : Printer} {calm : List Mode}
  {vars : List (Bytes × Bytes)}

section Vars

variable (hvars : Template.Values keys vars) (hcalm : Calms calm vars)
include hvars hcalm

theorem prints_vars : Prints calm t p (p.addVars vars t.text) :=
  ⟨_, fun line _ => fill_content hcalm line, t.printVars p hvars⟩

theorem prints_lnVars : Prints calm t p (p.addLnVars vars t.text) :=
  ⟨_, fun line _ => fill_content hcalm line, t.printLnVars p hvars⟩

end Vars

theorem prints_source : Prints [.line] t p (p.add t.text) :=
  ⟨_, fun _ hline => source_content t hline, t.print p⟩

theorem prints_ln : Prints [.line] t p (p.addLn t.text) :=
  ⟨_, fun _ hline => source_content t hline, t.printLn p⟩

theorem prints_plain (t : Template []) (vars : List (Bytes × Bytes)) :
    Prints [.line] t p (p.addVars vars t.text) :=
  ⟨_, fun _ hline => source_content t hline, t.printPlain p vars⟩

theorem prints_lnPlain (t : Template []) (vars : List (Bytes × Bytes)) :
    Prints [.line] t p (p.addLnVars vars t.text) :=
  ⟨_, fun _ hline => source_content t hline, t.printLnPlain p vars⟩

end Prints

-- What was printed so far leaves these brackets open, outside of comments and
-- strings.
def Reads (p : Printer) (stack : List UInt8) : Prop :=
  lexer.scan .code [] p.output = some (.code, stack)

theorem new_reads : Reads new [] := rfl

section Reads

variable {p q : Printer} {calm : List Mode} {stack before after : List UInt8} {b : UInt8}
  {keys : List Bytes} {t : Template keys}

theorem scan_indent (level : ℕ) (stack : List UInt8) :
    lexer.scan .code stack (indentStr level) = some (.code, stack) := by
  apply Lexer.scan_calm
  intro b hb
  obtain ⟨spaces, hspaces, hb⟩ := List.mem_flatten.mp hb
  rw [(List.mem_replicate.mp hspaces).2] at hb
  obtain rfl : b = 0x20 := by simpa [lit] using hb
  rfl

theorem scan_lines {lines : List (List (Piece UInt8))} {content : Piece UInt8 → Bytes}
    (level : ℕ) (hcontent : ∀ line ∈ lines, Content calm content line)
    (hlines : scanLines calm stack lines = some after) :
    lexer.scan .code stack (unlines newline
      ((lines.map (·.flatMap content)).map (indentStr level ++ ·))) = some (.code, after) := by
  induction lines generalizing stack with
  | nil =>
      obtain rfl := Option.some.inj hlines
      rfl
  | cons line lines ih =>
      rw [scanLines, List.foldlM_cons] at hlines
      obtain ⟨opened, hline, htail⟩ := Option.bind_eq_some_iff.mp hlines
      have hfirst := scan_line (hcontent line List.mem_cons_self) hline
      rw [List.map_cons, List.map_cons, unlines, List.flatMap_cons, List.append_assoc,
        List.append_assoc, Lexer.scan_append (scan_indent level stack), ← List.append_assoc,
        Lexer.scan_append hfirst]
      exact ih (fun other hother => hcontent other (List.mem_cons_of_mem _ hother)) htail

theorem reads_print (ht : scanLines calm before t.lines = some after)
    (hprint : Prints calm t p q) (h : Reads p (before ++ stack)) : Reads q (after ++ stack) := by
  obtain ⟨content, hcontent, rfl⟩ := hprint
  rw [Reads, Printer.write, Lexer.scan_append h]
  exact scan_lines p.level hcontent (scanLines_frame ht stack)

-- A template that closes what it opens, one that opens a bracket and one that
-- closes the last one.
theorem Reads.keeps (h : Reads p stack) (hprint : Prints calm t p q)
    (ht : scanLines calm [] t.lines = some []) : Reads q stack :=
  reads_print ht hprint h

theorem Reads.opens (h : Reads p stack) (hprint : Prints calm t p q)
    (ht : scanLines calm [] t.lines = some [b]) : Reads q (b :: stack) :=
  reads_print ht hprint h

theorem Reads.closes (h : Reads p (b :: stack)) (hprint : Prints calm t p q)
    (ht : scanLines calm [b] t.lines = some []) : Reads q stack :=
  reads_print ht hprint h

theorem Reads.indent (h : Reads p stack) : Reads p.indent stack := h

theorem Reads.outdent (h : Reads p stack) : Reads p.outdent stack := h

theorem Reads.foldl {α : Type*} {step : Printer → α → Printer} {items : List α}
    (h : Reads p stack)
    (hstep : ∀ item ∈ items, ∀ p, Reads p stack → Reads (step p item) stack) :
    Reads (items.foldl step p) stack := by
  induction items generalizing p with
  | nil => exact h
  | cons item items ih =>
      apply ih (hstep item List.mem_cons_self p h)
      exact fun other hmem => hstep other (List.mem_cons_of_mem _ hmem)

-- Texts that are closed are closed together.
theorem Closed.append {text more : Bytes} (h : Closed text) (hmore : Closed more) :
    Closed (text ++ more) := by
  rw [Closed, Lexer.scan_append h]
  exact hmore

end Reads

end FabricRpc.Cpp
