import FabricRpc.Printer

namespace FabricRpc.Printer

open Lib

abbrev space : UInt8 := 0x20

def strip (str : Bytes) : Bytes := str.dropWhile (· == space)

-- What stands in a line between two texts, the second of which is one byte.
def between (before : Bytes) (after : UInt8) (str : Bytes) : Option Bytes :=
  if before.isPrefixOf (strip str) then
    some (((strip str).drop before.length).takeWhile (· != after))
  else none

-- What follows the first of these bytes.
def afterByte (b : UInt8) (str : Bytes) : Bytes := (str.dropWhile (· != b)).drop 1

-- The url that a branch of the generated code compares with.
def urlOf (str : Bytes) : Option Bytes := between (lit "if (url == \"") 0x22 str

section Between

variable {before : Bytes} {after : UInt8}

theorem bne_of_not_mem {b : UInt8} {str : Bytes} (h : b ∉ str) : ∀ a ∈ str, (a != b) = true := by
  intro a hmem
  rw [bne_iff_ne]
  rintro rfl
  exact h hmem

theorem takeWhile_ne {b : UInt8} {value : Bytes} (hvalue : b ∉ value) (rest : Bytes) :
    (value ++ b :: rest).takeWhile (· != b) = value := by
  rw [List.takeWhile_append_of_pos (bne_of_not_mem hvalue)]
  simp

theorem between_eq_some {str value rest : Bytes} (hvalue : after ∉ value)
    (h : strip str = before ++ value ++ after :: rest) : between before after str = some value := by
  have hpre : before.isPrefixOf (strip str) = true := by
    rw [List.isPrefixOf_iff_prefix, h, List.append_assoc]
    exact List.prefix_append _ _
  rw [between, if_pos hpre, h, List.append_assoc, List.drop_left, takeWhile_ne hvalue]

-- What does not look at the blanks reads the same after them.
theorem filterMap_indented {β : Type*} {read : Bytes → Option β}
    (h : ∀ str, read (lit "  " ++ str) = read str) (strs : List Bytes) :
    (strs.map (lit "  " ++ ·)).filterMap read = strs.filterMap read := by
  rw [List.filterMap_map]
  congr 1
  funext str
  exact h str

-- A line that lacks a byte of the text is not read,
theorem between_eq_none {b : UInt8} {str : Bytes} (hb : b ∈ before) (hstr : b ∉ str) :
    between before after str = none := by
  rw [between, if_neg]
  rw [List.isPrefixOf_iff_prefix]
  intro hpre
  exact hstr ((List.dropWhile_suffix _).subset (hpre.subset hb))

-- nor one whose first name ends in another way.
theorem between_eq_none_of_name {word name rest more str : Bytes} {b c : UInt8}
    (hbefore : before = word ++ b :: rest) (hstr : strip str = name ++ c :: more)
    (hword : word.all identByte = true) (hname : name.all identByte = true)
    (hb : identByte b = false) (hc : identByte c = false) (hne : b ≠ c) :
    between before after str = none := by
  have hdrop (v : Bytes) (hv : v.all identByte = true) {d : UInt8} (hd : identByte d = false)
      (t : Bytes) : (v ++ d :: t).dropWhile identByte = d :: t := by
    rw [List.dropWhile_append_of_pos (List.all_eq_true.mp hv)]
    simp [hd]
  rw [between, if_neg]
  rw [List.isPrefixOf_iff_prefix, hbefore, hstr]
  rintro ⟨tail, htail⟩
  have heq := congrArg (List.dropWhile identByte) htail
  rw [List.append_assoc, List.cons_append, hdrop word hword hb, hdrop name hname hc] at heq
  exact hne (List.cons.inj heq).1

-- A name has no blank to strip.
theorem strip_name (i : Ident) (rest : Bytes) : strip (i.bytes ++ rest) = i.bytes ++ rest := by
  cases hbytes : i.bytes with
  | nil => exact absurd hbytes i.wellFormed.1
  | cons a bytes =>
      have hspace : (a == space) = false := by
        rw [beq_eq_false_iff_ne]
        rintro rfl
        have hmem : space ∈ i.bytes := hbytes ▸ List.mem_cons_self
        exact ident_not_mem i (by decide) hmem
      simp [strip, hspace]

theorem afterByte_append {b : UInt8} {str : Bytes} (h : b ∉ str) (rest : Bytes) :
    afterByte b (str ++ b :: rest) = rest := by
  rw [afterByte, List.dropWhile_append_of_pos (bne_of_not_mem h)]
  simp

theorem afterByte_of_not_mem {b : UInt8} {str : Bytes} (h : b ∉ str) : afterByte b str = [] := by
  have hdrop : (str ++ []).dropWhile (· != b) = [].dropWhile (· != b) :=
    List.dropWhile_append_of_pos (bne_of_not_mem h)
  rw [List.append_nil] at hdrop
  rw [afterByte, hdrop]
  rfl

theorem quote_not_mem (package : Package) (service method : Ident) :
    0x22 ∉ methodUrl package service method := by
  have hslash : (0x22 : UInt8) ∉ lit "/" := by decide
  simp only [methodUrl, List.mem_append, not_or]
  exact ⟨⟨⟨⟨hslash, scope_not_mem package (by decide) (by decide)⟩,
    ident_not_mem service (by decide)⟩, hslash⟩, ident_not_mem method (by decide)⟩

end Between

section Loops

variable {α β : Type*} {lines : α → List Bytes} {read : Bytes → Option β} {value : α → β}

-- Of a chain the branches are read, and nothing of what stands between them.
theorem filterMap_chainLines {values : α → List β} (helse : read (lit "else ") = none)
    (h : ∀ item, (lines item).filterMap read = values item) (first : Bool) (items : List α) :
    (chainLines lines first items).filterMap read = items.flatMap values := by
  induction items generalizing first with
  | nil => rfl
  | cons item items ih =>
      have hbetween : (if first then [] else [lit "else "]).filterMap read = [] := by
        cases first with
        | true => rfl
        | false => simp [helse]
      simp only [List.flatMap_cons, chainLines, List.filterMap_append, hbetween, h, ih,
        List.nil_append]

-- Of a loop that leaves items out.
theorem filterMap_flatMap_ite {p : α → Bool}
    (h : ∀ item, (lines item).filterMap read = if p item then [value item] else [])
    (items : List α) :
    (items.flatMap lines).filterMap read = (items.filter p).map value := by
  induction items with
  | nil => rfl
  | cons item items ih =>
      rw [List.flatMap_cons, List.filterMap_append, h, ih, List.filter_cons]
      split
      · rfl
      · rfl

end Loops

-- The first lines of a text. Printing more does not change them.
def Begins (strs : List Bytes) (p : Printer) : Prop := unlines newline strs <+: p.output

section Begins

variable {strs : List Bytes} {p : Printer}

theorem begins_new (strs : List Bytes) : Begins strs (new.write strs) := by
  rw [Begins, new_write]

theorem Begins.write (h : Begins strs p) (more : List Bytes) : Begins strs (p.write more) :=
  h.trans (List.prefix_append _ _)

theorem Begins.add (h : Begins strs p) (lines : Bytes) : Begins strs (p.add lines) :=
  h.trans (List.prefix_append _ _)

theorem Begins.indent (h : Begins strs p) : Begins strs p.indent := h

theorem Begins.outdent (h : Begins strs p) : Begins strs p.outdent := h

theorem Begins.foldl {α : Type*} {step : Printer → α → Printer} (h : Begins strs p)
    (hstep : ∀ p item, Begins strs p → Begins strs (step p item)) (items : List α) :
    Begins strs (items.foldl step p) := by
  induction items generalizing p with
  | nil => exact h
  | cons item items ih => exact ih (hstep p item h)

end Begins

end FabricRpc.Printer
