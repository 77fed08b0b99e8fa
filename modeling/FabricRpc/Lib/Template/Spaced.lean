import FabricRpc.Lib.Template

namespace FabricRpc.Lib

variable {α : Type*} [DecidableEq α]

-- Text with an element that no key has.
def Clear (keys : List (List α)) (between : List (Piece α)) : Prop :=
  ∃ t, .text t ∈ between ∧ ∃ a ∈ t, ∀ key ∈ keys, a ∉ key

-- The text has no mark, and any two holes stand side by side or have clear text between
-- them.
structure Spaced (mark : α) (keys : List (List α)) (pieces : List (Piece α)) : Prop where
  unmarked : ∀ t, .text t ∈ pieces → mark ∉ t
  apart : ∀ before name between next after,
    pieces = before ++ .hole name :: (between ++ .hole next :: after) →
    source mark between = [] ∨ Clear keys between

variable {mark : α} {keys : List (List α)} {key value name : List α} {piece : Piece α}
  {pieces : List (Piece α)}

section Pieces

omit [DecidableEq α] in
theorem Spaced.of_cons (h : Spaced mark keys (piece :: pieces)) : Spaced mark keys pieces where
  unmarked := fun t hmem => h.unmarked t (List.mem_cons_of_mem _ hmem)
  apart := by
    intro before name between next after hsplit
    exact h.apart (piece :: before) name between next after (by rw [hsplit]; rfl)

omit [DecidableEq α] in
-- The first hole, if there is one.
theorem first_hole (pieces : List (Piece α)) : (∀ name, .hole name ∉ pieces) ∨
    ∃ between next after, pieces = between ++ .hole next :: after ∧
      ∀ name, .hole name ∉ between := by
  induction pieces with
  | nil => exact .inl fun name => List.not_mem_nil
  | cons piece pieces ih =>
      cases piece with
      | hole next => exact .inr ⟨[], next, pieces, rfl, fun name => List.not_mem_nil⟩
      | text t =>
          rcases ih with hnone | ⟨between, next, after, rfl, hnone⟩
          · exact .inl fun name => by simp [hnone]
          · exact .inr ⟨.text t :: between, next, after, rfl, fun name => by simp [hnone]⟩

omit [DecidableEq α] in
theorem mark_not_mem_source (hunmarked : ∀ t, .text t ∈ pieces → mark ∉ t)
    (hnone : ∀ name, .hole name ∉ pieces) : mark ∉ source mark pieces := by
  intro hmem
  obtain ⟨piece, hpiece, hmem⟩ := List.mem_flatMap.mp hmem
  cases piece with
  | text t => exact hunmarked t hpiece hmem
  | hole name => exact hnone name hpiece

omit [DecidableEq α] in
-- What stands between two marks is empty or clear, so it is no key.
theorem Spaced.not_prefix (h : Spaced mark keys (.hole name :: pieces)) (hkey : key ∈ keys)
    (hne : key ≠ []) (hunmarked : mark ∉ key) :
    ¬ key ++ [mark] <+: source mark pieces := by
  rintro ⟨rest, hrest⟩
  rcases first_hole pieces with hnone | ⟨between, next, after, hsplit, hnone⟩
  · have hmark : mark ∈ source mark pieces := by simp [← hrest]
    exact mark_not_mem_source h.of_cons.unmarked hnone hmark
  · have hmark : mark ∉ source mark between := by
      refine mark_not_mem_source (fun t hmem => h.of_cons.unmarked t ?_) hnone
      rw [hsplit]
      exact List.mem_append_left _ hmem
    have heq : key ++ mark :: rest =
        source mark between ++ mark :: (next ++ mark :: source mark after) := by
      rw [hsplit] at hrest
      simpa [source, Piece.source, placeholder] using hrest
    have hframed := (append_cons_inj hunmarked hmark heq).1
    rcases h.apart [] name between next after (by rw [hsplit]; rfl) with hempty | hclear
    · exact hne (hframed.trans hempty)
    · obtain ⟨t, ht, a, ha, hnot⟩ := hclear
      apply hnot key hkey
      rw [hframed]
      exact List.mem_flatMap.mpr ⟨.text t, ht, ha⟩

end Pieces

section Step

theorem Spaced.closed (hkeys : Keys mark keys) (hkey : key ∈ keys)
    (hnamed : ∀ name, .hole name ∈ pieces → name ∈ keys) (h : Spaced mark keys pieces) :
    Closed mark key pieces := by
  induction pieces with
  | nil => trivial
  | cons piece pieces ih =>
      have hrest := ih (fun name hmem => hnamed name (List.mem_cons_of_mem _ hmem)) h.of_cons
      cases piece with
      | text t => exact ⟨h.unmarked t List.mem_cons_self, hrest⟩
      | hole name =>
          have hne : key ≠ [] := fun hnil => hkeys.nonempty (hnil ▸ hkey)
          have hclose := h.not_prefix hkey hne (hkeys.unmarked key hkey)
          refine ⟨hkeys.unmarked name (hnamed name List.mem_cons_self), ?_, hrest⟩
          rw [Bool.eq_false_iff, ne_eq, List.isPrefixOf_iff_prefix, placeholder,
            List.cons_append, List.cons_prefix_cons]
          exact fun hpre => hclose hpre.2

-- A hole that is left was there before.
theorem eq_hole_of_set (h : piece.set key value = .hole name) :
    piece = .hole name ∧ name ≠ key := by
  cases piece with
  | text t => cases h
  | hole other =>
      rw [Piece.set] at h
      split at h
      · cases h
      · rename_i hne
        obtain rfl := Piece.hole.inj h
        exact ⟨rfl, hne⟩

theorem source_set_eq_nil (h : source mark pieces = []) :
    source mark (pieces.map (Piece.set key value)) = [] := by
  rw [source, List.flatMap_eq_nil_iff] at *
  intro piece hpiece
  obtain ⟨old, hold, rfl⟩ := List.mem_map.mp hpiece
  have hnil := h old hold
  cases old with
  | text t => exact hnil
  | hole name => simp [Piece.source, placeholder] at hnil

theorem Clear.set (h : Clear keys pieces) : Clear keys (pieces.map (Piece.set key value)) := by
  obtain ⟨t, ht, hclear⟩ := h
  exact ⟨t, List.mem_map.mpr ⟨.text t, ht, rfl⟩, hclear⟩

-- Filling a hole keeps the others apart, whatever the value.
theorem Spaced.set (hvalue : mark ∉ value) (h : Spaced mark keys pieces) :
    Spaced mark keys (pieces.map (Piece.set key value)) where
  unmarked := by
    intro t ht
    obtain ⟨old, hold, heq⟩ := List.mem_map.mp ht
    cases old with
    | text t' =>
        obtain rfl := Piece.text.inj heq
        exact h.unmarked t' hold
    | hole name =>
        rw [Piece.set] at heq
        split at heq
        · obtain rfl := Piece.text.inj heq
          exact hvalue
        · cases heq
  apart := by
    intro before name between next after hsplit
    obtain ⟨before, tail, rfl, rfl, htail⟩ := List.map_eq_append_iff.mp hsplit
    obtain ⟨first, tail, rfl, hfirst, hbetween⟩ := List.map_eq_cons_iff.mp htail
    obtain ⟨between, tail, rfl, rfl, hnext⟩ := List.map_eq_append_iff.mp hbetween
    obtain ⟨second, after, rfl, hsecond, rfl⟩ := List.map_eq_cons_iff.mp hnext
    obtain ⟨rfl, -⟩ := eq_hole_of_set hfirst
    obtain ⟨rfl, -⟩ := eq_hole_of_set hsecond
    rcases h.apart before name between next after rfl with hempty | hclear
    · exact .inl (source_set_eq_nil hempty)
    · exact .inr hclear.set

end Step

section Each

theorem source_of_no_holes (hnone : ∀ name, .hole name ∉ pieces) :
    source mark pieces = fill [] pieces := by
  rw [source, fill]
  apply List.flatMap_congr
  intro piece hpiece
  cases piece with
  | text t => rfl
  | hole name => exact absurd hpiece (hnone name)

-- Replacing the keys one after another, in this order, fills every hole.
theorem replaceEach_spaced {vars : List (List α × List α)} (hkeys : Keys mark keys)
    (hvars : ∀ var ∈ vars, var.1 ∈ keys) (hvalues : ∀ var ∈ vars, mark ∉ var.2)
    (hnamed : ∀ name, .hole name ∈ pieces → name ∈ vars.map Prod.fst)
    (h : Spaced mark keys pieces) :
    vars.foldl (fun s var => replaceAll (placeholder mark var.1) var.2 s) (source mark pieces) =
      fill vars pieces := by
  induction vars generalizing pieces with
  | nil => exact source_of_no_holes fun name hmem => absurd (hnamed name hmem) List.not_mem_nil
  | cons var vars ih =>
      obtain ⟨key, value⟩ := var
      have hkey := hvars (key, value) List.mem_cons_self
      have hvalue := hvalues (key, value) List.mem_cons_self
      have hclosed : Closed mark key pieces := by
        refine h.closed hkeys hkey fun name hmem => ?_
        obtain ⟨var, hvar, rfl⟩ := List.mem_map.mp (hnamed name hmem)
        exact hvars var hvar
      rw [List.foldl_cons, replaceAll_of_closed (hkeys.unmarked key hkey) hclosed, ← fill_set]
      refine ih (fun var hvar => hvars var (List.mem_cons_of_mem _ hvar))
        (fun var hvar => hvalues var (List.mem_cons_of_mem _ hvar)) (fun name hmem => ?_)
        (h.set hvalue)
      obtain ⟨old, hold, heq⟩ := List.mem_map.mp hmem
      obtain ⟨rfl, hne⟩ := eq_hole_of_set heq
      exact (List.mem_cons.mp (hnamed name hold)).resolve_left hne

-- Of three holes side by side the outer ones are not apart: a value may stand between
-- their marks like a name.
example : [([1], [2]), ([2], [4]), ([3], [5])].foldl
    (fun s var => replaceAll (placeholder 0 var.1) var.2 s)
      (source 0 [.hole [3], .hole [1], .hole [2]]) = [0, 3, 4, 2, 0] := by decide

theorem lookup_eq_some_iff_mem {vars : List (List α × List α)}
    (hnodup : (vars.map Prod.fst).Nodup) :
    vars.lookup name = some value ↔ (name, value) ∈ vars := by
  induction vars with
  | nil => simp
  | cons var vars ih =>
      obtain ⟨key, content⟩ := var
      rw [List.map_cons, List.nodup_cons] at hnodup
      by_cases hname : name = key
      · subst hname
        have hnot : (name, value) ∉ vars := fun hmem =>
          hnodup.1 (List.mem_map.mpr ⟨(name, value), hmem, rfl⟩)
        simp [hnot, eq_comm]
      · have hbeq : (name == key) = false := by simpa using hname
        simp [List.lookup_cons, hbeq, ih hnodup.2, hname]

-- It does not matter how the variables are ordered.
theorem fill_perm {vars order : List (List α × List α)} (hperm : order.Perm vars)
    (hnodup : (vars.map Prod.fst).Nodup) (pieces : List (Piece α)) :
    fill order pieces = fill vars pieces := by
  have hnodup' : (order.map Prod.fst).Nodup := (hperm.map Prod.fst).nodup_iff.mpr hnodup
  have hlookup (name : List α) : order.lookup name = vars.lookup name := by
    apply Option.ext
    intro value
    rw [lookup_eq_some_iff_mem hnodup', lookup_eq_some_iff_mem hnodup, hperm.mem_iff]
  rw [fill, fill]
  congr 1
  funext piece
  cases piece with
  | text t => rfl
  | hole name => rw [Piece.fill, Piece.fill, hlookup]

end Each

-- A test for holes that stand apart. After a hole, nothing but empty text may come
-- before the next one until there is clear text.
def clearText (keys : List (List α)) (t : List α) : Bool :=
  t.any fun a => keys.all fun key => !key.contains a

def apartFrom (keys : List (List α)) : Bool → List (Piece α) → Bool
  | _, [] => true
  | adjacent, .text t :: pieces =>
      clearText keys t || apartFrom keys (adjacent && t.isEmpty) pieces
  | adjacent, .hole _ :: pieces => adjacent && apartFrom keys false pieces

def apart (keys : List (List α)) : List (Piece α) → Bool
  | [] => true
  | .text _ :: pieces => apart keys pieces
  | .hole _ :: pieces => apartFrom keys true pieces && apart keys pieces

section Apart

theorem clearText_iff {t : List α} :
    clearText keys t = true ↔ ∃ a ∈ t, ∀ key ∈ keys, a ∉ key := by
  simp [clearText]

omit [DecidableEq α] in
theorem Clear.cons (h : Clear keys pieces) (piece : Piece α) : Clear keys (piece :: pieces) := by
  obtain ⟨t, ht, hclear⟩ := h
  exact ⟨t, List.mem_cons_of_mem _ ht, hclear⟩

theorem apartFrom_sound {adjacent : Bool} {between after : List (Piece α)} {next : List α}
    (h : apartFrom keys adjacent (between ++ .hole next :: after) = true) :
    (adjacent = true ∧ source mark between = []) ∨ Clear keys between := by
  induction between generalizing adjacent with
  | nil =>
      simp only [List.nil_append, apartFrom, Bool.and_eq_true] at h
      exact .inl ⟨h.1, rfl⟩
  | cons piece between ih =>
      cases piece with
      | text t =>
          simp only [List.cons_append, apartFrom, Bool.or_eq_true] at h
          rcases h with hclear | hrest
          · exact .inr ⟨t, List.mem_cons_self, clearText_iff.mp hclear⟩
          · rcases ih hrest with ⟨hadjacent, hempty⟩ | hclear
            · simp only [Bool.and_eq_true, List.isEmpty_iff] at hadjacent
              obtain ⟨hadjacent, rfl⟩ := hadjacent
              exact .inl ⟨hadjacent, hempty⟩
            · exact .inr (hclear.cons _)
      | hole name =>
          simp only [List.cons_append, apartFrom, Bool.and_eq_true] at h
          rcases ih h.2 with ⟨hfalse, -⟩ | hclear
          · exact absurd hfalse (by simp)
          · exact .inr (hclear.cons _)

theorem spaced_of_apart (hunmarked : ∀ t, .text t ∈ pieces → mark ∉ t)
    (h : apart keys pieces = true) : Spaced mark keys pieces where
  unmarked := hunmarked
  apart := by
    intro before name between next after hsplit
    induction before generalizing pieces with
    | nil =>
        rw [hsplit, List.nil_append, apart, Bool.and_eq_true] at h
        exact (apartFrom_sound h.1).imp And.right id
    | cons piece before ih =>
        rw [hsplit, List.cons_append] at h hunmarked
        refine ih (fun t ht => hunmarked t (List.mem_cons_of_mem _ ht)) ?_ rfl
        cases piece with
        | text t => exact h
        | hole other => exact (Bool.and_eq_true_iff.mp h).2

-- Clear text parts one line from the next.
theorem apartFrom_append {t : List α} (hclear : clearText keys t = true) {adjacent : Bool}
    {line : List (Piece α)} (h : apartFrom keys adjacent line = true) (rest : List (Piece α)) :
    apartFrom keys adjacent (line ++ .text t :: rest) = true := by
  induction line generalizing adjacent with
  | nil => simp [apartFrom, hclear]
  | cons piece line ih =>
      cases piece with
      | text u =>
          simp only [apartFrom, Bool.or_eq_true] at h
          simp only [List.cons_append, apartFrom, Bool.or_eq_true]
          exact h.imp id ih
      | hole name =>
          simp only [apartFrom, Bool.and_eq_true] at h
          simp only [List.cons_append, apartFrom, Bool.and_eq_true]
          exact ⟨h.1, ih h.2⟩

theorem apart_append {t : List α} (hclear : clearText keys t = true) {line rest : List (Piece α)}
    (h : apart keys line = true) (hrest : apart keys rest = true) :
    apart keys (line ++ .text t :: rest) = true := by
  induction line with
  | nil => exact hrest
  | cons piece line ih =>
      cases piece with
      | text u => exact ih h
      | hole name =>
          simp only [apart, Bool.and_eq_true] at h
          simp only [List.cons_append, apart, Bool.and_eq_true]
          exact ⟨apartFrom_append hclear h.1 rest, ih h.2⟩

theorem apart_lines {t : List α} (hclear : clearText keys t = true) {lines : List (List (Piece α))}
    (h : ∀ line ∈ lines, apart keys line = true) :
    apart keys (lines.flatMap (· ++ [.text t])) = true := by
  induction lines with
  | nil => rfl
  | cons line lines ih =>
      rw [List.flatMap_cons, List.append_assoc]
      exact apart_append hclear (h line List.mem_cons_self)
        (ih fun other hmem => h other (List.mem_cons_of_mem _ hmem))

end Apart

end FabricRpc.Lib
