import FabricRpc.Lib.Text
import Mathlib.Data.List.Nodup

namespace FabricRpc.Lib

variable {α : Type*}

-- A template has text and holes. A hole is written as its name between two marks.
inductive Piece (α : Type*) where
  | text (t : List α)
  | hole (name : List α)
  deriving DecidableEq

namespace Piece

def source (mark : α) : Piece α → List α
  | text t => t
  | hole name => placeholder mark name

variable [DecidableEq α]

def set (key value : List α) : Piece α → Piece α
  | text t => text t
  | hole name => if name = key then text value else hole name

def fill (vars : List (List α × List α)) : Piece α → List α
  | text t => t
  | hole name => (vars.lookup name).getD []

end Piece

def source (mark : α) (pieces : List (Piece α)) : List α := pieces.flatMap (Piece.source mark)

variable [DecidableEq α]

def fill (vars : List (List α × List α)) (pieces : List (Piece α)) : List α :=
  pieces.flatMap (Piece.fill vars)

-- The closing mark of a hole does not open a hole of its own: the template ends
-- there, or what follows does not begin like a key, or it is a hole that is
-- replaced later.
def closes (keys : List (List α)) (name : List α) : List (Piece α) → Bool
  | [] => true
  | .text [] :: pieces => closes keys name pieces
  | .text (a :: _) :: _ => keys.all fun key => key.head? != some a
  | .hole next :: _ => keys.idxOf name < keys.idxOf next

def laid (mark : α) (keys : List (List α)) : List (Piece α) → Bool
  | [] => true
  | .text t :: pieces => !t.contains mark && laid mark keys pieces
  | .hole name :: pieces => keys.contains name && closes keys name pieces && laid mark keys pieces

-- The names that may stand between marks.
structure Keys (mark : α) (keys : List (List α)) : Prop where
  nodup : keys.Nodup
  nonempty : [] ∉ keys
  unmarked : ∀ key ∈ keys, mark ∉ key

instance (mark : α) (keys : List (List α)) : Decidable (Keys mark keys) :=
  decidable_of_iff (keys.Nodup ∧ ∀ key ∈ keys, key ≠ [] ∧ mark ∉ key)
    ⟨fun h => ⟨h.1, fun hmem => (h.2 [] hmem).1 rfl, fun key hmem => (h.2 key hmem).2⟩,
      fun h => ⟨h.nodup, fun key hmem =>
        ⟨fun hnil => h.nonempty (hnil ▸ hmem), h.unmarked key hmem⟩⟩⟩

variable {mark : α} {keys : List (List α)} {key value name : List α} {pieces : List (Piece α)}

omit [DecidableEq α] in
theorem Keys.of_cons (h : Keys mark (key :: keys)) : Keys mark keys where
  nodup := (List.nodup_cons.mp h.nodup).2
  nonempty := fun hmem => h.nonempty (List.mem_cons_of_mem _ hmem)
  unmarked := fun other hmem => h.unmarked other (List.mem_cons_of_mem _ hmem)

section Replace

theorem replaceFrom_skip (key value t s : List α) :
    replaceFrom key value t.length (t ++ s) = replaceFrom key value 0 s := by
  induction t with
  | nil => rfl
  | cons a t ih => exact ih

-- A hole that is replaced,
theorem replaceAll_placeholder_append (mark : α) (key value s : List α) :
    replaceAll (placeholder mark key) value (placeholder mark key ++ s) =
      value ++ replaceAll (placeholder mark key) value s := by
  have hself : (placeholder mark key).isPrefixOf (mark :: (key ++ [mark] ++ s)) = true := by
    rw [List.isPrefixOf_iff_prefix]
    exact List.prefix_append (placeholder mark key) s
  have hlength : (placeholder mark key).length - 1 = (key ++ [mark]).length := by simp
  show replaceFrom (placeholder mark key) value 0 (mark :: (key ++ [mark] ++ s)) = _
  rw [replaceFrom, if_pos hself, hlength, replaceFrom_skip, replaceAll]

theorem replaceAll_cons_of_not_prefix {a : α} {s : List α}
    (h : (placeholder mark key).isPrefixOf (a :: s) = false) :
    replaceAll (placeholder mark key) value (a :: s) =
      a :: replaceAll (placeholder mark key) value s := by
  simp only [replaceAll, replaceFrom, h, Bool.false_eq_true, if_false]

-- and one that is left as it is.
theorem replaceAll_placeholder_other {s : List α} (hkey : mark ∉ key) (hname : mark ∉ name)
    (hne : name ≠ key) (hclose : (placeholder mark key).isPrefixOf (mark :: s) = false) :
    replaceAll (placeholder mark key) value (placeholder mark name ++ s) =
      placeholder mark name ++ replaceAll (placeholder mark key) value s := by
  have hopen : (placeholder mark key).isPrefixOf (mark :: (name ++ (mark :: s))) = false := by
    rw [Bool.eq_false_iff, ne_eq, List.isPrefixOf_iff_prefix]
    rintro ⟨rest, hrest⟩
    have htail : key ++ mark :: rest = name ++ mark :: s := by
      simpa [placeholder] using hrest
    exact hne (append_cons_inj hkey hname htail).1.symm
  have hsplit : placeholder mark name ++ s = mark :: (name ++ (mark :: s)) := by
    simp [placeholder]
  rw [hsplit, replaceAll_cons_of_not_prefix hopen, replaceAll_append_left hname,
    replaceAll_cons_of_not_prefix hclose]
  simp [placeholder]

end Replace

section Step

omit [DecidableEq α] in
theorem source_cons (mark : α) (piece : Piece α) (pieces : List (Piece α)) :
    source mark (piece :: pieces) = piece.source mark ++ source mark pieces := rfl

-- What follows a closing mark does not complete it to a hole of the key.
theorem not_prefix_of_closes (hkeys : Keys mark (key :: keys))
    (h : closes (key :: keys) name pieces = true) :
    (placeholder mark key).isPrefixOf (mark :: source mark pieces) = false := by
  have hunmarked := hkeys.unmarked key List.mem_cons_self
  obtain ⟨b, rest, rfl⟩ : ∃ b rest, key = b :: rest := by
    cases key with
    | nil => exact absurd List.mem_cons_self hkeys.nonempty
    | cons b rest => exact ⟨b, rest, rfl⟩
  have hmark : b ≠ mark := fun heq => hunmarked (heq ▸ List.mem_cons_self)
  induction pieces with
  | nil => simp [source, placeholder, List.isPrefixOf]
  | cons piece pieces ih =>
      cases piece with
      | text t =>
          cases t with
          | nil => exact ih h
          | cons a t =>
              have hne : b ≠ a := by
                have hhead := List.all_eq_true.mp h (b :: rest) List.mem_cons_self
                simpa using hhead
              simp [source, Piece.source, placeholder, List.isPrefixOf, hne]
      | hole next => simp [source, Piece.source, placeholder, List.isPrefixOf, hmark]

-- No mark in the text or in a name, and no closing mark that opens a hole of the key.
def Closed (mark : α) (key : List α) : List (Piece α) → Prop
  | [] => True
  | .text t :: pieces => mark ∉ t ∧ Closed mark key pieces
  | .hole name :: pieces => mark ∉ name ∧
      (placeholder mark key).isPrefixOf (mark :: source mark pieces) = false ∧
      Closed mark key pieces

-- What replacing one key does to such a template.
theorem replaceAll_of_closed (hkey : mark ∉ key) (h : Closed mark key pieces) :
    replaceAll (placeholder mark key) value (source mark pieces) =
      source mark (pieces.map (Piece.set key value)) := by
  induction pieces with
  | nil => rfl
  | cons piece pieces ih =>
      cases piece with
      | text t =>
          rw [source_cons, Piece.source, replaceAll_append_left h.1, ih h.2]
          rfl
      | hole name =>
          obtain ⟨hname, hclose, hclosed⟩ := h
          rw [source_cons, Piece.source, List.map_cons, source_cons, Piece.set]
          by_cases hset : name = key
          · subst hset
            rw [replaceAll_placeholder_append, ih hclosed, if_pos rfl]
            rfl
          · rw [replaceAll_placeholder_other hkey hname hset hclose, ih hclosed, if_neg hset]
            rfl

theorem closed_of_laid (hkeys : Keys mark (key :: keys))
    (h : laid mark (key :: keys) pieces = true) : Closed mark key pieces := by
  induction pieces with
  | nil => trivial
  | cons piece pieces ih =>
      cases piece with
      | text t =>
          simp only [laid, Bool.and_eq_true, Bool.not_eq_true', List.contains_eq_mem,
            decide_eq_false_iff_not] at h
          exact ⟨h.1, ih h.2⟩
      | hole name =>
          simp only [laid, Bool.and_eq_true, List.contains_eq_mem, decide_eq_true_eq] at h
          obtain ⟨⟨hname, hcloses⟩, hlaid⟩ := h
          exact ⟨hkeys.unmarked name hname, not_prefix_of_closes hkeys hcloses, ih hlaid⟩

theorem replaceAll_source (hkeys : Keys mark (key :: keys))
    (h : laid mark (key :: keys) pieces = true) :
    replaceAll (placeholder mark key) value (source mark pieces) =
      source mark (pieces.map (Piece.set key value)) :=
  replaceAll_of_closed (hkeys.unmarked key List.mem_cons_self) (closed_of_laid hkeys h)

theorem closes_set (hkeys : Keys mark (key :: keys)) (hname : name ≠ key)
    (h : closes (key :: keys) name pieces = true) :
    closes keys name (pieces.map (Piece.set key value)) = true := by
  induction pieces with
  | nil => rfl
  | cons piece pieces ih =>
      cases piece with
      | text t =>
          cases t with
          | nil => exact ih h
          | cons a t =>
              have hall := List.all_eq_true.mp h
              exact List.all_eq_true.mpr fun k hk => hall k (List.mem_cons_of_mem _ hk)
      | hole next =>
          simp only [closes, decide_eq_true_eq, List.idxOf_cons_ne _ (Ne.symm hname)] at h
          -- The key itself is replaced first, so it is not the one that follows.
          have hnext : next ≠ key := by
            rintro rfl
            simp at h
          rw [List.idxOf_cons_ne _ (Ne.symm hnext)] at h
          simp only [List.map_cons, Piece.set, if_neg hnext, closes, decide_eq_true_eq]
          omega

theorem laid_set (hkeys : Keys mark (key :: keys)) (hvalue : mark ∉ value)
    (h : laid mark (key :: keys) pieces = true) :
    laid mark keys (pieces.map (Piece.set key value)) = true := by
  induction pieces with
  | nil => rfl
  | cons piece pieces ih =>
      cases piece with
      | text t =>
          simp only [laid, Bool.and_eq_true] at h
          simp only [List.map_cons, Piece.set, laid, h.1, ih h.2, Bool.and_self]
      | hole name =>
          simp only [laid, Bool.and_eq_true, List.contains_eq_mem, decide_eq_true_eq,
            List.mem_cons] at h
          obtain ⟨⟨hname, hcloses⟩, hlaid⟩ := h
          by_cases hkey : name = key
          · simp [Piece.set, hkey, laid, hvalue, ih hlaid]
          · have hmem := hname.resolve_left hkey
            simp [Piece.set, hkey, laid, hmem, closes_set hkeys hkey hcloses, ih hlaid]

theorem fill_set (key value : List α) (vars : List (List α × List α)) (pieces : List (Piece α)) :
    fill vars (pieces.map (Piece.set key value)) = fill ((key, value) :: vars) pieces := by
  rw [fill, fill, List.flatMap_map]
  congr 1
  funext piece
  cases piece with
  | text t => rfl
  | hole name =>
      by_cases hkey : name = key
      · simp [Piece.set, Piece.fill, hkey]
      · have hbeq : (name == key) = false := by simpa using hkey
        simp [Piece.set, Piece.fill, hkey, List.lookup_cons, hbeq]

theorem source_of_no_keys (h : laid mark [] pieces = true) :
    source mark pieces = fill [] pieces := by
  induction pieces with
  | nil => rfl
  | cons piece pieces ih =>
      cases piece with
      | text t =>
          simp only [laid, Bool.and_eq_true] at h
          rw [source_cons, ih h.2]
          rfl
      | hole name => simp [laid] at h

end Step

-- Replacing the keys one after another fills every hole.
theorem replaceEach_source {vars : List (List α × List α)} (hkeys : Keys mark (vars.map Prod.fst))
    (hvalues : ∀ var ∈ vars, mark ∉ var.2) (h : laid mark (vars.map Prod.fst) pieces = true) :
    vars.foldl (fun s var => replaceAll (placeholder mark var.1) var.2 s) (source mark pieces) =
      fill vars pieces := by
  induction vars generalizing pieces with
  | nil => exact source_of_no_keys h
  | cons var vars ih =>
      obtain ⟨key, value⟩ := var
      have hvalue := hvalues (key, value) List.mem_cons_self
      rw [List.foldl_cons, replaceAll_source hkeys h, ← fill_set]
      apply ih hkeys.of_cons
      · exact fun var hvar => hvalues var (List.mem_cons_of_mem _ hvar)
      · exact laid_set hkeys hvalue h

-- No mark is left.
theorem mark_not_mem_fill {vars : List (List α × List α)} (hvalues : ∀ var ∈ vars, mark ∉ var.2)
    (h : laid mark keys pieces = true) : mark ∉ fill vars pieces := by
  induction pieces with
  | nil => exact List.not_mem_nil
  | cons piece pieces ih =>
      show mark ∉ piece.fill vars ++ fill vars pieces
      rw [List.mem_append, not_or]
      cases piece with
      | text t =>
          simp only [laid, Bool.and_eq_true, Bool.not_eq_true', List.contains_eq_mem,
            decide_eq_false_iff_not] at h
          exact ⟨h.1, ih h.2⟩
      | hole name =>
          simp only [laid, Bool.and_eq_true] at h
          refine ⟨?_, ih h.2⟩
          cases hlookup : vars.lookup name with
          | none => simp [Piece.fill, hlookup]
          | some value =>
              have hmem := List.lookup_eq_some_iff.mp hlookup
              obtain ⟨before, after, hsplit, -⟩ := hmem
              simpa [Piece.fill, hlookup] using hvalues (name, value) (by simp [hsplit])

end FabricRpc.Lib
