import Mathlib.Data.List.Infix

namespace FabricRpc.Lib

variable {α : Type*}

-- Scopes inside scopes, by the names that lead to them, and what is declared in
-- them: classes, other types, and what is neither.
structure Scopes (α : Type*) where
  scopes : List (List α)
  classes : List (List α × α)
  types : List (List α × α)
  objects : List (List α × α)

namespace Scopes

inductive Kind where
  | cls
  | scope
  | type
  | object
  deriving DecidableEq

-- Names that hide others: types, and what is none.
structure Names (α : Type*) where
  types : List α
  objects : List α

variable [DecidableEq α]

-- What a name is declared as in a scope. In front of another name only types and
-- scopes count.
def qualifier (world : Scopes α) (here : List α) (name : α) : Option Kind :=
  if (here, name) ∈ world.types then some .type
  else if (here, name) ∈ world.classes then some .cls
  else if here ++ [name] ∈ world.scopes then some .scope
  else none

def declared (world : Scopes α) (here : List α) (name : α) : Option Kind :=
  if (here, name) ∈ world.objects then some .object else world.qualifier here name

-- The scopes around a place, from the inside.
def enclosing (here : List α) : List (List α) := here.inits.reverse

-- The first of them in which a name is found.
def lookup (find : List α → α → Option Kind) (here : List α) (name : α) :
    Option (List α × Kind) :=
  (enclosing here).findSome? fun scope => (find scope name).map fun kind => (scope, kind)

-- The class of a name in the scope itself.
def member (world : Scopes α) (scope : List α) : List α → Option (List α × α)
  | [] => none
  | [name] => if world.declared scope name = some .cls then some (scope, name) else none
  | name :: names =>
      if world.qualifier scope name = some .scope then world.member (scope ++ [name]) names
      else none

-- The class that a name means in a scope: its first part is looked up from the
-- inside, the others are members.
def resolve (world : Scopes α) (here : List α) : List α → Option (List α × α)
  | [] => none
  | [name] => (lookup world.declared here name).bind fun found =>
      if found.2 = .cls then some (found.1, name) else none
  | name :: names => (lookup world.qualifier here name).bind fun found =>
      if found.2 = .scope then world.member (found.1 ++ [name]) names else none

-- More names are declared in a scope.
def declare (world : Scopes α) (here : List α) (names : Names α) : Scopes α :=
  { world with
    types := names.types.map (here, ·) ++ world.types
    objects := names.objects.map (here, ·) ++ world.objects }

-- The class that a name means further inside, where scopes that belong to no name
-- declare some.
def resolveIn (world : Scopes α) (here : List α) (inner : Names α) :
    List α → Option (List α × α)
  | [] => none
  | [name] =>
      if name ∈ inner.types ∨ name ∈ inner.objects then none else world.resolve here [name]
  | name :: names =>
      if name ∈ inner.types then none else world.resolve here (name :: names)

variable {world : Scopes α} {here scope : List α} {names : Names α} {name : α}

section Declare

theorem qualifier_declare_of_not_mem (htypes : name ∉ names.types) :
    (world.declare here names).qualifier scope name = world.qualifier scope name := by
  have htypes : (scope, name) ∈ (world.declare here names).types ↔ (scope, name) ∈ world.types := by
    simp [declare, htypes]
  exact if_congr htypes rfl rfl

theorem declared_declare_of_not_mem (htypes : name ∉ names.types)
    (hobjects : name ∉ names.objects) :
    (world.declare here names).declared scope name = world.declared scope name := by
  have hobjects : (scope, name) ∈ (world.declare here names).objects ↔
      (scope, name) ∈ world.objects := by
    simp [declare, hobjects]
  exact if_congr hobjects rfl (qualifier_declare_of_not_mem htypes)

theorem qualifier_declare_of_mem (h : name ∈ names.types) :
    (world.declare here names).qualifier here name = some .type := by
  simp [qualifier, declare, h]

-- What is declared so is no class.
theorem declared_declare_of_mem (h : name ∈ names.types ∨ name ∈ names.objects) :
    ∃ kind, (world.declare here names).declared here name = some kind ∧ kind ≠ .cls := by
  by_cases hobject : (here, name) ∈ (world.declare here names).objects
  · exact ⟨.object, if_pos hobject, by simp⟩
  · have htype : name ∈ names.types := h.resolve_right fun hname =>
      hobject (List.mem_append_left _ (List.mem_map_of_mem hname))
    refine ⟨.type, ?_, by simp⟩
    rw [declared, if_neg hobject, qualifier_declare_of_mem htype]

end Declare

section Lookup

variable {find : List α → α → Option Kind}

omit [DecidableEq α] in
theorem lookup_nil : lookup find [] name = (find [] name).map fun kind => ([], kind) := by
  simp [lookup, enclosing]

-- The innermost declaration hides the others.
omit [DecidableEq α] in
theorem lookup_of_found {kind : Kind} (h : find here name = some kind) :
    lookup find here name = some (here, kind) := by
  rcases here.eq_nil_or_concat' with rfl | ⟨outer, last, rfl⟩
  · rw [lookup_nil, h]
    rfl
  · simp [lookup, enclosing, List.inits_append, h]

omit [DecidableEq α] in
theorem lookup_of_not_found {outer : List α} {last : α}
    (h : find (outer ++ [last]) name = none) :
    lookup find (outer ++ [last]) name = lookup find outer name := by
  simp [lookup, enclosing, List.inits_append, h]

-- A plain name means a class if that is what it is innermost.
theorem resolve_singleton : world.resolve here [name] =
    (lookup world.declared here name).bind fun found =>
      if found.2 = .cls then some (found.1, name) else none := rfl

-- A member is of the scope that the first part names.
theorem resolve_pair {cls : α} : world.resolve here [name, cls] =
    (lookup world.qualifier here name).bind fun found =>
      if found.2 = .scope ∧ world.declared (found.1 ++ [name]) cls = some .cls then
        some (found.1 ++ [name], cls)
      else none := by
  cases hfound : lookup world.qualifier here name with
  | none => simp [resolve, hfound]
  | some found =>
      by_cases hscope : found.2 = .scope
      · simp [resolve, hfound, hscope, member]
      · simp [resolve, hfound, hscope]

theorem resolveIn_singleton {inner : Names α} : world.resolveIn here inner [name] =
    if name ∈ inner.types ∨ name ∈ inner.objects then none else world.resolve here [name] := rfl

theorem resolveIn_pair {inner : Names α} {cls : α} : world.resolveIn here inner [name, cls] =
    if name ∈ inner.types then none else world.resolve here [name, cls] := rfl

end Lookup

end Scopes

end FabricRpc.Lib
