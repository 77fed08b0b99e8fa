import FabricRpc.FileDescriptor
import FabricRpc.Lib.Scope
import FabricRpc.Printer.ReadBack
import Mathlib.Data.List.Forall2

namespace FabricRpc.Pb

open Lib Scopes

-- A package as a C++ namespace.
abbrev path (package : Package) : List Bytes := package.map Ident.bytes

-- A file together with the files that it imports, and what their headers and the
-- others that are included declare in the namespaces beside the messages: enums and
-- other types, and values, functions and the like.
structure Pool (file : FileDescriptor) where
  packages : List Package
  messages : List Descriptor
  types : List (Package × Bytes)
  objects : List (Package × Bytes)
  own : file.package ∈ packages
  packaged : ∀ message ∈ messages, message.package ∈ packages
  mentioned : ∀ service ∈ file.services, ∀ method ∈ service.methods,
    method.inputType ∈ messages ∧ method.outputType ∈ messages
  -- Protobuf takes no message of the name of a package.
  distinct : ∀ message ∈ messages, message.outer = [] → ∀ package ∈ packages,
    ¬ message.package ++ [message.name] <+: package
  -- The headers declare no name twice in a namespace.
  apart : ∀ entry ∈ types ++ objects,
    (∀ message ∈ messages, entry ≠ (message.package, message.className)) ∧
    ∀ package ∈ packages, ¬ path entry.1 ++ [entry.2] <+: path package

-- The namespaces and classes that protoc generates for them, and the rest.
def Pool.world {file : FileDescriptor} (pool : Pool file) : Scopes Bytes where
  scopes := pool.packages.flatMap fun package => (path package).inits
  classes := pool.messages.map fun message => (path message.package, message.className)
  types := pool.types.map fun entry => (path entry.1, entry.2)
  objects := pool.objects.map fun entry => (path entry.1, entry.2)

-- The words that are no names in C++20.
def keywords : List Bytes :=
  [lit "alignas", lit "alignof", lit "and", lit "and_eq", lit "asm", lit "auto", lit "bitand",
    lit "bitor", lit "bool", lit "break", lit "case", lit "catch", lit "char", lit "char8_t",
    lit "char16_t", lit "char32_t", lit "class", lit "compl", lit "concept", lit "const",
    lit "consteval", lit "constexpr", lit "constinit", lit "const_cast", lit "continue",
    lit "co_await", lit "co_return", lit "co_yield", lit "decltype", lit "default", lit "delete",
    lit "do", lit "double", lit "dynamic_cast", lit "else", lit "enum", lit "explicit",
    lit "export", lit "extern", lit "false", lit "float", lit "for", lit "friend", lit "goto",
    lit "if", lit "inline", lit "int", lit "long", lit "mutable", lit "namespace", lit "new",
    lit "noexcept", lit "not", lit "not_eq", lit "nullptr", lit "operator", lit "or",
    lit "or_eq", lit "private", lit "protected", lit "public", lit "register",
    lit "reinterpret_cast", lit "requires", lit "return", lit "short", lit "signed",
    lit "sizeof", lit "static", lit "static_assert", lit "static_cast", lit "struct",
    lit "switch", lit "template", lit "this", lit "thread_local", lit "throw", lit "true",
    lit "try", lit "typedef", lit "typeid", lit "typename", lit "union", lit "unsigned",
    lit "using", lit "virtual", lit "void", lit "volatile", lit "wchar_t", lit "while",
    lit "xor", lit "xor_eq"]

def digit (b : UInt8) : Bool := 0x30 ≤ b && b ≤ 0x39

def cppName (part : Bytes) : Bool :=
  part ≠ [] && part.all identByte && !part.head?.any digit && !keywords.contains part

-- The parts of a C++ name, which stand between double colons.
def nameParts : List Bytes → Option (List Bytes)
  | [part] => if cppName part then some [part] else none
  | part :: [] :: parts => if cppName part then (nameParts parts).map (part :: ·) else none
  | _ => none

def components (name : Bytes) : Option (List Bytes) := nameParts (name.splitOn 0x3A)

-- The namespace that a line opens, and the one that a text begins with.
def namespaceOfLine (str : Bytes) : Option Bytes :=
  (Printer.between (lit "namespace ") Printer.space str).filter fun name =>
    str == lit "namespace " ++ name ++ lit " \x7b"

def opened (text : Bytes) : Option (List Bytes) :=
  ((text.splitOn newline).findSome? namespaceOfLine).bind components

-- Where a type name is printed: what the text has declared in the namespace by then,
-- and what the class and the function around it declare, with what the class inherits.
-- A name means the same at each place of a class, so all members count.
structure Site where
  outer : Names Bytes
  inner : Names Bytes

def Site.taken (site : Site) : List Bytes :=
  site.outer.types ++ site.outer.objects ++ site.inner.types ++ site.inner.objects

-- Inside a function, after a parameter or a variable.
def Site.after (site : Site) (names : List Bytes) : Site :=
  { site with inner := { site.inner with objects := site.inner.objects ++ names } }

-- A name that is printed at a place in the namespace of a package means the class of
-- a message.
def Denotes (world : Scopes Bytes) (package : Package) (site : Site) (token : Bytes)
    (message : Descriptor) : Prop :=
  (components token).bind
    ((world.declare (path package) site.outer).resolveIn (path package) site.inner) =
      some (path message.package, message.className)

-- Type names at a place, with the messages that they stand for.
structure Mention where
  site : Site
  tokens : List Bytes
  messages : List Descriptor

-- What a generator prints for a file: texts that each open a namespace, and the type
-- names in them.
structure Printed where
  texts : List Bytes
  mentions : List Mention

structure NamesResolve {file : FileDescriptor} (pool : Pool file) (printed : Printed) : Prop where
  namespaces : ∀ text ∈ printed.texts, opened text = some (path file.package)
  types : ∀ mention ∈ printed.mentions,
    List.Forall₂ (Denotes pool.world file.package mention.site) mention.tokens mention.messages

-- The classes that are printed for the services, and for their clients. Those of a
-- text stand in the order of the services.
def FileDescriptor.classes (file : FileDescriptor) : List Bytes :=
  file.services.map fun service => service.name.bytes

def FileDescriptor.clients (file : FileDescriptor) : List Bytes :=
  file.services.map fun service => service.name.bytes ++ lit "Client"

def upTo (name : Bytes) (names : List Bytes) : List Bytes :=
  names.takeWhile (· != name) ++ [name]

-- They are some of all.
theorem mem_of_mem_upTo {name other : Bytes} {names : List Bytes} (hname : name ∈ names)
    (hother : other ∈ upTo name names) : other ∈ names := by
  rcases List.mem_append.mp hother with hmem | hmem
  · exact (List.takeWhile_sublist _).subset hmem
  · rwa [List.mem_singleton.mp hmem]

theorem mem_upTo_self (name : Bytes) (names : List Bytes) : name ∈ upTo name names :=
  List.mem_append_right _ (List.mem_singleton_self _)

theorem mem_classes {file : FileDescriptor} {service : ServiceDescriptor}
    (hservice : service ∈ file.services) : service.name.bytes ∈ file.classes :=
  List.mem_map.mpr ⟨service, hservice, rfl⟩

theorem mem_clients {file : FileDescriptor} {service : ServiceDescriptor}
    (hservice : service ∈ file.services) : service.name.bytes ++ lit "Client" ∈ file.clients :=
  List.mem_map.mpr ⟨service, hservice, rfl⟩

section Components

variable {name : Bytes} {i j : Ident}

theorem splitOn_of_not_mem (h : 0x3A ∉ name) : name.splitOn 0x3A = [name] := by
  apply List.splitOnP_eq_singleton
  intro b hb
  rw [beq_eq_false_iff_ne]
  rintro rfl
  exact h hb

theorem components_ident (i : Ident) :
    components i.bytes = if cppName i.bytes then some [i.bytes] else none := by
  rw [components, splitOn_of_not_mem (ident_not_mem i (by decide)), nameParts]

theorem components_pair (hi : cppName i.bytes = true) (hj : cppName j.bytes = true) :
    components (i.bytes ++ lit "::" ++ j.bytes) = some [i.bytes, j.bytes] := by
  have hcolon (k : Ident) : (0x3A : UInt8) ∉ k.bytes := ident_not_mem k (by decide)
  have hsplit : i.bytes ++ lit "::" ++ j.bytes = i.bytes ++ 0x3A :: ([] ++ 0x3A :: j.bytes) := by
    simp [lit]
  rw [components, hsplit, List.splitOn_append_cons_self_of_not_mem (hcolon i),
    List.splitOn_append_cons_self_of_not_mem List.not_mem_nil, splitOn_of_not_mem (hcolon j),
    nameParts, if_pos hi, nameParts, if_pos hj]
  rfl

-- A package of several parts is printed with dots, and that is not a name.
theorem components_dotted (hcolon : 0x3A ∉ name) (hdot : 0x2E ∈ name) : components name = none := by
  rw [components, splitOn_of_not_mem hcolon, nameParts, if_neg]
  intro hname
  simp only [cppName, Bool.and_eq_true] at hname
  exact absurd (List.all_eq_true.mp hname.1.1.2 _ hdot) (by decide)

theorem path_inj {package other : Package} : path package = path other ↔ package = other := by
  refine ⟨fun h => ?_, congrArg path⟩
  exact List.map_injective_iff.mpr (fun _ _ => Ident.bytes_inj.mp) h

theorem className_eq_name_iff {message : Descriptor} :
    message.className = message.name.bytes ↔ message.outer = [] := by
  cases houter : message.outer with
  | nil => simp [Descriptor.className, houter]
  | cons o os =>
      refine ⟨fun h => ?_, fun h => absurd h (List.cons_ne_nil _ _)⟩
      have hlength := congrArg List.length h
      simp [Descriptor.className, houter, lit] at hlength
      omega

end Components

section Opened

open Printer

-- The namespace of a text whose second line opens it.
theorem opened_of_begins {p : Printer} {comment name : Bytes}
    (h : Begins [comment, lit "namespace " ++ name ++ lit " \x7b"] p)
    (hcomment : newline ∉ comment) (hnone : namespaceOfLine comment = none)
    (hline : newline ∉ name) (hspace : space ∉ name) : opened p.output = components name := by
  obtain ⟨rest, hrest⟩ := h
  have hopen : newline ∉ lit "namespace " ++ name ++ lit " \x7b" := by
    simp only [List.mem_append, not_or]
    exact ⟨⟨by decide, hline⟩, by decide⟩
  have hlines : ∀ str ∈ [comment, lit "namespace " ++ name ++ lit " \x7b"], newline ∉ str := by
    simp only [List.forall_mem_cons, List.not_mem_nil, false_implies, implies_true, and_true]
    exact ⟨hcomment, hopen⟩
  have hsplit : strip (lit "namespace " ++ name ++ lit " \x7b") =
      lit "namespace " ++ name ++ space :: lit "\x7b" := rfl
  have hsome : namespaceOfLine (lit "namespace " ++ name ++ lit " \x7b") = some name := by
    rw [namespaceOfLine, between_eq_some hspace hsplit]
    simp
  rw [opened, ← hrest, splitOn_unlines_append hlines]
  simp only [List.cons_append, List.nil_append, List.findSome?_cons, hnone, hsome,
    Option.bind_some]

-- A loop over the services.
theorem begins_foldl (file : FileDescriptor) {strs : List Bytes} {p : Printer}
    {print : V1.ServiceDescriptor → Printer → Printer}
    {lines : V1.ServiceDescriptor → List Bytes}
    (hprint : ∀ service p, print service p = p.write (lines service)) (h : Begins strs p) :
    Begins strs (file.services.foldl (fun p service => print (service.read file.package) p) p) := by
  apply h.foldl
  intro p service hp
  rw [hprint]
  exact hp.write _

theorem isEmpty_scope {package : Package} (hne : package ≠ []) : package.scope.isEmpty = false := by
  cases package with
  | nil => exact absurd rfl hne
  | cons i is => simp [Package.scope, lit]

-- Of a package of one part.
theorem components_scope {package : Package} (hne : package ≠ []) :
    components package.scope.dropLast = some (path package) ↔
      ∃ i, package = [i] ∧ cppName i.bytes = true := by
  cases package with
  | nil => exact absurd rfl hne
  | cons i is =>
      cases is with
      | nil =>
          have hscope : (Package.scope [i]).dropLast = i.bytes := by
            simp [Package.scope, lit]
          rw [hscope, components_ident]
          cases hname : cppName i.bytes with
          | true => simp [hname]
          | false => simp [hname]
      | cons j js =>
          have hscope : Package.scope (i :: j :: js) =
              i.bytes ++ lit "." ++ Package.scope (j :: js) := by
            simp [Package.scope]
          have hlast : (Package.scope (j :: js)) ≠ [] := by
            simp [Package.scope, lit]
          have hcolon : (0x3A : UInt8) ∉ (Package.scope (i :: j :: js)).dropLast := fun hmem =>
            scope_not_mem _ (by decide) (by decide) (List.dropLast_subset _ hmem)
          have hdot : (0x2E : UInt8) ∈ (Package.scope (i :: j :: js)).dropLast := by
            rw [hscope, List.dropLast_append_of_ne_nil hlast]
            simp [lit]
          rw [components_dotted hcolon hdot]
          simp

-- Of texts that open the namespace with the printed name.
theorem opens_path_iff {package : Package} (hne : package ≠ []) {texts : List Bytes}
    (htexts : texts ≠ [])
    (h : ∀ text ∈ texts, opened text = components package.scope.dropLast) :
    (∀ text ∈ texts, opened text = some (path package)) ↔
      ∃ i, package = [i] ∧ cppName i.bytes = true := by
  rw [← components_scope hne]
  constructor
  · intro hpath
    obtain ⟨text, htext⟩ := List.exists_mem_of_ne_nil texts htexts
    rw [← h text htext, hpath text htext]
  · intro hscope text htext
    rw [h text htext, hscope]

end Opened

section Denotes

variable {file : FileDescriptor} {pool : Pool file} {message : Descriptor} {site : Site}

-- A message that its own name means in the namespace of the file: it is not nested, and
-- declared in the package of the file, or in no package and not hidden by that of the file.
structure Visible (pool : Pool file) (message : Descriptor) : Prop where
  outer : message.outer = []
  package : message.package = file.package ∨ (message.package = [] ∧
    pool.world.declared (path file.package) message.name.bytes = none)

-- A message that its own name means where other names are taken.
structure Clear (pool : Pool file) (taken : List Bytes) (message : Descriptor) : Prop where
  visible : Visible pool message
  spelled : cppName message.name.bytes = true
  free : message.name.bytes ∉ taken

theorem clear_append {taken more : List Bytes} : Clear pool (taken ++ more) message ↔
    Clear pool taken message ∧ Clear pool more message := by
  constructor
  · intro h
    have hfree := h.free
    rw [List.mem_append, not_or] at hfree
    exact ⟨⟨h.visible, h.spelled, hfree.1⟩, ⟨h.visible, h.spelled, hfree.2⟩⟩
  · rintro ⟨h, hmore⟩
    refine ⟨h.visible, h.spelled, ?_⟩
    rw [List.mem_append, not_or]
    exact ⟨h.free, hmore.free⟩

theorem Clear.mono {taken more : List Bytes} (h : Clear pool more message)
    (hsub : taken ⊆ more) : Clear pool taken message :=
  ⟨h.visible, h.spelled, fun hmem => h.free (hsub hmem)⟩

theorem clear_after {names : List Bytes} : Clear pool (site.after names).taken message ↔
    Clear pool site.taken message ∧ Clear pool names message := by
  have hsplit : (site.after names).taken = site.taken ++ names := by
    simp only [Site.taken, Site.after, List.append_assoc]
  rw [hsplit, clear_append]

theorem not_mem_types (hmem : message ∈ pool.messages) :
    (path message.package, message.className) ∉ pool.world.types := by
  intro htype
  obtain ⟨⟨package, name⟩, hentry, heq⟩ := List.mem_map.mp htype
  obtain ⟨hpath, rfl⟩ := Prod.mk.inj heq
  obtain rfl := path_inj.mp hpath
  exact (pool.apart _ (List.mem_append_left _ hentry)).1 message hmem rfl

theorem not_mem_objects (hmem : message ∈ pool.messages) :
    (path message.package, message.className) ∉ pool.world.objects := by
  intro hobject
  obtain ⟨⟨package, name⟩, hentry, heq⟩ := List.mem_map.mp hobject
  obtain ⟨hpath, rfl⟩ := Prod.mk.inj heq
  obtain rfl := path_inj.mp hpath
  exact (pool.apart _ (List.mem_append_right _ hentry)).1 message hmem rfl

theorem declared_class (hmem : message ∈ pool.messages) :
    pool.world.declared (path message.package) message.className = some .cls := by
  rw [declared, if_neg (not_mem_objects hmem), qualifier, if_neg (not_mem_types hmem), if_pos]
  exact List.mem_map_of_mem hmem

theorem declared_name (hmem : message ∈ pool.messages) (houter : message.outer = []) :
    pool.world.declared (path message.package) message.name.bytes = some .cls := by
  rw [← className_eq_name_iff.mpr houter]
  exact declared_class hmem

theorem found_iff (package : Package) {name : Bytes} (hname : name = message.name.bytes) :
    some (path package, name) = some (path message.package, message.className) ↔
      message.package = package ∧ message.outer = [] := by
  rw [Option.some.injEq, Prod.mk.injEq, path_inj, hname, ← className_eq_name_iff, eq_comm,
    eq_comm (a := message.name.bytes)]

-- What is found, if it is a class, is the message exactly if it is visible.
theorem resolve_name_iff {i : Ident} (hone : file.package = [i])
    (hmem : message ∈ pool.messages) :
    pool.world.resolve (path file.package) [message.name.bytes] =
      some (path message.package, message.className) ↔ Visible pool message := by
  have hpath : path file.package = [] ++ [i.bytes] := by
    rw [hone]
    rfl
  rw [resolve_singleton]
  cases hinner : pool.world.declared (path file.package) message.name.bytes with
  | some kind =>
      rw [lookup_of_found hinner, Option.bind_some]
      by_cases hkind : kind = .cls
      · rw [if_pos hkind, found_iff _ rfl]
        constructor
        · exact fun h => ⟨h.2, .inl h.1⟩
        · intro h
          refine ⟨h.package.resolve_right fun hright => ?_, h.outer⟩
          exact absurd (hinner.symm.trans hright.2) (by simp)
      · refine iff_of_false (by simp [hkind]) fun h => ?_
        rcases h.package with hown | hright
        · have hclass := declared_name hmem h.outer
          rw [hown, hinner] at hclass
          exact hkind (Option.some.inj hclass)
        · exact absurd (hinner.symm.trans hright.2) (by simp)
  | none =>
      have hown : message.outer = [] → message.package ≠ file.package := by
        intro houter heq
        have hclass := declared_name hmem houter
        rw [heq, hinner] at hclass
        exact absurd hclass (by simp)
      have hvisible : Visible pool message ↔ message.package = [] ∧ message.outer = [] := by
        constructor
        · intro h
          exact ⟨(h.package.resolve_left (hown h.outer)).1, h.outer⟩
        · exact fun h => ⟨h.2, .inr ⟨h.1, hinner⟩⟩
      rw [hvisible, hpath, lookup_of_not_found (hpath ▸ hinner), lookup_nil]
      by_cases hclass : pool.world.declared [] message.name.bytes = some .cls
      · rw [hclass]
        exact found_iff [] rfl
      · refine iff_of_false (fun heq => ?_) fun h => ?_
        · cases houtside : pool.world.declared [] message.name.bytes with
          | none => simp [houtside] at heq
          | some kind =>
              have hkind : kind ≠ .cls := fun h => hclass (h ▸ houtside)
              simp [houtside, hkind] at heq
        · have hfound := declared_name hmem h.2
          rw [h.1] at hfound
          exact hclass hfound

-- A file of one package component.
theorem denotes_name_iff {i : Ident} (hone : file.package = [i]) (hmem : message ∈ pool.messages) :
    Denotes pool.world file.package site message.name.bytes message ↔
      Clear pool site.taken message := by
  rw [Denotes, components_ident]
  cases hname : cppName message.name.bytes with
  | false =>
      refine iff_of_false (by simp) fun h => ?_
      exact absurd (h.spelled.symm.trans hname) (by simp)
  | true =>
      rw [if_pos rfl, Option.bind_some, resolveIn_singleton]
      by_cases hinner : message.name.bytes ∈ site.inner.types ∨
          message.name.bytes ∈ site.inner.objects
      · rw [if_pos hinner]
        refine iff_of_false (by simp) fun h => h.free ?_
        simp only [Site.taken, List.mem_append]
        exact hinner.elim (fun h => .inl (.inr h)) .inr
      rw [if_neg hinner]
      by_cases houter : message.name.bytes ∈ site.outer.types ∨
          message.name.bytes ∈ site.outer.objects
      · obtain ⟨kind, hfound, hkind⟩ : ∃ kind,
            (pool.world.declare (path file.package) site.outer).declared (path file.package)
              message.name.bytes = some kind ∧ kind ≠ .cls :=
          declared_declare_of_mem houter
        rw [resolve_singleton, lookup_of_found hfound, Option.bind_some, if_neg hkind]
        refine iff_of_false (by simp) fun h => h.free ?_
        simp only [Site.taken, List.mem_append]
        exact .inl (.inl houter)
      · -- nothing that is printed hides the name
        have hsame (scope : List Bytes) :
            (pool.world.declare (path file.package) site.outer).declared scope
              message.name.bytes = pool.world.declared scope message.name.bytes :=
          declared_declare_of_not_mem (fun h => houter (.inl h)) fun h => houter (.inr h)
        have hresolve : (pool.world.declare (path file.package) site.outer).resolve
            (path file.package) [message.name.bytes] =
              pool.world.resolve (path file.package) [message.name.bytes] := by
          simp only [resolve_singleton, lookup, hsame]
        rw [hresolve, resolve_name_iff hone hmem]
        refine ⟨fun h => ⟨h, hname, ?_⟩, Clear.visible⟩
        simp only [Site.taken, List.mem_append, not_or] at hinner houter ⊢
        exact ⟨⟨houter, hinner.1⟩, hinner.2⟩

-- The namespace of a package of one part. No message has its name.
theorem qualifier_package {i : Ident} (hi : 0x5F ∉ i.bytes) (hmem : [i] ∈ pool.packages) :
    pool.world.qualifier [] i.bytes = some .scope := by
  have hscope : [] ++ [i.bytes] ∈ pool.world.scopes :=
    List.mem_flatMap.mpr ⟨[i], hmem, by simp⟩
  rw [qualifier, if_neg, if_neg, if_pos hscope]
  · intro hclass
    obtain ⟨other, hother, heq⟩ := List.mem_map.mp hclass
    rw [Prod.mk.injEq] at heq
    obtain ⟨houter, hname⟩ := (className_eq_iff other hi).mp heq.2
    have hnil : other.package = [] := List.map_eq_nil_iff.mp heq.1
    apply pool.distinct other hother houter [i] hmem
    rw [hnil, hname]
    exact List.prefix_refl _
  · intro htype
    obtain ⟨entry, hentry, heq⟩ := List.mem_map.mp htype
    rw [Prod.mk.injEq] at heq
    apply (pool.apart entry (List.mem_append_left _ hentry)).2 [i] hmem
    rw [heq.1, heq.2]
    exact List.prefix_refl _

-- A name with a namespace in front, of a visible message.
theorem denotes_pair_iff {i j k : Ident} (hone : file.package = [k]) (hi : 0x5F ∉ i.bytes)
    (hi' : cppName i.bytes = true) (hj : cppName j.bytes = true)
    (hmem : message ∈ pool.messages) (h : Visible pool message)
    (htypes : message.name.bytes ∉ site.outer.types)
    (hobjects : message.name.bytes ∉ site.outer.objects) :
    Denotes pool.world file.package site (i.bytes ++ lit "::" ++ j.bytes) message ↔
      message = ⟨[i], [], j⟩ ∧ file.package = [i] ∧
        pool.world.qualifier (path file.package) i.bytes = none ∧
        i.bytes ∉ site.outer.types ∧ i.bytes ∉ site.inner.types := by
  have hpath : path file.package = [] ++ [k.bytes] := by
    rw [hone]
    rfl
  have hpackage : message.package = [k] ∨ message.package = [] := by
    rcases h.package with hown | hright
    · exact .inl (hown.trans hone)
    · exact .inr hright.1
  have heta : message = ⟨[i], [], j⟩ ↔ message.package = [i] ∧ message.name = j := by
    have houter := h.outer
    cases message
    simp_all
  rw [Denotes, components_pair hi' hj, Option.bind_some, resolveIn_pair]
  by_cases hinner : i.bytes ∈ site.inner.types
  · rw [if_pos hinner]
    exact iff_of_false (by simp) fun hright => hright.2.2.2.2 hinner
  rw [if_neg hinner, resolve_pair]
  cases hfound : (pool.world.declare (path file.package) site.outer).qualifier
      (path file.package) i.bytes with
  | some kind =>
      rw [lookup_of_found hfound, Option.bind_some]
      refine iff_of_false (fun heq => ?_) ?_
      · split at heq
        · -- What is found is deeper than the package of any visible message.
          simp only [Option.some.injEq, Prod.mk.injEq] at heq
          have hlength := congrArg List.length heq.1
          rw [hone] at hlength
          rcases hpackage with hk | hnil
          · simp [hk] at hlength
          · simp [hnil] at hlength
        · exact absurd heq (by simp)
      · rintro ⟨-, -, hnone, houter, -⟩
        rw [qualifier_declare_of_not_mem houter, hnone] at hfound
        exact absurd hfound (by simp)
  | none =>
      have houter : i.bytes ∉ site.outer.types := fun hmem => by
        rw [qualifier_declare_of_mem hmem] at hfound
        exact absurd hfound (by simp)
      have hnone := hfound
      rw [qualifier_declare_of_not_mem houter] at hnone
      have houtside : (pool.world.declare (path file.package) site.outer).qualifier [] i.bytes =
          pool.world.qualifier [] i.bytes := qualifier_declare_of_not_mem houter
      rw [hpath] at hfound houtside ⊢
      rw [lookup_of_not_found hfound, lookup_nil, houtside, ← hpath]
      constructor
      · intro heq
        cases hscope : pool.world.qualifier [] i.bytes with
        | none => simp [hscope] at heq
        | some kind =>
            simp only [hscope, Option.map_some, Option.bind_some, List.nil_append] at heq
            split at heq
            · simp only [Option.some.injEq, Prod.mk.injEq] at heq
              have hname := className_eq_name_iff.mpr h.outer
              have hi : message.package = [i] := path_inj.mp heq.1.symm
              have hj : message.name = j := Ident.bytes_inj.mp (hname.symm.trans heq.2.symm)
              have hown : file.package = [i] := by
                rcases hpackage with hk | hnil
                · rw [hone, ← hk, hi]
                · exact absurd (hnil.symm.trans hi) (by simp)
              exact ⟨heta.mpr ⟨hi, hj⟩, hown, hnone, houter, hinner⟩
            · exact absurd heq (by simp)
      · rintro ⟨rfl, -, -, -, -⟩
        have hclass := declared_name hmem rfl
        have hmember : (pool.world.declare (path file.package) site.outer).declared [i.bytes]
            j.bytes = some .cls := (declared_declare_of_not_mem htypes hobjects).trans hclass
        rw [qualifier_package hi (pool.packaged _ hmem), Option.map_some, Option.bind_some,
          if_pos ⟨rfl, hmember⟩]
        rfl

theorem forall₂_names {α : Type*} (world : Scopes Bytes) (package : Package) (site : Site)
    (items : List α) (token : α → Bytes) (message : α → Descriptor) :
    List.Forall₂ (Denotes world package site) (items.map token) (items.map message) ↔
      ∀ item ∈ items, Denotes world package site (token item) (message item) := by
  rw [List.forall₂_map_left_iff, List.forall₂_map_right_iff, List.forall₂_same]

-- The messages of some methods, by their names.
theorem forall_mentions {i : Ident} (hone : file.package = [i]) (site : Site)
    {items : List MethodDescriptor} (message : MethodDescriptor → Descriptor)
    (hmem : ∀ method ∈ items, message method ∈ pool.messages) :
    List.Forall₂ (Denotes pool.world file.package site)
      (items.map fun method => (message method).name.bytes) (items.map message) ↔
      ∀ method ∈ items, Clear pool site.taken (message method) := by
  rw [forall₂_names pool.world file.package site items
    (fun method => (message method).name.bytes)]
  exact forall₂_congr fun method hmethod => denotes_name_iff hone (hmem method hmethod)

-- Of texts that mention the types of each service on their own.
theorem namesResolve_iff {printed : Printed} {mentions : ServiceDescriptor → List Mention}
    {opens : Prop} {resolves : ServiceDescriptor → Prop}
    (hmentions : printed.mentions = file.services.flatMap mentions)
    (hopens : (∀ text ∈ printed.texts, opened text = some (path file.package)) ↔ opens)
    (hresolves : opens → ∀ service ∈ file.services,
      ((∀ mention ∈ mentions service, List.Forall₂
        (Denotes pool.world file.package mention.site) mention.tokens mention.messages) ↔
        resolves service)) :
    NamesResolve pool printed ↔ opens ∧ ∀ service ∈ file.services, resolves service := by
  constructor
  · intro h
    have hopen := hopens.mp h.namespaces
    refine ⟨hopen, fun service hservice => ?_⟩
    rw [← hresolves hopen service hservice]
    intro mention hmem
    exact h.types mention (hmentions ▸ List.mem_flatMap.mpr ⟨service, hservice, hmem⟩)
  · rintro ⟨hopen, hservices⟩
    refine ⟨hopens.mpr hopen, fun mention hmem => ?_⟩
    rw [hmentions] at hmem
    obtain ⟨service, hservice, hmem⟩ := List.mem_flatMap.mp hmem
    exact (hresolves hopen service hservice).mpr (hservices service hservice) mention hmem

end Denotes

end FabricRpc.Pb
