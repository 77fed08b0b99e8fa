import FabricRpc.Printer.ReadBack
import FabricRpc.V1.Generator.Lines

namespace FabricRpc.V1

open Lib Printer

-- What a line is to a chain of branches.
inductive Token where
  | opens
  | els
  | elseOpens
  | closes
  | statement
  deriving DecidableEq

def tokenOf (str : Bytes) : Token :=
  let str := strip str
  if (lit "if (").isPrefixOf str then .opens
  else if (lit "else").isPrefixOf str then
    if str.getLast? = some 0x7B then .elseOpens else .els
  else if str = lit "\x7d" then .closes
  else .statement

-- Where a reader of the lines is.
inductive Place where
  | start
  | branch
  | closed
  | afterElse
  | last
  | after
  deriving DecidableEq

namespace Place

-- The chain starts with an if, and an else follows a branch that is closed.
def step : Place → Token → Option Place
  | .start, .opens => some .branch
  | .branch, .statement => some .branch
  | .branch, .closes => some .closed
  | .closed, .els => some .afterElse
  | .closed, .elseOpens => some .last
  | .closed, .statement => some .after
  | .afterElse, .opens => some .branch
  | .last, .statement => some .last
  | .last, .closes => some .after
  | .after, .statement => some .after
  | _, _ => none

def read (place : Place) (strs : List Bytes) : Option Place :=
  (strs.map tokenOf).foldlM step place

theorem read_append (place : Place) (strs more : List Bytes) :
    place.read (strs ++ more) = (place.read strs).bind (·.read more) := by
  simp [read, List.foldlM_append]

@[simp] theorem read_nil (place : Place) : place.read [] = some place := rfl

theorem read_cons (place : Place) (str : Bytes) (strs : List Bytes) :
    place.read (str :: strs) = (place.step (tokenOf str)).bind (·.read strs) := rfl

end Place

-- The chain is read to its end.
def Chained (strs : List Bytes) : Prop := Place.start.read strs = some .after

section Tokens

theorem tokenOf_condition (branch : RouteBranch) : tokenOf branch.condition = .opens := rfl

theorem tokenOf_body (branch : RouteBranch) : ∀ str ∈ branch.body, tokenOf str = .statement := by
  simp only [RouteBranch.body, List.forall_mem_cons, List.not_mem_nil, false_implies,
    implies_true, and_true]
  exact ⟨rfl, rfl, rfl, rfl, rfl, rfl⟩

theorem read_indented (place : Place) (strs : List Bytes) :
    place.read (strs.map (lit "  " ++ ·)) = place.read strs := by
  rw [Place.read, Place.read, List.map_map]
  rfl

theorem read_statements {strs : List Bytes} (h : ∀ str ∈ strs, tokenOf str = .statement) :
    Place.branch.read strs = some .branch := by
  induction strs with
  | nil => rfl
  | cons str strs ih =>
      rw [Place.read_cons, h str List.mem_cons_self]
      exact ih fun other hmem => h other (List.mem_cons_of_mem _ hmem)

-- A branch, where one may stand.
theorem read_branch (place : Place) (hplace : place.step .opens = some .branch)
    (branch : RouteBranch) : place.read branch.lines = some .closed := by
  have hbody : Place.branch.read (branch.body.map (lit "  " ++ ·)) = some .branch := by
    rw [read_indented, read_statements (tokenOf_body branch)]
  have hclose : Place.branch.read [lit "\x7d"] = some .closed := by decide +kernel
  rw [RouteBranch.lines, Place.read_append, Place.read_append, Place.read_cons, tokenOf_condition,
    hplace]
  simp only [Place.read_nil, Option.bind_some, hbody, hclose]

-- The branches that follow the first one.
theorem read_chain (branches : List RouteBranch) :
    Place.closed.read (chainLines RouteBranch.lines false branches) = some .closed := by
  induction branches with
  | nil => rfl
  | cons branch branches ih =>
      have helse : Place.closed.read [lit "else "] = some .afterElse := by decide +kernel
      simp only [chainLines, Bool.false_eq_true, if_false, Place.read_append, helse,
        Option.bind_some, read_branch .afterElse rfl branch, ih]

-- The else at the end is printed even where there is nothing to follow.
theorem chained_routeBody_iff (service : ServiceDescriptor) :
    Chained (routeBody service) ↔ service.methods ≠ [] := by
  have helse : Place.closed.read elseLines = some .after := by
    unfold elseLines
    repeat rw [lit_ofList]
    decide +kernel
  have hstart : Place.start.read elseLines = none := by
    unfold elseLines
    repeat rw [lit_ofList]
    decide +kernel
  have hreturn : Place.after.read [lit "return fabricrpc::Status();"] = some .after := by
    decide +kernel
  rw [Chained, routeBody, Place.read_append, Place.read_append, printCCService_eq]
  cases hmethods : service.methods with
  | nil => simp [chainLines, hstart]
  | cons method methods =>
      have hbranch := read_branch .start rfl (routeBranch service method)
      simp only [List.map_cons, chainLines, if_true, List.nil_append, Place.read_append, hbranch,
        Option.bind_some, read_chain, helse, hreturn]
      simp

end Tokens

-- The member that a line declares.
def memberOf (str : Bytes) : Option Bytes := between (lit "virtual fabricrpc::Status ") 0x28 str

section Urls

variable (service : ServiceDescriptor) (method : MethodDescriptor)

theorem urlOf_condition : urlOf (routeBranch service method).condition =
    some (methodUrl service.package service.name method.name) := by
  have hstrip : strip (routeBranch service method).condition =
      lit "if (url == \"" ++ methodUrl service.package service.name method.name ++
        0x22 :: lit ") \x7b" := rfl
  exact between_eq_some (quote_not_mem _ _ _) hstrip

theorem filterMap_urlOf_lines : (routeBranch service method).lines.filterMap urlOf =
    [methodUrl service.package service.name method.name] := by
  have hbody : (routeBranch service method).body.filterMap urlOf = [] := rfl
  have hclose : [lit "\x7d"].filterMap urlOf = [] := rfl
  have hindented : ((routeBranch service method).body.map (lit "  " ++ ·)).filterMap urlOf = [] :=
    (filterMap_indented (fun _ => rfl) _).trans hbody
  rw [RouteBranch.lines, List.filterMap_append, List.filterMap_append, hindented, hclose,
    List.filterMap_cons, urlOf_condition]
  rfl

end Urls

-- The members that are declared for a method.
def methodMembers (method : MethodDescriptor) : List Bytes :=
  if method.noStreaming then [lit "Begin" ++ method.name.bytes, lit "End" ++ method.name.bytes]
  else []

section Members

variable (method : MethodDescriptor)

theorem paren_not_mem {word : Bytes} (hword : 0x28 ∉ word) (name : Ident) :
    0x28 ∉ word ++ name.bytes := by
  rw [List.mem_append, not_or]
  exact ⟨hword, ident_not_mem name (by decide)⟩

theorem memberOf_declared {word : Bytes} (hword : 0x28 ∉ word) (name : Ident) (rest : Bytes) :
    memberOf (declared word name ++ 0x28 :: rest) = some (word ++ name.bytes) := by
  have hstrip : strip (declared word name ++ 0x28 :: rest) =
      lit "virtual fabricrpc::Status " ++ (word ++ name.bytes) ++ 0x28 :: rest := by
    rw [← List.append_assoc]
    rfl
  exact between_eq_some (paren_not_mem hword name) hstrip

theorem memberOf_begin : memberOf (beginDeclaration method) =
    some (lit "Begin" ++ method.name.bytes) := by
  rw [beginDeclaration, List.append_assoc, List.append_assoc, List.append_assoc]
  exact memberOf_declared (by decide) method.name _

theorem memberOf_end : memberOf (endDeclaration method) =
    some (lit "End" ++ method.name.bytes) := by
  rw [endDeclaration, List.append_assoc, List.append_assoc]
  exact memberOf_declared (by decide) method.name _

theorem filterMap_memberOf_declarations :
    (declarations method).filterMap memberOf = methodMembers method := by
  rw [declarations, methodMembers]
  split
  · rw [List.filterMap_cons, memberOf_begin, List.filterMap_cons, memberOf_end]
    rfl
  · rfl

-- The lines of the class that are the same for every service.
def fixedHeaderLines : List Bytes :=
  [lit "  public:", lit "static constexpr char const* service_full_name() \x7b", lit "\x7d",
    lit "class Service : public fabricrpc::MiddleWare \x7b", lit "Service() \x7b\x7d;",
    lit "virtual ~Service() \x7b\x7d;", lit "\x7d;"]

-- What is read from the class stands in the declarations for its methods, and in that of Route.
theorem filterMap_headerLines {read : Bytes → Option Bytes} (service : ServiceDescriptor)
    (hindented : ∀ str, read (lit "  " ++ str) = read str)
    (hfixed : fixedHeaderLines.filterMap read = [])
    (hclass : read (lit "class " ++ service.name.bytes ++ lit " final \x7b") = none)
    (hname : read (lit "  return \"" ++ service.fullName ++ lit "\";") = none) :
    (headerLines service).filterMap read =
      (service.methods.flatMap declarations).filterMap read ++
        [lit "virtual fabricrpc::Status Route(const std::string & url, " ++
          lit "std::unique_ptr<fabricrpc::IBeginOperation> & beginOp, " ++
          lit "std::unique_ptr<fabricrpc::IEndOperation> & endOp) override;"].filterMap read := by
  have hnone := List.filterMap_eq_nil_iff.mp hfixed
  simp only [fixedHeaderLines, List.forall_mem_cons, List.not_mem_nil, false_implies,
    implies_true, and_true] at hnone
  obtain ⟨hpublic, hfull, hclose, hservice, hconstructor, hdestructor, hend⟩ := hnone
  simp only [headerLines, serviceLines, List.filterMap_append, filterMap_indented hindented,
    List.filterMap_cons, List.filterMap_nil, hclass, hpublic, hfull, hname, hclose, hservice,
    hconstructor, hdestructor, hend, List.nil_append, List.append_nil]

theorem filterMap_memberOf_header (service : ServiceDescriptor) :
    (headerLines service).filterMap memberOf =
      service.methods.flatMap methodMembers ++ [lit "Route"] := by
  have hmethods : (service.methods.flatMap declarations).filterMap memberOf =
      service.methods.flatMap methodMembers := by
    rw [List.filterMap_flatMap]
    congr 1
    funext method
    exact filterMap_memberOf_declarations method
  rw [filterMap_headerLines service (fun _ => rfl) rfl rfl rfl, hmethods]
  rfl

end Members

section ReadBack

variable (service : ServiceDescriptor) (method : MethodDescriptor)

open PbGen

-- What is printed can be read back line by line.
theorem signature_line : Line (routeSignature service) := by
  have hlines := signatureTemplate.fill_line (serviceVars_values service)
  rw [fill_signature] at hlines
  exact hlines _ List.mem_cons_self

theorem branch_line : ∀ str ∈ (routeBranch service method).lines, Line str := by
  have hif := ifTemplate.fill_line (vars_values service method)
  have hbind := bindTemplate.fill_line (vars_values service method)
  have hclose := closeTemplate.source_line
  rw [fill_if] at hif
  rw [fill_bind] at hbind
  rw [source_close] at hclose
  simp only [RouteBranch.lines, List.forall_mem_append]
  exact ⟨⟨hif, lines_indented hbind⟩, hclose⟩

theorem routeBody_line : ∀ str ∈ routeBody service, Line str := by
  have helse := notFoundTemplate.source_line
  have hreturn := returnTemplate.source_line
  rw [source_not_found] at helse
  rw [source_return] at hreturn
  rw [routeBody, printCCService_eq, chainLines_map]
  simp only [List.forall_mem_append]
  exact ⟨⟨chainLines_line (branch_line service) true service.methods, helse⟩, hreturn⟩

include service in
theorem declarations_line : ∀ str ∈ declarations method, Line str := by
  have hbegin := beginTemplate.fill_line (vars_values service method)
  have hend := endTemplate.fill_line (vars_values service method)
  have hcomment := notSupportedTemplate.source_line
  rw [fill_begin] at hbegin
  rw [fill_end] at hend
  rw [source_not_supported] at hcomment
  rw [declarations]
  split
  · exact List.forall_mem_append.mpr ⟨hbegin, hend⟩
  · exact hcomment

theorem headerLines_line : ∀ str ∈ headerLines service, Line str := by
  have hclass := classTemplate.fill_line (serviceVars_values service)
  have hname := fullNameTemplate.fill_line (serviceVars_values service)
  have hservice := serviceTemplate.source_line
  have hconstructor := constructorTemplate.source_line
  have hdestructor := destructorTemplate.source_line
  have hroute := routeTemplate.source_line
  have hclose := closeClassTemplate.source_line
  rw [fill_class] at hclass
  rw [fill_full_name] at hname
  rw [source_service] at hservice
  rw [source_constructor] at hconstructor
  rw [source_destructor] at hdestructor
  rw [source_route] at hroute
  rw [source_close_class] at hclose
  have hmethods : ∀ str ∈ service.methods.flatMap declarations, Line str := by
    intro str hstr
    obtain ⟨method, -, hstr⟩ := List.mem_flatMap.mp hstr
    exact declarations_line service method str hstr
  have hconstructors := List.forall_mem_append.mpr ⟨hconstructor, hdestructor⟩
  have hmembers := List.forall_mem_append.mpr
    ⟨List.forall_mem_append.mpr ⟨hconstructors, hmethods⟩, hroute⟩
  have hinner := List.forall_mem_append.mpr
    ⟨List.forall_mem_append.mpr ⟨hservice, lines_indented hmembers⟩, hclose⟩
  have hmiddle := List.forall_mem_append.mpr ⟨hname, hinner⟩
  rw [headerLines, List.forall_mem_append, List.forall_mem_append]
  exact ⟨⟨hclass, lines_indented hmiddle⟩, hclose⟩

end ReadBack

end FabricRpc.V1
