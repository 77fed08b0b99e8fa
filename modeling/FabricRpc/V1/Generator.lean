import FabricRpc.Lib.Text
import FabricRpc.V1.Router

namespace FabricRpc.V1

open Lib

structure MethodDescriptor where
  name : Ident
  inputType : Ident
  outputType : Ident
  clientStreaming : Bool
  serverStreaming : Bool
  deriving DecidableEq

-- A service of a proto file with this package. Protobuf takes no two methods of
-- one name.
structure ServiceDescriptor where
  package : Package
  name : Ident
  methods : List MethodDescriptor
  nodup : (methods.map MethodDescriptor.name).Nodup

def MethodDescriptor.noStreaming (method : MethodDescriptor) : Bool :=
  !(method.clientStreaming || method.serverStreaming)

namespace ServiceDescriptor

def fullName (service : ServiceDescriptor) : Bytes :=
  service.package.scope ++ service.name.bytes

def unary (service : ServiceDescriptor) : Prop :=
  ∀ method ∈ service.methods, method.noStreaming = true

end ServiceDescriptor

abbrev dollar : UInt8 := 0x24

-- `file->package()`, or the namespace that stands for an empty one.
def namespaceOf (package : Package) : Bytes :=
  if package.scope.isEmpty then lit "fabricrpc" else package.scope.dropLast

-- `vars` at the templates of a method. std::map goes through its keys in order.
def vars (service : ServiceDescriptor) (method : MethodDescriptor) : List (Bytes × Bytes) :=
  [(lit "Method", method.name.bytes), (lit "Namespace", namespaceOf service.package),
    (lit "Package", service.package.scope), (lit "Request", method.inputType.bytes),
    (lit "Response", method.outputType.bytes), (lit "Service", service.name.bytes)]

-- What printer::Add makes of the text of a template.
def expand (vars : List (Bytes × Bytes)) (lines : Bytes) : Bytes :=
  vars.foldl (fun lines var => replaceAll (placeholder dollar var.1) var.2 lines) lines

-- A member function of a generated class, and the method it is for.
structure Member where
  name : Bytes
  method : Ident

-- The pure virtual members of `Service` that PrintHeaderService declares.
def beginMembers (service : ServiceDescriptor) : List Member :=
  (service.methods.filter MethodDescriptor.noStreaming).map fun method =>
    ⟨expand (vars service method) (lit "Begin$Method$"), method.name⟩

def endMembers (service : ServiceDescriptor) : List Member :=
  (service.methods.filter MethodDescriptor.noStreaming).map fun method =>
    ⟨expand (vars service method) (lit "End$Method$"), method.name⟩

-- A branch of the Route that PrintCCService writes: the literal it compares the
-- url with, the members it binds, and the types of BeginOperation and EndOperation.
structure RouteBranch where
  url : Bytes
  beginMember : Bytes
  request : Bytes
  endMember : Bytes
  response : Bytes

def printCCService (service : ServiceDescriptor) : List RouteBranch :=
  service.methods.map fun method =>
    let vars := vars service method
    ⟨expand vars (lit "/$Package$$Service$/$Method$"), expand vars (lit "Begin$Method$"),
      expand vars (lit "$Request$"), expand vars (lit "End$Method$"),
      expand vars (lit "$Response$")⟩

-- What `&Service::Name` refers to.
def resolve (service : ServiceDescriptor) (members : List Member) (name proto : Bytes) :
    Option (Operation Bytes) :=
  (members.find? fun member => member.name == name).map fun member =>
    ⟨service.package, service.name, member.method, proto⟩

-- The generated Route.
def ServiceDescriptor.route (service : ServiceDescriptor) : MiddleWare Bytes := fun url ops =>
  match (printCCService service).find? (fun branch => url == branch.url) with
  | some branch =>
      (.ok, ⟨resolve service (beginMembers service) branch.beginMember branch.request,
        resolve service (endMembers service) branch.endMember branch.response⟩)
  | none => (notFound url, ops)

-- The Begin that PrintCCClientService writes: its name, and the literal that it
-- calls ExecClientBegin with.
structure ClientBegin where
  name : Bytes
  url : Bytes

def printCCClientMethod (service : ServiceDescriptor) (method : MethodDescriptor) :
    Option ClientBegin :=
  if method.noStreaming then
    let vars := vars service method
    some ⟨expand vars (lit "Begin$Method$"), expand vars (lit "/$Package$$Service$/$Method$")⟩
  else none

def printCCClientService (service : ServiceDescriptor) : List ClientBegin :=
  service.methods.filterMap (printCCClientMethod service)

section Expand

variable (service : ServiceDescriptor) (method : MethodDescriptor)

theorem dollar_not_mem (i : Ident) : dollar ∉ i.bytes := ident_not_mem i (by decide)

-- The steps of printer::Add on the template of the url. What has been filled in
-- has no dollar sign, so no later step looks into it.
theorem expand_url : expand (vars service method) (lit "/$Package$$Service$/$Method$") =
    methodUrl service.package service.name method.name := by
  have hmethod := dollar_not_mem method.name
  have hscope : dollar ∉ lit "/" ++ service.package.scope := by
    rw [List.mem_append, not_or]
    exact ⟨by decide, scope_not_mem service.package (by decide) (by decide)⟩
  have hfill : replaceAll (placeholder dollar (lit "Method")) method.name.bytes
      (lit "/$Package$$Service$/$Method$") =
        lit "/$Package$$Service$/" ++ method.name.bytes := by
    simp [replaceAll, replaceFrom, placeholder, lit]
  have hnamespace : replaceAll (placeholder dollar (lit "Namespace"))
      (namespaceOf service.package) (lit "/$Package$$Service$/") =
        lit "/$Package$$Service$/" := rfl
  have hpackage : replaceAll (placeholder dollar (lit "Package")) service.package.scope
      (lit "/$Package$$Service$/") =
        (lit "/" ++ service.package.scope) ++ lit "$Service$/" := by
    simp [replaceAll, replaceFrom, placeholder, lit]
  have hrequest : replaceAll (placeholder dollar (lit "Request")) method.inputType.bytes
      (lit "$Service$/") = lit "$Service$/" := rfl
  have hresponse : replaceAll (placeholder dollar (lit "Response")) method.outputType.bytes
      (lit "$Service$/") = lit "$Service$/" := rfl
  have hservice : replaceAll (placeholder dollar (lit "Service")) service.name.bytes
      (lit "$Service$/") = service.name.bytes ++ lit "/" := by
    simp [replaceAll, replaceFrom, placeholder, lit]
  simp only [expand, vars, List.foldl_cons, List.foldl_nil, hfill,
    replaceAll_append_right hmethod, hnamespace, hpackage, replaceAll_append_left hscope,
    hrequest, hresponse, hservice]
  simp [methodUrl]

theorem expand_of_not_mem {value : Bytes} (hvalue : dollar ∉ value)
    (vars : List (Bytes × Bytes)) : expand vars value = value := by
  induction vars with
  | nil => rfl
  | cons var vars ih =>
      rw [expand, List.foldl_cons, replaceAll_of_not_mem hvalue]
      exact ih

-- The template of the name of a member.
theorem expand_member (word : Bytes) (hword : dollar ∉ word) :
    expand (vars service method) (word ++ placeholder dollar (lit "Method")) =
      word ++ method.name.bytes := by
  have hvalue : dollar ∉ word ++ method.name.bytes := by
    rw [List.mem_append, not_or]
    exact ⟨hword, dollar_not_mem method.name⟩
  rw [vars, expand, List.foldl_cons, replaceAll_append_left hword, replaceAll_placeholder]
  exact expand_of_not_mem hvalue _

theorem expand_begin : expand (vars service method) (lit "Begin$Method$") =
    lit "Begin" ++ method.name.bytes := expand_member service method (lit "Begin") (by decide)

theorem expand_end : expand (vars service method) (lit "End$Method$") =
    lit "End" ++ method.name.bytes := expand_member service method (lit "End") (by decide)

-- Those of the types. The three steps before leave the first one alone.
theorem expand_request : expand (vars service method) (lit "$Request$") =
    method.inputType.bytes := by
  have hfill := replaceAll_placeholder dollar (lit "Request") method.inputType.bytes
  exact (congrArg (expand _) hfill).trans (expand_of_not_mem (dollar_not_mem method.inputType) _)

theorem expand_response : expand (vars service method) (lit "$Response$") =
    method.outputType.bytes := by
  have hfill := replaceAll_placeholder dollar (lit "Response") method.outputType.bytes
  exact (congrArg (expand _) hfill).trans (expand_of_not_mem (dollar_not_mem method.outputType) _)

end Expand

end FabricRpc.V1
