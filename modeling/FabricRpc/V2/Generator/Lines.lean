import FabricRpc.V2.Generator

namespace FabricRpc.V2

open Lib Printer
open V1 (MethodDescriptor ServiceDescriptor dollar)
open Template (Values)

-- The stub of a unary method, and what stands for another one.
def stubLines (service : ServiceDescriptor) (method : MethodDescriptor) : List Bytes :=
  [lit "// handler void(ec, absl::Status)",
    lit "template <typename Token>",
    lit "auto SayHello(" ++ method.inputType.bytes ++ lit " *request,",
    lit "/*out*/" ++ method.outputType.bytes ++ lit " *reply, Token &&token) \x7b",
    lit "static const std::string url = \"" ++
      methodUrl service.package service.name method.name ++ lit "\";",
    lit "return conn_.async_send(url, request, reply, std::move(token));",
    lit "\x7d"]

def notSupported (comment : Bytes) : Bytes :=
  comment ++ placeholder dollar (lit "Method") ++ lit " request " ++
    placeholder dollar (lit "Request") ++ lit " response " ++
    placeholder dollar (lit "Response") ++ lit " not supported "

def clientMethodLines (service : ServiceDescriptor) (method : MethodDescriptor) : List Bytes :=
  if method.noStreaming then stubLines service method
  else [notSupported (lit "// Streamingfor method ")]

def clientLines (service : ServiceDescriptor) : List Bytes :=
  [lit "template <typename Executor = net::any_io_executor> class " ++ service.name.bytes ++
      lit "Client\x7b",
    lit "public:"] ++
    ([lit "typedef Executor executor_type;"] ++
      [service.name.bytes ++
        lit "Client(fabricrpc::rpc_client<executor_type> &conn) : conn_(conn) \x7b\x7d"] ++
      service.methods.flatMap (clientMethodLines service)).map (lit "  " ++ ·) ++
    [lit "private:"] ++
    [lit "fabricrpc::rpc_client<executor_type> &conn_;"].map (lit "  " ++ ·) ++
    [lit "\x7d;"]

-- The branch of a method in execute.
def callLines (service : ServiceDescriptor) (method : MethodDescriptor) : List Bytes :=
  [lit "st = co_await fabricrpc::codegen_handler_helper<",
    method.inputType.bytes ++ lit ", " ++ method.outputType.bytes ++ lit ",",
    lit "decltype(&" ++ service.name.bytes ++ lit "::" ++ method.name.bytes ++
      lit "), decltype(this)>(",
    lit "req, resp, &" ++ service.name.bytes ++ lit "::" ++ method.name.bytes ++ lit ", this);"]

def condition (service : ServiceDescriptor) (method : MethodDescriptor) : Bytes :=
  lit "if (url == \"" ++ methodUrl service.package service.name method.name ++ lit "\") \x7b"

def branchLines (service : ServiceDescriptor) (method : MethodDescriptor) : List Bytes :=
  [condition service method] ++ (callLines service method).map (lit "  " ++ ·) ++ [lit "\x7d"]

def elseLines : List Bytes :=
  [lit "else \x7b",
    lit "  st = absl::UnimplementedError(absl::StrCat(\"url: \", url, \" not found\"));",
    lit "\x7d"]

def executeLines (service : ServiceDescriptor) : List Bytes :=
  [lit "absl::Status st;"] ++ chainLines (branchLines service) true service.methods ++ elseLines ++
    [lit "co_return st;"]

-- The pure virtual member of a unary method, which is the same for all of them.
def handlerLine : Bytes :=
  lit "virtual net::awaitable<absl::Status> " ++ lit "SayHello(helloworld::FabricRequest " ++
    lit "*request,helloworld::FabricResponse *resp) = 0;"

def handlerLines (method : MethodDescriptor) : List Bytes :=
  if method.noStreaming then [handlerLine] else [notSupported (lit "// Streaming for method ")]

def nameLine : Bytes :=
  lit "const std::string_view name() override \x7b return " ++
    lit "\"helloworld.FabricHello\"; \x7d"

def serverLines (service : ServiceDescriptor) : List Bytes :=
  [lit "class " ++ service.name.bytes ++ lit " : public fabricrpc::service \x7b",
    lit "  public:"] ++
    ([nameLine] ++
      [lit "net::awaitable<absl::Status> execute(const std::string &url,",
        lit "const std::string_view req,", lit "std::string *resp) override \x7b"] ++
      (executeLines service).map (lit "  " ++ ·) ++ [lit "\x7d"] ++
      service.methods.flatMap handlerLines).map (lit "  " ++ ·) ++
    [lit "\x7d;"]

section Vars

variable (service : ServiceDescriptor) (method : MethodDescriptor)

theorem namespaceOf_not_mem (package : Package) {b : UInt8} (hb : identByte b = false)
    (hdot : b ≠ 0x2E) : b ∉ namespaceOf package :=
  Template.namespace_not_mem package (by decide) hb hdot

theorem vars_values : Values methodKeys (vars service method) :=
  Template.methodNames_values service method
    (namespaceOf_not_mem service.package (by decide) (by decide))
    (namespaceOf_not_mem service.package (by decide) (by decide))

theorem serviceVars_values : Values serviceKeys (serviceVars service) :=
  Template.serviceNames_values service
    (namespaceOf_not_mem service.package (by decide) (by decide))
    (namespaceOf_not_mem service.package (by decide) (by decide))

theorem lookup_method : (vars service method).lookup (lit "Method") = some method.name.bytes := rfl

theorem lookup_package : (vars service method).lookup (lit "Package") =
    some service.package.scope := rfl

theorem lookup_service : (vars service method).lookup (lit "Service") =
    some service.name.bytes := rfl

theorem lookup_request : (vars service method).lookup (lit "Request") =
    some method.inputType.bytes := rfl

theorem lookup_response : (vars service method).lookup (lit "Response") =
    some method.outputType.bytes := rfl

theorem lookup_service_name : (serviceVars service).lookup (lit "Service") =
    some service.name.bytes := rfl

end Vars

namespace PbGenClientHeader

variable (service : ServiceDescriptor) (method : MethodDescriptor) (p : Printer)

theorem fill_stub : stubTemplate.lines.map (fill (vars service method)) =
    stubLines service method := by
  simp [stubTemplate, fill, Piece.fill, lookup_method, lookup_package, lookup_service,
    lookup_request, lookup_response, stubLines, methodUrl]

theorem source_not_supported : notSupportedTemplate.lines.map (source dollar) =
    [notSupported (lit "// Streamingfor method ")] := by
  simp [notSupportedTemplate, source, Piece.source, notSupported]

theorem fill_class : classTemplate.lines.map (fill (serviceVars service)) =
    [lit "template <typename Executor = net::any_io_executor> class " ++ service.name.bytes ++
      lit "Client\x7b", lit "public:"] := by
  simp [classTemplate, fill, Piece.fill, lookup_service_name]

theorem source_typedef : typedefTemplate.lines.map (source dollar) =
    [lit "typedef Executor executor_type;"] := by
  simp [typedefTemplate, source, Piece.source]

theorem fill_constructor : constructorTemplate.lines.map (fill (serviceVars service)) =
    [service.name.bytes ++
      lit "Client(fabricrpc::rpc_client<executor_type> &conn) : conn_(conn) \x7b\x7d"] := by
  simp [constructorTemplate, fill, Piece.fill, lookup_service_name]

theorem source_private : privateTemplate.lines.map (source dollar) = [lit "private:"] := by
  simp [privateTemplate, source, Piece.source]

theorem source_field : fieldTemplate.lines.map (source dollar) =
    [lit "fabricrpc::rpc_client<executor_type> &conn_;"] := by
  simp [fieldTemplate, source, Piece.source]

theorem source_close_class : closeClassTemplate.lines.map (source dollar) = [lit "\x7d;"] := by
  simp [closeClassTemplate, source, Piece.source]

theorem printHeaderClientMethodSync_write :
    printHeaderClientMethodSync service p method = p.write (clientMethodLines service method) := by
  have hvars := vars_values service method
  simp only [printHeaderClientMethodSync, Template.printLnVars _ _ hvars, Template.printLn,
    fill_stub, source_not_supported, clientMethodLines]
  split
  · rfl
  · rfl

-- The text of the client.
theorem printHeaderClientService_write :
    printHeaderClientService service p = p.write (clientLines service) := by
  have hvars := serviceVars_values service
  have hmethods := foldl_write (fun p method => printHeaderClientMethodSync_write service method p)
    service.methods
  simp only [printHeaderClientService, Template.printVars _ _ hvars, Template.printLnVars _ _ hvars,
    Template.print, Template.printLn, fill_class, source_typedef, fill_constructor, source_private,
    source_field, source_close_class, hmethods, write_write,
    indent_write_outdent, clientLines, List.append_assoc]

end PbGenClientHeader

namespace PbGenServerHeader

variable (service : ServiceDescriptor) (method : MethodDescriptor) (p : Printer)

theorem source_handler : handlerTemplate.lines.map (source dollar) = [handlerLine] := by
  simp [handlerTemplate, source, Piece.source, handlerLine]

theorem source_not_supported : notSupportedTemplate.lines.map (source dollar) =
    [notSupported (lit "// Streaming for method ")] := by
  simp [notSupportedTemplate, source, Piece.source, notSupported]

theorem source_else : elseTemplate.lines.map (source dollar) = [lit "else "] := by
  simp [elseTemplate, source, Piece.source]

theorem fill_if : ifTemplate.lines.map (fill (vars service method)) =
    [condition service method] := by
  simp [ifTemplate, fill, Piece.fill, lookup_method, lookup_package, lookup_service, condition,
    methodUrl]

theorem fill_call : callTemplate.lines.map (fill (vars service method)) =
    callLines service method := by
  simp [callTemplate, fill, Piece.fill, lookup_method, lookup_service, lookup_request,
    lookup_response, callLines]

theorem source_close : closeTemplate.lines.map (source dollar) = [lit "\x7d"] := by
  simp [closeTemplate, source, Piece.source]

theorem fill_class : classTemplate.lines.map (fill (serviceVars service)) =
    [lit "class " ++ service.name.bytes ++ lit " : public fabricrpc::service \x7b",
      lit "  public:"] := by
  simp [classTemplate, fill, Piece.fill, lookup_service_name]

theorem source_name : nameTemplate.lines.map (source dollar) = [nameLine] := by
  simp [nameTemplate, source, Piece.source, nameLine]

theorem source_execute : executeTemplate.lines.map (source dollar) =
    [lit "net::awaitable<absl::Status> execute(const std::string &url,",
      lit "const std::string_view req,", lit "std::string *resp) override \x7b"] := by
  simp [executeTemplate, source, Piece.source]

theorem source_status : statusTemplate.lines.map (source dollar) = [lit "absl::Status st;"] := by
  simp [statusTemplate, source, Piece.source]

theorem source_not_found : notFoundTemplate.lines.map (source dollar) = elseLines := by
  simp [notFoundTemplate, source, Piece.source, elseLines]

theorem source_return : returnTemplate.lines.map (source dollar) = [lit "co_return st;"] := by
  simp [returnTemplate, source, Piece.source]

theorem source_close_class : closeClassTemplate.lines.map (source dollar) = [lit "\x7d;"] := by
  simp [closeClassTemplate, source, Piece.source]

theorem printBranch_write (i : ℕ) : printBranch service p (method, i) =
    p.write ((if i = 0 then [] else [lit "else "]) ++ branchLines service method) := by
  have hvars := vars_values service method
  simp only [printBranch, Template.printVars _ _ hvars, Template.print, Template.printLn, fill_if,
    fill_call, source_else, source_close, indent_write_outdent]
  by_cases hi : i = 0
  · simp [hi, branchLines]
  · simp [hi, branchLines]

theorem printHeaderServerMethodSync_write :
    printHeaderServerMethodSync p method = p.write (handlerLines method) := by
  simp only [printHeaderServerMethodSync, Template.printLn, source_handler, source_not_supported,
    handlerLines]
  split
  · rfl
  · rfl

-- The text of the class.
theorem printHeaderService_write :
    printHeaderService service p = p.write (serverLines service) := by
  have hvars := serviceVars_values service
  have hbranches := foldl_zipIdx_write (fun p method i => printBranch_write service method p i)
    service.methods
  have hhandlers := foldl_write (fun p method => printHeaderServerMethodSync_write method p)
    service.methods
  simp only [printHeaderService, Template.printVars _ _ hvars, Template.printPlain,
    Template.printLnPlain, Template.print, Template.printLn, fill_class, source_name,
    source_execute, source_status, source_not_found, source_return, source_close,
    source_close_class, hbranches, hhandlers, write_write, indent_write_outdent]
  simp [serverLines, executeLines]

end PbGenServerHeader

section ReadBack

variable (service : ServiceDescriptor) (method : MethodDescriptor)

-- What is printed are lines.
theorem clientLines_line : ∀ str ∈ clientLines service, Line str := by
  have hclass := PbGenClientHeader.classTemplate.fill_line (serviceVars_values service)
  have htypedef := PbGenClientHeader.typedefTemplate.source_line
  have hconstructor := PbGenClientHeader.constructorTemplate.fill_line (serviceVars_values service)
  have hprivate := PbGenClientHeader.privateTemplate.source_line
  have hfield := PbGenClientHeader.fieldTemplate.source_line
  have hclose := PbGenClientHeader.closeClassTemplate.source_line
  have hcomment := PbGenClientHeader.notSupportedTemplate.source_line
  rw [PbGenClientHeader.fill_class] at hclass
  rw [PbGenClientHeader.source_typedef] at htypedef
  rw [PbGenClientHeader.fill_constructor] at hconstructor
  rw [PbGenClientHeader.source_private] at hprivate
  rw [PbGenClientHeader.source_field] at hfield
  rw [PbGenClientHeader.source_close_class] at hclose
  rw [PbGenClientHeader.source_not_supported] at hcomment
  have hmethods : ∀ str ∈ service.methods.flatMap (clientMethodLines service), Line str := by
    intro str hstr
    obtain ⟨method, -, hstr⟩ := List.mem_flatMap.mp hstr
    have hstub := PbGenClientHeader.stubTemplate.fill_line (vars_values service method)
    rw [PbGenClientHeader.fill_stub] at hstub
    rw [clientMethodLines] at hstr
    split at hstr
    · exact hstub str hstr
    · exact hcomment str hstr
  have hmembers := List.forall_mem_append.mpr
    ⟨List.forall_mem_append.mpr ⟨htypedef, hconstructor⟩, hmethods⟩
  rw [clientLines, List.forall_mem_append, List.forall_mem_append, List.forall_mem_append,
    List.forall_mem_append]
  exact ⟨⟨⟨⟨hclass, lines_indented hmembers⟩, hprivate⟩, lines_indented hfield⟩, hclose⟩

theorem branchLines_line : ∀ str ∈ branchLines service method, Line str := by
  have hif := PbGenServerHeader.ifTemplate.fill_line (vars_values service method)
  have hcall := PbGenServerHeader.callTemplate.fill_line (vars_values service method)
  have hclose := PbGenServerHeader.closeTemplate.source_line
  rw [PbGenServerHeader.fill_if] at hif
  rw [PbGenServerHeader.fill_call] at hcall
  rw [PbGenServerHeader.source_close] at hclose
  rw [branchLines, List.forall_mem_append, List.forall_mem_append]
  exact ⟨⟨hif, lines_indented hcall⟩, hclose⟩

theorem executeLines_line : ∀ str ∈ executeLines service, Line str := by
  have hstatus := PbGenServerHeader.statusTemplate.source_line
  have helse := PbGenServerHeader.notFoundTemplate.source_line
  have hreturn := PbGenServerHeader.returnTemplate.source_line
  rw [PbGenServerHeader.source_status] at hstatus
  rw [PbGenServerHeader.source_not_found] at helse
  rw [PbGenServerHeader.source_return] at hreturn
  have hchain := chainLines_line (branchLines_line service) true service.methods
  rw [executeLines, List.forall_mem_append, List.forall_mem_append, List.forall_mem_append]
  exact ⟨⟨⟨hstatus, hchain⟩, helse⟩, hreturn⟩

theorem handlerLines_line : ∀ str ∈ handlerLines method, Line str := by
  have hhandler := PbGenServerHeader.handlerTemplate.source_line
  have hcomment := PbGenServerHeader.notSupportedTemplate.source_line
  rw [PbGenServerHeader.source_handler] at hhandler
  rw [PbGenServerHeader.source_not_supported] at hcomment
  rw [handlerLines]
  split
  · exact hhandler
  · exact hcomment

theorem serverLines_line : ∀ str ∈ serverLines service, Line str := by
  have hclass := PbGenServerHeader.classTemplate.fill_line (serviceVars_values service)
  have hname := PbGenServerHeader.nameTemplate.source_line
  have hexecute := PbGenServerHeader.executeTemplate.source_line
  have hclose := PbGenServerHeader.closeTemplate.source_line
  have hend := PbGenServerHeader.closeClassTemplate.source_line
  rw [PbGenServerHeader.fill_class] at hclass
  rw [PbGenServerHeader.source_name] at hname
  rw [PbGenServerHeader.source_execute] at hexecute
  rw [PbGenServerHeader.source_close] at hclose
  rw [PbGenServerHeader.source_close_class] at hend
  have hhandlers : ∀ str ∈ service.methods.flatMap handlerLines, Line str := by
    intro str hstr
    obtain ⟨method, -, hstr⟩ := List.mem_flatMap.mp hstr
    exact handlerLines_line method str hstr
  have hbody := List.forall_mem_append.mpr
    ⟨List.forall_mem_append.mpr ⟨hname, hexecute⟩, lines_indented (executeLines_line service)⟩
  have hmembers := List.forall_mem_append.mpr
    ⟨List.forall_mem_append.mpr ⟨hbody, hclose⟩, hhandlers⟩
  rw [serverLines, List.forall_mem_append, List.forall_mem_append]
  exact ⟨⟨hclass, lines_indented hmembers⟩, hend⟩

end ReadBack

end FabricRpc.V2
