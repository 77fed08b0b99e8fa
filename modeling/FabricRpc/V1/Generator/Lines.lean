import FabricRpc.V1.Generator.PbGen

namespace FabricRpc.V1

open Lib Printer
open Template (Values)

-- What a branch of Route does, one level below it.
def RouteBranch.body (branch : RouteBranch) : List Bytes :=
  [lit "auto bo = std::bind(&Service::" ++ branch.beginMember ++
      lit ", this, std::placeholders::_1,",
    lit "              std::placeholders::_2, std::placeholders::_3, " ++
      lit "std::placeholders::_4);",
    lit "auto eo = std::bind(&Service::" ++ branch.endMember ++
      lit ", this, std::placeholders::_1,",
    lit "              std::placeholders::_2);",
    lit "beginOp = std::make_unique<fabricrpc::BeginOperation<" ++ branch.request ++ lit ">>(bo);",
    lit "endOp = std::make_unique<fabricrpc::EndOperation<" ++ branch.response ++ lit ">>(eo);"]

def RouteBranch.condition (branch : RouteBranch) : Bytes :=
  lit "if (url == \"" ++ branch.url ++ lit "\") \x7b"

def RouteBranch.lines (branch : RouteBranch) : List Bytes :=
  [branch.condition] ++ branch.body.map (lit "  " ++ ·) ++ [lit "\x7d"]

def elseLines : List Bytes :=
  [lit "else \x7b",
    lit "  return fabricrpc::Status(fabricrpc::StatusCode::NOT_FOUND, \"method " ++
      lit "not found: \" + url);",
    lit "\x7d"]

-- The body of the generated Route.
def routeBody (service : ServiceDescriptor) : List Bytes :=
  chainLines RouteBranch.lines true (printCCService service) ++ elseLines ++
    [lit "return fabricrpc::Status();"]

def routeSignature (service : ServiceDescriptor) : Bytes :=
  lit "fabricrpc::Status " ++ service.name.bytes ++
    lit "::Service::Route(const std::string & url, " ++
    lit "std::unique_ptr<fabricrpc::IBeginOperation> & beginOp, " ++
    lit "std::unique_ptr<fabricrpc::IEndOperation> & endOp) \x7b"

-- The branch of a method.
def routeBranch (service : ServiceDescriptor) (method : MethodDescriptor) : RouteBranch :=
  ⟨methodUrl service.package service.name method.name, lit "Begin" ++ method.name.bytes,
    method.inputType.bytes, lit "End" ++ method.name.bytes, method.outputType.bytes⟩

theorem printCCService_eq (service : ServiceDescriptor) :
    printCCService service = service.methods.map (routeBranch service) := by
  simp only [printCCService, expand_url, expand_begin, expand_end, expand_request, expand_response]
  rfl

-- The pure virtual members of a unary method, and what stands for another one.
def declared (word : Bytes) (name : Ident) : Bytes :=
  lit "virtual fabricrpc::Status " ++ word ++ name.bytes

def beginDeclaration (method : MethodDescriptor) : Bytes :=
  declared (lit "Begin") method.name ++ lit "(const " ++ method.inputType.bytes ++
    lit "* request, DWORD timeoutMilliseconds,IFabricAsyncOperationCallback " ++
    lit "*callback, /*out*/ IFabricAsyncOperationContext **context) = 0;"

def endDeclaration (method : MethodDescriptor) : Bytes :=
  declared (lit "End") method.name ++ lit "(IFabricAsyncOperationContext *context, /*out*/" ++
    method.outputType.bytes ++ lit "* response) = 0;"

def notSupported : Bytes :=
  lit "// Streamingfor method " ++ placeholder dollar (lit "Method") ++ lit " request " ++
    placeholder dollar (lit "Request") ++ lit " response " ++
    placeholder dollar (lit "Response") ++ lit " not supported "

def declarations (method : MethodDescriptor) : List Bytes :=
  if method.noStreaming then [beginDeclaration method, endDeclaration method] else [notSupported]

-- The class `Service`, and the class that it stands in.
def serviceLines (service : ServiceDescriptor) : List Bytes :=
  [lit "class Service : public fabricrpc::MiddleWare \x7b", lit "  public:"] ++
    ([lit "Service() \x7b\x7d;", lit "virtual ~Service() \x7b\x7d;"] ++
      service.methods.flatMap declarations ++
      [lit "virtual fabricrpc::Status Route(const std::string & url, " ++
        lit "std::unique_ptr<fabricrpc::IBeginOperation> & beginOp, " ++
        lit "std::unique_ptr<fabricrpc::IEndOperation> & endOp) override;"]).map (lit "  " ++ ·) ++
    [lit "\x7d;"]

def headerLines (service : ServiceDescriptor) : List Bytes :=
  [lit "class " ++ service.name.bytes ++ lit " final \x7b", lit "  public:"] ++
    ([lit "static constexpr char const* service_full_name() \x7b",
      lit "  return \"" ++ service.fullName ++ lit "\";", lit "\x7d"] ++
      serviceLines service).map (lit "  " ++ ·) ++
    [lit "\x7d;"]

section Vars

variable (service : ServiceDescriptor) (method : MethodDescriptor)

theorem namespaceOf_not_mem (package : Package) {b : UInt8} (hb : identByte b = false)
    (hdot : b ≠ 0x2E) : b ∉ namespaceOf package :=
  Template.namespace_not_mem package (by decide) hb hdot

theorem vars_values : Values methodKeys (vars service method) :=
  Template.methodNames_values service method
    (namespaceOf_not_mem service.package (by decide) (by decide))
    (namespaceOf_not_mem service.package (by decide) (by decide))

theorem serviceVars_values : Values serviceKeys (serviceVars service) :=
  Template.serviceNames_values service
    (namespaceOf_not_mem service.package (by decide) (by decide))
    (namespaceOf_not_mem service.package (by decide) (by decide))

theorem lookup_method : (vars service method).lookup (lit "Method") = some method.name.bytes := rfl

theorem lookup_package : (vars service method).lookup (lit "Package") =
    some service.package.scope := rfl

theorem lookup_service : (vars service method).lookup (lit "Service") =
    some service.name.bytes := rfl

theorem lookup_request : (vars service method).lookup (lit "Request") =
    some method.inputType.bytes := rfl

theorem lookup_response : (vars service method).lookup (lit "Response") =
    some method.outputType.bytes := rfl

theorem lookup_service_name : (serviceVars service).lookup (lit "Service") =
    some service.name.bytes := rfl

theorem lookup_service_package : (serviceVars service).lookup (lit "Package") =
    some service.package.scope := rfl

end Vars

namespace PbGen

section CCService

variable (service : ServiceDescriptor) (method : MethodDescriptor) (p : Printer)

theorem fill_signature : signatureTemplate.lines.map (fill (serviceVars service)) =
    [routeSignature service] := by
  simp [signatureTemplate, fill, Piece.fill, lookup_service_name, routeSignature]

theorem fill_if : ifTemplate.lines.map (fill (vars service method)) =
    [(routeBranch service method).condition] := by
  simp [ifTemplate, fill, Piece.fill, lookup_method, lookup_package, lookup_service,
    RouteBranch.condition, routeBranch, methodUrl]

theorem fill_bind : bindTemplate.lines.map (fill (vars service method)) =
    (routeBranch service method).body := by
  simp [bindTemplate, fill, Piece.fill, lookup_method, lookup_request, lookup_response,
    RouteBranch.body, routeBranch]

theorem source_else : elseTemplate.lines.map (source dollar) = [lit "else "] := by
  simp [elseTemplate, source, Piece.source]

theorem source_close : closeTemplate.lines.map (source dollar) = [lit "\x7d"] := by
  simp [closeTemplate, source, Piece.source]

theorem source_not_found : notFoundTemplate.lines.map (source dollar) = elseLines := by
  simp [notFoundTemplate, source, Piece.source, elseLines]

theorem source_return : returnTemplate.lines.map (source dollar) =
    [lit "return fabricrpc::Status();"] := by
  simp [returnTemplate, source, Piece.source]

theorem printBranch_write (i : ℕ) : printBranch service p (method, i) =
    p.write ((if i = 0 then [] else [lit "else "]) ++ (routeBranch service method).lines) := by
  have hvars := vars_values service method
  simp only [printBranch, Template.printVars _ _ hvars, Template.print, fill_if, fill_bind,
    source_else, source_close, indent_write_outdent]
  by_cases hi : i = 0
  · simp [hi, RouteBranch.lines]
  · simp [hi, RouteBranch.lines]

-- The text of Route, by its branches.
theorem printCCService_write : PbGen.printCCService service p =
    p.write ([routeSignature service] ++ (routeBody service).map (lit "  " ++ ·) ++
      [lit "\x7d"]) := by
  have hvars := serviceVars_values service
  have hbranches := foldl_zipIdx_write (fun p method i => printBranch_write service method p i)
    service.methods
  simp only [PbGen.printCCService, Template.printLnVars _ _ hvars, Template.print,
    Template.printLn, fill_signature, source_not_found, source_return, source_close,
    hbranches, write_write, indent_write_outdent]
  simp [routeBody, printCCService_eq, chainLines_map]

end CCService

section HeaderService

variable (service : ServiceDescriptor) (method : MethodDescriptor) (p : Printer)

theorem fill_begin : beginTemplate.lines.map (fill (vars service method)) =
    [beginDeclaration method] := by
  simp [beginTemplate, fill, Piece.fill, lookup_method, lookup_request, beginDeclaration, declared]

theorem fill_end : endTemplate.lines.map (fill (vars service method)) =
    [endDeclaration method] := by
  simp [endTemplate, fill, Piece.fill, lookup_method, lookup_response, endDeclaration, declared]

theorem source_not_supported : notSupportedTemplate.lines.map (source dollar) =
    [notSupported] := by
  simp [notSupportedTemplate, source, Piece.source, notSupported]

theorem fill_class : classTemplate.lines.map (fill (serviceVars service)) =
    [lit "class " ++ service.name.bytes ++ lit " final \x7b", lit "  public:"] := by
  simp [classTemplate, fill, Piece.fill, lookup_service_name]

theorem fill_full_name : fullNameTemplate.lines.map (fill (serviceVars service)) =
    [lit "static constexpr char const* service_full_name() \x7b",
      lit "  return \"" ++ service.fullName ++ lit "\";", lit "\x7d"] := by
  simp [fullNameTemplate, fill, Piece.fill, lookup_service_name, lookup_service_package,
    ServiceDescriptor.fullName]

theorem source_service : serviceTemplate.lines.map (source dollar) =
    [lit "class Service : public fabricrpc::MiddleWare \x7b", lit "  public:"] := by
  simp [serviceTemplate, source, Piece.source]

theorem source_constructor : constructorTemplate.lines.map (source dollar) =
    [lit "Service() \x7b\x7d;"] := by
  simp [constructorTemplate, source, Piece.source]

theorem source_destructor : destructorTemplate.lines.map (source dollar) =
    [lit "virtual ~Service() \x7b\x7d;"] := by
  simp [destructorTemplate, source, Piece.source]

theorem source_route : routeTemplate.lines.map (source dollar) =
    [lit "virtual fabricrpc::Status Route(const std::string & url, " ++
      lit "std::unique_ptr<fabricrpc::IBeginOperation> & beginOp, " ++
      lit "std::unique_ptr<fabricrpc::IEndOperation> & endOp) override;"] := by
  simp [routeTemplate, source, Piece.source]

theorem source_close_class : closeClassTemplate.lines.map (source dollar) =
    [lit "\x7d;"] := by
  simp [closeClassTemplate, source, Piece.source]

theorem printHeaderServerMethodSync_write :
    printHeaderServerMethodSync service p method = p.write (declarations method) := by
  have hvars := vars_values service method
  simp only [printHeaderServerMethodSync, Template.printLnVars _ _ hvars, Template.printLn,
    fill_begin, fill_end, source_not_supported, write_write, declarations]
  split
  · rfl
  · rfl

theorem print_close_class :
    p.add (closeClassTemplate.text ++ lit "\n") = p.write [lit "\x7d;"] := by
  have hprint := closeClassTemplate.printLn p
  rwa [source_close_class] at hprint

-- The text of the class, by its members.
theorem printHeaderService_write :
    printHeaderService service p = p.write (headerLines service) := by
  have hvars := serviceVars_values service
  have hmethods := foldl_write (fun p method => printHeaderServerMethodSync_write service method p)
    service.methods
  simp only [printHeaderService, Template.printVars _ _ hvars, Template.print, Template.printLn,
    Template.printLnPlain, print_close_class, fill_class, fill_full_name, source_service,
    source_constructor, source_destructor, source_route, source_close_class,
    hmethods, write_write, indent_write_outdent]
  simp [headerLines, serviceLines]

end HeaderService

section Clean

variable (service : ServiceDescriptor) {method : MethodDescriptor} {p : Printer}

-- Of a unary method no function leaves a placeholder.
theorem printHeaderServerMethodSync_clean (hunary : method.noStreaming = true) (h : p.Clean) :
    (printHeaderServerMethodSync service p method).Clean := by
  have hvars := vars_values service method
  rw [printHeaderServerMethodSync, if_pos hunary]
  exact (h.templateLnVars _ hvars).templateLnVars _ hvars

theorem printHeaderClientMethodSync_clean (hunary : method.noStreaming = true) (h : p.Clean) :
    (printHeaderClientMethodSync service p method).Clean := by
  have hvars := vars_values service method
  rw [printHeaderClientMethodSync, if_pos hunary]
  exact (h.templateLnVars _ hvars).templateLnVars _ hvars

theorem printClientMethod_clean (hunary : method.noStreaming = true) (h : p.Clean) :
    (printClientMethod service p method).Clean := by
  have hvars := vars_values service method
  rw [printClientMethod, if_pos hunary]
  exact (h.templateLnVars _ hvars).templateLnVars _ hvars

theorem printHeaderService_clean (hunary : service.unary) (h : p.Clean) :
    (printHeaderService service p).Clean := by
  have hvars := serviceVars_values service
  have hclass := (h.templateVars classTemplate hvars).indent.templateVars fullNameTemplate hvars
  have hservice := (hclass.template serviceTemplate).indent
  have hconstructors := (hservice.template constructorTemplate).template destructorTemplate
  have hmethods := hconstructors.foldl fun method hmethod _ hp =>
    printHeaderServerMethodSync_clean service (hunary method hmethod) hp
  have hroute := (hmethods.templateLnPlain routeTemplate (varsAfter service)).outdent
  exact (hroute.templateLn closeClassTemplate).outdent.templateLn closeClassTemplate

theorem printBranch_clean (h : p.Clean) (item : MethodDescriptor × ℕ) :
    (printBranch service p item).Clean := by
  obtain ⟨method, i⟩ := item
  have hvars := vars_values service method
  have helse : (if i ≠ 0 then p.add elseTemplate.text else p).Clean := by
    split
    · exact h.template elseTemplate
    · exact h
  have hbranch := (helse.templateVars ifTemplate hvars).indent.templateVars bindTemplate hvars
  exact hbranch.outdent.template closeTemplate

theorem printCCService_clean (h : p.Clean) : (PbGen.printCCService service p).Clean := by
  have hroute := (h.templateLnVars signatureTemplate (serviceVars_values service)).indent
  have hbranches := hroute.foldl fun item (_ : item ∈ service.methods.zipIdx) _ hp =>
    printBranch_clean service hp item
  have hreturn := (hbranches.template notFoundTemplate).templateLn returnTemplate
  exact hreturn.outdent.templateLn closeTemplate

theorem printHeaderClientService_clean (hunary : service.unary) (h : p.Clean) :
    (printHeaderClientService service p).Clean := by
  have hvars := serviceVars_values service
  have hclass := (h.templateVars clientClassTemplate hvars).indent
  have hmethods := (hclass.templateLnVars clientConstructorTemplate hvars).foldl
    fun method hmethod _ hp =>
      printHeaderClientMethodSync_clean service (hunary method hmethod) hp
  have hfields := (hmethods.outdent.template privateTemplate).template fieldsTemplate
  exact hfields.templateLn closeClassTemplate

theorem printCCClientService_clean (hunary : service.unary) (h : p.Clean) :
    (PbGen.printCCClientService service p).Clean :=
  (h.templateVars clientSourceTemplate (serviceVars_values service)).foldl
    fun method hmethod _ hp => printClientMethod_clean service (hunary method hmethod) hp

end Clean

end PbGen

end FabricRpc.V1
