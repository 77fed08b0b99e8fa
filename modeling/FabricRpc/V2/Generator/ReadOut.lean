import FabricRpc.FileDescriptor
import FabricRpc.Printer.ReadBack
import FabricRpc.V2.Generator.Lines

namespace FabricRpc.V2

open Lib Printer
open V1 (MethodDescriptor ServiceDescriptor)

-- A pure virtual member function, as it is declared.
structure DeclaredHandler where
  name : Bytes
  request : Bytes
  response : Bytes
  deriving DecidableEq

def handlerOf (str : Bytes) : Option DeclaredHandler :=
  (between (lit "virtual net::awaitable<absl::Status> ") 0x28 str).map fun name =>
    let params := afterByte 0x28 str
    ⟨name, params.takeWhile (· != space), (afterByte 0x2C params).takeWhile (· != space)⟩

-- What `name()` returns, the member that a branch calls, the name of a stub, and
-- the url that the stub sends.
def nameOf (str : Bytes) : Option Bytes :=
  between (lit "const std::string_view name() override \x7b return \"") 0x22 str

def calleeOf (str : Bytes) : Option Bytes := between (lit "req, resp, &") 0x2C str

def stubOf (str : Bytes) : Option Bytes := between (lit "auto ") 0x28 str

def clientUrlOf (str : Bytes) : Option Bytes :=
  between (lit "static const std::string url = \"") 0x22 str

section Strs

variable (service : ServiceDescriptor)

def serverStrs : List Bytes :=
  strsOf (PbGenServerHeader.printHeaderService service .new).output

def clientStrs : List Bytes :=
  strsOf (PbGenClientHeader.printHeaderClientService service .new).output

def generatedNames : List Bytes := (serverStrs service).filterMap nameOf

def declaredHandlers : List DeclaredHandler := (serverStrs service).filterMap handlerOf

-- The branches of execute: the url, and the member that is called for it.
def branches : List (Bytes × Bytes) :=
  ((serverStrs service).filterMap urlOf).zip ((serverStrs service).filterMap calleeOf)

def stubs : List Bytes := (clientStrs service).filterMap stubOf

def clientUrls : List Bytes := (clientStrs service).filterMap clientUrlOf

end Strs

-- The handler that the generator writes for every unary method.
def fixedHandler : DeclaredHandler :=
  ⟨lit "SayHello", lit "helloworld::FabricRequest", lit "helloworld::FabricResponse"⟩

section Read

variable (service : ServiceDescriptor) (method : MethodDescriptor)

theorem serverStrs_eq : serverStrs service = serverLines service := by
  rw [serverStrs, PbGenServerHeader.printHeaderService_write,
    write_lines (serverLines_line service)]

theorem clientStrs_eq : clientStrs service = clientLines service := by
  rw [clientStrs, PbGenClientHeader.printHeaderClientService_write,
    write_lines (clientLines_line service)]

theorem handlerOf_handlerLine : handlerOf handlerLine = some fixedHandler := by
  unfold handlerLine fixedHandler handlerOf
  repeat rw [lit_ofList]
  decide +kernel

-- The lines of the class that are the same for every service.
def fixedLines : List Bytes :=
  [lit "  public:", lit "net::awaitable<absl::Status> execute(const std::string &url,",
    lit "const std::string_view req,", lit "std::string *resp) override \x7b",
    lit "absl::Status st;", lit "co_return st;", lit "\x7d", lit "\x7d;"] ++ elseLines

-- What is read from the class stands in the lines for its name, its branches and its handlers.
theorem filterMap_serverLines {β : Type*} {read : Bytes → Option β}
    (hindented : ∀ str, read (lit "  " ++ str) = read str)
    (hfixed : fixedLines.filterMap read = [])
    (hclass : read (lit "class " ++ service.name.bytes ++
      lit " : public fabricrpc::service \x7b") = none) :
    (serverLines service).filterMap read = [nameLine].filterMap read ++
      (chainLines (branchLines service) true service.methods).filterMap read ++
      (service.methods.flatMap handlerLines).filterMap read := by
  have hnone := List.filterMap_eq_nil_iff.mp hfixed
  have hpart {part : List Bytes} (h : ∀ str ∈ part, str ∈ fixedLines) :
      part.filterMap read = [] :=
    List.filterMap_eq_nil_iff.mpr fun str hstr => hnone str (h str hstr)
  have hmap := filterMap_indented hindented
  have hpublic : [lit "class " ++ service.name.bytes ++ lit " : public fabricrpc::service \x7b",
      lit "  public:"].filterMap read = [] := by
    rw [List.filterMap_cons, hclass]
    exact hpart (by simp [fixedLines])
  have hexecute : [lit "net::awaitable<absl::Status> execute(const std::string &url,",
      lit "const std::string_view req,", lit "std::string *resp) override \x7b"].filterMap read =
        [] := hpart (by simp [fixedLines])
  have hstatus : [lit "absl::Status st;"].filterMap read = [] := hpart (by simp [fixedLines])
  have helse : elseLines.filterMap read = [] := hpart fun _ => List.mem_append_right _
  have hreturn : [lit "co_return st;"].filterMap read = [] := hpart (by simp [fixedLines])
  have hclose : [lit "\x7d"].filterMap read = [] := hpart (by simp [fixedLines])
  have hend : [lit "\x7d;"].filterMap read = [] := hpart (by simp [fixedLines])
  simp only [serverLines, executeLines, List.filterMap_append, hmap, hpublic, hexecute, hstatus,
    helse, hreturn, hclose, hend, List.nil_append, List.append_nil]

-- The line of the message types begins with a name.
theorem types_not_mem {b : UInt8} (hb : identByte b = false) (hcomma : b ∉ lit ", ") :
    b ∉ lit "  " ++ (method.inputType.bytes ++ lit ", " ++ method.outputType.bytes ++ lit ",") := by
  have hspace : b ∉ lit "  " := fun hmem => hcomma (by
    obtain rfl : b = space := by simpa [lit] using hmem
    decide)
  have hlast : b ∉ lit "," := fun hmem => hcomma (by
    obtain rfl : b = 0x2C := by simpa [lit] using hmem
    decide)
  simp only [List.mem_append, not_or]
  exact ⟨hspace, ⟨⟨ident_not_mem _ hb, hcomma⟩, ident_not_mem _ hb⟩, hlast⟩

-- Of a branch the url and the member are read.
theorem filterMap_nameOf_branch : (branchLines service method).filterMap nameOf = [] := by
  have htypes := types_not_mem method (b := 0x22) (by decide) (by decide)
  rw [List.filterMap_eq_nil_iff]
  simp only [branchLines, callLines, List.map_cons, List.map_nil, List.cons_append,
    List.nil_append, List.forall_mem_cons, List.not_mem_nil, false_implies, implies_true, and_true]
  exact ⟨rfl, rfl, between_eq_none (by decide +kernel) htypes, rfl, rfl, rfl⟩

theorem handlerOf_eq_none {str : Bytes} (h : 0x3A ∉ str) : handlerOf str = none := by
  rw [handlerOf, between_eq_none _ h]
  · rfl
  · decide +kernel

theorem filterMap_handlerOf_branch : (branchLines service method).filterMap handlerOf = [] := by
  have htypes := types_not_mem method (b := 0x3A) (by decide) (by decide)
  rw [List.filterMap_eq_nil_iff]
  simp only [branchLines, callLines, List.map_cons, List.map_nil, List.cons_append,
    List.nil_append, List.forall_mem_cons, List.not_mem_nil, false_implies, implies_true, and_true]
  exact ⟨rfl, rfl, handlerOf_eq_none htypes, rfl, rfl, rfl⟩

theorem urlOf_condition : urlOf (condition service method) =
    some (methodUrl service.package service.name method.name) := by
  have hstrip : strip (condition service method) =
      lit "if (url == \"" ++ methodUrl service.package service.name method.name ++
        0x22 :: lit ") \x7b" := rfl
  exact between_eq_some (quote_not_mem _ _ _) hstrip

theorem filterMap_urlOf_branch : (branchLines service method).filterMap urlOf =
    [methodUrl service.package service.name method.name] := by
  have htypes := types_not_mem method (b := 0x22) (by decide) (by decide)
  have hcall : ((callLines service method).map (lit "  " ++ ·) ++ [lit "\x7d"]).filterMap urlOf =
      [] := by
    rw [List.filterMap_eq_nil_iff]
    simp only [callLines, List.map_cons, List.map_nil, List.cons_append, List.nil_append,
      List.forall_mem_cons, List.not_mem_nil, false_implies, implies_true, and_true]
    exact ⟨rfl, between_eq_none (by decide +kernel) htypes, rfl, rfl, rfl⟩
  rw [branchLines, List.append_assoc, List.filterMap_append, hcall, List.filterMap_cons,
    urlOf_condition]
  rfl

-- The member that a branch calls.
def callee : Bytes := service.name.bytes ++ lit "::" ++ method.name.bytes

theorem calleeOf_call : calleeOf (lit "  " ++ (lit "req, resp, &" ++ service.name.bytes ++
    lit "::" ++ method.name.bytes ++ lit ", this);")) = some (callee service method) := by
  have hcomma : 0x2C ∉ callee service method := by
    simp only [callee, List.mem_append, not_or]
    exact ⟨⟨ident_not_mem _ (by decide), by decide⟩, ident_not_mem _ (by decide)⟩
  have hstrip : strip (lit "  " ++ (lit "req, resp, &" ++ service.name.bytes ++ lit "::" ++
      method.name.bytes ++ lit ", this);")) =
        lit "req, resp, &" ++ callee service method ++ 0x2C :: lit " this);" := by
    simp only [callee, List.append_assoc]
    rfl
  exact between_eq_some hcomma hstrip

theorem filterMap_calleeOf_branch : (branchLines service method).filterMap calleeOf =
    [callee service method] := by
  have htypes := types_not_mem method (b := 0x26) (by decide) (by decide)
  have hcondition : calleeOf (condition service method) = none := rfl
  have hhelper : calleeOf (lit "  " ++ lit "st = co_await fabricrpc::codegen_handler_helper<") =
      none := rfl
  have hnone : calleeOf (lit "  " ++ (method.inputType.bytes ++ lit ", " ++
      method.outputType.bytes ++ lit ",")) = none := between_eq_none (by decide +kernel) htypes
  have hmember : calleeOf (lit "  " ++ (lit "decltype(&" ++ service.name.bytes ++ lit "::" ++
      method.name.bytes ++ lit "), decltype(this)>(")) = none := rfl
  have hclose : calleeOf (lit "\x7d") = none := rfl
  simp only [branchLines, callLines, List.map_cons, List.map_nil, List.cons_append,
    List.nil_append, List.filterMap_cons, List.filterMap_nil, hcondition, hhelper, hnone, hmember,
    calleeOf_call, hclose]

theorem filterMap_handlerOf_handlerLines : (handlerLines method).filterMap handlerOf =
    if method.noStreaming then [fixedHandler] else [] := by
  rw [handlerLines]
  split
  · rw [List.filterMap_cons, handlerOf_handlerLine]
    rfl
  · rfl

-- Of a handler nothing else is read.
theorem filterMap_handlers {read : Bytes → Option Bytes}
    (hhandler : read handlerLine = none)
    (hcomment : read (notSupported (lit "// Streaming for method ")) = none)
    (methods : List MethodDescriptor) : (methods.flatMap handlerLines).filterMap read = [] := by
  rw [List.filterMap_eq_nil_iff]
  intro str hstr
  obtain ⟨method, -, hstr⟩ := List.mem_flatMap.mp hstr
  rw [handlerLines] at hstr
  split at hstr
  · rw [List.mem_singleton.mp hstr, hhandler]
  · rw [List.mem_singleton.mp hstr, hcomment]

end Read

section Texts

variable (service : ServiceDescriptor)

theorem generatedNames_eq : generatedNames service = [lit "helloworld.FabricHello"] := by
  have hname : [nameLine].filterMap nameOf = [lit "helloworld.FabricHello"] := rfl
  have hfixed : fixedLines.filterMap nameOf = [] := rfl
  have hchain := filterMap_chainLines rfl (filterMap_nameOf_branch service) true service.methods
  rw [generatedNames, serverStrs_eq, filterMap_serverLines service (fun _ => rfl) hfixed rfl,
    hname, hchain, filterMap_handlers rfl rfl]
  simp

theorem declaredHandlers_eq : declaredHandlers service =
    (service.methods.filter MethodDescriptor.noStreaming).map fun _ => fixedHandler := by
  have hname : [nameLine].filterMap handlerOf = [] := rfl
  have hfixed : fixedLines.filterMap handlerOf = [] := rfl
  have hchain := filterMap_chainLines rfl (filterMap_handlerOf_branch service) true service.methods
  rw [declaredHandlers, serverStrs_eq, filterMap_serverLines service (fun _ => rfl) hfixed rfl,
    hname, hchain, filterMap_flatMap_ite filterMap_handlerOf_handlerLines]
  simp

theorem branches_eq : branches service = service.methods.map fun method =>
    (methodUrl service.package service.name method.name, callee service method) := by
  have hname : [nameLine].filterMap urlOf = [] := rfl
  have hfixed : fixedLines.filterMap urlOf = [] := rfl
  have hchain := filterMap_chainLines rfl (filterMap_urlOf_branch service) true service.methods
  have hname' : [nameLine].filterMap calleeOf = [] := rfl
  have hfixed' : fixedLines.filterMap calleeOf = [] := rfl
  have hchain' := filterMap_chainLines rfl (filterMap_calleeOf_branch service) true service.methods
  rw [branches, serverStrs_eq, filterMap_serverLines service (fun _ => rfl) hfixed rfl, hname,
    hchain, filterMap_handlers rfl rfl, filterMap_serverLines service (fun _ => rfl) hfixed' rfl,
    hname', hchain', filterMap_handlers rfl rfl, ← List.map_eq_flatMap, ← List.map_eq_flatMap]
  simp [List.zip_map']

-- The line of the constructor begins with a name too.
theorem stubOf_constructor : stubOf (lit "  " ++ (service.name.bytes ++
    lit "Client(fabricrpc::rpc_client<executor_type> &conn) : conn_(conn) \x7b\x7d")) = none := by
  have hname : (service.name.bytes ++ lit "Client").all identByte = true := by
    rw [List.all_append, service.name.wellFormed.2]
    decide
  have hstrip : strip (lit "  " ++ (service.name.bytes ++
      lit "Client(fabricrpc::rpc_client<executor_type> &conn) : conn_(conn) \x7b\x7d")) =
        (service.name.bytes ++ lit "Client") ++
          0x28 :: lit "fabricrpc::rpc_client<executor_type> &conn) : conn_(conn) \x7b\x7d" := by
    refine (strip_name service.name _).trans ?_
    rw [List.append_assoc]
    rfl
  have hbefore : lit "auto " = lit "auto" ++ space :: [] := rfl
  exact between_eq_none_of_name hbefore hstrip (by decide) hname (by decide) (by decide)
    (by decide)

theorem filterMap_stubOf_method (method : MethodDescriptor) :
    (clientMethodLines service method).filterMap stubOf =
      if method.noStreaming then [lit "SayHello"] else [] := by
  rw [clientMethodLines]
  split
  · rfl
  · rfl

theorem clientUrlOf_line (method : MethodDescriptor) :
    clientUrlOf (lit "static const std::string url = \"" ++
      methodUrl service.package service.name method.name ++ lit "\";") =
        some (methodUrl service.package service.name method.name) :=
  between_eq_some (quote_not_mem _ _ _) rfl

theorem filterMap_clientUrlOf_method (method : MethodDescriptor) :
    (clientMethodLines service method).filterMap clientUrlOf =
      if method.noStreaming then [methodUrl service.package service.name method.name] else [] := by
  rw [clientMethodLines]
  split
  · have hrequest : clientUrlOf (lit "auto SayHello(" ++ method.inputType.bytes ++
        lit " *request,") = none := rfl
    have hresponse : clientUrlOf (lit "/*out*/" ++ method.outputType.bytes ++
        lit " *reply, Token &&token) \x7b") = none := rfl
    rw [stubLines]
    simp only [List.filterMap_cons, hrequest, hresponse, clientUrlOf_line]
    rfl
  · rfl

theorem clientUrlOf_constructor : clientUrlOf (lit "  " ++ (service.name.bytes ++
    lit "Client(fabricrpc::rpc_client<executor_type> &conn) : conn_(conn) \x7b\x7d")) = none := by
  have hquote : (0x22 : UInt8) ∉ lit "  " ++ (service.name.bytes ++
      lit "Client(fabricrpc::rpc_client<executor_type> &conn) : conn_(conn) \x7b\x7d") := by
    simp only [List.mem_append, not_or]
    exact ⟨by decide, ident_not_mem _ (by decide), by decide +kernel⟩
  exact between_eq_none (by decide +kernel) hquote

-- What is read from the client stands in the stubs.
theorem filterMap_clientLines {read : Bytes → Option Bytes}
    (hindented : ∀ str, read (lit "  " ++ str) = read str)
    (hfixed : [lit "public:", lit "typedef Executor executor_type;", lit "private:",
      lit "fabricrpc::rpc_client<executor_type> &conn_;", lit "\x7d;"].filterMap read = [])
    (hclass : read (lit "template <typename Executor = net::any_io_executor> class " ++
      service.name.bytes ++ lit "Client\x7b") = none)
    (hconstructor : read (lit "  " ++ (service.name.bytes ++
      lit "Client(fabricrpc::rpc_client<executor_type> &conn) : conn_(conn) \x7b\x7d")) = none) :
    (clientLines service).filterMap read =
      (service.methods.flatMap (clientMethodLines service)).filterMap read := by
  rw [hindented] at hconstructor
  have hnone := List.filterMap_eq_nil_iff.mp hfixed
  simp only [List.forall_mem_cons, List.not_mem_nil, false_implies, implies_true, and_true] at hnone
  obtain ⟨hpublic, htypedef, hprivate, hfield, hclose⟩ := hnone
  have hmap := filterMap_indented hindented
  simp only [clientLines, List.filterMap_append, hmap, List.filterMap_cons, List.filterMap_nil,
    hclass, hpublic, htypedef, hconstructor, hprivate, hfield, hclose, List.nil_append,
    List.append_nil]

theorem stubs_eq : stubs service =
    (service.methods.filter MethodDescriptor.noStreaming).map fun _ => lit "SayHello" := by
  have hconstructor := stubOf_constructor service
  rw [stubs, clientStrs_eq, filterMap_clientLines service (fun _ => rfl) rfl rfl hconstructor,
    filterMap_flatMap_ite (filterMap_stubOf_method service)]

theorem clientUrls_eq : clientUrls service =
    (service.methods.filter MethodDescriptor.noStreaming).map fun method =>
      methodUrl service.package service.name method.name := by
  have hconstructor := clientUrlOf_constructor service
  rw [clientUrls, clientStrs_eq, filterMap_clientLines service (fun _ => rfl) rfl rfl hconstructor,
    filterMap_flatMap_ite (filterMap_clientUrlOf_method service)]

end Texts

end FabricRpc.V2
