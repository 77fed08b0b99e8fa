import FabricRpc.V1.Generator.Lines

namespace FabricRpc.V1

open Lib Printer
open Template (Values)

-- The members of the client for a unary method,
def clientBegin (method : MethodDescriptor) : Bytes :=
  lit "fabricrpc::Status Begin" ++ method.name.bytes ++ lit "(const " ++ method.inputType.bytes ++
    lit "* request, DWORD timeoutMilliseconds, IFabricAsyncOperationCallback " ++
    lit "*callback, /*out*/ IFabricAsyncOperationContext **context);"

def clientEnd (method : MethodDescriptor) : Bytes :=
  lit "fabricrpc::Status End" ++ method.name.bytes ++
    lit "(IFabricAsyncOperationContext *context, /*out*/" ++ method.outputType.bytes ++
    lit "* response);"

def clientDeclarations (method : MethodDescriptor) : List Bytes :=
  if method.noStreaming then [clientBegin method, clientEnd method] else [notSupported]

-- and their definitions.
def beginSignature (service : ServiceDescriptor) (method : MethodDescriptor) : Bytes :=
  lit "fabricrpc::Status " ++ service.name.bytes ++ lit "Client::Begin" ++ method.name.bytes ++
    lit "(const " ++ method.inputType.bytes ++
    lit "* request, DWORD timeoutMilliseconds, IFabricAsyncOperationCallback " ++
    lit "*callback, /*out*/ IFabricAsyncOperationContext **context)\x7b"

def endSignature (service : ServiceDescriptor) (method : MethodDescriptor) : Bytes :=
  lit "fabricrpc::Status " ++ service.name.bytes ++ lit "Client::End" ++ method.name.bytes ++
    lit "(IFabricAsyncOperationContext *context, /*out*/" ++ method.outputType.bytes ++
    lit "* response)\x7b"

def clientDefinitions (service : ServiceDescriptor) (method : MethodDescriptor) : List Bytes :=
  if method.noStreaming then
    [beginSignature service method,
      lit "  return fabricrpc::ExecClientBegin(client_, cv_, timeoutMilliseconds, \"" ++
        methodUrl service.package service.name method.name ++ lit "\", request,",
      lit "             callback, context);\x7d"] ++
    [endSignature service method,
      lit "  return fabricrpc::ExecClientEnd(client_, cv_, context, response);\x7d"]
  else [notSupported]

def clientHeaderLines (service : ServiceDescriptor) : List Bytes :=
  [lit "class " ++ service.name.bytes ++ lit "Client\x7b", lit "public:"] ++
    ([service.name.bytes ++ lit "Client(IFabricTransportClient * client);"] ++
      service.methods.flatMap clientDeclarations).map (lit "  " ++ ·) ++
    [lit "private:"] ++
    [lit "  CComPtr<IFabricTransportClient> client_;",
      lit "  std::shared_ptr<fabricrpc::IFabricRPCHeaderProtoConverter> cv_;"] ++
    [lit "\x7d;"]

def clientSourceLines (service : ServiceDescriptor) : List Bytes :=
  [lit "using privateconverter = " ++
      lit "fabricrpc::FabricRPCHeaderProtoConverter<fabricrpc::request_header, " ++
      lit "fabricrpc::reply_header>;",
    service.name.bytes ++ lit "Client::" ++ service.name.bytes ++
      lit "Client(IFabricTransportClient *client)",
    lit "  : client_(), cv_(std::make_shared<privateconverter>()) \x7b",
    lit "  client->AddRef();",
    lit "  client_.Attach(client);",
    lit "\x7d"] ++
    service.methods.flatMap (clientDefinitions service)

namespace PbGen

variable (service : ServiceDescriptor) (method : MethodDescriptor) (p : Printer)

theorem fill_client_begin : clientBeginTemplate.lines.map (fill (vars service method)) =
    [clientBegin method] := by
  simp [clientBeginTemplate, fill, Piece.fill, lookup_method, lookup_request, clientBegin]

theorem fill_client_end : clientEndTemplate.lines.map (fill (vars service method)) =
    [clientEnd method] := by
  simp [clientEndTemplate, fill, Piece.fill, lookup_method, lookup_response, clientEnd]

theorem fill_client_class : clientClassTemplate.lines.map (fill (serviceVars service)) =
    [lit "class " ++ service.name.bytes ++ lit "Client\x7b", lit "public:"] := by
  simp [clientClassTemplate, fill, Piece.fill, lookup_service_name]

theorem fill_client_constructor :
    clientConstructorTemplate.lines.map (fill (serviceVars service)) =
      [service.name.bytes ++ lit "Client(IFabricTransportClient * client);"] := by
  simp [clientConstructorTemplate, fill, Piece.fill, lookup_service_name]

theorem source_private : privateTemplate.lines.map (source dollar) = [lit "private:"] := by
  simp [privateTemplate, source, Piece.source]

theorem source_fields : fieldsTemplate.lines.map (source dollar) =
    [lit "  CComPtr<IFabricTransportClient> client_;",
      lit "  std::shared_ptr<fabricrpc::IFabricRPCHeaderProtoConverter> cv_;"] := by
  simp [fieldsTemplate, source, Piece.source]

theorem fill_exec_begin : execBeginTemplate.lines.map (fill (vars service method)) =
    [beginSignature service method,
      lit "  return fabricrpc::ExecClientBegin(client_, cv_, timeoutMilliseconds, \"" ++
        methodUrl service.package service.name method.name ++ lit "\", request,",
      lit "             callback, context);\x7d"] := by
  simp [execBeginTemplate, fill, Piece.fill, lookup_method, lookup_package, lookup_service,
    lookup_request, beginSignature, methodUrl]

theorem fill_exec_end : execEndTemplate.lines.map (fill (vars service method)) =
    [endSignature service method,
      lit "  return fabricrpc::ExecClientEnd(client_, cv_, context, response);\x7d"] := by
  simp [execEndTemplate, fill, Piece.fill, lookup_method, lookup_service, lookup_response,
    endSignature]

theorem fill_client_source : clientSourceTemplate.lines.map (fill (serviceVars service)) =
    [lit "using privateconverter = " ++
        lit "fabricrpc::FabricRPCHeaderProtoConverter<fabricrpc::request_header, " ++
        lit "fabricrpc::reply_header>;",
      service.name.bytes ++ lit "Client::" ++ service.name.bytes ++
        lit "Client(IFabricTransportClient *client)",
      lit "  : client_(), cv_(std::make_shared<privateconverter>()) \x7b",
      lit "  client->AddRef();",
      lit "  client_.Attach(client);",
      lit "\x7d"] := by
  simp [clientSourceTemplate, fill, Piece.fill, lookup_service_name]

theorem printHeaderClientMethodSync_write :
    printHeaderClientMethodSync service p method = p.write (clientDeclarations method) := by
  have hvars := vars_values service method
  simp only [printHeaderClientMethodSync, Template.printLnVars _ _ hvars, Template.printLn,
    fill_client_begin, fill_client_end, source_not_supported, write_write, clientDeclarations]
  split
  · rfl
  · rfl

theorem printClientMethod_write :
    printClientMethod service p method = p.write (clientDefinitions service method) := by
  have hvars := vars_values service method
  simp only [printClientMethod, Template.printLnVars _ _ hvars, Template.printLn,
    fill_exec_begin, fill_exec_end, source_not_supported, write_write, clientDefinitions]
  split
  · rfl
  · rfl

-- The text of the client, and that of its members.
theorem printHeaderClientService_write :
    printHeaderClientService service p = p.write (clientHeaderLines service) := by
  have hvars := serviceVars_values service
  have hmethods := foldl_write (fun p method => printHeaderClientMethodSync_write service method p)
    service.methods
  simp only [printHeaderClientService, Template.printVars _ _ hvars,
    Template.printLnVars _ _ hvars, Template.print, print_close_class, fill_client_class,
    fill_client_constructor, source_private, source_fields, hmethods, write_write,
    indent_write_outdent, clientHeaderLines, List.append_assoc]

theorem printCCClientService_write :
    PbGen.printCCClientService service p = p.write (clientSourceLines service) := by
  have hvars := serviceVars_values service
  have hmethods := foldl_write (fun p method => printClientMethod_write service method p)
    service.methods
  simp only [PbGen.printCCClientService, Template.printVars _ _ hvars, hmethods, write_write,
    fill_client_source, clientSourceLines]

end PbGen

end FabricRpc.V1
