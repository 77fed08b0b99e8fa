import FabricRpc.V1.Generator.ClientLines
import FabricRpc.V1.Generator.Types

namespace FabricRpc.V1

open Lib Printer

section Client

variable (service : ServiceDescriptor) (method : MethodDescriptor)

theorem requestOf_clientBegin :
    requestOf (lit "fabricrpc::Status Begin") (clientBegin method) =
      some method.inputType.bytes := by
  have hname : 0x28 ∉ lit "fabricrpc::Status Begin" ++ method.name.bytes :=
    paren_not_mem (by decide +kernel) _
  have hstar : lit "* request, DWORD timeoutMilliseconds, IFabricAsyncOperationCallback " =
      0x2A :: lit " request, DWORD timeoutMilliseconds, IFabricAsyncOperationCallback " := by
    repeat rw [lit_ofList]
    rfl
  have hstr : clientBegin method = lit "fabricrpc::Status Begin" ++
      method.name.bytes ++ 0x28 :: (lit "const " ++ method.inputType.bytes ++ 0x2A ::
        (lit " request, DWORD timeoutMilliseconds, IFabricAsyncOperationCallback " ++
          lit "*callback, /*out*/ IFabricAsyncOperationContext **context);")) := by
    simp only [clientBegin, open_const, hstar, List.append_assoc, List.cons_append]
  exact requestOf_eq_some rfl hname (ident_not_mem _ (by decide)) hstr

theorem responseOf_clientEnd :
    responseOf (lit "fabricrpc::Status End") (clientEnd method) =
      some method.outputType.bytes := by
  have hcomma : 0x2C ∉ lit "fabricrpc::Status End" ++ method.name.bytes ++
      0x28 :: lit "IFabricAsyncOperationContext *context" := by
    simp only [List.mem_append, not_or]
    exact ⟨⟨by decide +kernel, ident_not_mem _ (by decide)⟩, by decide +kernel⟩
  have hstar : lit "* response);" = 0x2A :: lit " response);" := rfl
  have hstr : clientEnd method = lit "fabricrpc::Status End" ++
      method.name.bytes ++ 0x28 :: lit "IFabricAsyncOperationContext *context" ++ 0x2C ::
        (lit " /*out*/" ++ method.outputType.bytes ++ 0x2A :: lit " response);") := by
    simp only [clientEnd, open_context, hstar, List.append_assoc, List.cons_append]
  exact responseOf_eq_some rfl (ident_not_mem _ (by decide)) hcomma (ident_not_mem _ (by decide))
    hstr

theorem filterMap_requestOf_client :
    (clientDeclarations method).filterMap (requestOf (lit "fabricrpc::Status Begin")) =
      if method.noStreaming then [method.inputType.bytes] else [] := by
  rw [clientDeclarations]
  split
  · rw [List.filterMap_cons, requestOf_clientBegin]
    rfl
  · rfl

theorem filterMap_responseOf_client :
    (clientDeclarations method).filterMap (responseOf (lit "fabricrpc::Status End")) =
      if method.noStreaming then [method.outputType.bytes] else [] := by
  have hbegin : responseOf (lit "fabricrpc::Status End") (clientBegin method) = none := rfl
  rw [clientDeclarations]
  split
  · rw [List.filterMap_cons, hbegin, List.filterMap_cons, responseOf_clientEnd]
    rfl
  · rfl

-- The line of the constructor begins with the name of the service.
theorem afterByte_constructor (rest : Bytes) :
    afterByte 0x28 (service.name.bytes ++ lit "Client(" ++ rest) = rest := by
  have hsplit : service.name.bytes ++ lit "Client(" ++ rest =
      (service.name.bytes ++ lit "Client") ++ 0x28 :: rest := by
    simp [lit]
  rw [hsplit]
  apply afterByte_append
  rw [List.mem_append, not_or]
  exact ⟨ident_not_mem _ (by decide), by decide⟩

theorem requestOf_constructor (head : Bytes) : requestOf head (service.name.bytes ++
    lit "Client(IFabricTransportClient * client);") = none := by
  have hsplit : lit "Client(IFabricTransportClient * client);" =
      lit "Client(" ++ lit "IFabricTransportClient * client);" := rfl
  apply requestOf_eq_none
  rw [hsplit, ← List.append_assoc, afterByte_constructor]
  rfl

theorem responseOf_constructor (head : Bytes) : responseOf head (service.name.bytes ++
    lit "Client(IFabricTransportClient * client);") = none := by
  have hcomma : (0x2C : UInt8) ∉ service.name.bytes ++
      lit "Client(IFabricTransportClient * client);" := by
    rw [List.mem_append, not_or]
    exact ⟨ident_not_mem _ (by decide), by decide +kernel⟩
  apply responseOf_eq_none
  rw [afterByte_of_not_mem hcomma]
  rfl

-- What is read from the client stands in the declarations for its methods.
theorem filterMap_clientHeaderLines {read : Bytes → Option Bytes}
    (hindented : ∀ str, read (lit "  " ++ str) = read str)
    (hfixed : [lit "public:", lit "private:", lit "  CComPtr<IFabricTransportClient> client_;",
      lit "  std::shared_ptr<fabricrpc::IFabricRPCHeaderProtoConverter> cv_;",
      lit "\x7d;"].filterMap read = [])
    (hclass : read (lit "class " ++ service.name.bytes ++ lit "Client\x7b") = none)
    (hconstructor : read (service.name.bytes ++
      lit "Client(IFabricTransportClient * client);") = none) :
    (clientHeaderLines service).filterMap read =
      (service.methods.flatMap clientDeclarations).filterMap read := by
  have hnone := List.filterMap_eq_nil_iff.mp hfixed
  simp only [List.forall_mem_cons, List.not_mem_nil, false_implies, implies_true, and_true] at hnone
  obtain ⟨hpublic, hprivate, hclient, hconverter, hclose⟩ := hnone
  simp only [clientHeaderLines, List.filterMap_append, filterMap_indented hindented,
    List.filterMap_cons, List.filterMap_nil, hclass, hpublic, hconstructor, hprivate, hclient,
    hconverter, hclose, List.nil_append, List.append_nil]

theorem clientHeader_requests :
    (clientHeaderLines service).filterMap (requestOf (lit "fabricrpc::Status Begin")) =
      (service.methods.filter MethodDescriptor.noStreaming).map fun method =>
        method.inputType.bytes := by
  rw [filterMap_clientHeaderLines service (fun _ => rfl) rfl rfl (requestOf_constructor service _),
    filterMap_flatMap_ite filterMap_requestOf_client]

theorem clientHeader_responses :
    (clientHeaderLines service).filterMap (responseOf (lit "fabricrpc::Status End")) =
      (service.methods.filter MethodDescriptor.noStreaming).map fun method =>
        method.outputType.bytes := by
  rw [filterMap_clientHeaderLines service (fun _ => rfl) rfl rfl (responseOf_constructor service _),
    filterMap_flatMap_ite filterMap_responseOf_client]

end Client

section Source

variable (service : ServiceDescriptor) (method : MethodDescriptor)

-- A member of the client, with its class.
def qualifiedMember (word : Bytes) : Bytes := service.name.bytes ++ word ++ method.name.bytes

theorem qualifiedMember_not_mem {word : Bytes} {b : UInt8} (hb : identByte b = false)
    (hword : b ∉ word) : b ∉ qualifiedMember service method word := by
  simp only [qualifiedMember, List.mem_append, not_or]
  exact ⟨⟨ident_not_mem _ hb, hword⟩, ident_not_mem _ hb⟩

theorem beginSignature_eq : beginSignature service method = lit "fabricrpc::Status " ++
    qualifiedMember service method (lit "Client::Begin") ++
      0x28 :: (lit "const " ++ method.inputType.bytes ++ 0x2A ::
        (lit " request" ++ 0x2C ::
          (lit " DWORD timeoutMilliseconds, IFabricAsyncOperationCallback " ++
          lit "*callback, /*out*/ IFabricAsyncOperationContext **context)\x7b"))) := by
  have hstar : lit "* request, DWORD timeoutMilliseconds, IFabricAsyncOperationCallback " =
      0x2A :: (lit " request" ++
        0x2C :: lit " DWORD timeoutMilliseconds, IFabricAsyncOperationCallback ") := by
    repeat rw [lit_ofList]
    rfl
  simp only [beginSignature, qualifiedMember, open_const, hstar, List.append_assoc,
    List.cons_append]

theorem endSignature_eq : endSignature service method = lit "fabricrpc::Status " ++
    qualifiedMember service method (lit "Client::End") ++
      0x28 :: lit "IFabricAsyncOperationContext *context" ++ 0x2C ::
        (lit " /*out*/" ++ method.outputType.bytes ++ 0x2A :: lit " response)\x7b") := by
  have hstar : lit "* response)\x7b" = 0x2A :: lit " response)\x7b" := rfl
  simp only [endSignature, qualifiedMember, open_context, hstar, List.append_assoc,
    List.cons_append]

theorem requestOf_beginSignature :
    requestOf (lit "fabricrpc::Status ") (beginSignature service method) =
      some method.inputType.bytes := by
  have hname : 0x28 ∉ lit "fabricrpc::Status " ++
      qualifiedMember service method (lit "Client::Begin") := by
    rw [List.mem_append, not_or]
    exact ⟨by decide, qualifiedMember_not_mem service method (by decide) (by decide)⟩
  exact requestOf_eq_some rfl hname (ident_not_mem _ (by decide)) (beginSignature_eq service method)

theorem requestOf_endSignature :
    requestOf (lit "fabricrpc::Status ") (endSignature service method) = none := by
  have hname : 0x28 ∉ lit "fabricrpc::Status " ++
      qualifiedMember service method (lit "Client::End") := by
    rw [List.mem_append, not_or]
    exact ⟨by decide, qualifiedMember_not_mem service method (by decide) (by decide)⟩
  apply requestOf_eq_none
  rw [endSignature_eq, List.append_assoc, List.cons_append, afterByte_append hname]
  rfl

theorem responseOf_endSignature :
    responseOf (lit "fabricrpc::Status ") (endSignature service method) =
      some method.outputType.bytes := by
  have hname : 0x28 ∉ qualifiedMember service method (lit "Client::End") :=
    qualifiedMember_not_mem service method (by decide) (by decide)
  have hcomma : 0x2C ∉ lit "fabricrpc::Status " ++
      qualifiedMember service method (lit "Client::End") ++
        0x28 :: lit "IFabricAsyncOperationContext *context" := by
    simp only [List.mem_append, not_or]
    exact ⟨⟨by decide, qualifiedMember_not_mem service method (by decide) (by decide)⟩,
      by decide +kernel⟩
  exact responseOf_eq_some rfl hname hcomma (ident_not_mem _ (by decide))
    (endSignature_eq service method)

theorem responseOf_beginSignature :
    responseOf (lit "fabricrpc::Status ") (beginSignature service method) = none := by
  have hcomma : 0x2C ∉ lit "fabricrpc::Status " ++
      qualifiedMember service method (lit "Client::Begin") ++
        0x28 :: (lit "const " ++ method.inputType.bytes ++ 0x2A :: lit " request") := by
    simp only [List.mem_append, List.mem_cons, not_or]
    exact ⟨⟨by decide, qualifiedMember_not_mem service method (by decide) (by decide)⟩, by decide,
      ⟨by decide, ident_not_mem _ (by decide)⟩, by decide, by decide⟩
  have hsplit : beginSignature service method = (lit "fabricrpc::Status " ++
      qualifiedMember service method (lit "Client::Begin") ++
        0x28 :: (lit "const " ++ method.inputType.bytes ++ 0x2A :: lit " request")) ++
      0x2C :: (lit " DWORD timeoutMilliseconds, IFabricAsyncOperationCallback " ++
        lit "*callback, /*out*/ IFabricAsyncOperationContext **context)\x7b") := by
    simp only [beginSignature_eq, List.append_assoc, List.cons_append]
  apply responseOf_eq_none
  rw [hsplit, afterByte_append hcomma]
  rfl

theorem filterMap_requestOf_definitions :
    (clientDefinitions service method).filterMap (requestOf (lit "fabricrpc::Status ")) =
      if method.noStreaming then [method.inputType.bytes] else [] := by
  rw [clientDefinitions]
  split
  · rw [List.filterMap_append, ← List.append_nil [method.inputType.bytes]]
    refine congrArg₂ HAppend.hAppend ?_ ?_
    · rw [List.filterMap_cons, requestOf_beginSignature]
      rfl
    · rw [List.filterMap_cons, requestOf_endSignature]
      rfl
  · rfl

theorem filterMap_responseOf_definitions :
    (clientDefinitions service method).filterMap (responseOf (lit "fabricrpc::Status ")) =
      if method.noStreaming then [method.outputType.bytes] else [] := by
  rw [clientDefinitions]
  split
  · rw [List.filterMap_append, ← List.nil_append [method.outputType.bytes]]
    refine congrArg₂ HAppend.hAppend ?_ ?_
    · rw [List.filterMap_cons, responseOf_beginSignature]
      rfl
    · rw [List.filterMap_cons, responseOf_endSignature]
      rfl
  · rfl

theorem requestOf_definition (head : Bytes) : requestOf head (service.name.bytes ++
    lit "Client::" ++ service.name.bytes ++ lit "Client(IFabricTransportClient *client)") =
      none := by
  have hparen : (0x28 : UInt8) ∉ service.name.bytes ++ lit "Client::" ++ service.name.bytes ++
      lit "Client" := by
    simp only [List.mem_append, not_or]
    exact ⟨⟨⟨ident_not_mem _ (by decide), by decide⟩, ident_not_mem _ (by decide)⟩, by decide⟩
  have hsplit : lit "Client(IFabricTransportClient *client)" =
      lit "Client" ++ 0x28 :: lit "IFabricTransportClient *client)" := rfl
  apply requestOf_eq_none
  rw [hsplit, ← List.append_assoc, afterByte_append hparen]
  rfl

theorem responseOf_definition (head : Bytes) : responseOf head (service.name.bytes ++
    lit "Client::" ++ service.name.bytes ++ lit "Client(IFabricTransportClient *client)") =
      none := by
  have hcomma : (0x2C : UInt8) ∉ service.name.bytes ++ lit "Client::" ++ service.name.bytes ++
      lit "Client(IFabricTransportClient *client)" := by
    simp only [List.mem_append, not_or]
    exact ⟨⟨⟨ident_not_mem _ (by decide), by decide⟩, ident_not_mem _ (by decide)⟩,
      by decide +kernel⟩
  apply responseOf_eq_none
  rw [afterByte_of_not_mem hcomma]
  rfl

-- What is read from the members stands in their definitions.
theorem filterMap_clientSourceLines {read : Bytes → Option Bytes}
    (hfixed : [lit "using privateconverter = " ++
        lit "fabricrpc::FabricRPCHeaderProtoConverter<fabricrpc::request_header, " ++
        lit "fabricrpc::reply_header>;",
      lit "  : client_(), cv_(std::make_shared<privateconverter>()) \x7b",
      lit "  client->AddRef();", lit "  client_.Attach(client);", lit "\x7d"].filterMap read = [])
    (hdefinition : read (service.name.bytes ++ lit "Client::" ++ service.name.bytes ++
      lit "Client(IFabricTransportClient *client)") = none) :
    (clientSourceLines service).filterMap read =
      (service.methods.flatMap (clientDefinitions service)).filterMap read := by
  have hnone := List.filterMap_eq_nil_iff.mp hfixed
  simp only [List.forall_mem_cons, List.not_mem_nil, false_implies, implies_true, and_true] at hnone
  obtain ⟨husing, hinit, hadd, hattach, hclose⟩ := hnone
  simp only [clientSourceLines, List.filterMap_append, List.filterMap_cons, List.filterMap_nil,
    husing, hdefinition, hinit, hadd, hattach, hclose, List.nil_append]

theorem clientSource_requests :
    (clientSourceLines service).filterMap (requestOf (lit "fabricrpc::Status ")) =
      (service.methods.filter MethodDescriptor.noStreaming).map fun method =>
        method.inputType.bytes := by
  rw [filterMap_clientSourceLines service rfl (requestOf_definition service _),
    filterMap_flatMap_ite (filterMap_requestOf_definitions service)]

theorem clientSource_responses :
    (clientSourceLines service).filterMap (responseOf (lit "fabricrpc::Status ")) =
      (service.methods.filter MethodDescriptor.noStreaming).map fun method =>
        method.outputType.bytes := by
  rw [filterMap_clientSourceLines service rfl (responseOf_definition service _),
    filterMap_flatMap_ite (filterMap_responseOf_definitions service)]

end Source

section ReadBack

variable (service : ServiceDescriptor)

open PbGen

-- What is printed for the client are lines.
theorem clientHeaderLines_line : ∀ str ∈ clientHeaderLines service, Line str := by
  have hclass := clientClassTemplate.fill_line (serviceVars_values service)
  have hconstructor := clientConstructorTemplate.fill_line (serviceVars_values service)
  have hprivate := privateTemplate.source_line
  have hfields := fieldsTemplate.source_line
  have hclose := closeClassTemplate.source_line
  have hcomment := notSupportedTemplate.source_line
  rw [fill_client_class] at hclass
  rw [fill_client_constructor] at hconstructor
  rw [source_private] at hprivate
  rw [source_fields] at hfields
  rw [source_close_class] at hclose
  rw [source_not_supported] at hcomment
  have hmethods : ∀ str ∈ service.methods.flatMap clientDeclarations, Line str := by
    intro str hstr
    obtain ⟨method, -, hstr⟩ := List.mem_flatMap.mp hstr
    have hbegin := clientBeginTemplate.fill_line (vars_values service method)
    have hend := clientEndTemplate.fill_line (vars_values service method)
    rw [fill_client_begin] at hbegin
    rw [fill_client_end] at hend
    rw [clientDeclarations] at hstr
    split at hstr
    · exact List.forall_mem_append.mpr ⟨hbegin, hend⟩ str hstr
    · exact hcomment str hstr
  have hmembers := List.forall_mem_append.mpr ⟨hconstructor, hmethods⟩
  rw [clientHeaderLines, List.forall_mem_append, List.forall_mem_append, List.forall_mem_append,
    List.forall_mem_append]
  exact ⟨⟨⟨⟨hclass, lines_indented hmembers⟩, hprivate⟩, hfields⟩, hclose⟩

theorem clientSourceLines_line : ∀ str ∈ clientSourceLines service, Line str := by
  have hconstructor := clientSourceTemplate.fill_line (serviceVars_values service)
  have hcomment := notSupportedTemplate.source_line
  rw [fill_client_source] at hconstructor
  rw [source_not_supported] at hcomment
  have hmethods : ∀ str ∈ service.methods.flatMap (clientDefinitions service), Line str := by
    intro str hstr
    obtain ⟨method, -, hstr⟩ := List.mem_flatMap.mp hstr
    have hbegin := execBeginTemplate.fill_line (vars_values service method)
    have hend := execEndTemplate.fill_line (vars_values service method)
    rw [fill_exec_begin] at hbegin
    rw [fill_exec_end] at hend
    rw [clientDefinitions] at hstr
    split at hstr
    · exact List.forall_mem_append.mpr ⟨hbegin, hend⟩ str hstr
    · exact hcomment str hstr
  rw [clientSourceLines, List.forall_mem_append]
  exact ⟨hconstructor, hmethods⟩

end ReadBack

end FabricRpc.V1
