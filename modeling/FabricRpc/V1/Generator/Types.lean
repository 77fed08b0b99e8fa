import FabricRpc.V1.Generator.Chain

namespace FabricRpc.V1

open Lib Printer

-- The message types in a declaration that begins like this, in what follows the
-- first parenthesis or the first comma.
def requestOf (head str : Bytes) : Option Bytes :=
  (between head 0x28 str).bind fun _ => between (lit "const ") 0x2A (afterByte 0x28 str)

def responseOf (head str : Bytes) : Option Bytes :=
  (between head 0x28 str).bind fun _ => between (lit "/*out*/") 0x2A (afterByte 0x2C str)

-- Those in the body of Route.
def beginTypeOf (str : Bytes) : Option Bytes :=
  between (lit "beginOp = std::make_unique<fabricrpc::BeginOperation<") 0x3E str

def endTypeOf (str : Bytes) : Option Bytes :=
  between (lit "endOp = std::make_unique<fabricrpc::EndOperation<") 0x3E str

section Read

variable {head str : Bytes}

theorem requestOf_eq_some {name token rest : Bytes} (hstrip : strip str = str)
    (hname : 0x28 ∉ head ++ name) (htoken : 0x2A ∉ token)
    (hstr : str = head ++ name ++ 0x28 :: (lit "const " ++ token ++ 0x2A :: rest)) :
    requestOf head str = some token := by
  have hparen : 0x28 ∉ name := fun hmem => hname (List.mem_append_right _ hmem)
  have hbefore : between head 0x28 str = some name := between_eq_some hparen (hstrip.trans hstr)
  have hafter : afterByte 0x28 str = lit "const " ++ token ++ 0x2A :: rest :=
    hstr ▸ afterByte_append hname _
  rw [requestOf, hbefore, hafter]
  exact between_eq_some htoken rfl

theorem responseOf_eq_some {name middle token rest : Bytes} (hstrip : strip str = str)
    (hname : 0x28 ∉ name) (hmiddle : 0x2C ∉ head ++ name ++ 0x28 :: middle)
    (htoken : 0x2A ∉ token)
    (hstr : str = head ++ name ++ 0x28 :: middle ++ 0x2C ::
      (lit " /*out*/" ++ token ++ 0x2A :: rest)) :
    responseOf head str = some token := by
  have hsplit : strip str = head ++ name ++ 0x28 ::
      (middle ++ 0x2C :: (lit " /*out*/" ++ token ++ 0x2A :: rest)) := by
    rw [hstrip, hstr, List.append_assoc]
    rfl
  have hbefore : between head 0x28 str = some name := between_eq_some hname hsplit
  have hafter : afterByte 0x2C str = lit " /*out*/" ++ token ++ 0x2A :: rest :=
    hstr ▸ afterByte_append hmiddle _
  rw [responseOf, hbefore, hafter]
  exact between_eq_some htoken rfl

-- A line whose parameters begin in another way has no such type.
theorem requestOf_eq_none (h : between (lit "const ") 0x2A (afterByte 0x28 str) = none) :
    requestOf head str = none := by
  rw [requestOf, h]
  exact Option.bind_fun_none _

theorem responseOf_eq_none (h : between (lit "/*out*/") 0x2A (afterByte 0x2C str) = none) :
    responseOf head str = none := by
  rw [responseOf, h]
  exact Option.bind_fun_none _

end Read

-- Where the words of the templates are taken apart.
theorem virtual_begin : lit "virtual fabricrpc::Status Begin" =
    lit "virtual fabricrpc::Status " ++ lit "Begin" := by
  repeat rw [lit_ofList]
  rfl

theorem virtual_end : lit "virtual fabricrpc::Status End" =
    lit "virtual fabricrpc::Status " ++ lit "End" := by
  repeat rw [lit_ofList]
  rfl

theorem open_const : lit "(const " = 0x28 :: lit "const " := by
  repeat rw [lit_ofList]
  rfl

theorem open_context : lit "(IFabricAsyncOperationContext *context, /*out*/" =
    0x28 :: (lit "IFabricAsyncOperationContext *context" ++ 0x2C :: lit " /*out*/") := by
  repeat rw [lit_ofList]
  rfl

theorem star_request :
    lit "* request, DWORD timeoutMilliseconds,IFabricAsyncOperationCallback " =
      0x2A :: lit " request, DWORD timeoutMilliseconds,IFabricAsyncOperationCallback " := by
  repeat rw [lit_ofList]
  rfl

theorem star_response : lit "* response) = 0;" = 0x2A :: lit " response) = 0;" := by
  repeat rw [lit_ofList]
  rfl

section Header

variable (service : ServiceDescriptor) (method : MethodDescriptor)

theorem requestOf_begin :
    requestOf (lit "virtual fabricrpc::Status Begin") (beginDeclaration method) =
      some method.inputType.bytes := by
  have hname : 0x28 ∉ lit "virtual fabricrpc::Status Begin" ++ method.name.bytes :=
    paren_not_mem (by decide +kernel) _
  have hstr : beginDeclaration method = lit "virtual fabricrpc::Status Begin" ++
      method.name.bytes ++ 0x28 :: (lit "const " ++ method.inputType.bytes ++ 0x2A ::
        (lit " request, DWORD timeoutMilliseconds,IFabricAsyncOperationCallback " ++
          lit "*callback, /*out*/ IFabricAsyncOperationContext **context) = 0;")) := by
    simp only [beginDeclaration, declared, virtual_begin, open_const, star_request,
      List.append_assoc, List.cons_append]
  exact requestOf_eq_some rfl hname (ident_not_mem _ (by decide)) hstr

theorem responseOf_end :
    responseOf (lit "virtual fabricrpc::Status End") (endDeclaration method) =
      some method.outputType.bytes := by
  have hcomma : 0x2C ∉ lit "virtual fabricrpc::Status End" ++ method.name.bytes ++
      0x28 :: lit "IFabricAsyncOperationContext *context" := by
    simp only [List.mem_append, not_or]
    exact ⟨⟨by decide +kernel, ident_not_mem _ (by decide)⟩, by decide +kernel⟩
  have hstr : endDeclaration method = lit "virtual fabricrpc::Status End" ++
      method.name.bytes ++ 0x28 :: lit "IFabricAsyncOperationContext *context" ++ 0x2C ::
        (lit " /*out*/" ++ method.outputType.bytes ++ 0x2A :: lit " response) = 0;") := by
    simp only [endDeclaration, declared, virtual_end, open_context, star_response,
      List.append_assoc, List.cons_append]
  exact responseOf_eq_some rfl (ident_not_mem _ (by decide)) hcomma (ident_not_mem _ (by decide))
    hstr

theorem filterMap_requestOf_declarations :
    (declarations method).filterMap (requestOf (lit "virtual fabricrpc::Status Begin")) =
      if method.noStreaming then [method.inputType.bytes] else [] := by
  rw [declarations]
  split
  · rw [List.filterMap_cons, requestOf_begin]
    rfl
  · rfl

theorem filterMap_responseOf_declarations :
    (declarations method).filterMap (responseOf (lit "virtual fabricrpc::Status End")) =
      if method.noStreaming then [method.outputType.bytes] else [] := by
  have hbegin : responseOf (lit "virtual fabricrpc::Status End") (beginDeclaration method) =
      none := rfl
  rw [declarations]
  split
  · rw [List.filterMap_cons, hbegin, List.filterMap_cons, responseOf_end]
    rfl
  · rfl

theorem header_requests :
    (headerLines service).filterMap (requestOf (lit "virtual fabricrpc::Status Begin")) =
      (service.methods.filter MethodDescriptor.noStreaming).map fun method =>
        method.inputType.bytes := by
  rw [filterMap_headerLines service (fun _ => rfl) rfl rfl rfl,
    filterMap_flatMap_ite filterMap_requestOf_declarations]
  exact List.append_nil _

theorem header_responses :
    (headerLines service).filterMap (responseOf (lit "virtual fabricrpc::Status End")) =
      (service.methods.filter MethodDescriptor.noStreaming).map fun method =>
        method.outputType.bytes := by
  rw [filterMap_headerLines service (fun _ => rfl) rfl rfl rfl,
    filterMap_flatMap_ite filterMap_responseOf_declarations]
  exact List.append_nil _

end Header

section Route

variable (service : ServiceDescriptor) (method : MethodDescriptor)

theorem beginTypeOf_line : beginTypeOf (lit "  " ++
    (lit "beginOp = std::make_unique<fabricrpc::BeginOperation<" ++ method.inputType.bytes ++
      lit ">>(bo);")) = some method.inputType.bytes :=
  between_eq_some (ident_not_mem _ (by decide)) rfl

theorem endTypeOf_line : endTypeOf (lit "  " ++
    (lit "endOp = std::make_unique<fabricrpc::EndOperation<" ++ method.outputType.bytes ++
      lit ">>(eo);")) = some method.outputType.bytes :=
  between_eq_some (ident_not_mem _ (by decide)) rfl

theorem filterMap_beginTypeOf_branch :
    (routeBranch service method).lines.filterMap beginTypeOf = [method.inputType.bytes] := by
  have hfront : ([(routeBranch service method).condition] ++
      ((routeBranch service method).body.take 4).map (lit "  " ++ ·)).filterMap beginTypeOf = [] :=
    rfl
  have hlast : [lit "  " ++ (lit "endOp = std::make_unique<fabricrpc::EndOperation<" ++
      method.outputType.bytes ++ lit ">>(eo);"), lit "\x7d"].filterMap beginTypeOf = [] := rfl
  have hsplit : (routeBranch service method).lines =
      ([(routeBranch service method).condition] ++
        ((routeBranch service method).body.take 4).map (lit "  " ++ ·)) ++
      (lit "  " ++ (lit "beginOp = std::make_unique<fabricrpc::BeginOperation<" ++
        method.inputType.bytes ++ lit ">>(bo);")) ::
      [lit "  " ++ (lit "endOp = std::make_unique<fabricrpc::EndOperation<" ++
        method.outputType.bytes ++ lit ">>(eo);"), lit "\x7d"] := rfl
  rw [hsplit, List.filterMap_append, hfront, List.filterMap_cons, beginTypeOf_line, hlast]
  rfl

theorem filterMap_endTypeOf_branch :
    (routeBranch service method).lines.filterMap endTypeOf = [method.outputType.bytes] := by
  have hfront : ([(routeBranch service method).condition] ++
      ((routeBranch service method).body.take 5).map (lit "  " ++ ·)).filterMap endTypeOf = [] :=
    rfl
  have hsplit : (routeBranch service method).lines =
      ([(routeBranch service method).condition] ++
        ((routeBranch service method).body.take 5).map (lit "  " ++ ·)) ++
      (lit "  " ++ (lit "endOp = std::make_unique<fabricrpc::EndOperation<" ++
        method.outputType.bytes ++ lit ">>(eo);")) :: [lit "\x7d"] := rfl
  rw [hsplit, List.filterMap_append, hfront, List.filterMap_cons, endTypeOf_line]
  rfl

-- What is read from the text of Route stands in its branches.
theorem filterMap_routeText (read : Bytes → Option Bytes) {value : MethodDescriptor → Bytes}
    (hindented : ∀ str, read (lit "  " ++ str) = read str)
    (hsignature : read (routeSignature service) = none)
    (helse : elseLines.filterMap read = []) (hnone : read (lit "else ") = none)
    (hreturn : read (lit "return fabricrpc::Status();") = none)
    (hclose : read (lit "\x7d") = none)
    (h : ∀ method, (routeBranch service method).lines.filterMap read = [value method]) :
    ([routeSignature service] ++ (routeBody service).map (lit "  " ++ ·) ++
      [lit "\x7d"]).filterMap read = service.methods.map value := by
  have hchain := filterMap_chainLines hnone h true service.methods
  simp only [List.filterMap_append, filterMap_indented hindented, routeBody, printCCService_eq,
    chainLines_map, hchain, helse, List.filterMap_cons, List.filterMap_nil, hsignature, hreturn,
    hclose, List.nil_append, List.append_nil, ← List.map_eq_flatMap]

end Route

end FabricRpc.V1
