import FabricRpc.V2.Generator.ReadOut

namespace FabricRpc.V2

open Lib Printer
open V1 (MethodDescriptor ServiceDescriptor)

-- The message types of a stub, which stand on two lines.
def stubRequestOf (str : Bytes) : Option Bytes :=
  (stubOf str).map fun _ => (afterByte 0x28 str).takeWhile (· != space)

def stubResponseOf (str : Bytes) : Option Bytes := between (lit "/*out*/") space str

-- A line of two names is that of the types in a branch.
def typesOf (str : Bytes) : Option (Bytes × Bytes) :=
  let request := (strip str).takeWhile identByte
  ((between (request ++ lit ", ") 0x2C str).filter fun response =>
    strip str == request ++ lit ", " ++ response ++ lit ",").map fun response => (request, response)

def branchRequestOf (str : Bytes) : Option Bytes := (typesOf str).map Prod.fst

def branchResponseOf (str : Bytes) : Option Bytes := (typesOf str).map Prod.snd

section Stub

variable (service : ServiceDescriptor) (method : MethodDescriptor)

theorem stubRequestOf_line : stubRequestOf (lit "auto SayHello(" ++ method.inputType.bytes ++
    lit " *request,") = some method.inputType.bytes := by
  have hstr : lit "auto SayHello(" ++ method.inputType.bytes ++ lit " *request," =
      lit "auto SayHello" ++ 0x28 :: (method.inputType.bytes ++ space :: lit "*request,") := by
    rw [List.append_assoc]
    rfl
  have hstub : stubOf (lit "auto SayHello(" ++ method.inputType.bytes ++ lit " *request,") =
      some (lit "SayHello") := rfl
  rw [stubRequestOf, hstub, hstr, afterByte_append (by decide), Option.map_some,
    takeWhile_ne (ident_not_mem _ (by decide))]

theorem stubResponseOf_line : stubResponseOf (lit "/*out*/" ++ method.outputType.bytes ++
    lit " *reply, Token &&token) \x7b") = some method.outputType.bytes :=
  between_eq_some (ident_not_mem _ (by decide)) rfl

theorem filterMap_stubRequestOf_method :
    (clientMethodLines service method).filterMap stubRequestOf =
      if method.noStreaming then [method.inputType.bytes] else [] := by
  rw [clientMethodLines]
  split
  · rw [stubLines]
    simp only [List.filterMap_cons, stubRequestOf_line]
    rfl
  · rfl

theorem filterMap_stubResponseOf_method :
    (clientMethodLines service method).filterMap stubResponseOf =
      if method.noStreaming then [method.outputType.bytes] else [] := by
  rw [clientMethodLines]
  split
  · rw [stubLines]
    simp only [List.filterMap_cons, stubResponseOf_line]
    rfl
  · rfl

theorem client_requests : (clientStrs service).filterMap stubRequestOf =
    (service.methods.filter MethodDescriptor.noStreaming).map fun method =>
      method.inputType.bytes := by
  have hconstructor := stubOf_constructor service
  have hnone := congrArg (Option.map fun _ => (afterByte 0x28 (lit "  " ++ (service.name.bytes ++
    lit "Client(fabricrpc::rpc_client<executor_type> &conn) : conn_(conn) \x7b\x7d"))).takeWhile
      (· != space)) hconstructor
  rw [clientStrs_eq, filterMap_clientLines service (fun _ => rfl) rfl rfl hnone,
    filterMap_flatMap_ite (filterMap_stubRequestOf_method service)]

theorem client_responses : (clientStrs service).filterMap stubResponseOf =
    (service.methods.filter MethodDescriptor.noStreaming).map fun method =>
      method.outputType.bytes := by
  have hstar : (0x2A : UInt8) ∉ lit "  " ++ (service.name.bytes ++
      lit "Client(fabricrpc::rpc_client<executor_type> &conn) : conn_(conn) \x7b\x7d") := by
    simp only [List.mem_append, not_or]
    exact ⟨by decide, ident_not_mem _ (by decide), by decide +kernel⟩
  have hconstructor : stubResponseOf (lit "  " ++ (service.name.bytes ++
      lit "Client(fabricrpc::rpc_client<executor_type> &conn) : conn_(conn) \x7b\x7d")) = none :=
    between_eq_none (by decide) hstar
  rw [clientStrs_eq, filterMap_clientLines service (fun _ => rfl) rfl rfl hconstructor,
    filterMap_flatMap_ite (filterMap_stubResponseOf_method service)]

end Stub

section Branch

variable (service : ServiceDescriptor) (method : MethodDescriptor)

theorem typesOf_eq_some {str : Bytes} {i j : Ident}
    (hstrip : strip str = i.bytes ++ lit ", " ++ j.bytes ++ lit ",") :
    typesOf str = some (i.bytes, j.bytes) := by
  have hrequest : (strip str).takeWhile identByte = i.bytes := by
    have hall := List.all_eq_true.mp i.wellFormed.2
    rw [hstrip, List.append_assoc, List.append_assoc, List.takeWhile_append_of_pos hall]
    exact List.append_nil _
  have hresponse : between (i.bytes ++ lit ", ") 0x2C str = some j.bytes :=
    between_eq_some (ident_not_mem j (by decide)) hstrip
  have hline : (strip str == i.bytes ++ lit ", " ++ j.bytes ++ lit ",") = true :=
    beq_iff_eq.mpr hstrip
  simp only [typesOf, hrequest, hresponse, Option.filter_some, hline, if_true, Option.map_some]

theorem typesOf_line : typesOf (lit "  " ++ (method.inputType.bytes ++ lit ", " ++
    method.outputType.bytes ++ lit ",")) =
      some (method.inputType.bytes, method.outputType.bytes) := by
  apply typesOf_eq_some
  simp only [List.append_assoc]
  exact strip_name method.inputType _

-- Of a branch one of these is read.
theorem filterMap_typesOf_branch : (branchLines service method).filterMap typesOf =
    [(method.inputType.bytes, method.outputType.bytes)] := by
  have hcondition : typesOf (condition service method) = none := rfl
  have hhelper : typesOf (lit "  " ++ lit "st = co_await fabricrpc::codegen_handler_helper<") =
      none := rfl
  have hmember : typesOf (lit "  " ++ (lit "decltype(&" ++ service.name.bytes ++ lit "::" ++
      method.name.bytes ++ lit "), decltype(this)>(")) = none := rfl
  have hcall : typesOf (lit "  " ++ (lit "req, resp, &" ++ service.name.bytes ++ lit "::" ++
      method.name.bytes ++ lit ", this);")) = none := rfl
  have hclose : typesOf (lit "\x7d") = none := rfl
  simp only [branchLines, callLines, List.map_cons, List.map_nil, List.cons_append,
    List.nil_append, List.filterMap_cons, List.filterMap_nil, hcondition, hhelper, typesOf_line,
    hmember, hcall, hclose]

theorem filterMap_branchRequestOf_branch :
    (branchLines service method).filterMap branchRequestOf = [method.inputType.bytes] := by
  have hmap : ((branchLines service method).filterMap typesOf).map Prod.fst =
      (branchLines service method).filterMap branchRequestOf := List.map_filterMap
  rw [← hmap, filterMap_typesOf_branch]
  rfl

theorem filterMap_branchResponseOf_branch :
    (branchLines service method).filterMap branchResponseOf = [method.outputType.bytes] := by
  have hmap : ((branchLines service method).filterMap typesOf).map Prod.snd =
      (branchLines service method).filterMap branchResponseOf := List.map_filterMap
  rw [← hmap, filterMap_typesOf_branch]
  rfl

theorem server_requests : (serverStrs service).filterMap branchRequestOf =
    service.methods.map fun method => method.inputType.bytes := by
  have hname : [nameLine].filterMap branchRequestOf = [] := rfl
  have hfixed : fixedLines.filterMap branchRequestOf = [] := rfl
  have hchain := filterMap_chainLines rfl (filterMap_branchRequestOf_branch service) true
    service.methods
  rw [serverStrs_eq, filterMap_serverLines service (fun _ => rfl) hfixed rfl, hname, hchain,
    filterMap_handlers rfl rfl, List.nil_append, List.append_nil, ← List.map_eq_flatMap]

theorem server_responses : (serverStrs service).filterMap branchResponseOf =
    service.methods.map fun method => method.outputType.bytes := by
  have hname : [nameLine].filterMap branchResponseOf = [] := rfl
  have hfixed : fixedLines.filterMap branchResponseOf = [] := rfl
  have hchain := filterMap_chainLines rfl (filterMap_branchResponseOf_branch service) true
    service.methods
  rw [serverStrs_eq, filterMap_serverLines service (fun _ => rfl) hfixed rfl, hname, hchain,
    filterMap_handlers rfl rfl, List.nil_append, List.append_nil, ← List.map_eq_flatMap]

end Branch

end FabricRpc.V2
