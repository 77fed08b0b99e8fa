import FabricRpc.V1.Generator.Chain

namespace FabricRpc.V1

open Lib Printer

-- What the generator prints for a service: the class, its Route, and the client.
def emitted (service : ServiceDescriptor) : List Bytes :=
  [(PbGen.printHeaderService service .new).output, (PbGen.printCCService service .new).output,
    (PbGen.printHeaderClientService service .new).output,
    (PbGen.printCCClientService service .new).output]

-- The body of Route, without its first and its last line.
def routeLines (service : ServiceDescriptor) : List Bytes :=
  ((strsOf (PbGen.printCCService service .new).output).drop 1).dropLast

-- The urls that Route compares with, and the members that the class declares.
def dispatchedUrls (service : ServiceDescriptor) : List Bytes :=
  (routeLines service).filterMap urlOf

def declaredMembers (service : ServiceDescriptor) : List Bytes :=
  (strsOf (PbGen.printHeaderService service .new).output).filterMap memberOf

structure EmittedWellFormed (service : ServiceDescriptor) : Prop where
  chained : Chained (routeLines service)
  dispatched : ∀ url, url ∈ dispatchedUrls service ↔
    ∃ name : Ident, url = methodUrl service.package service.name name ∧
      lit "Begin" ++ name.bytes ∈ declaredMembers service ∧
      lit "End" ++ name.bytes ∈ declaredMembers service
  filled : ∀ text ∈ emitted service, ∀ name : Ident, ¬ placeholder dollar name.bytes <:+: text

section ReadBack

variable (service : ServiceDescriptor)

theorem printCCService_lines : strsOf (PbGen.printCCService service .new).output =
    [routeSignature service] ++ (routeBody service).map (lit "  " ++ ·) ++ [lit "\x7d"] := by
  have hsignature : ∀ str ∈ [routeSignature service], Line str := by
    intro str hstr
    obtain rfl := List.mem_singleton.mp hstr
    exact signature_line service
  have hclose := PbGen.closeTemplate.source_line
  rw [PbGen.source_close] at hclose
  rw [PbGen.printCCService_write]
  apply write_lines
  rw [List.forall_mem_append, List.forall_mem_append]
  exact ⟨⟨hsignature, lines_indented (routeBody_line service)⟩, hclose⟩

theorem routeLines_eq : routeLines service = (routeBody service).map (lit "  " ++ ·) := by
  rw [routeLines, printCCService_lines]
  simp

theorem dispatchedUrls_eq : dispatchedUrls service =
    service.methods.map fun method => methodUrl service.package service.name method.name := by
  have helse : elseLines.filterMap urlOf = [] := rfl
  have hreturn : [lit "return fabricrpc::Status();"].filterMap urlOf = [] := rfl
  have hindented : ((routeBody service).map (lit "  " ++ ·)).filterMap urlOf =
      (routeBody service).filterMap urlOf := filterMap_indented (fun _ => rfl) _
  rw [dispatchedUrls, routeLines_eq, hindented, routeBody, List.filterMap_append,
    List.filterMap_append, helse, hreturn, printCCService_eq,
    chainLines_map, filterMap_chainLines rfl (filterMap_urlOf_lines service),
    ← List.map_eq_flatMap, List.append_nil, List.append_nil]

theorem declaredMembers_eq :
    declaredMembers service = service.methods.flatMap methodMembers ++ [lit "Route"] := by
  rw [declaredMembers, PbGen.printHeaderService_write,
    write_lines (headerLines_line service), filterMap_memberOf_header]

end ReadBack

section Members

variable {service : ServiceDescriptor} {name : Ident}

-- A member tells whose it is.
theorem member_mem_iff {word : Bytes} (hword : word = lit "Begin" ∨ word = lit "End") :
    word ++ name.bytes ∈ declaredMembers service ↔
      ∃ method ∈ service.methods, method.noStreaming = true ∧ method.name = name := by
  have hname (other : Ident) : name.bytes = other.bytes ↔ other = name := by
    rw [Ident.bytes_inj, eq_comm]
  have hroute : word ++ name.bytes ≠ lit "Route" := by
    rcases hword with rfl | rfl
    · simp [lit]
    · simp [lit]
  have hmember (method : MethodDescriptor) : word ++ name.bytes ∈ methodMembers method ↔
      method.noStreaming = true ∧ method.name = name := by
    rw [methodMembers]
    cases hunary : method.noStreaming with
    | false => simp
    | true =>
        rcases hword with rfl | rfl
        · simp [lit, hname]
        · simp [lit, hname]
  rw [declaredMembers_eq, List.mem_append, List.mem_singleton, or_iff_left hroute,
    List.mem_flatMap]
  exact exists_congr fun method => and_congr_right fun _ => hmember method

end Members

section Filled

variable {service : ServiceDescriptor}

-- Of a unary service there is no dollar sign,
theorem emitted_unmarked (h : service.unary) : ∀ text ∈ emitted service, dollar ∉ text := by
  simp only [emitted, List.forall_mem_cons, List.not_mem_nil, false_implies, implies_true,
    and_true]
  exact ⟨PbGen.printHeaderService_clean service h new_clean,
    PbGen.printCCService_clean service new_clean,
    PbGen.printHeaderClientService_clean service h new_clean,
    PbGen.printCCClientService_clean service h new_clean⟩

theorem emitted_filled (h : service.unary) :
    ∀ text ∈ emitted service, ∀ name : Ident, ¬ placeholder dollar name.bytes <:+: text := by
  intro text htext name hfound
  exact emitted_unmarked h text htext (hfound.subset List.mem_cons_self)

-- and for a streaming method one is left in the class.
theorem unfilled_of_streaming {method : MethodDescriptor} (hmethod : method ∈ service.methods)
    (hstreaming : method.noStreaming = false) :
    placeholder dollar (lit "Method") <:+: (PbGen.printHeaderService service .new).output := by
  have hcomment : placeholder dollar (lit "Method") <:+: notSupported := by
    refine ⟨lit "// Streamingfor method ", lit " request " ++ (placeholder dollar (lit "Request") ++
      (lit " response " ++ (placeholder dollar (lit "Response") ++ lit " not supported "))), ?_⟩
    simp only [notSupported, List.append_assoc]
  have hmember : notSupported ∈ service.methods.flatMap declarations := by
    refine List.mem_flatMap.mpr ⟨method, hmethod, ?_⟩
    rw [declarations, hstreaming]
    exact List.mem_singleton_self _
  have hservice : lit "  " ++ notSupported ∈ serviceLines service := by
    refine List.mem_append_left _ (List.mem_append_right _ (List.mem_map.mpr ⟨_, ?_, rfl⟩))
    exact List.mem_append_left _ (List.mem_append_right _ hmember)
  have hline : lit "  " ++ (lit "  " ++ notSupported) ∈ headerLines service := by
    refine List.mem_append_left _ (List.mem_append_right _ (List.mem_map.mpr ⟨_, ?_, rfl⟩))
    exact List.mem_append_right _ hservice
  have hprinted : notSupported <:+: unlines newline (headerLines service) := by
    refine List.IsInfix.trans ?_ (infix_unlines hline)
    rw [← List.append_assoc]
    exact (List.suffix_append _ _).isInfix
  rw [PbGen.printHeaderService_write, new_write]
  exact hcomment.trans hprinted

end Filled

-- The generator wants at least one method, and no streaming.
theorem emitted_well_formed_iff_unary (service : ServiceDescriptor) :
    EmittedWellFormed service ↔ service.methods ≠ [] ∧ service.unary := by
  have hchained : Chained (routeLines service) ↔ service.methods ≠ [] := by
    rw [← chained_routeBody_iff, Chained, Chained, routeLines_eq, read_indented]
  have hmembers (name : Ident) : (lit "Begin" ++ name.bytes ∈ declaredMembers service ∧
      lit "End" ++ name.bytes ∈ declaredMembers service) ↔
        ∃ method ∈ service.methods, method.noStreaming = true ∧ method.name = name := by
    rw [member_mem_iff (.inl rfl), member_mem_iff (.inr rfl), and_self]
  have hurl (url : Bytes) : url ∈ dispatchedUrls service ↔ ∃ method ∈ service.methods,
      url = methodUrl service.package service.name method.name := by
    rw [dispatchedUrls_eq, List.mem_map]
    exact exists_congr fun method => and_congr_right fun _ => eq_comm
  constructor
  · intro h
    refine ⟨hchained.mp h.chained, fun method hmethod => ?_⟩
    obtain ⟨name, heq, hdeclared⟩ := (h.dispatched _).mp ((hurl _).mpr ⟨method, hmethod, rfl⟩)
    obtain ⟨other, hother, hunary, rfl⟩ := (hmembers name).mp hdeclared
    -- No other method has the name.
    obtain rfl := List.inj_on_of_nodup_map service.nodup hmethod hother (methodUrl_inj heq).2.2
    exact hunary
  · rintro ⟨hne, hunary⟩
    refine ⟨hchained.mpr hne, fun url => ?_, emitted_filled hunary⟩
    rw [hurl]
    constructor
    · rintro ⟨method, hmethod, rfl⟩
      exact ⟨method.name, rfl, (hmembers _).mpr ⟨method, hmethod, hunary method hmethod, rfl⟩⟩
    · rintro ⟨name, rfl, hdeclared⟩
      obtain ⟨method, hmethod, -, rfl⟩ := (hmembers name).mp hdeclared
      exact ⟨method, hmethod, rfl⟩

-- A service without methods, and one with a streaming method.
theorem emitted_not_well_formed : ∃ empty streaming : ServiceDescriptor,
    empty.methods = [] ∧ streaming.methods.length = 1 ∧
      ¬ EmittedWellFormed empty ∧ ¬ EmittedWellFormed streaming := by
  let sayHello : MethodDescriptor := ⟨⟨lit "SayHello", by decide⟩,
    ⟨lit "FabricRequest", by decide⟩, ⟨lit "FabricResponse", by decide⟩, false, true⟩
  let package : Package := [⟨lit "helloworld", by decide⟩]
  let empty : ServiceDescriptor := ⟨package, ⟨lit "FabricHello", by decide⟩, [], by decide⟩
  let streaming : ServiceDescriptor :=
    ⟨package, ⟨lit "FabricHello", by decide⟩, [sayHello], by decide⟩
  refine ⟨empty, streaming, rfl, rfl, ?_, ?_⟩
  · intro h
    have hchained := h.chained
    rw [Chained, routeLines_eq, read_indented] at hchained
    exact (chained_routeBody_iff empty).mp hchained rfl
  · intro h
    have hheader : (PbGen.printHeaderService streaming .new).output ∈ emitted streaming :=
      List.mem_cons_self
    exact h.filled _ hheader ⟨lit "Method", by decide⟩
      (unfilled_of_streaming List.mem_cons_self rfl)

end FabricRpc.V1
