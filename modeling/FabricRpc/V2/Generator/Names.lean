import FabricRpc.V2.Generator.Files
import FabricRpc.V2.Generator.Follows
import FabricRpc.V2.Generator.Types

namespace FabricRpc.V2

open Lib Printer Pb
open Template (Values)

section Sites

variable (file : FileDescriptor) (service : Pb.ServiceDescriptor)

-- The header begins with the clients. Their classes are templates, and so are the stubs.
def clientSite : Site where
  outer := ⟨lit "net" :: upTo (service.name.bytes ++ lit "Client") file.clients, []⟩
  inner :=
    ⟨[service.name.bytes ++ lit "Client", lit "Executor", lit "executor_type", lit "Token"],
      stubs (service.read file.package) ++ [lit "conn_"]⟩

-- The class of a service, and its base `service`.
def serverSite : Site where
  outer := ⟨lit "net" :: (file.clients ++ upTo service.name.bytes file.classes), []⟩
  inner :=
    ⟨[service.name.bytes, lit "service"], [lit "name", lit "execute"] ++
      (declaredHandlers (service.read file.package)).map DeclaredHandler.name⟩

def executeSite : Site :=
  (serverSite file service).after [lit "url", lit "req", lit "resp", lit "st"]

-- The type names in the texts of a service, with the messages that they are for. The
-- second type of a stub or a handler comes after the parameter of the first.
def mentions : List Mention :=
  let seen := service.read file.package
  let unary := service.methods.filter fun method => method.read.noStreaming
  let requests := unary.map Pb.MethodDescriptor.inputType
  let responses := unary.map Pb.MethodDescriptor.outputType
  [⟨clientSite file service, (clientStrs seen).filterMap stubRequestOf, requests⟩,
    ⟨(clientSite file service).after [lit "request"], (clientStrs seen).filterMap stubResponseOf,
      responses⟩,
    ⟨executeSite file service, (serverStrs seen).filterMap branchRequestOf,
      service.methods.map Pb.MethodDescriptor.inputType⟩,
    ⟨executeSite file service, (serverStrs seen).filterMap branchResponseOf,
      service.methods.map Pb.MethodDescriptor.outputType⟩,
    ⟨serverSite file service, (declaredHandlers seen).map DeclaredHandler.request, requests⟩,
    ⟨(serverSite file service).after [lit "request"],
      (declaredHandlers seen).map DeclaredHandler.response, responses⟩]

end Sites

def printed (file : FileDescriptor) : Printed where
  texts := [(PbGenClientHeader.generateContent file).output,
    (PbGenServerHeader.generateContent file).output]
  mentions := file.services.flatMap (mentions file)

-- Each of them is the name of a message of the method, but for those of the handlers.
theorem mentions_eq (file : FileDescriptor) (service : Pb.ServiceDescriptor) :
    mentions file service =
    let unary := service.methods.filter fun method => method.read.noStreaming
    let requests := unary.map Pb.MethodDescriptor.inputType
    let responses := unary.map Pb.MethodDescriptor.outputType
    [⟨clientSite file service, unary.map fun method => method.inputType.name.bytes, requests⟩,
      ⟨(clientSite file service).after [lit "request"],
        unary.map fun method => method.outputType.name.bytes, responses⟩,
      ⟨executeSite file service, service.methods.map fun method => method.inputType.name.bytes,
        service.methods.map Pb.MethodDescriptor.inputType⟩,
      ⟨executeSite file service, service.methods.map fun method => method.outputType.name.bytes,
        service.methods.map Pb.MethodDescriptor.outputType⟩,
      ⟨serverSite file service, unary.map fun _ => fixedHandler.request, requests⟩,
      ⟨(serverSite file service).after [lit "request"],
        unary.map fun _ => fixedHandler.response, responses⟩] := by
  simp only [mentions, client_requests, client_responses, server_requests, server_responses,
    declaredHandlers_eq, List.map_map, Function.comp_def, filter_read]
  simp only [Pb.ServiceDescriptor.read, List.map_map]
  rfl

section Namespaces

variable (file : FileDescriptor)

theorem fileVars_values (package : Package) : Values fileKeys (fileVars package) :=
  Template.fileNames_values package (namespaceOf_not_mem package (by decide) (by decide))
    (namespaceOf_not_mem package (by decide) (by decide))

theorem fill_namespace (package : Package) :
    namespaceTemplate.lines.map (fill (fileVars package)) =
      [lit "namespace " ++ namespaceOf package ++ lit " \x7b"] := by
  have hlookup : (fileVars package).lookup (lit "Namespace") = some (namespaceOf package) := rfl
  simp [namespaceTemplate, fill, Piece.fill, hlookup]

-- The first two lines of a text, after a comment that has no placeholder.
theorem begins_file {t : Template []} {comment : Bytes}
    (ht : t.lines.map (source V1.dollar) = [comment]) :
    Begins [comment, lit "namespace " ++ namespaceOf file.package ++ lit " \x7b"]
      ((Printer.new.addLnVars (fileVars file.package) t.text).addLnVars
        (fileVars file.package) namespaceTemplate.text) := by
  have hvars := fileVars_values file.package
  rw [Template.printLnPlain, Template.printLnVars _ _ hvars, ht, fill_namespace, write_write]
  exact begins_new _

theorem opened_file {comment : Bytes} (hcomment : newline ∉ comment)
    (hnone : namespaceOfLine comment = none) {p : Printer}
    (h : Begins [comment, lit "namespace " ++ namespaceOf file.package ++ lit " \x7b"] p) :
    opened p.output = components (namespaceOf file.package) :=
  opened_of_begins h hcomment hnone (namespaceOf_not_mem _ (by decide) (by decide))
    (namespaceOf_not_mem _ (by decide) (by decide))

theorem source_client : PbGenClientHeader.fileTemplate.lines.map (source V1.dollar) =
    [lit "// Client code"] := by
  simp [PbGenClientHeader.fileTemplate, source, Piece.source]

theorem source_server : PbGenServerHeader.fileTemplate.lines.map (source V1.dollar) =
    [lit "// Server code"] := by
  simp [PbGenServerHeader.fileTemplate, source, Piece.source]

theorem opened_texts :
    ∀ text ∈ (printed file).texts, opened text = components (namespaceOf file.package) := by
  have hclient := begins_foldl file PbGenClientHeader.printHeaderClientService_write
    ((begins_file file source_client).add (netTemplate.text ++ lit "\n"))
  have hserver := begins_foldl file PbGenServerHeader.printHeaderService_write
    ((begins_file file source_server).add (netTemplate.text ++ lit "\n"))
  simp only [printed, List.forall_mem_cons, List.not_mem_nil, false_implies, implies_true,
    and_true]
  exact ⟨opened_file file (by decide) rfl (hclient.add _),
    opened_file file (by decide) rfl (hserver.add _)⟩

theorem namespaceOf_of_ne_nil {package : Package} (hne : package ≠ []) :
    namespaceOf package = package.scope.dropLast := by
  rw [namespaceOf, isEmpty_scope hne]
  rfl

theorem namespaces_iff (hne : file.package ≠ []) :
    (∀ text ∈ (printed file).texts, opened text = some (path file.package)) ↔
      ∃ i, file.package = [i] ∧ cppName i.bytes = true := by
  have hopened := opened_texts file
  rw [namespaceOf_of_ne_nil hne] at hopened
  exact opens_path_iff hne (List.cons_ne_nil _ _) hopened

end Namespaces

section Resolve

variable {file : FileDescriptor} {pool : Pool file}

-- The names that the header declares around the types of a service in `execute`, and
-- those that are only declared around the types of its unary methods.
def taken (file : FileDescriptor) (service : Pb.ServiceDescriptor) : List Bytes :=
  file.clients ++ upTo service.name.bytes file.classes ++
    [lit "net", lit "service", lit "name", lit "execute", lit "url", lit "req", lit "resp",
      lit "st"] ++
    (service.methods.filter fun method => method.read.noStreaming).map fun _ => lit "SayHello"

def stubTaken : List Bytes :=
  [lit "Executor", lit "executor_type", lit "Token", lit "SayHello", lit "conn_"]

-- What the handler of a unary method needs: the messages and the package are those of
-- the example, and the name of the package is not hidden in it.
structure HandlerResolves (pool : Pool file) (service : Pb.ServiceDescriptor)
    (method : Pb.MethodDescriptor) : Prop where
  input : method.inputType = helloRequest
  output : method.outputType = helloResponse
  package : file.package = [helloPackage]
  declared : pool.world.qualifier (path file.package) helloPackage.bytes = none
  classes : helloPackage.bytes ∉ upTo service.name.bytes file.classes

-- What the message types of a method need.
structure MethodResolves (pool : Pool file) (service : Pb.ServiceDescriptor)
    (method : Pb.MethodDescriptor) : Prop where
  input : Clear pool (taken file service) method.inputType
  output : Clear pool (taken file service) method.outputType
  unary : method.read.noStreaming = true → Clear pool stubTaken method.inputType ∧
    Clear pool (stubTaken ++ [lit "request"]) method.outputType ∧
    HandlerResolves pool service method

section Taken

variable {service : Pb.ServiceDescriptor}

theorem handlers_named : (declaredHandlers (service.read file.package)).map DeclaredHandler.name =
    (service.methods.filter fun method => method.read.noStreaming).map fun _ => lit "SayHello" := by
  rw [declaredHandlers_eq, List.map_map, filter_read]
  rfl

theorem taken_subset_execute : taken file service ⊆ (executeSite file service).taken := by
  intro name hname
  simp only [Site.taken, Site.after, executeSite, serverSite, taken, handlers_named,
    List.mem_append, List.mem_cons, List.not_mem_nil, or_false] at hname ⊢
  grind

theorem execute_taken_subset : (executeSite file service).taken ⊆ taken file service := by
  intro name hname
  have hclass := mem_upTo_self service.name.bytes file.classes
  simp only [Site.taken, Site.after, executeSite, serverSite, taken, handlers_named,
    List.mem_append, List.mem_cons, List.not_mem_nil, or_false] at hname ⊢
  grind

-- A stub has the one name.
theorem mem_stubs {name : Bytes} (h : name ∈ stubs (service.read file.package)) :
    name = lit "SayHello" := by
  rw [stubs_eq] at h
  obtain ⟨-, -, rfl⟩ := List.mem_map.mp h
  rfl

theorem client_taken_subset (hservice : service ∈ file.services) :
    (clientSite file service).taken ⊆ taken file service ++ stubTaken := by
  intro name hname
  have hclient := mem_clients hservice
  have hupTo : name ∈ upTo (service.name.bytes ++ lit "Client") file.clients →
      name ∈ file.clients := mem_of_mem_upTo hclient
  have hstub : name ∈ stubs (service.read file.package) → name = lit "SayHello" := mem_stubs
  simp only [Site.taken, clientSite, taken, stubTaken, List.mem_append, List.mem_cons,
    List.not_mem_nil, or_false] at hname ⊢
  grind

theorem stubTaken_subset {method : Pb.MethodDescriptor} (hmethod : method ∈ service.methods)
    (hunary : method.read.noStreaming = true) :
    stubTaken ⊆ (clientSite file service).taken := by
  intro name hname
  have hstub : lit "SayHello" ∈ stubs (service.read file.package) := by
    rw [stubs_eq, filter_read]
    exact List.mem_map.mpr ⟨method, List.mem_filter.mpr ⟨hmethod, hunary⟩, rfl⟩
  simp only [Site.taken, clientSite, stubTaken, List.mem_append, List.mem_cons,
    List.not_mem_nil, or_false] at hname ⊢
  grind

end Taken

section Handlers

variable {service : Pb.ServiceDescriptor} {items : List Pb.MethodDescriptor}

theorem cppName_hello : cppName helloPackage.bytes = true := by decide

-- The class of a client ends in another way.
theorem hello_not_mem_clients (file : Pb.FileDescriptor) :
    helloPackage.bytes ∉ file.clients := by
  intro hmem
  obtain ⟨service, -, heq⟩ := List.mem_map.mp hmem
  have hsuffix : lit "Client" <:+ helloPackage.bytes := ⟨service.name.bytes, heq⟩
  exact absurd hsuffix (by decide)

-- Of the types around the handlers of a service, only services can have the name.
theorem hello_not_mem_types :
    (helloPackage.bytes ∉ (serverSite file service).outer.types ∧
      helloPackage.bytes ∉ (serverSite file service).inner.types) ↔
      helloPackage.bytes ∉ upTo service.name.bytes file.classes := by
  have hnet : helloPackage.bytes ≠ lit "net" := by decide
  have hbase : helloPackage.bytes ≠ lit "service" := by decide
  have hclient := hello_not_mem_clients file
  have hself := mem_upTo_self service.name.bytes file.classes
  simp only [serverSite, List.mem_cons, List.mem_append, List.not_mem_nil, or_false]
  grind

-- The handlers have the same two names whatever the messages are.
theorem forall_handlers {k j : Ident} (hone : file.package = [k]) (site : Site)
    (houter : site.outer = (serverSite file service).outer)
    (hinner : site.inner.types = (serverSite file service).inner.types)
    (hj : cppName j.bytes = true) (message : Pb.MethodDescriptor → Descriptor)
    (hmem : ∀ method ∈ items, message method ∈ pool.messages)
    (hclear : ∀ method ∈ items, Clear pool (taken file service) (message method)) :
    List.Forall₂ (Denotes pool.world file.package site)
      (items.map fun _ => helloPackage.bytes ++ lit "::" ++ j.bytes) (items.map message) ↔
      ∀ method ∈ items, message method = ⟨[helloPackage], [], j⟩ ∧
        file.package = [helloPackage] ∧
        pool.world.qualifier (path file.package) helloPackage.bytes = none ∧
        helloPackage.bytes ∉ upTo service.name.bytes file.classes := by
  rw [forall₂_names pool.world file.package site items
    (fun _ => helloPackage.bytes ++ lit "::" ++ j.bytes)]
  refine forall₂_congr fun method hmethod => ?_
  have hfree := (hclear method hmethod).free
  have htypes : (message method).name.bytes ∉ site.outer.types := by
    rw [houter]
    refine fun hname => hfree ?_
    simp only [serverSite, List.mem_cons, List.mem_append] at hname
    simp only [taken, List.mem_cons, List.mem_append]
    grind
  have hobjects : (message method).name.bytes ∉ site.outer.objects := by
    rw [houter]
    exact List.not_mem_nil
  rw [denotes_pair_iff hone (by decide) cppName_hello hj (hmem method hmethod)
    (hclear method hmethod).visible htypes hobjects, houter, hinner, hello_not_mem_types]

theorem handlers_resolve_iff {k : Ident} (hone : file.package = [k])
    (hmem : ∀ method ∈ items, method.inputType ∈ pool.messages ∧ method.outputType ∈ pool.messages)
    (hclear : ∀ method ∈ items, Clear pool (taken file service) method.inputType ∧
      Clear pool (taken file service) method.outputType) :
    (List.Forall₂ (Denotes pool.world file.package (serverSite file service))
        (items.map fun _ => fixedHandler.request) (items.map Pb.MethodDescriptor.inputType) ∧
      List.Forall₂ (Denotes pool.world file.package
          ((serverSite file service).after [lit "request"]))
        (items.map fun _ => fixedHandler.response) (items.map Pb.MethodDescriptor.outputType)) ↔
      ∀ method ∈ items, HandlerResolves pool service method := by
  have hrequests := @forall_handlers _ _ _ items _ helloRequest.name hone
    (serverSite file service) rfl rfl (by decide) Pb.MethodDescriptor.inputType
    (fun method hmethod => (hmem method hmethod).1)
    fun method hmethod => (hclear method hmethod).1
  have hresponses := @forall_handlers _ _ _ items _ helloResponse.name hone
    ((serverSite file service).after [lit "request"]) rfl rfl (by decide)
    Pb.MethodDescriptor.outputType (fun method hmethod => (hmem method hmethod).2)
    fun method hmethod => (hclear method hmethod).2
  refine (and_congr hrequests hresponses).trans ?_
  constructor
  · rintro ⟨hin, hout⟩ method hmethod
    obtain ⟨hinput, hpackage, hdeclared, hclasses⟩ := hin method hmethod
    exact ⟨hinput, (hout method hmethod).1, hpackage, hdeclared, hclasses⟩
  · intro h
    have hrest (method) (hmethod : method ∈ items) := And.intro (h method hmethod).package
      (And.intro (h method hmethod).declared (h method hmethod).classes)
    exact ⟨fun method hmethod => ⟨(h method hmethod).input, hrest method hmethod⟩,
      fun method hmethod => ⟨(h method hmethod).output, hrest method hmethod⟩⟩

end Handlers

section Methods

variable {service : Pb.ServiceDescriptor}

-- A branch has the types of its method, whatever the method is.
theorem mentions_resolve_iff (hservice : service ∈ file.services) {k : Ident}
    (hone : file.package = [k]) :
    (∀ mention ∈ mentions file service, List.Forall₂
      (Denotes pool.world file.package mention.site) mention.tokens mention.messages) ↔
      ∀ method ∈ service.methods, MethodResolves pool service method := by
  have htypes := pool.mentioned service hservice
  have hunary (method) (hmem : method ∈ service.methods.filter fun m => m.read.noStreaming) :
      method ∈ service.methods ∧ method.read.noStreaming = true := by
    simpa using hmem
  have hinput (site : Site) := forall_mentions hone site Pb.MethodDescriptor.inputType
    fun method hmethod => (htypes method hmethod).1
  have houtput (site : Site) := forall_mentions hone site Pb.MethodDescriptor.outputType
    fun method hmethod => (htypes method hmethod).2
  have hrequests (site : Site) := forall_mentions hone site Pb.MethodDescriptor.inputType
    fun method hmethod => (htypes method (hunary method hmethod).1).1
  have hresponses (site : Site) := forall_mentions hone site Pb.MethodDescriptor.outputType
    fun method hmethod => (htypes method (hunary method hmethod).1).2
  have hhandlers := fun hclear => @handlers_resolve_iff _ pool service _ _ hone
    (fun method hmethod => htypes method (hunary method hmethod).1) hclear
  simp only [mentions_eq, List.forall_mem_cons, List.not_mem_nil, false_implies, implies_true,
    and_true, hinput, houtput, hrequests, hresponses]
  constructor
  · rintro ⟨hstubIn, hstubOut, hin, hout, hhandler⟩
    have hclear (method) (hmethod : method ∈ service.methods) :
        Clear pool (taken file service) method.inputType ∧
          Clear pool (taken file service) method.outputType :=
      ⟨(hin method hmethod).mono taken_subset_execute,
        (hout method hmethod).mono taken_subset_execute⟩
    have hresolve := (hhandlers fun method hmem => hclear method (hunary method hmem).1).mp hhandler
    intro method hmethod
    refine ⟨(hclear method hmethod).1, (hclear method hmethod).2, fun hno => ?_⟩
    have hmem : method ∈ service.methods.filter fun m => m.read.noStreaming :=
      List.mem_filter.mpr ⟨hmethod, hno⟩
    have hstub : stubTaken ⊆ (clientSite file service).taken := stubTaken_subset hmethod hno
    obtain ⟨hclient, hrequest⟩ := clear_after.mp (hstubOut method hmem)
    exact ⟨(hstubIn method hmem).mono hstub, clear_append.mpr ⟨hclient.mono hstub, hrequest⟩,
      hresolve method hmem⟩
  · intro h
    have hexecute : (executeSite file service).taken ⊆ taken file service :=
      execute_taken_subset
    have hclient := client_taken_subset hservice
    refine ⟨fun method hmem => ?_, fun method hmem => ?_,
      fun method hmethod => (h method hmethod).input.mono hexecute,
      fun method hmethod => (h method hmethod).output.mono hexecute, ?_⟩
    · obtain ⟨hmethod, hno⟩ := hunary method hmem
      have hstub := ((h method hmethod).unary hno).1
      exact (clear_append.mpr ⟨(h method hmethod).input, hstub⟩).mono hclient
    · obtain ⟨hmethod, hno⟩ := hunary method hmem
      obtain ⟨hstub, hrequest⟩ := clear_append.mp ((h method hmethod).unary hno).2.1
      have houtput := clear_append.mpr ⟨(h method hmethod).output, hstub⟩
      exact clear_after.mpr ⟨houtput.mono hclient, hrequest⟩
    · refine (hhandlers fun method hmem => ?_).mpr fun method hmem => ?_
      · have hmethod := h method (hunary method hmem).1
        exact ⟨hmethod.input, hmethod.output⟩
      · exact ((h method (hunary method hmem).1).unary (hunary method hmem).2).2.2

end Methods

-- The names that are printed mean the messages that they are printed for exactly when
-- the package has one part, every message is visible in it, and every unary method has
-- the messages of the example.
theorem names_resolve_iff (hne : file.package ≠ []) : NamesResolve pool (printed file) ↔
    (∃ i, file.package = [i] ∧ cppName i.bytes = true) ∧
    ∀ service ∈ file.services, ∀ method ∈ service.methods, MethodResolves pool service method := by
  apply namesResolve_iff rfl (namespaces_iff file hne)
  rintro ⟨i, hone, -⟩ service hservice
  exact mentions_resolve_iff hservice hone

end Resolve

end FabricRpc.V2
