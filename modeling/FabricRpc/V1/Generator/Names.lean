import FabricRpc.V1.Generator.ClientTypes
import FabricRpc.V1.Generator.Emitted
import FabricRpc.V1.Generator.Files

namespace FabricRpc.V1

open Lib Printer Pb
open Template (Values)

section Places

variable (file : FileDescriptor) (service : Pb.ServiceDescriptor)

-- What the class `Service` declares, the class around it, and its base MiddleWare.
def serviceScope : Scopes.Names Bytes where
  types := [service.name.bytes, lit "Service", lit "MiddleWare"]
  objects := lit "service_full_name" :: declaredMembers (service.read file.package)

-- The class of the client. Its members have the names of those of `Service`.
def clientScope : Scopes.Names Bytes where
  types := [service.name.bytes ++ lit "Client"]
  objects := [lit "client_", lit "cv_"] ++
    (service.read file.package).methods.flatMap methodMembers

-- In the header the clients come after all services, and in the source everything
-- comes after the header.
def headerSite : Site := ⟨⟨upTo service.name.bytes file.classes, []⟩, serviceScope file service⟩

def routeSite : Site :=
  Site.after
    ⟨⟨file.classes ++ file.clients, [lit "CreateFabricRPCRequestHandler"]⟩,
      serviceScope file service⟩
    [lit "url", lit "beginOp", lit "endOp", lit "bo", lit "eo"]

def clientSite : Site :=
  ⟨⟨file.classes ++ upTo (service.name.bytes ++ lit "Client") file.clients,
    [lit "CreateFabricRPCRequestHandler"]⟩, clientScope file service⟩

def sourceSite : Site :=
  ⟨⟨file.classes ++ file.clients ++ [lit "privateconverter"],
    [lit "CreateFabricRPCRequestHandler"]⟩, clientScope file service⟩

-- The type names in the texts of a service, with the messages that they are for. A
-- response comes after the first parameter.
def mentions : List Mention :=
  let seen := service.read file.package
  let unary := service.methods.filter fun method => method.read.noStreaming
  let requests := unary.map Pb.MethodDescriptor.inputType
  let responses := unary.map Pb.MethodDescriptor.outputType
  let header := strsOf (PbGen.printHeaderService seen .new).output
  let route := strsOf (PbGen.printCCService seen .new).output
  let client := strsOf (PbGen.printHeaderClientService seen .new).output
  let source := strsOf (PbGen.printCCClientService seen .new).output
  [⟨headerSite file service,
      header.filterMap (requestOf (lit "virtual fabricrpc::Status Begin")), requests⟩,
    ⟨(headerSite file service).after [lit "context"],
      header.filterMap (responseOf (lit "virtual fabricrpc::Status End")), responses⟩,
    ⟨routeSite file service, route.filterMap beginTypeOf,
      service.methods.map Pb.MethodDescriptor.inputType⟩,
    ⟨routeSite file service, route.filterMap endTypeOf,
      service.methods.map Pb.MethodDescriptor.outputType⟩,
    ⟨clientSite file service, client.filterMap (requestOf (lit "fabricrpc::Status Begin")),
      requests⟩,
    ⟨(clientSite file service).after [lit "context"],
      client.filterMap (responseOf (lit "fabricrpc::Status End")), responses⟩,
    ⟨sourceSite file service, source.filterMap (requestOf (lit "fabricrpc::Status ")), requests⟩,
    ⟨(sourceSite file service).after [lit "context"],
      source.filterMap (responseOf (lit "fabricrpc::Status ")), responses⟩]

end Places

def printed (file : FileDescriptor) : Printed where
  texts := [(PbGen.getHeaderServices file).output, (PbGen.getCCServices file).output,
    (PbGen.getHeaderClients file).output, (PbGen.getCCClientServices file).output]
  mentions := file.services.flatMap (mentions file)

section Types

variable (file : FileDescriptor) (service : Pb.ServiceDescriptor)

-- Each of them is the name of a message of the method.
theorem mentions_eq : mentions file service =
    let unary := service.methods.filter fun method => method.read.noStreaming
    let requests (site : Site) : Mention :=
      ⟨site, unary.map fun method => method.inputType.name.bytes,
        unary.map Pb.MethodDescriptor.inputType⟩
    let responses (site : Site) : Mention :=
      ⟨site.after [lit "context"], unary.map fun method => method.outputType.name.bytes,
        unary.map Pb.MethodDescriptor.outputType⟩
    [requests (headerSite file service), responses (headerSite file service),
      ⟨routeSite file service, service.methods.map fun method => method.inputType.name.bytes,
        service.methods.map Pb.MethodDescriptor.inputType⟩,
      ⟨routeSite file service, service.methods.map fun method => method.outputType.name.bytes,
        service.methods.map Pb.MethodDescriptor.outputType⟩,
      requests (clientSite file service), responses (clientSite file service),
      requests (sourceSite file service), responses (sourceSite file service)] := by
  let seen := service.read file.package
  have hheader : strsOf (PbGen.printHeaderService seen .new).output = headerLines seen := by
    rw [PbGen.printHeaderService_write, write_lines (headerLines_line _)]
  have hclient : strsOf (PbGen.printHeaderClientService seen .new).output =
      clientHeaderLines seen := by
    rw [PbGen.printHeaderClientService_write, write_lines (clientHeaderLines_line _)]
  have hsource : strsOf (PbGen.printCCClientService seen .new).output =
      clientSourceLines seen := by
    rw [PbGen.printCCClientService_write, write_lines (clientSourceLines_line _)]
  have hbegin := filterMap_routeText seen beginTypeOf (fun _ => rfl) rfl rfl
    rfl rfl rfl (filterMap_beginTypeOf_branch _)
  have hend := filterMap_routeText seen endTypeOf (fun _ => rfl) rfl rfl rfl
    rfl rfl (filterMap_endTypeOf_branch _)
  simp only [seen] at hheader hclient hsource hbegin hend
  simp only [mentions, hheader, hclient, hsource, printCCService_lines, hbegin, hend,
    header_requests, header_responses, clientHeader_requests, clientHeader_responses,
    clientSource_requests, clientSource_responses, filter_read]
  simp only [Pb.ServiceDescriptor.read, List.map_map]
  rfl

end Types

section Namespaces

variable (file : FileDescriptor)

open PbGen

theorem fileVars_values (package : Package) : Values fileKeys (fileVars package) :=
  Template.fileNames_values package (namespaceOf_not_mem package (by decide) (by decide))
    (namespaceOf_not_mem package (by decide) (by decide))

theorem fill_package (package : Package) : packageTemplate.lines.map (fill (fileVars package)) =
    [lit "// Service pkg " ++ package.scope] := by
  have hlookup : (fileVars package).lookup (lit "Package") = some package.scope := rfl
  simp [packageTemplate, fill, Piece.fill, hlookup]

theorem source_client : clientTemplate.lines.map (source dollar) = [lit "// Client code"] := by
  simp [clientTemplate, source, Piece.source]

theorem fill_namespace (package : Package) :
    namespaceTemplate.lines.map (fill (fileVars package)) =
      [lit "namespace " ++ namespaceOf package ++ lit " \x7b"] := by
  have hlookup : (fileVars package).lookup (lit "Namespace") = some (namespaceOf package) := rfl
  simp [namespaceTemplate, fill, Piece.fill, hlookup]

-- The first two lines of a text.
theorem begins_services :
    Begins [lit "// Service pkg " ++ file.package.scope,
        lit "namespace " ++ namespaceOf file.package ++ lit " \x7b"]
      ((Printer.new.addLnVars (fileVars file.package) packageTemplate.text).addLnVars
        (fileVars file.package) namespaceTemplate.text) := by
  have hvars := fileVars_values file.package
  rw [Template.printLnVars _ _ hvars, Template.printLnVars _ _ hvars, fill_package,
    fill_namespace, write_write]
  exact begins_new _

theorem begins_clients :
    Begins [lit "// Client code", lit "namespace " ++ namespaceOf file.package ++ lit " \x7b"]
      ((Printer.new.addLnVars (fileVars file.package) clientTemplate.text).addLnVars
        (fileVars file.package) namespaceTemplate.text) := by
  have hvars := fileVars_values file.package
  rw [Template.printLnPlain, Template.printLnVars _ _ hvars, source_client, fill_namespace,
    write_write]
  exact begins_new _

theorem opened_services {p : Printer} (h : Begins [lit "// Service pkg " ++ file.package.scope,
    lit "namespace " ++ namespaceOf file.package ++ lit " \x7b"] p) :
    opened p.output = components (namespaceOf file.package) := by
  have hcomment : newline ∉ lit "// Service pkg " ++ file.package.scope := by
    rw [List.mem_append, not_or]
    exact ⟨by decide, scope_not_mem _ (by decide) (by decide)⟩
  exact opened_of_begins h hcomment rfl (namespaceOf_not_mem _ (by decide) (by decide))
    (namespaceOf_not_mem _ (by decide) (by decide))

theorem opened_clients {p : Printer} (h : Begins [lit "// Client code",
    lit "namespace " ++ namespaceOf file.package ++ lit " \x7b"] p) :
    opened p.output = components (namespaceOf file.package) :=
  opened_of_begins h (by decide) rfl (namespaceOf_not_mem _ (by decide) (by decide))
    (namespaceOf_not_mem _ (by decide) (by decide))

theorem opened_texts :
    ∀ text ∈ (printed file).texts, opened text = components (namespaceOf file.package) := by
  have hheader := begins_foldl file printHeaderService_write (begins_services file)
  have hsource := begins_foldl file printCCService_write (begins_services file)
  have hclient := begins_foldl file printHeaderClientService_write (begins_clients file)
  have hclients := begins_foldl file printCCClientService_write (begins_clients file)
  simp only [printed, List.forall_mem_cons, List.not_mem_nil, false_implies, implies_true,
    and_true]
  exact ⟨opened_services file ((hheader.add _).add _),
    opened_services file ((((hsource.add _).indent.add _).outdent.add _).add _),
    opened_clients file (hclient.add _), opened_clients file (hclients.add _)⟩

theorem namespaceOf_of_ne_nil {package : Package} (hne : package ≠ []) :
    namespaceOf package = package.scope.dropLast := by
  rw [namespaceOf, isEmpty_scope hne]
  rfl

end Namespaces

section Resolve

variable {file : FileDescriptor} {pool : Pool file}

-- The names that the texts declare around the types of a service in Route, and those
-- that are only declared around the types of its unary methods.
def taken (file : FileDescriptor) (service : Pb.ServiceDescriptor) : List Bytes :=
  file.classes ++ file.clients ++
    [lit "CreateFabricRPCRequestHandler", lit "Service", lit "MiddleWare",
      lit "service_full_name", lit "Route", lit "url", lit "beginOp", lit "endOp", lit "bo",
      lit "eo"] ++
    (service.read file.package).methods.flatMap methodMembers

def clientTaken : List Bytes := [lit "client_", lit "cv_", lit "privateconverter"]

-- What the message types of a method need.
structure MethodResolves (pool : Pool file) (service : Pb.ServiceDescriptor)
    (method : Pb.MethodDescriptor) : Prop where
  input : Clear pool (taken file service) method.inputType
  output : Clear pool (taken file service) method.outputType
  unary : method.read.noStreaming = true → Clear pool clientTaken method.inputType ∧
    Clear pool (clientTaken ++ [lit "context"]) method.outputType

section Taken

variable {service : Pb.ServiceDescriptor}

theorem taken_subset_route : taken file service ⊆ (routeSite file service).taken := by
  intro name hname
  simp only [Site.taken, Site.after, routeSite, serviceScope, declaredMembers_eq, taken,
    List.mem_append, List.mem_cons, List.not_mem_nil, or_false] at hname ⊢
  grind

theorem route_taken_subset (hservice : service ∈ file.services) :
    (routeSite file service).taken ⊆ taken file service := by
  intro name hname
  have hclass := mem_classes hservice
  simp only [Site.taken, Site.after, routeSite, serviceScope, declaredMembers_eq, taken,
    List.mem_append, List.mem_cons, List.not_mem_nil, or_false] at hname ⊢
  grind

theorem header_taken_subset (hservice : service ∈ file.services) :
    (headerSite file service).taken ⊆ taken file service := by
  intro name hname
  have hclass := mem_classes hservice
  have hupTo : name ∈ upTo service.name.bytes file.classes → name ∈ file.classes :=
    mem_of_mem_upTo hclass
  simp only [Site.taken, headerSite, serviceScope, declaredMembers_eq, taken,
    List.mem_append, List.mem_cons, List.not_mem_nil, or_false] at hname ⊢
  grind

theorem client_taken_subset (hservice : service ∈ file.services) :
    (clientSite file service).taken ⊆ taken file service ++ clientTaken := by
  intro name hname
  have hclient := mem_clients hservice
  have hupTo : name ∈ upTo (service.name.bytes ++ lit "Client") file.clients →
      name ∈ file.clients := mem_of_mem_upTo hclient
  simp only [Site.taken, clientSite, clientScope, taken, clientTaken,
    List.mem_append, List.mem_cons, List.not_mem_nil, or_false] at hname ⊢
  grind

theorem source_taken_subset (hservice : service ∈ file.services) :
    (sourceSite file service).taken ⊆ taken file service ++ clientTaken := by
  intro name hname
  have hclient := mem_clients hservice
  simp only [Site.taken, sourceSite, clientScope, taken, clientTaken,
    List.mem_append, List.mem_cons, List.not_mem_nil, or_false] at hname ⊢
  grind

theorem clientTaken_subset : clientTaken ⊆ (sourceSite file service).taken := by
  intro name hname
  simp only [Site.taken, sourceSite, clientScope, clientTaken,
    List.mem_append, List.mem_cons, List.not_mem_nil, or_false] at hname ⊢
  grind

end Taken

section Methods

variable {service : Pb.ServiceDescriptor} {method : Pb.MethodDescriptor}

-- A unary method, whose types stand in every text.
theorem MethodResolves.sites (hservice : service ∈ file.services)
    (h : MethodResolves pool service method) (hunary : method.read.noStreaming = true) :
    ∀ site ∈ [headerSite file service, clientSite file service, sourceSite file service],
      Clear pool site.taken method.inputType ∧
      Clear pool (site.after [lit "context"]).taken method.outputType := by
  obtain ⟨hin, hout⟩ := h.unary hunary
  obtain ⟨hout, hcontext⟩ := clear_append.mp hout
  have hinput := clear_append.mpr ⟨h.input, hin⟩
  have houtput := clear_append.mpr ⟨h.output, hout⟩
  simp only [List.forall_mem_cons, List.not_mem_nil, false_implies, implies_true, and_true,
    clear_after]
  exact ⟨⟨h.input.mono (header_taken_subset hservice),
      h.output.mono (header_taken_subset hservice), hcontext⟩,
    ⟨hinput.mono (client_taken_subset hservice), houtput.mono (client_taken_subset hservice),
      hcontext⟩,
    ⟨hinput.mono (source_taken_subset hservice), houtput.mono (source_taken_subset hservice),
      hcontext⟩⟩

-- The route has the types of all methods, the other texts those of the unary ones.
theorem mentions_resolve_iff (hservice : service ∈ file.services) {i : Ident}
    (hone : file.package = [i]) :
    (∀ mention ∈ mentions file service, List.Forall₂
      (Denotes pool.world file.package mention.site) mention.tokens mention.messages) ↔
      ∀ method ∈ service.methods, MethodResolves pool service method := by
  have htypes := pool.mentioned service hservice
  have hunary (method) (hmem : method ∈ service.methods.filter fun m => m.read.noStreaming) :
      method ∈ service.methods ∧ method.read.noStreaming = true := by
    simpa using hmem
  have hinput (site : Site) := forall_mentions hone site Pb.MethodDescriptor.inputType
    fun method hmethod => (htypes method hmethod).1
  have houtput (site : Site) := forall_mentions hone site Pb.MethodDescriptor.outputType
    fun method hmethod => (htypes method hmethod).2
  have hrequests (site : Site) := forall_mentions hone site Pb.MethodDescriptor.inputType
    fun method hmethod => (htypes method (hunary method hmethod).1).1
  have hresponses (site : Site) := forall_mentions hone site Pb.MethodDescriptor.outputType
    fun method hmethod => (htypes method (hunary method hmethod).1).2
  simp only [mentions_eq, List.forall_mem_cons, List.not_mem_nil, false_implies, implies_true,
    and_true, hinput, houtput, hrequests, hresponses]
  constructor
  · rintro ⟨-, -, hin, hout, -, -, hsourceIn, hsourceOut⟩ method hmethod
    refine ⟨(hin method hmethod).mono taken_subset_route,
      (hout method hmethod).mono taken_subset_route, fun hno => ?_⟩
    have hmem : method ∈ service.methods.filter fun m => m.read.noStreaming :=
      List.mem_filter.mpr ⟨hmethod, hno⟩
    obtain ⟨hsource, hcontext⟩ := clear_after.mp (hsourceOut method hmem)
    exact ⟨(hsourceIn method hmem).mono clientTaken_subset,
      clear_append.mpr ⟨hsource.mono clientTaken_subset, hcontext⟩⟩
  · intro h
    have hsites (method) (hmem : method ∈ service.methods.filter fun m => m.read.noStreaming) :=
      (h method (hunary method hmem).1).sites hservice (hunary method hmem).2
    simp only [List.forall_mem_cons, List.not_mem_nil, false_implies, implies_true,
      and_true] at hsites
    have hroute := route_taken_subset hservice
    exact ⟨fun method hmem => (hsites method hmem).1.1, fun method hmem => (hsites method hmem).1.2,
      fun method hmethod => (h method hmethod).input.mono hroute,
      fun method hmethod => (h method hmethod).output.mono hroute,
      fun method hmem => (hsites method hmem).2.1.1, fun method hmem => (hsites method hmem).2.1.2,
      fun method hmem => (hsites method hmem).2.2.1, fun method hmem => (hsites method hmem).2.2.2⟩

end Methods

theorem namespaces_iff (hne : file.package ≠ []) :
    (∀ text ∈ (printed file).texts, opened text = some (path file.package)) ↔
      ∃ i, file.package = [i] ∧ cppName i.bytes = true := by
  have hopened := opened_texts file
  rw [namespaceOf_of_ne_nil hne] at hopened
  exact opens_path_iff hne (List.cons_ne_nil _ _) hopened

-- The names that are printed mean the messages that they are printed for exactly when
-- the package has one part and every message is visible in it.
theorem names_resolve_iff (hne : file.package ≠ []) : NamesResolve pool (printed file) ↔
    (∃ i, file.package = [i] ∧ cppName i.bytes = true) ∧
    ∀ service ∈ file.services, ∀ method ∈ service.methods, MethodResolves pool service method := by
  apply namesResolve_iff rfl (namespaces_iff hne)
  rintro ⟨i, hone, -⟩ service hservice
  exact mentions_resolve_iff hservice hone

end Resolve

end FabricRpc.V1
