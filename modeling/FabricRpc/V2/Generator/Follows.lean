import FabricRpc.V2.Generator.ReadOut
import FabricRpc.V2.Middleware
import Mathlib.Data.List.Nodup

namespace FabricRpc.V2

open Lib
open Pb (FileDescriptor Descriptor)

-- The class of a message, written out or as it is called in the namespace of the file.
def NamesClass (package : Package) (token : Bytes) (message : Descriptor) : Prop :=
  token = message.qualifiedName ∨ (message.package = package ∧ token = message.className)

-- The generated service and its client are those of the descriptor.
structure FollowsDescriptor (file : FileDescriptor) (service : Pb.ServiceDescriptor) : Prop where
  name : generatedNames (service.read file.package) = [(service.read file.package).fullName]
  urls : ∀ name ∈ generatedNames (service.read file.package),
    clientUrls (service.read file.package) =
      service.methods.map fun method => lit "/" ++ name ++ lit "/" ++ method.name.bytes
  handlers : ∀ method ∈ service.methods, ∃ handler,
    (declaredHandlers (service.read file.package)).filter
      (fun handler => handler.name == method.name.bytes) = [handler] ∧
    NamesClass file.package handler.request method.inputType ∧
    NamesClass file.package handler.response method.outputType
  stubs : ∀ method ∈ service.methods,
    (stubs (service.read file.package)).count method.name.bytes = 1
  calls : ∀ method ∈ service.methods,
    (branches (service.read file.package)).lookup
      (methodUrl file.package service.name method.name) =
        some (service.name.bytes ++ lit "::" ++ method.name.bytes)
  distinct : ((declaredHandlers (service.read file.package)).map DeclaredHandler.name).Nodup

def helloPackage : Ident := ⟨lit "helloworld", helloPackage_wellFormed⟩

def helloService : Ident := ⟨lit "FabricHello", helloService_wellFormed⟩

def helloMethod : Ident := ⟨lit "SayHello", helloMethod_wellFormed⟩

def helloRequest : Descriptor := ⟨[helloPackage], [], ⟨lit "FabricRequest", by decide⟩⟩

def helloResponse : Descriptor := ⟨[helloPackage], [], ⟨lit "FabricResponse", by decide⟩⟩

-- The service that the templates spell out.
structure IsFabricHello (file : FileDescriptor) (service : Pb.ServiceDescriptor) : Prop where
  package : file.package = [helloPackage]
  name : service.name = helloService
  methods : ∀ method ∈ service.methods, method.name = helloMethod ∧
    method.inputType = helloRequest ∧ method.outputType = helloResponse

section Names

-- The types of the handler are written out.
theorem namesClass_iff {package : Package} {message : Descriptor} {i j : Ident}
    (hj : 0x5F ∉ j.bytes) :
    NamesClass package (i.bytes ++ lit "::" ++ j.bytes) message ↔ message = ⟨[i], [], j⟩ := by
  have hcolon : (0x3A : UInt8) ∈ i.bytes ++ lit "::" ++ j.bytes := by simp [lit]
  have hclass : i.bytes ++ lit "::" ++ j.bytes ≠ message.className := by
    intro heq
    exact Pb.className_not_mem message (by decide : identByte 0x3A = false) (heq ▸ hcolon)
  rw [NamesClass, or_iff_left fun h => hclass h.2, eq_comm, Pb.qualifiedName_eq_iff message hj]
  cases message
  simp

theorem namesClass_request (package : Package) (message : Descriptor) :
    NamesClass package fixedHandler.request message ↔ message = helloRequest :=
  namesClass_iff (i := helloPackage) (j := ⟨lit "FabricRequest", by decide⟩) (by decide)

theorem namesClass_response (package : Package) (message : Descriptor) :
    NamesClass package fixedHandler.response message ↔ message = helloResponse :=
  namesClass_iff (i := helloPackage) (j := ⟨lit "FabricResponse", by decide⟩) (by decide)

end Names

section Unary

variable {file : FileDescriptor} {service : Pb.ServiceDescriptor}

theorem filter_unary (hunary : (service.read file.package).unary) :
    (service.read file.package).methods.filter V1.MethodDescriptor.noStreaming =
      service.methods.map Pb.MethodDescriptor.read :=
  List.filter_eq_self.mpr hunary

-- What the generator makes of a unary service.
theorem declaredHandlers_unary (hunary : (service.read file.package).unary) :
    declaredHandlers (service.read file.package) = service.methods.map fun _ => fixedHandler := by
  rw [declaredHandlers_eq, filter_unary hunary, List.map_map]
  rfl

theorem stubs_unary (hunary : (service.read file.package).unary) :
    stubs (service.read file.package) = service.methods.map fun _ => lit "SayHello" := by
  rw [stubs_eq, filter_unary hunary, List.map_map]
  rfl

theorem clientUrls_unary (hunary : (service.read file.package).unary) :
    clientUrls (service.read file.package) =
      service.methods.map fun method => methodUrl file.package service.name method.name := by
  rw [clientUrls_eq, filter_unary hunary, List.map_map]
  rfl

theorem branches_read (file : FileDescriptor) (service : Pb.ServiceDescriptor) :
    branches (service.read file.package) =
    service.methods.map fun method => (methodUrl file.package service.name method.name,
      service.name.bytes ++ lit "::" ++ method.name.bytes) := by
  rw [branches_eq]
  exact List.map_map

theorem isFabricHello_of_follows (hunary : (service.read file.package).unary)
    (h : FollowsDescriptor file service) : IsFabricHello file service := by
  have hname := h.name
  rw [generatedNames_eq] at hname
  have hfull : file.package.scope ++ service.name.bytes =
      Package.scope [helloPackage] ++ helloService.bytes := (List.cons.inj hname).1.symm
  obtain ⟨hpackage, hservice⟩ := fullName_inj hfull
  refine ⟨hpackage, hservice, fun method hmethod => ?_⟩
  have hstub := h.stubs method hmethod
  obtain ⟨handler, hfilter, hrequest, hresponse⟩ := h.handlers method hmethod
  rw [stubs_unary hunary] at hstub
  rw [declaredHandlers_unary hunary] at hfilter
  have hsay : method.name.bytes = helloMethod.bytes := by
    have hmem : method.name.bytes ∈ service.methods.map fun _ => lit "SayHello" :=
      List.count_pos_iff.mp (by omega)
    obtain ⟨-, -, heq⟩ := List.mem_map.mp hmem
    exact heq.symm
  have hhandler : handler = fixedHandler := by
    have hmem : handler ∈ (service.methods.map fun _ => fixedHandler).filter
        (fun handler => handler.name == method.name.bytes) := hfilter ▸ List.mem_singleton_self _
    obtain ⟨-, -, heq⟩ := List.mem_map.mp (List.mem_of_mem_filter hmem)
    exact heq.symm
  rw [hhandler] at hrequest hresponse
  exact ⟨Ident.bytes_inj.mp hsay, (namesClass_request _ _).mp hrequest,
    (namesClass_response _ _).mp hresponse⟩

-- No two methods have the one name.
theorem IsFabricHello.methods_eq (h : IsFabricHello file service) (hne : service.methods ≠ []) :
    ∃ method, service.methods = [method] := by
  have hnodup := service.nodup
  have hnames := h.methods
  cases hmethods : service.methods with
  | nil => exact absurd hmethods hne
  | cons method methods =>
      rw [hmethods] at hnodup hnames
      cases methods with
      | nil => exact ⟨method, rfl⟩
      | cons other methods =>
          have hmethod := (hnames method List.mem_cons_self).1
          have hother := (hnames other (List.mem_cons_of_mem _ List.mem_cons_self)).1
          exact absurd hnodup (by simp [hmethod, hother])

theorem IsFabricHello.follows (h : IsFabricHello file service) (hne : service.methods ≠ [])
    (hunary : (service.read file.package).unary) : FollowsDescriptor file service := by
  obtain ⟨method, hmethods⟩ := h.methods_eq hne
  obtain ⟨hname, hinput, houtput⟩ := h.methods method (hmethods ▸ List.mem_singleton_self _)
  have hhandlers := declaredHandlers_unary hunary
  have hstubs := stubs_unary hunary
  have hurls := clientUrls_unary hunary
  have hbranches := branches_read file service
  have hfull : (service.read file.package).fullName = lit "helloworld.FabricHello" := by
    rw [V1.ServiceDescriptor.fullName, Pb.ServiceDescriptor.read, h.package, h.name]
    rfl
  have hurl (other : Ident) : methodUrl file.package service.name other =
      lit "/" ++ (service.read file.package).fullName ++ lit "/" ++ other.bytes := by
    simp [methodUrl, V1.ServiceDescriptor.fullName, Pb.ServiceDescriptor.read]
  rw [hmethods] at hhandlers hstubs hbranches
  have hsay : method.name.bytes = lit "SayHello" := by
    rw [hname]
    rfl
  constructor
  · rw [generatedNames_eq, hfull]
  · intro name hgenerated
    rw [generatedNames_eq, ← hfull] at hgenerated
    rw [hurls, List.mem_singleton.mp hgenerated]
    simp only [hurl]
  · intro other hother
    obtain rfl : other = method := by simpa [hmethods] using hother
    refine ⟨fixedHandler, ?_, ?_, ?_⟩
    · simp [hhandlers, hsay, fixedHandler]
    · rw [hinput, namesClass_request]
    · rw [houtput, namesClass_response]
  · intro other hother
    obtain rfl : other = method := by simpa [hmethods] using hother
    simp [hstubs, hsay]
  · intro other hother
    obtain rfl : other = method := by simpa [hmethods] using hother
    simp [hbranches]
  · simp [hhandlers]

end Unary

-- The name and the urls of the model of a generated service are those that are printed.
theorem generatedNames_eq_name {σ : Type*} {Msg : σ → Type*} (service : V1.ServiceDescriptor)
    (svc : GeneratedService Msg) : generatedNames service = [svc.name] :=
  generatedNames_eq service

theorem branches_eq_url {σ : Type*} {Msg : σ → Type*} {service : V1.ServiceDescriptor}
    {svc : GeneratedService Msg} (hpackage : svc.package = service.package)
    (hname : svc.service = service.name)
    (hmethods : svc.methods.map GeneratedMethod.name =
      service.methods.map V1.MethodDescriptor.name) :
    (branches service).map Prod.fst = svc.methods.map svc.url := by
  have hurls : svc.methods.map svc.url = (svc.methods.map GeneratedMethod.name).map
      (methodUrl service.package service.name) := by
    rw [List.map_map, ← hpackage, ← hname]
    rfl
  rw [hurls, hmethods, branches_eq, List.map_map, List.map_map]
  rfl

-- The v2 generator follows the descriptor of one service, and of no other. Names of
-- classes are compared as text here, and not looked up in the C++ namespaces.
theorem follows_descriptor_iff (file : FileDescriptor) : ∀ service ∈ file.services,
    service.methods ≠ [] → (service.read file.package).unary →
      (FollowsDescriptor file service ↔ IsFabricHello file service) :=
  fun _ _ hne hunary => ⟨isFabricHello_of_follows hunary, fun h => h.follows hne hunary⟩

-- It is the one service of its file.
theorem follows_descriptor_fabric_hello : ∃ file : FileDescriptor, ∃ service ∈ file.services,
    service.name = helloService ∧ FollowsDescriptor file service := by
  let method : Pb.MethodDescriptor := ⟨helloMethod, helloRequest, helloResponse, false, false⟩
  let service : Pb.ServiceDescriptor := ⟨helloService, [method], by decide⟩
  let file : FileDescriptor := ⟨[helloPackage], [service], by decide⟩
  have hunary : (service.read file.package).unary := by
    simp [service, method, V1.ServiceDescriptor.unary, Pb.ServiceDescriptor.read,
      Pb.MethodDescriptor.read, V1.MethodDescriptor.noStreaming]
  have hiff := follows_descriptor_iff file service List.mem_cons_self (List.cons_ne_nil _ _) hunary
  exact ⟨file, service, List.mem_cons_self, rfl, hiff.mpr ⟨rfl, rfl, by simp [service, method]⟩⟩

-- A service of another name is given that name, and a second method that handler.
theorem follows_descriptor_fails : ∃ file : FileDescriptor, ∃ service ∈ file.services,
    service.methods ≠ [] ∧ (service.read file.package).unary ∧
      ¬ FollowsDescriptor file service := by
  let greet : Pb.MethodDescriptor := ⟨⟨lit "Greet", by decide⟩, ⟨[⟨lit "a", by decide⟩], [],
    ⟨lit "Ask", by decide⟩⟩, ⟨[⟨lit "a", by decide⟩], [], ⟨lit "Answer", by decide⟩⟩, false, false⟩
  let service : Pb.ServiceDescriptor := ⟨⟨lit "Greeter", by decide⟩, [greet], by decide⟩
  let file : FileDescriptor := ⟨[⟨lit "a", by decide⟩], [service], by decide⟩
  refine ⟨file, service, List.mem_cons_self, List.cons_ne_nil _ _, ?_, fun h => ?_⟩
  · simp [service, greet, V1.ServiceDescriptor.unary, Pb.ServiceDescriptor.read,
      Pb.MethodDescriptor.read, V1.MethodDescriptor.noStreaming]
  · have hname := h.name
    rw [generatedNames_eq] at hname
    exact absurd (List.cons.inj hname).1 (by decide)

end FabricRpc.V2
