import FabricRpc.V1.Generator
import Mathlib.Data.List.Nodup

namespace FabricRpc.V1

open Lib

section Service

variable {σ : Type*}

theorem GeneratedService.url_inj {svc other : GeneratedService σ}
    {method other' : GeneratedMethod σ}
    (h : svc.url method = other.url other') :
    svc.package = other.package ∧ svc.service = other.service ∧ method.name = other'.name :=
  methodUrl_inj h

-- The chain of comparisons ends at the method whose url it is given,
theorem GeneratedService.route_url {svc : GeneratedService σ}
    (hnodup : (svc.methods.map GeneratedMethod.name).Nodup) {method : GeneratedMethod σ}
    (hmethod : method ∈ svc.methods) (ops : Ops σ) :
    svc.route (svc.url method) ops = (.ok, svc.bind method) := by
  unfold GeneratedService.route
  cases hfind : svc.methods.find? (fun other => svc.url method == svc.url other) with
  | none =>
      rw [List.find?_eq_none] at hfind
      exact absurd (hfind method hmethod) (by simp)
  | some other =>
      have hurl : svc.url method = svc.url other := by simpa using List.find?_some hfind
      have hname : method.name = other.name := (GeneratedService.url_inj hurl).2.2
      rw [List.inj_on_of_nodup_map hnodup hmethod (List.mem_of_find?_eq_some hfind) hname]

-- and falls through for any other url.
theorem GeneratedService.route_other {svc : GeneratedService σ} {url : Bytes}
    (hurl : ∀ method ∈ svc.methods, svc.url method ≠ url) (ops : Ops σ) :
    svc.route url ops = (notFound url, ops) := by
  unfold GeneratedService.route
  have hfind : svc.methods.find? (fun method => url == svc.url method) = none := by
    rw [List.find?_eq_none]
    intro method hmethod heq
    exact hurl method hmethod (by simpa using Eq.symm (by simpa using heq))
  rw [hfind]

theorem router_cons_failed {svc : MiddleWare σ} {svcList : List (MiddleWare σ)} {url : Bytes}
    {ops : Ops σ} (h : svc url ops = (notFound url, ops)) :
    router (svc :: svcList) url ops = router svcList url ops := by
  simp only [router, routeAll, h, failed_notFound, Bool.not_true, Bool.false_eq_true, if_false]

theorem router_cons_ok {svc : MiddleWare σ} {svcList : List (MiddleWare σ)} {url : Bytes}
    {ops bound : Ops σ} (h : svc url ops = (.ok, bound)) :
    router (svc :: svcList) url ops = (.ok, bound) := by
  simp only [router, routeAll, h, Status.failed_ok, Bool.not_false, if_true]

-- The router finds a method by its url in any order of the services.
theorem router_url {svcs : List (GeneratedService σ)} {svc : GeneratedService σ}
    (hmem : svc ∈ svcs)
    (hinj : ∀ other ∈ svcs, other.package = svc.package → other.service = svc.service →
      other = svc)
    (hnodup : (svc.methods.map GeneratedMethod.name).Nodup) {method : GeneratedMethod σ}
    (hmethod : method ∈ svc.methods) (ops : Ops σ) :
    router (svcs.map GeneratedService.route) (svc.url method) ops = (.ok, svc.bind method) := by
  induction svcs with
  | nil => exact absurd hmem List.not_mem_nil
  | cons first svcs ih =>
      rw [List.map_cons]
      by_cases hfirst : first.package = svc.package ∧ first.service = svc.service
      · obtain rfl := hinj first List.mem_cons_self hfirst.1 hfirst.2
        exact router_cons_ok (GeneratedService.route_url hnodup hmethod ops)
      · have hother : first.route (svc.url method) ops = (notFound (svc.url method), ops) := by
          apply GeneratedService.route_other
          intro other _ hurl
          obtain ⟨hpackage, hservice, -⟩ := GeneratedService.url_inj hurl
          exact hfirst ⟨hpackage, hservice⟩
        have hne : svc ≠ first := fun heq => hfirst ⟨by rw [heq], by rw [heq]⟩
        rw [router_cons_failed hother]
        apply ih (List.mem_of_ne_of_mem hne hmem)
        exact fun other hmem => hinj other (List.mem_cons_of_mem first hmem)

theorem router_other {svcs : List (GeneratedService σ)} {url : Bytes}
    (hurl : ∀ svc ∈ svcs, ∀ method ∈ svc.methods, svc.url method ≠ url) (ops : Ops σ) :
    router (svcs.map GeneratedService.route) url ops = (notFound url, ops) := by
  induction svcs with
  | nil => rfl
  | cons first svcs ih =>
      have hfirst := GeneratedService.route_other (hurl first List.mem_cons_self) ops
      rw [List.map_cons, router_cons_failed hfirst]
      exact ih fun svc hmem => hurl svc (List.mem_cons_of_mem first hmem)

end Service

namespace ServiceDescriptor

-- What the generated class of a service is to the router.
def generated (service : ServiceDescriptor) : GeneratedService Bytes where
  package := service.package
  service := service.name
  methods := service.methods.map fun method =>
    ⟨method.name, method.inputType.bytes, method.outputType.bytes⟩

variable {service : ServiceDescriptor}

-- A member is found by its name, in a class whose members are all named alike.
theorem resolve_member {word : Bytes} {members : List Member} {method : Ident}
    (hnames : ∀ member ∈ members, member.name = word ++ member.method.bytes)
    (hmethod : ∃ member ∈ members, member.method = method) (proto : Bytes) :
    resolve service members (word ++ method.bytes) proto =
      some ⟨service.package, service.name, method, proto⟩ := by
  unfold resolve
  cases hfind : members.find? (fun member => member.name == word ++ method.bytes) with
  | none =>
      obtain ⟨member, hmem, rfl⟩ := hmethod
      rw [List.find?_eq_none] at hfind
      exact absurd (hnames member hmem) (by simpa using hfind member hmem)
  | some member =>
      have hname : member.name = word ++ method.bytes := by simpa using List.find?_some hfind
      rw [hnames member (List.mem_of_find?_eq_some hfind), List.append_cancel_left_eq] at hname
      obtain rfl : member.method = method := by
        cases hm : member.method
        cases method
        simpa [hm] using hname
      rfl

theorem resolve_begin (hunary : service.unary) {method : MethodDescriptor}
    (hmethod : method ∈ service.methods) (proto : Bytes) :
    resolve service (beginMembers service) (expand (vars service method) (lit "Begin$Method$"))
        proto = some ⟨service.package, service.name, method.name, proto⟩ := by
  rw [expand_begin]
  apply resolve_member
  · intro member hmem
    obtain ⟨other, -, rfl⟩ := List.mem_map.mp hmem
    exact expand_begin service other
  · exact ⟨_, List.mem_map_of_mem (List.mem_filter.mpr ⟨hmethod, hunary method hmethod⟩), rfl⟩

theorem resolve_end (hunary : service.unary) {method : MethodDescriptor}
    (hmethod : method ∈ service.methods) (proto : Bytes) :
    resolve service (endMembers service) (expand (vars service method) (lit "End$Method$"))
        proto = some ⟨service.package, service.name, method.name, proto⟩ := by
  rw [expand_end]
  apply resolve_member
  · intro member hmem
    obtain ⟨other, -, rfl⟩ := List.mem_map.mp hmem
    exact expand_end service other
  · exact ⟨_, List.mem_map_of_mem (List.mem_filter.mpr ⟨hmethod, hunary method hmethod⟩), rfl⟩

-- The generated Route compares the url with that of each method and binds the
-- two operations of the method.
theorem route_eq (hunary : service.unary) : service.route = service.generated.route := by
  funext url ops
  unfold route GeneratedService.route
  simp only [printCCService, generated, GeneratedService.url, List.find?_map, Function.comp_def,
    expand_url]
  cases hfind : service.methods.find? (fun method =>
      url == methodUrl service.package service.name method.name) with
  | none => rfl
  | some method =>
      have hmethod := List.mem_of_find?_eq_some hfind
      simp only [Option.map_some, resolve_begin hunary hmethod, resolve_end hunary hmethod,
        expand_request, expand_response]
      rfl

-- A service is known by its full name.
theorem eq_of_fullName {svcs : List ServiceDescriptor}
    (hnames : (svcs.map fullName).Nodup) {other : ServiceDescriptor} (hmem : service ∈ svcs)
    (hother : other ∈ svcs) (hpackage : other.package = service.package)
    (hname : other.name = service.name) : other = service := by
  apply List.inj_on_of_nodup_map hnames hother hmem
  rw [fullName, fullName, hpackage, hname]

theorem generated_nodup (service : ServiceDescriptor) :
    (service.generated.methods.map GeneratedMethod.name).Nodup := by
  have hmap : service.generated.methods.map GeneratedMethod.name =
      service.methods.map MethodDescriptor.name := by
    simp [generated, Function.comp_def]
  rw [hmap]
  exact service.nodup

theorem map_route_eq {svcs : List ServiceDescriptor} (hunary : ∀ service ∈ svcs, service.unary) :
    svcs.map route = (svcs.map generated).map GeneratedService.route := by
  rw [List.map_map]
  exact List.map_congr_left fun service hmem => route_eq (hunary service hmem)

-- What Route binds for a method.
def ops (service : ServiceDescriptor) (method : MethodDescriptor) : Ops Bytes :=
  ⟨some ⟨service.package, service.name, method.name, method.inputType.bytes⟩,
    some ⟨service.package, service.name, method.name, method.outputType.bytes⟩⟩

-- The url that a generated client begins a method with.
def ClientUrl (service : ServiceDescriptor) (method : MethodDescriptor) (url : Bytes) : Prop :=
  ∃ call, printCCClientMethod service method = some call ∧ call.url = url

theorem clientUrl_iff {method : MethodDescriptor} (hunary : method.noStreaming = true)
    {url : Bytes} : service.ClientUrl method url ↔
      methodUrl service.package service.name method.name = url := by
  simp [ClientUrl, printCCClientMethod, hunary, expand_url]

-- The generated client begins the methods with the literals of the generated
-- Route, in the same order.
theorem printCCClientService_urls (hunary : service.unary) :
    (printCCClientService service).map ClientBegin.url =
      (printCCService service).map RouteBranch.url := by
  have hcalls : printCCClientService service = service.methods.map fun method =>
      ⟨expand (vars service method) (lit "Begin$Method$"),
        expand (vars service method) (lit "/$Package$$Service$/$Method$")⟩ := by
    rw [printCCClientService, ← List.filterMap_eq_map]
    apply List.filterMap_congr
    intro method hmethod
    simp only [printCCClientMethod, hunary method hmethod, if_true, Function.comp_apply]
  rw [hcalls, printCCService, List.map_map, List.map_map]
  rfl

end ServiceDescriptor

open ServiceDescriptor in
-- The two templates agree. What a client begins a method with is routed to this
-- method, in any order of the services, and nothing else is routed.
theorem router_routes_client_urls {svcs : List ServiceDescriptor}
    (hnames : (svcs.map fullName).Nodup) (hunary : ∀ service ∈ svcs, service.unary) :
    (∀ service ∈ svcs, ∀ method ∈ service.methods, ∃ url, service.ClientUrl method url ∧
      ∀ before, router (svcs.map route) url before = (.ok, service.ops method)) ∧
    ∀ url, (∀ service ∈ svcs, ∀ method ∈ service.methods, ¬service.ClientUrl method url) →
      ∀ before, router (svcs.map route) url before = (notFound url, before) := by
  rw [map_route_eq hunary]
  refine ⟨?_, ?_⟩
  · intro service hmem method hmethod
    refine ⟨_, (clientUrl_iff (hunary service hmem method hmethod)).mpr rfl, ?_⟩
    intro before
    have hgenerated := List.mem_map_of_mem (f := generated) hmem
    apply router_url hgenerated ?_ (generated_nodup service) (List.mem_map_of_mem hmethod)
    intro other hother hpackage hname
    obtain ⟨descriptor, hdescriptor, rfl⟩ := List.mem_map.mp hother
    rw [eq_of_fullName hnames hmem hdescriptor hpackage hname]
  · intro url hurl before
    apply router_other
    intro other hother generatedMethod hgenerated heq
    obtain ⟨service, hmem, rfl⟩ := List.mem_map.mp hother
    obtain ⟨method, hmethod, rfl⟩ := List.mem_map.mp hgenerated
    exact hurl service hmem method hmethod
      ((clientUrl_iff (hunary service hmem method hmethod)).mpr heq)

-- Two services of one name, in no package and in a package of two parts, whose
-- methods have one name too.
theorem router_routes_client_urls_two :
    ∃ greeter other : ServiceDescriptor, greeter.name = other.name ∧
      greeter.methods = other.methods ∧
      (∀ method ∈ greeter.methods, ∃ url, greeter.ClientUrl method url ∧ url = lit "/Greeter/Say" ∧
        ∀ before, router [other.route, greeter.route] url before = (.ok, greeter.ops method)) ∧
      ∀ before, router [other.route, greeter.route] (lit "/a.Greeter/Say") before =
        (notFound (lit "/a.Greeter/Say"), before) := by
  let say : MethodDescriptor := ⟨⟨lit "Say", by decide⟩, ⟨lit "Ask", by decide⟩,
    ⟨lit "Answer", by decide⟩, false, false⟩
  let greeter : ServiceDescriptor := ⟨[], ⟨lit "Greeter", by decide⟩, [say], by decide⟩
  let other : ServiceDescriptor :=
    ⟨[⟨lit "a", by decide⟩, ⟨lit "b", by decide⟩], ⟨lit "Greeter", by decide⟩, [say], by decide⟩
  have hnames : ([other, greeter].map ServiceDescriptor.fullName).Nodup := by decide
  have hunary : ∀ service ∈ [other, greeter], service.unary := by
    simp [other, greeter, say, ServiceDescriptor.unary, MethodDescriptor.noStreaming]
  obtain ⟨hfound, hnone⟩ := router_routes_client_urls hnames hunary
  refine ⟨greeter, other, rfl, rfl, ?_, ?_⟩
  · intro method hmethod
    obtain ⟨url, hurl, hroute⟩ := hfound greeter (by simp) method hmethod
    obtain rfl : method = say := by simpa [greeter] using hmethod
    rw [ServiceDescriptor.clientUrl_iff rfl] at hurl
    obtain rfl : url = lit "/Greeter/Say" := hurl.symm.trans (by decide)
    exact ⟨_, (ServiceDescriptor.clientUrl_iff rfl).mpr (by decide), rfl, hroute⟩
  · apply hnone
    intro service hservice method hmethod hurl
    have hsay : method = say := by
      rcases List.mem_pair.mp hservice with rfl | rfl
      · simpa [other] using hmethod
      · simpa [greeter] using hmethod
    subst hsay
    rw [ServiceDescriptor.clientUrl_iff rfl] at hurl
    rcases List.mem_pair.mp hservice with rfl | rfl
    · exact absurd hurl (by decide)
    · exact absurd hurl (by decide)

end FabricRpc.V1
