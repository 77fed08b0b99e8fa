import FabricRpc.Descriptor
import FabricRpc.V1.Status

namespace FabricRpc.V1

open Lib

-- An operation of a user's service, with the message type it reads or writes.
structure Operation (σ : Type*) where
  package : Package
  service : Ident
  method : Ident
  proto : σ
  deriving DecidableEq

-- The unique_ptrs that Route fills.
structure Ops (σ : Type*) where
  beginOp : Option (Operation σ)
  endOp : Option (Operation σ)
  deriving DecidableEq

-- MiddleWare, by its Route.
abbrev MiddleWare (σ : Type*) := Bytes → Ops σ → Status × Ops σ

structure GeneratedMethod (σ : Type*) where
  name : Ident
  request : σ
  response : σ

structure GeneratedService (σ : Type*) where
  package : Package
  service : Ident
  methods : List (GeneratedMethod σ)

variable {σ : Type*}

def notFound (url : Bytes) : Status :=
  .make StatusCode.NOT_FOUND (lit "method not found: " ++ url)

namespace GeneratedService

def url (svc : GeneratedService σ) (method : GeneratedMethod σ) : Bytes :=
  methodUrl svc.package svc.service method.name

def bind (svc : GeneratedService σ) (method : GeneratedMethod σ) : Ops σ :=
  ⟨some ⟨svc.package, svc.service, method.name, method.request⟩,
    some ⟨svc.package, svc.service, method.name, method.response⟩⟩

-- The chain of comparisons that the generator writes.
def route (svc : GeneratedService σ) : MiddleWare σ := fun url ops =>
  match svc.methods.find? (fun method => url == svc.url method) with
  | some method => (.ok, svc.bind method)
  | none => (notFound url, ops)

end GeneratedService

-- FRPCRouter
def routeAll (url : Bytes) : List (MiddleWare σ) → Ops σ → Status × Ops σ
  | [], ops => (notFound url, ops)
  | svc :: svcList, ops =>
      let (ec, ops) := svc url ops
      if !ec.failed then (.ok, ops) else routeAll url svcList ops

def router (svcList : List (MiddleWare σ)) : MiddleWare σ := fun url ops =>
  routeAll url svcList ops

-- A successful Route leaves both operations.
def MiddleWare.Binds (route : MiddleWare σ) : Prop :=
  ∀ url ops ec bound, route url ops = (ec, bound) → ec.failed = false →
    bound.beginOp.isSome ∧ bound.endOp.isSome

-- A generated service binds the method whose url it is given.
theorem GeneratedService.route_ok {svc : GeneratedService σ} {url : Bytes} {ops bound : Ops σ}
    {code : Status} (h : svc.route url ops = (code, bound)) (hcode : code.failed = false) :
    ∃ method ∈ svc.methods, url = svc.url method ∧ bound = svc.bind method := by
  unfold GeneratedService.route at h
  split at h
  · rename_i method hfind
    obtain ⟨-, rfl⟩ := Prod.mk.inj h
    exact ⟨method, List.mem_of_find?_eq_some hfind, by simpa using List.find?_some hfind, rfl⟩
  · obtain ⟨rfl, -⟩ := Prod.mk.inj h
    simp [notFound, StatusCode.NOT_FOUND, StatusCode.OK] at hcode

theorem GeneratedService.route_binds (svc : GeneratedService σ) :
    MiddleWare.Binds svc.route := by
  intro url ops ec bound h hec
  obtain ⟨method, -, -, rfl⟩ := GeneratedService.route_ok h hec
  exact ⟨rfl, rfl⟩

-- All that the router can return: what a service has bound, or that none did.
theorem router_cases {svcList : List (MiddleWare σ)} {url : Bytes} {ops bound : Ops σ}
    {ec : Status} (h : router svcList url ops = (ec, bound)) :
    (ec = .ok ∧ ∃ svc ∈ svcList, ∃ before code, svc url before = (code, bound) ∧
      code.failed = false) ∨ ec = notFound url := by
  unfold router at h
  induction svcList generalizing ops with
  | nil => exact .inr (Prod.mk.inj h).1.symm
  | cons svc svcList ih =>
      obtain ⟨code, filled, hsvc⟩ : ∃ code filled, svc url ops = (code, filled) := ⟨_, _, rfl⟩
      cases hcode : code.failed with
      | true =>
          simp only [routeAll, hsvc, hcode, Bool.not_true, Bool.false_eq_true, if_false] at h
          rcases ih h with ⟨hec, other, hother, hfound⟩ | hec
          · exact .inl ⟨hec, other, List.mem_cons_of_mem svc hother, hfound⟩
          · exact .inr hec
      | false =>
          simp only [routeAll, hsvc, hcode, Bool.not_false, if_true] at h
          obtain ⟨rfl, rfl⟩ := Prod.mk.inj h
          exact .inl ⟨rfl, svc, List.mem_cons_self, ops, code, hsvc, hcode⟩

theorem failed_notFound (url : Bytes) : (notFound url).failed = true := rfl

theorem router_binds {svcList : List (MiddleWare σ)} (h : ∀ svc ∈ svcList, svc.Binds) :
    MiddleWare.Binds (router svcList) := by
  intro url ops ec bound hroute hec
  rcases router_cases hroute with ⟨-, svc, hsvc, before, code, hfound, hcode⟩ | rfl
  · exact h svc hsvc url before code bound hfound hcode
  · exact absurd hec (by simp [failed_notFound])

-- A url that is routed is that of a method.
theorem router_ok {svcs : List (GeneratedService σ)} {url : Bytes} {ops bound : Ops σ}
    {ec : Status} (h : router (svcs.map GeneratedService.route) url ops = (ec, bound))
    (hec : ec.failed = false) :
    ∃ svc ∈ svcs, ∃ method ∈ svc.methods, url = svc.url method ∧ bound = svc.bind method := by
  rcases router_cases h with ⟨-, route, hroute, before, code, hfound, hcode⟩ | rfl
  · obtain ⟨svc, hsvc, rfl⟩ := List.mem_map.mp hroute
    obtain ⟨method, hmethod, hurl, hbound⟩ := GeneratedService.route_ok hfound hcode
    exact ⟨svc, hsvc, method, hmethod, hurl, hbound⟩
  · exact absurd hec (by simp [failed_notFound])

end FabricRpc.V1
