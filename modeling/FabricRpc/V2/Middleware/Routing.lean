import FabricRpc.Protobuf.Proto3
import FabricRpc.V2.Middleware
import Mathlib.Data.List.Nodup
import Mathlib.Data.List.Perm.Basic

namespace FabricRpc.V2

open Lib AbslStatus

variable {σ : Type*} {Msg : σ → Type*} {κ : Type*}

abbrev slash : UInt8 := 0x2F

-- Routing as it is meant: by the service with exactly this name.
def routeByName (name url payload : Bytes) (svcs : List (Service κ)) :
    Dispatch κ (AbslStatus × Bytes) :=
  match svcs.find? (fun svc => svc.name == name) with
  | some svc =>
      let execution := svc.execute url payload
      ⟨[svc.name], execution.handled, execution.result⟩
  | none => ⟨[], [], .ok (unimplementedError (lit "url not found"), [])⟩

-- The middleware calls the named service and no other, or none if there is none,
-- and replies with what comes of it.
def RoutesExactly (pb : Protobuf σ Msg) (req : Option TransportMessage) (name url : Bytes)
    (svcs : List (Service κ)) : Prop :=
  execute pb svcs req = replyTo pb (routeByName name url (getBody req) svcs)

-- A service whose name is the beginning of another one stands before it.
def Shadowed (name : Bytes) (svcs : List (Service κ)) : Prop :=
  ∃ before svc after, svcs = before ++ svc :: after ∧ (∀ other ∈ before, other.name ≠ name) ∧
    svc.name <+: name ∧ svc.name ≠ name

-- The first part of a url ends at the next slash.
theorem prefix_of_route {name service rest : Bytes} (hname : slash ∉ name) :
    name <+: service ++ slash :: rest ↔ name <+: service := by
  constructor
  · intro h
    have hservice : service <+: service ++ slash :: rest := List.prefix_append _ _
    rcases Nat.le_total name.length service.length with hle | hle
    · exact List.prefix_of_prefix_length_le h hservice hle
    · obtain ⟨tail, rfl⟩ := List.prefix_of_prefix_length_le hservice h hle
      rw [List.prefix_append_right_inj] at h
      cases tail with
      | nil => simp
      | cons b tail =>
          obtain ⟨rfl, -⟩ := List.cons_prefix_cons.mp h
          exact absurd (by simp) hname
  · exact fun h => h.trans (List.prefix_append _ _)

section Loop

variable {name rest payload : Bytes}

theorem dispatch_cons (url payload : Bytes) (svc : Service κ) (svcs : List (Service κ)) :
    dispatch url payload (svc :: svcs) =
      if svc.name <+: url.drop 1 then
        ⟨[svc.name], (svc.execute url payload).handled, (svc.execute url payload).result⟩
      else dispatch url payload svcs := by
  by_cases h : svc.name <+: url.drop 1
  · have hb : svc.name.isPrefixOf (url.drop 1) = true := List.isPrefixOf_iff_prefix.mpr h
    simp only [dispatch, hb, h, Bool.not_true, Bool.false_eq_true, if_false, if_true]
  · have hb : svc.name.isPrefixOf (url.drop 1) = false := by
      rw [← Bool.not_eq_true, List.isPrefixOf_iff_prefix]
      exact h
    simp only [dispatch, hb, h, Bool.not_false, if_false, if_true]

theorem routeByName_cons (url payload : Bytes) (svc : Service κ) (svcs : List (Service κ)) :
    routeByName name url payload (svc :: svcs) =
      if svc.name = name then
        ⟨[svc.name], (svc.execute url payload).handled, (svc.execute url payload).result⟩
      else routeByName name url payload svcs := by
  by_cases h : svc.name = name
  · simp [routeByName, h]
  · simp [routeByName, h]

-- A service that is called by name has that name.
theorem routeByName_called (url payload : Bytes) (svcs : List (Service κ)) :
    ∀ called ∈ (routeByName name url payload svcs).called, called = name := by
  intro called hcalled
  unfold routeByName at hcalled
  split at hcalled
  · rename_i svc hfind
    obtain rfl := List.mem_singleton.mp hcalled
    simpa using List.find?_some hfind
  · simp at hcalled

theorem shadowed_cons (svc : Service κ) (svcs : List (Service κ)) :
    Shadowed name (svc :: svcs) ↔
      (svc.name <+: name ∧ svc.name ≠ name) ∨ (svc.name ≠ name ∧ Shadowed name svcs) := by
  constructor
  · rintro ⟨before, other, after, heq, hbefore, hother⟩
    cases before with
    | nil =>
        obtain ⟨rfl, rfl⟩ := List.cons.inj heq
        exact .inl hother
    | cons first before =>
        obtain ⟨rfl, rfl⟩ := List.cons.inj heq
        exact .inr ⟨hbefore svc List.mem_cons_self, before, other, after, rfl,
          fun x hx => hbefore x (List.mem_cons_of_mem _ hx), hother⟩
  · rintro (hsvc | ⟨hne, before, other, after, rfl, hbefore, hother⟩)
    · exact ⟨[], svc, svcs, rfl, by simp, hsvc⟩
    · refine ⟨svc :: before, other, after, rfl, ?_, hother⟩
      intro x hx
      rcases List.mem_cons.mp hx with rfl | hx
      · exact hne
      · exact hbefore x hx

-- The loop stops at the first service whose name begins the route. That is the
-- named service unless another one shadows it.
theorem dispatch_of_not_shadowed (svcs : List (Service κ))
    (hslash : ∀ svc ∈ svcs, slash ∉ svc.name) (h : ¬Shadowed name svcs) :
    dispatch (slash :: name ++ slash :: rest) payload svcs =
      routeByName name (slash :: name ++ slash :: rest) payload svcs := by
  induction svcs with
  | nil => rfl
  | cons svc svcs ih =>
      have hroute : svc.name <+: (slash :: name ++ slash :: rest).drop 1 ↔ svc.name <+: name := by
        simpa using prefix_of_route (hslash svc List.mem_cons_self)
      rw [shadowed_cons] at h
      rw [dispatch_cons, routeByName_cons]
      by_cases hname : svc.name = name
      · simp [hname]
      · have hstarts : ¬svc.name <+: name := fun hstarts => h (.inl ⟨hstarts, hname⟩)
        have hrest : ¬Shadowed name svcs := fun hrest => h (.inr ⟨hname, hrest⟩)
        simp only [hroute, hstarts, hname, if_false]
        exact ih (fun other hother => hslash other (List.mem_cons_of_mem _ hother)) hrest

-- Otherwise it stops at a service of another name.
theorem dispatch_of_shadowed (svcs : List (Service κ))
    (hslash : ∀ svc ∈ svcs, slash ∉ svc.name) (h : Shadowed name svcs) :
    ∃ called ∈ (dispatch (slash :: name ++ slash :: rest) payload svcs).called, called ≠ name := by
  induction svcs with
  | nil =>
      obtain ⟨before, svc, after, heq, -⟩ := h
      simp at heq
  | cons svc svcs ih =>
      have hroute : svc.name <+: (slash :: name ++ slash :: rest).drop 1 ↔ svc.name <+: name := by
        simpa using prefix_of_route (hslash svc List.mem_cons_self)
      rw [shadowed_cons] at h
      rw [dispatch_cons]
      have hname : svc.name ≠ name := by
        rcases h with ⟨-, hname⟩ | ⟨hname, -⟩
        · exact hname
        · exact hname
      by_cases hstarts : svc.name <+: name
      · simp only [hroute, hstarts, if_true]
        exact ⟨svc.name, List.mem_singleton_self _, hname⟩
      · have hrest : Shadowed name svcs := by
          rcases h with ⟨hpre, -⟩ | ⟨-, hrest⟩
          · exact absurd hpre hstarts
          · exact hrest
        simp only [hroute, hstarts, if_false]
        exact ih (fun other hother => hslash other (List.mem_cons_of_mem _ hother)) hrest

end Loop

section Execute

variable {pb : Protobuf σ Msg} {req : Option TransportMessage} {name rest : Bytes}

theorem execute_of_url (svcs : List (Service κ))
    (hreq : parseRequestHeader pb (getHeader req) =
      (okStatus, slash :: name ++ slash :: rest)) :
    execute pb svcs req =
      replyTo pb (dispatch (slash :: name ++ slash :: rest) (getBody req) svcs) := by
  have hstart : (lit "/").isPrefixOf (slash :: name ++ slash :: rest) = true := rfl
  rw [execute, executeInner_of_url hreq ok_okStatus hstart]

theorem routes_exactly_iff (svcs : List (Service κ))
    (hreq : parseRequestHeader pb (getHeader req) = (okStatus, slash :: name ++ slash :: rest))
    (hslash : ∀ svc ∈ svcs, slash ∉ svc.name) :
    RoutesExactly pb req name (slash :: name ++ slash :: rest) svcs ↔ ¬Shadowed name svcs := by
  rw [RoutesExactly, execute_of_url svcs hreq]
  constructor
  · intro heq h
    obtain ⟨called, hcalled, hne⟩ := dispatch_of_shadowed svcs hslash h
    have hsame := congrArg Dispatch.called heq
    simp only [replyTo] at hsame
    rw [hsame] at hcalled
    exact hne (routeByName_called _ _ svcs called hcalled)
  · intro h
    rw [dispatch_of_not_shadowed svcs hslash h]

-- Routing by name does not depend on the order of the services.
theorem routeByName_perm {svcs order : List (Service κ)} (hperm : order.Perm svcs)
    (hnodup : (svcs.map Service.name).Nodup) (url payload : Bytes) :
    routeByName name url payload order = routeByName name url payload svcs := by
  have hfind : order.find? (fun svc => svc.name == name) =
      svcs.find? (fun svc => svc.name == name) := by
    cases hfound : svcs.find? (fun svc => svc.name == name) with
    | none =>
        rw [List.find?_eq_none] at hfound ⊢
        exact fun svc hsvc => hfound svc (hperm.mem_iff.mp hsvc)
    | some svc =>
        have hmem := List.mem_of_find?_eq_some hfound
        have hname : svc.name = name := by simpa using List.find?_some hfound
        cases hother : order.find? (fun svc => svc.name == name) with
        | none =>
            rw [List.find?_eq_none] at hother
            exact absurd hname (by simpa using hother svc (hperm.mem_iff.mpr hmem))
        | some other =>
            have hothername : other.name = name := by simpa using List.find?_some hother
            have hothermem := hperm.mem_iff.mp (List.mem_of_find?_eq_some hother)
            rw [List.inj_on_of_nodup_map hnodup hothermem hmem (hothername.trans hname.symm)]
  simp only [routeByName, hfind]

-- The middleware routes by exact name if and only if no service shadows the
-- named one, and in all orders of registration if and only if no other name is
-- the beginning of it. Then the reply does not depend on the order either.
theorem middleware_routes_exactly_iff (svcs : List (Service κ))
    (hreq : parseRequestHeader pb (getHeader req) = (okStatus, slash :: name ++ slash :: rest))
    (hslash : ∀ svc ∈ svcs, slash ∉ svc.name) (hnodup : (svcs.map Service.name).Nodup) :
    (RoutesExactly pb req name (slash :: name ++ slash :: rest) svcs ↔ ¬Shadowed name svcs) ∧
    ((∀ order, order.Perm svcs →
        RoutesExactly pb req name (slash :: name ++ slash :: rest) order) ↔
      ∀ svc ∈ svcs, svc.name <+: name → svc.name = name) ∧
    ((∀ svc ∈ svcs, svc.name <+: name → svc.name = name) →
      ∀ order, order.Perm svcs → execute pb order req = execute pb svcs req) := by
  have horder (order : List (Service κ)) (hperm : order.Perm svcs) :
      ∀ svc ∈ order, slash ∉ svc.name := fun svc hsvc => hslash svc (hperm.mem_iff.mp hsvc)
  have hexact (h : ∀ svc ∈ svcs, svc.name <+: name → svc.name = name)
      (order : List (Service κ)) (hperm : order.Perm svcs) :
      RoutesExactly pb req name (slash :: name ++ slash :: rest) order := by
    rw [routes_exactly_iff order hreq (horder order hperm)]
    rintro ⟨before, svc, after, rfl, -, hstarts, hne⟩
    exact hne (h svc (hperm.mem_iff.mp (by simp)) hstarts)
  refine ⟨routes_exactly_iff svcs hreq hslash, ⟨?_, hexact⟩, ?_⟩
  · intro h svc hsvc hstarts
    by_contra hne
    obtain ⟨before, after, rfl⟩ := List.append_of_mem hsvc
    have hperm : (svc :: (before ++ after)).Perm (before ++ svc :: after) :=
      List.perm_middle.symm
    have hfirst := (routes_exactly_iff _ hreq (horder _ hperm)).mp (h _ hperm)
    exact hfirst ⟨[], svc, before ++ after, rfl, by simp, hstarts, hne⟩
  · intro h order hperm
    have hleft := hexact h order hperm
    have hright := hexact h svcs (List.Perm.refl _)
    rw [RoutesExactly] at hleft hright
    rw [hleft, hright, routeByName_perm hperm hnodup]

end Execute

-- A service that answers with its own name.
def namedService (name : String) : Service Unit :=
  ⟨lit name, fun _ _ => ⟨[], .ok (okStatus, lit name)⟩⟩

def requestTo (url : String) : Option TransportMessage :=
  some (toolTransportMsg [] (stringProtobuf.requestHeader.serializeAsString ⟨lit url⟩))

theorem middleware_routes_exactly_two :
    RoutesExactly stringProtobuf (requestTo "/pkg.Foo/M") (lit "pkg.Foo") (lit "/pkg.Foo/M")
        [namedService "pkg.Foo", namedService "pkg.Bar"] ↔
      ¬Shadowed (lit "pkg.Foo") [namedService "pkg.Foo", namedService "pkg.Bar"] := by
  have hreq : parseRequestHeader stringProtobuf (getHeader (requestTo "/pkg.Foo/M")) =
      (okStatus, slash :: lit "pkg.Foo" ++ slash :: lit "M") := by decide
  exact (middleware_routes_exactly_iff [namedService "pkg.Foo", namedService "pkg.Bar"] hreq
    (by decide) (by decide)).1

-- With pkg.Foo registered before pkg.FooBar, a request to pkg.FooBar is answered
-- by pkg.Foo. In the other order it is answered by pkg.FooBar.
theorem middleware_routes_to_shadowing_service :
    (execute stringProtobuf [namedService "pkg.Foo", namedService "pkg.FooBar"]
      (requestTo "/pkg.FooBar/M")).called = [lit "pkg.Foo"] ∧
    (execute stringProtobuf [namedService "pkg.FooBar", namedService "pkg.Foo"]
      (requestTo "/pkg.FooBar/M")).called = [lit "pkg.FooBar"] ∧
    ¬RoutesExactly stringProtobuf (requestTo "/pkg.FooBar/M") (lit "pkg.FooBar")
      (lit "/pkg.FooBar/M") [namedService "pkg.Foo", namedService "pkg.FooBar"] := by
  have hfirst : (execute stringProtobuf [namedService "pkg.Foo", namedService "pkg.FooBar"]
      (requestTo "/pkg.FooBar/M")).called = [lit "pkg.Foo"] := by decide
  refine ⟨hfirst, by decide, ?_⟩
  intro h
  have hcalled := congrArg Dispatch.called h
  rw [hfirst] at hcalled
  exact absurd hcalled (by decide)

end FabricRpc.V2
