import FabricRpc.V2.ExServer
import FabricRpc.V2.Middleware.Routing
import FabricRpc.V2.Server.Numbers

namespace FabricRpc.V2

open Lib (Bytes lit)

section Middleware

variable {σ : Type*} {Msg : σ → Type*} {κ : Type*}

-- The header of the request parses, its url begins with a slash, and the first
-- service whose name the route begins with throws on it.
def Throws (pb : Protobuf σ Msg) (svcs : List (Service κ)) (req : Option TransportMessage) : Prop :=
  let (st, url) := parseRequestHeader pb (getHeader req)
  st.ok = true ∧ (lit "/").isPrefixOf url = true ∧
    ∃ svc exn, svcs.find? (fun svc => svc.name.isPrefixOf (url.drop 1)) = some svc ∧
      (svc.execute url (getBody req)).result = .error exn

-- The middleware lets exactly the exceptions of services through.
theorem execute_error_iff (pb : Protobuf σ Msg) (svcs : List (Service κ))
    (req : Option TransportMessage) :
    (∃ exn, (execute pb svcs req).result = .error exn) ↔ Throws pb svcs req := by
  have hmap : (∃ exn, (execute pb svcs req).result = .error exn) ↔
      ∃ exn, (executeInner pb svcs req).result = .error exn := by
    rw [execute, replyTo]
    cases (executeInner pb svcs req).result <;> simp [Except.map]
  rw [hmap, Throws]
  obtain ⟨st, url, hreq⟩ : ∃ st url, parseRequestHeader pb (getHeader req) = (st, url) :=
    ⟨_, _, rfl⟩
  simp only [hreq]
  by_cases hgood : st.ok = true ∧ (lit "/").isPrefixOf url = true
  · rw [executeInner_of_url hreq hgood.1 hgood.2]
    cases hfind : svcs.find? (fun svc => svc.name.isPrefixOf (url.drop 1)) with
    | none => simp [dispatch_of_find_none hfind]
    | some svc => simp [dispatch_of_find hfind, hgood]
  · obtain ⟨err, -, hbad⟩ := executeInner_of_bad_url svcs hreq hgood
    rw [hbad]
    constructor
    · rintro ⟨exn, hexn⟩
      exact absurd hexn (by simp)
    · rintro ⟨hst, hstart, -⟩
      exact absurd ⟨hst, hstart⟩ hgood

end Middleware

namespace Server

variable {ι μ ψ : Type*} [DecidableEq ι] {s s' : Server ι μ ψ} {label : ServerLabel ι μ ψ}

-- What a step other than a completion does to the contexts: it may make a new
-- one, or complete one that belongs to no request.
structure Appends (s s' : Server ι μ ψ) : Prop where
  contexts : ∃ more, s'.contexts = s.contexts ++ more ∧ ∀ ctx ∈ more, ctx = .new ctx.callback
  fired : ∃ more, s'.fired = s.fired ++ more ∧ ∀ x ∈ more, ∀ n, x.2 ≠ ContextRef.request n

omit [DecidableEq ι] in
theorem Appends.of_same (hcontexts : s'.contexts = s.contexts) (hfired : s'.fired = s.fired) :
    Appends s s' where
  contexts := ⟨[], by simp [hcontexts], by simp⟩
  fired := ⟨[], by simp [hfired], by simp⟩

theorem exec_appends (hx : s.exec label = .ok s')
    (hlabel : ∀ req hr reply, label ≠ .complete req hr reply) : Appends s s' := by
  cases label with
  | processConnect clientId callback =>
      obtain rfl := Except.ok.inj hx
      exact ⟨⟨[], by simp [beginProcessConnect, addConn, completeImmediately], by simp⟩,
        ⟨_, rfl, by simp⟩⟩
  | processDisconnect clientId callback =>
      obtain ⟨entry, -, rfl⟩ := disconnect_ok hx
      exact ⟨⟨[], by simp [completeImmediately], by simp⟩, ⟨_, rfl, by simp⟩⟩
  | processRequest clientId message callback =>
      obtain ⟨entry, -, rfl⟩ := request_ok hx
      exact ⟨⟨_, rfl, by simp [AnyContext.new]⟩, ⟨[], by simp, by simp⟩⟩
  | acceptConn step =>
      obtain ⟨lobby, net, accepted, rfl⟩ := acceptConn_rest hx
      exact .of_same rfl rfl
  | accept c step =>
      obtain ⟨net, -, rfl⟩ := accept_ok hx
      exact .of_same rfl rfl
  | complete req hr reply => exact absurd rfl (hlabel req hr reply)

theorem exec_handed (hx : s.exec label = .ok s') :
    ∃ more, s'.net.handed = s.net.handed ++ more ∧
      ∀ c i error, label = .accept c (.complete i error) →
        more = [(c, ⟨error, (s.net.ports c).holder⟩)] := by
  rcases exec_net hx with ⟨hnone, hsame⟩ | ⟨l, hl, hstep⟩
  · refine ⟨[], by simp [hsame], ?_⟩
    rintro c i error rfl
    simp [netLabel] at hnone
  · by_cases hcomplete : ∃ c i error, l = .complete c i error
    · obtain ⟨c, i, error, rfl⟩ := hcomplete
      have hexec : AcceptNet.complete .request s.net c i error = .ok s'.net := hstep
      obtain ⟨rest, hnet⟩ := AcceptNet.complete_ok hexec
      refine ⟨[(c, ⟨error, (s.net.ports c).holder⟩)], by rw [hnet]; rfl, ?_⟩
      rintro d j failed rfl
      obtain ⟨rfl, rfl, rfl⟩ := AcceptLabel.complete.inj (Option.some.inj hl)
      rfl
    · push Not at hcomplete
      refine ⟨[], by rw [AcceptNet.exec_handed hstep hcomplete, List.append_nil], ?_⟩
      rintro c i error rfl
      exact absurd (Option.some.inj hl).symm (hcomplete c i error)

end Server

namespace ExServer

variable {ι ψ κ : Type*} {σ : Type*} {Msg : σ → Type*}

-- The request was completed once, its callback has fired once, with its context,
-- and EndProcessRequest takes the reply of the middleware to it from there.
structure Answered (pb : Protobuf σ Msg) (s : ExServer ι ψ κ)
    (req : Request ι TransportMessage ψ) (svcs : List (Service κ)) : Prop where
  completed : s.completed.filter (·.ctx = req.ctx) = [req]
  fired : s.server.fired.filter (·.2 = .request req.ctx) = [(req.callback, .request req.ctx)]
  reply : ∃ ctx reply, s.server.contexts[req.ctx]? = some ctx ∧
    Server.endProcessRequest ctx = some (sOk, some reply) ∧
    (execute pb svcs (some req.msg)).result = .ok reply

-- The coroutine has got to the completion.
def Done (pb : Protobuf σ Msg) (handler : Handler ι ψ κ) : Prop :=
  ∃ svcs reply, handler.ended = some svcs ∧
    (execute pb svcs (some handler.req.msg)).result = .ok reply

structure Untouched (s : ExServer ι ψ κ) (n : ℕ) : Prop where
  completed : s.completed.filter (·.ctx = n) = []
  fired : s.server.fired.filter (·.2 = .request n) = []
  context : ∀ ctx, s.server.contexts[n]? = some ctx → ctx = .new ctx.callback

-- The coroutines hold requests that were handed over, and a context is touched
-- by the coroutine that completes its request and by nobody else.
structure Sound [DecidableEq ι] (pb : Protobuf σ Msg) (s : ExServer ι ψ κ) : Prop where
  server : ∃ ls, (Server.machine ι TransportMessage ψ).Run Lib.Machine.anything .new ls s.server
  handlers : (s.handlers.map Handler.req).Sublist (s.server.net.handed.filterMap (·.2.item))
  quiet : ∀ n, (∀ handler ∈ s.handlers, handler.req.ctx = n → ¬Done pb handler) → s.Untouched n
  done : ∀ handler ∈ s.handlers, ∀ svcs, handler.ended = some svcs → Done pb handler →
    s.Answered pb handler.req svcs

variable [DecidableEq ι] {pb : Protobuf σ Msg} {s s' : ExServer ι ψ κ}

theorem new_sound (pb : Protobuf σ Msg) : Sound pb (new : ExServer ι ψ κ) where
  server := ⟨[], .nil⟩
  handlers := List.Sublist.refl []
  quiet := fun _ _ => ⟨rfl, rfl, by simp [new, Server.new]⟩
  done := fun _ h => absurd h List.not_mem_nil

-- Every coroutine has a request of its own,
theorem Sound.handler_inj (h : Sound pb s) {handler other : Handler ι ψ κ}
    (hhandler : handler ∈ s.handlers) (hother : other ∈ s.handlers)
    (hsame : other.req.ctx = handler.req.ctx) : other = handler := by
  obtain ⟨ls, hserver⟩ := h.server
  have hnodup := (Server.handed_nodup hserver).sublist (h.handlers.map Request.ctx)
  rw [List.map_map] at hnodup
  exact List.inj_on_of_nodup_map hnodup hother hhandler hsame

-- with a context to complete.
theorem Sound.handler_context (h : Sound pb s) {handler : Handler ι ψ κ}
    (hhandler : handler ∈ s.handlers) :
    ∃ ctx, s.server.contexts[handler.req.ctx]? = some ctx ∧
      ctx.callback = handler.req.callback := by
  obtain ⟨ls, hserver⟩ := h.server
  obtain ⟨⟨c, completion⟩, hmem, hitem⟩ :=
    List.mem_filterMap.mp (h.handlers.subset (List.mem_map_of_mem hhandler))
  obtain ⟨entry, -, hposted⟩ := Server.handed_posted hserver hmem hitem
  exact (Server.run_numbered hserver).posted entry _ hposted

theorem serve_ok {label : ServerLabel ι TransportMessage ψ} (hx : s.serve label = .ok s') :
    ∃ server, s.server.exec label = .ok server ∧
      ((s.spawned label = none ∧ s' = { s with server := server }) ∨
        ∃ req, s.spawned label = some (some req) ∧
          s' = { s with server := server, handlers := s.handlers ++ [⟨req, none⟩] }) := by
  unfold serve at hx
  split at hx
  · exact absurd hx (by simp)
  · rename_i server hserver
    refine ⟨server, hserver, ?_⟩
    split at hx
    · rename_i hnone
      exact .inl ⟨hnone, (Except.ok.inj hx).symm⟩
    · exact absurd hx (by simp)
    · rename_i req hreq
      exact .inr ⟨req, hreq, (Except.ok.inj hx).symm⟩

-- Each new coroutine has a request that is handed over in the same step.
theorem spawned_handed {label : ServerLabel ι TransportMessage ψ}
    {server : Server ι TransportMessage ψ} (hserver : s.server.exec label = .ok server)
    {req : Request ι TransportMessage ψ} (hspawned : s.spawned label = some (some req)) :
    server.net.handed.filterMap (·.2.item) =
      s.server.net.handed.filterMap (·.2.item) ++ [req] := by
  obtain ⟨more, hhanded, hmore⟩ := Server.exec_handed hserver
  unfold spawned at hspawned
  split at hspawned
  · rename_i c i
    rw [hhanded, hmore c i false rfl, List.filterMap_append, Option.some.inj hspawned]
    rfl
  · exact absurd hspawned (by simp)

theorem handlers_sublist (h : Sound pb s) {label : ServerLabel ι TransportMessage ψ}
    (hx : s.serve label = .ok s') :
    (s'.handlers.map Handler.req).Sublist (s'.server.net.handed.filterMap (·.2.item)) := by
  obtain ⟨server, hserver, ⟨-, rfl⟩ | ⟨req, hspawned, rfl⟩⟩ := serve_ok hx
  · obtain ⟨more, hhanded, -⟩ := Server.exec_handed hserver
    rw [hhanded, List.filterMap_append]
    exact h.handlers.trans (List.sublist_append_left _ _)
  · rw [spawned_handed hserver hspawned, List.map_append]
    exact h.handlers.append (List.Sublist.refl [req])

-- A coroutine that has ended was there before a step of the server.
theorem handler_of_serve {label : ServerLabel ι TransportMessage ψ} (hx : s.serve label = .ok s')
    {handler : Handler ι ψ κ} (hmem : handler ∈ s'.handlers) :
    handler ∈ s.handlers ∨ handler.ended = none := by
  obtain ⟨server, -, ⟨-, rfl⟩ | ⟨req, -, rfl⟩⟩ := serve_ok hx
  · exact .inl hmem
  · rcases List.mem_append.mp hmem with hmem | hmem
    · exact .inl hmem
    · rw [List.mem_singleton.mp hmem]
      exact .inr rfl

theorem handler_to_serve {label : ServerLabel ι TransportMessage ψ} (hx : s.serve label = .ok s')
    {handler : Handler ι ψ κ} (hmem : handler ∈ s.handlers) : handler ∈ s'.handlers := by
  obtain ⟨server, -, ⟨-, rfl⟩ | ⟨req, -, rfl⟩⟩ := serve_ok hx
  · exact hmem
  · exact List.mem_append_left _ hmem

omit [DecidableEq ι] in
theorem fired_appends {server server' : Server ι TransportMessage ψ}
    (h : Server.Appends server server') (n : ℕ) :
    server'.fired.filter (·.2 = .request n) = server.fired.filter (·.2 = .request n) := by
  obtain ⟨more, hfired, hmore⟩ := h.fired
  have hnil : more.filter (·.2 = .request n) = [] := by
    rw [List.filter_eq_nil_iff]
    intro x hx
    simpa using hmore x hx n
  rw [hfired, List.filter_append, hnil, List.append_nil]

omit [DecidableEq ι] in
theorem context_appends {server server' : Server ι TransportMessage ψ}
    (h : Server.Appends server server') {n : ℕ}
    {ctx : AnyContext ψ (ContextContent TransportMessage)}
    (hctx : server.contexts[n]? = some ctx) : server'.contexts[n]? = some ctx := by
  obtain ⟨more, hcontexts, -⟩ := h.contexts
  rw [hcontexts, List.getElem?_append_left (List.getElem?_eq_some_iff.mp hctx).1, hctx]

omit [DecidableEq ι] in
theorem new_context_appends {server server' : Server ι TransportMessage ψ}
    (h : Server.Appends server server') {n : ℕ}
    (hold : ∀ ctx, server.contexts[n]? = some ctx → ctx = .new ctx.callback)
    {ctx : AnyContext ψ (ContextContent TransportMessage)}
    (hctx : server'.contexts[n]? = some ctx) : ctx = .new ctx.callback := by
  obtain ⟨more, hcontexts, hmore⟩ := h.contexts
  rw [hcontexts] at hctx
  by_cases hn : n < server.contexts.length
  · rw [List.getElem?_append_left hn] at hctx
    exact hold ctx hctx
  · rw [List.getElem?_append_right (by omega)] at hctx
    exact hmore ctx (List.mem_of_getElem? hctx)

theorem serve_sound (h : Sound pb s) {label : ServerLabel ι TransportMessage ψ}
    (henabled : s.server.Enabled label) (hlabel : ∀ req hr reply, label ≠ .complete req hr reply)
    (hx : s.serve label = .ok s') : Sound pb s' := by
  obtain ⟨server, hserver, hcases⟩ := serve_ok hx
  have hsame : s'.server = server ∧ s'.completed = s.completed := by
    rcases hcases with ⟨-, rfl⟩ | ⟨req, -, rfl⟩ <;> exact ⟨rfl, rfl⟩
  have happends := Server.exec_appends hserver hlabel
  rw [← hsame.1] at happends
  refine ⟨?_, handlers_sublist h hx, ?_, ?_⟩
  · obtain ⟨ls, hrun⟩ := h.server
    rw [hsame.1]
    exact ⟨_, hrun.snoc trivial henabled hserver⟩
  · intro n hquiet
    have hold := h.quiet n fun handler hmem => hquiet handler (handler_to_serve hx hmem)
    refine ⟨by rw [hsame.2, hold.completed], by rw [fired_appends happends, hold.fired], ?_⟩
    exact fun ctx hctx => new_context_appends happends hold.context hctx
  · intro handler hmem svcs hended hdone
    rcases handler_of_serve hx hmem with hmem | hnone
    · have hold := h.done handler hmem svcs hended hdone
      obtain ⟨ctx, reply, hctx, hreply⟩ := hold.reply
      exact ⟨by rw [hsame.2, hold.completed], by rw [fired_appends happends, hold.fired],
        ctx, reply, context_appends happends hctx, hreply⟩
    · exact absurd (hended.symm.trans hnone) (by simp)

section Ends

variable {i : ℕ} {handler : Handler ι ψ κ}

omit [DecidableEq ι] in
theorem handler_of_set {other ended : Handler ι ψ κ}
    (hmem : other ∈ s.handlers.set i ended) : other ∈ s.handlers ∨ other = ended :=
  List.mem_or_eq_of_mem_set hmem

-- The other coroutines go on as they are.
omit [DecidableEq ι] in
theorem handler_to_set (hi : s.handlers[i]? = some handler) {other : Handler ι ψ κ}
    (hmem : other ∈ s.handlers) (hne : other ≠ handler) (ended : Handler ι ψ κ) :
    other ∈ s.handlers.set i ended := by
  obtain ⟨j, hj⟩ := List.mem_iff_getElem?.mp hmem
  have hij : i ≠ j := by
    rintro rfl
    exact hne (Option.some.inj (hj.symm.trans hi))
  exact List.mem_of_getElem? (by rw [List.getElem?_set_ne hij, hj])

omit [DecidableEq ι] in
theorem map_req_set (hi : s.handlers[i]? = some handler) (svcs : List (Service κ)) :
    (s.handlers.set i { handler with ended := some svcs }).map Handler.req =
      s.handlers.map Handler.req := by
  obtain ⟨hlt, rfl⟩ := List.getElem?_eq_some_iff.mp hi
  have hbound : i < (s.handlers.map Handler.req).length := by simpa using hlt
  have hget : s.handlers[i].req = (s.handlers.map Handler.req)[i] := by simp
  rw [List.map_set, hget]
  exact List.set_getElem_self _

omit [DecidableEq ι] in
theorem handleRequest_thrown {svcs : List (Service κ)} {exn : Exn}
    (hresult : (execute pb svcs (some handler.req.msg)).result = .error exn) :
    s.handleRequest pb i handler svcs =
      .ok { s with handlers := s.handlers.set i { handler with ended := some svcs } } := by
  simp only [handleRequest, hresult]

omit [DecidableEq ι] in
theorem handleRequest_handlers {svcs : List (Service κ)}
    (hx : s.handleRequest pb i handler svcs = .ok s') :
    s'.handlers = s.handlers.set i { handler with ended := some svcs } := by
  unfold handleRequest at hx
  split at hx
  · obtain rfl := Except.ok.inj hx
    rfl
  · split at hx
    · exact absurd hx (by simp)
    · obtain rfl := Except.ok.inj hx
      rfl

-- A coroutine that is left by an exception leaves everything else alone.
theorem thrown_sound (h : Sound pb s) (hi : s.handlers[i]? = some handler)
    (hrunning : handler.ended = none) {svcs : List (Service κ)} {exn : Exn}
    (hresult : (execute pb svcs (some handler.req.msg)).result = .error exn) :
    Sound pb { s with handlers := s.handlers.set i { handler with ended := some svcs } } where
  server := h.server
  handlers := by
    rw [map_req_set hi]
    exact h.handlers
  quiet := by
    intro n hquiet
    have hold := h.quiet n fun other hmem hother hdone => by
      by_cases hsame : other = handler
      · subst hsame
        obtain ⟨svcs', reply, hended, -⟩ := hdone
        exact absurd (hrunning.symm.trans hended) (by simp)
      · exact hquiet other (handler_to_set hi hmem hsame _) hother hdone
    exact ⟨hold.completed, hold.fired, hold.context⟩
  done := by
    intro other hmem svcs' hended hdone
    rcases handler_of_set hmem with hmem | rfl
    · have hold := h.done other hmem svcs' hended hdone
      exact ⟨hold.completed, hold.fired, hold.reply⟩
    · obtain ⟨svcs'', reply, hsvcs, hok⟩ := hdone
      obtain rfl := Option.some.inj hsvcs
      exact absurd (hresult.symm.trans hok) (by simp)

-- The first completion of a context.
omit [DecidableEq ι] in
theorem complete_new {server : Server ι TransportMessage ψ} {req : Request ι TransportMessage ψ}
    (hctx : server.contexts[req.ctx]? = some (.new req.callback)) (reply : TransportMessage) :
    server.complete req sOk (some reply) = .ok { server with
      contexts := server.contexts.set req.ctx ⟨req.callback, some ⟨sOk, some reply⟩, true⟩
      fired := server.fired ++ [(req.callback, .request req.ctx)] } := by
  simp [Server.complete, hctx, AnyContext.complete, AnyContext.setContent, AnyContext.new]

-- The context of a coroutine that has not ended is as it was made.
theorem Sound.running_untouched (h : Sound pb s) (hmem : handler ∈ s.handlers)
    (hrunning : handler.ended = none) : s.Untouched handler.req.ctx ∧
      s.server.contexts[handler.req.ctx]? = some (.new handler.req.callback) := by
  have huntouched : s.Untouched handler.req.ctx := h.quiet _ fun other hother hsame => by
    rintro ⟨svcs, reply, hended, -⟩
    rw [h.handler_inj hmem hother hsame, hrunning] at hended
    exact absurd hended (by simp)
  obtain ⟨ctx, hctx, hcallback⟩ := h.handler_context hmem
  refine ⟨huntouched, ?_⟩
  rw [hctx, huntouched.context ctx hctx, AnyContext.new, hcallback]
  rfl

theorem completed_sound (h : Sound pb s) (hi : s.handlers[i]? = some handler)
    (hrunning : handler.ended = none) {svcs : List (Service κ)} {reply : TransportMessage}
    (hresult : (execute pb svcs (some handler.req.msg)).result = .ok reply)
    {server : Server ι TransportMessage ψ}
    (hserver : s.server.complete handler.req sOk (some reply) = .ok server) :
    Sound pb ⟨server, s.handlers.set i { handler with ended := some svcs },
      s.completed ++ [handler.req]⟩ := by
  have hmem := List.mem_of_getElem? hi
  obtain ⟨huntouched, hctx⟩ := h.running_untouched hmem hrunning
  have hlt := (List.getElem?_eq_some_iff.mp hctx).1
  have hcomplete := complete_new hctx reply
  obtain rfl := Except.ok.inj (hcomplete.symm.trans hserver)
  have hother {n : ℕ} (hn : n ≠ handler.req.ctx) :
      (s.completed ++ [handler.req]).filter (·.ctx = n) = s.completed.filter (·.ctx = n) ∧
      (s.server.fired ++ [(handler.req.callback, ContextRef.request handler.req.ctx)]).filter
        (·.2 = .request n) = s.server.fired.filter (·.2 = .request n) := by
    simp [Ne.symm hn]
  refine ⟨?_, ?_, ?_, ?_⟩
  · obtain ⟨ls, hrun⟩ := h.server
    obtain ⟨⟨c, completion⟩, hhanded, hitem⟩ :=
      List.mem_filterMap.mp (h.handlers.subset (List.mem_map_of_mem hmem))
    have henabled : s.server.Enabled (.complete handler.req sOk (some reply)) :=
      ⟨(c, completion), hhanded, hitem⟩
    have hnext : (Server.machine ι TransportMessage ψ).Run Lib.Machine.anything .new
        (ls ++ [.complete handler.req sOk (some reply)]) _ := hrun.snoc trivial henabled hserver
    exact ⟨_, hnext⟩
  · rw [map_req_set hi]
    exact h.handlers
  · intro n hquiet
    have hn : n ≠ handler.req.ctx := by
      rintro rfl
      have hnew : { handler with ended := some svcs } ∈
          s.handlers.set i { handler with ended := some svcs } :=
        List.mem_set (List.getElem?_eq_some_iff.mp hi).1 _
      exact hquiet _ hnew rfl ⟨svcs, reply, rfl, hresult⟩
    have hold := h.quiet n fun other hotherMem hsame => by
      refine hquiet other (handler_to_set hi hotherMem ?_ _) hsame
      rintro rfl
      exact hn hsame.symm
    refine ⟨(hother hn).1.trans hold.completed, (hother hn).2.trans hold.fired, ?_⟩
    intro ctx hnctx
    rw [List.getElem?_set_ne (Ne.symm hn)] at hnctx
    exact hold.context ctx hnctx
  · intro other hotherMem svcs' hended hdone
    rcases handler_of_set hotherMem with hold | rfl
    · have hne : other.req.ctx ≠ handler.req.ctx := by
        intro hsame
        rw [h.handler_inj hmem hold hsame, hrunning] at hended
        exact absurd hended (by simp)
      have hanswered := h.done other hold svcs' hended hdone
      obtain ⟨ctx, answer, hold', hanswer⟩ := hanswered.reply
      exact ⟨(hother hne).1.trans hanswered.completed, (hother hne).2.trans hanswered.fired,
        ctx, answer, by rw [List.getElem?_set_ne (Ne.symm hne), hold'], hanswer⟩
    · obtain rfl := Option.some.inj hended
      refine ⟨?_, ?_, _, reply, List.getElem?_set_self hlt, rfl, hresult⟩
      · simp [List.filter_append, huntouched.completed]
      · simp [List.filter_append, huntouched.fired]

theorem handleRequest_sound (h : Sound pb s) (hi : s.handlers[i]? = some handler)
    (hrunning : handler.ended = none) (svcs : List (Service κ)) :
    ∃ s', s.handleRequest pb i handler svcs = .ok s' ∧ Sound pb s' := by
  cases hresult : (execute pb svcs (some handler.req.msg)).result with
  | error exn =>
      exact ⟨_, handleRequest_thrown hresult, thrown_sound h hi hrunning hresult⟩
  | ok reply =>
      have huntouched := h.running_untouched (List.mem_of_getElem? hi) hrunning
      have hcomplete := complete_new huntouched.2 reply
      refine ⟨_, ?_, completed_sound h hi hrunning hresult hcomplete⟩
      simp only [handleRequest, hresult, hcomplete]

end Ends

variable {names : List Bytes} {labels : List (ExLabel ι ψ κ)}

theorem exec_sound (h : Sound pb s) {label : ExLabel ι ψ κ} (henabled : s.Enabled names label)
    (hx : exec pb s label = .ok s') : Sound pb s' := by
  cases label with
  | server label => exact serve_sound h henabled.1 henabled.2 hx
  | ends i svcs =>
      obtain ⟨⟨handler, hi, hrunning⟩, -⟩ := henabled
      obtain ⟨next, hnext, hsound⟩ := handleRequest_sound h hi hrunning svcs
      simp only [exec, hi] at hx
      obtain rfl : next = s' := Except.ok.inj (hnext.symm.trans hx)
      exact hsound

theorem run_sound (hrun : (machine pb names).Run Lib.Machine.anything new labels s) :
    Sound pb s := by
  apply hrun.state_invariant (Sound pb) (new_sound pb)
  exact fun _ _ _ _ h _ henabled hx => exec_sound h henabled hx

-- A coroutine that was left by an exception completed nothing.
theorem Sound.answered_iff (h : Sound pb s) {handler : Handler ι ψ κ} {svcs : List (Service κ)}
    (hmem : handler ∈ s.handlers) (hended : handler.ended = some svcs) :
    s.Answered pb handler.req svcs ↔ ¬Throws pb svcs (some handler.req.msg) := by
  rw [← execute_error_iff]
  constructor
  · rintro ⟨-, -, ctx, reply, -, -, hok⟩ ⟨exn, herror⟩
    exact absurd (hok.symm.trans herror) (by simp)
  · intro hnot
    cases hresult : (execute pb svcs (some handler.req.msg)).result with
    | error exn => exact absurd ⟨exn, hresult⟩ hnot
    | ok reply => exact h.done handler hmem svcs hended ⟨svcs, reply, hended, hresult⟩

-- The law of ex_server: a coroutine that can go on can end, and one that has
-- ended has answered its request exactly if no service threw on it.
theorem ended_answered_iff_not_thrown
    (hrun : (machine pb names).Run Lib.Machine.anything new labels s) :
    (∀ (i : ℕ) (svcs : List (Service κ)), s.Enabled names (.ends i svcs) →
      ∃ s', exec pb s (.ends i svcs) = .ok s') ∧
    ∀ handler ∈ s.handlers, ∀ svcs, handler.ended = some svcs →
      (s.Answered pb handler.req svcs ↔ ¬Throws pb svcs (some handler.req.msg)) := by
  have h := run_sound hrun
  refine ⟨?_, fun handler hmem svcs hended => h.answered_iff hmem hended⟩
  rintro i svcs ⟨⟨handler, hi, hrunning⟩, -⟩
  obtain ⟨s', hx, -⟩ := handleRequest_sound h hi hrunning svcs
  refine ⟨s', ?_⟩
  simp only [exec, hi, hx]

def messageTo (url : String) : TransportMessage :=
  toolTransportMsg [] (stringProtobuf.requestHeader.serializeAsString ⟨lit url⟩)

def handlerTo (url : String) (ended : Option (List (Service Unit))) : Handler ℕ ℕ Unit :=
  ⟨⟨5, messageTo url, 1, 0⟩, ended⟩

-- One client connects, and its one request is accepted.
theorem run_to_handler (pb : Protobuf σ Msg) (names : List Bytes) (url : String) :
    ∃ (labels : List (ExLabel ℕ ℕ Unit)) (s : ExServer ℕ ℕ Unit),
      (machine pb names).Run Lib.Machine.anything new labels s ∧
      s.handlers = [handlerTo url none] ∧ s.completed = [] ∧
      s.server.fired = [(0, .immediate 0)] := by
  have hrun : (machine pb names).Run Lib.Machine.anything (new : ExServer ℕ ℕ Unit) [] new := .nil
  replace hrun : (machine pb names).Run Lib.Machine.anything new
      (_ ++ [.server (.processConnect 5 0)]) _ := hrun.snoc trivial ⟨trivial, by simp⟩ rfl
  replace hrun : (machine pb names).Run Lib.Machine.anything new
      (_ ++ [.server (.acceptConn .start)]) _ := hrun.snoc trivial ⟨trivial, by simp⟩ rfl
  replace hrun : (machine pb names).Run Lib.Machine.anything new
      (_ ++ [.server (.acceptConn (.pop 0))]) _ := hrun.snoc trivial ⟨rfl, by simp⟩ rfl
  replace hrun : (machine pb names).Run Lib.Machine.anything new
      (_ ++ [.server (.acceptConn (.wait 0))]) _ := hrun.snoc trivial ⟨rfl, by simp⟩ rfl
  replace hrun : (machine pb names).Run Lib.Machine.anything new
      (_ ++ [.server (.acceptConn (.complete 0 false))]) _ :=
    hrun.snoc trivial ⟨⟨true, rfl, fun _ => rfl⟩, by simp⟩ rfl
  replace hrun : (machine pb names).Run Lib.Machine.anything new
      (_ ++ [.server (.accept 0 .start)]) _ := hrun.snoc trivial ⟨trivial, by simp⟩ rfl
  replace hrun : (machine pb names).Run Lib.Machine.anything new
      (_ ++ [.server (.accept 0 (.pop 0))]) _ := hrun.snoc trivial ⟨rfl, by simp⟩ rfl
  replace hrun : (machine pb names).Run Lib.Machine.anything new
      (_ ++ [.server (.accept 0 (.wait 0))]) _ := hrun.snoc trivial ⟨rfl, by simp⟩ rfl
  replace hrun : (machine pb names).Run Lib.Machine.anything new
      (_ ++ [.server (.processRequest 5 (messageTo url) 1)]) _ :=
    hrun.snoc trivial ⟨trivial, by simp⟩ rfl
  replace hrun : (machine pb names).Run Lib.Machine.anything new
      (_ ++ [.server (.accept 0 (.complete 0 false))]) _ :=
    hrun.snoc trivial ⟨⟨true, rfl, fun _ => rfl⟩, by simp⟩ rfl
  exact ⟨_, _, hrun, rfl, rfl, rfl⟩

-- The coroutine of that request ends.
theorem run_to_ended (pb : Protobuf σ Msg) (url : String) (svcs : List (Service Unit)) :
    ∃ (labels : List (ExLabel ℕ ℕ Unit)) (s s' : ExServer ℕ ℕ Unit),
      (machine pb (svcs.map Service.name)).Run Lib.Machine.anything new labels s' ∧
      s.completed = [] ∧ s.server.fired = [(0, .immediate 0)] ∧
      s.handleRequest pb 0 (handlerTo url none) svcs = .ok s' ∧
      handlerTo url (some svcs) ∈ s'.handlers := by
  obtain ⟨labels, s, hrun, hhandlers, hcompleted, hfired⟩ :=
    run_to_handler pb (svcs.map Service.name) url
  have hi : s.handlers[0]? = some (handlerTo url none) := by
    rw [hhandlers]
    rfl
  have henabled : s.Enabled (svcs.map Service.name) (.ends 0 svcs) := ⟨⟨_, hi, rfl⟩, rfl⟩
  obtain ⟨s', hx, -⟩ := handleRequest_sound (run_sound hrun) hi rfl svcs
  have hexec : exec pb s (.ends 0 svcs) = .ok s' := by simpa only [exec, hi] using hx
  have hnext : (machine pb (svcs.map Service.name)).Run Lib.Machine.anything new
      (labels ++ [.ends 0 svcs]) s' := hrun.snoc trivial henabled hexec
  refine ⟨_, s, s', hnext, hcompleted, hfired, hx, ?_⟩
  rw [handleRequest_handlers hx, hhandlers]
  exact List.mem_singleton_self _

-- A request is answered by a service that returns.
theorem ended_answered_named :
    ∃ (labels : List (ExLabel ℕ ℕ Unit)) (s : ExServer ℕ ℕ Unit),
      (machine stringProtobuf [lit "pkg.Foo"]).Run Lib.Machine.anything new labels s ∧
      handlerTo "/pkg.Foo/M" (some [namedService "pkg.Foo"]) ∈ s.handlers ∧
      s.Answered stringProtobuf (handlerTo "/pkg.Foo/M" none).req [namedService "pkg.Foo"] := by
  obtain ⟨labels, s, s', hrun, -, -, -, hmem⟩ :=
    run_to_ended stringProtobuf "/pkg.Foo/M" [namedService "pkg.Foo"]
  have hok : (execute stringProtobuf [namedService "pkg.Foo"]
      (some (handlerTo "/pkg.Foo/M" none).req.msg)).result.toOption.isSome = true := by decide
  refine ⟨labels, s', hrun, hmem, ((ended_answered_iff_not_thrown hrun).2 _ hmem _ rfl).mpr ?_⟩
  rw [← execute_error_iff]
  rintro ⟨exn, hexn⟩
  have hsome := hexn ▸ hok
  exact absurd hsome (by simp [Except.toOption])

def throwingService (name : String) : Service Unit :=
  ⟨lit name, fun _ _ => ⟨[], .error ⟨lit "failed"⟩⟩⟩

-- A service throws on the one request that was accepted. Its coroutine has ended
-- and the request was never completed.
theorem throwing_service_leaves_request_unanswered :
    ∃ (labels : List (ExLabel ℕ ℕ Unit)) (s : ExServer ℕ ℕ Unit),
      (machine stringProtobuf [lit "pkg.Foo"]).Run Lib.Machine.anything new labels s ∧
      handlerTo "/pkg.Foo/M" (some [throwingService "pkg.Foo"]) ∈ s.handlers ∧
      s.completed = [] ∧ s.server.fired = [(0, .immediate 0)] ∧
      ∀ svcs, ¬s.Answered stringProtobuf (handlerTo "/pkg.Foo/M" none).req svcs := by
  obtain ⟨labels, s, s', hrun, hcompleted, hfired, hx, hmem⟩ :=
    run_to_ended stringProtobuf "/pkg.Foo/M" [throwingService "pkg.Foo"]
  have hthrown : (execute stringProtobuf [throwingService "pkg.Foo"]
      (some (handlerTo "/pkg.Foo/M" none).req.msg)).result = .error ⟨lit "failed"⟩ := by decide
  rw [handleRequest_thrown hthrown] at hx
  obtain rfl := Except.ok.inj hx
  refine ⟨labels, _, hrun, hmem, hcompleted, hfired, ?_⟩
  intro svcs hanswered
  have hsome := hanswered.completed
  have hnone : (s.completed.filter (·.ctx = (handlerTo "/pkg.Foo/M" none).req.ctx)) = [] := by
    rw [hcompleted, List.filter_nil]
  exact absurd (hnone.symm.trans hsome) (by simp)

end ExServer

end FabricRpc.V2
