import FabricRpc.V2.ClientConnection.Steps
import FabricRpc.V2.ExServer.Progress
import FabricRpc.V2.System

namespace FabricRpc.V2

open Lib (Bytes lit)

namespace Serve

variable {ι ψ κ : Type*} {σ : Type*} {Msg : σ → Type*} [DecidableEq ι] {pb : Protobuf σ Msg}
  {names : List Bytes} {s next : Serve ι ψ κ} {labels : List (ExLabel ι ψ κ)}
  {ls : List (ServerLabel ι TransportMessage ψ)} {label : ExLabel ι ψ κ}

-- A coroutine holds a request that was posted.
theorem Tracks.handler_posted (h : Tracks labels ls s) {handler : Handler ι ψ κ}
    (hmem : handler ∈ s.ex.handlers) :
    handler.req ∈ (Server.history (serverLabels labels)).posted.map Prod.snd := by
  have hhanded : handler.req ∈ s.ex.server.net.handed.filterMap (·.2.item) := by
    rw [← h.handlers]
    exact List.mem_map_of_mem hmem
  obtain ⟨⟨c, completion⟩, hin, hitem⟩ := List.mem_filterMap.mp hhanded
  obtain ⟨n, -, hposted⟩ :=
    (Server.run_isolated h.run).handed_posted (Server.mem_itemsHandedTo hin hitem)
  rw [← h.same]
  exact List.mem_map_of_mem hposted

-- A coroutine that has ended stays as it ended.
theorem exec_ended (henabled : s.Enabled names label) (hx : exec pb s label = .ok next)
    {handler : Handler ι ψ κ} (hmem : handler ∈ s.ex.handlers) (hended : handler.ended ≠ none) :
    handler ∈ next.ex.handlers := by
  obtain ⟨ex, hex, rfl⟩ := exec_ok hx
  rw [advance_ex]
  cases label with
  | server l => exact ExServer.handler_to_serve hex hmem
  | ends i svcs =>
      obtain ⟨⟨⟨other, hi, hrunning⟩, -⟩, -⟩ := henabled
      simp only [ExServer.exec, hi] at hex
      rw [ExServer.handleRequest_handlers hex]
      refine ExServer.handler_to_set hi hmem ?_ _
      rintro rfl
      exact hended hrunning

end Serve

-- A callback that has fired with the context of a request is that of the request,
-- whose coroutine has answered it.
theorem ExServer.Sound.fired_answered {ι ψ κ : Type*} {σ : Type*} {Msg : σ → Type*}
    [DecidableEq ι] {pb : Protobuf σ Msg} {s : ExServer ι ψ κ} (h : ExServer.Sound pb s)
    {callback : ψ} {n : ℕ} (hfired : (callback, ContextRef.request n) ∈ s.server.fired) :
    ∃ handler ∈ s.handlers, ∃ svcs reply, handler.req.ctx = n ∧ handler.req.callback = callback ∧
      handler.ended = some svcs ∧ (execute pb svcs (some handler.req.msg)).result = .ok reply ∧
      s.server.contexts[n]?.bind Server.endProcessRequest = some (sOk, some reply) := by
  have hmem : (callback, ContextRef.request n) ∈ s.server.fired.filter (·.2 = .request n) :=
    List.mem_filter.mpr ⟨hfired, by simp⟩
  by_cases hquiet : ∀ handler ∈ s.handlers, handler.req.ctx = n → ¬ExServer.Done pb handler
  · rw [(h.quiet n hquiet).fired] at hmem
    exact absurd hmem List.not_mem_nil
  · push Not at hquiet
    obtain ⟨handler, hin, rfl, hdone⟩ := hquiet
    obtain ⟨svcs, -, hended, -⟩ := id hdone
    have hanswered := h.done handler hin svcs hended hdone
    rw [hanswered.fired, List.mem_singleton] at hmem
    obtain ⟨ctx, reply, hctx, hend, hok⟩ := hanswered.reply
    exact ⟨handler, hin, svcs, reply, rfl, (Prod.mk.inj hmem).1.symm, hended, hok,
      by simp [hctx, hend]⟩

def SendOp.BeginFailed {μ κ : Type*} (op : SendOp μ κ) : Prop :=
  ∃ hr ctx, op.began = some (hr, ctx) ∧ hr ≠ sOk

namespace System

variable {κ σ : Type*} {Msg : σ → Type*} {pb : Protobuf σ Msg} {names : List Bytes}
  {s next : System κ} {labels : List (SystemLabel κ)} {label : SystemLabel κ}

-- The requests that were given to the server.
def posted (labels : List (SystemLabel κ)) : List (Request ℕ TransportMessage (ℕ × ℕ)) :=
  (Server.history (Serve.serverLabels (serveLabels labels))).posted.map Prod.snd

theorem mem_clientLabels {j : ℕ} {l : SendLabel TransportMessage ℕ} :
    l ∈ clientLabels j labels ↔ .client j l ∈ labels := by
  rw [clientLabels, List.mem_filterMap]
  constructor
  · rintro ⟨label, hmem, hlabel⟩
    cases label with
    | client k l' =>
        simp only [Option.ite_none_right_eq_some, Option.some.injEq] at hlabel
        obtain ⟨rfl, rfl⟩ := hlabel
        exact hmem
    | _ => exact absurd hlabel (by simp)
  · intro hmem
    exact ⟨_, hmem, by simp⟩

theorem clientLabels_snoc (j : ℕ) (l : SendLabel TransportMessage ℕ) :
    clientLabels j (labels ++ [.client j l]) = clientLabels j labels ++ [l] := by
  simp [clientLabels]

theorem clientLabels_snoc_ne {j : ℕ} (hlabel : ∀ l, label ≠ .client j l) :
    clientLabels j (labels ++ [label]) = clientLabels j labels := by
  cases label with
  | client k l =>
      have hkj : k ≠ j := by
        rintro rfl
        exact hlabel l rfl
      simp [clientLabels, hkj]
  | _ => simp [clientLabels]

theorem serveLabels_snoc (l : ExLabel ℕ (ℕ × ℕ) κ) :
    serveLabels (labels ++ [.server l]) = serveLabels labels ++ [l] := by
  simp [serveLabels]

theorem serveLabels_snoc_ne (hlabel : ∀ l, label ≠ .server l) :
    serveLabels (labels ++ [label]) = serveLabels labels := by
  cases label with
  | server l => exact absurd rfl (hlabel l)
  | _ => simp [serveLabels]

theorem posted_snoc (j : ℕ) (message : TransportMessage) (callback : ℕ × ℕ) :
    posted (labels ++ [.server (.server (.processRequest j message callback))]) =
      posted labels ++ [⟨j, message, callback, (posted labels).length⟩] := by
  simp [posted, serveLabels_snoc, Serve.serverLabels_snoc, Server.History.extend]

theorem posted_snoc_ne
    (hlabel : ∀ j message callback,
      label ≠ .server (.server (.processRequest j message callback))) :
    posted (labels ++ [label]) = posted labels := by
  cases label with
  | server l =>
      rw [posted, serveLabels_snoc]
      cases l with
      | server l =>
          rw [Serve.serverLabels_snoc, Server.history_snoc]
          cases l with
          | processRequest j message callback => exact absurd rfl (hlabel j message callback)
          | _ => rfl
      | ends i svcs => simp [Serve.serverLabels, posted]
  | _ => rw [posted, serveLabels_snoc_ne (by simp), posted]

-- A coroutine has made this reply to a call.
def Replied (pb : Protobuf σ Msg) (s : System κ) (j i : ℕ) (reply : TransportMessage) : Prop :=
  ∃ handler ∈ s.serve.ex.handlers, ∃ svcs, handler.req.callback = (j, i) ∧
    handler.ended = some svcs ∧ (execute pb svcs (some handler.req.msg)).result = .ok reply

-- The transport is done with a call, but for the client.
def Settled (s : System κ) (j i : ℕ) : Prop :=
  (∃ reply, s.calls j i = .replied reply) ∨ ∃ hr, s.calls j i = .broken hr

-- What ties the calls of the clients to the requests of the server.
structure Linked (pb : Protobuf σ Msg) (names : List Bytes) (labels : List (SystemLabel κ))
    (s : System κ) : Prop where
  clients : ∀ j, (ClientConnection.machine TransportMessage ℕ).Run ClientConnection.Transport .new
    (clientLabels j labels) (s.clients j)
  serve : (Serve.machine pb names).Run Serve.Dependable .new (serveLabels labels) s.serve
  idle : ∀ j i, s.calls j i = .idle → ∀ req ∈ posted labels, req.callback ≠ (j, i)
  given : ∀ j i, s.calls j i = .posted → ∃ req ∈ posted labels, req.callback = (j, i)
  sent : ∀ req ∈ posted labels, req.callback.1 = req.connId ∧
    ∃ op, (s.clients req.connId).ops[req.callback.2]? = some op ∧ op.req = req.msg
  once : ((posted labels).map Request.callback).Nodup
  begun : ∀ j i, s.calls j i ≠ .idle → s.Begun j i
  invoked : ∀ j i, .client j (.invoke i) ∈ labels → s.Settled j i
  replied : ∀ j i reply, s.calls j i = .replied reply → s.Replied pb j i reply
  broken : ∀ j i hr, s.calls j i = .broken hr → hr ≠ sOk ∧ .giveUp j i hr ∈ labels
  handled : ∀ j i op hr reply, (s.clients j).ops[i]? = some op → (hr, reply) ∈ op.handled →
    op.BeginFailed ∨ .client j (.invoke i) ∈ labels ∧ s.Outcome j i hr reply

theorem new_linked : Linked pb names [] (new : System κ) where
  clients := fun _ => .nil
  serve := .nil
  idle := fun _ _ _ _ h => absurd h List.not_mem_nil
  given := fun _ _ h => by simp [new] at h
  sent := fun _ h => absurd h List.not_mem_nil
  once := List.nodup_nil
  begun := fun _ _ h => absurd rfl h
  invoked := fun _ _ h => absurd h List.not_mem_nil
  replied := fun _ _ _ h => by simp [new] at h
  broken := fun _ _ _ h => by simp [new] at h
  handled := fun _ _ _ _ _ h => by simp [new, ClientConnection.new] at h

theorem Linked.tracks (h : Linked pb names labels s) :
    (∃ ls, Serve.Tracks (serveLabels labels) ls s.serve) ∧ ExServer.Sound pb s.serve.ex :=
  Serve.run_tracks h.serve

-- A coroutine holds a request that was given to the server.
theorem Linked.handler_posted (h : Linked pb names labels s) {handler : Handler ℕ (ℕ × ℕ) κ}
    (hmem : handler ∈ s.serve.ex.handlers) : handler.req ∈ posted labels := by
  obtain ⟨⟨ls, htracks⟩, -⟩ := h.tracks
  exact htracks.handler_posted hmem

section Client

variable {j : ℕ} {l : SendLabel TransportMessage ℕ}

-- What the transport does is what a connection relies on.
theorem Linked.transport (h : Linked pb names labels s) (hallow : Carries labels s (.client j l)) :
    ClientConnection.Transport (clientLabels j labels) (s.clients j) l := by
  have hconcurrent := ClientConnection.run_concurrent (h.clients j)
  cases l with
  | invoke i =>
      obtain ⟨hnot, hsettled⟩ := hallow
      have hne : s.calls j i ≠ .idle := by
        rcases hsettled with ⟨reply, hreply⟩ | ⟨hr, hbroken⟩
        · simp [hreply]
        · simp [hbroken]
      obtain ⟨op, hop, hsent, hbegan⟩ := h.begun j i hne
      exact ⟨fun hmem => hnot (mem_clientLabels.mp hmem), op, List.mem_of_getElem? hop,
        (hconcurrent.sound i op hop).made, hsent, hbegan⟩
  | began i hr ctx =>
      intro hfailed op hop hmem
      rw [(hconcurrent.sound i op hop).made] at hmem
      rcases h.invoked j i (mem_clientLabels.mp hmem) with ⟨reply, hreply⟩ | ⟨hr, hbroken⟩
      · rw [hallow.2 hfailed] at hreply
        exact absurd hreply (by simp)
      · rw [hallow.2 hfailed] at hbroken
        exact absurd hbroken (by simp)
  | _ => exact trivial

-- A wait that ends was ended by the callback.
theorem Linked.invoked_of_finish (h : Linked pb names labels s) {i : ℕ} {hr : Int32}
    {reply : Option TransportMessage} (henabled : (s.clients j).Enabled (.finish i hr reply)) :
    .client j (.invoke i) ∈ labels := by
  obtain ⟨op, ev, ctx, hop, hphase⟩ := henabled
  have hsound := (ClientConnection.run_concurrent (h.clients j)).sound i op hop
  have htold := hsound.told
  simp only [SendOp.Told, hphase] at htold
  obtain ⟨-, hset, -⟩ := htold
  exact mem_clientLabels.mp (hsound.invoked.mp hset.symm)

theorem Begun.follows {client : ClientConnection TransportMessage ℕ} {i : ℕ} (h : s.Begun j i)
    (hfollows : ClientConnection.Follows l (s.clients j) client)
    (hbegan : ∀ hr ctx, l = .began i hr ctx → hr = sOk) :
    (s.setClient j client).Begun j i := by
  obtain ⟨op, hop, hsent, hold⟩ := h
  obtain ⟨next, hnext, hstep⟩ := hfollows.forward i op hop
  refine ⟨next, by simpa using hnext, ?_, ?_⟩
  · rcases hstep.sent with hsame | hmore
    · rwa [hsame]
    · simp [hmore]
  · intro hr ctx hnow
    rcases hstep.began with hsame | ⟨hr', ctx', hlabel, hlast⟩
    · exact hold hr ctx (hsame ▸ hnow)
    · obtain ⟨rfl, rfl⟩ := Prod.mk.inj (Option.some.inj (hlast.symm.trans hnow))
      exact hbegan _ _ hlabel

-- A BeginRequest that has failed is over.
theorem Linked.beginFailed_follows (h : Linked pb names labels s) {i : ℕ}
    {op next : SendOp TransportMessage ℕ} (hop : (s.clients j).ops[i]? = some op)
    (henabled : (s.clients j).Enabled l) (hstep : op.Follows l i next) (hfailed : op.BeginFailed) :
    next.BeginFailed := by
  obtain ⟨hr, ctx, hbegan, hne⟩ := hfailed
  rcases hstep.began with hsame | ⟨hr', ctx', rfl, -⟩
  · exact ⟨hr, ctx, hsame.trans hbegan, hne⟩
  · obtain ⟨other, ev, hother, hphase⟩ := henabled
    obtain rfl := Option.some.inj (hop.symm.trans hother)
    have htold := ((ClientConnection.run_concurrent (h.clients j)).sound i op hop).told
    simp only [SendOp.Told, hphase] at htold
    exact absurd (htold.2.2.1.symm.trans hbegan) (by simp)

theorem client_linked (h : Linked pb names labels s) (hallow : Carries labels s (.client j l))
    (henabled : (s.clients j).Enabled l) : ∃ next, exec pb s (.client j l) = .ok next ∧
      Linked pb names (labels ++ [.client j l]) next := by
  have htransport := h.transport hallow
  obtain ⟨client, hx, -⟩ := ClientConnection.exec_concurrent
    (ClientConnection.run_concurrent (h.clients j)) htransport henabled
  have hfollows := ClientConnection.exec_follows hx
  have hposted : posted (labels ++ [.client j l]) = posted labels := posted_snoc_ne (by simp)
  refine ⟨s.setClient j client, by simp only [exec, hx], ?_⟩
  refine ⟨?_, ?_, ?_, ?_, ?_, ?_, ?_, ?_, h.replied, ?_, ?_⟩
  · intro k
    by_cases hk : k = j
    · subst hk
      rw [clientLabels_snoc, setClient_self]
      exact (h.clients k).snoc htransport henabled hx
    · rw [clientLabels_snoc_ne (by simp [Ne.symm hk]), setClient_ne s client hk]
      exact h.clients k
  · rw [serveLabels_snoc_ne (by simp)]
    exact h.serve
  · rw [hposted]
    exact h.idle
  · rw [hposted]
    exact h.given
  · rw [hposted]
    intro req hreq
    obtain ⟨hid, op, hop, hmsg⟩ := h.sent req hreq
    refine ⟨hid, ?_⟩
    by_cases hk : req.connId = j
    · rw [hk] at hop ⊢
      obtain ⟨next, hnext, hstep⟩ := hfollows.forward _ op hop
      exact ⟨next, by simpa using hnext, hstep.req.trans hmsg⟩
    · exact ⟨op, by rw [setClient_ne s client hk, hop], hmsg⟩
  · rw [hposted]
    exact h.once
  · intro k i hne
    have hold := h.begun k i hne
    by_cases hk : k = j
    · subst hk
      apply hold.follows hfollows
      rintro hr ctx rfl
      by_contra hfailed
      exact hne (hallow.2 hfailed)
    · obtain ⟨op, hop, hrest⟩ := hold
      exact ⟨op, by rw [setClient_ne s client hk, hop], hrest⟩
  · intro k i hmem
    rcases List.mem_append.mp hmem with hmem | hmem
    · exact h.invoked k i hmem
    · obtain ⟨rfl, rfl⟩ := SystemLabel.client.inj (List.mem_singleton.mp hmem)
      exact hallow.2
  · intro k i hr hbroken
    obtain ⟨hfailed, hgiven⟩ := h.broken k i hr hbroken
    exact ⟨hfailed, List.mem_append_left _ hgiven⟩
  · intro k i op hr reply hop hmem
    have hgrow (hold : .client k (.invoke i) ∈ labels ∧ s.Outcome k i hr reply) :
        .client k (.invoke i) ∈ labels ++ [.client j l] ∧ s.Outcome k i hr reply :=
      ⟨List.mem_append_left _ hold.1, hold.2⟩
    by_cases hk : k = j
    · subst hk
      rw [setClient_self] at hop
      rcases hfollows.backward i op hop with ⟨old, hold, hstep⟩ | ⟨hnone, -⟩
      · have hbefore (hin : (hr, reply) ∈ old.handled) : op.BeginFailed ∨
            .client k (.invoke i) ∈ labels ++ [.client k l] ∧ s.Outcome k i hr reply :=
          (h.handled k i old hr reply hold hin).imp
            (h.beginFailed_follows hold henabled hstep) hgrow
        rcases hstep.handled with hsame | ⟨hr', ctx, -, hfailed, hbegan, hmore⟩ |
          ⟨hr', answer, rfl, hmore⟩
        · exact hbefore (hsame ▸ hmem)
        · exact .inl ⟨hr', ctx, hbegan, hfailed⟩
        · rw [hmore, List.mem_append, List.mem_singleton] at hmem
          rcases hmem with hmem | hmem
          · exact hbefore hmem
          · obtain ⟨rfl, rfl⟩ := Prod.mk.inj hmem
            exact .inr (hgrow ⟨h.invoked_of_finish henabled, hallow⟩)
      · rw [hnone] at hmem
        exact absurd hmem List.not_mem_nil
    · rw [setClient_ne s client hk] at hop
      exact (h.handled k i op hr reply hop hmem).imp_right hgrow

end Client

section Server

variable {l : ExLabel ℕ (ℕ × ℕ) κ}

theorem dependable_of_carries (hallow : Carries labels s (.server l)) :
    Serve.Dependable (serveLabels labels) s.serve l := by
  cases l with
  | server l =>
      cases l with
      | processRequest j message callback => exact hallow.1
      | _ => exact hallow
  | ends i svcs => exact hallow

theorem Replied.serve {serve : Serve ℕ (ℕ × ℕ) κ} {j i : ℕ} {reply : TransportMessage}
    (h : s.Replied pb j i reply) (henabled : s.serve.Enabled names l)
    (hx : s.serve.exec pb l = .ok serve) : Replied pb { s with serve := serve } j i reply := by
  obtain ⟨handler, hmem, svcs, hcallback, hended, hok⟩ := h
  exact ⟨handler, Serve.exec_ended henabled hx hmem (by simp [hended]), svcs, hcallback, hended,
    hok⟩

-- What BeginRequest was called with is the message of the operation.
theorem Linked.sent_eq (h : Linked pb names labels s) {j i : ℕ} {op : SendOp TransportMessage ℕ}
    (hop : (s.clients j).ops[i]? = some op) {message : TransportMessage} {timeout : UInt32}
    (hmem : (message, timeout) ∈ op.sent) : message = op.req := by
  have htold := ((ClientConnection.run_concurrent (h.clients j)).sound i op hop).told
  have hsent : op.sent = [] ∨ op.sent = [(op.req, sendTimeout)] := by
    unfold SendOp.Told at htold
    split at htold
    · exact .inl htold.1
    · exact .inr htold.2.1
    · exact .inr htold.2.1
    · exact .inr htold.2.2.1
    · exact .inr htold.1
  rcases hsent with hnone | hone
  · rw [hnone] at hmem
    exact absurd hmem List.not_mem_nil
  · rw [hone, List.mem_singleton] at hmem
    exact (Prod.mk.inj hmem).1

-- A step of the server other than a request,
theorem server_linked_ne (h : Linked pb names labels s) (hallow : Carries labels s (.server l))
    (henabled : s.serve.Enabled names l) {serve : Serve ℕ (ℕ × ℕ) κ}
    (hx : s.serve.exec pb l = .ok serve)
    (hlabel : ∀ j message callback, l ≠ .server (.processRequest j message callback)) :
    Linked pb names (labels ++ [.server l]) { s with serve := serve } := by
  have hposted : posted (labels ++ [.server l]) = posted labels :=
    posted_snoc_ne fun j message callback heq =>
      hlabel j message callback (SystemLabel.server.inj heq)
  refine ⟨?_, ?_, ?_, ?_, ?_, ?_, h.begun, ?_, ?_, ?_, ?_⟩
  · intro j
    rw [clientLabels_snoc_ne (by simp)]
    exact h.clients j
  · rw [serveLabels_snoc]
    exact h.serve.snoc (dependable_of_carries hallow) henabled hx
  · rw [hposted]
    exact h.idle
  · rw [hposted]
    exact h.given
  · rw [hposted]
    exact h.sent
  · rw [hposted]
    exact h.once
  · intro j i hmem
    exact h.invoked j i (by simpa using hmem)
  · intro j i reply hreply
    exact (h.replied j i reply hreply).serve henabled hx
  · intro j i hr hbroken
    obtain ⟨hfailed, hgiven⟩ := h.broken j i hr hbroken
    exact ⟨hfailed, List.mem_append_left _ hgiven⟩
  · intro j i op hr reply hop hmem
    exact (h.handled j i op hr reply hop hmem).imp_right fun hold =>
      ⟨List.mem_append_left _ hold.1, hold.2⟩

-- and a request, which the transport gives to the server.
theorem request_linked (h : Linked pb names labels s) {j i : ℕ} {message : TransportMessage}
    (hallow : Carries labels s (.server (.server (.processRequest j message (j, i)))))
    (henabled : s.serve.Enabled names (.server (.processRequest j message (j, i))))
    {serve : Serve ℕ (ℕ × ℕ) κ}
    (hx : s.serve.exec pb (.server (.processRequest j message (j, i))) = .ok serve) :
    Linked pb names (labels ++ [.server (.server (.processRequest j message (j, i)))])
      (setCall { s with serve := serve } j i .posted) := by
  have hserve := h.serve.snoc (dependable_of_carries hallow) henabled hx
  obtain ⟨-, -, hidle, hbegun, op, timeout, hop, hsent⟩ := hallow
  have hcall {k m : ℕ} (hkm : (k, m) ≠ (j, i)) :
      (setCall { s with serve := serve } j i .posted).calls k m = s.calls k m :=
    setCall_ne { s with serve := serve } .posted hkm
  have hself : (setCall { s with serve := serve } j i .posted).calls j i = .posted :=
    setCall_self _ _
  refine ⟨?_, ?_, ?_, ?_, ?_, ?_, ?_, ?_, ?_, ?_, ?_⟩
  · intro k
    rw [clientLabels_snoc_ne (by simp)]
    exact h.clients k
  · rw [serveLabels_snoc]
    exact hserve
  · intro k m hkm req hreq
    have hne : (k, m) ≠ (j, i) := by
      rintro heq
      obtain ⟨rfl, rfl⟩ := Prod.mk.inj heq
      exact absurd (hself.symm.trans hkm) (by simp)
    rw [hcall hne] at hkm
    rw [posted_snoc, List.mem_append, List.mem_singleton] at hreq
    rcases hreq with hreq | rfl
    · exact h.idle k m hkm req hreq
    · exact fun heq => hne heq.symm
  · intro k m hkm
    rw [posted_snoc]
    by_cases heq : (k, m) = (j, i)
    · exact ⟨_, List.mem_append_right _ (List.mem_singleton_self _), heq.symm⟩
    · rw [hcall heq] at hkm
      obtain ⟨req, hreq, hcallback⟩ := h.given k m hkm
      exact ⟨req, List.mem_append_left _ hreq, hcallback⟩
  · intro req hreq
    rw [posted_snoc, List.mem_append, List.mem_singleton] at hreq
    rcases hreq with hreq | rfl
    · exact h.sent req hreq
    · exact ⟨rfl, op, hop, (h.sent_eq hop hsent).symm⟩
  · rw [posted_snoc, List.map_append, List.nodup_append]
    refine ⟨h.once, by simp, ?_⟩
    intro callback hcallback other hother
    obtain ⟨req, hreq, rfl⟩ := List.mem_map.mp hcallback
    obtain rfl : other = (j, i) := by simpa using hother
    exact h.idle j i hidle req hreq
  · intro k m hkm
    by_cases heq : (k, m) = (j, i)
    · obtain ⟨rfl, rfl⟩ := Prod.mk.inj heq
      exact hbegun
    · rw [hcall heq] at hkm
      exact h.begun k m hkm
  · intro k m hmem
    have hsettled := h.invoked k m (by simpa using hmem)
    have hne : (k, m) ≠ (j, i) := by
      rintro heq
      obtain ⟨rfl, rfl⟩ := Prod.mk.inj heq
      rcases hsettled with ⟨reply, hreply⟩ | ⟨hr, hbroken⟩
      · exact absurd (hidle.symm.trans hreply) (by simp)
      · exact absurd (hidle.symm.trans hbroken) (by simp)
    simpa only [Settled, hcall hne] using hsettled
  · intro k m reply hreply
    have hne : (k, m) ≠ (j, i) := by
      rintro heq
      obtain ⟨rfl, rfl⟩ := Prod.mk.inj heq
      exact absurd (hself.symm.trans hreply) (by simp)
    rw [hcall hne] at hreply
    exact (h.replied k m reply hreply).serve henabled hx
  · intro k m hr hbroken
    have hne : (k, m) ≠ (j, i) := by
      rintro heq
      obtain ⟨rfl, rfl⟩ := Prod.mk.inj heq
      exact absurd (hself.symm.trans hbroken) (by simp)
    rw [hcall hne] at hbroken
    obtain ⟨hfailed, hgiven⟩ := h.broken k m hr hbroken
    exact ⟨hfailed, List.mem_append_left _ hgiven⟩
  · intro k m other hr reply hother hmem
    refine (h.handled k m other hr reply hother hmem).imp_right ?_
    rintro ⟨hinvoke, houtcome⟩
    have hne : (k, m) ≠ (j, i) := by
      rintro heq
      obtain ⟨rfl, rfl⟩ := Prod.mk.inj heq
      rcases houtcome with ⟨answer, hreply, -⟩ | ⟨hbroken, -⟩
      · exact absurd (hidle.symm.trans hreply) (by simp)
      · exact absurd (hidle.symm.trans hbroken) (by simp)
    exact ⟨List.mem_append_left _ hinvoke, by simpa only [Outcome, hcall hne] using houtcome⟩

theorem server_linked (h : Linked pb names labels s) (hallow : Carries labels s (.server l))
    (henabled : s.serve.Enabled names l) : ∃ next, exec pb s (.server l) = .ok next ∧
      Linked pb names (labels ++ [.server l]) next := by
  obtain ⟨⟨ls, htracks⟩, hsound⟩ := h.tracks
  obtain ⟨serve, -, hx, -⟩ :=
    Serve.exec_tracks htracks hsound (dependable_of_carries hallow) henabled
  refine ⟨mark { s with serve := serve } l, by simp only [exec, hx], ?_⟩
  by_cases hlabel : ∃ j message callback, l = .server (.processRequest j message callback)
  · obtain ⟨j, message, ⟨k, i⟩, rfl⟩ := hlabel
    obtain rfl : k = j := hallow.2.1
    exact request_linked h hallow henabled hx
  · have hne : ∀ j message callback, l ≠ .server (.processRequest j message callback) :=
      fun j message callback heq => hlabel ⟨j, message, callback, heq⟩
    have hmark : mark { s with serve := serve } l = { s with serve := serve } := by
      unfold mark
      split
      · exact absurd rfl (hne _ _ _)
      · rfl
    rw [hmark]
    exact server_linked_ne h hallow henabled hx hne

end Server

section Transport

variable {j i : ℕ}

-- The transport settles a call whose operation was not told anything.
theorem Linked.setCall (h : Linked pb names labels s) {transit : Transit}
    (hlabel : (∀ j l, label ≠ .client j l) ∧ ∀ l, label ≠ .server l)
    (hidle : transit ≠ .idle) (hposted : transit ≠ .posted) (hbegun : s.Begun j i)
    (hreplied : ∀ reply, transit = .replied reply → s.Replied pb j i reply)
    (hbroken : ∀ hr, transit = .broken hr → hr ≠ sOk ∧ label = .giveUp j i hr)
    (huntold : .client j (.invoke i) ∈ labels → ∀ hr reply, ¬s.Outcome j i hr reply) :
    Linked pb names (labels ++ [label]) (s.setCall j i transit) := by
  have hsame : posted (labels ++ [label]) = posted labels :=
    posted_snoc_ne fun _ _ _ => hlabel.2 _
  have hcall {k m : ℕ} (hkm : (k, m) ≠ (j, i)) :
      (s.setCall j i transit).calls k m = s.calls k m := setCall_ne s transit hkm
  have hself : (s.setCall j i transit).calls j i = transit := setCall_self s transit
  refine ⟨?_, ?_, ?_, ?_, ?_, ?_, ?_, ?_, ?_, ?_, ?_⟩
  · intro k
    rw [clientLabels_snoc_ne (hlabel.1 k)]
    exact h.clients k
  · rw [serveLabels_snoc_ne hlabel.2]
    exact h.serve
  · intro k m hkm
    rw [hsame]
    by_cases heq : (k, m) = (j, i)
    · obtain ⟨rfl, rfl⟩ := Prod.mk.inj heq
      exact absurd (hself.symm.trans hkm) hidle
    · exact h.idle k m ((hcall heq).symm.trans hkm)
  · intro k m hkm
    rw [hsame]
    by_cases heq : (k, m) = (j, i)
    · obtain ⟨rfl, rfl⟩ := Prod.mk.inj heq
      exact absurd (hself.symm.trans hkm) hposted
    · exact h.given k m ((hcall heq).symm.trans hkm)
  · rw [hsame]
    exact h.sent
  · rw [hsame]
    exact h.once
  · intro k m hkm
    by_cases heq : (k, m) = (j, i)
    · obtain ⟨rfl, rfl⟩ := Prod.mk.inj heq
      exact hbegun
    · exact h.begun k m fun hnone => hkm ((hcall heq).trans hnone)
  · intro k m hmem
    by_cases heq : (k, m) = (j, i)
    · obtain ⟨rfl, rfl⟩ := Prod.mk.inj heq
      cases htransit : transit with
      | idle => exact absurd htransit hidle
      | posted => exact absurd htransit hposted
      | replied reply => exact .inl ⟨reply, setCall_self s _⟩
      | broken hr => exact .inr ⟨hr, setCall_self s _⟩
    · have hmem : SystemLabel.client k (.invoke m) ∈ labels := by
        rcases List.mem_append.mp hmem with hmem | hmem
        · exact hmem
        · exact absurd (List.mem_singleton.mp hmem).symm (hlabel.1 k _)
      simpa only [Settled, hcall heq] using h.invoked k m hmem
  · intro k m reply hreply
    by_cases heq : (k, m) = (j, i)
    · obtain ⟨rfl, rfl⟩ := Prod.mk.inj heq
      exact hreplied reply (hself.symm.trans hreply)
    · exact h.replied k m reply ((hcall heq).symm.trans hreply)
  · intro k m hr hfailed
    by_cases heq : (k, m) = (j, i)
    · obtain ⟨rfl, rfl⟩ := Prod.mk.inj heq
      obtain ⟨hne, rfl⟩ := hbroken hr (hself.symm.trans hfailed)
      exact ⟨hne, List.mem_append_right _ (List.mem_singleton_self _)⟩
    · obtain ⟨hne, hgiven⟩ := h.broken k m hr ((hcall heq).symm.trans hfailed)
      exact ⟨hne, List.mem_append_left _ hgiven⟩
  · intro k m op hr reply hop hmem
    refine (h.handled k m op hr reply hop hmem).imp_right ?_
    rintro ⟨hinvoke, houtcome⟩
    by_cases heq : (k, m) = (j, i)
    · obtain ⟨rfl, rfl⟩ := Prod.mk.inj heq
      exact absurd houtcome (huntold hinvoke hr reply)
    · exact ⟨List.mem_append_left _ hinvoke, by simpa only [Outcome, hcall heq] using houtcome⟩

theorem answer_linked (h : Linked pb names labels s) {n : ℕ} (hallow : s.calls j i = .posted)
    (henabled : ((j, i), ContextRef.request n) ∈ s.serve.ex.server.fired) :
    ∃ next, exec pb s (.answer j i n) = .ok next ∧
      Linked pb names (labels ++ [.answer j i n]) next := by
  obtain ⟨handler, hmem, svcs, reply, -, hcallback, hended, hok, hend⟩ :=
    h.tracks.2.fired_answered henabled
  refine ⟨s.setCall j i (.replied reply), by simp only [exec, answer, hend], ?_⟩
  refine h.setCall ⟨by simp, by simp⟩ (by simp) (by simp) (h.begun j i (by simp [hallow])) ?_
    (by simp) ?_
  · rintro other heq
    obtain rfl := Transit.replied.inj heq
    exact ⟨handler, hmem, svcs, hcallback, hended, hok⟩
  · rintro - hr other (⟨message, hreplied, -⟩ | ⟨hbroken, -⟩)
    · exact absurd (hallow.symm.trans hreplied) (by simp)
    · exact absurd (hallow.symm.trans hbroken) (by simp)

theorem giveUp_linked (h : Linked pb names labels s) {hr : Int32}
    (hallow : Carries labels s (.giveUp j i hr)) :
    Linked pb names (labels ++ [.giveUp j i hr]) (s.setCall j i (.broken hr)) := by
  obtain ⟨hfailed, hbegun, hnot⟩ := hallow
  refine h.setCall ⟨by simp, by simp⟩ (by simp) (by simp) hbegun (by simp) ?_ ?_
  · rintro other heq
    obtain rfl := Transit.broken.inj heq
    exact ⟨hfailed, rfl⟩
  · exact fun hinvoke => absurd hinvoke hnot

end Transport

-- No step of the system fails an assertion.
theorem exec_linked (h : Linked pb names labels s) (hallow : Carries labels s label)
    (henabled : s.Enabled names label) :
    ∃ next, exec pb s label = .ok next ∧ Linked pb names (labels ++ [label]) next := by
  cases label with
  | client j l => exact client_linked h hallow henabled
  | server l => exact server_linked h hallow henabled
  | answer j i n => exact answer_linked h hallow henabled
  | giveUp j i hr => exact ⟨_, rfl, giveUp_linked h hallow⟩

theorem run_linked (hrun : (machine pb names).Run Carries new labels s) :
    Linked pb names labels s := by
  apply hrun.invariant (Linked pb names) new_linked
  intro labels s label next h hallow henabled hx
  obtain ⟨other, hother, hlinked⟩ := exec_linked h hallow henabled
  obtain rfl : other = next := Except.ok.inj (hother.symm.trans hx)
  exact hlinked

end System

end FabricRpc.V2
