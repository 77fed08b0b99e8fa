import FabricRpc.V2.RpcClient.Transparency
import FabricRpc.V2.System.Progress

namespace FabricRpc.V2.System

open Lib (Bytes lit)

variable {κ σ : Type*} {Msg : σ → Type*} {pb : Protobuf σ Msg} {names : List Bytes}
  {s : System κ} {labels : List (SystemLabel κ)}

-- Coroutines of different requests have different callbacks.
theorem Linked.callbacks_nodup (h : Linked pb names labels s) :
    (s.serve.ex.handlers.map fun handler => handler.req.callback).Nodup := by
  obtain ⟨⟨ls, htracks⟩, -⟩ := h.tracks
  have hctx := Server.handed_nodup htracks.run
  rw [← htracks.handlers] at hctx
  have hreqs : (s.serve.ex.handlers.map Handler.req).Nodup := hctx.of_map
  have hcallbacks : ((s.serve.ex.handlers.map Handler.req).map Request.callback).Nodup := by
    apply hreqs.map_on
    intro req hreq other hother hsame
    obtain ⟨handler, hmem, rfl⟩ := List.mem_map.mp hreq
    obtain ⟨handler', hmem', rfl⟩ := List.mem_map.mp hother
    exact List.inj_on_of_nodup_map h.once (h.handler_posted hmem) (h.handler_posted hmem') hsame
  rwa [List.map_map] at hcallbacks

-- An operation is told once.
theorem Linked.told_once (h : Linked pb names labels s) {j i : ℕ} {op : SendOp TransportMessage ℕ}
    (hop : (s.clients j).ops[i]? = some op) {hr : Int32} {reply : Option TransportMessage}
    (hmem : (hr, reply) ∈ op.handled) : op.handled = [(hr, reply)] := by
  rcases (ClientConnection.run_concurrent (h.clients j)).told_cases (List.mem_of_getElem? hop) with
    ⟨-, ⟨-, hnone⟩, -⟩ | ⟨-, -, ⟨hr', ctx, -, -, -, hone⟩ | ⟨ctx, hr', reply', -, -, hone⟩⟩
  · rw [hnone] at hmem
    exact absurd hmem List.not_mem_nil
  · rw [hone, List.mem_singleton] at hmem
    rw [hone, hmem]
  · rw [hone, List.mem_singleton] at hmem
    rw [hone, hmem]

-- The call that a successful operation has made.
theorem Linked.success (h : Linked pb names labels s) {j i : ℕ} {op : SendOp TransportMessage ℕ}
    (hop : (s.clients j).ops[i]? = some op) {reply : Option TransportMessage}
    (hmem : (sOk, reply) ∈ op.handled) : ∃ answer, reply = some answer ∧
      s.calls j i = .replied answer := by
  rcases h.handled j i op sOk reply hop hmem with ⟨hr, ctx, hbegan, hne⟩ | ⟨-, houtcome⟩
  · have hcases := ClientConnection.run_concurrent (h.clients j)
    rcases hcases.told_cases (List.mem_of_getElem? hop) with
      ⟨-, -, hok⟩ | ⟨-, -, ⟨hr', ctx', hfailed, -, -, hone⟩ | ⟨ctx', hr', reply', hbegan', -, -⟩⟩
    · exact absurd (hok hr ctx hbegan) hne
    · rw [hone, List.mem_singleton] at hmem
      exact absurd (Prod.mk.inj hmem).1.symm hfailed
    · rw [hbegan'] at hbegan
      exact absurd (Prod.mk.inj (Option.some.inj hbegan)).1.symm hne
  · rcases houtcome with ⟨answer, hreplied, -, hreply⟩ | ⟨hbroken, -⟩
    · exact ⟨answer, hreply, hreplied⟩
    · exact absurd rfl (h.broken j i sOk hbroken).1

-- The message of the coroutine is that of the operation that its callback names.
theorem Linked.handler_sent (h : Linked pb names labels s) {handler : Handler ℕ (ℕ × ℕ) κ}
    (hmem : handler ∈ s.serve.ex.handlers) {j i : ℕ} {op : SendOp TransportMessage ℕ}
    (hop : (s.clients j).ops[i]? = some op) (hcallback : handler.req.callback = (j, i)) :
    handler.req.msg = op.req := by
  obtain ⟨hid, other, hother, hmsg⟩ := h.sent handler.req (h.handler_posted hmem)
  rw [← hid, hcallback, hop] at hother
  rw [← hmsg, Option.some.inj hother]

-- A coroutine whose services return completes its request.
theorem exec_ends {i : ℕ} {handler : Handler ℕ (ℕ × ℕ) κ} {svcs : List (Service κ)}
    {reply : TransportMessage} {server : Server ℕ TransportMessage (ℕ × ℕ)}
    (hi : s.serve.ex.handlers[i]? = some handler)
    (hreply : (execute pb svcs (some handler.req.msg)).result = .ok reply)
    (hcomplete : s.serve.ex.server.complete handler.req sOk (some reply) = .ok server) :
    exec pb s (.server (.ends i svcs)) = .ok { s with serve :=
      { s.serve with ex := ⟨server, s.serve.ex.handlers.set i { handler with ended := some svcs },
        s.serve.ex.completed ++ [handler.req]⟩ } } := by
  simp only [exec, Serve.exec, ExServer.exec, hi, ExServer.handleRequest, hreply, hcomplete,
    Except.map, mark, Serve.advance]

-- One client connects and sends one message, and is told the reply to it. The
-- message is posted before BeginRequest has returned, and the callback is
-- invoked before the wait for it.
theorem run_called (pb : Protobuf σ Msg) {req reply : TransportMessage} {svcs : List (Service κ)}
    (hreply : (execute pb svcs (some req)).result = .ok reply) :
    ∃ (labels : List (SystemLabel κ)) (s : System κ),
      (machine pb (svcs.map Service.name)).Run Carries new labels s ∧
      ((Server.history (Serve.serverLabels (serveLabels labels))).current 0).isSome ∧
      s.serve.ex.handlers = [⟨⟨0, req, (0, 0), 0⟩, some svcs⟩] ∧
      ∃ op, (s.clients 0).ops[0]? = some op ∧ op.req = req ∧ op.handled = [(sOk, some reply)] := by
  have hrun : (machine pb (svcs.map Service.name)).Run Carries (new : System κ) [] new := .nil
  replace hrun : (machine pb _).Run Carries new (_ ++ [.client 0 (.send req)]) _ :=
    hrun.snoc trivial trivial rfl
  replace hrun : (machine pb _).Run Carries new (_ ++ [.client 0 (.begin 0)]) _ :=
    hrun.snoc trivial ⟨_, rfl, rfl⟩ rfl
  replace hrun : (machine pb _).Run Carries new
      (_ ++ [.server (.server (.processConnect 0 (0, 0)))]) _ :=
    hrun.snoc rfl ⟨⟨trivial, by simp⟩, trivial⟩ rfl
  replace hrun : (machine pb _).Run Carries new
      (_ ++ [.server (.server (.acceptConn .start))]) _ :=
    hrun.snoc trivial ⟨⟨trivial, by simp⟩, rfl⟩ rfl
  replace hrun : (machine pb _).Run Carries new
      (_ ++ [.server (.server (.acceptConn (.pop 0)))]) _ :=
    hrun.snoc trivial ⟨⟨rfl, by simp⟩, trivial⟩ rfl
  replace hrun : (machine pb _).Run Carries new
      (_ ++ [.server (.server (.acceptConn (.wait 0)))]) _ :=
    hrun.snoc trivial ⟨⟨rfl, by simp⟩, trivial⟩ rfl
  replace hrun : (machine pb _).Run Carries new
      (_ ++ [.server (.server (.acceptConn (.complete 0 false)))]) _ :=
    hrun.snoc rfl ⟨⟨⟨true, rfl, fun _ => rfl⟩, by simp⟩, trivial⟩ rfl
  replace hrun : (machine pb _).Run Carries new (_ ++ [.server (.server (.accept 0 .start))]) _ :=
    hrun.snoc trivial ⟨⟨trivial, by simp⟩, rfl⟩ rfl
  replace hrun : (machine pb _).Run Carries new (_ ++ [.server (.server (.accept 0 (.pop 0)))]) _ :=
    hrun.snoc trivial ⟨⟨rfl, by simp⟩, trivial⟩ rfl
  replace hrun : (machine pb _).Run Carries new
      (_ ++ [.server (.server (.accept 0 (.wait 0)))]) _ :=
    hrun.snoc trivial ⟨⟨rfl, by simp⟩, trivial⟩ rfl
  replace hrun : (machine pb _).Run Carries new
      (_ ++ [.server (.server (.processRequest 0 req (0, 0)))]) _ :=
    hrun.snoc ⟨rfl, rfl, rfl, ⟨_, rfl, List.cons_ne_nil _ _, fun _ _ h => nomatch h⟩, _, _, rfl,
      List.mem_singleton_self _⟩ ⟨⟨trivial, by simp⟩, trivial⟩ rfl
  replace hrun : (machine pb _).Run Carries new
      (_ ++ [.server (.server (.accept 0 (.complete 0 false)))]) _ :=
    hrun.snoc rfl ⟨⟨⟨true, rfl, fun _ => rfl⟩, by simp⟩, trivial⟩ rfl
  replace hrun : (machine pb _).Run Carries new (_ ++ [.server (.ends 0 svcs)]) _ :=
    hrun.snoc trivial ⟨⟨⟨_, rfl, rfl⟩, rfl⟩, trivial⟩ (exec_ends rfl hreply rfl)
  replace hrun : (machine pb _).Run Carries new (_ ++ [.answer 0 0 0]) _ :=
    hrun.snoc rfl (List.mem_append_right _ (List.mem_singleton_self _)) rfl
  replace hrun : (machine pb _).Run Carries new (_ ++ [.client 0 (.began 0 sOk (some 0))]) _ :=
    hrun.snoc ⟨fun _ => rfl, fun hne => absurd rfl hne⟩ ⟨_, _, rfl, rfl⟩ rfl
  replace hrun : (machine pb _).Run Carries new (_ ++ [.client 0 (.invoke 0)]) _ :=
    hrun.snoc ⟨by simp, .inl ⟨_, rfl⟩⟩ trivial rfl
  replace hrun : (machine pb _).Run Carries new (_ ++ [.client 0 (.wait 0)]) _ :=
    hrun.snoc trivial ⟨_, _, _, rfl, rfl⟩ rfl
  replace hrun : (machine pb _).Run Carries new (_ ++ [.client 0 (.finish 0 sOk (some reply))]) _ :=
    hrun.snoc (.inl ⟨_, rfl, rfl, rfl⟩) ⟨_, _, _, rfl, rfl⟩ rfl
  refine ⟨_, _, hrun, ?_, rfl, _, rfl, rfl, rfl⟩
  simp [serveLabels, Serve.serverLabels, Server.history, Server.History.extend, Server.History.new]

-- The law of the system, whatever the order of its steps and whatever the
-- transport delays or fails. No assertion fails. No operation is run by two
-- coroutines, and each coroutine runs the message of the operation it belongs
-- to. An operation that succeeds was run, and is told the reply to its own
-- message.
theorem calls_run_at_most_once (hrun : (machine pb names).Run Carries new labels s) :
    (∀ label, Carries labels s label → s.Enabled names label →
      ∃ next, exec pb s label = .ok next) ∧
    (s.serve.ex.handlers.map fun handler => handler.req.callback).Nodup ∧
    (∀ handler ∈ s.serve.ex.handlers, handler.req.callback.1 = handler.req.connId ∧
      ∃ op, (s.clients handler.req.connId).ops[handler.req.callback.2]? = some op ∧
        op.req = handler.req.msg) ∧
    ∀ j i op, (s.clients j).ops[i]? = some op → ∀ reply, (sOk, reply) ∈ op.handled →
      op.handled = [(sOk, reply)] ∧
      ∃ handler ∈ s.serve.ex.handlers, ∃ svcs answer, handler.req.callback = (j, i) ∧
        handler.ended = some svcs ∧ (execute pb svcs (some op.req)).result = .ok answer ∧
        reply = some answer := by
  have h := run_linked hrun
  refine ⟨?_, h.callbacks_nodup, fun handler hmem => h.sent _ (h.handler_posted hmem), ?_⟩
  · intro label hallow henabled
    obtain ⟨next, hx, -⟩ := exec_linked h hallow henabled
    exact ⟨next, hx⟩
  · intro j i op hop reply hmem
    obtain ⟨answer, rfl, hreplied⟩ := h.success hop hmem
    obtain ⟨handler, hin, svcs, hcallback, hended, hok⟩ := h.replied j i answer hreplied
    rw [h.handler_sent hin hop hcallback] at hok
    exact ⟨h.told_once hop hmem, handler, hin, svcs, answer, hcallback, hended, hok, rfl⟩

theorem calls_run_at_most_once_called :
    ∃ (labels : List (SystemLabel Unit)) (s : System Unit),
      (machine stringProtobuf [lit "pkg.Foo"]).Run Carries new labels s ∧
      ∃ reply, (execute stringProtobuf [namedService "pkg.Foo"]
          (some (ExServer.messageTo "/pkg.Foo/M"))).result = .ok reply ∧
        ∃ op, (s.clients 0).ops[0]? = some op ∧ op.handled = [(sOk, some reply)] := by
  have hok : (execute stringProtobuf [namedService "pkg.Foo"]
      (some (ExServer.messageTo "/pkg.Foo/M"))).result.toOption.isSome = true := by decide
  obtain ⟨reply, hreply⟩ : ∃ reply, (execute stringProtobuf [namedService "pkg.Foo"]
      (some (ExServer.messageTo "/pkg.Foo/M"))).result = .ok reply := by
    cases hresult : (execute stringProtobuf [namedService "pkg.Foo"]
        (some (ExServer.messageTo "/pkg.Foo/M"))).result with
    | ok reply => exact ⟨reply, rfl⟩
    | error exn => exact absurd (hresult ▸ hok) (by simp [Except.toOption])
  obtain ⟨labels, s, hrun, -, hhandlers, op, hop, hreq, hhandled⟩ :=
    run_called stringProtobuf hreply
  have hmem : (sOk, some reply) ∈ op.handled := by
    rw [hhandled]
    exact List.mem_singleton_self _
  obtain ⟨-, -, -, htold⟩ := calls_run_at_most_once hrun
  obtain ⟨honce, handler, hin, svcs, answer, -, hended, hanswer, heq⟩ := htold 0 0 op hop _ hmem
  rw [hhandlers, List.mem_singleton] at hin
  subst hin
  obtain rfl := Option.some.inj hended
  rw [hreq] at hanswer
  exact ⟨labels, s, hrun, answer, hanswer, op, hop, heq ▸ honce⟩

section Quiet

theorem serve_quiet (hquiet : (machine pb names).Quiet Carries Finishes labels s) :
    (Serve.machine pb names).Quiet Serve.Dependable (fun label => ¬Serve.Callback label)
      (serveLabels labels) s.serve := by
  intro label hown hallow henabled
  have hfinishes : Finishes (.server label : SystemLabel κ) ∧ Carries labels s (.server label) := by
    cases label with
    | server l =>
        cases l with
        | processConnect clientId callback => exact absurd trivial hown
        | processDisconnect clientId callback => exact absurd trivial hown
        | processRequest clientId message callback => exact absurd trivial hown
        | _ => exact ⟨trivial, hallow⟩
    | ends i svcs => exact ⟨trivial, hallow⟩
  exact hquiet _ hfinishes.1 hfinishes.2 henabled

variable {j i : ℕ} {op : SendOp TransportMessage ℕ}

-- The server has answered a request, unless a service threw on it.
theorem Linked.fired_of_quiet (h : Linked pb names labels s)
    (hquiet : (machine pb names).Quiet Carries Finishes labels s)
    (hop : (s.clients j).ops[i]? = some op) (hposted : s.calls j i = .posted)
    (hthrow : ∀ handler ∈ s.serve.ex.handlers, handler.req.callback = (j, i) → ∀ svcs,
      handler.ended = some svcs → ¬Throws pb svcs (some op.req)) :
    ∃ n, ((j, i), ContextRef.request n) ∈ s.serve.ex.server.fired := by
  obtain ⟨⟨ls, htracks⟩, hsound⟩ := h.tracks
  obtain ⟨req, hreq, hcallback⟩ := h.given j i hposted
  have hwaits := htracks.waits (serve_quiet hquiet)
  obtain ⟨handler, hmem, rfl⟩ := htracks.handled hwaits hreq
  obtain ⟨svcs, hended⟩ := Option.ne_none_iff_exists'.mp (hwaits.handlers handler hmem)
  have hnot := hthrow handler hmem hcallback svcs hended
  rw [← h.handler_sent hmem hop hcallback] at hnot
  have hfired := ((hsound.answered_iff hmem hended).mpr hnot).fired
  refine ⟨handler.req.ctx, ?_⟩
  have hin : (handler.req.callback, ContextRef.request handler.req.ctx) ∈
      s.serve.ex.server.fired.filter (·.2 = .request handler.req.ctx) := by
    rw [hfired]
    exact List.mem_singleton_self _
  rw [← hcallback]
  exact List.mem_of_mem_filter hin

theorem Linked.completed_of_quiet (h : Linked pb names labels s)
    (hquiet : (machine pb names).Quiet Carries Finishes labels s)
    (hop : (s.clients j).ops[i]? = some op)
    (hconnected : ((Server.history (Serve.serverLabels (serveLabels labels))).current j).isSome)
    (hthrow : ∀ handler ∈ s.serve.ex.handlers, handler.req.callback = (j, i) → ∀ svcs,
      handler.ended = some svcs → ¬Throws pb svcs (some op.req)) : op.phase = .completed := by
  have hsound := (ClientConnection.run_concurrent (h.clients j)).sound i op hop
  have htold := hsound.told
  cases hphase : op.phase with
  | composed => exact absurd ⟨op, hop, hphase⟩ (hquiet (.client j (.begin i)) trivial trivial)
  | beginning ev =>
      exact absurd ⟨op, ev, hop, hphase⟩ (hquiet (.client j (.began i sOk (some i))) trivial
        ⟨fun _ => rfl, fun hne => absurd rfl hne⟩)
  | begun ev ctx =>
      exact absurd ⟨op, ev, ctx, hop, hphase⟩ (hquiet (.client j (.wait i)) trivial trivial)
  | waiting ev ctx fired =>
      simp only [SendOp.Told, hphase] at htold
      obtain ⟨-, hset, hsent, hbegan, -⟩ := htold
      have hbegun : s.Begun j i := by
        refine ⟨op, hop, by simp [hsent], ?_⟩
        intro hr ctx' hbegan'
        exact (Prod.mk.inj (Option.some.inj (hbegan'.symm.trans hbegan))).1
      have hsettled : s.Settled j i := by
        cases hcalls : s.calls j i with
        | idle =>
            exact absurd ⟨⟨trivial, by simp⟩, trivial⟩
              (hquiet (.server (.server (.processRequest j op.req (j, i)))) trivial
                ⟨hconnected, rfl, hcalls, hbegun, op, sendTimeout, hop, by simp [hsent]⟩)
        | posted =>
            obtain ⟨n, hfired⟩ := h.fired_of_quiet hquiet hop hcalls hthrow
            exact absurd hfired (hquiet (.answer j i n) trivial hcalls)
        | replied reply => exact .inl ⟨reply, hcalls⟩
        | broken hr => exact .inr ⟨hr, hcalls⟩
      cases fired with
      | true =>
          rcases hsettled with ⟨reply, hreply⟩ | ⟨hr, hbroken⟩
          · exact absurd ⟨op, ev, ctx, hop, hphase⟩
              (hquiet (.client j (.finish i sOk (some reply))) trivial
                (.inl ⟨reply, hreply, rfl, rfl⟩))
          · exact absurd ⟨op, ev, ctx, hop, hphase⟩
              (hquiet (.client j (.finish i hr none)) trivial (.inr ⟨hbroken, rfl⟩))
      | false =>
          have hnot : .client j (.invoke i) ∉ labels := by
            rw [← mem_clientLabels, ← hsound.invoked, ← hset]
            simp
          exact absurd trivial (hquiet (.client j (.invoke i)) trivial ⟨hnot, hsettled⟩)
  | completed => rfl

-- Where nothing is left to do but to send, to connect and to give up, every
-- operation of a connected client is done: its BeginRequest has failed, the
-- transport has given it up, or it has the reply of the one coroutine that has
-- run it.
theorem Linked.done_of_quiet (h : Linked pb names labels s)
    (hquiet : (machine pb names).Quiet Carries Finishes labels s)
    (hop : (s.clients j).ops[i]? = some op)
    (hconnected : ((Server.history (Serve.serverLabels (serveLabels labels))).current j).isSome)
    (hthrow : ∀ handler ∈ s.serve.ex.handlers, handler.req.callback = (j, i) → ∀ svcs,
      handler.ended = some svcs → ¬Throws pb svcs (some op.req)) :
    op.BeginFailed ∨ (∃ hr, .giveUp j i hr ∈ labels ∧ op.handled = [(hr, none)]) ∨
      ∃ reply, op.handled = [(sOk, some reply)] ∧ s.Replied pb j i reply := by
  have hphase := h.completed_of_quiet hquiet hop hconnected hthrow
  rcases (ClientConnection.run_concurrent (h.clients j)).told_cases (List.mem_of_getElem? hop) with
    ⟨hne, -⟩ | ⟨-, -, ⟨hr, ctx, hfailed, hbegan, -⟩ | ⟨ctx, hr, reply, -, -, hone⟩⟩
  · exact absurd hphase hne
  · exact .inl ⟨hr, ctx, hbegan, hfailed⟩
  · have hmem : (hr, reply) ∈ op.handled := by
      rw [hone]
      exact List.mem_singleton_self _
    rcases h.handled j i op hr reply hop hmem with hbegin | ⟨-, houtcome⟩
    · exact .inl hbegin
    · rcases houtcome with ⟨answer, hreplied, rfl, rfl⟩ | ⟨hbroken, rfl⟩
      · exact .inr (.inr ⟨answer, hone, h.replied j i answer hreplied⟩)
      · exact .inr (.inl ⟨hr, (h.broken j i hr hbroken).2, hone⟩)

-- Every call comes back. The steps that finish what was sent are bounded by what
-- was sent and connected, whatever their order, and never fail. Where none of
-- them is left, each operation of a client that is connected is done, unless a
-- service threw on it.
theorem calls_come_back (hrun : (machine pb names).Run Carries new labels s) :
    labels.countP (fun label => Finishes label) ≤ 3 + 7 * connects labels + 13 * sends labels ∧
    (∃ more t, (∀ label ∈ more, Finishes label) ∧
      (machine pb names).Run Carries new (labels ++ more) t ∧
      (machine pb names).Quiet Carries Finishes (labels ++ more) t) ∧
    ((machine pb names).Quiet Carries Finishes labels s →
      ∀ j i op, (s.clients j).ops[i]? = some op →
        ((Server.history (Serve.serverLabels (serveLabels labels))).current j).isSome →
        (∀ handler ∈ s.serve.ex.handlers, handler.req.callback = (j, i) → ∀ svcs,
          handler.ended = some svcs → ¬Throws pb svcs (some op.req)) →
        op.BeginFailed ∨ (∃ hr, .giveUp j i hr ∈ labels ∧ op.handled = [(hr, none)]) ∨
          ∃ reply, op.handled = [(sOk, some reply)] ∧ s.Replied pb j i reply) :=
  ⟨finishes_le hrun, run_quiets hrun, fun hquiet _ _ _ hop hconnected hthrow =>
    (run_linked hrun).done_of_quiet hquiet hop hconnected hthrow⟩

theorem posted_subset (labels more : List (SystemLabel κ)) :
    posted labels ⊆ posted (labels ++ more) := by
  induction more using List.reverseRecOn with
  | nil => rw [List.append_nil]; exact List.Subset.refl _
  | append_singleton more label ih =>
      rw [← List.append_assoc]
      by_cases hlabel : ∃ j message callback,
          label = .server (.server (.processRequest j message callback))
      · obtain ⟨j, message, callback, rfl⟩ := hlabel
        rw [posted_snoc]
        exact List.subset_append_of_subset_left _ ih
      · rw [posted_snoc_ne fun j message callback heq => hlabel ⟨j, message, callback, heq⟩]
        exact ih

theorem current_finishes (labels : List (SystemLabel κ)) {more : List (SystemLabel κ)}
    (hmore : ∀ label ∈ more, Finishes label) :
    (Server.history (Serve.serverLabels (serveLabels (labels ++ more)))).current =
      (Server.history (Serve.serverLabels (serveLabels labels))).current := by
  induction more using List.reverseRecOn with
  | nil => rw [List.append_nil]
  | append_singleton more label ih =>
      rw [← List.append_assoc, ← ih fun other hother => hmore other (by simp [hother])]
      have hlabel := hmore label (by simp)
      cases label with
      | server l =>
          rw [serveLabels_snoc]
          cases l with
          | ends i svcs => simp [Serve.serverLabels]
          | server l =>
              rw [Serve.serverLabels_snoc, Server.history_snoc]
              cases l with
              | processConnect clientId callback => exact absurd hlabel id
              | processDisconnect clientId callback => exact absurd hlabel id
              | _ => rfl
      | _ => rw [serveLabels_snoc_ne (by simp)]

-- The call above in a quiet state, of a server without services.
theorem calls_come_back_called :
    ∃ (labels : List (SystemLabel Unit)) (s : System Unit) (op : SendOp TransportMessage ℕ),
      (machine stringProtobuf []).Run Carries new labels s ∧
      (machine stringProtobuf []).Quiet Carries Finishes labels s ∧
      (s.clients 0).ops[0]? = some op ∧
      (op.BeginFailed ∨ (∃ hr, .giveUp 0 0 hr ∈ labels ∧ op.handled = [(hr, none)]) ∨
        ∃ reply, op.handled = [(sOk, some reply)] ∧ s.Replied stringProtobuf 0 0 reply) := by
  have hreply : (execute stringProtobuf ([] : List (Service Unit))
      (some (ExServer.messageTo "/pkg.Foo/M"))).result = .ok (makeReply stringProtobuf
        (AbslStatus.unimplementedError (lit "url not found")) []) := by rfl
  obtain ⟨labels, s, hrun, hconnected, hhandlers, -⟩ := run_called stringProtobuf hreply
  obtain ⟨more, t, hmore, hrun', hquiet⟩ := (calls_come_back hrun).2.1
  have h := run_linked hrun'
  have hposted : (⟨0, ExServer.messageTo "/pkg.Foo/M", (0, 0), 0⟩ : Request _ _ _) ∈
      posted (labels ++ more) := by
    apply posted_subset labels more
    exact (run_linked hrun).handler_posted (by rw [hhandlers]; exact List.mem_singleton_self _)
  obtain ⟨-, op, hop, -⟩ := h.sent _ hposted
  refine ⟨_, t, op, hrun', hquiet, hop, (calls_come_back hrun').2.2 hquiet 0 0 op hop ?_ ?_⟩
  · rw [current_finishes labels hmore]
    exact hconnected
  · rintro handler hmem - svcs hended ⟨-, -, svc, exn, hfind, -⟩
    have hnames := Serve.run_registered h.serve handler hmem svcs hended
    obtain rfl := List.map_eq_nil_iff.mp hnames
    exact absurd hfind (by simp)

end Quiet

end FabricRpc.V2.System
