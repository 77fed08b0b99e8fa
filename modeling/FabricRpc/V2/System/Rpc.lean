import FabricRpc.V2.System.Calls

namespace FabricRpc.V2.System

open Lib AbslStatus

variable {σ : Type*} {Msg : σ → Type*} {pb : Protobuf σ Msg} {names : List Bytes}
  {s : System (HandlerCall Msg)} {labels : List (SystemLabel (HandlerCall Msg))}

-- A typed call from end to end, whatever other calls do meanwhile. A call of
-- a method that succeeds for async_send has run the user's implementation once,
-- in one coroutine, on the request of the caller. The caller is told the status
-- of the implementation, which has a canonical code and a message of valid UTF-8,
-- and has the response if that is OK.
theorem rpc_runs_method_once (hpb : pb.Lawful)
    (hrun : (machine pb names).Run Carries new labels s) {j i : ℕ}
    {op : SendOp TransportMessage ℕ} (hop : (s.clients j).ops[i]? = some op)
    {svc : GeneratedService Msg} {method : GeneratedMethod Msg} {url : Bytes}
    {request : Msg method.request} {st : AbslStatus} {response : Msg method.response}
    (hreq : op.req = makeRequest pb (pb.payload method.request) url request)
    (hroute : ∀ handler ∈ s.serve.ex.handlers, handler.req.callback = (j, i) →
      ∀ svcs, handler.ended = some svcs →
        svcs.find? (fun other => other.name.isPrefixOf (url.drop 1)) = some (svc.toService pb))
    (hmethod : svc.methods.find? (fun other => url == svc.url other) = some method)
    (hhandler : method.handler request = .ok (st, response))
    (hrange : 0 ≤ st.rawCode ∧ st.rawCode ≤ 16) (hmessage : validUtf8 st.message = true)
    (hrequestValid : pb.stringsValid method.request request)
    (hresponseValid : st.ok = true → pb.stringsValid method.response response)
    (hheader : pb.requestHeader.Serializes ⟨url⟩)
    (hrequest : (pb.payload method.request).Serializes request)
    (hresponse : st.ok = true → (pb.payload method.response).Serializes response)
    (hreply : pb.replyHeader.Serializes ⟨st.rawCode, st.message⟩)
    {reply : Option TransportMessage} (hmem : (sOk, reply) ∈ op.handled)
    (old : Msg method.response) :
    onReply pb (pb.payload method.response) sOk reply (some old) =
      (⟨0, st⟩, some (if st.ok then response else old)) ∧
    ∃ handler ∈ s.serve.ex.handlers, handler.req.callback = (j, i) ∧
      (∀ other ∈ s.serve.ex.handlers, other.req.callback = (j, i) → other = handler) ∧
      ∃ svcs, handler.ended = some svcs ∧
        (execute pb svcs (some handler.req.msg)).handled = [⟨url, method.request, request⟩] := by
  have h := run_linked hrun
  obtain ⟨answer, rfl, hreplied⟩ := h.success hop hmem
  obtain ⟨handler, hin, svcs, hcallback, hended, hok⟩ := h.replied j i answer hreplied
  have hsent := h.handler_sent hin hop hcallback
  rw [hsent, hreq] at hok
  obtain ⟨hhandled, made, hmade, hcompletion, -⟩ :=
    rpc_transparent hpb (hroute handler hin hcallback svcs hended) hmethod hhandler hrange hmessage
      hrequestValid hresponseValid hheader hrequest hresponse hreply old
  obtain rfl := Except.ok.inj (hmade.symm.trans hok)
  refine ⟨hcompletion, handler, hin, hcallback, ?_, svcs, hended, ?_⟩
  · intro other hother hsame
    exact List.inj_on_of_nodup_map h.callbacks_nodup hother hin (hsame.trans hcallback.symm)
  · rw [hsent, hreq]
    exact hhandled

-- One call of the example service.
theorem rpc_runs_method_once_hello :
    ∃ (labels : List (SystemLabel (HandlerCall fun _ : Unit => Bytes)))
      (s : System (HandlerCall fun _ : Unit => Bytes)) (reply : TransportMessage),
      (machine stringProtobuf ([fabricHello.toService stringProtobuf].map Service.name)).Run
        Carries new labels s ∧
      onReply stringProtobuf (stringProtobuf.payload ()) sOk (some reply) (some []) =
        (⟨0, okStatus⟩, some (lit "Hellomyname")) ∧
      ∃ handler ∈ s.serve.ex.handlers, ∃ svcs, handler.ended = some svcs ∧
        (execute stringProtobuf svcs (some handler.req.msg)).handled =
          [⟨lit "/helloworld.FabricHello/SayHello", (), lit "myname"⟩] := by
  obtain ⟨reply, hreply⟩ : ∃ reply, (execute stringProtobuf [fabricHello.toService stringProtobuf]
      (some (makeRequest stringProtobuf (stringProtobuf.payload ())
        (lit "/helloworld.FabricHello/SayHello") (lit "myname")))).result = .ok reply := ⟨_, by rfl⟩
  obtain ⟨labels, s, hrun, -, hhandlers, op, hop, hreq, hhandled⟩ :=
    run_called stringProtobuf hreply
  have hmem : (sOk, some reply) ∈ op.handled := by
    rw [hhandled]
    exact List.mem_singleton_self _
  have hroute : ∀ handler ∈ s.serve.ex.handlers, handler.req.callback = (0, 0) → ∀ svcs,
      handler.ended = some svcs → svcs.find? (fun other =>
        other.name.isPrefixOf ((lit "/helloworld.FabricHello/SayHello").drop 1)) =
          some (fabricHello.toService stringProtobuf) := by
    rintro handler hin - svcs hended
    rw [hhandlers, List.mem_singleton] at hin
    subst hin
    obtain rfl := Option.some.inj hended
    rfl
  have hmethod : fabricHello.methods.find? (fun other =>
      lit "/helloworld.FabricHello/SayHello" == fabricHello.url other) = some sayHello := rfl
  have hhandler : sayHello.handler (lit "myname") = .ok (okStatus, lit "Hellomyname") := rfl
  obtain ⟨hcompletion, handler, hin, -, -, svcs, hended, honce⟩ :=
    rpc_runs_method_once stringProtobuf_lawful hrun hop hreq hroute hmethod hhandler (by decide)
      rfl rfl (fun _ => rfl) rfl rfl (fun _ => rfl) rfl hmem []
  exact ⟨labels, s, reply, hrun, hcompletion, handler, hin, svcs, hended, honce⟩

end FabricRpc.V2.System
