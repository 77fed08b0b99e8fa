import FabricRpc.Interop

namespace FabricRpc

open Lib

variable {σ : Type*} {Msg : σ → Type*} {pb : Protobuf σ Msg}

section Requests

variable {Req : Type*} {codec : Codec Req} {url : Bytes} {request : Req}

-- Both clients send the same message.
theorem makeRequest_eq (hheader : pb.requestHeader.Serializes ⟨url⟩)
    (hrequest : codec.Serializes request) :
    V1.makeRequest pb codec url request = .ok (V2.makeRequest pb codec url request) := by
  simp only [V1.makeRequest, V1.serializeRequestHeader, Codec.serializeToString_eq hheader,
    Codec.serializeToString_eq hrequest, Bool.not_true, Bool.false_eq_true, if_false]
  rfl

end Requests

-- What a client of the second stack is to see in a reply of the first.
def V2Sees (pb : Protobuf σ Msg) (reply : TransportMessage) :
    Except V1.Status (Sigma Msg) → Prop
  | .error st => ∀ t (old : Msg t), V2.onReply pb (pb.payload t) 0 (some reply) (some old) =
      (⟨0, .make st.errorCode st.errorMessage⟩, some old)
  | .ok proto => ∀ old : Msg proto.1,
      V2.onReply pb (pb.payload proto.1) 0 (some reply) (some old) =
        (⟨0, V2.AbslStatus.okStatus⟩, some proto.2)

def CanonicalOutcome : Except V1.Status (Sigma Msg) → Prop
  | .error st => Canonical st.errorCode
  | .ok _ => True

theorem v2Sees_replyOf (hpb : pb.Lawful) {outcome : Except V1.Status (Sigma Msg)}
    (hvalid : V1.ValidOutcome pb outcome) (hcanonical : CanonicalOutcome outcome)
    (hser : V1.Serializable pb outcome) : V2Sees pb (V1.replyOf pb outcome) outcome := by
  cases outcome with
  | error st =>
      obtain ⟨hfailed, hutf8⟩ := hvalid
      intro t old
      have hread := parseReplyHeader_makeReply hpb hcanonical hutf8 hser []
      have hne : st.errorCode ≠ 0 := V1.Status.failed_iff.mp hfailed
      have hnot : (V2.AbslStatus.make st.errorCode st.errorMessage).ok = false := by
        simp [V2.AbslStatus.make, V2.AbslStatus.ok, hne]
      simp only [V1.replyOf, V2.onReply, ne_eq, not_true, if_false, hread, hnot, Bool.not_false,
        if_true]
  | ok proto =>
      obtain ⟨hheader, hresponse⟩ := hser
      intro old
      have hagree := agree_ok hpb (hpb.payload proto.1) hheader hvalid hresponse old
      have hv1 := V1.execClientEnd_ok hpb (hpb.payload proto.1) hheader hvalid hresponse old
      simp only [ClientsAgree, hv1] at hagree
      obtain ⟨hec, hok, hresponse⟩ := hagree
      have hst := V2.AbslStatus.eq_okStatus hok
      exact Prod.ext (congrArg₂ V2.RpcCompletion.mk hec hst) hresponse

variable {υ : Type*} {svcList : List (V1.GeneratedService σ)} {timeoutMilliseconds : UInt32}
  {s : V1.Request σ υ Msg} {call : V1.EndCall σ υ Msg}

-- A message of the second stack's client is one that ExecClientBegin could send.
theorem sentTo_makeRequest {url : Bytes} {ec : V1.Status} {ops : V1.Ops σ}
    {op : V1.Operation σ} {request : Msg op.proto}
    (hroute : V1.router (svcList.map V1.GeneratedService.route) url ⟨none, none⟩ = (ec, ops))
    (hec : ec.failed = false) (hop : ops.beginOp = some op)
    (hheader : pb.requestHeader.Serializes ⟨url⟩)
    (hrequest : (pb.payload op.proto).Serializes request) :
    V1.SentTo pb (V1.router (svcList.map V1.GeneratedService.route))
      (some (V2.makeRequest pb (pb.payload op.proto) url request)) op request := by
  refine ⟨url, ec, ops, 0, 0, fun _ _ => 0, _, V1.newTimeout 0 0, hroute, hec, hop, ?_, rfl⟩
  rw [V1.execClientBegin, makeRequest_eq hheader hrequest]

-- A client of the second stack over a server of the first. The user's Begin gets
-- the request that the client was called with, and the client completes as the
-- user says, whatever the order of Begin, callback and End.
theorem v2_client_of_v1_server [DecidableEq υ] (hpb : pb.Lawful) {url : Bytes} {ec : V1.Status}
    {ops : V1.Ops σ} {op : V1.Operation σ} {request : Msg op.proto}
    (hroute : V1.router (svcList.map V1.GeneratedService.route) url ⟨none, none⟩ = (ec, ops))
    (hec : ec.failed = false) (hop : ops.beginOp = some op)
    (hheader : pb.requestHeader.Serializes ⟨url⟩)
    (hrequest : (pb.payload op.proto).Serializes request)
    (hvalid : pb.stringsValid op.proto request) {labels : List (V1.RequestLabel σ υ Msg)}
    (hrun : (V1.requestMachine pb (V1.router (svcList.map V1.GeneratedService.route))
      (some (V2.makeRequest pb (pb.payload op.proto) url request)) timeoutMilliseconds).Run
        V1.Request.Contract V1.Request.new labels s)
    (hcall : call ∈ s.ends) {reply : TransportMessage} (hpc : call.pc = .finished reply)
    (huser : V1.UserValid pb s call) :
    (∃ timeout, s.beginCalls = [⟨op, ⟨op.proto, request⟩, timeout⟩]) ∧
    ∃ outcome, V1.Outcome pb (V1.router (svcList.map V1.GeneratedService.route))
        (.copyMsg (some (V2.makeRequest pb (pb.payload op.proto) url request)))
        timeoutMilliseconds s call outcome ∧
      V1.FromUser s call outcome ∧
      (CanonicalOutcome outcome → V1.Serializable pb outcome → V2Sees pb reply outcome) := by
  have hreports := (V1.Request.generated_sound hrun).reports hcall hpc
  obtain ⟨outcome, hended, houtcome, hreply⟩ := V1.outcome_of_reports hpb hreports huser
  have hsent := sentTo_makeRequest hroute hec hop hheader hrequest
  obtain ⟨hbegan, hfrom⟩ := hsent.from_user hpb hvalid hreports hended
  refine ⟨hbegan, outcome, hended, hfrom, ?_⟩
  intro hcanonical hser
  rw [hreply hser]
  exact v2Sees_replyOf hpb houtcome hcanonical hser

open V1.Request (todo todoMachine reentrant) in
-- The user invokes the callback inside Begin, and End finds what was asked for.
theorem v2_client_of_v1_server_todo :
    ∃ (s : V1.Request Unit ℕ fun _ => Bytes) (reply : TransportMessage),
      s.ends.map V1.EndCall.pc = [.finished reply] ∧
      V2.onReply stringProtobuf (stringProtobuf.payload ()) 0 (some reply) (some (lit "old")) =
        (⟨0, V2.AbslStatus.okStatus⟩, some (lit "found")) ∧
      ∃ timeout, s.beginCalls = [⟨⟨todo.package, todo.service, ⟨lit "Find", by decide⟩, ()⟩,
        ⟨(), lit "milk"⟩, timeout⟩] := by
  let call : V1.EndCall Unit ℕ fun _ => Bytes :=
    ⟨.finished (V1.endReply stringProtobuf .ok ⟨(), lit "found"⟩),
      [(⟨todo.package, todo.service, ⟨lit "Find", by decide⟩, ()⟩, some (.user 7))],
      some (.ok, ⟨(), lit "found"⟩)⟩
  obtain ⟨s, hs, hends, houtcome⟩ : ∃ s,
      todoMachine.reaches V1.Request.Contract [] .new (reentrant .ok) = some s ∧
      s.ends = [call] ∧ s.outcome = some (.ok, some 7) := ⟨_, rfl, rfl, rfl⟩
  have hrun := Machine.Run.nil.reaches hs
  have huser : V1.UserValid stringProtobuf s call := by
    refine ⟨?_, ?_, ?_⟩
    · intro st hst
      rw [houtcome] at hst
      cases hst
    · intro st proto hresult hfailed
      cases hresult
      cases hfailed
    · intro st proto hresult _
      cases hresult
      rfl
  have hroute : V1.router ([todo].map V1.GeneratedService.route) (lit "/todolist.Todo/Find")
      ⟨none, none⟩ = (.ok, ⟨some ⟨todo.package, todo.service, ⟨lit "Find", by decide⟩, ()⟩,
        some ⟨todo.package, todo.service, ⟨lit "Find", by decide⟩, ()⟩⟩) := rfl
  obtain ⟨hbegan, outcome, hended, -, hsees⟩ :=
    v2_client_of_v1_server stringProtobuf_lawful hroute rfl rfl rfl
      (show (stringProtobuf.payload ()).Serializes (lit "milk") from rfl) rfl hrun
      (by simp [hends]) (show call.pc = _ from rfl) huser
  obtain rfl : outcome = .ok ⟨(), lit "found"⟩ := by
    cases hended with
    | beginFailed st _ _ hresult => cases hresult
    | endFailed st proto hfailed hresult =>
        cases hresult
        cases hfailed
    | responded st proto _ hresult =>
        cases hresult
        rfl
  exact ⟨s, _, by rw [hends]; rfl, hsees trivial ⟨rfl, rfl⟩ (lit "old"), hbegan⟩

section Server

variable {svcs : List (V2.Service (V2.HandlerCall Msg))} {svc : V2.GeneratedService Msg}
  {method : V2.GeneratedMethod Msg} {url : Bytes} {request : Msg method.request}
  {st : V2.AbslStatus} {response : Msg method.response}

-- The middleware on a message that it routes to a method.
theorem execute_routed (hpb : pb.Lawful)
    (hroute : svcs.find? (fun other => other.name.isPrefixOf (url.drop 1)) =
      some (svc.toService pb))
    (hmethod : svc.methods.find? (fun other => url == svc.url other) = some method)
    (hhandler : method.handler request = .ok (st, response))
    (hrequestValid : pb.stringsValid method.request request)
    (hheader : pb.requestHeader.Serializes ⟨url⟩)
    (hrequest : (pb.payload method.request).Serializes request)
    (hresponse : st.ok = true → (pb.payload method.response).Serializes response) :
    V2.execute pb svcs (some (V2.makeRequest pb (pb.payload method.request) url request)) =
      ⟨[svc.name], [⟨url, method.request, request⟩], .ok (V2.makeReply pb st
        (if st.ok then (pb.payload method.response).serializeAsString response else []))⟩ := by
  have hurl : url = svc.url method := by simpa using List.find?_some hmethod
  have hutf8 : validUtf8 url = true := by
    rw [hurl]
    exact methodUrl_valid svc.package svc.service method.name
  have hstart : (lit "/").isPrefixOf url = true := by
    rw [List.isPrefixOf_iff_prefix, hurl]
    exact ⟨svc.package.scope ++ svc.service.bytes ++ lit "/" ++ method.name.bytes, by
      simp [V2.GeneratedService.url, methodUrl]⟩
  have hreq : V2.parseRequestHeader pb (getHeader (some (V2.makeRequest pb
      (pb.payload method.request) url request))) = (V2.AbslStatus.okStatus, url) := by
    rw [V2.getHeader_makeRequest hpb, V2.parseRequestHeader_serialize hpb hutf8 hheader]
  have hexecution := V2.codegenHandlerHelper_serialize (hpb.payload method.request) hrequestValid
    hrequest hhandler hresponse (pb.empty method.request)
  rw [V2.execute, V2.executeInner_of_url hreq V2.AbslStatus.ok_okStatus hstart,
    V2.dispatch_of_find hroute, V2.getBody_makeRequest (hpb.payload method.request)]
  simp only [V2.GeneratedService.toService, V2.GeneratedService.execute, hmethod, hexecution]
  rfl

theorem execClientEnd_silent (hpb : pb.Lawful) {Resp : Type*} (codec : Codec Resp)
    (hok : st.ok = true) (respStr : Bytes) (old : Resp) :
    V1.execClientEnd pb codec 0 (some (V2.makeReply pb st respStr)) old =
      (.make V1.StatusCode.UNKNOWN (lit "Server returned empty header"), old) := by
  obtain rfl := V2.AbslStatus.eq_okStatus hok
  have hser : pb.replyHeader.Serializes
      ⟨V2.AbslStatus.okStatus.rawCode, V2.AbslStatus.okStatus.message⟩ :=
    congrArg Prod.snd hpb.replyHeader.serialize_empty
  have hheader : getHeader (some (V2.makeReply pb V2.AbslStatus.okStatus respStr)) = [] := by
    rw [V2.getHeader_makeReply hpb hser]
    exact V2.serialize_ok_header hpb
  simp [V1.execClientEnd, FRPCTransportMessage.copyMsg, FRPCTransportMessage.init, hheader]

-- A client of the first stack over a server of the second. The user's method runs
-- once on the request that the client was called with. A failure gets back as it
-- is. A success is taken for a broken reply, and the response is lost.
theorem v1_client_of_v2_server (hpb : pb.Lawful)
    (hroute : svcs.find? (fun other => other.name.isPrefixOf (url.drop 1)) =
      some (svc.toService pb))
    (hmethod : svc.methods.find? (fun other => url == svc.url other) = some method)
    (hhandler : method.handler request = .ok (st, response))
    (hmessage : validUtf8 st.message = true)
    (hrequestValid : pb.stringsValid method.request request)
    (hresponse : st.ok = true → (pb.payload method.response).Serializes response)
    (hreply : pb.replyHeader.Serializes ⟨st.rawCode, st.message⟩) {message : TransportMessage}
    (hsent : V1.makeRequest pb (pb.payload method.request) url request = .ok message)
    (old : Msg method.response) :
    let run := V2.execute pb svcs (some message)
    run.handled = [⟨url, method.request, request⟩] ∧ ∃ reply, run.result = .ok reply ∧
      V1.execClientEnd pb (pb.payload method.response) 0 (some reply) old =
        (if st.ok then .make V1.StatusCode.UNKNOWN (lit "Server returned empty header")
          else .make st.rawCode st.message, old) := by
  obtain ⟨hheader, hrequest, -⟩ := V1.makeRequest_ok hsent
  obtain rfl := Except.ok.inj (hsent.symm.trans (makeRequest_eq hheader hrequest))
  have hrun := execute_routed hpb hroute hmethod hhandler hrequestValid hheader hrequest hresponse
  intro run
  refine ⟨congrArg V2.Dispatch.handled hrun, _, congrArg V2.Dispatch.result hrun, ?_⟩
  cases hok : st.ok with
  | true =>
      rw [if_pos rfl, if_pos rfl]
      exact execClientEnd_silent hpb _ hok _ old
  | false =>
      have hfailed : (V1.Status.make st.rawCode st.message).failed = true := by
        simpa [V2.AbslStatus.ok, V1.StatusCode.OK] using hok
      rw [makeReply_eq]
      exact V1.execClientEnd_failed hpb hfailed hreply hmessage _ old

theorem v1_client_of_v2_server_hello :
    ∃ message reply, V1.makeRequest stringProtobuf (stringProtobuf.payload ())
        (lit "/helloworld.FabricHello/SayHello") (lit "myname") = .ok message ∧
      (V2.execute stringProtobuf [V2.fabricHello.toService stringProtobuf]
        (some message)).result = .ok reply ∧
      V1.execClientEnd stringProtobuf (stringProtobuf.payload ()) 0 (some reply) (lit "old") =
        (.make V1.StatusCode.UNKNOWN (lit "Server returned empty header"), lit "old") := by
  have hroute : [V2.fabricHello.toService stringProtobuf].find? (fun other =>
      other.name.isPrefixOf ((lit "/helloworld.FabricHello/SayHello").drop 1)) =
      some (V2.fabricHello.toService stringProtobuf) := rfl
  have hmethod : V2.fabricHello.methods.find? (fun other =>
      lit "/helloworld.FabricHello/SayHello" == V2.fabricHello.url other) = some V2.sayHello := rfl
  have hhandler : V2.sayHello.handler (lit "myname") =
      .ok (V2.AbslStatus.okStatus, lit "Hellomyname") := rfl
  obtain ⟨message, hsent⟩ : ∃ message, V1.makeRequest stringProtobuf (stringProtobuf.payload ())
      (lit "/helloworld.FabricHello/SayHello") (lit "myname") = .ok message := ⟨_, rfl⟩
  obtain ⟨-, reply, hresult, hclient⟩ := v1_client_of_v2_server stringProtobuf_lawful hroute
    hmethod hhandler rfl rfl (fun _ => rfl) rfl hsent (lit "old")
  exact ⟨message, reply, hsent, hresult, hclient⟩

end Server

end FabricRpc
