import FabricRpc.Protobuf.Proto3
import FabricRpc.V2.Middleware
import FabricRpc.V2.RpcClient

namespace FabricRpc.V2

open Lib AbslStatus

variable {σ : Type*} {Msg : σ → Type*} {pb : Protobuf σ Msg}

section Wire

variable {Req Resp : Type*} {stringsValid : Req → Prop} {empty : Req} {codec : Codec Req}

theorem getHeader_makeRequest (hpb : pb.Lawful) (url : Bytes) (request : Req) :
    getHeader (some (makeRequest pb codec url request)) =
      pb.requestHeader.serializeAsString ⟨url⟩ := by
  have hlen := hpb.requestHeader.length_lt ⟨url⟩
  rw [makeRequest, getHeader_toolTransportMsg, bufferOf_eq (by omega)]

theorem getBody_makeRequest (hcodec : codec.Lawful stringsValid empty) (url : Bytes)
    (request : Req) :
    getBody (some (makeRequest pb codec url request)) = codec.serializeAsString request := by
  have hlen := hcodec.length_lt request
  rw [makeRequest, getBody_toolTransportMsg, bufferOf_eq (by omega)]

theorem getHeader_makeReply (hpb : pb.Lawful) {st : AbslStatus}
    (hst : pb.replyHeader.Serializes ⟨st.rawCode, st.message⟩) (respStr : Bytes) :
    getHeader (some (makeReply pb st respStr)) =
      pb.replyHeader.serializeAsString ⟨st.rawCode, st.message⟩ := by
  have hlen := hpb.replyHeader.length_lt ⟨st.rawCode, st.message⟩
  rw [makeReply, serializeReplyHeader_eq hst, getHeader_toolTransportMsg, bufferOf_eq (by omega)]

theorem getBody_makeReply {st : AbslStatus} {respStr : Bytes} (hlen : respStr.length < 2 ^ 32) :
    getBody (some (makeReply pb st respStr)) = respStr := by
  rw [getBody_makeReply_eq, bufferOf_eq hlen]

-- The client reads the status that the server replied with.
theorem parseReplyHeader_makeReply (hpb : pb.Lawful) {st : AbslStatus}
    (hrange : 0 ≤ st.rawCode ∧ st.rawCode ≤ 20) (hvalid : validUtf8 st.message = true)
    (hst : pb.replyHeader.Serializes ⟨st.rawCode, st.message⟩) (respStr : Bytes) :
    parseReplyHeader pb (getHeader (some (makeReply pb st respStr))) = st := by
  rw [getHeader_makeReply hpb hst, parseReplyHeader_serialize hpb hrange hvalid hst, make_self]

-- The client completes with that status, and takes the response if it is OK.
theorem onReply_makeReply (hpb : pb.Lawful) (hcodec : codec.Lawful stringsValid empty)
    {st : AbslStatus} (hrange : 0 ≤ st.rawCode ∧ st.rawCode ≤ 20)
    (hmessage : validUtf8 st.message = true)
    (hst : pb.replyHeader.Serializes ⟨st.rawCode, st.message⟩) {response : Req}
    (hvalid : st.ok = true → stringsValid response)
    (hresponse : st.ok = true → codec.Serializes response) (old : Req) :
    onReply pb codec 0
        (some (makeReply pb st (if st.ok then codec.serializeAsString response else [])))
        (some old) =
      (⟨0, st⟩, some (if st.ok then response else old)) := by
  have hstatus := parseReplyHeader_makeReply hpb hrange hmessage hst
    (if st.ok then codec.serializeAsString response else [])
  cases hok : st.ok with
  | true =>
      have hlen := hcodec.length_lt response
      have hparsed := parseProtoPayload_of_parsed
        (hcodec.parse_serializeAsString (hresponse hok) (hvalid hok)) old
      rw [hok] at hstatus
      simp only [if_true] at hstatus ⊢
      simp only [onReply, ne_eq, not_true, if_false, hstatus, hok, Bool.not_true,
        Bool.false_eq_true, getBody_makeReply (lt_trans hlen (by decide)), hparsed]
      rw [← eq_okStatus hok]
  | false =>
      rw [hok] at hstatus
      simp only [Bool.false_eq_true, if_false] at hstatus ⊢
      simp only [onReply, ne_eq, not_true, if_false, hstatus, hok, Bool.not_false, if_true]

end Wire

section Server

variable {κ : Type*}

section Answered

variable {svcs : List (Service κ)} {req : Option TransportMessage} {st : AbslStatus}

-- The request is routed to a service, which answers it with an OK status.
def Answered (pb : Protobuf σ Msg) (svcs : List (Service κ)) (req : Option TransportMessage) :
    Prop :=
  let (st, url) := parseRequestHeader pb (getHeader req)
  st.ok = true ∧ (lit "/").isPrefixOf url = true ∧
    ∃ svc resp, svcs.find? (fun svc => svc.name.isPrefixOf (url.drop 1)) = some svc ∧
      (svc.execute url (getBody req)).result = .ok (okStatus, resp)

-- The middleware has no OK status of its own.
theorem executeInner_ok_iff {respStr : Bytes}
    (h : (executeInner pb svcs req).result = .ok (st, respStr)) :
    st.ok = true ↔ Answered pb svcs req := by
  obtain ⟨parsed, url, hreq⟩ :
      ∃ parsed url, parseRequestHeader pb (getHeader req) = (parsed, url) :=
    ⟨_, _, rfl⟩
  simp only [Answered, hreq]
  by_cases hgood : parsed.ok = true ∧ (lit "/").isPrefixOf url = true
  · rw [executeInner_of_url hreq hgood.1 hgood.2] at h
    cases hfind : svcs.find? (fun svc => svc.name.isPrefixOf (url.drop 1)) with
    | none =>
        rw [dispatch_of_find_none hfind] at h
        obtain ⟨rfl, -⟩ := Prod.mk.inj (Except.ok.inj h)
        simp
    | some svc =>
        rw [dispatch_of_find hfind] at h
        constructor
        · intro hst
          rw [eq_okStatus hst] at h
          exact ⟨hgood.1, hgood.2, svc, respStr, rfl, h⟩
        · rintro ⟨-, -, other, resp, hother, hresult⟩
          obtain rfl := Option.some.inj hother
          obtain ⟨rfl, -⟩ := Prod.mk.inj (Except.ok.inj (h.symm.trans hresult))
          rfl
  · obtain ⟨err, herr, hbad⟩ := executeInner_of_bad_url svcs hreq hgood
    rw [hbad] at h
    obtain ⟨rfl, -⟩ := Prod.mk.inj (Except.ok.inj h)
    rw [herr]
    refine ⟨fun hok => absurd hok (by simp), ?_⟩
    rintro ⟨hparsed, hstart, -⟩
    exact absurd ⟨hparsed, hstart⟩ hgood

end Answered

-- The generated code decodes the body, calls the handler and encodes what it
-- answers, or nothing if it fails.
theorem codegenHandlerHelper_serialize {Req Resp : Type*} {reqProto : Codec Req}
    {replyProto : Codec Resp} {stringsValid : Req → Prop} {empty : Req}
    (hcodec : reqProto.Lawful stringsValid empty) {request : Req}
    {fn : Req → Except Exn (AbslStatus × Resp)} {st : AbslStatus} {response : Resp}
    (hvalid : stringsValid request) (hrequest : reqProto.Serializes request)
    (hfn : fn request = .ok (st, response))
    (hresponse : st.ok = true → replyProto.Serializes response) (p1 : Req) :
    codegenHandlerHelper reqProto replyProto p1 (reqProto.serializeAsString request) fn =
      ⟨[request], .ok (st, if st.ok then replyProto.serializeAsString response else [])⟩ := by
  have hparsed := parseProtoPayload_of_parsed
    (hcodec.parse_serializeAsString hrequest hvalid) p1
  cases hst : st.ok with
  | true =>
      have hserialized := serializeProtoPayload_of_serializes (hresponse hst) []
      have heq : st = okStatus := eq_okStatus hst
      simp [codegenHandlerHelper, hparsed, hfn, heq, hserialized]
  | false => simp [codegenHandlerHelper, hparsed, hfn, hst]

end Server

-- The law of the second stack. A call of a method that the middleware routes
-- to its generated service hands the request to the user's implementation once
-- and completes with its status. The caller's reply object is the response if
-- the status is OK, and is untouched otherwise.
theorem rpc_transparent (hpb : pb.Lawful) {svcs : List (Service (HandlerCall Msg))}
    {svc : GeneratedService Msg} {method : GeneratedMethod Msg} {url : Bytes}
    (hroute : svcs.find? (fun other => other.name.isPrefixOf (url.drop 1)) =
      some (svc.toService pb))
    (hmethod : svc.methods.find? (fun other => url == svc.url other) = some method)
    {request : Msg method.request} {st : AbslStatus} {response : Msg method.response}
    (hhandler : method.handler request = .ok (st, response))
    (hrange : 0 ≤ st.rawCode ∧ st.rawCode ≤ 16) (hmessage : validUtf8 st.message = true)
    (hrequestValid : pb.stringsValid method.request request)
    (hresponseValid : st.ok = true → pb.stringsValid method.response response)
    (hheader : pb.requestHeader.Serializes ⟨url⟩)
    (hrequest : (pb.payload method.request).Serializes request)
    (hresponse : st.ok = true → (pb.payload method.response).Serializes response)
    (hreply : pb.replyHeader.Serializes ⟨st.rawCode, st.message⟩) (old : Msg method.response) :
    let run := execute pb svcs (some (makeRequest pb (pb.payload method.request) url request))
    run.handled = [⟨url, method.request, request⟩] ∧
    ∃ reply, run.result = .ok reply ∧
      onReply pb (pb.payload method.response) 0 (some reply) (some old) =
        (⟨0, st⟩, some (if st.ok then response else old)) ∧
      (st.ok = true → getHeader (some reply) = []) ∧
      (st.ok = false → getBody (some reply) = []) := by
  have hurl : url = svc.url method := by simpa using List.find?_some hmethod
  have hutf8 : validUtf8 url = true := by
    rw [hurl]
    exact methodUrl_valid svc.package svc.service method.name
  obtain ⟨rest, hrest⟩ : ∃ rest, url = lit "/" ++ rest := by
    rw [hurl]
    exact ⟨svc.package.scope ++ svc.service.bytes ++ lit "/" ++ method.name.bytes, by
      simp [GeneratedService.url, methodUrl]⟩
  have hstart : (lit "/").isPrefixOf url = true := by
    rw [List.isPrefixOf_iff_prefix, hrest]
    exact List.prefix_append _ _
  -- What the server makes of the message.
  have hexecution := codegenHandlerHelper_serialize (hpb.payload method.request) hrequestValid
    hrequest hhandler hresponse (pb.empty method.request)
  have hreq : parseRequestHeader pb
      (getHeader (some (makeRequest pb (pb.payload method.request) url request))) =
        (okStatus, url) := by
    rw [getHeader_makeRequest hpb, parseRequestHeader_serialize hpb hutf8 hheader]
  have hrun : execute pb svcs (some (makeRequest pb (pb.payload method.request) url request)) =
      ⟨[svc.name], [⟨url, method.request, request⟩], .ok (makeReply pb st
        (if st.ok then (pb.payload method.response).serializeAsString response else []))⟩ := by
    rw [execute, executeInner_of_url hreq ok_okStatus hstart, dispatch_of_find hroute,
      getBody_makeRequest (hpb.payload method.request)]
    simp only [GeneratedService.toService, GeneratedService.execute, hmethod, hexecution]
    rfl
  rw [hrun]
  refine ⟨rfl, _, rfl, ?_, ?_, ?_⟩
  · exact onReply_makeReply hpb (hpb.payload method.response) (by grind) hmessage hreply
      hresponseValid hresponse old
  · intro hst
    rw [getHeader_makeReply hpb hreply, eq_okStatus hst]
    exact serialize_ok_header hpb
  · intro hst
    simp only [hst, Bool.false_eq_true, if_false]
    exact getBody_makeReply (by simp)

-- The example service of the repository, whose SayHello says Hello.
def sayHello : GeneratedMethod fun _ : Unit => Bytes where
  name := ⟨lit "SayHello", helloMethod_wellFormed⟩
  request := ()
  response := ()
  handler := fun request => .ok (okStatus, lit "Hello" ++ request)

def fabricHello : GeneratedService fun _ : Unit => Bytes where
  package := [⟨lit "helloworld", helloPackage_wellFormed⟩]
  service := ⟨lit "FabricHello", helloService_wellFormed⟩
  methods := [sayHello]

theorem rpc_transparent_hello :
    let run := execute stringProtobuf [fabricHello.toService stringProtobuf]
      (some (makeRequest stringProtobuf (stringProtobuf.payload ())
        (lit "/helloworld.FabricHello/SayHello") (lit "myname")))
    ∃ reply, run.result = .ok reply ∧
      onReply stringProtobuf (stringProtobuf.payload ()) 0 (some reply) (some []) =
        (⟨0, okStatus⟩, some (lit "Hellomyname")) ∧ getHeader (some reply) = [] := by
  have hroute : [fabricHello.toService stringProtobuf].find? (fun other =>
      other.name.isPrefixOf ((lit "/helloworld.FabricHello/SayHello").drop 1)) =
      some (fabricHello.toService stringProtobuf) := rfl
  have hmethod : fabricHello.methods.find? (fun other =>
      lit "/helloworld.FabricHello/SayHello" == fabricHello.url other) = some sayHello := rfl
  have hhandler : sayHello.handler (lit "myname") = .ok (okStatus, lit "Hellomyname") := rfl
  have h := rpc_transparent stringProtobuf_lawful hroute hmethod hhandler (by decide) rfl rfl
    (fun _ => rfl) rfl rfl (fun _ => rfl) rfl []
  obtain ⟨-, reply, hresult, hcompletion, hheader, -⟩ := h
  exact ⟨reply, hresult, hcompletion, hheader rfl⟩

end FabricRpc.V2
