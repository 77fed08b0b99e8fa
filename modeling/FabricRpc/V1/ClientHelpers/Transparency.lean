import FabricRpc.V1.ClientHelpers
import FabricRpc.V1.RequestHandler.Rendezvous

namespace FabricRpc.V1

open Lib

variable {σ : Type*} {Msg : σ → Type*} {pb : Protobuf σ Msg}

section Reply

variable {Resp : Type*} {stringsValid : Resp → Prop} {empty : Resp} {codec : Codec Resp}

theorem copyMsg_makeReply (hpb : pb.Lawful) {st : Status}
    (hst : pb.replyHeader.Serializes ⟨st.errorCode, st.errorMessage⟩) (replyStr : Bytes) :
    FRPCTransportMessage.copyMsg (some (makeReply pb st replyStr)) =
      .init (pb.replyHeader.serializeAsString ⟨st.errorCode, st.errorMessage⟩)
        (bufferOf replyStr) := by
  have hheader := hpb.replyHeader.length_lt ⟨st.errorCode, st.errorMessage⟩
  simp only [makeReply, serializeReplyHeader, Codec.serializeToString_eq hst,
    FRPCTransportMessage.copyMsg_message]
  rw [bufferOf_eq (lt_trans hheader (by decide))]

-- Only the status (0, "") has the empty header.
theorem header_ne_nil (hpb : pb.Lawful) {st : Status}
    (hst : pb.replyHeader.Serializes ⟨st.errorCode, st.errorMessage⟩)
    (hvalid : validUtf8 st.errorMessage = true)
    (hne : st.errorCode ≠ 0 ∨ st.errorMessage ≠ []) :
    pb.replyHeader.serializeAsString ⟨st.errorCode, st.errorMessage⟩ ≠ [] := by
  intro hnil
  have hserialized := Codec.serializeToString_eq hst
  rw [hnil] at hserialized
  have hdefault := hpb.replyHeader.eq_empty validUtf8_nil hvalid hserialized
  simp only [ReplyHeader.mk.injEq] at hdefault
  rcases hne with hcode | hmessage
  · exact hcode hdefault.1
  · exact hmessage hdefault.2

theorem deserializeReplyHeader_serialize (hpb : pb.Lawful) {st : Status}
    (hst : pb.replyHeader.Serializes ⟨st.errorCode, st.errorMessage⟩)
    (hvalid : validUtf8 st.errorMessage = true) (old : FabricRPCReplyHeader) :
    deserializeReplyHeader pb
        (pb.replyHeader.serializeAsString ⟨st.errorCode, st.errorMessage⟩) old =
      (⟨st.errorCode, st.errorMessage⟩, true) := by
  have harray := hpb.replyHeader.array _ (hpb.replyHeader.length_lt ⟨st.errorCode, st.errorMessage⟩)
  simp [deserializeReplyHeader, harray, hpb.replyHeader.parse_serializeAsString hst hvalid]

-- What the client does once it has read the header of a reply.
theorem execClientEnd_makeReply (hpb : pb.Lawful) {st : Status}
    (hst : pb.replyHeader.Serializes ⟨st.errorCode, st.errorMessage⟩)
    (hvalid : validUtf8 st.errorMessage = true)
    (hne : st.errorCode ≠ 0 ∨ st.errorMessage ≠ []) (replyStr : Bytes) (old : Resp) :
    execClientEnd pb codec 0 (some (makeReply pb st replyStr)) old =
      if st.errorCode ≠ 0 then (.make st.errorCode st.errorMessage, old)
      else
        let (response, ok) := codec.parseFromArray (bufferOf replyStr)
        if !ok then (.make StatusCode.UNKNOWN (lit "Server returned bad body"), response)
        else (.ok, response) := by
  have hheader := header_ne_nil hpb hst hvalid hne
  have hread := deserializeReplyHeader_serialize hpb hst hvalid ⟨0, []⟩
  simp only [execClientEnd, ne_eq, not_true, if_false, copyMsg_makeReply hpb hst,
    FRPCTransportMessage.init, List.length_eq_zero_iff, hheader, hread, Bool.not_true,
    Bool.false_eq_true]

-- The client ends with the status of a failure, and leaves the response.
theorem execClientEnd_failed (hpb : pb.Lawful) {st : Status} (hfailed : st.failed = true)
    (hst : pb.replyHeader.Serializes ⟨st.errorCode, st.errorMessage⟩)
    (hvalid : validUtf8 st.errorMessage = true) (replyStr : Bytes) (old : Resp) :
    execClientEnd pb codec 0 (some (makeReply pb st replyStr)) old =
      (.make st.errorCode st.errorMessage, old) := by
  have hcode : st.errorCode ≠ 0 := Status.failed_iff.mp hfailed
  rw [execClientEnd_makeReply hpb hst hvalid (.inl hcode), if_pos hcode]

-- The client takes the response of a success.
theorem execClientEnd_ok (hpb : pb.Lawful) (hcodec : codec.Lawful stringsValid empty)
    {response : Resp} (hst : pb.replyHeader.Serializes ⟨0, lit "OK"⟩)
    (hvalid : stringsValid response) (hresponse : codec.Serializes response) (old : Resp) :
    execClientEnd pb codec 0
        (some (makeReply pb .ok (codec.serializeAsString response))) old = (.ok, response) := by
  have hlen := hcodec.length_lt response
  have hparsed := hcodec.parse_serializeAsString hresponse hvalid
  have hok : pb.replyHeader.Serializes ⟨Status.ok.errorCode, Status.ok.errorMessage⟩ := hst
  rw [execClientEnd_makeReply hpb hok (by decide) (.inr (by decide)), if_neg (by decide),
    bufferOf_eq (lt_trans hlen (by decide))]
  simp only [hcodec.array _ hlen, hparsed, Bool.not_true, Bool.false_eq_true, if_false]

end Reply

section Request

variable {Req : Type*} {stringsValid : Req → Prop} {empty : Req} {codec : Codec Req}

theorem makeRequest_ok {url : Bytes} {request : Req} {message : TransportMessage}
    (h : makeRequest pb codec url request = .ok message) :
    pb.requestHeader.Serializes ⟨url⟩ ∧ codec.Serializes request ∧
      message = (FRPCTransportMessage.init (pb.requestHeader.serializeAsString ⟨url⟩)
        (codec.serializeAsString request)).message := by
  by_cases hheader : pb.requestHeader.Serializes ⟨url⟩
  · by_cases hbody : codec.Serializes request
    · simp only [makeRequest, serializeRequestHeader, Codec.serializeToString_eq hheader,
        Codec.serializeToString_eq hbody, Bool.not_true, Bool.false_eq_true, if_false,
        Except.ok.injEq] at h
      exact ⟨hheader, hbody, h.symm⟩
    · have hbody : (codec.serializeToString request).2 = false := by
        simpa [Codec.Serializes] using hbody
      simp [makeRequest, serializeRequestHeader, Codec.serializeToString_eq hheader, hbody] at h
  · have hheader : (pb.requestHeader.serializeToString ⟨url⟩).2 = false := by
      simpa [Codec.Serializes] using hheader
    simp [makeRequest, serializeRequestHeader, hheader] at h

-- The server routes the url that the client has put into the header.
theorem parseRequest_makeRequest (hpb : pb.Lawful) (hcodec : codec.Lawful stringsValid empty)
    {url : Bytes} {request : Req} {message : TransportMessage}
    (h : makeRequest pb codec url request = .ok message) (hutf8 : validUtf8 url = true)
    (hne : url ≠ []) (route : MiddleWare σ) :
    parseRequest pb route (.copyMsg (some message)) = route url ⟨none, none⟩ ∧
      (FRPCTransportMessage.copyMsg (some message)).body = codec.serializeAsString request := by
  obtain ⟨hheader, -, rfl⟩ := makeRequest_ok h
  have hlen := hpb.requestHeader.length_lt ⟨url⟩
  have hbody := hcodec.length_lt request
  have hnil : pb.requestHeader.serializeAsString ⟨url⟩ ≠ [] := by
    intro hnil
    have hserialized := Codec.serializeToString_eq hheader
    rw [hnil] at hserialized
    have hdefault := hpb.requestHeader.eq_empty validUtf8_nil hutf8 hserialized
    simp only [RequestHeader.mk.injEq] at hdefault
    exact hne hdefault
  rw [FRPCTransportMessage.copyMsg_message, bufferOf_eq (lt_trans hlen (by decide)),
    bufferOf_eq (lt_trans hbody (by decide))]
  refine ⟨?_, rfl⟩
  simp [parseRequest, FRPCTransportMessage.init, hnil, deserializeRequestHeader,
    hpb.requestHeader.array _ hlen, hpb.requestHeader.parse_serializeAsString hheader hutf8]

end Request

section Outcome

variable {υ : Type*}

-- How the handling of a request came to its end for a call of EndProcessRequest:
-- with the failure of its begin, or with what the user's End returned.
inductive Outcome (pb : Protobuf σ Msg) (route : MiddleWare σ) (msg : FRPCTransportMessage)
    (timeoutMilliseconds : UInt32) (s : Request σ υ Msg) (call : EndCall σ υ Msg) :
    Except Status (Sigma Msg) → Prop
  | beginFailed (st : Status) : st.failed = true →
      s.BeginFailed pb route msg timeoutMilliseconds st → call.result = none →
      Outcome pb route msg timeoutMilliseconds s call (.error st)
  | endFailed (st : Status) (proto : Sigma Msg) : st.failed = true →
      call.result = some (st, proto) →
      Outcome pb route msg timeoutMilliseconds s call (.error st)
  | responded (st : Status) (proto : Sigma Msg) : st.failed = false →
      call.result = some (st, proto) →
      Outcome pb route msg timeoutMilliseconds s call (.ok proto)

-- What protobuf has to serialise for the outcome.
def Serializable (pb : Protobuf σ Msg) : Except Status (Sigma Msg) → Prop
  | .error st => pb.replyHeader.Serializes ⟨st.errorCode, st.errorMessage⟩
  | .ok proto =>
      pb.replyHeader.Serializes ⟨0, lit "OK"⟩ ∧ (pb.payload proto.1).Serializes proto.2

-- The strings of the user's outcomes are valid UTF-8.
structure UserValid (pb : Protobuf σ Msg) (s : Request σ υ Msg) (call : EndCall σ υ Msg) :
    Prop where
  beginError : ∀ st, s.outcome = some (st, none) → validUtf8 st.errorMessage = true
  endError : ∀ st proto, call.result = some (st, proto) → st.failed = true →
    validUtf8 st.errorMessage = true
  response : ∀ st proto, call.result = some (st, proto) → st.failed = false →
    pb.stringsValid proto.1 proto.2

-- The outcome is the one that the user's Begin or End returned.
def FromUser (s : Request σ υ Msg) (call : EndCall σ υ Msg) : Except Status (Sigma Msg) → Prop
  | .error st => s.outcome = some (st, none) ∨ ∃ proto, call.result = some (st, proto)
  | .ok proto => ∃ st, call.result = some (st, proto)

-- What a client is to see in a reply. A failure has no body, and leaves the
-- client's response object, of any type, as it was.
def ClientSees (pb : Protobuf σ Msg) (reply : TransportMessage) :
    Except Status (Sigma Msg) → Prop
  | .error st => getBody (some reply) = [] ∧ ∀ t (old : Msg t),
      execClientEnd pb (pb.payload t) 0 (some reply) old =
        (.make st.errorCode st.errorMessage, old)
  | .ok proto => ∀ old : Msg proto.1,
      execClientEnd pb (pb.payload proto.1) 0 (some reply) old = (.ok, proto.2)

-- The message is sent with ExecClientBegin to a method that the router knows.
def SentTo (pb : Protobuf σ Msg) (route : MiddleWare σ) (message : Option TransportMessage)
    (op : Operation σ) (request : Msg op.proto) : Prop :=
  ∃ url ec ops timeoutMilliseconds elapsed beginRequest sent timeout,
    route url ⟨none, none⟩ = (ec, ops) ∧ ec.failed = false ∧ ops.beginOp = some op ∧
    (execClientBegin pb (pb.payload op.proto) timeoutMilliseconds url request elapsed
      beginRequest).2 = some (sent, timeout) ∧
    message = some sent

theorem makeRequest_of_execClientBegin {Req : Type*} {codec : Codec Req}
    {timeoutMilliseconds timeout : UInt32} {url : Bytes} {request : Req} {elapsed : ℕ}
    {beginRequest : TransportMessage → UInt32 → Int32} {sent : TransportMessage}
    (h : (execClientBegin pb codec timeoutMilliseconds url request elapsed beginRequest).2 =
      some (sent, timeout)) : makeRequest pb codec url request = .ok sent := by
  unfold execClientBegin at h
  split at h
  · cases h
  · rename_i msg hmsg
    simp only [Option.some.injEq, Prod.mk.injEq] at h
    rw [hmsg, h.1]

variable {svcList : List (GeneratedService σ)} {msg : FRPCTransportMessage}
  {timeoutMilliseconds : UInt32} {s : Request σ υ Msg} {call : EndCall σ υ Msg}

-- An error of the server itself names what it could not parse or find.
def OwnError (st : Status) : Prop :=
  (st.errorCode = StatusCode.INVALID_ARGUMENT ∨ st.errorCode = StatusCode.NOT_FOUND) ∧
    validUtf8 st.errorMessage = true

theorem parseRequest_ownError (hpb : pb.Lawful) {st : Status} {ops : Ops σ}
    (h : parseRequest pb (router (svcList.map GeneratedService.route)) msg = (st, ops))
    (hfailed : st.failed = true) : OwnError st := by
  unfold parseRequest deserializeRequestHeader at h
  split at h
  · obtain ⟨rfl, -⟩ := Prod.mk.inj h
    exact ⟨.inl rfl, by decide⟩
  · obtain ⟨header, ok, hparse⟩ : ∃ header ok,
        pb.requestHeader.parseFromArray msg.header = (header, ok) := ⟨_, _, rfl⟩
    rw [hparse] at h
    cases ok with
    | false =>
        obtain ⟨rfl, -⟩ := Prod.mk.inj h
        exact ⟨.inl rfl, by decide⟩
    | true =>
        rcases router_cases h with ⟨rfl, -⟩ | rfl
        · simp at hfailed
        · have hurl := hpb.requestHeader.array_valid _ _ hparse
          have htext : validUtf8 (lit "method not found: ") = true := by decide
          exact ⟨.inr rfl, by simpa [notFound, validUtf8_append htext] using hurl⟩

-- A begin fails with an error of the server, or with one of the user's Begin.
theorem beginFailed_cases (hpb : pb.Lawful) {st : Status}
    (h : s.BeginFailed pb (router (svcList.map GeneratedService.route)) msg
      timeoutMilliseconds st) (hfailed : st.failed = true) :
    OwnError st ∨ s.outcome = some (st, none) := by
  rcases h with ⟨-, ops, hparse⟩ | ⟨-, ops, op, timeout, elapsed, -, -, hbody⟩ | ⟨-, houtcome⟩
  · exact .inl (parseRequest_ownError hpb hparse hfailed)
  · rw [beginOperation_error hbody]
    exact .inl ⟨.inl rfl, by decide⟩
  · exact .inr houtcome

-- The reply that an outcome is turned into.
def replyOf (pb : Protobuf σ Msg) : Except Status (Sigma Msg) → TransportMessage
  | .error st => makeReply pb st []
  | .ok proto => makeReply pb .ok ((pb.payload proto.1).serializeAsString proto.2)

def ValidOutcome (pb : Protobuf σ Msg) : Except Status (Sigma Msg) → Prop
  | .error st => st.failed = true ∧ validUtf8 st.errorMessage = true
  | .ok proto => pb.stringsValid proto.1 proto.2

theorem endReply_eq {st : Status} {proto : Sigma Msg} :
    (st.failed = true → endReply pb st proto = replyOf pb (.error st)) ∧
    (st.failed = false → Serializable pb (.ok proto) →
      endReply pb st proto = replyOf pb (.ok proto)) := by
  refine ⟨?_, ?_⟩
  · intro hfailed
    simp [endReply, endOperation, hfailed, replyOf]
  · intro hok hser
    simp [endReply, endOperation, hok, Codec.serializeToString_eq hser.2, replyOf]

-- A finished call of EndProcessRequest replies with the outcome of the request.
theorem outcome_of_reports (hpb : pb.Lawful) {reply : TransportMessage}
    (h : Request.Reports pb (router (svcList.map GeneratedService.route)) timeoutMilliseconds
      msg s call reply) (huser : UserValid pb s call) :
    ∃ outcome, Outcome pb (router (svcList.map GeneratedService.route)) msg
        timeoutMilliseconds s call outcome ∧
      ValidOutcome pb outcome ∧ (Serializable pb outcome → reply = replyOf pb outcome) := by
  rcases h with ⟨st, hfailed, hbegin, -, hresult, rfl⟩ |
    ⟨-, -, _, _, _, err, proto, -, -, -, -, -, hresult, -, rfl⟩
  · refine ⟨.error st, .beginFailed st hfailed hbegin hresult, ⟨hfailed, ?_⟩, fun _ => rfl⟩
    rcases beginFailed_cases hpb hbegin hfailed with hown | houtcome
    · exact hown.2
    · exact huser.beginError st houtcome
  · cases herr : err.failed with
    | true =>
        exact ⟨.error err, .endFailed err proto herr hresult,
          ⟨herr, huser.endError err proto hresult herr⟩, fun _ => endReply_eq.1 herr⟩
    | false =>
        exact ⟨.ok proto, .responded err proto herr hresult,
          huser.response err proto hresult herr, endReply_eq.2 herr⟩

theorem getHeader_makeReply (hpb : pb.Lawful) {st : Status}
    (hst : pb.replyHeader.Serializes ⟨st.errorCode, st.errorMessage⟩) (replyStr : Bytes) :
    getHeader (some (makeReply pb st replyStr)) =
      pb.replyHeader.serializeAsString ⟨st.errorCode, st.errorMessage⟩ := by
  have hlen := hpb.replyHeader.length_lt ⟨st.errorCode, st.errorMessage⟩
  simp only [makeReply, serializeReplyHeader, Codec.serializeToString_eq hst,
    FRPCTransportMessage.message, FRPCTransportMessage.init, getHeader, Option.getD_some]
  rw [bufferOf_eq (lt_trans hlen (by decide))]

theorem getBody_makeReply (st : Status) (replyStr : Bytes) :
    getBody (some (makeReply pb st replyStr)) = bufferOf replyStr := by
  simp [makeReply, FRPCTransportMessage.message, FRPCTransportMessage.init, getBody]

-- The client sees the outcome, under a header that is never empty.
theorem clientSees_replyOf (hpb : pb.Lawful) {outcome : Except Status (Sigma Msg)}
    (hvalid : ValidOutcome pb outcome) (hser : Serializable pb outcome) :
    getHeader (some (replyOf pb outcome)) ≠ [] ∧
      ClientSees pb (replyOf pb outcome) outcome := by
  cases outcome with
  | error st =>
      obtain ⟨hfailed, hutf8⟩ := hvalid
      have hcode : st.errorCode ≠ 0 := Status.failed_iff.mp hfailed
      refine ⟨?_, getBody_makeReply st [], ?_⟩
      · rw [replyOf, getHeader_makeReply hpb hser]
        exact header_ne_nil hpb hser hutf8 (.inl hcode)
      · intro t old
        exact execClientEnd_failed hpb hfailed hser hutf8 [] old
  | ok proto =>
      obtain ⟨hheader, hresponse⟩ := hser
      have hok : pb.replyHeader.Serializes ⟨Status.ok.errorCode, Status.ok.errorMessage⟩ :=
        hheader
      refine ⟨?_, ?_⟩
      · rw [replyOf, getHeader_makeReply hpb hok]
        exact header_ne_nil hpb hok (by decide) (.inr (by decide))
      · intro old
        exact execClientEnd_ok hpb (hpb.payload proto.1) hheader hvalid hresponse old

-- The server reads a message of ExecClientBegin as it was meant.
theorem SentTo.parsed (hpb : pb.Lawful) {message : Option TransportMessage} {op : Operation σ}
    {request : Msg op.proto}
    (h : SentTo pb (router (svcList.map GeneratedService.route)) message op request)
    (hvalid : pb.stringsValid op.proto request) :
    ∃ ec ops, parseRequest pb (router (svcList.map GeneratedService.route)) (.copyMsg message) =
        (ec, ops) ∧ ec.failed = false ∧ ops.beginOp = some op ∧
      ∀ timeout elapsed, beginOperation (pb.payload op.proto)
        (FRPCTransportMessage.copyMsg message).body timeout elapsed =
          .ok (request, newTimeout timeout elapsed) := by
  obtain ⟨url, ec, ops, _, _, _, sent, _, hroute, hec, hop, hsent, rfl⟩ := h
  have hmade := makeRequest_of_execClientBegin hsent
  obtain ⟨svc, -, method, -, rfl, -⟩ := router_ok hroute hec
  have hutf8 : validUtf8 (svc.url method) = true :=
    methodUrl_valid svc.package svc.service method.name
  have hne : svc.url method ≠ [] := by simp [GeneratedService.url, methodUrl, lit]
  obtain ⟨hparse, hbody⟩ := parseRequest_makeRequest hpb (hpb.payload op.proto) hmade hutf8 hne
    (router (svcList.map GeneratedService.route))
  obtain ⟨-, hserializes, -⟩ := makeRequest_ok hmade
  refine ⟨ec, ops, hparse.trans hroute, hec, hop, ?_⟩
  intro timeout elapsed
  have hlen := (hpb.payload op.proto).length_lt request
  have hread := (hpb.payload op.proto).parse_serializeAsString hserializes hvalid
  simp [beginOperation, hbody, (hpb.payload op.proto).array _ hlen, hread]

-- The user's Begin gets the request that was sent.
theorem SentTo.began (hpb : pb.Lawful) {message : Option TransportMessage} {op : Operation σ}
    {request : Msg op.proto}
    (h : SentTo pb (router (svcList.map GeneratedService.route)) message op request)
    (hvalid : pb.stringsValid op.proto request)
    (hbegan : s.Began pb (router (svcList.map GeneratedService.route)) (.copyMsg message)
      timeoutMilliseconds) :
    ∃ timeout, s.beginCalls = [⟨op, ⟨op.proto, request⟩, timeout⟩] := by
  obtain ⟨ec, ops, hparse, hec, hop, hbody⟩ := h.parsed hpb hvalid
  obtain ⟨ops', op', _, _, _, request', timeout, ⟨ec', hparse', -⟩, hop', -, hbody', hcalls, -⟩ :=
    hbegan
  obtain ⟨rfl, rfl⟩ := Prod.mk.inj (hparse.symm.trans hparse')
  obtain rfl : op = op' := Option.some.inj (hop.symm.trans hop')
  rw [hbody] at hbody'
  obtain ⟨rfl, -⟩ := Prod.mk.inj (Except.ok.inj hbody')
  exact ⟨timeout, hcalls⟩

-- A failure of the begin of such a request is one of the user's Begin.
theorem SentTo.user_failed (hpb : pb.Lawful) {message : Option TransportMessage}
    {op : Operation σ} {request : Msg op.proto}
    (h : SentTo pb (router (svcList.map GeneratedService.route)) message op request)
    (hvalid : pb.stringsValid op.proto request) {st : Status} (hfailed : st.failed = true)
    (hbegin : s.BeginFailed pb (router (svcList.map GeneratedService.route)) (.copyMsg message)
      timeoutMilliseconds st) :
    s.Began pb (router (svcList.map GeneratedService.route)) (.copyMsg message)
      timeoutMilliseconds ∧ s.outcome = some (st, none) := by
  obtain ⟨ec, ops, hparse, hec, hop, hbody⟩ := h.parsed hpb hvalid
  rcases hbegin with ⟨-, ops', hparse'⟩ | ⟨-, ops', op', timeout, elapsed, ⟨ec', hparse', -⟩, hop',
    hbody'⟩ | huser
  · obtain ⟨rfl, -⟩ := Prod.mk.inj (hparse.symm.trans hparse')
    exact absurd (hfailed.symm.trans hec) (by simp)
  · obtain ⟨rfl, rfl⟩ := Prod.mk.inj (hparse.symm.trans hparse')
    obtain rfl : op = op' := Option.some.inj (hop.symm.trans hop')
    exact absurd (hbody'.symm.trans (hbody timeout elapsed)) (by simp)
  · exact huser

-- The outcome of such a request is the user's.
theorem SentTo.from_user (hpb : pb.Lawful) {message : Option TransportMessage}
    {op : Operation σ} {request : Msg op.proto}
    (h : SentTo pb (router (svcList.map GeneratedService.route)) message op request)
    (hvalid : pb.stringsValid op.proto request) {reply : TransportMessage}
    (hreports : Request.Reports pb (router (svcList.map GeneratedService.route))
      timeoutMilliseconds (.copyMsg message) s call reply)
    {outcome : Except Status (Sigma Msg)}
    (houtcome : Outcome pb (router (svcList.map GeneratedService.route)) (.copyMsg message)
      timeoutMilliseconds s call outcome) :
    (∃ timeout, s.beginCalls = [⟨op, ⟨op.proto, request⟩, timeout⟩]) ∧
      FromUser s call outcome := by
  have hreturned {result : Status × Sigma Msg} (hresult : call.result = some result) :
      ∃ timeout, s.beginCalls = [⟨op, ⟨op.proto, request⟩, timeout⟩] := by
    rcases hreports with ⟨_, -, -, -, hnone, -⟩ | ⟨-, hbegan, -⟩
    · exact absurd (hresult.symm.trans hnone) (by simp)
    · exact h.began hpb hvalid hbegan
  cases houtcome with
  | beginFailed st hfailed hbegin hresult =>
      obtain ⟨hbegan, huser⟩ := h.user_failed hpb hvalid hfailed hbegin
      exact ⟨h.began hpb hvalid hbegan, .inl huser⟩
  | endFailed st proto hfailed hresult => exact ⟨hreturned hresult, .inr ⟨proto, hresult⟩⟩
  | responded st proto hok hresult => exact ⟨hreturned hresult, st, hresult⟩

-- The law of the first stack. For every message and every run in which the user
-- keeps the contract, a reply of EndProcessRequest has a header, and the client
-- sees in it how the request ended. If the message was sent with ExecClientBegin
-- to a routed method, the user's Begin gets the request that was sent, and the
-- request ends as the user says.
theorem status_and_payload_transparent [DecidableEq υ] (hpb : pb.Lawful)
    {message : Option TransportMessage} {labels : List (RequestLabel σ υ Msg)}
    (hrun : (requestMachine pb (router (svcList.map GeneratedService.route)) message
      timeoutMilliseconds).Run Request.Contract Request.new labels s)
    (hcall : call ∈ s.ends) {reply : TransportMessage} (hpc : call.pc = .finished reply)
    (huser : UserValid pb s call) :
    ∃ outcome, Outcome pb (router (svcList.map GeneratedService.route)) (.copyMsg message)
        timeoutMilliseconds s call outcome ∧
      (Serializable pb outcome →
        getHeader (some reply) ≠ [] ∧ ClientSees pb reply outcome) ∧
      ∀ (op : Operation σ) (request : Msg op.proto),
        SentTo pb (router (svcList.map GeneratedService.route)) message op request →
        pb.stringsValid op.proto request →
        (∃ timeout, s.beginCalls = [⟨op, ⟨op.proto, request⟩, timeout⟩]) ∧
        FromUser s call outcome := by
  have hreports := (Request.generated_sound hrun).reports hcall hpc
  obtain ⟨outcome, hended, hvalid, hreply⟩ := outcome_of_reports hpb hreports huser
  refine ⟨outcome, hended, ?_, ?_⟩
  · intro hser
    rw [hreply hser]
    exact clientSees_replyOf hpb hvalid hser
  · intro op request hsent hrequest
    exact hsent.from_user hpb hrequest hreports hended

-- The user's End fails with a code and no message.
def deadline : Status := .make StatusCode.DEADLINE_EXCEEDED []

def deadlineReply : TransportMessage := endReply stringProtobuf deadline ⟨(), lit "found"⟩

theorem find_wellFormed : lit "Find" ≠ [] ∧ (lit "Find").all identByte = true := by decide

def deadlineEnd : EndCall Unit ℕ fun _ => Bytes :=
  ⟨.finished deadlineReply,
    [(⟨Request.todo.package, Request.todo.service, ⟨lit "Find", find_wellFormed⟩, ()⟩,
      some (.user 7))],
    some (deadline, ⟨(), lit "found"⟩)⟩

theorem reaches_deadlineEnd : ∃ s,
    Request.todoMachine.Run Request.Contract .new (Request.reentrant deadline) s ∧
    s.ends = [deadlineEnd] ∧ s.outcome = some (.ok, some 7) := by
  obtain ⟨s, hs, hends, houtcome⟩ : ∃ s,
      Request.todoMachine.reaches Request.Contract [] .new (Request.reentrant deadline) = some s ∧
      s.ends = [deadlineEnd] ∧ s.outcome = some (.ok, some 7) := ⟨_, rfl, rfl, rfl⟩
  exact ⟨s, Machine.Run.nil.reaches hs, hends, houtcome⟩

theorem deadlineEnd_valid {s : Request Unit ℕ fun _ => Bytes}
    (houtcome : s.outcome = some (.ok, some 7)) : UserValid stringProtobuf s deadlineEnd := by
  refine ⟨?_, ?_, ?_⟩
  · intro st hst
    rw [houtcome] at hst
    cases hst
  · intro st proto hresult _
    cases hresult
    rfl
  · intro st proto hresult hok
    cases hresult
    cases hok

theorem outcome_deadlineEnd {s : Request Unit ℕ fun _ => Bytes} {route : MiddleWare Unit}
    {message : FRPCTransportMessage} {outcome : Except Status (Sigma fun _ : Unit => Bytes)}
    (h : Outcome stringProtobuf route message timeoutMilliseconds s deadlineEnd outcome) :
    outcome = .error deadline := by
  cases h with
  | beginFailed st _ _ hresult => cases hresult
  | endFailed st proto _ hresult => cases hresult; rfl
  | responded st proto hok hresult => cases hresult; cases hok

-- The client gets both.
theorem status_and_payload_transparent_todo :
    ∃ (s : Request Unit ℕ fun _ => Bytes) (reply : TransportMessage),
      s.ends.map EndCall.pc = [.finished reply] ∧ getHeader (some reply) ≠ [] ∧
      execClientEnd stringProtobuf (stringProtobuf.payload ()) 0 (some reply) (lit "old") =
        (.make StatusCode.DEADLINE_EXCEEDED [], lit "old") ∧
      ∃ timeout, s.beginCalls = [⟨⟨Request.todo.package, Request.todo.service,
        ⟨lit "Find", by decide⟩, ()⟩, ⟨(), lit "milk"⟩, timeout⟩] := by
  obtain ⟨s, hrun, hends, houtcome⟩ := reaches_deadlineEnd
  obtain ⟨outcome, hended, hsees, hsent⟩ := status_and_payload_transparent stringProtobuf_lawful
    hrun (by simp [hends]) (show deadlineEnd.pc = _ from rfl) (deadlineEnd_valid houtcome)
  obtain rfl := outcome_deadlineEnd hended
  obtain ⟨hheader, -, hclient⟩ := hsees rfl
  refine ⟨s, _, by rw [hends]; rfl, hheader, hclient () (lit "old"), ?_⟩
  exact (hsent _ (lit "milk") ⟨lit "/todolist.Todo/Find", _, _, 1000, 0, fun _ _ => 0, _, _, rfl,
    rfl, rfl, rfl, rfl⟩ rfl).1

end Outcome

end FabricRpc.V1
