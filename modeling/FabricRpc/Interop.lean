import FabricRpc.V1.ClientHelpers.Transparency
import FabricRpc.V2.RpcClient.Transparency

namespace FabricRpc

open Lib

variable {σ : Type*} {Msg : σ → Type*} {pb : Protobuf σ Msg}

-- ExecClientEnd and async_rpc_op report the same of a reply that the transport
-- has delivered: a success with the same response, or the same code and message.
def ClientsAgree {Resp : Type*} (pb : Protobuf σ Msg) (codec : Codec Resp)
    (reply : TransportMessage) (old : Resp) : Prop :=
  let (st, response) := V1.execClientEnd pb codec 0 (some reply) old
  let (completion, protoReply) := V2.onReply pb codec 0 (some reply) (some old)
  completion.ec = 0 ∧
    if st.failed then
      completion.st.ok = false ∧ completion.st.rawCode = st.errorCode ∧
        completion.st.message = st.errorMessage
    else completion.st.ok = true ∧ protoReply = some response

def Canonical (code : Int32) : Prop := 0 ≤ code ∧ code ≤ 16

instance (code : Int32) : Decidable (Canonical code) :=
  inferInstanceAs (Decidable (0 ≤ code ∧ code ≤ 16))

-- The user's outcomes of a request of the first stack have canonical codes.
structure UserCanonical {υ : Type*} (s : V1.Request σ υ Msg) (call : V1.EndCall σ υ Msg) :
    Prop where
  beginError : ∀ st, s.outcome = some (st, none) → Canonical st.errorCode
  endError : ∀ st proto, call.result = some (st, proto) → Canonical st.errorCode

-- A response has the type that the caller expects.
def Expected (t : σ) : Except V1.Status (Sigma Msg) → Prop
  | .error _ => True
  | .ok proto => proto.1 = t

-- The server of the first stack, or the middleware of the second with these
-- services on this request.
inductive Sender (κ : Type*) where
  | v1
  | v2 (svcs : List (V2.Service κ)) (req : Option TransportMessage)

-- The first stack writes a header always, the second unless a service answers
-- the request with an OK status.
def Sender.WritesHeader {κ : Type*} (pb : Protobuf σ Msg) : Sender κ → Prop
  | .v1 => True
  | .v2 svcs req => ¬V2.Answered pb svcs req

-- The replies that the two servers emit to a caller that expects a `t`, where
-- the handlers' messages are valid UTF-8 and their codes canonical.
inductive Emitted (υ κ : Type*) [DecidableEq υ] (pb : Protobuf σ Msg) (t : σ) :
    Sender κ → TransportMessage → Prop
  | v1 (svcList : List (V1.GeneratedService σ)) (message : Option TransportMessage)
      (timeoutMilliseconds : UInt32) (labels : List (V1.RequestLabel σ υ Msg))
      (s : V1.Request σ υ Msg) (call : V1.EndCall σ υ Msg) (reply : TransportMessage) :
      (V1.requestMachine pb (V1.router (svcList.map V1.GeneratedService.route)) message
        timeoutMilliseconds).Run V1.Request.Contract V1.Request.new labels s →
      call ∈ s.ends → call.pc = .finished reply →
      V1.UserValid pb s call → UserCanonical s call →
      (∀ outcome, V1.Outcome pb (V1.router (svcList.map V1.GeneratedService.route))
        (.copyMsg message) timeoutMilliseconds s call outcome →
        V1.Serializable pb outcome ∧ Expected t outcome) →
      Emitted υ κ pb t .v1 reply
  | v2 (svcs : List (V2.Service κ)) (req : Option TransportMessage) (st : V2.AbslStatus)
      (respStr : Bytes) (reply : TransportMessage) :
      (V2.executeInner pb svcs req).result = .ok (st, respStr) →
      (V2.execute pb svcs req).result = .ok reply →
      Canonical st.rawCode → validUtf8 st.message = true →
      pb.replyHeader.Serializes ⟨st.rawCode, st.message⟩ →
      Emitted υ κ pb t (.v2 svcs req) reply

section Agree

variable {Resp : Type*} {codec : Codec Resp}

-- Both servers build their replies in the same way.
theorem makeReply_eq (st : V2.AbslStatus) (respStr : Bytes) :
    V2.makeReply pb st respStr = V1.makeReply pb (.make st.rawCode st.message) respStr := rfl

theorem parseReplyHeader_makeReply (hpb : pb.Lawful) {st : V1.Status}
    (hcode : Canonical st.errorCode) (hvalid : validUtf8 st.errorMessage = true)
    (hst : pb.replyHeader.Serializes ⟨st.errorCode, st.errorMessage⟩) (replyStr : Bytes) :
    V2.parseReplyHeader pb (getHeader (some (V1.makeReply pb st replyStr))) =
      .make st.errorCode st.errorMessage := by
  have hrange : 0 ≤ st.errorCode ∧ st.errorCode ≤ 20 := by
    obtain ⟨hlo, hhi⟩ := hcode
    grind
  rw [V1.getHeader_makeReply hpb hst]
  exact V2.parseReplyHeader_serialize hpb hrange hvalid hst

-- A failure is read alike, whatever its body.
theorem agree_failed (hpb : pb.Lawful) {st : V1.Status} (hfailed : st.failed = true)
    (hcode : Canonical st.errorCode) (hvalid : validUtf8 st.errorMessage = true)
    (hst : pb.replyHeader.Serializes ⟨st.errorCode, st.errorMessage⟩) (replyStr : Bytes)
    (old : Resp) : ClientsAgree pb codec (V1.makeReply pb st replyStr) old := by
  have hne : st.errorCode ≠ 0 := V1.Status.failed_iff.mp hfailed
  have hread := parseReplyHeader_makeReply hpb hcode hvalid hst replyStr
  have hmade : V2.AbslStatus.make st.errorCode st.errorMessage =
      ⟨st.errorCode, st.errorMessage, fun h => absurd h hne⟩ := by
    simp [V2.AbslStatus.make, hne]
  simp [ClientsAgree, V1.execClientEnd_failed hpb hfailed hst hvalid, V2.onReply, hread, hmade,
    V2.AbslStatus.ok, hne, V1.StatusCode.OK]

-- A success of the first stack is read alike.
theorem agree_ok (hpb : pb.Lawful) {stringsValid : Resp → Prop} {empty : Resp}
    (hcodec : codec.Lawful stringsValid empty) {response : Resp}
    (hst : pb.replyHeader.Serializes ⟨0, lit "OK"⟩) (hvalid : stringsValid response)
    (hresponse : codec.Serializes response) (old : Resp) :
    ClientsAgree pb codec (V1.makeReply pb .ok (codec.serializeAsString response)) old := by
  have hstatus : pb.replyHeader.Serializes
      ⟨V1.Status.ok.errorCode, V1.Status.ok.errorMessage⟩ := hst
  have hread := parseReplyHeader_makeReply hpb (by decide) (by decide) hstatus
    (codec.serializeAsString response)
  have hbody : getBody (some (V1.makeReply pb .ok (codec.serializeAsString response))) =
      codec.serializeAsString response := by
    rw [V1.getBody_makeReply, bufferOf_eq (lt_trans (hcodec.length_lt response) (by decide))]
  have hparsed := V2.parseProtoPayload_of_parsed
    (hcodec.parse_serializeAsString hresponse hvalid) old
  have hok : V2.AbslStatus.make V1.Status.ok.errorCode V1.Status.ok.errorMessage =
      V2.AbslStatus.okStatus := rfl
  simp [ClientsAgree, V1.execClientEnd_ok hpb hcodec hst hvalid hresponse, V2.onReply, hread, hok,
    hbody, hparsed]

-- A success of the second stack is a failure for the client of the first.
theorem not_agree_silent (hpb : pb.Lawful) {st : V2.AbslStatus} (hok : st.ok = true)
    (respStr : Bytes) (old : Resp) :
    ¬ClientsAgree pb codec (V2.makeReply pb st respStr) old := by
  obtain rfl := V2.AbslStatus.eq_okStatus hok
  have hser : pb.replyHeader.Serializes
      ⟨V2.AbslStatus.okStatus.rawCode, V2.AbslStatus.okStatus.message⟩ :=
    congrArg Prod.snd hpb.replyHeader.serialize_empty
  have hheader : getHeader (some (V2.makeReply pb V2.AbslStatus.okStatus respStr)) = [] := by
    rw [V2.getHeader_makeReply hpb hser]
    exact V2.serialize_ok_header hpb
  have hv1 : V1.execClientEnd pb codec 0
      (some (V2.makeReply pb V2.AbslStatus.okStatus respStr)) old =
        (.make V1.StatusCode.UNKNOWN (lit "Server returned empty header"), old) := by
    simp [V1.execClientEnd, FRPCTransportMessage.copyMsg, FRPCTransportMessage.init, hheader]
  have hread := V2.parseReplyHeader_makeReply hpb (by decide) (by decide) hser respStr
  obtain ⟨response, parsed, hparse⟩ : ∃ response parsed, codec.parseFromString
      (getBody (some (V2.makeReply pb V2.AbslStatus.okStatus respStr))) = (response, parsed) :=
    ⟨_, _, rfl⟩
  intro hagree
  simp only [ClientsAgree, hv1, V2.onReply, ne_eq, not_true, if_false, hread,
    V2.AbslStatus.ok_okStatus, Bool.not_true, Bool.false_eq_true, V2.parseProtoPayload,
    hparse] at hagree
  cases parsed with
  | true => exact absurd hagree.2.1 (by decide)
  | false => exact absurd hagree.2.2.2 (by decide)

end Agree

theorem ownError_canonical {st : V1.Status} (h : V1.OwnError st) : Canonical st.errorCode := by
  rcases h.1 with hcode | hcode <;> rw [hcode] <;> decide

-- A reply of the first stack is read alike.
theorem emitted_v1_agree {υ : Type*} (hpb : pb.Lawful) {t : σ}
    {svcList : List (V1.GeneratedService σ)}
    {message : Option TransportMessage} {timeoutMilliseconds : UInt32}
    {s : V1.Request σ υ Msg} {call : V1.EndCall σ υ Msg} {reply : TransportMessage}
    (hreports : V1.Request.Reports pb (V1.router (svcList.map V1.GeneratedService.route))
      timeoutMilliseconds (.copyMsg message) s call reply)
    (huser : V1.UserValid pb s call) (hcanonical : UserCanonical s call)
    (hser : ∀ outcome, V1.Outcome pb (V1.router (svcList.map V1.GeneratedService.route))
      (.copyMsg message) timeoutMilliseconds s call outcome →
      V1.Serializable pb outcome ∧ Expected t outcome) (old : Msg t) :
    ClientsAgree pb (pb.payload t) reply old := by
  obtain ⟨outcome, hended, hvalid, hreply⟩ := V1.outcome_of_reports hpb hreports huser
  obtain ⟨hserializable, hexpected⟩ := hser outcome hended
  rw [hreply hserializable]
  cases hended with
  | beginFailed st hfailed hbegin hresult =>
      have hcode : Canonical st.errorCode := by
        rcases V1.beginFailed_cases hpb hbegin hfailed with hown | houtcome
        · exact ownError_canonical hown
        · exact hcanonical.beginError st houtcome
      exact agree_failed hpb hfailed hcode hvalid.2 hserializable [] old
  | endFailed st proto hfailed hresult =>
      have hcode := hcanonical.endError st proto hresult
      exact agree_failed hpb hfailed hcode hvalid.2 hserializable [] old
  | responded st proto hok hresult =>
      obtain ⟨t', response⟩ := proto
      obtain rfl : t' = t := hexpected
      exact agree_ok hpb (hpb.payload t') hserializable.1 hvalid hserializable.2 old

-- A client of the second stack and one of the first report the same of a reply
-- exactly if the reply has a header: every reply of the first stack, and those
-- of the second to a request that no service answers with an OK status.
theorem clients_agree_iff_header {υ κ : Type*} [DecidableEq υ] (hpb : pb.Lawful) {t : σ}
    {sender : Sender κ} {reply : TransportMessage} (h : Emitted υ κ pb t sender reply)
    (old : Msg t) : ClientsAgree pb (pb.payload t) reply old ↔ sender.WritesHeader pb := by
  cases h with
  | v1 svcList message timeoutMilliseconds labels s call _ hrun hcall hpc huser hcanonical hser =>
      have hreports := (V1.Request.generated_sound hrun).reports hcall hpc
      exact ⟨fun _ => trivial,
        fun _ => emitted_v1_agree hpb hreports huser hcanonical hser old⟩
  | v2 svcs req st respStr _ hinner hreply hcode hvalid hst =>
      obtain rfl : reply = V2.makeReply pb st respStr := by
        simp only [V2.execute, V2.replyTo, hinner, Except.map, Except.ok.injEq] at hreply
        exact hreply.symm
      rw [Sender.WritesHeader, ← V2.executeInner_ok_iff hinner]
      cases hok : st.ok with
      | true =>
          refine ⟨fun hagree => (not_agree_silent hpb hok respStr old hagree).elim, ?_⟩
          exact fun hwrites => absurd rfl hwrites
      | false =>
          refine ⟨fun _ => by simp, fun _ => ?_⟩
          have hfailed : (V1.Status.make st.rawCode st.message).failed = true := by
            simpa [V2.AbslStatus.ok, V1.StatusCode.OK] using hok
          rw [makeReply_eq]
          exact agree_failed hpb hfailed hcode hvalid hst respStr old

-- The clients agree on a request of the second stack that finds no service, on one that
-- a service fails, and on the reply of the first stack to a request that the user fails.
theorem clients_agree_iff_header_errors :
    ClientsAgree stringProtobuf (stringProtobuf.payload ())
      (V2.makeReply stringProtobuf (V2.AbslStatus.unimplementedError (lit "url not found")) [])
      (lit "old") ∧
    ClientsAgree stringProtobuf (stringProtobuf.payload ())
      (V2.makeReply stringProtobuf (V2.AbslStatus.unknownError (lit "failed")) (lit "x"))
      (lit "old") ∧
    ClientsAgree stringProtobuf (stringProtobuf.payload ()) V1.deadlineReply (lit "old") := by
  let req := some (V2.makeRequest stringProtobuf (stringProtobuf.payload ()) (lit "/a.B/C")
    (lit "x"))
  let failing : V2.Service Unit :=
    ⟨lit "a.B", fun _ _ => ⟨[], .ok (V2.AbslStatus.unknownError (lit "failed"), lit "x")⟩⟩
  have hmissing : Emitted ℕ Unit stringProtobuf () (.v2 [] req)
      (V2.makeReply stringProtobuf (V2.AbslStatus.unimplementedError (lit "url not found")) []) :=
    .v2 [] req _ [] _ (by rfl) (by rfl) (by decide) (by decide) (by rfl)
  have hfailing : Emitted ℕ Unit stringProtobuf () (.v2 [failing] req)
      (V2.makeReply stringProtobuf (V2.AbslStatus.unknownError (lit "failed")) (lit "x")) :=
    .v2 [failing] req _ (lit "x") _ (by rfl) (by rfl) (by decide) (by decide) (by rfl)
  obtain ⟨s, hrun, hends, houtcome⟩ := V1.reaches_deadlineEnd
  have hemitted : Emitted ℕ Unit stringProtobuf () .v1 V1.deadlineReply := by
    refine .v1 [V1.Request.todo] _ 1000 _ s V1.deadlineEnd _ hrun (by simp [hends]) rfl
      (V1.deadlineEnd_valid houtcome) ⟨?_, ?_⟩ ?_
    · intro st hst
      rw [houtcome] at hst
      cases hst
    · intro st proto hresult
      cases hresult
      decide
    · intro outcome hended
      obtain rfl := V1.outcome_deadlineEnd hended
      exact ⟨by rfl, trivial⟩
  have hunanswered : (Sender.v2 [] req : Sender Unit).WritesHeader stringProtobuf := by
    rintro ⟨-, -, svc, resp, hfind, -⟩
    cases hfind
  have hunfinished : (Sender.v2 [failing] req : Sender Unit).WritesHeader stringProtobuf := by
    rintro ⟨-, -, svc, resp, hfind, hexec⟩
    obtain rfl := List.mem_singleton.mp (List.mem_of_find?_eq_some hfind)
    exact absurd (Prod.mk.inj (Except.ok.inj hexec)).1 (by decide)
  have hlawful := stringProtobuf_lawful
  exact ⟨(clients_agree_iff_header hlawful hmissing (lit "old")).mpr hunanswered,
    (clients_agree_iff_header hlawful hfailing (lit "old")).mpr hunfinished,
    (clients_agree_iff_header hlawful hemitted (lit "old")).mpr trivial⟩

-- The clients do not agree on the successful reply of the example service.
theorem ok_reply_of_v2_fails_for_v1 :
    ∃ reply, Emitted ℕ (V2.HandlerCall fun _ : Unit => Bytes) stringProtobuf ()
        (.v2 [V2.fabricHello.toService stringProtobuf] (some (V2.makeRequest stringProtobuf
          (stringProtobuf.payload ()) (lit "/helloworld.FabricHello/SayHello") (lit "myname"))))
        reply ∧
      V1.execClientEnd stringProtobuf (stringProtobuf.payload ()) 0 (some reply) [] =
        (.make V1.StatusCode.UNKNOWN (lit "Server returned empty header"), []) ∧
      V2.onReply stringProtobuf (stringProtobuf.payload ()) 0 (some reply) (some []) =
        (⟨0, V2.AbslStatus.okStatus⟩, some (lit "Hellomyname")) ∧
      ¬ClientsAgree stringProtobuf (stringProtobuf.payload ()) reply [] := by
  refine ⟨V2.makeReply stringProtobuf V2.AbslStatus.okStatus
    ((stringProtobuf.payload ()).serializeAsString (lit "Hellomyname")),
    .v2 _ _ _ ((stringProtobuf.payload ()).serializeAsString (lit "Hellomyname")) _ (by rfl)
      (by rfl) (by decide) (by decide) (by rfl), by rfl, by rfl, ?_⟩
  exact not_agree_silent stringProtobuf_lawful rfl _ []

end FabricRpc
