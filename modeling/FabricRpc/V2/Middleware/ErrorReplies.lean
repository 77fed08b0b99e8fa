import FabricRpc.V2.Middleware.Routing

namespace FabricRpc.V2

open Lib AbslStatus

section ErrorReplies

variable {σ : Type*} {Msg : σ → Type*} {κ : Type*} {pb : Protobuf σ Msg}
  {req : Option TransportMessage}

-- The reply that execute builds, and the status that its header is made of.
structure Replies (pb : Protobuf σ Msg) (svcs : List (Service κ)) (req : Option TransportMessage)
    (st : AbslStatus) (reply : TransportMessage) : Prop where
  inner : ∃ resp, (executeInner pb svcs req).result = .ok (st, resp) ∧
    reply = makeReply pb st resp
  outer : (execute pb svcs req).result = .ok reply

-- Every reply with an error in its header has an empty body.
def ErrorRepliesEmpty (pb : Protobuf σ Msg) (svcs : List (Service κ))
    (req : Option TransportMessage) : Prop :=
  ∀ st reply, Replies pb svcs req st reply → st.rawCode ≠ 0 → getBody (some reply) = []

-- The request leads to a service that writes to `resp` and then returns an
-- error. The buffer over what it wrote shows the size modulo 2^32.
def WritesInError (pb : Protobuf σ Msg) (svcs : List (Service κ))
    (req : Option TransportMessage) : Prop :=
  let (st, url) := parseRequestHeader pb (getHeader req)
  st.ok = true ∧ (lit "/").isPrefixOf url = true ∧
    ∃ svc err resp, svcs.find? (fun svc => svc.name.isPrefixOf (url.drop 1)) = some svc ∧
      (svc.execute url (getBody req)).result = .ok (err, resp) ∧
      err.ok = false ∧ resp.length % 2 ^ 32 ≠ 0

theorem bufferOf_eq_nil_iff {s : Bytes} : bufferOf s = [] ↔ s.length % 2 ^ 32 = 0 := by
  constructor
  · intro h
    have hlength := congrArg List.length h
    rw [bufferOf, List.length_take, List.length_nil] at hlength
    have hle := Nat.mod_le s.length (2 ^ 32)
    omega
  · intro h
    rw [bufferOf, h, List.take_zero]

theorem ok_eq_false_iff {st : AbslStatus} : st.ok = false ↔ st.rawCode ≠ 0 := by
  simp [ok]

-- A reply is made of what execute_inner ended with.
theorem replies_iff {svcs : List (Service κ)} {st : AbslStatus} {reply : TransportMessage} :
    Replies pb svcs req st reply ↔
      ∃ resp, (executeInner pb svcs req).result = .ok (st, resp) ∧
        reply = makeReply pb st resp := by
  refine ⟨fun h => h.inner, ?_⟩
  rintro ⟨resp, hinner, rfl⟩
  refine ⟨⟨resp, hinner, rfl⟩, ?_⟩
  rw [execute, replyTo, hinner]
  rfl

-- So its body is empty in every error exactly if nothing was left in `resp`.
theorem errorRepliesEmpty_iff {svcs : List (Service κ)} :
    ErrorRepliesEmpty pb svcs req ↔
      ∀ st resp, (executeInner pb svcs req).result = .ok (st, resp) → st.ok = false →
        resp.length % 2 ^ 32 = 0 := by
  constructor
  · intro h st resp hinner hst
    have hbody := h st _ (replies_iff.mpr ⟨resp, hinner, rfl⟩) (ok_eq_false_iff.mp hst)
    rw [getBody_makeReply_eq] at hbody
    exact bufferOf_eq_nil_iff.mp hbody
  · intro h st reply hreply hst
    obtain ⟨resp, hinner, rfl⟩ := replies_iff.mp hreply
    rw [getBody_makeReply_eq]
    exact bufferOf_eq_nil_iff.mpr (h st resp hinner (ok_eq_false_iff.mpr hst))

-- The exits before a service is called leave `resp` alone, and so does the
-- loop that finds none.
theorem errorRepliesEmpty_iff_not_written (svcs : List (Service κ)) :
    ErrorRepliesEmpty pb svcs req ↔ ¬WritesInError pb svcs req := by
  rw [errorRepliesEmpty_iff, WritesInError]
  obtain ⟨st, url, hreq⟩ : ∃ st url, parseRequestHeader pb (getHeader req) = (st, url) :=
    ⟨_, _, rfl⟩
  simp only [hreq]
  by_cases hgood : st.ok = true ∧ (lit "/").isPrefixOf url = true
  · rw [executeInner_of_url hreq hgood.1 hgood.2]
    cases hfind : svcs.find? (fun svc => svc.name.isPrefixOf (url.drop 1)) with
    | none =>
        rw [dispatch_of_find_none hfind]
        constructor
        · rintro - ⟨-, -, svc, err, resp, hsvc, -⟩
          cases hsvc
        · intro _ st resp hinner _
          obtain ⟨-, rfl⟩ := Prod.mk.inj (Except.ok.inj hinner)
          rfl
    | some svc =>
        rw [dispatch_of_find hfind]
        constructor
        · rintro h ⟨-, -, svc', err, resp, hsvc, hexec, herr, hwritten⟩
          obtain rfl := Option.some.inj hsvc
          exact hwritten (h err resp hexec herr)
        · intro h err resp hexec herr
          by_contra hwritten
          exact h ⟨hgood.1, hgood.2, svc, err, resp, rfl, hexec, herr, hwritten⟩
  · obtain ⟨err, -, hbad⟩ := executeInner_of_bad_url svcs hreq hgood
    rw [hbad]
    constructor
    · rintro - ⟨hst, hstart, -⟩
      exact hgood ⟨hst, hstart⟩
    · intro _ st resp hinner _
      obtain ⟨-, rfl⟩ := Prod.mk.inj (Except.ok.inj hinner)
      rfl

-- What a client reads from the header of a reply.
theorem Replies.header {svcs : List (Service κ)} {st : AbslStatus} {reply : TransportMessage}
    (h : Replies pb svcs req st reply) (hpb : pb.Lawful) (hvalid : validUtf8 st.message = true)
    (hserializes : pb.replyHeader.Serializes ⟨st.rawCode, st.message⟩) :
    pb.replyHeader.parseFromString (getHeader (some reply)) =
      (⟨st.rawCode, st.message⟩, true) := by
  obtain ⟨resp, -, rfl⟩ := h.inner
  have hlength := hpb.replyHeader.length_lt ⟨st.rawCode, st.message⟩
  rw [makeReply, serializeReplyHeader_eq hserializes]
  show pb.replyHeader.parseFromString (bufferOf _) = _
  rw [bufferOf_eq (by omega)]
  exact hpb.replyHeader.parse_serializeAsString hserializes hvalid

-- The header of a reply has the status that the reply is built from, and the
-- body of every reply with an error is empty exactly if no service writes to
-- `resp` and then fails.
theorem error_replies_empty_iff_silent (hpb : pb.Lawful) (svcs : List (Service κ))
    (req : Option TransportMessage) :
    (∀ st reply, Replies pb svcs req st reply → validUtf8 st.message = true →
      pb.replyHeader.Serializes ⟨st.rawCode, st.message⟩ →
      pb.replyHeader.parseFromString (getHeader (some reply)) =
        (⟨st.rawCode, st.message⟩, true)) ∧
    (ErrorRepliesEmpty pb svcs req ↔ ¬WritesInError pb svcs req) :=
  ⟨fun _ _ h hvalid hserializes => h.header hpb hvalid hserializes,
    errorRepliesEmpty_iff_not_written svcs⟩

end ErrorReplies

section Generated

variable {σ : Type*} {Msg : σ → Type*} {pb : Protobuf σ Msg}

-- The helper of the generated services writes only when the user's handler has
-- returned OK, and then only an error of the serialisation can follow.
theorem codegenHandlerHelper_error {Req Resp : Type*} {reqProto : Codec Req}
    {replyProto : Codec Resp} (hserializes : ∀ m, replyProto.Serializes m) {p1 : Req}
    {req : Bytes} {fn : Req → Except Exn (AbslStatus × Resp)} {err : AbslStatus} {resp : Bytes}
    (h : (codegenHandlerHelper reqProto replyProto p1 req fn).result = .ok (err, resp))
    (herr : err.ok = false) : resp = [] := by
  simp only [codegenHandlerHelper] at h
  split at h
  · split at h
    · cases h
    · rename_i response _
      split at h
      · obtain ⟨-, rfl⟩ := Prod.mk.inj (Except.ok.inj h)
        rfl
      · rw [serializeProtoPayload_of_serializes (hserializes response)] at h
        obtain ⟨rfl, -⟩ := Prod.mk.inj (Except.ok.inj h)
        exact absurd herr (by simp)
  · obtain ⟨-, rfl⟩ := Prod.mk.inj (Except.ok.inj h)
    rfl

-- With generated services whose responses serialise, every error reply is empty.
theorem generated_error_replies_empty (hserializes : ∀ t m, (pb.payload t).Serializes m)
    (svcs : List (GeneratedService Msg)) (req : Option TransportMessage) :
    ErrorRepliesEmpty pb (svcs.map (GeneratedService.toService pb)) req := by
  rw [errorRepliesEmpty_iff_not_written]
  rintro ⟨-, -, svc, err, resp, hfind, hexec, herr, hwritten⟩
  obtain ⟨gen, -, rfl⟩ := List.mem_map.mp (List.mem_of_find?_eq_some hfind)
  suffices hnil : resp = [] by simp [hnil] at hwritten
  simp only [GeneratedService.toService, GeneratedService.execute] at hexec
  split at hexec
  · exact codegenHandlerHelper_error (hserializes _) hexec herr
  · obtain ⟨-, rfl⟩ := Prod.mk.inj (Except.ok.inj hexec)
    rfl

end Generated

-- A service that leaves `resp` alone and fails.
theorem error_replies_empty_iff_silent_quiet :
    ErrorRepliesEmpty stringProtobuf
      [(⟨lit "pkg.Foo", fun _ _ => ⟨[], .ok (unknownError [], [])⟩⟩ : Service Unit)]
      (requestTo "/pkg.Foo/M") := by
  refine (error_replies_empty_iff_silent stringProtobuf_lawful _ _).2.mpr ?_
  rintro ⟨-, -, svc, err, resp, hfind, hexec, -, hwritten⟩
  obtain rfl := List.mem_singleton.mp (List.mem_of_find?_eq_some hfind)
  obtain ⟨-, rfl⟩ := Prod.mk.inj (Except.ok.inj hexec)
  exact hwritten rfl

-- A service that writes one byte and then fails.
def failingService : Service Unit :=
  ⟨lit "pkg.Foo", fun _ _ => ⟨[], .ok (unknownError (lit "failed"), [0x78])⟩⟩

theorem failing_service_replies_with_body :
    ¬ErrorRepliesEmpty stringProtobuf [failingService] (requestTo "/pkg.Foo/M") := by
  intro h
  have hreply : Replies stringProtobuf [failingService] (requestTo "/pkg.Foo/M")
      (unknownError (lit "failed"))
      (makeReply stringProtobuf (unknownError (lit "failed")) [0x78]) :=
    replies_iff.mpr ⟨[0x78], by decide, rfl⟩
  exact absurd (h _ _ hreply (by decide)) (by decide)

end FabricRpc.V2
