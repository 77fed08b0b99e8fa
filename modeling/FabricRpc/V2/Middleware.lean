import FabricRpc.Descriptor
import FabricRpc.V2.Parse

namespace FabricRpc.V2

open Lib AbslStatus

-- A C++ exception, which leaves a coroutine through its awaiting callers.
structure Exn where
  what : Bytes
  deriving DecidableEq

-- What a run of service::execute did: the calls of user handlers that it made,
-- and how it ended: with an exception, or with a status and what is then in
-- `resp`, which is empty before.
structure Execution (κ : Type*) where
  handled : List κ
  result : Except Exn (AbslStatus × Bytes)

-- service
structure Service (κ : Type*) where
  name : Bytes
  execute : Bytes → Bytes → Execution κ

-- What a run of the middleware did: the names of the services that it called
-- execute of, and the rest as above.
structure Dispatch (κ ρ : Type*) where
  called : List Bytes
  handled : List κ
  result : Except Exn ρ

section Middleware

variable {σ : Type*} {Msg : σ → Type*} {κ : Type*}

-- The loop of execute_inner.
def dispatch (url payload : Bytes) : List (Service κ) → Dispatch κ (AbslStatus × Bytes)
  | [] => ⟨[], [], .ok (unimplementedError (lit "url not found"), [])⟩
  | svc :: svcs =>
      if !svc.name.isPrefixOf (url.drop 1) then dispatch url payload svcs
      else
        let execution := svc.execute url payload
        ⟨[svc.name], execution.handled, execution.result⟩

def executeInner (pb : Protobuf σ Msg) (svcs : List (Service κ)) (req : Option TransportMessage) :
    Dispatch κ (AbslStatus × Bytes) :=
  let (st, url) := parseRequestHeader pb (getHeader req)
  if !st.ok then ⟨[], [], .ok (st, [])⟩
  else if url.length = 0 then ⟨[], [], .ok (invalidArgumentError (lit "url is empty"), [])⟩
  else if !(lit "/").isPrefixOf url then
    ⟨[], [], .ok (invalidArgumentError (lit "invalid url"), [])⟩
  else dispatch url (getBody req) svcs

-- What execute makes of a status and a response. The assertion on the result
-- of the serialisation is compiled out.
def makeReply (pb : Protobuf σ Msg) (st : AbslStatus) (respStr : Bytes) : TransportMessage :=
  let (_, respHeader) := serializeReplyHeader pb st
  toolTransportMsg respStr respHeader

theorem getBody_makeReply_eq (pb : Protobuf σ Msg) (st : AbslStatus) (respStr : Bytes) :
    getBody (some (makeReply pb st respStr)) = bufferOf respStr :=
  getBody_toolTransportMsg _ _

def replyTo (pb : Protobuf σ Msg) (inner : Dispatch κ (AbslStatus × Bytes)) :
    Dispatch κ TransportMessage :=
  ⟨inner.called, inner.handled, inner.result.map fun (st, respStr) => makeReply pb st respStr⟩

def execute (pb : Protobuf σ Msg) (svcs : List (Service κ)) (req : Option TransportMessage) :
    Dispatch κ TransportMessage :=
  replyTo pb (executeInner pb svcs req)

section Url

variable {pb : Protobuf σ Msg} {svcs : List (Service κ)} {req : Option TransportMessage}
  {st : AbslStatus} {url : Bytes}

-- Only a request with a url that begins with a slash gets to the services.
theorem executeInner_of_url (hreq : parseRequestHeader pb (getHeader req) = (st, url))
    (hst : st.ok = true) (hstart : (lit "/").isPrefixOf url = true) :
    executeInner pb svcs req = dispatch url (getBody req) svcs := by
  have hlength : ¬url.length = 0 := by
    intro hnil
    rw [List.length_eq_zero_iff.mp hnil] at hstart
    exact absurd hstart (by decide)
  simp only [executeInner, hreq, hst, hlength, hstart, Bool.not_true, Bool.false_eq_true, if_false]

theorem executeInner_of_bad_url (svcs : List (Service κ))
    (hreq : parseRequestHeader pb (getHeader req) = (st, url))
    (hbad : ¬(st.ok = true ∧ (lit "/").isPrefixOf url = true)) :
    ∃ err, err.ok = false ∧ executeInner pb svcs req = ⟨[], [], .ok (err, [])⟩ := by
  cases hst : st.ok with
  | false =>
      refine ⟨st, hst, ?_⟩
      simp only [executeInner, hreq, hst, Bool.not_false, if_true]
  | true =>
      have hstart : (lit "/").isPrefixOf url = false :=
        Bool.eq_false_iff.mpr fun hstart => hbad ⟨hst, hstart⟩
      by_cases hlength : url.length = 0
      · refine ⟨_, ok_invalidArgumentError (lit "url is empty"), ?_⟩
        simp only [executeInner, hreq, hst, hlength, Bool.not_true, Bool.false_eq_true, if_false,
          if_true]
      · refine ⟨_, ok_invalidArgumentError (lit "invalid url"), ?_⟩
        simp only [executeInner, hreq, hst, hlength, hstart, Bool.not_true, Bool.not_false,
          Bool.false_eq_true, if_false, if_true]

end Url

-- The loop runs the first service whose name begins the route, if there is one.
theorem dispatch_eq (url payload : Bytes) (svcs : List (Service κ)) :
    dispatch url payload svcs =
      match svcs.find? fun svc => svc.name.isPrefixOf (url.drop 1) with
      | some svc =>
          ⟨[svc.name], (svc.execute url payload).handled, (svc.execute url payload).result⟩
      | none => ⟨[], [], .ok (unimplementedError (lit "url not found"), [])⟩ := by
  induction svcs with
  | nil => rfl
  | cons other svcs ih =>
      rw [List.find?_cons]
      cases hother : other.name.isPrefixOf (url.drop 1) with
      | true => simp only [dispatch, hother, Bool.not_true, Bool.false_eq_true, if_false]
      | false =>
          simp only [dispatch, hother, Bool.not_false, if_true]
          exact ih

theorem dispatch_of_find {url payload : Bytes} {svcs : List (Service κ)} {svc : Service κ}
    (h : svcs.find? (fun svc => svc.name.isPrefixOf (url.drop 1)) = some svc) :
    dispatch url payload svcs =
      ⟨[svc.name], (svc.execute url payload).handled, (svc.execute url payload).result⟩ := by
  rw [dispatch_eq, h]

theorem dispatch_of_find_none {url payload : Bytes} {svcs : List (Service κ)}
    (h : svcs.find? (fun svc => svc.name.isPrefixOf (url.drop 1)) = none) :
    dispatch url payload svcs = ⟨[], [], .ok (unimplementedError (lit "url not found"), [])⟩ := by
  rw [dispatch_eq, h]

end Middleware

section Generated

variable {σ : Type*} {Msg : σ → Type*}

-- A method of a generated service, with the user's implementation of it, which
-- returns a status and what it has then put into the response.
structure GeneratedMethod (Msg : σ → Type*) where
  name : Ident
  request : σ
  response : σ
  handler : Msg request → Except Exn (AbslStatus × Msg response)

-- A service as the generator writes it.
structure GeneratedService (Msg : σ → Type*) where
  package : Package
  service : Ident
  methods : List (GeneratedMethod Msg)

-- A call of the user's implementation of a method.
structure HandlerCall (Msg : σ → Type*) where
  url : Bytes
  request : σ
  message : Msg request

def codegenHandlerHelper {Req Resp : Type*} (reqProto : Codec Req) (replyProto : Codec Resp)
    (p1 : Req) (req : Bytes) (fn : Req → Except Exn (AbslStatus × Resp)) : Execution Req :=
  let (st, parsed) := parseProtoPayload reqProto req (some p1)
  match st.ok, parsed with
  | true, some request =>
      match fn request with
      | .error exn => ⟨[request], .error exn⟩
      | .ok (st, response) =>
          if !st.ok then ⟨[request], .ok (st, [])⟩
          else
            let (st, resp) := serializeProtoPayload replyProto (some response) (some [])
            ⟨[request], .ok (st, resp.getD [])⟩
  | _, _ => ⟨[], .ok (st, [])⟩

namespace GeneratedService

def url (svc : GeneratedService Msg) (method : GeneratedMethod Msg) : Bytes :=
  methodUrl svc.package svc.service method.name

-- The generator writes this name for every service.
def name (_ : GeneratedService Msg) : Bytes := lit "helloworld.FabricHello"

-- The chain of comparisons of the url with the methods, in the order of the file.
def execute (pb : Protobuf σ Msg) (svc : GeneratedService Msg) (url req : Bytes) :
    Execution (HandlerCall Msg) :=
  match svc.methods.find? (fun method => url == svc.url method) with
  | some method =>
      let execution := codegenHandlerHelper (pb.payload method.request)
        (pb.payload method.response) (pb.empty method.request) req method.handler
      ⟨execution.handled.map fun request => ⟨url, method.request, request⟩, execution.result⟩
  | none => ⟨[], .ok (unimplementedError (lit "url: " ++ url ++ lit " not found"), [])⟩

def toService (pb : Protobuf σ Msg) (svc : GeneratedService Msg) : Service (HandlerCall Msg) :=
  ⟨svc.name, svc.execute pb⟩

end GeneratedService

end Generated

end FabricRpc.V2
