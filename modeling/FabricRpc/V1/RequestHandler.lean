import FabricRpc.Lib.Machine
import FabricRpc.TransportMessage
import FabricRpc.V1.Operation
import FabricRpc.V1.Router

namespace FabricRpc.V1

open Lib

-- The contexts of a request: the one that wraps the payload and goes to the
-- transport, the dummy of a failed begin, and those of the user's operation.
inductive Ctx (υ : Type*) where
  | wrap
  | dummy
  | user (u : υ)
  deriving DecidableEq

-- The assertions, and the uses of a null pointer.
inductive Fault where
  | endOpNull
  | beginOpNull
  | ctxNotNull
  | contextNull
  | innerCtxMismatch
  | wrapCtxNull
  | ctxWrapNull
  | innerCtxNull
  deriving DecidableEq

-- Where BeginProcessRequest is.
inductive BeginPc (σ υ : Type*) where
  | start
  | routed (ops : Ops σ)
  | invoking (beginOp : Option (Operation σ)) (newTimeout : UInt32)
  | inUser
  | checked (err : Status) (ctx : Option (Ctx υ))
  | failed
  | inCallback (i : ℕ)
  | returning
  | returned (context : Ctx υ)

-- Where a call of FRPCOperationCallback::Invoke is.
inductive InvokePc where
  | asserts
  | setInner
  | transport
  | release
  | done
  deriving DecidableEq

structure Invocation (υ : Type*) where
  context : Option (Ctx υ)
  pc : InvokePc

-- Where a call of EndProcessRequest is.
inductive EndPc (σ : Type*) where
  | reading
  | asserts
  | invoking
  | inUser (endOp : Operation σ)
  | finished (reply : TransportMessage)

namespace EndPc

def ready {σ : Type*} : EndPc σ → Bool
  | .inUser _ | .finished _ => false
  | _ => true

def userOp {σ : Type*} : EndPc σ → Option (Operation σ)
  | .inUser endOp => some endOp
  | _ => none

theorem eq_inUser {σ : Type*} {pc : EndPc σ} {op : Operation σ} (h : op ∈ pc.userOp) :
    pc = .inUser op := by
  cases pc with
  | inUser endOp => rw [Option.some.inj h]
  | reading => exact absurd h (by simp [userOp])
  | asserts => exact absurd h (by simp [userOp])
  | invoking => exact absurd h (by simp [userOp])
  | finished reply => exact absurd h (by simp [userOp])

end EndPc

-- A call of EndProcessRequest: the calls of user End operations that it made,
-- and what the user's operation returned.
structure EndCall (σ υ : Type*) (Msg : σ → Type*) where
  pc : EndPc σ
  calls : List (Operation σ × Option (Ctx υ))
  result : Option (Status × Sigma Msg)

-- A call of a user's Begin operation.
structure BeginCall (σ : Type*) (Msg : σ → Type*) where
  op : Operation σ
  request : Sigma Msg
  timeoutMilliseconds : UInt32

-- A request under way. The first fields are those of ctxPayload and of
-- FRPCOperationCallback; the others are the calls under way and what they did.
structure Request (σ υ : Type*) (Msg : σ → Type*) where
  endOp : Option (Operation σ)
  beginStatus : Status
  innerCtx : Option (Ctx υ)
  wrapCtx : Option (Ctx υ)
  beginPc : BeginPc σ υ
  invocations : List (Invocation υ)
  transportCalls : List (Option (Ctx υ))
  ends : List (EndCall σ υ Msg)
  beginCalls : List (BeginCall σ Msg)
  outcome : Option (Status × Option υ)

-- The steps of the threads. Begin measures the elapsed times; the user's
-- Begin returns a status and a context, and invokes the callback with one.
inductive RequestLabel (σ υ : Type*) (Msg : σ → Type*) where
  | beginStep (elapsed : ℕ)
  | userReturn (err : Status) (ctx : Option υ)
  | userInvoke (ctx : Option υ)
  | invoke (i : ℕ)
  | endStart (context : Ctx υ)
  | endStep (i : ℕ)
  | endReturn (i : ℕ) (err : Status) (proto : Sigma Msg)

section Handler

variable {σ υ : Type*} {Msg : σ → Type*}

-- From the copy of the message to the call of Route.
def parseRequest (pb : Protobuf σ Msg) (route : MiddleWare σ) (msg : FRPCTransportMessage) :
    Status × Ops σ :=
  if msg.header.length = 0 then
    (.make StatusCode.INVALID_ARGUMENT (lit "fabric rpc header is empty"), ⟨none, none⟩)
  else
    let (header, ok) := deserializeRequestHeader pb msg.header ⟨[]⟩
    if !ok then
      (.make StatusCode.INVALID_ARGUMENT (lit "Cannot parse fabric rpc header"), ⟨none, none⟩)
    else route header.url ⟨none, none⟩

-- The end of EndProcessRequest. The assertion on the serialisation is compiled out.
def makeReply (pb : Protobuf σ Msg) (err : Status) (replyStr : Bytes) : TransportMessage :=
  let (header, _) := serializeReplyHeader pb ⟨err.errorCode, err.errorMessage⟩
  (FRPCTransportMessage.init header replyStr).message

-- From the return of the user's End operation. The assertion on the message of
-- the status is compiled out.
def endReply (pb : Protobuf σ Msg) (err : Status) (proto : Sigma Msg) : TransportMessage :=
  let (err, replyStr) := endOperation (pb.payload proto.1) err proto.2
  makeReply pb err (if err.failed then [] else replyStr)

namespace Request

def new : Request σ υ Msg where
  endOp := none
  beginStatus := .ok
  innerCtx := none
  wrapCtx := some .wrap
  beginPc := .start
  invocations := []
  transportCalls := []
  ends := []
  beginCalls := []
  outcome := none

-- ctxPayload::SetInnerCtx, under the lock.
def setInnerCtx [DecidableEq υ] (s : Request σ υ Msg) (context : Option (Ctx υ)) :
    Except Fault (Request σ υ Msg) :=
  match s.innerCtx, context with
  | none, none => .error .contextNull
  | none, some context => .ok { s with innerCtx := some context }
  | some inner, context => if context = some inner then .ok s else .error .innerCtxMismatch

def beginStep [DecidableEq υ] (pb : Protobuf σ Msg) (route : MiddleWare σ)
    (msg : FRPCTransportMessage) (timeoutMilliseconds : UInt32) (s : Request σ υ Msg)
    (elapsed : ℕ) : Except Fault (Request σ υ Msg) :=
  match s.beginPc with
  | .start =>
      let (err, ops) := parseRequest pb route msg
      .ok { s with beginPc := if !err.failed then .routed ops else .checked err none }
  | .routed ops =>
      match ops.endOp with
      | none => .error .endOpNull
      | some endOp =>
          .ok { s with
            endOp := some endOp
            beginPc := .invoking ops.beginOp (newTimeout timeoutMilliseconds elapsed) }
  | .invoking none _ => .error .beginOpNull
  | .invoking (some op) timeout =>
      match beginOperation (pb.payload op.proto) msg.body timeout elapsed with
      | .error err => .ok { s with beginPc := .checked err none }
      | .ok (request, timeout) =>
          .ok { s with
            beginPc := .inUser
            beginCalls := s.beginCalls ++ [⟨op, ⟨op.proto, request⟩, timeout⟩] }
  | .checked err ctx =>
      if !err.failed then
        (s.setInnerCtx ctx).map fun s => { s with beginPc := .returning }
      else if ctx.isSome then .error .ctxNotNull
      else .ok { s with beginStatus := err, beginPc := .failed }
  | .failed =>
      .ok { s with
        invocations := s.invocations ++ [⟨some .dummy, .asserts⟩]
        beginPc := .inCallback s.invocations.length }
  | .inCallback _ => .ok { s with beginPc := .returning }
  | .returning => .ok { s with beginPc := .returned .wrap }
  | .inUser | .returned _ => .ok s

def advance (s : Request σ υ Msg) (i : ℕ) (pc : InvokePc) : Request σ υ Msg :=
  { s with invocations := s.invocations.modify i fun inv => { inv with pc := pc } }

-- FRPCOperationCallback::Invoke
def invokeStep [DecidableEq υ] (s : Request σ υ Msg) (i : ℕ) :
    Except Fault (Request σ υ Msg) :=
  match s.invocations[i]? with
  | none => .ok s
  | some inv =>
      match inv.pc with
      | .asserts =>
          if inv.context.isNone then .error .contextNull
          else if s.wrapCtx.isNone then .error .wrapCtxNull
          else .ok (s.advance i .setInner)
      | .setInner =>
          if s.wrapCtx.isNone then .error .wrapCtxNull
          else (s.setInnerCtx inv.context).map fun s => s.advance i .transport
      | .transport =>
          .ok ({ s with transportCalls := s.transportCalls ++ [s.wrapCtx] }.advance i .release)
      | .release => .ok ({ s with wrapCtx := none }.advance i .done)
      | .done => .ok s

def endStart (s : Request σ υ Msg) : Ctx υ → Except Fault (Request σ υ Msg)
  | .wrap => .ok { s with ends := s.ends ++ [⟨.reading, [], none⟩] }
  | _ => .error .ctxWrapNull

def setEnd (s : Request σ υ Msg) (i : ℕ) (call : EndCall σ υ Msg) : Request σ υ Msg :=
  { s with ends := s.ends.set i call }

-- EndProcessRequest
def endStep (pb : Protobuf σ Msg) (s : Request σ υ Msg) (i : ℕ) :
    Except Fault (Request σ υ Msg) :=
  match s.ends[i]? with
  | none => .ok s
  | some call =>
      match call.pc with
      | .reading =>
          if s.beginStatus.failed then
            .ok (s.setEnd i { call with pc := .finished (makeReply pb s.beginStatus []) })
          else .ok (s.setEnd i { call with pc := .asserts })
      | .asserts =>
          if s.endOp.isNone then .error .endOpNull
          else if s.innerCtx.isNone then .error .innerCtxNull
          else .ok (s.setEnd i { call with pc := .invoking })
      | .invoking =>
          match s.endOp with
          | none => .error .endOpNull
          | some endOp =>
              .ok (s.setEnd i { call with
                pc := .inUser endOp
                calls := call.calls ++ [(endOp, s.innerCtx)] })
      | .inUser _ | .finished _ => .ok s

def endReturn (pb : Protobuf σ Msg) (s : Request σ υ Msg) (i : ℕ) (err : Status)
    (proto : Sigma Msg) : Request σ υ Msg :=
  match s.ends[i]? with
  | none => s
  | some call =>
      s.setEnd i { call with
        pc := .finished (endReply pb err proto)
        result := some (err, proto) }

-- BeginProcessRequest has a step of its own to take.
def beginReady (s : Request σ υ Msg) : Bool :=
  match s.beginPc with
  | .inUser | .returned _ => false
  | .inCallback i => (s.invocations[i]?).map Invocation.pc == some .done
  | _ => true

def inUserBegin (s : Request σ υ Msg) : Bool :=
  match s.beginPc with
  | .inUser => true
  | _ => false

-- The user has the callback once its Begin was called, and the transport the
-- context once it was called back.
def Enabled (s : Request σ υ Msg) : RequestLabel σ υ Msg → Prop
  | .beginStep _ => s.beginReady = true
  | .userReturn _ _ => s.inUserBegin = true
  | .userInvoke _ => s.beginCalls ≠ []
  | .invoke i => ∃ inv ∈ s.invocations[i]?, inv.pc ≠ .done
  | .endStart context => some context ∈ s.transportCalls
  | .endStep i => ∃ call ∈ s.ends[i]?, call.pc.ready = true
  | .endReturn i _ proto =>
      ∃ call ∈ s.ends[i]?, ∃ op ∈ call.pc.userOp, proto.1 = op.proto

instance [DecidableEq σ] [DecidableEq υ] (s : Request σ υ Msg) :
    (label : RequestLabel σ υ Msg) → Decidable (s.Enabled label)
  | .beginStep _ => inferInstanceAs (Decidable (s.beginReady = true))
  | .userReturn _ _ => inferInstanceAs (Decidable (s.inUserBegin = true))
  | .userInvoke _ => inferInstanceAs (Decidable (s.beginCalls ≠ []))
  | .invoke i => inferInstanceAs (Decidable (∃ inv ∈ s.invocations[i]?, inv.pc ≠ .done))
  | .endStart context => inferInstanceAs (Decidable (some context ∈ s.transportCalls))
  | .endStep i => inferInstanceAs (Decidable (∃ call ∈ s.ends[i]?, call.pc.ready = true))
  | .endReturn i _ proto => inferInstanceAs
      (Decidable (∃ call ∈ s.ends[i]?, ∃ op ∈ call.pc.userOp, proto.1 = op.proto))

def exec [DecidableEq υ] (pb : Protobuf σ Msg) (route : MiddleWare σ)
    (message : Option TransportMessage) (timeoutMilliseconds : UInt32) (s : Request σ υ Msg) :
    RequestLabel σ υ Msg → Except Fault (Request σ υ Msg)
  | .beginStep elapsed =>
      s.beginStep pb route (.copyMsg message) timeoutMilliseconds elapsed
  | .userReturn err ctx =>
      .ok { s with beginPc := .checked err (ctx.map .user), outcome := some (err, ctx) }
  | .userInvoke ctx =>
      .ok { s with invocations := s.invocations ++ [⟨ctx.map .user, .asserts⟩] }
  | .invoke i => s.invokeStep i
  | .endStart context => s.endStart context
  | .endStep i => s.endStep pb i
  | .endReturn i err proto => .ok (s.endReturn pb i err proto)

section Frame

variable {pb : Protobuf σ Msg} {s s' : Request σ υ Msg} {i : ℕ}

theorem setInnerCtx_ok [DecidableEq υ] {context : Option (Ctx υ)}
    (hx : s.setInnerCtx context = .ok s') : ∃ innerCtx, s' = { s with innerCtx := innerCtx } := by
  unfold setInnerCtx at hx
  split at hx
  · cases hx
  · exact ⟨_, (Except.ok.inj hx).symm⟩
  · split at hx
    · exact ⟨s.innerCtx, (Except.ok.inj hx).symm⟩
    · cases hx

-- A callback moves on, and touches the payload and the transport only.
theorem invokeStep_cases [DecidableEq υ] (hx : s.invokeStep i = .ok s') :
    s' = s ∨ ∃ inv ∈ s.invocations[i]?, ∃ innerCtx wrapCtx transportCalls pc,
      s' = { s with
        innerCtx := innerCtx
        wrapCtx := wrapCtx
        transportCalls := transportCalls }.advance i pc := by
  unfold invokeStep at hx
  split at hx
  · exact .inl (Except.ok.inj hx).symm
  · rename_i inv hinv
    split at hx
    · split at hx
      · cases hx
      · split at hx
        · cases hx
        · exact .inr ⟨inv, hinv, s.innerCtx, s.wrapCtx, s.transportCalls, .setInner,
            (Except.ok.inj hx).symm⟩
    · split at hx
      · cases hx
      · cases hset : s.setInnerCtx inv.context with
        | error fault => simp [hset, Except.map] at hx
        | ok next =>
            obtain ⟨innerCtx, rfl⟩ := setInnerCtx_ok hset
            rw [hset] at hx
            exact .inr ⟨inv, hinv, innerCtx, s.wrapCtx, s.transportCalls, .transport,
              (Except.ok.inj hx).symm⟩
    · exact .inr ⟨inv, hinv, s.innerCtx, s.wrapCtx, s.transportCalls ++ [s.wrapCtx], .release,
        (Except.ok.inj hx).symm⟩
    · exact .inr ⟨inv, hinv, s.innerCtx, none, s.transportCalls, .done, (Except.ok.inj hx).symm⟩
    · exact .inl (Except.ok.inj hx).symm

theorem endStart_ok {context : Ctx υ} (hx : s.endStart context = .ok s') :
    s' = { s with ends := s.ends ++ [⟨.reading, [], none⟩] } := by
  unfold endStart at hx
  split at hx
  · exact (Except.ok.inj hx).symm
  · cases hx

-- EndProcessRequest touches its own call only.
theorem endStep_cases (hx : s.endStep pb i = .ok s') :
    s' = s ∨ ∃ call, s' = s.setEnd i call := by
  unfold endStep at hx
  split at hx
  · exact .inl (Except.ok.inj hx).symm
  · split at hx
    · split at hx
      · exact .inr ⟨_, (Except.ok.inj hx).symm⟩
      · exact .inr ⟨_, (Except.ok.inj hx).symm⟩
    · split at hx
      · cases hx
      · split at hx
        · cases hx
        · exact .inr ⟨_, (Except.ok.inj hx).symm⟩
    · split at hx
      · cases hx
      · exact .inr ⟨_, (Except.ok.inj hx).symm⟩
    · exact .inl (Except.ok.inj hx).symm
    · exact .inl (Except.ok.inj hx).symm

theorem endReturn_cases (s : Request σ υ Msg) (err : Status) (proto : Sigma Msg) :
    s.endReturn pb i err proto = s ∨ ∃ call, s.endReturn pb i err proto = s.setEnd i call := by
  unfold endReturn
  split
  · exact .inl rfl
  · exact .inr ⟨_, rfl⟩

end Frame

end Request

def requestMachine [DecidableEq υ] (pb : Protobuf σ Msg) (route : MiddleWare σ)
    (message : Option TransportMessage) (timeoutMilliseconds : UInt32) :
    Machine (Request σ υ Msg) (RequestLabel σ υ Msg) Fault where
  enabled := Request.Enabled
  exec := Request.exec pb route message timeoutMilliseconds

instance [DecidableEq σ] [DecidableEq υ] (pb : Protobuf σ Msg) (route : MiddleWare σ)
    (message : Option TransportMessage) (timeoutMilliseconds : UInt32) (s : Request σ υ Msg)
    (label : RequestLabel σ υ Msg) :
    Decidable ((requestMachine pb route message timeoutMilliseconds).enabled s label) :=
  inferInstanceAs (Decidable (s.Enabled label))

end Handler

end FabricRpc.V1
