import FabricRpc.Lib.Machine
import FabricRpc.V2.Server

namespace FabricRpc.V2

-- How far async_req_op is: composed, inside BeginRequest, past it, waiting, or
-- past the call of its handler. `ev` is its event and `ctx` what BeginRequest
-- has put there. `fired` says whether the event was signalled at or after the
-- start of the wait.
inductive SendPhase (κ : Type*) where
  | composed
  | beginning (ev : ℕ)
  | begun (ev : ℕ) (ctx : Option κ)
  | waiting (ev : ℕ) (ctx : Option κ) (fired : Bool)
  | completed
  deriving DecidableEq

-- One call of async_send, with its calls of BeginRequest and EndRequest and of
-- its handler: what BeginRequest was called with and what it returned, each
-- EndRequest with its context and what it gave, and what the handler got.
structure SendOp (μ κ : Type*) where
  req : μ
  callback : ℕ
  phase : SendPhase κ
  sent : List (μ × UInt32)
  began : Option (Int32 × Option κ)
  ended : List (Option κ × Int32 × Option μ)
  handled : List (Int32 × Option μ)
  deriving DecidableEq

-- private_callback: its `ev_`, and whether it is between `ev_->set()` and
-- `ev_.reset()`.
structure PrivateCallback where
  ev : Option ℕ
  invoking : Bool
  deriving DecidableEq

-- The assertions that the callback has its event.
inductive SendFault where
  | getEvent
  | invoke
  deriving DecidableEq

-- A basic_client_connection. Each operation makes a callback and an event, which
-- are known by their number, and `events` says which are signalled.
structure ClientConnection (μ κ : Type*) where
  callbacks : ℕ → PrivateCallback
  events : ℕ → Bool
  ops : List (SendOp μ κ)

inductive SendLabel (μ κ : Type*) where
  | send (req : μ)
  | begin (i : ℕ)
  | began (i : ℕ) (hr : Int32) (ctx : Option κ)
  | wait (i : ℕ)
  | finish (i : ℕ) (hr : Int32) (reply : Option μ)
  | invoke (c : ℕ)
  | release (c : ℕ)
  deriving DecidableEq

def sendTimeout : UInt32 := 1000

namespace SendOp

variable {μ κ : Type*}

-- Up to the call of BeginRequest, with the event that get_event has returned.
def begin (op : SendOp μ κ) (ev : ℕ) : SendOp μ κ :=
  { op with phase := .beginning ev, sent := op.sent ++ [(op.req, sendTimeout)] }

-- From the return of BeginRequest. An error completes the operation.
def onBegan (op : SendOp μ κ) (hr : Int32) (ctx : Option κ) : SendOp μ κ :=
  match op.phase with
  | .beginning ev =>
      if hr ≠ sOk then
        { op with
          phase := .completed
          began := some (hr, ctx)
          handled := op.handled ++ [(hr, none)] }
      else { op with phase := .begun ev ctx, began := some (hr, ctx) }
  | _ => op

def wait (op : SendOp μ κ) (events : ℕ → Bool) : SendOp μ κ :=
  match op.phase with
  | .begun ev ctx => { op with phase := .waiting ev ctx (events ev) }
  | _ => op

-- The handler of the wait, over what EndRequest gives.
def onWaited (op : SendOp μ κ) (hr : Int32) (reply : Option μ) : SendOp μ κ :=
  match op.phase with
  | .waiting _ ctx _ =>
      { op with
        phase := .completed
        ended := op.ended ++ [(ctx, hr, reply)]
        handled := op.handled ++ [(hr, reply)] }
  | _ => op

-- An event that is set wakes those who wait on it.
def wake (ev : ℕ) (op : SendOp μ κ) : SendOp μ κ :=
  match op.phase with
  | .waiting waited ctx fired =>
      { op with phase := .waiting waited ctx (fired || waited == ev) }
  | _ => op

end SendOp

namespace ClientConnection

variable {μ κ : Type*}

def new : ClientConnection μ κ := ⟨fun _ => ⟨none, false⟩, fun _ => false, []⟩

def asyncSend (s : ClientConnection μ κ) (req : μ) : ClientConnection μ κ :=
  let n := s.ops.length
  { callbacks := Function.update s.callbacks n ⟨some n, false⟩
    events := Function.update s.events n false
    ops := s.ops ++ [⟨req, n, .composed, [], none, [], []⟩] }

def begin (s : ClientConnection μ κ) (i : ℕ) : Except SendFault (ClientConnection μ κ) :=
  match s.ops[i]? with
  | none => .ok s
  | some op =>
      match (s.callbacks op.callback).ev with
      | none => .error .getEvent
      | some ev => .ok { s with ops := s.ops.set i (op.begin ev) }

-- private_callback::Invoke up to the release of the event,
def invoke (s : ClientConnection μ κ) (c : ℕ) : Except SendFault (ClientConnection μ κ) :=
  match (s.callbacks c).ev with
  | none => .error .invoke
  | some ev =>
      .ok
        { callbacks := Function.update s.callbacks c ⟨some ev, true⟩
          events := Function.update s.events ev true
          ops := s.ops.map (SendOp.wake ev) }

-- and from there.
def release (s : ClientConnection μ κ) (c : ℕ) : ClientConnection μ κ :=
  { s with callbacks := Function.update s.callbacks c ⟨none, false⟩ }

-- An operation takes its own steps in order. Its wait completes once it has fired.
def Enabled (s : ClientConnection μ κ) : SendLabel μ κ → Prop
  | .begin i => ∃ op, s.ops[i]? = some op ∧ op.phase = .composed
  | .began i _ _ => ∃ op ev, s.ops[i]? = some op ∧ op.phase = .beginning ev
  | .wait i => ∃ op ev ctx, s.ops[i]? = some op ∧ op.phase = .begun ev ctx
  | .finish i _ _ => ∃ op ev ctx, s.ops[i]? = some op ∧ op.phase = .waiting ev ctx true
  | .release c => (s.callbacks c).invoking = true
  | _ => True

def exec (s : ClientConnection μ κ) :
    SendLabel μ κ → Except SendFault (ClientConnection μ κ)
  | .send req => .ok (s.asyncSend req)
  | .begin i => s.begin i
  | .began i hr ctx => .ok { s with ops := s.ops.modify i (·.onBegan hr ctx) }
  | .wait i => .ok { s with ops := s.ops.modify i (·.wait s.events) }
  | .finish i hr reply => .ok { s with ops := s.ops.modify i (·.onWaited hr reply) }
  | .invoke c => s.invoke c
  | .release c => .ok (s.release c)

def machine (μ κ : Type*) :
    Lib.Machine (ClientConnection μ κ) (SendLabel μ κ) SendFault where
  enabled := Enabled
  exec := exec

-- The transport invokes a callback at most once, and only if BeginRequest was
-- called with it and has not failed.
def Transport (labels : List (SendLabel μ κ)) (s : ClientConnection μ κ) :
    SendLabel μ κ → Prop
  | .invoke c => .invoke c ∉ labels ∧ ∃ op ∈ s.ops, op.callback = c ∧ op.sent ≠ [] ∧
      ∀ hr ctx, op.began = some (hr, ctx) → hr = sOk
  | .began i hr _ => hr ≠ sOk → ∀ op, s.ops[i]? = some op → .invoke op.callback ∉ labels
  | _ => True

end ClientConnection

end FabricRpc.V2
