import FabricRpc.V2.Middleware
import FabricRpc.V2.Server

namespace FabricRpc.V2

open Lib (Bytes)

-- A coroutine of handle_request: the request that it holds, and the services as
-- they behaved towards it, once it has ended.
structure Handler (ι ψ κ : Type*) where
  req : Request ι TransportMessage ψ
  ended : Option (List (Service κ))

-- What stops an ex_server: a fault below it, or a null request in handle_request.
inductive ExFault where
  | server (fault : ServerFault)
  | requestMissing
  deriving DecidableEq

-- ex_server: the acceptor with its connections, and a coroutine for each request
-- that an accept has handed over. `completed` logs the calls of request::complete.
structure ExServer (ι ψ κ : Type*) where
  server : Server ι TransportMessage ψ
  handlers : List (Handler ι ψ κ)
  completed : List (Request ι TransportMessage ψ)

-- What happens to an ex_server: a step of the acceptor or of its connections,
-- and the end of a coroutine, up to which nobody else sees what it does. Each
-- call of a service may end in its own way.
inductive ExLabel (ι ψ κ : Type*) where
  | server (label : ServerLabel ι TransportMessage ψ)
  | ends (i : ℕ) (svcs : List (Service κ))

namespace ExServer

variable {ι ψ κ : Type*} {σ : Type*} {Msg : σ → Type*}

def new : ExServer ι ψ κ := ⟨.new, [], []⟩

-- The accept of handle_conn completes without error: `co_spawn(handle_request)`.
-- With an error it throws, and the loop of the connection ends.
def spawned (s : ExServer ι ψ κ) :
    ServerLabel ι TransportMessage ψ → Option (Option (Request ι TransportMessage ψ))
  | .accept c (.complete _ false) => some (s.server.net.ports c).holder
  | _ => none

def serve [DecidableEq ι] (s : ExServer ι ψ κ) (label : ServerLabel ι TransportMessage ψ) :
    Except ExFault (ExServer ι ψ κ) :=
  match s.server.exec label with
  | .error fault => .error (.server fault)
  | .ok server =>
      match s.spawned label with
      | none => .ok { s with server := server }
      | some none => .error .requestMissing
      | some (some req) =>
          .ok { s with server := server, handlers := s.handlers ++ [⟨req, none⟩] }

-- handle_request, once its services have behaved like this. An exception leaves
-- it before the completion, and `detached` drops it.
def handleRequest (pb : Protobuf σ Msg) (s : ExServer ι ψ κ) (i : ℕ) (handler : Handler ι ψ κ)
    (svcs : List (Service κ)) : Except ExFault (ExServer ι ψ κ) :=
  let handlers := s.handlers.set i { handler with ended := some svcs }
  match (execute pb svcs (some handler.req.msg)).result with
  | .error _ => .ok { s with handlers := handlers }
  | .ok reply =>
      match s.server.complete handler.req sOk (some reply) with
      | .error fault => .error (.server fault)
      | .ok server =>
          .ok ⟨server, handlers, s.completed ++ [handler.req]⟩

-- Requests are completed by their coroutines only. A coroutine ends once, and
-- the services are those that were registered under these names.
def Enabled (names : List Bytes) (s : ExServer ι ψ κ) : ExLabel ι ψ κ → Prop
  | .server label => s.server.Enabled label ∧ ∀ req hr reply, label ≠ .complete req hr reply
  | .ends i svcs => (∃ handler, s.handlers[i]? = some handler ∧ handler.ended = none) ∧
      svcs.map Service.name = names

def exec [DecidableEq ι] (pb : Protobuf σ Msg) (s : ExServer ι ψ κ) :
    ExLabel ι ψ κ → Except ExFault (ExServer ι ψ κ)
  | .server label => s.serve label
  | .ends i svcs =>
      match s.handlers[i]? with
      | none => .error .requestMissing
      | some handler => s.handleRequest pb i handler svcs

def machine [DecidableEq ι] (pb : Protobuf σ Msg) (names : List Bytes) :
    Lib.Machine (ExServer ι ψ κ) (ExLabel ι ψ κ) ExFault where
  enabled := Enabled names
  exec := exec pb

end ExServer

end FabricRpc.V2
