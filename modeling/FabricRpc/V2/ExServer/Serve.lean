import FabricRpc.V2.ExServer
import FabricRpc.V2.Server.History

namespace FabricRpc.V2

open Lib (Bytes)

-- Where a coroutine is that accepts in a loop: before its next accept, in one,
-- left by the exception of one, or gone with the connection that it owned.
inductive LoopPhase where
  | idle
  | accepting
  | left
  | gone
  deriving DecidableEq

-- ex_server::serve: the ex_server with its coroutines, the listener and a
-- handle_conn for each connection that the listener has accepted.
structure Serve (ι ψ κ : Type*) where
  ex : ExServer ι ψ κ
  listener : LoopPhase
  handleConns : List LoopPhase

namespace Serve

variable {ι ψ κ : Type*} {σ : Type*} {Msg : σ → Type*}

def new : Serve ι ψ κ := ⟨.new, .idle, []⟩

-- A loop starts an accept where it has none under way. The connection of a
-- coroutine that was left by an exception is destroyed, and nobody calls close.
def Ready (s : Serve ι ψ κ) : ExLabel ι ψ κ → Prop
  | .server (.acceptConn .start) => s.listener = .idle
  | .server (.acceptConn .cancel) => False
  | .server (.accept c .start) => s.handleConns[c]? = some .idle
  | .server (.accept c .cancel) => s.handleConns[c]? = some .left
  | _ => True

-- Where the loops are after a step. An accept that fails throws, and the
-- connection that it was called with goes with its exception.
def advance (s : Serve ι ψ κ) (ex : ExServer ι ψ κ) : ExLabel ι ψ κ → Serve ι ψ κ
  | .server (.acceptConn .start) => ⟨ex, .accepting, s.handleConns⟩
  | .server (.acceptConn (.complete _ false)) => ⟨ex, .idle, s.handleConns ++ [.idle]⟩
  | .server (.acceptConn (.complete _ true)) => ⟨ex, .left, s.handleConns ++ [.left]⟩
  | .server (.accept c .start) => ⟨ex, s.listener, s.handleConns.set c .accepting⟩
  | .server (.accept c (.complete _ false)) => ⟨ex, s.listener, s.handleConns.set c .idle⟩
  | .server (.accept c (.complete _ true)) => ⟨ex, s.listener, s.handleConns.set c .left⟩
  | .server (.accept c .cancel) => ⟨ex, s.listener, s.handleConns.set c .gone⟩
  | _ => { s with ex := ex }

def Enabled (names : List Bytes) (s : Serve ι ψ κ) (label : ExLabel ι ψ κ) : Prop :=
  s.ex.Enabled names label ∧ s.Ready label

def exec [DecidableEq ι] (pb : Protobuf σ Msg) (s : Serve ι ψ κ) (label : ExLabel ι ψ κ) :
    Except ExFault (Serve ι ψ κ) :=
  (ExServer.exec pb s.ex label).map fun ex => s.advance ex label

def machine [DecidableEq ι] (pb : Protobuf σ Msg) (names : List Bytes) :
    Lib.Machine (Serve ι ψ κ) (ExLabel ι ψ κ) ExFault where
  enabled := Enabled names
  exec := exec pb

-- What the transport and the server have done, without the coroutines of requests.
def serverLabels (labels : List (ExLabel ι ψ κ)) : List (ServerLabel ι TransportMessage ψ) :=
  labels.filterMap fun
    | .server label => some label
    | .ends _ _ => none

-- The transport connects a client that is not connected, and reports only
-- connected clients otherwise. No wait of asio fails.
def Dependable [DecidableEq ι] (labels : List (ExLabel ι ψ κ)) (_ : Serve ι ψ κ) :
    ExLabel ι ψ κ → Prop
  | .server (.processConnect clientId _) =>
      (Server.history (serverLabels labels)).current clientId = none
  | .server (.processDisconnect clientId _) =>
      ((Server.history (serverLabels labels)).current clientId).isSome
  | .server (.processRequest clientId _ _) =>
      ((Server.history (serverLabels labels)).current clientId).isSome
  | .server (.acceptConn (.complete _ error)) => error = false
  | .server (.accept _ (.complete _ error)) => error = false
  | _ => True

-- The calls of the transport. All other steps are those of the server.
def Callback : ExLabel ι ψ κ → Prop
  | .server (.processConnect _ _) => True
  | .server (.processDisconnect _ _) => True
  | .server (.processRequest _ _ _) => True
  | _ => False

instance (label : ExLabel ι ψ κ) : Decidable (Callback label) := by
  unfold Callback
  split <;> infer_instance

end Serve

end FabricRpc.V2
