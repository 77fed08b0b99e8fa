import FabricRpc.V2.Server

namespace FabricRpc.V2

-- A basic_connection_manager by itself. An entry is known by its number among
-- those ever made, `entries` has the client of each, `conns` is `conns_` and
-- `connQueue` is `conn_queue_`. `handedOut` logs the entries moved out of the
-- queue, with the addresses they were moved to.
structure ConnectionManager (ι ε σ : Type*) where
  entries : List ι
  conns : AList fun _ : ι => ℕ
  connQueue : ItemQueue ℕ ε σ
  handedOut : List (σ × ℕ)

inductive ManagerLabel (ι ε σ : Type*) where
  | addConn (clientId : ι)
  | asyncPop (event : ε) (out : σ)
  | disconnect (id : ι)
  | cancel (event : ε)
  deriving DecidableEq

namespace ConnectionManager

variable {ι ε σ : Type*}

def new : ConnectionManager ι ε σ := ⟨[], ∅, .new, []⟩

-- `*e.item = std::move(item)`
def handOut (mgr : ConnectionManager ι ε σ) :
    ItemQueue ℕ ε σ × Option (QueueEntry ε σ × ℕ) → ConnectionManager ι ε σ
  | (queue, none) => { mgr with connQueue := queue }
  | (queue, some (e, entry)) =>
      { mgr with connQueue := queue, handedOut := mgr.handedOut ++ [(e.item, entry)] }

def addConn [DecidableEq ι] (mgr : ConnectionManager ι ε σ) (clientId : ι) :
    ConnectionManager ι ε σ :=
  let entry := mgr.entries.length
  let added :=
    { mgr with
      entries := mgr.entries ++ [clientId]
      conns := if clientId ∈ mgr.conns then mgr.conns else mgr.conns.insert clientId entry }
  added.handOut (mgr.connQueue.push entry)

def asyncPop (mgr : ConnectionManager ι ε σ) (event : ε) (out : σ) : ConnectionManager ι ε σ :=
  mgr.handOut (mgr.connQueue.asyncPop event out)

def disconnect [DecidableEq ι] (mgr : ConnectionManager ι ε σ) (id : ι) :
    Except ServerFault (ConnectionManager ι ε σ) :=
  match mgr.conns.lookup id with
  | none => .error .outOfRange
  | some _ => .ok { mgr with conns := mgr.conns.erase id }

def cancel [DecidableEq ε] (mgr : ConnectionManager ι ε σ) (event : ε) :
    ConnectionManager ι ε σ :=
  { mgr with connQueue := mgr.connQueue.cancel event }

-- The entry to whose queue post_request pushes a request of this client.
def postTarget [DecidableEq ι] (mgr : ConnectionManager ι ε σ) (connId : ι) : Option ℕ :=
  mgr.conns.lookup connId

def exec [DecidableEq ι] [DecidableEq ε] (mgr : ConnectionManager ι ε σ) :
    ManagerLabel ι ε σ → Except ServerFault (ConnectionManager ι ε σ)
  | .addConn clientId => .ok (mgr.addConn clientId)
  | .asyncPop event out => .ok (mgr.asyncPop event out)
  | .disconnect id => mgr.disconnect id
  | .cancel event => .ok (mgr.cancel event)

def machine (ι ε σ : Type*) [DecidableEq ι] [DecidableEq ε] :
    Lib.Machine (ConnectionManager ι ε σ) (ManagerLabel ι ε σ) ServerFault where
  enabled := fun _ _ => True
  exec := exec

end ConnectionManager

end FabricRpc.V2
