import FabricRpc.Lib.Machine
import FabricRpc.V2.ItemQueue
import Mathlib.Logic.Function.Basic

namespace FabricRpc.V2

-- How far one call of async_accept is: past the reset of the event, past
-- async_pop, or waiting. `fired` says whether the event was signalled at or
-- after the start of the wait, which is when asio completes it without error.
inductive Phase where
  | started
  | popped
  | waiting (fired : Bool)
  deriving DecidableEq

def Phase.wake : Phase → Phase
  | .waiting _ => .waiting true
  | phase => phase

-- What all accepts of one object share: its manual-reset event `ev_`, and the
-- holder that the queue fills (`pl_` or `entry_holder_`). `accepts` are the
-- calls whose handler was not called yet, oldest first.
structure Port (τ : Type*) where
  ev : Bool
  holder : Option τ
  accepts : List Phase
  deriving DecidableEq

namespace Port

variable {τ : Type*}

def new : Port τ := ⟨false, none, []⟩

def set (p : Port τ) : Port τ := { p with ev := true, accepts := p.accepts.map Phase.wake }

def reset (p : Port τ) : Port τ := { p with ev := false }

def fill (p : Port τ) (item : τ) : Port τ := { p with holder := some item }

end Port

-- The two objects that accept. A basic_server_connection asserts that its
-- holder is empty before an accept, and its handler moves the holder out. A
-- basic_acceptor empties the holder itself, and its handler copies it.
inductive AcceptKind where
  | request
  | connection
  deriving DecidableEq

-- What the handler of an accept is called with: whether asio reported an
-- error, and the holder.
structure Completion (τ : Type*) where
  error : Bool
  item : Option τ
  deriving DecidableEq

-- The assertions of the accepting objects, by what has gone wrong.
inductive AcceptFault where
  | queueUnset
  | queueSet
  | holderFilled
  | holderEmpty
  deriving DecidableEq

-- Queues, and accepting objects attached to them (`queue_`). The address and
-- the event in a queue entry are those of an accepting object. `handed` logs
-- what handlers were called with, and `calls` what was called on each queue.
structure AcceptNet (τ κ ρ : Type*) where
  queues : κ → ItemQueue τ ρ ρ
  ports : ρ → Port τ
  home : ρ → Option κ
  handed : List (ρ × Completion τ)
  calls : κ → List (ItemQueue.Op τ ρ ρ)

inductive AcceptLabel (τ κ ρ : Type*) where
  | attach (c : ρ) (k : κ)
  | push (k : κ) (item : τ)
  | start (c : ρ)
  | pop (c : ρ) (i : ℕ)
  | wait (c : ρ) (i : ℕ)
  | complete (c : ρ) (i : ℕ) (error : Bool)
  | cancel (c : ρ)
  deriving DecidableEq

namespace AcceptNet

variable {τ κ ρ : Type*} [DecidableEq κ] [DecidableEq ρ]

def new (home : ρ → Option κ) : AcceptNet τ κ ρ where
  queues := fun _ => .new
  ports := fun _ => .new
  home := home
  handed := []
  calls := fun _ => []

def updatePort (net : AcceptNet τ κ ρ) (c : ρ) (f : Port τ → Port τ) : AcceptNet τ κ ρ :=
  { net with ports := Function.update net.ports c (f (net.ports c)) }

-- `*e.item = std::move(item); e.event->set();`
def finish (net : AcceptNet τ κ ρ) : Option (QueueEntry ρ ρ × τ) → AcceptNet τ κ ρ
  | none => net
  | some (e, item) => (net.updatePort e.item (·.fill item)).updatePort e.event Port.set

def updateQueue (net : AcceptNet τ κ ρ) (k : κ) (op : ItemQueue.Op τ ρ ρ)
    (queue : ItemQueue τ ρ ρ) : AcceptNet τ κ ρ :=
  { net with
    queues := Function.update net.queues k queue
    calls := Function.update net.calls k (net.calls k ++ [op]) }

def push (net : AcceptNet τ κ ρ) (k : κ) (item : τ) : AcceptNet τ κ ρ :=
  let (queue, finished) := (net.queues k).push item
  (net.updateQueue k (.push item) queue).finish finished

def asyncPop (net : AcceptNet τ κ ρ) (k : κ) (c : ρ) : AcceptNet τ κ ρ :=
  let (queue, finished) := (net.queues k).asyncPop c c
  (net.updateQueue k (.asyncPop c c) queue).finish finished

def cancel (net : AcceptNet τ κ ρ) (c : ρ) : AcceptNet τ κ ρ :=
  match net.home c with
  | none => net
  | some k => net.updateQueue k (.cancel c) ((net.queues k).cancel c)

def setQueue (net : AcceptNet τ κ ρ) (c : ρ) (k : κ) :
    Except AcceptFault (AcceptNet τ κ ρ) :=
  match net.home c with
  | some _ => .error .queueSet
  | none => .ok { net with home := Function.update net.home c (some k) }

def setPhase (net : AcceptNet τ κ ρ) (c : ρ) (i : ℕ) (phase : Phase) : AcceptNet τ κ ρ :=
  net.updatePort c fun p => { p with accepts := p.accepts.set i phase }

-- async_accept, async_accept_conn: what runs before the operation is composed.
def start (kind : AcceptKind) (net : AcceptNet τ κ ρ) (c : ρ) :
    Except AcceptFault (AcceptNet τ κ ρ) :=
  match net.home c with
  | none => .error .queueUnset
  | some _ =>
      match kind, (net.ports c).holder with
      | .request, some _ => .error .holderFilled
      | _, _ => .ok (net.updatePort c fun p =>
          { p.reset with holder := none, accepts := p.accepts ++ [.started] })

-- The first half of the operation: `async_pop(ev_, ...)`.
def pop (net : AcceptNet τ κ ρ) (c : ρ) (i : ℕ) : Except AcceptFault (AcceptNet τ κ ρ) :=
  match net.home c with
  | none => .error .queueUnset
  | some k => .ok ((net.asyncPop k c).setPhase c i .popped)

-- The second half: `ev_->async_wait(...)`.
def wait (net : AcceptNet τ κ ρ) (c : ρ) (i : ℕ) : AcceptNet τ κ ρ :=
  net.setPhase c i (.waiting (net.ports c).ev)

def handOver (net : AcceptNet τ κ ρ) (c : ρ) (i : ℕ) (error : Bool) (rest : Option τ) :
    AcceptNet τ κ ρ :=
  let handed := net.handed ++ [(c, ⟨error, (net.ports c).holder⟩)]
  { net.updatePort c fun p => { p with holder := rest, accepts := p.accepts.eraseIdx i } with
    handed := handed }

-- The handler of the wait.
def complete (kind : AcceptKind) (net : AcceptNet τ κ ρ) (c : ρ) (i : ℕ) (error : Bool) :
    Except AcceptFault (AcceptNet τ κ ρ) :=
  match kind, (net.ports c).holder with
  | .request, _ => .ok (net.handOver c i error none)
  | .connection, none => .error .holderEmpty
  | .connection, some item => .ok (net.handOver c i error (some item))

-- An accept takes its own steps in order. Its wait ends without error only
-- once it has fired.
def Enabled (net : AcceptNet τ κ ρ) : AcceptLabel τ κ ρ → Prop
  | .pop c i => (net.ports c).accepts[i]? = some .started
  | .wait c i => (net.ports c).accepts[i]? = some .popped
  | .complete c i error =>
      ∃ fired, (net.ports c).accepts[i]? = some (.waiting fired) ∧ (error = false → fired = true)
  | _ => True

def exec (kind : AcceptKind) (net : AcceptNet τ κ ρ) :
    AcceptLabel τ κ ρ → Except AcceptFault (AcceptNet τ κ ρ)
  | .attach c k => net.setQueue c k
  | .push k item => .ok (net.push k item)
  | .start c => net.start kind c
  | .pop c i => net.pop c i
  | .wait c i => .ok (net.wait c i)
  | .complete c i error => net.complete kind c i error
  | .cancel c => .ok (net.cancel c)

def machine (τ κ ρ : Type*) [DecidableEq κ] [DecidableEq ρ] (kind : AcceptKind) :
    Lib.Machine (AcceptNet τ κ ρ) (AcceptLabel τ κ ρ) AcceptFault where
  enabled := Enabled
  exec := exec kind

-- The surroundings of ex_server: an object gets its queue once and before its
-- first accept, the next accept starts only after the handler of the previous
-- one was called, no wait fails, and nothing is cancelled.
def OneAtATime (_ : List (AcceptLabel τ κ ρ)) (net : AcceptNet τ κ ρ) :
    AcceptLabel τ κ ρ → Prop
  | .attach c _ => net.home c = none
  | .start c => (net.home c).isSome ∧ (net.ports c).accepts = []
  | .complete _ _ error => error = false
  | .cancel _ => False
  | _ => True

end AcceptNet

end FabricRpc.V2
