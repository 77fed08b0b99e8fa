import FabricRpc.V2.ClientConnection
import FabricRpc.V2.ExServer.Serve

namespace FabricRpc.V2

open Lib (Bytes)

-- What has become of a call of BeginRequest: the transport may have given it to
-- the server, taken its reply from there, or given it up.
inductive Transit where
  | idle
  | posted
  | replied (reply : TransportMessage)
  | broken (hr : Int32)

-- Any number of client connections and one ex_server. The transport knows a
-- client by the number of its connection, and gives the server a callback for
-- each call that names the connection and the operation.
structure System (κ : Type*) where
  clients : ℕ → ClientConnection TransportMessage ℕ
  serve : Serve ℕ (ℕ × ℕ) κ
  calls : ℕ → ℕ → Transit

-- What happens: a step of a client connection or of the server, with the calls
-- of the transport there, and what the transport does in between. With answer
-- it calls EndProcessRequest on a context, and with giveUp it fails a call.
inductive SystemLabel (κ : Type*) where
  | client (j : ℕ) (label : SendLabel TransportMessage ℕ)
  | server (label : ExLabel ℕ (ℕ × ℕ) κ)
  | answer (j i n : ℕ)
  | giveUp (j i : ℕ) (hr : Int32)

inductive SystemFault where
  | client (fault : SendFault)
  | server (fault : ExFault)
  | contextMissing
  | replyMissing
  deriving DecidableEq

namespace System

variable {κ σ : Type*} {Msg : σ → Type*}

def new : System κ := ⟨fun _ => .new, .new, fun _ _ => .idle⟩

def setClient (s : System κ) (j : ℕ) (client : ClientConnection TransportMessage ℕ) : System κ :=
  { s with clients := Function.update s.clients j client }

def setCall (s : System κ) (j i : ℕ) (transit : Transit) : System κ :=
  { s with calls := Function.update s.calls j (Function.update (s.calls j) i transit) }

section Update

variable (s : System κ) {j i k l : ℕ} (client : ClientConnection TransportMessage ℕ)
  (transit : Transit)

@[simp] theorem setClient_self : (s.setClient j client).clients j = client := by
  simp [setClient]

theorem setClient_ne (hk : k ≠ j) : (s.setClient j client).clients k = s.clients k := by
  simp [setClient, hk]

@[simp] theorem setCall_self : (s.setCall j i transit).calls j i = transit := by
  simp [setCall]

theorem setCall_ne (hkl : (k, l) ≠ (j, i)) : (s.setCall j i transit).calls k l = s.calls k l := by
  by_cases hk : k = j
  · subst hk
    have hl : l ≠ i := fun hl => hkl (by rw [hl])
    simp [setCall, hl]
  · simp [setCall, hk]

end Update

-- A request that is given to the server is posted.
def mark (s : System κ) : ExLabel ℕ (ℕ × ℕ) κ → System κ
  | .server (.processRequest _ _ callback) => s.setCall callback.1 callback.2 .posted
  | _ => s

def answer (s : System κ) (j i n : ℕ) : Except SystemFault (System κ) :=
  match s.serve.ex.server.contexts[n]?.bind Server.endProcessRequest with
  | none => .error .contextMissing
  | some (_, some reply) => .ok (s.setCall j i (.replied reply))
  | some (hr, none) => if hr = sOk then .error .replyMissing else .ok (s.setCall j i (.broken hr))

-- The transport calls EndProcessRequest with the context that a callback of its
-- own was invoked with.
def Enabled (names : List Bytes) (s : System κ) : SystemLabel κ → Prop
  | .client j label => (s.clients j).Enabled label
  | .server label => s.serve.Enabled names label
  | .answer j i n => ((j, i), ContextRef.request n) ∈ s.serve.ex.server.fired
  | .giveUp _ _ _ => True

def exec (pb : Protobuf σ Msg) (s : System κ) : SystemLabel κ → Except SystemFault (System κ)
  | .client j label =>
      match (s.clients j).exec label with
      | .error fault => .error (.client fault)
      | .ok client => .ok (s.setClient j client)
  | .server label =>
      match s.serve.exec pb label with
      | .error fault => .error (.server fault)
      | .ok serve => .ok ({ s with serve := serve }.mark label)
  | .answer j i n => s.answer j i n
  | .giveUp j i hr => .ok (s.setCall j i (.broken hr))

def machine (pb : Protobuf σ Msg) (names : List Bytes) :
    Lib.Machine (System κ) (SystemLabel κ) SystemFault where
  enabled := Enabled names
  exec := exec pb

def clientLabels (j : ℕ) (labels : List (SystemLabel κ)) : List (SendLabel TransportMessage ℕ) :=
  labels.filterMap fun
    | .client k label => if k = j then some label else none
    | _ => none

def serveLabels (labels : List (SystemLabel κ)) : List (ExLabel ℕ (ℕ × ℕ) κ) :=
  labels.filterMap fun
    | .server label => some label
    | _ => none

-- BeginRequest was called for the operation, and has not failed.
def Begun (s : System κ) (j i : ℕ) : Prop :=
  ∃ op, (s.clients j).ops[i]? = some op ∧ op.sent ≠ [] ∧
    ∀ hr ctx, op.began = some (hr, ctx) → hr = sOk

-- What EndRequest gives for a call that the transport has settled.
def Outcome (s : System κ) (j i : ℕ) (hr : Int32) (reply : Option TransportMessage) : Prop :=
  (∃ answer, s.calls j i = .replied answer ∧ hr = sOk ∧ reply = some answer) ∨
    s.calls j i = .broken hr ∧ reply = none

-- What the transport does, whatever the order and the delays. It gives a message
-- to the server at most once, from a client that is connected, and for a call
-- that it has not failed. It takes one reply. It invokes the callback of an
-- operation once, after the reply or the failure, and EndRequest gives that.
def Carries (labels : List (SystemLabel κ)) (s : System κ) : SystemLabel κ → Prop
  | .client j (.began i hr ctx) => (hr = sOk → ctx = some i) ∧ (hr ≠ sOk → s.calls j i = .idle)
  | .client j (.invoke i) => .client j (.invoke i) ∉ labels ∧
      ((∃ reply, s.calls j i = .replied reply) ∨ ∃ hr, s.calls j i = .broken hr)
  | .client j (.finish i hr reply) => s.Outcome j i hr reply
  | .client _ _ => True
  | .server (.server (.processRequest j message callback)) =>
      Serve.Dependable (serveLabels labels) s.serve
          (.server (.processRequest j message callback)) ∧
        callback.1 = j ∧ s.calls j callback.2 = .idle ∧ s.Begun j callback.2 ∧
        ∃ op timeout, (s.clients j).ops[callback.2]? = some op ∧ (message, timeout) ∈ op.sent
  | .server label => Serve.Dependable (serveLabels labels) s.serve label
  | .answer j i _ => s.calls j i = .posted
  | .giveUp j i hr => hr ≠ sOk ∧ s.Begun j i ∧ .client j (.invoke i) ∉ labels

end System

end FabricRpc.V2
