import FabricRpc.V2.AcceptNet
import Mathlib.Data.List.AList

namespace FabricRpc.V2

abbrev sOk : Int32 := 0

-- any_context. The content is not initialised until somebody assigns to it.
structure AnyContext (ψ γ : Type*) where
  callback : ψ
  content : Option γ
  isCompleted : Bool
  deriving DecidableEq

namespace AnyContext

variable {ψ γ : Type*}

def new (callback : ψ) : AnyContext ψ γ := ⟨callback, none, false⟩

def setContent (ctx : AnyContext ψ γ) (content : γ) : AnyContext ψ γ :=
  { ctx with content := some content }

-- The second component is the callback to invoke.
def complete (ctx : AnyContext ψ γ) : AnyContext ψ γ × Option ψ :=
  if ctx.isCompleted then (ctx, none) else ({ ctx with isCompleted := true }, some ctx.callback)

end AnyContext

-- context_content
structure ContextContent (μ : Type*) where
  hr : Int32
  replyMsg : Option μ
  deriving DecidableEq

-- request. A context is known by its number among those made for requests.
structure Request (ι μ ψ : Type*) where
  connId : ι
  msg : μ
  callback : ψ
  ctx : ℕ
  deriving DecidableEq

-- The context that a callback is invoked with: that of a request, or one that
-- was made and completed within a connect or disconnect callback.
inductive ContextRef where
  | request (n : ℕ)
  | immediate (n : ℕ)
  deriving DecidableEq

-- What can go wrong in a call: an assertion, or std::map::at in an operation
-- that is declared noexcept, which is std::terminate.
inductive ServerFault where
  | accept (fault : AcceptFault)
  | outOfRange
  | replyMissing
  | contextMissing
  deriving DecidableEq

-- A basic_acceptor with its basic_connection_manager and both handlers. An
-- entry is known by its number among those ever made, and so is a server
-- connection. `entries` has the client of each entry, `conns` is `conns_`, the
-- lobby is `conn_queue_` with the acceptor, and `net` has the queue of each
-- entry and the server connections. `fired` logs the callbacks invoked.
structure Server (ι μ ψ : Type*) where
  entries : List ι
  conns : AList fun _ : ι => ℕ
  lobby : AcceptNet ℕ Unit Unit
  net : AcceptNet (Request ι μ ψ) ℕ ℕ
  accepted : ℕ
  contexts : List (AnyContext ψ (ContextContent μ))
  immediates : ℕ
  fired : List (ψ × ContextRef)

-- The steps of an accept on one object, and the end of the wait for more.
inductive AcceptStep where
  | start
  | pop (i : ℕ)
  | wait (i : ℕ)
  | complete (i : ℕ) (error : Bool)
  | cancel
  deriving DecidableEq

def AcceptStep.label {τ κ ρ : Type*} (c : ρ) : AcceptStep → AcceptLabel τ κ ρ
  | .start => .start c
  | .pop i => .pop c i
  | .wait i => .wait c i
  | .complete i error => .complete c i error
  | .cancel => .cancel c

-- What happens to a server: the callbacks of the transport, the steps of the
-- accepts on the acceptor and on its server connections, and the completion of
-- a request by whom it was handed to.
inductive ServerLabel (ι μ ψ : Type*) where
  | processConnect (clientId : ι) (callback : ψ)
  | processDisconnect (clientId : ι) (callback : ψ)
  | processRequest (clientId : ι) (message : μ) (callback : ψ)
  | acceptConn (step : AcceptStep)
  | accept (c : ℕ) (step : AcceptStep)
  | complete (req : Request ι μ ψ) (hr : Int32) (replyMsg : Option μ)
  deriving DecidableEq

namespace Server

variable {ι μ ψ : Type*}

-- The acceptor is attached to its queue from the start.
def new : Server ι μ ψ where
  entries := []
  conns := ∅
  lobby := .new fun _ => some ()
  net := .new fun _ => none
  accepted := 0
  contexts := []
  immediates := 0
  fired := []

section Manager

variable [DecidableEq ι]

-- `conns_.insert` leaves an entry alone that is there already.
def addConn (s : Server ι μ ψ) (clientId : ι) : Server ι μ ψ :=
  let entry := s.entries.length
  { s with
    entries := s.entries ++ [clientId]
    conns := if clientId ∈ s.conns then s.conns else s.conns.insert clientId entry
    lobby := s.lobby.push () entry }

def disconnect (s : Server ι μ ψ) (id : ι) : Except ServerFault (Server ι μ ψ) :=
  match s.conns.lookup id with
  | none => .error .outOfRange
  | some _ => .ok { s with conns := s.conns.erase id }

def postRequest (s : Server ι μ ψ) (req : Request ι μ ψ) : Except ServerFault (Server ι μ ψ) :=
  match s.conns.lookup req.connId with
  | none => .error .outOfRange
  | some entry => .ok { s with net := s.net.push entry req }

end Manager

-- An any_context that is made, returned and completed in one go.
def completeImmediately (s : Server ι μ ψ) (callback : ψ) : Server ι μ ψ :=
  { s with
    immediates := s.immediates + 1
    fired := s.fired ++ [(callback, .immediate s.immediates)] }

def beginProcessConnect [DecidableEq ι] (s : Server ι μ ψ) (clientId : ι) (callback : ψ) :
    Server ι μ ψ :=
  (s.addConn clientId).completeImmediately callback

def beginProcessDisconnect [DecidableEq ι] (s : Server ι μ ψ) (clientId : ι) (callback : ψ) :
    Except ServerFault (Server ι μ ψ) :=
  (s.disconnect clientId).map (·.completeImmediately callback)

def beginProcessRequest [DecidableEq ι] (s : Server ι μ ψ) (clientId : ι) (message : μ)
    (callback : ψ) : Except ServerFault (Server ι μ ψ) :=
  let s' := { s with contexts := s.contexts ++ [AnyContext.new callback] }
  s'.postRequest ⟨clientId, message, callback, s.contexts.length⟩

section Lookup

variable [DecidableEq ι] {s : Server ι μ ψ} {clientId : ι}

theorem beginProcessDisconnect_of_some {entry : ℕ} (h : s.conns.lookup clientId = some entry)
    (callback : ψ) : s.beginProcessDisconnect clientId callback =
      .ok ({ s with conns := s.conns.erase clientId }.completeImmediately callback) := by
  simp only [beginProcessDisconnect, disconnect, h, Except.map]

theorem beginProcessDisconnect_of_none (h : s.conns.lookup clientId = none) (callback : ψ) :
    s.beginProcessDisconnect clientId callback = .error .outOfRange := by
  simp only [beginProcessDisconnect, disconnect, h, Except.map]

theorem beginProcessRequest_of_some {entry : ℕ} (h : s.conns.lookup clientId = some entry)
    (message : μ) (callback : ψ) : s.beginProcessRequest clientId message callback =
      .ok { s with
        contexts := s.contexts ++ [.new callback]
        net := s.net.push entry ⟨clientId, message, callback, s.contexts.length⟩ } := by
  simp only [beginProcessRequest, postRequest, h]

theorem beginProcessRequest_of_none (h : s.conns.lookup clientId = none) (message : μ)
    (callback : ψ) : s.beginProcessRequest clientId message callback = .error .outOfRange := by
  simp only [beginProcessRequest, postRequest, h]

end Lookup

-- EndProcessRequest. `none` in the context is memory that was not initialised.
def endProcessRequest (ctx : AnyContext ψ (ContextContent μ)) : Option (Int32 × Option μ) :=
  ctx.content.map fun content =>
    if content.hr ≠ sOk then (content.hr, none) else (sOk, content.replyMsg)

-- The handler of the acceptor's wait: it makes a server connection, attaches
-- it to the queue of the entry in the holder and hands it to the user.
def completeConn (s : Server ι μ ψ) (i : ℕ) (error : Bool) :
    Except ServerFault (Server ι μ ψ) :=
  match s.lobby.complete .connection () i error with
  | .error fault => .error (.accept fault)
  | .ok lobby =>
      match (s.lobby.ports ()).holder with
      | none => .error (.accept .holderEmpty)
      | some entry =>
          match s.net.setQueue s.accepted entry with
          | .error fault => .error (.accept fault)
          | .ok net => .ok { s with lobby := lobby, net := net, accepted := s.accepted + 1 }

def acceptConn (s : Server ι μ ψ) : AcceptStep → Except ServerFault (Server ι μ ψ)
  | .complete i error => s.completeConn i error
  | step =>
      match AcceptNet.exec .connection s.lobby (step.label ()) with
      | .error fault => .error (.accept fault)
      | .ok lobby => .ok { s with lobby := lobby }

def accept (s : Server ι μ ψ) (c : ℕ) (step : AcceptStep) :
    Except ServerFault (Server ι μ ψ) :=
  match AcceptNet.exec .request s.net (step.label c) with
  | .error fault => .error (.accept fault)
  | .ok net => .ok { s with net := net }

-- request::complete
def complete (s : Server ι μ ψ) (req : Request ι μ ψ) (hr : Int32) (replyMsg : Option μ) :
    Except ServerFault (Server ι μ ψ) :=
  if hr = sOk ∧ replyMsg.isNone then .error .replyMissing
  else
    match s.contexts[req.ctx]? with
    | none => .error .contextMissing
    | some ctx =>
        let (completed, invoked) := (ctx.setContent ⟨hr, replyMsg⟩).complete
        .ok { s with
          contexts := s.contexts.set req.ctx completed
          fired := s.fired ++ invoked.toList.map (·, ContextRef.request req.ctx) }

-- Only a request that was handed over can be completed.
def Enabled (s : Server ι μ ψ) : ServerLabel ι μ ψ → Prop
  | .acceptConn step => s.lobby.Enabled (step.label ())
  | .accept c step => s.net.Enabled (step.label c)
  | .complete req _ _ => ∃ h ∈ s.net.handed, h.2.item = some req
  | _ => True

def exec [DecidableEq ι] (s : Server ι μ ψ) :
    ServerLabel ι μ ψ → Except ServerFault (Server ι μ ψ)
  | .processConnect clientId callback => .ok (s.beginProcessConnect clientId callback)
  | .processDisconnect clientId callback => s.beginProcessDisconnect clientId callback
  | .processRequest clientId message callback => s.beginProcessRequest clientId message callback
  | .acceptConn step => s.acceptConn step
  | .accept c step => s.accept c step
  | .complete req hr replyMsg => s.complete req hr replyMsg

def machine (ι μ ψ : Type*) [DecidableEq ι] :
    Lib.Machine (Server ι μ ψ) (ServerLabel ι μ ψ) ServerFault where
  enabled := Enabled
  exec := exec

section Inversion

variable {s s' : Server ι μ ψ}

theorem completeConn_ok {i : ℕ} {error : Bool} (hx : s.completeConn i error = .ok s') :
    ∃ lobby net entry, s.lobby.complete .connection () i error = .ok lobby ∧
      (s.lobby.ports ()).holder = some entry ∧ s.net.setQueue s.accepted entry = .ok net ∧
      s' = { s with lobby := lobby, net := net, accepted := s.accepted + 1 } := by
  unfold completeConn at hx
  split at hx
  · exact absurd hx (by simp)
  · rename_i lobby hlobby
    split at hx
    · exact absurd hx (by simp)
    · rename_i entry hholder
      split at hx
      · exact absurd hx (by simp)
      · rename_i net hnet
        exact ⟨lobby, net, entry, hlobby, hholder, hnet, (Except.ok.inj hx).symm⟩

theorem acceptConn_ok {step : AcceptStep} (hx : s.acceptConn step = .ok s') :
    (∃ i error, step = .complete i error ∧ s.completeConn i error = .ok s') ∨
      (∀ i error, step ≠ .complete i error) ∧ ∃ lobby,
        AcceptNet.exec .connection s.lobby (step.label ()) = .ok lobby ∧
          s' = { s with lobby := lobby } := by
  unfold acceptConn at hx
  split at hx
  · rename_i i error
    exact .inl ⟨i, error, rfl, hx⟩
  · rename_i hstep
    split at hx
    · exact absurd hx (by simp)
    · rename_i lobby hlobby
      exact .inr ⟨hstep, lobby, hlobby, (Except.ok.inj hx).symm⟩

-- An accept of the acceptor has to do with the accepting objects only.
theorem acceptConn_rest {step : AcceptStep} (hx : s.acceptConn step = .ok s') :
    ∃ lobby net accepted, s' = { s with lobby := lobby, net := net, accepted := accepted } := by
  rcases acceptConn_ok hx with ⟨i, error, -, hcomplete⟩ | ⟨-, lobby, -, rfl⟩
  · obtain ⟨lobby, net, entry, -, -, -, rfl⟩ := completeConn_ok hcomplete
    exact ⟨lobby, net, _, rfl⟩
  · exact ⟨lobby, s.net, s.accepted, rfl⟩

theorem accept_ok {c : ℕ} {step : AcceptStep} (hx : s.accept c step = .ok s') :
    ∃ net, AcceptNet.exec .request s.net (step.label c) = .ok net ∧ s' = { s with net := net } := by
  unfold accept at hx
  split at hx
  · exact absurd hx (by simp)
  · rename_i net hnet
    exact ⟨net, hnet, (Except.ok.inj hx).symm⟩

theorem complete_ok {req : Request ι μ ψ} {hr : Int32} {replyMsg : Option μ}
    (hx : s.complete req hr replyMsg = .ok s') :
    ∃ ctx, s.contexts[req.ctx]? = some ctx ∧ s' =
      { s with
        contexts := s.contexts.set req.ctx ((ctx.setContent ⟨hr, replyMsg⟩).complete).1
        fired := s.fired ++ ((ctx.setContent ⟨hr, replyMsg⟩).complete).2.toList.map
          (·, ContextRef.request req.ctx) } := by
  unfold complete at hx
  split at hx
  · exact absurd hx (by simp)
  · split at hx
    · exact absurd hx (by simp)
    · rename_i ctx hctx
      exact ⟨ctx, hctx, (Except.ok.inj hx).symm⟩

variable [DecidableEq ι]

theorem disconnect_ok {clientId : ι} {callback : ψ}
    (hx : s.beginProcessDisconnect clientId callback = .ok s') :
    ∃ entry, s.conns.lookup clientId = some entry ∧
      s' = { s with conns := s.conns.erase clientId }.completeImmediately callback := by
  cases hlookup : s.conns.lookup clientId with
  | none =>
      rw [beginProcessDisconnect_of_none hlookup] at hx
      exact absurd hx (by simp)
  | some entry =>
      rw [beginProcessDisconnect_of_some hlookup] at hx
      exact ⟨entry, rfl, (Except.ok.inj hx).symm⟩

theorem request_ok {clientId : ι} {message : μ} {callback : ψ}
    (hx : s.beginProcessRequest clientId message callback = .ok s') :
    ∃ entry, s.conns.lookup clientId = some entry ∧ s' =
      { s with
        contexts := s.contexts ++ [.new callback]
        net := s.net.push entry ⟨clientId, message, callback, s.contexts.length⟩ } := by
  cases hlookup : s.conns.lookup clientId with
  | none =>
      rw [beginProcessRequest_of_none hlookup] at hx
      exact absurd hx (by simp)
  | some entry =>
      rw [beginProcessRequest_of_some hlookup] at hx
      exact ⟨entry, rfl, (Except.ok.inj hx).symm⟩

-- The table and the names of the entries change with connects and disconnects.
theorem exec_manager {label : ServerLabel ι μ ψ} (hx : s.exec label = .ok s')
    (hconnect : ∀ id callback, label ≠ .processConnect id callback)
    (hdisconnect : ∀ id callback, label ≠ .processDisconnect id callback) :
    s'.entries = s.entries ∧ s'.conns = s.conns := by
  cases label with
  | processConnect id callback => exact absurd rfl (hconnect id callback)
  | processDisconnect id callback => exact absurd rfl (hdisconnect id callback)
  | processRequest id message callback =>
      obtain ⟨entry, -, rfl⟩ := request_ok hx
      exact ⟨rfl, rfl⟩
  | acceptConn step =>
      obtain ⟨lobby, net, accepted, rfl⟩ := acceptConn_rest hx
      exact ⟨rfl, rfl⟩
  | accept c step =>
      obtain ⟨net, -, rfl⟩ := accept_ok hx
      exact ⟨rfl, rfl⟩
  | complete req hr replyMsg =>
      obtain ⟨ctx, -, rfl⟩ := complete_ok hx
      exact ⟨rfl, rfl⟩

end Inversion

end Server

end FabricRpc.V2
