import FabricRpc.V2.AcceptNet.Labels
import FabricRpc.V2.ConnectionManager.Live
import FabricRpc.V2.Server.Survival

namespace FabricRpc.V2.Server

variable {ι μ ψ : Type*}

-- What a step of a server is to the acceptor with its queue,
def lobbyLabel (s : Server ι μ ψ) : ServerLabel ι μ ψ → Option (AcceptLabel ℕ Unit Unit)
  | .processConnect _ _ => some (.push () s.entries.length)
  | .acceptConn step => some (step.label ())
  | _ => none

-- and to the queues of the entries with the server connections.
def netLabel [DecidableEq ι] (s : Server ι μ ψ) :
    ServerLabel ι μ ψ → Option (AcceptLabel (Request ι μ ψ) ℕ ℕ)
  | .processRequest clientId message callback =>
      (s.conns.lookup clientId).map fun entry =>
        .push entry ⟨clientId, message, callback, s.contexts.length⟩
  | .acceptConn (.complete _ _) =>
      (s.lobby.ports ()).holder.map fun entry => .attach s.accepted entry
  | .accept c step => some (step.label c)
  | _ => none

section Nets

variable [DecidableEq ι] {s s' : Server ι μ ψ} {label : ServerLabel ι μ ψ}

theorem exec_lobby (hx : s.exec label = .ok s') :
    (s.lobbyLabel label = none ∧ s'.lobby = s.lobby) ∨
      ∃ l, s.lobbyLabel label = some l ∧ AcceptNet.exec .connection s.lobby l = .ok s'.lobby := by
  cases label with
  | processConnect clientId callback =>
      obtain rfl := Except.ok.inj hx
      exact .inr ⟨_, rfl, rfl⟩
  | processDisconnect clientId callback =>
      obtain ⟨entry, -, rfl⟩ := disconnect_ok hx
      exact .inl ⟨rfl, rfl⟩
  | processRequest clientId message callback =>
      obtain ⟨entry, -, rfl⟩ := request_ok hx
      exact .inl ⟨rfl, rfl⟩
  | acceptConn step =>
      rcases acceptConn_ok hx with ⟨i, error, rfl, hcomplete⟩ | ⟨-, lobby, hlobby, rfl⟩
      · obtain ⟨lobby, net, entry, hlobby, -, -, rfl⟩ := completeConn_ok hcomplete
        exact .inr ⟨_, rfl, hlobby⟩
      · exact .inr ⟨_, rfl, hlobby⟩
  | accept c step =>
      obtain ⟨net, -, rfl⟩ := accept_ok hx
      exact .inl ⟨rfl, rfl⟩
  | complete req hr replyMsg =>
      obtain ⟨ctx, -, rfl⟩ := complete_ok hx
      exact .inl ⟨rfl, rfl⟩

theorem exec_net (hx : s.exec label = .ok s') :
    (s.netLabel label = none ∧ s'.net = s.net) ∨
      ∃ l, s.netLabel label = some l ∧ AcceptNet.exec .request s.net l = .ok s'.net := by
  cases label with
  | processConnect clientId callback =>
      obtain rfl := Except.ok.inj hx
      exact .inl ⟨rfl, rfl⟩
  | processDisconnect clientId callback =>
      obtain ⟨entry, -, rfl⟩ := disconnect_ok hx
      exact .inl ⟨rfl, rfl⟩
  | processRequest clientId message callback =>
      obtain ⟨entry, hlookup, rfl⟩ := request_ok hx
      exact .inr ⟨_, by rw [netLabel, hlookup]; rfl, rfl⟩
  | acceptConn step =>
      rcases acceptConn_ok hx with ⟨i, error, rfl, hcomplete⟩ | ⟨hstep, lobby, hlobby, rfl⟩
      · obtain ⟨lobby, net, entry, -, hholder, hnet, rfl⟩ := completeConn_ok hcomplete
        exact .inr ⟨.attach s.accepted entry, by rw [netLabel, hholder]; rfl, hnet⟩
      · refine .inl ⟨?_, rfl⟩
        cases step with
        | complete i error => exact absurd rfl (hstep i error)
        | _ => rfl
  | accept c step =>
      obtain ⟨net, hnet, rfl⟩ := accept_ok hx
      exact .inr ⟨_, rfl, hnet⟩
  | complete req hr replyMsg =>
      obtain ⟨ctx, -, rfl⟩ := complete_ok hx
      exact .inl ⟨rfl, rfl⟩

omit [DecidableEq ι] in
theorem lobbyLabel_enabled (h : s.Enabled label) {l : AcceptLabel ℕ Unit Unit}
    (hl : s.lobbyLabel label = some l) : s.lobby.Enabled l := by
  cases label with
  | processConnect clientId callback =>
      obtain rfl := Option.some.inj hl
      exact trivial
  | acceptConn step =>
      obtain rfl := Option.some.inj hl
      exact h
  | _ => exact absurd hl (by simp [lobbyLabel])

theorem netLabel_enabled (h : s.Enabled label) {l : AcceptLabel (Request ι μ ψ) ℕ ℕ}
    (hl : s.netLabel label = some l) : s.net.Enabled l := by
  cases label with
  | processRequest clientId message callback =>
      obtain ⟨entry, -, rfl⟩ := Option.map_eq_some_iff.mp hl
      exact trivial
  | acceptConn step =>
      cases step with
      | complete i error =>
          obtain ⟨entry, -, rfl⟩ := Option.map_eq_some_iff.mp hl
          exact trivial
      | _ => exact absurd hl (by simp [netLabel])
  | accept c step =>
      obtain rfl := Option.some.inj hl
      exact h
  | _ => exact absurd hl (by simp [netLabel])

variable {labels : List (ServerLabel ι μ ψ)}

-- A run of a server is a run of its acceptor and one of its server connections.
theorem run_lobby {allow : List (ServerLabel ι μ ψ) → Server ι μ ψ → ServerLabel ι μ ψ → Prop}
    (hrun : (machine ι μ ψ).Run allow new labels s) :
    ∃ ls, (AcceptNet.machine ℕ Unit Unit .connection).Run Lib.Machine.anything
      (.new fun _ => some ()) ls s.lobby := by
  apply hrun.state_invariant fun s => ∃ ls, (AcceptNet.machine ℕ Unit Unit .connection).Run
    Lib.Machine.anything (.new fun _ => some ()) ls s.lobby
  · exact ⟨[], .nil⟩
  · rintro labels s label s' ⟨ls, hls⟩ - henabled hx
    rcases exec_lobby hx with ⟨-, hsame⟩ | ⟨l, hl, hstep⟩
    · exact ⟨ls, hsame ▸ hls⟩
    · exact ⟨_, hls.snoc trivial (lobbyLabel_enabled henabled hl) hstep⟩

theorem run_net {allow : List (ServerLabel ι μ ψ) → Server ι μ ψ → ServerLabel ι μ ψ → Prop}
    (hrun : (machine ι μ ψ).Run allow new labels s) :
    ∃ ls, (AcceptNet.machine (Request ι μ ψ) ℕ ℕ .request).Run Lib.Machine.anything
      (.new fun _ => none) ls s.net := by
  apply hrun.state_invariant fun s => ∃ ls, (AcceptNet.machine (Request ι μ ψ) ℕ ℕ .request).Run
    Lib.Machine.anything (.new fun _ => none) ls s.net
  · exact ⟨[], .nil⟩
  · rintro labels s label s' ⟨ls, hls⟩ - henabled hx
    rcases exec_net hx with ⟨-, hsame⟩ | ⟨l, hl, hstep⟩
    · exact ⟨ls, hsame ▸ hls⟩
    · exact ⟨_, hls.snoc trivial (netLabel_enabled henabled hl) hstep⟩

end Nets

section Manager

-- What a step of a server is to its manager. The acceptor is the only one to pop.
def managerLabels : ServerLabel ι μ ψ → List (ManagerLabel ι Unit Unit)
  | .processConnect clientId _ => [.addConn clientId]
  | .processDisconnect clientId _ => [.disconnect clientId]
  | .acceptConn (.pop _) => [.asyncPop () ()]
  | .acceptConn .cancel => [.cancel ()]
  | _ => []

-- A manager that is in the state of the server's.
structure Manages (mgr : ConnectionManager ι Unit Unit) (s : Server ι μ ψ) : Prop where
  entries : mgr.entries = s.entries
  conns : mgr.conns = s.conns
  connQueue : mgr.connQueue = s.lobby.queues ()
  home : s.lobby.home () = some ()

variable [DecidableEq ι] {s s' : Server ι μ ψ} {mgr : ConnectionManager ι Unit Unit}
  {label : ServerLabel ι μ ψ} {labels : List (ServerLabel ι μ ψ)}

omit [DecidableEq ι] in
theorem lobbyLabel_ne_attach {l : AcceptLabel ℕ Unit Unit} (hl : s.lobbyLabel label = some l)
    (c k : Unit) : l ≠ .attach c k := by
  rintro rfl
  cases label with
  | acceptConn step => cases step <;> exact absurd hl (by simp [lobbyLabel, AcceptStep.label])
  | _ => exact absurd hl (by simp [lobbyLabel])

theorem exec_lobby_home (hx : s.exec label = .ok s') : s'.lobby.home = s.lobby.home := by
  rcases exec_lobby hx with ⟨-, hsame⟩ | ⟨l, hl, hstep⟩
  · rw [hsame]
  · exact AcceptNet.exec_home hstep (lobbyLabel_ne_attach hl)

-- A step that is nothing to the manager leaves it as it is.
theorem exec_manages_none (h : Manages mgr s) (hx : s.exec label = .ok s')
    (hnone : managerLabels label = []) : Manages mgr s' := by
  have hconnect : ∀ id callback, label ≠ .processConnect id callback := by
    rintro id callback rfl
    exact absurd hnone (by simp [managerLabels])
  have hdisconnect : ∀ id callback, label ≠ .processDisconnect id callback := by
    rintro id callback rfl
    exact absurd hnone (by simp [managerLabels])
  refine ⟨?_, ?_, ?_, ?_⟩
  · rw [(exec_manager hx hconnect hdisconnect).1, h.entries]
  · rw [(exec_manager hx hconnect hdisconnect).2, h.conns]
  · rcases exec_lobby hx with ⟨-, hsame⟩ | ⟨l, hl, hstep⟩
    · rw [hsame, h.connQueue]
    · have hcalled : s.lobby.called () l = [] := by
        cases label with
        | processConnect id callback => exact absurd rfl (hconnect id callback)
        | acceptConn step =>
            obtain rfl := Option.some.inj hl
            cases step with
            | pop i => exact absurd hnone (by simp [managerLabels])
            | cancel => exact absurd hnone (by simp [managerLabels])
            | _ => rfl
        | _ => exact absurd hl (by simp [lobbyLabel])
      rw [AcceptNet.exec_queues hstep, hcalled, List.foldl_nil, h.connQueue]
  · rw [exec_lobby_home hx, h.home]

theorem connect_manages (h : Manages mgr s) (clientId : ι) (callback : ψ) :
    Manages (mgr.addConn clientId) (s.beginProcessConnect clientId callback) := by
  refine ⟨?_, ?_, ?_, ?_⟩
  · simp [h.entries, beginProcessConnect, addConn, completeImmediately]
  · simp [ConnectionManager.addConn, h.entries, h.conns, beginProcessConnect, addConn,
      completeImmediately]
  · simp [h.entries, h.connQueue, beginProcessConnect, addConn, completeImmediately,
      AcceptNet.push, AcceptNet.finish_queues]
  · simp [h.home, beginProcessConnect, addConn, completeImmediately, AcceptNet.push_home]

theorem disconnect_manages (h : Manages mgr s) {clientId : ι} {callback : ψ}
    (hx : s.beginProcessDisconnect clientId callback = .ok s') :
    ∃ mgr', mgr.disconnect clientId = .ok mgr' ∧ Manages mgr' s' := by
  obtain ⟨entry, hlookup, rfl⟩ := disconnect_ok hx
  refine ⟨{ mgr with conns := mgr.conns.erase clientId }, ?_, h.entries, ?_, h.connQueue, h.home⟩
  · simp only [ConnectionManager.disconnect, h.conns, hlookup]
  · simp [h.conns, completeImmediately]

omit [DecidableEq ι] in
-- A call that the acceptor makes on its queue.
theorem acceptConn_manages (h : Manages mgr s) (step : AcceptStep)
    (hx : s.acceptConn step = .ok s') (hstep : ∀ i error, step ≠ .complete i error)
    {mgr' : ConnectionManager ι Unit Unit} (hentries : mgr'.entries = mgr.entries)
    (hconns : mgr'.conns = mgr.conns) (hqueue : mgr'.connQueue =
      (s.lobby.called () (step.label ())).foldl ItemQueue.call (s.lobby.queues ())) :
    Manages mgr' s' := by
  rcases acceptConn_ok hx with ⟨i, error, heq, -⟩ | ⟨-, lobby, hlobby, rfl⟩
  · exact absurd heq (hstep i error)
  · refine ⟨hentries.trans h.entries, hconns.trans h.conns, ?_, ?_⟩
    · rw [hqueue]
      exact (AcceptNet.exec_queues hlobby ()).symm
    · rw [← h.home]
      refine congrFun (AcceptNet.exec_home hlobby ?_) ()
      intro c k
      cases step <;> simp [AcceptStep.label]

theorem exec_manages (h : Manages mgr s) (hx : s.exec label = .ok s')
    {ls : List (ManagerLabel ι Unit Unit)}
    (hls : (ConnectionManager.machine ι Unit Unit).Run Lib.Machine.anything .new ls mgr) :
    ∃ mgr', (ConnectionManager.machine ι Unit Unit).Run Lib.Machine.anything .new
      (ls ++ managerLabels label) mgr' ∧ Manages mgr' s' := by
  have hnone (hlabel : managerLabels label = []) : ∃ mgr',
      (ConnectionManager.machine ι Unit Unit).Run Lib.Machine.anything .new
        (ls ++ managerLabels label) mgr' ∧ Manages mgr' s' :=
    ⟨mgr, by simpa [hlabel] using hls, exec_manages_none h hx hlabel⟩
  cases label with
  | processConnect clientId callback =>
      obtain rfl := Except.ok.inj hx
      exact ⟨_, hls.snoc trivial trivial rfl, connect_manages h clientId callback⟩
  | processDisconnect clientId callback =>
      obtain ⟨mgr', hdisconnect, hmanages⟩ := disconnect_manages h hx
      exact ⟨mgr', hls.snoc trivial trivial hdisconnect, hmanages⟩
  | acceptConn step =>
      cases step with
      | pop i =>
          refine ⟨mgr.asyncPop () (), hls.snoc trivial trivial rfl, ?_⟩
          refine acceptConn_manages h (.pop i) hx (by simp) (by simp [ConnectionManager.asyncPop])
            (by simp [ConnectionManager.asyncPop]) ?_
          simp [ConnectionManager.asyncPop, AcceptStep.label, AcceptNet.called, h.home,
            h.connQueue, ItemQueue.call]
      | cancel =>
          refine ⟨mgr.cancel (), hls.snoc trivial trivial rfl, ?_⟩
          refine acceptConn_manages h .cancel hx (by simp) rfl rfl ?_
          simp [ConnectionManager.cancel, AcceptStep.label, AcceptNet.called, h.home,
            h.connQueue, ItemQueue.call]
      | _ => exact hnone rfl
  | _ => exact hnone rfl

-- The manager of a server in any run goes through a run of a manager.
theorem run_manages {allow : List (ServerLabel ι μ ψ) → Server ι μ ψ → ServerLabel ι μ ψ → Prop}
    (hrun : (machine ι μ ψ).Run allow new labels s) :
    ∃ mgr, (ConnectionManager.machine ι Unit Unit).Run Lib.Machine.anything .new
      (labels.flatMap managerLabels) mgr ∧ Manages mgr s := by
  apply hrun.invariant fun labels s => ∃ mgr, (ConnectionManager.machine ι Unit Unit).Run
    Lib.Machine.anything .new (labels.flatMap managerLabels) mgr ∧ Manages mgr s
  · exact ⟨.new, .nil, rfl, rfl, rfl, rfl⟩
  · rintro labels s label s' ⟨mgr, hls, h⟩ - - hx
    rw [List.flatMap_append, List.flatMap_singleton]
    exact exec_manages h hx hls

end Manager

end FabricRpc.V2.Server
