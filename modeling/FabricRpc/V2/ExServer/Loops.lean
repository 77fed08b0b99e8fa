import FabricRpc.Lib.Progress
import FabricRpc.V2.ExServer.Answers
import FabricRpc.V2.ExServer.Serve
import FabricRpc.V2.Server.Remaining

namespace FabricRpc.V2

open Lib (Bytes lit)

-- Where the loop of an object is, by how far it is from its wait.
def Port.phase {τ : Type*} (p : Port τ) : LoopPhase :=
  if p.remaining = 3 then .idle else .accepting

theorem Port.remaining_le {τ : Type*} (p : Port τ) : p.remaining ≤ 3 := by
  unfold Port.remaining
  split <;> omega

theorem Port.phase_idle {τ : Type*} {p : Port τ} : p.phase = .idle ↔ p.accepts = [] := by
  rw [← Port.remaining_eq_three]
  unfold Port.phase
  split <;> simp_all

theorem Port.phase_busy {τ : Type*} {p : Port τ} {i : ℕ} {phase : Phase}
    (hi : p.accepts[i]? = some phase) : p.phase = .accepting := by
  have hne : p.remaining ≠ 3 := by
    rw [ne_eq, Port.remaining_eq_three]
    intro hnil
    simp [hnil] at hi
  simp [Port.phase, hne]

-- Where a loop is after a step of its accept.
def AcceptStep.phase : AcceptStep → LoopPhase
  | .complete _ _ => .idle
  | _ => .accepting

theorem Port.phase_after {τ : Type*} {p q : Port τ} {step : AcceptStep}
    (h : q.remaining + 1 = p.remaining + step.regained) : q.phase = step.phase := by
  have hp := p.remaining_le
  have hq := q.remaining_le
  cases step with
  | complete i error =>
      have heq : q.remaining = 3 := by
        simp only [AcceptStep.regained] at h
        omega
      simp [Port.phase, heq, AcceptStep.phase]
  | _ =>
      have hne : q.remaining ≠ 3 := by
        simp only [AcceptStep.regained] at h
        omega
      simp [Port.phase, hne, AcceptStep.phase]

namespace Serve

variable {ι ψ κ : Type*} {σ : Type*} {Msg : σ → Type*} [DecidableEq ι] {pb : Protobuf σ Msg}
  {names : List Bytes} {s : Serve ι ψ κ} {labels : List (ExLabel ι ψ κ)}
  {ls : List (ServerLabel ι TransportMessage ψ)}

omit [DecidableEq ι] in
@[simp] theorem advance_ex (s : Serve ι ψ κ) (ex : ExServer ι ψ κ) (label : ExLabel ι ψ κ) :
    (s.advance ex label).ex = ex := by
  unfold advance
  split <;> rfl

-- A serve runs a server under its contract, and its loops are where the accepts
-- of the server are.
structure Tracks (labels : List (ExLabel ι ψ κ)) (ls : List (ServerLabel ι TransportMessage ψ))
    (s : Serve ι ψ κ) : Prop where
  run : (Server.machine ι TransportMessage ψ).Run Server.Contract .new ls s.ex.server
  same : Server.history ls = Server.history (serverLabels labels)
  listener : s.listener = (s.ex.server.lobby.ports ()).phase
  length : s.handleConns.length = s.ex.server.accepted
  handleConns : ∀ c phase, s.handleConns[c]? = some phase →
    phase = (s.ex.server.net.ports c).phase
  handlers : s.ex.handlers.map Handler.req = s.ex.server.net.handed.filterMap (·.2.item)

theorem new_tracks : Tracks [] [] (new : Serve ι ψ κ) where
  run := .nil
  same := rfl
  listener := rfl
  length := rfl
  handleConns := fun _ _ h => by simp [new] at h
  handlers := rfl

section Step

variable {label : ServerLabel ι TransportMessage ψ}

-- What serve relies on, and where its loops are, is the contract of the server.
theorem Tracks.contract (h : Tracks labels ls s) (hallow : Dependable labels s (.server label))
    (henabled : s.Enabled names (.server label)) : Server.Contract ls s.ex.server label := by
  have hiso := Server.run_isolated h.run
  obtain ⟨⟨-, hcomplete⟩, hready⟩ := henabled
  cases label with
  | processConnect clientId callback =>
      simp only [Server.Contract, h.same]
      exact hallow
  | processDisconnect clientId callback =>
      simp only [Server.Contract, h.same]
      exact hallow
  | processRequest clientId message callback =>
      simp only [Server.Contract, h.same]
      exact hallow
  | acceptConn step =>
      cases step with
      | start =>
          refine ⟨by simp [hiso.lobbyHome], ?_⟩
          exact Port.phase_idle.mp (h.listener.symm.trans hready)
      | pop i => exact trivial
      | wait i => exact trivial
      | complete i error => exact hallow
      | cancel => exact hready.elim
  | accept c step =>
      cases step with
      | start =>
          have hlt := (List.getElem?_eq_some_iff.mp hready).1
          rw [h.length, hiso.accepted] at hlt
          refine ⟨?_, Port.phase_idle.mp (h.handleConns c _ hready).symm⟩
          simp [hiso.homes, hlt]
      | pop i => exact trivial
      | wait i => exact trivial
      | complete i error => exact hallow
      | cancel =>
          have hphase := h.handleConns c _ hready
          unfold Port.phase at hphase
          split at hphase <;> exact absurd hphase (by simp)
  | complete req hr reply => exact absurd rfl (hcomplete req hr reply)

-- The listener is where the accepts of the acceptor are,
theorem Tracks.listener_advance (h : Tracks labels ls s)
    (hallow : Dependable labels s (.server label)) (henabled : s.Enabled names (.server label))
    {ex : ExServer ι ψ κ} (hx : s.ex.server.exec label = .ok ex.server) :
    (s.advance ex (.server label)).listener = (ex.server.lobby.ports ()).phase := by
  have hiso := Server.run_isolated h.run
  obtain ⟨hown, hothers⟩ :=
    Server.exec_lobby_remaining hiso (h.contract hallow henabled) henabled.1.1 hx
  by_cases hlabel : ∃ step, label = .acceptConn step
  · obtain ⟨step, rfl⟩ := hlabel
    rw [Port.phase_after (hown step rfl)]
    cases step with
    | start => rfl
    | pop i => exact h.listener.trans (Port.phase_busy henabled.1.1)
    | wait i => exact h.listener.trans (Port.phase_busy henabled.1.1)
    | complete i error =>
        obtain rfl : error = false := hallow
        rfl
    | cancel => exact henabled.2.elim
  · have hne : ∀ step, label ≠ .acceptConn step := fun step heq => hlabel ⟨step, heq⟩
    have hphase : (ex.server.lobby.ports ()).phase = (s.ex.server.lobby.ports ()).phase := by
      rw [Port.phase, hothers hne, Port.phase]
    rw [hphase, ← h.listener]
    cases label with
    | acceptConn step => exact absurd rfl (hne step)
    | accept c step =>
        cases step with
        | complete i error => cases error <;> rfl
        | _ => rfl
    | _ => rfl

-- and a connection is where its own are.
theorem Tracks.handleConns_advance (h : Tracks labels ls s)
    (hallow : Dependable labels s (.server label)) (henabled : s.Enabled names (.server label))
    {ex : ExServer ι ψ κ} (hx : s.ex.server.exec label = .ok ex.server) (d : ℕ) (phase : LoopPhase)
    (hd : (s.advance ex (.server label)).handleConns[d]? = some phase) :
    phase = (ex.server.net.ports d).phase := by
  have hiso := Server.run_isolated h.run
  obtain ⟨hown, hothers⟩ :=
    Server.exec_net_remaining hiso (h.contract hallow henabled) henabled.1.1 hx d
  have hsame (hne : ∀ step, label ≠ .accept d step) :
      (ex.server.net.ports d).phase = (s.ex.server.net.ports d).phase := by
    rw [Port.phase, hothers hne, Port.phase]
  cases label with
  | acceptConn step =>
      rw [hsame (by simp)]
      cases step with
      | complete i error =>
          obtain rfl : error = false := hallow
          simp only [advance, List.getElem?_append] at hd
          split at hd
          · exact h.handleConns d phase hd
          · rename_i hlt
            obtain ⟨hzero, rfl⟩ := List.getElem?_eq_some_iff.mp hd
            have hidle : (s.ex.server.net.ports d).accepts = [] := by
              by_contra hbusy
              have hhome := hiso.net.homed d hbusy
              rw [hiso.homes, List.getElem?_eq_none] at hhome
              · exact absurd hhome (by simp)
              · rw [← hiso.accepted, ← h.length]
                omega
            simpa using (Port.phase_idle.mpr hidle).symm
      | _ => exact h.handleConns d phase hd
  | accept c step =>
      by_cases hc : c = d
      · subst hc
        rw [Port.phase_after (hown step rfl)]
        cases step with
        | start =>
            obtain ⟨hlt, rfl⟩ := List.getElem?_eq_some_iff.mp hd
            exact List.getElem_set_self _
        | pop i => exact (h.handleConns c phase hd).trans (Port.phase_busy henabled.1.1)
        | wait i => exact (h.handleConns c phase hd).trans (Port.phase_busy henabled.1.1)
        | complete i error =>
            obtain rfl : error = false := hallow
            obtain ⟨hlt, rfl⟩ := List.getElem?_eq_some_iff.mp hd
            exact List.getElem_set_self _
        | cancel => exact (h.contract hallow henabled).elim
      · rw [hsame (by simp [hc])]
        apply h.handleConns d phase
        rw [← hd]
        cases step with
        | start => simp [advance, List.getElem?_set_ne hc]
        | complete i error => cases error <;> simp [advance, List.getElem?_set_ne hc]
        | cancel => simp [advance, List.getElem?_set_ne hc]
        | _ => rfl
  | _ =>
      rw [hsame (by simp)]
      exact h.handleConns d phase hd

theorem Tracks.length_advance (h : Tracks labels ls s)
    (hallow : Dependable labels s (.server label)) {ex : ExServer ι ψ κ}
    (hx : s.ex.server.exec label = .ok ex.server) :
    (s.advance ex (.server label)).handleConns.length = ex.server.accepted := by
  rw [Server.exec_accepted hx, ← h.length]
  cases label with
  | acceptConn step =>
      cases step with
      | complete i error =>
          obtain rfl : error = false := hallow
          simp [advance, ServerLabel.connects]
      | _ => rfl
  | accept c step =>
      cases step with
      | complete i error => cases error <;> simp [advance, ServerLabel.connects]
      | start => simp [advance, ServerLabel.connects]
      | cancel => simp [advance, ServerLabel.connects]
      | _ => rfl
  | _ => rfl

-- Each request that is handed over gets its coroutine.
theorem Tracks.serve_handlers (h : Tracks labels ls s)
    (hallow : Dependable labels s (.server label)) (henabled : s.Enabled names (.server label))
    {server : Server ι TransportMessage ψ} (hx : s.ex.server.exec label = .ok server) :
    ∃ ex, s.ex.serve label = .ok ex ∧ ex.server = server ∧
      ex.handlers.map Handler.req = server.net.handed.filterMap (·.2.item) := by
  have hiso := Server.run_isolated h.run
  by_cases hlabel : ∃ c i error, label = .accept c (.complete i error)
  · obtain ⟨c, i, error, rfl⟩ := hlabel
    obtain rfl : error = false := hallow
    obtain ⟨fired, hi, hfired⟩ := henabled.1.1
    rw [hfired rfl] at hi
    obtain ⟨net, req, hholder, -⟩ := AcceptNet.complete_cases hiso.net.toSequential hi
    have hspawned : s.ex.spawned (.accept c (.complete i false)) = some (some req) :=
      congrArg some hholder
    refine ⟨⟨server, s.ex.handlers ++ [⟨req, none⟩], s.ex.completed⟩,
      by simp only [ExServer.serve, hx, hspawned], rfl, ?_⟩
    rw [ExServer.spawned_handed hx hspawned, List.map_append, h.handlers]
    rfl
  · have hspawned : s.ex.spawned label = none := by
      unfold ExServer.spawned
      split
      · exact absurd ⟨_, _, _, rfl⟩ hlabel
      · rfl
    refine ⟨{ s.ex with server := server }, by simp only [ExServer.serve, hx, hspawned], rfl, ?_⟩
    rw [Server.exec_handed_of_ne hx fun c i error heq => hlabel ⟨c, i, error, heq⟩]
    exact h.handlers

theorem Tracks.serve (h : Tracks labels ls s) (hallow : Dependable labels s (.server label))
    (henabled : s.Enabled names (.server label)) (pb : Protobuf σ Msg) :
    ∃ next, exec pb s (.server label) = .ok next ∧
      Tracks (labels ++ [.server label]) (ls ++ [label]) next := by
  have hcontract := h.contract hallow henabled
  rcases Server.exec_isolated (Server.run_isolated h.run) hcontract henabled.1.1 with
    ⟨server, hx, -⟩ | ⟨req, hlabel, -⟩
  · obtain ⟨ex, hserve, rfl, hhandlers⟩ := h.serve_handlers hallow henabled hx
    refine ⟨s.advance ex (.server label), by simp only [exec, ExServer.exec, hserve, Except.map],
      ?_, ?_, ?_, ?_, ?_, ?_⟩
    · rw [advance_ex]
      exact h.run.snoc hcontract henabled.1.1 hx
    · simp only [serverLabels, List.filterMap_append, Server.history_snoc, h.same]
      exact (Server.history_snoc _ _).symm
    · rw [advance_ex]
      exact h.listener_advance hallow henabled hx
    · rw [advance_ex]
      exact h.length_advance hallow hx
    · rw [advance_ex]
      exact h.handleConns_advance hallow henabled hx
    · rw [advance_ex]
      exact hhandlers
  · exact absurd hlabel (henabled.1.2 req sOk none)

end Step

section Ends

variable {i : ℕ} {svcs : List (Service κ)}

omit [DecidableEq ι] in
theorem handleRequest_server {ex ex' : ExServer ι ψ κ} {handler : Handler ι ψ κ}
    (hx : ex.handleRequest pb i handler svcs = .ok ex') : ex'.server = ex.server ∨
      ∃ reply, ex.server.complete handler.req sOk (some reply) = .ok ex'.server := by
  unfold ExServer.handleRequest at hx
  simp only at hx
  split at hx
  · obtain rfl := Except.ok.inj hx
    exact .inl rfl
  · rename_i reply hresult
    split at hx
    · exact absurd hx (by simp)
    · rename_i server hcomplete
      obtain rfl := Except.ok.inj hx
      exact .inr ⟨reply, hcomplete⟩

-- The end of a coroutine moves no loop, and the server completes its request or nothing.
theorem Tracks.ends (h : Tracks labels ls s) (hsound : ExServer.Sound pb s.ex)
    (henabled : s.Enabled names (.ends i svcs)) :
    ∃ next ls', exec pb s (.ends i svcs) = .ok next ∧
      Tracks (labels ++ [.ends i svcs]) ls' next := by
  obtain ⟨⟨⟨handler, hi, hrunning⟩, -⟩, -⟩ := henabled
  obtain ⟨ex, hx, -⟩ := ExServer.handleRequest_sound hsound hi hrunning svcs
  have hexec : exec pb s (.ends i svcs) = .ok { s with ex := ex } := by
    simp only [exec, ExServer.exec, hi, hx, Except.map, advance]
  have hlabels : serverLabels (labels ++ [.ends i svcs]) = serverLabels labels := by
    simp [serverLabels]
  have hreqs : ex.handlers.map Handler.req = s.ex.server.net.handed.filterMap (·.2.item) := by
    rw [ExServer.handleRequest_handlers hx, ExServer.map_req_set hi, h.handlers]
  rcases handleRequest_server hx with hsame | ⟨reply, hcomplete⟩
  · refine ⟨_, ls, hexec, ?_, by rw [hlabels, h.same], ?_, ?_, ?_, ?_⟩ <;> simp only [hsame]
    · exact h.run
    · exact h.listener
    · exact h.length
    · exact h.handleConns
    · exact hreqs
  · have hhanded : handler.req ∈ s.ex.server.net.handed.filterMap (·.2.item) := by
      rw [← h.handlers]
      exact List.mem_map_of_mem (List.mem_of_getElem? hi)
    obtain ⟨handed, hin, hitem⟩ := List.mem_filterMap.mp hhanded
    have henabled : s.ex.server.Enabled (.complete handler.req sOk (some reply)) :=
      ⟨handed, hin, hitem⟩
    have hrun : (Server.machine ι TransportMessage ψ).Run Server.Contract .new
        (ls ++ [.complete handler.req sOk (some reply)]) ex.server :=
      h.run.snoc trivial henabled hcomplete
    obtain ⟨ctx, -, hserver⟩ := Server.complete_ok hcomplete
    refine ⟨_, _, hexec, hrun, ?_, ?_, ?_, ?_, ?_⟩
    · rw [hlabels, Server.history_snoc]
      exact h.same
    all_goals simp only [hserver]
    · exact h.listener
    · exact h.length
    · exact h.handleConns
    · exact hreqs

end Ends

theorem exec_ok {label : ExLabel ι ψ κ} {next : Serve ι ψ κ} (hx : exec pb s label = .ok next) :
    ∃ ex, ExServer.exec pb s.ex label = .ok ex ∧ next = s.advance ex label := by
  unfold exec at hx
  cases hex : ExServer.exec pb s.ex label with
  | error fault =>
      rw [hex] at hx
      exact absurd hx (by simp [Except.map])
  | ok ex =>
      rw [hex] at hx
      exact ⟨ex, rfl, (Except.ok.inj hx).symm⟩

-- What serve is allowed to do succeeds.
theorem exec_tracks (h : Tracks labels ls s) (hsound : ExServer.Sound pb s.ex)
    {label : ExLabel ι ψ κ} (hallow : Dependable labels s label)
    (henabled : s.Enabled names label) :
    ∃ next ls', exec pb s label = .ok next ∧ Tracks (labels ++ [label]) ls' next ∧
      ExServer.Sound pb next.ex := by
  have hexec {next : Serve ι ψ κ} (hx : exec pb s label = .ok next) :
      ExServer.Sound pb next.ex := by
    obtain ⟨ex, hex, rfl⟩ := exec_ok hx
    rw [advance_ex]
    exact ExServer.exec_sound hsound henabled.1 hex
  cases label with
  | server label =>
      obtain ⟨next, hx, hnext⟩ := h.serve hallow henabled pb
      exact ⟨next, _, hx, hnext, hexec hx⟩
  | ends i svcs =>
      obtain ⟨next, ls', hx, hnext⟩ := h.ends hsound henabled
      exact ⟨next, ls', hx, hnext, hexec hx⟩

theorem run_tracks (hrun : (machine pb names).Run Dependable new labels s) :
    (∃ ls, Tracks labels ls s) ∧ ExServer.Sound pb s.ex := by
  apply hrun.invariant fun labels s => (∃ ls, Tracks labels ls s) ∧ ExServer.Sound pb s.ex
  · exact ⟨⟨[], new_tracks⟩, ExServer.new_sound pb⟩
  · rintro labels s label next ⟨⟨ls, h⟩, hsound⟩ hallow henabled hx
    obtain ⟨next', ls', hx', hnext, hsound'⟩ := exec_tracks h hsound hallow henabled
    obtain rfl := Except.ok.inj (hx'.symm.trans hx)
    exact ⟨⟨ls', hnext⟩, hsound'⟩

-- The loops of serve keep the contract that the server needs of them: no
-- assertion fails and no lookup throws. What holds of every run of a server
-- under its contract, or of an ex_server, holds of serve.
theorem serve_keeps_contract (hrun : (machine pb names).Run Dependable new labels s) :
    (∀ label, Dependable labels s label → s.Enabled names label →
      ∃ next, exec pb s label = .ok next) ∧
    (∃ ls, (Server.machine ι TransportMessage ψ).Run Server.Contract .new ls s.ex.server ∧
      Server.history ls = Server.history (serverLabels labels)) ∧
    (ExServer.machine pb names).Run Lib.Machine.anything .new labels s.ex := by
  obtain ⟨⟨ls, h⟩, hsound⟩ := run_tracks hrun
  refine ⟨?_, ⟨ls, h.run, h.same⟩, ?_⟩
  · intro label hallow henabled
    obtain ⟨next, -, hx, -⟩ := exec_tracks h hsound hallow henabled
    exact ⟨next, hx⟩
  · have hproject : ∃ labels' t, (ExServer.machine pb names).Run Lib.Machine.anything .new
        labels' t ∧ labels' = labels ∧ t = s.ex := by
      apply hrun.simulates (fun labels s labels' t => labels' = labels ∧ t = s.ex) ⟨rfl, rfl⟩
      rintro labels s label next labels' t ⟨rfl, rfl⟩ hrun' - henabled hx
      obtain ⟨ex, hex, rfl⟩ := exec_ok hx
      exact ⟨_, _, hrun'.snoc trivial henabled.1 hex, rfl, (advance_ex s ex label).symm⟩
    obtain ⟨labels', t, hrun', rfl, rfl⟩ := hproject
    exact hrun'

-- One client connects, and its one request is accepted.
def servedLabels (url : String) : List (ExLabel ℕ ℕ Unit) :=
  [.server (.processConnect 5 0), .server (.acceptConn .start), .server (.acceptConn (.pop 0)),
    .server (.acceptConn (.wait 0)), .server (.acceptConn (.complete 0 false)),
    .server (.accept 0 .start), .server (.accept 0 (.pop 0)), .server (.accept 0 (.wait 0)),
    .server (.processRequest 5 (ExServer.messageTo url) 1),
    .server (.accept 0 (.complete 0 false))]

theorem run_served (pb : Protobuf σ Msg) (names : List Bytes) (url : String) :
    ∃ s : Serve ℕ ℕ Unit, (machine pb names).Run Dependable new (servedLabels url) s ∧
      s.ex.handlers = [ExServer.handlerTo url none] ∧ s.ex.server.accepted = 1 ∧
      s.listener = .idle := by
  have hrun : (machine pb names).Run Dependable (new : Serve ℕ ℕ Unit) [] new := .nil
  replace hrun : (machine pb names).Run Dependable new (_ ++ [.server (.processConnect 5 0)]) _ :=
    hrun.snoc rfl ⟨⟨trivial, by simp⟩, trivial⟩ rfl
  replace hrun : (machine pb names).Run Dependable new (_ ++ [.server (.acceptConn .start)]) _ :=
    hrun.snoc trivial ⟨⟨trivial, by simp⟩, rfl⟩ rfl
  replace hrun : (machine pb names).Run Dependable new (_ ++ [.server (.acceptConn (.pop 0))]) _ :=
    hrun.snoc trivial ⟨⟨rfl, by simp⟩, trivial⟩ rfl
  replace hrun : (machine pb names).Run Dependable new
      (_ ++ [.server (.acceptConn (.wait 0))]) _ := hrun.snoc trivial ⟨⟨rfl, by simp⟩, trivial⟩ rfl
  replace hrun : (machine pb names).Run Dependable new
      (_ ++ [.server (.acceptConn (.complete 0 false))]) _ :=
    hrun.snoc rfl ⟨⟨⟨true, rfl, fun _ => rfl⟩, by simp⟩, trivial⟩ rfl
  replace hrun : (machine pb names).Run Dependable new (_ ++ [.server (.accept 0 .start)]) _ :=
    hrun.snoc trivial ⟨⟨trivial, by simp⟩, rfl⟩ rfl
  replace hrun : (machine pb names).Run Dependable new (_ ++ [.server (.accept 0 (.pop 0))]) _ :=
    hrun.snoc trivial ⟨⟨rfl, by simp⟩, trivial⟩ rfl
  replace hrun : (machine pb names).Run Dependable new (_ ++ [.server (.accept 0 (.wait 0))]) _ :=
    hrun.snoc trivial ⟨⟨rfl, by simp⟩, trivial⟩ rfl
  replace hrun : (machine pb names).Run Dependable new
      (_ ++ [.server (.processRequest 5 (ExServer.messageTo url) 1)]) _ :=
    hrun.snoc rfl ⟨⟨trivial, by simp⟩, trivial⟩ rfl
  replace hrun : (machine pb names).Run Dependable new
      (_ ++ [.server (.accept 0 (.complete 0 false))]) _ :=
    hrun.snoc rfl ⟨⟨⟨true, rfl, fun _ => rfl⟩, by simp⟩, trivial⟩ rfl
  exact ⟨_, hrun, rfl, rfl, rfl⟩

theorem serve_keeps_contract_served :
    ∃ s : Serve ℕ ℕ Unit,
      (machine stringProtobuf [lit "pkg.Foo"]).Run Dependable new (servedLabels "/pkg.Foo/M") s ∧
      (∃ next, exec stringProtobuf s (.server (.acceptConn .start)) = .ok next) ∧
      ∃ ls, (Server.machine ℕ TransportMessage ℕ).Run Server.Contract .new ls s.ex.server ∧
        Server.history ls = Server.history (serverLabels (servedLabels "/pkg.Foo/M")) := by
  obtain ⟨s, hrun, -, -, hlistener⟩ := run_served stringProtobuf [lit "pkg.Foo"] "/pkg.Foo/M"
  obtain ⟨hexec, hserver, -⟩ := serve_keeps_contract hrun
  exact ⟨s, hrun, hexec _ trivial ⟨⟨trivial, by simp⟩, hlistener⟩, hserver⟩

end Serve

end FabricRpc.V2
