import FabricRpc.V2.AcceptNet.Orphan
import FabricRpc.V2.Server.Steps

namespace FabricRpc.V2.Server

variable {ι μ ψ : Type*} [DecidableEq ι]

-- Requests can still be posted to the queue of the entry.
def Listed (s : Server ι μ ψ) (entry : ℕ) : Prop := ∃ id, s.conns.lookup id = some entry

-- Connections can still be pushed to the queue of the acceptor.
def Open (labels : List (ServerLabel ι μ ψ)) (_ : Unit) : Prop := .acceptConn .cancel ∉ labels

-- Every accept that sleeps is registered where it can be woken: on the acceptor
-- while that is not closed, on a server connection while its entry is in `conns_`.
structure NoOrphan (labels : List (ServerLabel ι μ ψ)) (s : Server ι μ ψ) : Prop where
  acceptor : s.lobby.NoOrphan (Open labels)
  connections : s.net.NoOrphan s.Listed

-- The surroundings stop before a step that orphans an accept.
def OrphansNone (labels : List (ServerLabel ι μ ψ)) (s : Server ι μ ψ)
    (label : ServerLabel ι μ ψ) : Prop :=
  ∀ s', s.exec label = .ok s' → NoOrphan (labels ++ [label]) s'

-- A client disconnects while no accept sleeps on its connection, and close()
-- comes while none sleeps on the acceptor. An accept that would sleep starts to
-- only where it can be woken, and a destructor leaves a sleeping accept in its queue.
def Wakeful (labels : List (ServerLabel ι μ ψ)) (s : Server ι μ ψ) : ServerLabel ι μ ψ → Prop
  | .processDisconnect id _ => ∀ entry c, s.conns.lookup id = some entry →
      s.net.home c = some entry → ¬(s.net.ports c).Sleeps
  | .acceptConn .cancel => ¬(s.lobby.ports ()).Sleeps
  | .acceptConn step => s.lobby.Wakeful (Open labels) (step.label ())
  | .accept c step => s.net.Wakeful s.Listed (step.label c)
  | _ => True

variable {s s' : Server ι μ ψ} {label : ServerLabel ι μ ψ} {labels : List (ServerLabel ι μ ψ)}

omit [DecidableEq ι] in
theorem open_snoc (hlabel : label ≠ .acceptConn .cancel) :
    Open (labels ++ [label]) = Open labels := by
  funext _
  simp [Open, Ne.symm hlabel]

-- The table holds each entry under the client that it was made for.
def Named (s : Server ι μ ψ) : Prop :=
  ∀ id entry, s.conns.lookup id = some entry → s.entries[entry]? = some id

theorem connect_named (h : Named s) (clientId : ι) (callback : ψ) :
    Named (s.beginProcessConnect clientId callback) := by
  intro id entry hlookup
  have hold : s.conns.lookup id = some entry → (s.entries ++ [clientId])[entry]? = some id := by
    intro hlookup
    have hname := h id entry hlookup
    have hlt := (List.getElem?_eq_some_iff.mp hname).1
    rw [List.getElem?_append_left hlt, hname]
  simp only [beginProcessConnect, addConn, completeImmediately] at hlookup ⊢
  split at hlookup
  · exact hold hlookup
  · by_cases hid : id = clientId
    · subst hid
      rw [AList.lookup_insert, Option.some.injEq] at hlookup
      subst hlookup
      simp
    · rw [AList.lookup_insert_ne hid] at hlookup
      exact hold hlookup

theorem exec_named (h : Named s) (hx : s.exec label = .ok s') : Named s' := by
  cases label with
  | processConnect clientId callback =>
      obtain rfl := Except.ok.inj hx
      exact connect_named h clientId callback
  | processDisconnect clientId callback =>
      obtain ⟨found, -, rfl⟩ := disconnect_ok hx
      intro id entry hlookup
      by_cases hid : id = clientId
      · subst hid
        simp [completeImmediately] at hlookup
      · simp only [completeImmediately, AList.lookup_erase_ne hid] at hlookup
        exact h id entry hlookup
  | _ =>
      obtain ⟨hentries, hconns⟩ := exec_manager hx (by simp) (by simp)
      intro id entry hlookup
      rw [hconns] at hlookup
      rw [hentries]
      exact h id entry hlookup

-- What a step finds, whatever happened before.
structure Arranged (s : Server ι μ ψ) : Prop where
  lobby : s.lobby.Recorded
  net : s.net.Recorded
  named : Named s

theorem new_arranged : Arranged (new : Server ι μ ψ) where
  lobby := AcceptNet.new_recorded _
  net := AcceptNet.new_recorded _
  named := fun _ _ h => by simp [new] at h

theorem exec_arranged (h : Arranged s) (henabled : s.Enabled label) (hx : s.exec label = .ok s') :
    Arranged s' where
  lobby := by
    rcases exec_lobby hx with ⟨-, hsame⟩ | ⟨l, hl, hstep⟩
    · rw [hsame]
      exact h.lobby
    · exact AcceptNet.exec_recorded h.lobby (lobbyLabel_enabled henabled hl) hstep
  net := by
    rcases exec_net hx with ⟨-, hsame⟩ | ⟨l, hl, hstep⟩
    · rw [hsame]
      exact h.net
    · exact AcceptNet.exec_recorded h.net (netLabel_enabled henabled hl) hstep
  named := exec_named h.named hx

theorem connect_noOrphan (h : NoOrphan labels s) (ha : Arranged s) (clientId : ι) (callback : ψ) :
    NoOrphan (labels ++ [.processConnect clientId callback])
      (s.beginProcessConnect clientId callback) where
  acceptor := by
    rw [open_snoc (by simp)]
    exact AcceptNet.push_noOrphan h.acceptor ha.lobby () s.entries.length
  connections := by
    intro c hc
    obtain ⟨entry, hhome, hmem, id, hlookup⟩ := h.connections c hc
    refine ⟨entry, hhome, hmem, id, ?_⟩
    simp only [beginProcessConnect, addConn, completeImmediately]
    split
    · exact hlookup
    · rename_i hnew
      have hne : id ≠ clientId := by
        rintro rfl
        exact hnew (AList.lookup_isSome.mp (by simp [hlookup]))
      rw [AList.lookup_insert_ne hne, hlookup]

theorem disconnect_noOrphan_iff (h : NoOrphan labels s) (ha : Arranged s) {clientId : ι}
    {callback : ψ} (hx : s.beginProcessDisconnect clientId callback = .ok s') :
    NoOrphan (labels ++ [.processDisconnect clientId callback]) s' ↔
      ∀ entry c, s.conns.lookup clientId = some entry → s.net.home c = some entry →
        ¬(s.net.ports c).Sleeps := by
  obtain ⟨found, hfound, rfl⟩ := disconnect_ok hx
  constructor
  · intro hnext entry c hentry hhome hsleeps
    obtain ⟨other, hother, -, id, hlookup⟩ := hnext.connections c hsleeps
    obtain rfl : entry = other := Option.some.inj (hhome.symm.trans hother)
    by_cases hid : id = clientId
    · subst hid
      simp [completeImmediately] at hlookup
    · simp only [completeImmediately, AList.lookup_erase_ne hid] at hlookup
      have hnames := (ha.named id entry hlookup).symm.trans (ha.named clientId entry hentry)
      exact hid (Option.some.inj hnames)
  · intro hawake
    refine ⟨?_, ?_⟩
    · rw [open_snoc (by simp)]
      exact h.acceptor
    · intro c hsleeps
      obtain ⟨entry, hhome, hmem, id, hlookup⟩ := h.connections c hsleeps
      have hne : id ≠ clientId := by
        rintro rfl
        exact hawake entry c hlookup hhome hsleeps
      refine ⟨entry, hhome, hmem, id, ?_⟩
      simp only [completeImmediately, AList.lookup_erase_ne hne, hlookup]

theorem request_noOrphan (h : NoOrphan labels s) (ha : Arranged s) {clientId : ι} {message : μ}
    {callback : ψ} (hx : s.beginProcessRequest clientId message callback = .ok s') :
    NoOrphan (labels ++ [.processRequest clientId message callback]) s' := by
  obtain ⟨entry, -, rfl⟩ := request_ok hx
  refine ⟨?_, ?_⟩
  · rw [open_snoc (by simp)]
    exact h.acceptor
  · exact AcceptNet.push_noOrphan h.connections ha.net entry _

-- close() leaves no waiter of the acceptor any hope.
theorem close_noOrphan_iff (h : NoOrphan labels s) (hx : s.acceptConn .cancel = .ok s') :
    NoOrphan (labels ++ [.acceptConn .cancel]) s' ↔ ¬(s.lobby.ports ()).Sleeps := by
  have hports : (s.lobby.cancel ()).ports = s.lobby.ports := by
    rcases AcceptNet.cancel_cases s.lobby () with ⟨-, hc⟩ | ⟨k, -, hc⟩ <;> rw [hc]
    rfl
  rcases acceptConn_ok hx with ⟨i, error, heq, -⟩ | ⟨-, lobby, hlobby, rfl⟩
  · exact absurd heq (by simp)
  · obtain rfl : s.lobby.cancel () = lobby := Except.ok.inj hlobby
    constructor
    · intro hnext hsleeps
      obtain ⟨k, -, -, hopen⟩ := hnext.acceptor () (by rw [hports]; exact hsleeps)
      exact hopen (by simp)
    · intro hawake
      refine ⟨?_, h.connections⟩
      rintro ⟨⟩ hsleeps
      rw [hports] at hsleeps
      exact absurd hsleeps hawake

theorem acceptConn_noOrphan_iff (h : NoOrphan labels s) (ha : Arranged s) {step : AcceptStep}
    (hstep : step ≠ .cancel) (henabled : s.Enabled (.acceptConn step))
    (hx : s.acceptConn step = .ok s') : NoOrphan (labels ++ [.acceptConn step]) s' ↔
      s.lobby.Wakeful (Open labels) (step.label ()) := by
  have hopen : Open (labels ++ [.acceptConn step]) = Open labels := open_snoc (by simpa using hstep)
  have hconnections : s'.net.NoOrphan s'.Listed := by
    rcases acceptConn_ok hx with ⟨i, error, -, hcomplete⟩ | ⟨-, lobby, -, rfl⟩
    · obtain ⟨lobby, net, entry, -, -, hnet, rfl⟩ := completeConn_ok hcomplete
      exact AcceptNet.attach_noOrphan h.connections hnet
    · exact h.connections
  have hlobby : s'.lobby.NoOrphan (Open labels) ↔
      s.lobby.Wakeful (Open labels) (step.label ()) := by
    have hexec : s.exec (.acceptConn step) = .ok s' := hx
    rcases exec_lobby hexec with ⟨hnone, -⟩ | ⟨l, hl, hexec⟩
    · exact absurd hnone (by simp [lobbyLabel])
    · obtain rfl := Option.some.inj hl
      exact AcceptNet.exec_noOrphan_iff h.acceptor ha.lobby henabled hexec
  rw [← hlobby, ← hopen]
  exact ⟨fun hnext => hnext.acceptor, fun hacceptor => ⟨hacceptor, hconnections⟩⟩

theorem accept_noOrphan_iff (h : NoOrphan labels s) (ha : Arranged s) {c : ℕ} {step : AcceptStep}
    (henabled : s.Enabled (.accept c step)) (hx : s.accept c step = .ok s') :
    NoOrphan (labels ++ [.accept c step]) s' ↔ s.net.Wakeful s.Listed (step.label c) := by
  obtain ⟨net, hnet, rfl⟩ := accept_ok hx
  rw [← AcceptNet.exec_noOrphan_iff h.connections ha.net henabled hnet]
  constructor
  · exact fun hnext => hnext.connections
  · intro hconnections
    refine ⟨?_, hconnections⟩
    rw [open_snoc (by simp)]
    exact h.acceptor

-- A step orphans no accept exactly if it is wakeful.
theorem exec_noOrphan_iff (h : NoOrphan labels s) (ha : Arranged s) (henabled : s.Enabled label)
    (hx : s.exec label = .ok s') : NoOrphan (labels ++ [label]) s' ↔ Wakeful labels s label := by
  cases label with
  | processConnect clientId callback =>
      obtain rfl := Except.ok.inj hx
      exact iff_of_true (connect_noOrphan h ha clientId callback) trivial
  | processDisconnect clientId callback => exact disconnect_noOrphan_iff h ha hx
  | processRequest clientId message callback =>
      exact iff_of_true (request_noOrphan h ha hx) trivial
  | acceptConn step =>
      cases step with
      | cancel => exact close_noOrphan_iff h hx
      | _ => exact acceptConn_noOrphan_iff h ha (by simp) henabled hx
  | accept c step => exact accept_noOrphan_iff h ha henabled hx
  | complete req hr replyMsg =>
      obtain ⟨ctx, -, rfl⟩ := complete_ok hx
      refine iff_of_true ⟨?_, h.connections⟩ trivial
      rw [open_snoc (by simp)]
      exact h.acceptor

theorem new_noOrphan : NoOrphan [] (new : Server ι μ ψ) where
  acceptor := fun _ hsleeps => absurd hsleeps Port.not_sleeps_new
  connections := fun _ hsleeps => absurd hsleeps Port.not_sleeps_new

theorem exec_awake (h : Arranged s ∧ NoOrphan labels s) (hallow : Wakeful labels s label)
    (henabled : s.Enabled label) (hx : s.exec label = .ok s') :
    Arranged s' ∧ NoOrphan (labels ++ [label]) s' :=
  ⟨exec_arranged h.1 henabled hx, (exec_noOrphan_iff h.2 h.1 henabled hx).mpr hallow⟩

-- In every run whose steps are wakeful, no accept is ever orphaned.
theorem run_noOrphan (hrun : (machine ι μ ψ).Run Wakeful new labels s) : NoOrphan labels s := by
  have hinv := hrun.invariant (fun labels s => Arranged s ∧ NoOrphan labels s)
    ⟨new_arranged, new_noOrphan⟩
    (fun _ _ _ _ h hallow henabled hx => exec_awake h hallow henabled hx)
  exact hinv.2

-- And these are exactly the runs that orphan none.
theorem no_accept_orphaned_iff_wakeful :
    (machine ι μ ψ).Run OrphansNone new labels s ↔ (machine ι μ ψ).Run Wakeful new labels s := by
  apply Lib.Machine.Run.congr fun labels s => Arranged s ∧ NoOrphan labels s
  · exact ⟨new_arranged, new_noOrphan⟩
  · exact fun _ _ _ _ h hallow henabled hx => exec_awake h hallow henabled hx
  · rintro labels s label s' ⟨ha, h⟩ henabled hx
    rw [← exec_noOrphan_iff h ha henabled hx]
    constructor
    · exact fun hnone => hnone s' hx
    · intro hnext next hnextx
      obtain rfl : s' = next := Except.ok.inj (hx.symm.trans hnextx)
      exact hnext

-- A client leaves while an accept waits on its connection, and the acceptor is
-- closed while an accept waits on it. Both waits go on with nobody to end them.
theorem disconnect_and_close_orphan_accepts :
    (∃ (labels : List (ServerLabel ℕ ℕ ℕ)) (s : Server ℕ ℕ ℕ),
      (machine ℕ ℕ ℕ).Run Lib.Machine.anything new (labels ++ [.processDisconnect 5 1]) s ∧
      (s.net.ports 0).accepts = [.waiting false] ∧ s.conns = ∅ ∧
      ¬NoOrphan (labels ++ [.processDisconnect 5 1]) s) ∧
    ∃ (labels : List (ServerLabel ℕ ℕ ℕ)) (s : Server ℕ ℕ ℕ),
      (machine ℕ ℕ ℕ).Run Lib.Machine.anything new (labels ++ [.acceptConn .cancel]) s ∧
      (s.lobby.ports ()).accepts = [.waiting false] ∧ (s.lobby.queues ()).queueEntries = [] ∧
      ¬NoOrphan (labels ++ [.acceptConn .cancel]) s := by
  constructor
  · have hrun : (machine ℕ ℕ ℕ).Run Lib.Machine.anything new [] new := .nil
    replace hrun : (machine ℕ ℕ ℕ).Run Lib.Machine.anything new (_ ++ [.processConnect 5 0]) _ :=
      hrun.snoc trivial trivial rfl
    replace hrun : (machine ℕ ℕ ℕ).Run Lib.Machine.anything new (_ ++ [.acceptConn .start]) _ :=
      hrun.snoc trivial trivial rfl
    replace hrun : (machine ℕ ℕ ℕ).Run Lib.Machine.anything new (_ ++ [.acceptConn (.pop 0)]) _ :=
      hrun.snoc trivial rfl rfl
    replace hrun : (machine ℕ ℕ ℕ).Run Lib.Machine.anything new (_ ++ [.acceptConn (.wait 0)]) _ :=
      hrun.snoc trivial rfl rfl
    replace hrun : (machine ℕ ℕ ℕ).Run Lib.Machine.anything new
        (_ ++ [.acceptConn (.complete 0 false)]) _ :=
      hrun.snoc trivial ⟨true, rfl, fun _ => rfl⟩ rfl
    replace hrun : (machine ℕ ℕ ℕ).Run Lib.Machine.anything new (_ ++ [.accept 0 .start]) _ :=
      hrun.snoc trivial trivial rfl
    replace hrun : (machine ℕ ℕ ℕ).Run Lib.Machine.anything new (_ ++ [.accept 0 (.pop 0)]) _ :=
      hrun.snoc trivial rfl rfl
    replace hrun : (machine ℕ ℕ ℕ).Run Lib.Machine.anything new (_ ++ [.accept 0 (.wait 0)]) _ :=
      hrun.snoc trivial rfl rfl
    replace hrun : (machine ℕ ℕ ℕ).Run Lib.Machine.anything new
        (_ ++ [.processDisconnect 5 1]) _ :=
      hrun.snoc trivial trivial rfl
    refine ⟨_, _, hrun, rfl, rfl, ?_⟩
    intro h
    obtain ⟨entry, -, -, id, hlookup⟩ := h.connections 0 (.inr (List.mem_singleton_self _))
    have hempty : (∅ : AList fun _ : ℕ => ℕ).lookup id = some entry := hlookup
    exact absurd hempty (by simp)
  · have hrun : (machine ℕ ℕ ℕ).Run Lib.Machine.anything new [] new := .nil
    replace hrun : (machine ℕ ℕ ℕ).Run Lib.Machine.anything new (_ ++ [.acceptConn .start]) _ :=
      hrun.snoc trivial trivial rfl
    replace hrun : (machine ℕ ℕ ℕ).Run Lib.Machine.anything new (_ ++ [.acceptConn (.pop 0)]) _ :=
      hrun.snoc trivial rfl rfl
    replace hrun : (machine ℕ ℕ ℕ).Run Lib.Machine.anything new (_ ++ [.acceptConn (.wait 0)]) _ :=
      hrun.snoc trivial rfl rfl
    replace hrun : (machine ℕ ℕ ℕ).Run Lib.Machine.anything new (_ ++ [.acceptConn .cancel]) _ :=
      hrun.snoc trivial trivial rfl
    refine ⟨_, _, hrun, rfl, rfl, ?_⟩
    intro h
    obtain ⟨k, -, -, hopen⟩ := h.acceptor () (.inr (List.mem_singleton_self _))
    exact hopen (List.mem_append_right _ (List.mem_singleton_self _))

end FabricRpc.V2.Server
