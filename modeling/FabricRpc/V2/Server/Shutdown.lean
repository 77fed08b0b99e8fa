import FabricRpc.V2.AcceptNet.Arrival
import FabricRpc.V2.AcceptNet.Records
import FabricRpc.V2.ItemQueue.Drain
import FabricRpc.V2.Server.Steps

namespace FabricRpc.V2.AcceptNet

variable {τ κ ρ : Type*} [DecidableEq κ] [DecidableEq ρ] {net : AcceptNet τ κ ρ}

-- The waiters of a queue belong to the objects attached to it, so that each
-- destructor can only reach those of its own queue.
def Homed (net : AcceptNet τ κ ρ) : Prop :=
  ∀ k, ∀ e ∈ (net.queues k).queueEntries, net.home e.event = some k

omit [DecidableEq κ] in
theorem Recorded.homed [DecidableEq κ] (h : Recorded net) : Homed net := by
  intro k e he
  obtain ⟨hevent, hhome⟩ := h.entries k e he
  rw [hevent, hhome]

theorem cancel_home (net : AcceptNet τ κ ρ) (c : ρ) : (net.cancel c).home = net.home := by
  rcases cancel_cases net c with ⟨-, hc⟩ | ⟨k, -, hc⟩ <;> rw [hc]
  rfl

theorem cancel_queue (h : Homed net) (c : ρ) (k : κ) :
    (net.cancel c).queues k = (net.queues k).cancel c := by
  have hother (hne : net.home c ≠ some k) : (net.queues k).cancel c = net.queues k := by
    rcases ItemQueue.cancel_cases (net.queues k) c with hc | ⟨entries, e, he, hevent, -⟩
    · exact hc
    · have hhome := h k e (by simp [he])
      rw [hevent] at hhome
      exact absurd hhome hne
  rcases cancel_cases net c with ⟨hhome, hc⟩ | ⟨l, hhome, hc⟩
  · rw [hc, hother (by simp [hhome])]
  · by_cases hl : k = l
    · subst hl
      rw [hc, updateQueue_queue]
    · have hne : net.home c ≠ some k := by simp [hhome, Ne.symm hl]
      rw [hc, updateQueue_queue_ne _ _ _ hl, hother hne]

theorem cancel_homed (h : Homed net) (c : ρ) : Homed (net.cancel c) := by
  intro k e he
  rw [cancel_queue h] at he
  rw [cancel_home]
  rcases ItemQueue.call_entries _ (.cancel c) e he with he | hop
  · exact h k e he
  · exact absurd hop (by simp)

-- Destructors run one after the other cancel on each queue like on it alone.
theorem foldl_cancel_queue (h : Homed net) (order : List ρ) (k : κ) :
    (order.foldl cancel net).queues k = order.foldl ItemQueue.cancel (net.queues k) := by
  induction order generalizing net with
  | nil => rfl
  | cons c order ih => rw [List.foldl_cons, List.foldl_cons, ih (cancel_homed h c), cancel_queue h]

end FabricRpc.V2.AcceptNet

namespace FabricRpc.V2.Server

open ItemQueue (pushes pops)

variable {ι μ ψ : Type*}

-- The life of an acceptor up to the destructors: close() is called once, the
-- closed listener connects no client, and no accept pops the queue after it.
def Life (labels : List (ServerLabel ι μ ψ)) (_ : Server ι μ ψ) : ServerLabel ι μ ψ → Prop
  | .accept _ .cancel => False
  | .acceptConn .cancel => .acceptConn .cancel ∉ labels
  | .acceptConn (.pop _) => .acceptConn .cancel ∉ labels
  | .processConnect _ _ => .acceptConn .cancel ∉ labels
  | _ => True

-- ~basic_server_connection, for each one in this order.
def destroyConns (s : Server ι μ ψ) (order : List ℕ) : Server ι μ ψ :=
  { s with net := order.foldl AcceptNet.cancel s.net }

-- The assertions of ~basic_connection_manager and of ~basic_item_queue, for
-- `conn_queue_` and for the queue of each entry.
structure Clean (s : Server ι μ ψ) : Prop where
  conns : s.conns = ∅
  connQueue : (s.lobby.queues ()).Drained
  queues : ∀ entry < s.entries.length, (s.net.queues entry).Drained

-- Each client was met by an accept of the acceptor, and one accept more at most
-- was started. Each request was met by an accept of its connection, and the
-- connections whose accepts are left over are destroyed in an order in which
-- each finds its accept at the back of the queue.
structure Balanced (s : Server ι μ ψ) (order : List ℕ) : Prop where
  clients : (pushes (s.lobby.calls ())).length ≤ (pops (s.lobby.calls ())).length
  acceptors : (pops (s.lobby.calls ())).length ≤ (pushes (s.lobby.calls ())).length + 1
  requests : ∀ entry < s.entries.length,
    (pushes (s.net.calls entry)).length ≤ (pops (s.net.calls entry)).length
  waiters : ∀ entry < s.entries.length, (s.net.queues entry).reachable.Sublist order

variable [DecidableEq ι] {s s' : Server ι μ ψ} {label : ServerLabel ι μ ψ}
  {labels : List (ServerLabel ι μ ψ)}

-- The call that a step makes on `conn_queue_`.
def lobbyCall (s : Server ι μ ψ) : ServerLabel ι μ ψ → List (ItemQueue.Op ℕ Unit Unit)
  | .processConnect _ _ => [.push s.entries.length]
  | .acceptConn (.pop _) => [.asyncPop () ()]
  | .acceptConn .cancel => [.cancel ()]
  | _ => []

theorem exec_lobby_calls (hhome : s.lobby.home () = some ()) (hx : s.exec label = .ok s') :
    s'.lobby.calls () = s.lobby.calls () ++ s.lobbyCall label := by
  rcases exec_lobby hx with ⟨hnone, hsame⟩ | ⟨l, hl, hstep⟩
  · cases label with
    | processConnect id callback => exact absurd hnone (by simp [lobbyLabel])
    | acceptConn step => exact absurd hnone (by simp [lobbyLabel])
    | _ => simp [hsame, lobbyCall]
  · rw [AcceptNet.exec_calls hstep]
    congr 1
    cases label with
    | processConnect id callback =>
        obtain rfl := Option.some.inj hl
        simp [AcceptNet.called, lobbyCall]
    | acceptConn step =>
        obtain rfl := Option.some.inj hl
        cases step <;> simp [AcceptStep.label, AcceptNet.called, lobbyCall, hhome]
    | _ => exact absurd hl (by simp [lobbyLabel])

omit [DecidableEq ι] in
theorem lobbyCall_uncancelled (hlabel : label ≠ .acceptConn .cancel) :
    ItemQueue.Uncancelled (s.lobbyCall label) := by
  intro event
  cases label with
  | acceptConn step =>
      cases step with
      | cancel => exact absurd rfl hlabel
      | _ => simp [lobbyCall]
  | _ => simp [lobbyCall]

omit [DecidableEq ι] in
theorem lobbyCall_closed (hallow : Life labels s label) (hclosed : .acceptConn .cancel ∈ labels) :
    s.lobbyCall label = [] := by
  cases label with
  | processConnect id callback => exact absurd hclosed hallow
  | acceptConn step =>
      cases step with
      | pop i => exact absurd hclosed hallow
      | cancel => exact absurd hclosed hallow
      | _ => rfl
  | _ => rfl

-- close() is the last call on `conn_queue_`, and the only one that cancels.
structure ClosedOnce (labels : List (ServerLabel ι μ ψ)) (ops : List (ItemQueue.Op ℕ Unit Unit)) :
    Prop where
  before : .acceptConn .cancel ∉ labels → ItemQueue.Uncancelled ops
  after : .acceptConn .cancel ∈ labels →
    ∃ body, ItemQueue.Uncancelled body ∧ ops = body ++ [.cancel ()]

theorem exec_closedOnce (h : ClosedOnce labels (s.lobby.calls ()))
    (hhome : s.lobby.home () = some ()) (hallow : Life labels s label)
    (hx : s.exec label = .ok s') : ClosedOnce (labels ++ [label]) (s'.lobby.calls ()) := by
  rw [exec_lobby_calls hhome hx]
  by_cases hlabel : label = .acceptConn .cancel
  · subst hlabel
    have hopen : .acceptConn .cancel ∉ labels := hallow
    refine ⟨fun hnot => absurd (by simp) hnot, fun _ => ⟨_, h.before hopen, rfl⟩⟩
  · have hmem : .acceptConn .cancel ∈ labels ++ [label] ↔ .acceptConn .cancel ∈ labels := by
      simp [Ne.symm hlabel]
    constructor
    · intro hopen
      rw [hmem] at hopen
      exact (h.before hopen).append (lobbyCall_uncancelled hlabel)
    · intro hclosed
      rw [hmem] at hclosed
      rw [lobbyCall_closed hallow hclosed, List.append_nil]
      exact h.after hclosed

theorem run_closedOnce (hrun : (machine ι μ ψ).Run Life new labels s) :
    s.lobby.home () = some () ∧ ClosedOnce labels (s.lobby.calls ()) := by
  apply hrun.invariant fun labels s =>
    s.lobby.home () = some () ∧ ClosedOnce labels (s.lobby.calls ())
  · exact ⟨rfl, fun _ _ => List.not_mem_nil, fun hmem => absurd hmem List.not_mem_nil⟩
  · rintro labels s label s' ⟨hhome, h⟩ hallow - hx
    exact ⟨by rw [exec_lobby_home hx, hhome], exec_closedOnce h hhome hallow hx⟩

-- Before the destructors nothing is cancelled on a queue of requests.
theorem run_net_uncancelled (hrun : (machine ι μ ψ).Run Life new labels s) (entry : ℕ) :
    ItemQueue.Uncancelled (s.net.calls entry) := by
  apply hrun.state_invariant fun s => ItemQueue.Uncancelled (s.net.calls entry)
  · exact fun _ => List.not_mem_nil
  · intro labels s label s' h hallow _ hx
    rcases exec_net hx with ⟨-, hsame⟩ | ⟨l, hl, hstep⟩
    · rw [hsame]
      exact h
    · have hcancel : ∀ c, l ≠ .cancel c := by
        rintro c rfl
        cases label with
        | accept d step => cases step <;> simp [netLabel, AcceptStep.label, Life] at hl hallow
        | acceptConn step => cases step <;> simp [netLabel] at hl
        | _ => simp [netLabel] at hl
      rw [AcceptNet.exec_calls hstep]
      exact h.append (AcceptNet.called_uncancelled hcancel entry)

-- Clients that are all reported gone are not in the table.
theorem conns_empty (h : Tabled labels s) (hgone : ∀ id, (history labels).current id = none) :
    s.conns = ∅ := by
  apply AList.ext
  rw [AList.empty_entries, List.eq_nil_iff_forall_not_mem]
  intro entry hmem
  have hkey : entry.1 ∈ s.conns := AList.mem_keys.mpr (List.mem_map_of_mem hmem)
  have hlookup := h entry.1
  rw [hgone, AList.lookup_isSome.mpr hkey] at hlookup
  exact absurd hlookup (by simp)

theorem sublist_unit_iff (waiters : List Unit) :
    waiters.Sublist [()] ↔ waiters.length ≤ 1 := by
  have hunits : waiters = List.replicate waiters.length () :=
    List.eq_replicate_length.mpr fun _ _ => rfl
  have hone : [()] = List.replicate 1 () := rfl
  rw [hunits, List.length_replicate, hone, List.replicate_sublist_replicate]

theorem closed_drained_iff {body : List (ItemQueue.Op ℕ Unit Unit)}
    (hbody : ItemQueue.Uncancelled body) :
    (ItemQueue.run (body ++ [.cancel ()])).queue.Drained ↔
      (pushes body).length ≤ (pops body).length ∧
        (pops body).length ≤ (pushes body).length + 1 := by
  have hlength : (ItemQueue.run body).queue.reachable.length =
      (pops body).length - (pushes body).length := by
    rw [ItemQueue.reachable, List.length_reverse, List.length_map, (ItemQueue.run_balance hbody).2]
  have hsublist := sublist_unit_iff (ItemQueue.run body).queue.reachable
  have hentries := ItemQueue.foldl_cancel_nil_iff [()] (ItemQueue.run body).queue
  have hitems := ItemQueue.items_nil_iff hbody
  rw [ItemQueue.run_snoc, ItemQueue.Trace.apply_queue, ItemQueue.call, ItemQueue.Drained,
    ItemQueue.cancel_items, hitems]
  rw [List.foldl_cons, List.foldl_nil] at hentries
  rw [hentries, hsublist, hlength]
  omega

theorem connQueue_drained_iff (hrun : (machine ι μ ψ).Run Life new labels s)
    (hclosed : .acceptConn .cancel ∈ labels) : (s.lobby.queues ()).Drained ↔
      (pushes (s.lobby.calls ())).length ≤ (pops (s.lobby.calls ())).length ∧
        (pops (s.lobby.calls ())).length ≤ (pushes (s.lobby.calls ())).length + 1 := by
  obtain ⟨ls, hlobby⟩ := run_lobby hrun
  obtain ⟨-, hcalls⟩ := run_closedOnce hrun
  obtain ⟨body, hbody, heq⟩ := hcalls.after hclosed
  rw [(AcceptNet.run_recorded hlobby).queues, heq, closed_drained_iff hbody]
  simp

theorem queue_drained_iff (hrun : (machine ι μ ψ).Run Life new labels s) (order : List ℕ)
    (entry : ℕ) : ((s.destroyConns order).net.queues entry).Drained ↔
      (pushes (s.net.calls entry)).length ≤ (pops (s.net.calls entry)).length ∧
        (s.net.queues entry).reachable.Sublist order := by
  obtain ⟨ls, hnet⟩ := run_net hrun
  have hrecorded := AcceptNet.run_recorded hnet
  have hitems := ItemQueue.items_nil_iff (run_net_uncancelled hrun entry)
  rw [← hrecorded.queues] at hitems
  rw [destroyConns, AcceptNet.foldl_cancel_queue hrecorded.homed, ItemQueue.Drained,
    ItemQueue.foldl_cancel_items, ItemQueue.foldl_cancel_nil_iff, hitems]

-- After a life that ends with close() and with all clients gone, the assertions
-- of the destructors hold exactly if the accepts were balanced.
theorem shutdown_clean_iff_balanced (hrun : (machine ι μ ψ).Run Life new labels s)
    (hclosed : .acceptConn .cancel ∈ labels) (hgone : ∀ id, (history labels).current id = none)
    (order : List ℕ) : Clean (s.destroyConns order) ↔ Balanced s order := by
  have hanything : (machine ι μ ψ).Run Lib.Machine.anything new labels s :=
    hrun.weaken fun _ _ _ _ => trivial
  have hconns := conns_empty (run_tabled hanything) hgone
  have hlobby := connQueue_drained_iff hrun hclosed
  have hqueue := queue_drained_iff hrun order
  constructor
  · intro h
    obtain ⟨hclients, hacceptors⟩ := hlobby.mp h.connQueue
    refine ⟨hclients, hacceptors, ?_, ?_⟩
    · exact fun entry hentry => ((hqueue entry).mp (h.queues entry hentry)).1
    · exact fun entry hentry => ((hqueue entry).mp (h.queues entry hentry)).2
  · intro h
    refine ⟨hconns, hlobby.mpr ⟨h.clients, h.acceptors⟩, ?_⟩
    exact fun entry hentry => (hqueue entry).mpr ⟨h.requests entry hentry, h.waiters entry hentry⟩

-- One client is accepted, and its connection still waits for a request when the
-- acceptor is closed and the client leaves.
theorem waiting_connection_life :
    ∃ (labels : List (ServerLabel ℕ ℕ ℕ)) (s : Server ℕ ℕ ℕ),
      (machine ℕ ℕ ℕ).Run Life new labels s ∧ .acceptConn .cancel ∈ labels ∧
      (∀ id, (history labels).current id = none) ∧ s.entries = [5] ∧
      s.lobby.calls () = [.push 0, .asyncPop () (), .cancel ()] ∧
      s.net.calls 0 = [.asyncPop 0 0] ∧ (s.net.queues 0).reachable = [0] := by
  have hrun : (machine ℕ ℕ ℕ).Run Life new [] new := .nil
  replace hrun : (machine ℕ ℕ ℕ).Run Life new (_ ++ [.processConnect 5 0]) _ :=
    hrun.snoc List.not_mem_nil trivial rfl
  replace hrun : (machine ℕ ℕ ℕ).Run Life new (_ ++ [.acceptConn .start]) _ :=
    hrun.snoc trivial trivial rfl
  replace hrun : (machine ℕ ℕ ℕ).Run Life new (_ ++ [.acceptConn (.pop 0)]) _ :=
    hrun.snoc (show ServerLabel.acceptConn .cancel ∉ _ by simp) rfl rfl
  replace hrun : (machine ℕ ℕ ℕ).Run Life new (_ ++ [.acceptConn (.wait 0)]) _ :=
    hrun.snoc trivial rfl rfl
  replace hrun : (machine ℕ ℕ ℕ).Run Life new (_ ++ [.acceptConn (.complete 0 false)]) _ :=
    hrun.snoc trivial ⟨true, rfl, fun _ => rfl⟩ rfl
  replace hrun : (machine ℕ ℕ ℕ).Run Life new (_ ++ [.accept 0 .start]) _ :=
    hrun.snoc trivial trivial rfl
  replace hrun : (machine ℕ ℕ ℕ).Run Life new (_ ++ [.accept 0 (.pop 0)]) _ :=
    hrun.snoc trivial rfl rfl
  replace hrun : (machine ℕ ℕ ℕ).Run Life new (_ ++ [.acceptConn .cancel]) _ :=
    hrun.snoc (show ServerLabel.acceptConn .cancel ∉ _ by simp) trivial rfl
  replace hrun : (machine ℕ ℕ ℕ).Run Life new (_ ++ [.processDisconnect 5 1]) _ :=
    hrun.snoc trivial trivial rfl
  refine ⟨_, _, hrun, by simp, ?_, rfl, rfl, rfl, rfl⟩
  intro id
  clear hrun
  simp [history, History.extend, History.new]

theorem shutdown_clean_iff_balanced_waiting :
    ∃ (labels : List (ServerLabel ℕ ℕ ℕ)) (s : Server ℕ ℕ ℕ),
      (machine ℕ ℕ ℕ).Run Life new labels s ∧ .acceptConn .cancel ∈ labels ∧
      (∀ id, (history labels).current id = none) ∧ (s.net.queues 0).reachable = [0] ∧
      Clean (s.destroyConns [0]) := by
  obtain ⟨labels, s, hrun, hclosed, hgone, hentries, hlobby, hcalls, hwaits⟩ :=
    waiting_connection_life
  refine ⟨labels, s, hrun, hclosed, hgone, hwaits, ?_⟩
  refine (shutdown_clean_iff_balanced hrun hclosed hgone [0]).mpr ⟨?_, ?_, ?_, ?_⟩
  · simp [hlobby]
  · simp [hlobby]
  · simp [hentries, hcalls]
  · simp [hentries, hwaits]

-- A client connects and leaves, and nobody accepted it.
theorem unaccepted_client_fails_assertion :
    ∃ s : Server ℕ ℕ ℕ,
      (machine ℕ ℕ ℕ).Run Life new
        [.processConnect 5 0, .acceptConn .cancel, .processDisconnect 5 1] s ∧
      (∀ id, (history [(.processConnect 5 0 : ServerLabel ℕ ℕ ℕ), .acceptConn .cancel,
        .processDisconnect 5 1]).current id = none) ∧
      s.accepted = 0 ∧ (s.lobby.queues ()).items = [0] ∧ ¬Clean (s.destroyConns []) := by
  have hrun : (machine ℕ ℕ ℕ).Run Life new
      [.processConnect 5 0, .acceptConn .cancel, .processDisconnect 5 1] _ :=
    .snoc (.snoc (.snoc .nil (by simp [Life]) trivial rfl) (by simp [Life]) trivial rfl)
      trivial trivial rfl
  refine ⟨_, hrun, ?_, rfl, rfl, ?_⟩
  · intro id
    by_cases hid : id = 5 <;> simp [history, History.extend, History.new, hid]
  · intro h
    exact absurd h.connQueue.1 (by decide)

end FabricRpc.V2.Server
