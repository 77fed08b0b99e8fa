import FabricRpc.V2.AcceptNet.Labels
import FabricRpc.V2.Server.History

namespace FabricRpc.V2

variable {ι μ ψ : Type*}

-- The client that a callback of the transport is about.
def ServerLabel.client : ServerLabel ι μ ψ → Option ι
  | .processConnect clientId _ => some clientId
  | .processDisconnect clientId _ => some clientId
  | .processRequest clientId _ _ => some clientId
  | _ => none

namespace Server

variable [DecidableEq ι]

-- A disconnect or a request of a client that was connected, and was not
-- disconnected since.
def Connected (h : History ι μ ψ) : ServerLabel ι μ ψ → Prop
  | .processDisconnect clientId _ => (h.current clientId).isSome
  | .processRequest clientId _ _ => (h.current clientId).isSome
  | _ => True

-- A request was pushed to the queue of its client, and other callbacks push nothing.
def Queued (s s' : Server ι μ ψ) : ServerLabel ι μ ψ → Prop
  | .processRequest clientId message callback =>
      ∃ n, s.conns.lookup clientId = some n ∧ ItemQueue.pushes (s'.net.calls n) =
        ItemQueue.pushes (s.net.calls n) ++ [⟨clientId, message, callback, s.contexts.length⟩]
  | _ => s'.net = s.net

-- The callback returns, its request is queued, and the entries of other
-- clients are what they were.
def Survives (s : Server ι μ ψ) (clientId : ι) (label : ServerLabel ι μ ψ) : Prop :=
  ∃ s', s.exec label = .ok s' ∧ Queued s s' label ∧
    (∀ id, id ≠ clientId → s'.conns.lookup id = s.conns.lookup id) ∧
    ∀ n, s.conns.lookup clientId ≠ some n → n < s.entries.length →
      s'.net.queues n = s.net.queues n ∧ s'.entries[n]? = s.entries[n]?

variable {labels : List (ServerLabel ι μ ψ)} {s s' : Server ι μ ψ}

theorem not_survives_of_error {clientId : ι} {label : ServerLabel ι μ ψ} {fault : ServerFault}
    (herror : s.exec label = .error fault) : ¬s.Survives clientId label := by
  rintro ⟨s', hx, -⟩
  exact absurd (herror.symm.trans hx) (by simp)

section Table

-- The table has exactly the clients that are connected, whatever they do.
def Tabled (labels : List (ServerLabel ι μ ψ)) (s : Server ι μ ψ) : Prop :=
  ∀ id, (s.conns.lookup id).isSome = ((history labels).current id).isSome

theorem connect_tabled (h : Tabled labels s) (clientId : ι) (callback : ψ) :
    Tabled (labels ++ [.processConnect clientId callback])
      (s.beginProcessConnect clientId callback) := by
  intro id
  simp only [beginProcessConnect, addConn, completeImmediately, history_snoc, History.extend]
  by_cases hid : id = clientId
  · subst hid
    rw [Function.update_self]
    by_cases hold : id ∈ s.conns
    · simp only [hold, if_true, AList.lookup_isSome.mpr hold, Option.isSome_some]
    · simp only [hold, if_false, AList.lookup_insert, Option.isSome_some]
  · rw [Function.update_of_ne hid, ← h id]
    by_cases hold : clientId ∈ s.conns
    · simp only [hold, if_true]
    · simp only [hold, if_false, AList.lookup_insert_ne hid]

theorem disconnect_tabled (h : Tabled labels s) {clientId : ι} {callback : ψ}
    (hx : s.beginProcessDisconnect clientId callback = .ok s') :
    Tabled (labels ++ [.processDisconnect clientId callback]) s' := by
  obtain ⟨entry, -, rfl⟩ := disconnect_ok hx
  intro id
  simp only [completeImmediately, history_snoc, History.extend]
  by_cases hid : id = clientId
  · subst hid
    simp
  · rw [AList.lookup_erase_ne hid, Function.update_of_ne hid, h id]

theorem exec_tabled (h : Tabled labels s) {label : ServerLabel ι μ ψ}
    (hx : s.exec label = .ok s') : Tabled (labels ++ [label]) s' := by
  cases label with
  | processConnect clientId callback =>
      obtain rfl := Except.ok.inj hx
      exact connect_tabled h clientId callback
  | processDisconnect clientId callback => exact disconnect_tabled h hx
  | _ =>
      intro id
      rw [(exec_manager hx (by simp) (by simp)).2, h id, history_snoc]
      rfl

theorem run_tabled (hrun : (machine ι μ ψ).Run Lib.Machine.anything new labels s) :
    Tabled labels s := by
  apply hrun.invariant Tabled
  · exact fun _ => rfl
  · exact fun labels s label s' h _ _ hx => exec_tabled h hx

end Table

theorem connect_survives (s : Server ι μ ψ) (clientId : ι) (callback : ψ) :
    s.Survives clientId (.processConnect clientId callback) := by
  refine ⟨_, rfl, rfl, ?_, ?_⟩
  · intro id hid
    simp only [beginProcessConnect, addConn, completeImmediately]
    by_cases hold : clientId ∈ s.conns
    · simp only [hold, if_true]
    · simp only [hold, if_false, AList.lookup_insert_ne hid]
  · intro n _ hn
    refine ⟨rfl, ?_⟩
    simp only [beginProcessConnect, addConn, completeImmediately, List.getElem?_append_left hn]

theorem disconnect_survives {clientId : ι} {entry : ℕ}
    (hlookup : s.conns.lookup clientId = some entry) (callback : ψ) :
    s.Survives clientId (.processDisconnect clientId callback) :=
  ⟨_, beginProcessDisconnect_of_some hlookup callback, rfl,
    fun _ hid => AList.lookup_erase_ne hid, fun _ _ _ => ⟨rfl, rfl⟩⟩

theorem request_survives {clientId : ι} {entry : ℕ}
    (hlookup : s.conns.lookup clientId = some entry) (message : μ) (callback : ψ) :
    s.Survives clientId (.processRequest clientId message callback) := by
  refine ⟨_, beginProcessRequest_of_some hlookup message callback, ⟨entry, hlookup, ?_⟩,
    fun _ _ => rfl, ?_⟩
  · simp only [AcceptNet.push_pushes, if_true]
  · intro n hn _
    refine ⟨?_, rfl⟩
    apply AcceptNet.push_queue_ne
    rintro rfl
    exact hn hlookup

-- In every run, a callback of the transport survives exactly if its client is
-- connected. Otherwise std::map::at throws in an operation that is noexcept.
theorem callback_survives_iff_connected
    (hrun : (machine ι μ ψ).Run Lib.Machine.anything new labels s) (clientId : ι)
    (label : ServerLabel ι μ ψ) (hclient : label.client = some clientId) :
    s.Survives clientId label ↔ Connected (history labels) label := by
  have htable := run_tabled hrun clientId
  cases label with
  | processConnect id callback =>
      obtain rfl : id = clientId := Option.some.inj hclient
      exact ⟨fun _ => trivial, fun _ => connect_survives s id callback⟩
  | processDisconnect id callback =>
      obtain rfl : id = clientId := Option.some.inj hclient
      rw [Connected, ← htable]
      cases hlookup : s.conns.lookup id with
      | none =>
          have herror : s.exec (.processDisconnect id callback) = .error .outOfRange :=
            beginProcessDisconnect_of_none hlookup callback
          simpa using not_survives_of_error herror
      | some entry => simpa using disconnect_survives hlookup callback
  | processRequest id message callback =>
      obtain rfl : id = clientId := Option.some.inj hclient
      rw [Connected, ← htable]
      cases hlookup : s.conns.lookup id with
      | none =>
          have herror : s.exec (.processRequest id message callback) = .error .outOfRange :=
            beginProcessRequest_of_none hlookup message callback
          simpa using not_survives_of_error herror
      | some entry => simpa using request_survives hlookup message callback
  | acceptConn step => exact absurd hclient (by simp [ServerLabel.client])
  | accept c step => exact absurd hclient (by simp [ServerLabel.client])
  | complete req hr replyMsg => exact absurd hclient (by simp [ServerLabel.client])

theorem callback_survives_iff_connected_request :
    ∃ (labels : List (ServerLabel ℕ ℕ ℕ)) (s : Server ℕ ℕ ℕ),
      (machine ℕ ℕ ℕ).Run Lib.Machine.anything new labels s ∧
      (s.Survives 5 (.processRequest 5 70 1) ↔
        Connected (history labels) (.processRequest 5 70 1)) := by
  have hrun : (machine ℕ ℕ ℕ).Run Lib.Machine.anything new [.processConnect 5 0] _ :=
    .snoc .nil trivial trivial rfl
  exact ⟨_, _, hrun, callback_survives_iff_connected hrun 5 (.processRequest 5 70 1) rfl⟩

-- The request of a client loses the race against its disconnect, while another
-- client is connected.
theorem request_after_disconnect_terminates :
    ∃ (labels : List (ServerLabel ℕ ℕ ℕ)) (s : Server ℕ ℕ ℕ),
      labels = [.processConnect 4 0, .processConnect 5 0, .processDisconnect 5 0] ∧
      (machine ℕ ℕ ℕ).Run Lib.Machine.anything new labels s ∧
      s.exec (.processRequest 5 70 1) = .error .outOfRange ∧
      ¬s.Survives 5 (.processRequest 5 70 1) := by
  have hrun : (machine ℕ ℕ ℕ).Run Lib.Machine.anything new
      [.processConnect 4 0, .processConnect 5 0, .processDisconnect 5 0] _ :=
    .snoc (.snoc (.snoc .nil trivial trivial rfl) trivial trivial rfl) trivial trivial rfl
  exact ⟨_, _, rfl, hrun, rfl, not_survives_of_error rfl⟩

end Server

end FabricRpc.V2
