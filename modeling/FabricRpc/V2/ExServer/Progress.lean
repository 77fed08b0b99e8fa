import FabricRpc.Lib.Progress
import FabricRpc.V2.ExServer.Loops

namespace FabricRpc.V2.Serve

open Lib (Bytes lit)

variable {ι ψ κ : Type*} {σ : Type*} {Msg : σ → Type*} [DecidableEq ι] {pb : Protobuf σ Msg}
  {names : List Bytes} {s next : Serve ι ψ κ} {labels : List (ExLabel ι ψ κ)}
  {ls : List (ServerLabel ι TransportMessage ψ)} {label : ExLabel ι ψ κ}

-- The coroutines of requests that have not ended.
def running (s : Serve ι ψ κ) : ℕ := s.ex.handlers.countP fun handler => handler.ended.isNone

-- The steps until each loop reaches its next wait and each request has ended, if the
-- transport calls no more. An item that is stored then is not counted: the loop that
-- takes it takes further steps.
def remaining (s : Serve ι ψ κ) : ℕ := s.ex.server.remaining + s.running

-- The steps that serve took of its own.
def taken (labels : List (ExLabel ι ψ κ)) : ℕ := labels.countP fun label => ¬Callback label

omit [DecidableEq ι] in
theorem taken_snoc (labels : List (ExLabel ι ψ κ)) (label : ExLabel ι ψ κ) :
    taken (labels ++ [label]) = taken labels + if Callback label then 0 else 1 := by
  by_cases hlabel : Callback label <;> simp [taken, hlabel]

theorem serve_running {l : ServerLabel ι TransportMessage ψ}
    (hallow : Dependable labels s (.server l)) (hx : exec pb s (.server l) = .ok next) :
    next.running = s.running + l.hands ∧
      next.ex.handlers.length = s.ex.handlers.length + l.hands := by
  obtain ⟨ex, hserve, rfl⟩ := exec_ok hx
  obtain ⟨server, hserver, ⟨hspawned, rfl⟩ | ⟨req, hspawned, rfl⟩⟩ := ExServer.serve_ok hserve
  · have hhands : l.hands = 0 := by
      cases l with
      | accept c step =>
          cases step with
          | complete i error =>
              obtain rfl : error = false := hallow
              exact absurd hspawned (by simp [ExServer.spawned])
          | _ => rfl
      | _ => rfl
    rw [running, advance_ex, hhands]
    exact ⟨rfl, rfl⟩
  · have hhands : l.hands = 1 := by
      unfold ExServer.spawned at hspawned
      split at hspawned
      · rfl
      · exact absurd hspawned (by simp)
    rw [running, advance_ex, hhands]
    simp [running]

theorem ends_running {i : ℕ} {svcs : List (Service κ)} (henabled : s.Enabled names (.ends i svcs))
    (hx : exec pb s (.ends i svcs) = .ok next) :
    next.running + 1 = s.running ∧ next.ex.handlers.length = s.ex.handlers.length := by
  obtain ⟨⟨⟨handler, hi, hrunning⟩, -⟩, -⟩ := henabled
  obtain ⟨ex, hex, rfl⟩ := exec_ok hx
  simp only [ExServer.exec, hi] at hex
  have hhandlers := ExServer.handleRequest_handlers hex
  obtain ⟨hlt, hget⟩ := List.getElem?_eq_some_iff.mp hi
  have hpos : 0 < s.running := by
    rw [running, List.countP_pos_iff]
    exact ⟨handler, List.mem_of_getElem? hi, by simp [hrunning]⟩
  rw [advance_ex, hhandlers, List.length_set]
  refine ⟨?_, rfl⟩
  rw [running, advance_ex, hhandlers, List.countP_set hlt, hget]
  simp only [hrunning, Option.isNone_none, if_true, Option.isNone_some, Bool.false_eq_true,
    if_false]
  have hs : s.running = s.ex.handlers.countP fun handler => handler.ended.isNone := rfl
  rw [hs] at hpos ⊢
  omega

-- The account of a step.
theorem exec_account (h : Tracks labels ls s) (hallow : Dependable labels s label)
    (henabled : s.Enabled names label) (hx : exec pb s label = .ok next) :
    (if Callback label then 0 else 1) + next.remaining +
        (7 * s.ex.server.accepted + 5 * s.ex.handlers.length) =
      s.remaining + (7 * next.ex.server.accepted + 5 * next.ex.handlers.length) := by
  cases label with
  | server l =>
      obtain ⟨hrunning, hlength⟩ := serve_running hallow hx
      obtain ⟨ex, hserve, rfl⟩ := exec_ok hx
      obtain ⟨server, hserver, hcases⟩ := ExServer.serve_ok hserve
      obtain rfl : ex.server = server := by
        rcases hcases with ⟨-, rfl⟩ | ⟨req, -, rfl⟩ <;> rfl
      rw [advance_ex] at hlength
      have hstep := Server.exec_server_remaining (Server.run_isolated h.run)
        (h.contract hallow henabled) henabled.1.1 hserver
      have haccepted := Server.exec_accepted hserver
      have hown : l.own = if Callback (.server l : ExLabel ι ψ κ) then 0 else 1 := by
        cases l with
        | complete req hr reply => exact absurd rfl (henabled.1.2 req hr reply)
        | _ => simp [ServerLabel.own, Callback]
      simp only [remaining, hrunning, hlength, advance_ex, haccepted, ← hown]
      omega
  | ends i svcs =>
      obtain ⟨hrunning, hlength⟩ := ends_running henabled hx
      obtain ⟨ex, hex, rfl⟩ := exec_ok hx
      obtain ⟨⟨⟨handler, hi, -⟩, -⟩, -⟩ := henabled
      simp only [ExServer.exec, hi] at hex
      have hserver : ex.server.remaining = s.ex.server.remaining ∧
          ex.server.accepted = s.ex.server.accepted := by
        rcases handleRequest_server hex with hsame | ⟨reply, hcomplete⟩
        · rw [hsame]
          exact ⟨rfl, rfl⟩
        · obtain ⟨ctx, -, hserver⟩ := Server.complete_ok hcomplete
          rw [hserver]
          exact ⟨rfl, rfl⟩
      have hown : ¬Callback (.ends i svcs : ExLabel ι ψ κ) := id
      rw [advance_ex] at hlength
      simp only [remaining, hlength, advance_ex, hserver, if_neg hown]
      omega

-- The account of a run: three steps of the listener until it waits, seven for
-- each connection and five for each request, less what remains.
theorem run_account (hrun : (machine pb names).Run Dependable new labels s) :
    taken labels + s.remaining =
      3 + 7 * s.ex.server.accepted + 5 * s.ex.handlers.length := by
  have hinv : (taken labels + s.remaining =
      3 + 7 * s.ex.server.accepted + 5 * s.ex.handlers.length) ∧
        (∃ ls, Tracks labels ls s) ∧ ExServer.Sound pb s.ex := by
    apply hrun.invariant fun labels s => (taken labels + s.remaining =
      3 + 7 * s.ex.server.accepted + 5 * s.ex.handlers.length) ∧
        (∃ ls, Tracks labels ls s) ∧ ExServer.Sound pb s.ex
    · exact ⟨rfl, ⟨[], new_tracks⟩, ExServer.new_sound pb⟩
    · rintro labels s label next ⟨haccount, ⟨ls, h⟩, hsound⟩ hallow henabled hx
      have hstep := exec_account h hallow henabled hx
      obtain ⟨next', ls', hx', hnext, hsound'⟩ := exec_tracks h hsound hallow henabled
      obtain rfl := Except.ok.inj (hx'.symm.trans hx)
      refine ⟨?_, ⟨ls', hnext⟩, hsound'⟩
      rw [taken_snoc]
      omega
  exact hinv.1

section Bounds

variable {server : Server ι TransportMessage ψ}

-- No more connections are accepted than were made,
theorem accepted_le (h : Server.Isolated ls server) : server.accepted ≤ server.entries.length := by
  have hcreated := h.lobby.items_eq (k := ()) (c := ()) fun d => by simp [h.lobbyHome]
  rw [h.created] at hcreated
  have hcard := congrArg Multiset.card hcreated
  simp only [Multiset.coe_card, Multiset.card_add, List.length_range] at hcard
  rw [h.accepted]
  omega

-- and no more requests are handled than were posted.
theorem Tracks.handlers_le (h : Tracks labels ls s) :
    s.ex.handlers.length ≤ s.ex.server.contexts.length := by
  have hnumbered := Server.run_numbered h.run
  have hsubset : (s.ex.handlers.map fun handler => handler.req.ctx) ⊆
      List.range s.ex.server.contexts.length := by
    intro n hn
    obtain ⟨handler, hmem, rfl⟩ := List.mem_map.mp hn
    have hhanded : handler.req ∈ s.ex.server.net.handed.filterMap (·.2.item) := by
      rw [← h.handlers]
      exact List.mem_map_of_mem hmem
    obtain ⟨⟨c, completion⟩, hin, hitem⟩ := List.mem_filterMap.mp hhanded
    obtain ⟨entry, -, hposted⟩ := Server.handed_posted h.run hin hitem
    exact List.mem_range.mpr (hnumbered.lt hposted)
  have hnodup : (s.ex.handlers.map fun handler => handler.req.ctx).Nodup := by
    have hhanded := Server.handed_nodup h.run
    rw [← h.handlers, List.map_map] at hhanded
    exact hhanded
  simpa using (hnodup.subperm hsubset).length_le

theorem Tracks.entries_length (h : Tracks labels ls s) : s.ex.server.entries.length =
    (Server.history (serverLabels labels)).opened.length := by
  rw [(Server.run_isolated h.run).entries, h.same]

theorem Tracks.contexts_length (h : Tracks labels ls s) : s.ex.server.contexts.length =
    (Server.history (serverLabels labels)).posted.length := by
  have hlength := congrArg List.length (Server.run_isolated h.run).contexts
  simpa [h.same] using hlength

-- The steps of serve are bounded by what the transport has called.
theorem serve_steps_bounded (hrun : (machine pb names).Run Dependable new labels s) :
    taken labels + s.remaining = 3 + 7 * s.ex.server.accepted + 5 * s.ex.handlers.length ∧
    s.ex.server.accepted ≤ (Server.history (serverLabels labels)).opened.length ∧
    s.ex.handlers.length ≤ (Server.history (serverLabels labels)).posted.length := by
  obtain ⟨⟨ls, h⟩, -⟩ := run_tracks hrun
  refine ⟨run_account hrun, ?_, ?_⟩
  · rw [← h.entries_length]
    exact accepted_le (Server.run_isolated h.run)
  · rw [← h.contexts_length]
    exact h.handlers_le

-- One client and one request: eight steps were taken, and seven remain.
theorem serve_steps_bounded_served :
    ∃ s : Serve ℕ ℕ Unit,
      (machine stringProtobuf [lit "pkg.Foo"]).Run Dependable new (servedLabels "/pkg.Foo/M") s ∧
      taken (servedLabels "/pkg.Foo/M") = 8 ∧ s.remaining = 7 := by
  obtain ⟨s, hrun, hhandlers, haccepted, -⟩ :=
    run_served stringProtobuf [lit "pkg.Foo"] "/pkg.Foo/M"
  have htaken : taken (servedLabels "/pkg.Foo/M") = 8 := by decide
  have haccount := (serve_steps_bounded hrun).1
  rw [haccepted, hhandlers, htaken, List.length_singleton] at haccount
  exact ⟨s, hrun, htaken, by omega⟩

end Bounds

section Quiet

-- Every server connection and the acceptor wait, and nothing is stored for them.
structure Waits (s : Serve ι ψ κ) : Prop where
  lobby : (s.ex.server.lobby.ports ()).holder = none ∧ (s.ex.server.lobby.queues ()).items = []
  net : ∀ c entry, s.ex.server.net.home c = some entry →
    (s.ex.server.net.ports c).holder = none ∧ (s.ex.server.net.queues entry).items = []
  handlers : ∀ handler ∈ s.ex.handlers, handler.ended ≠ none

theorem Tracks.waits (h : Tracks labels ls s)
    (hquiet : (machine pb names).Quiet Dependable (fun label => ¬Callback label) labels s) :
    s.Waits := by
  have hiso := Server.run_isolated h.run
  have hnot (label : ServerLabel ι TransportMessage ψ)
      (hown : ¬Callback (.server label : ExLabel ι ψ κ))
      (hallow : Dependable labels s (.server label)) (hready : s.Ready (.server label))
      (hcomplete : ∀ req hr reply, label ≠ .complete req hr reply) :
      ¬s.ex.server.Enabled label := by
    intro henabled
    exact hquiet _ hown hallow ⟨⟨henabled, hcomplete⟩, hready⟩
  refine ⟨?_, ?_, ?_⟩
  · have hblocked := hiso.lobby.toSequential.blocked hiso.lobbyHome ?_
      (hnot (.acceptConn (.pop 0)) id trivial trivial (by simp))
      (hnot (.acceptConn (.wait 0)) id trivial trivial (by simp))
      (hnot (.acceptConn (.complete 0 false)) id rfl trivial (by simp))
    · exact hblocked.2
    · intro hidle
      refine hnot (.acceptConn .start) id trivial ?_ (by simp) trivial
      exact h.listener.trans (Port.phase_idle.mpr hidle)
  · intro c entry hhome
    have hblocked := hiso.net.toSequential.blocked hhome ?_
      (hnot (.accept c (.pop 0)) id trivial trivial (by simp))
      (hnot (.accept c (.wait 0)) id trivial trivial (by simp))
      (hnot (.accept c (.complete 0 false)) id rfl trivial (by simp))
    · exact hblocked.2
    · intro hidle
      refine hnot (.accept c .start) id trivial ?_ (by simp) trivial
      have hlt : c < s.handleConns.length := by
        rw [h.length, hiso.accepted]
        rw [hiso.homes] at hhome
        exact (List.getElem?_eq_some_iff.mp hhome).1
      have hphase := h.handleConns c _ (List.getElem?_eq_getElem hlt)
      change s.handleConns[c]? = some .idle
      rw [List.getElem?_eq_getElem hlt, hphase, Port.phase_idle.mpr hidle]
  · intro handler hmem hrunning
    obtain ⟨i, hi⟩ := List.mem_iff_getElem?.mp hmem
    refine hquiet
      (.ends i (names.map fun name => ⟨name, fun _ _ => ⟨[], .ok (AbslStatus.okStatus, [])⟩⟩))
      id trivial ⟨⟨⟨handler, hi, hrunning⟩, ?_⟩, trivial⟩
    rw [List.map_map]
    exact List.map_id _

-- Where everybody waits, each posted request has a coroutine that has ended.
theorem Tracks.handled (h : Tracks labels ls s) (hwaits : s.Waits)
    {req : Request ι TransportMessage ψ}
    (hreq : req ∈ (Server.history (serverLabels labels)).posted.map Prod.snd) :
    ∃ handler ∈ s.ex.handlers, handler.req = req := by
  have hiso := Server.run_isolated h.run
  have hentry : ∀ n < s.ex.server.entries.length, ∃ c, s.ex.server.net.home c = some n := by
    intro n hn
    have hcreated := hiso.lobby.items_eq (k := ()) (c := ()) fun d => by simp [hiso.lobbyHome]
    have hpending : AcceptNet.pending (s.ex.server.lobby.ports ()) = [] := by
      simp [AcceptNet.pending, hwaits.lobby.1]
    rw [hiso.created, hwaits.lobby.2, hpending] at hcreated
    have hmem : n ∈ s.ex.server.lobby.itemsHandedTo () := by
      have hall : (List.range s.ex.server.entries.length : Multiset ℕ) =
          s.ex.server.lobby.itemsHandedTo () := by simpa using hcreated
      rw [← Multiset.mem_coe, ← hall, Multiset.mem_coe]
      exact List.mem_range.mpr hn
    obtain ⟨c, hc⟩ := List.mem_iff_getElem?.mp hmem
    exact ⟨c, (hiso.homes c).trans hc⟩
  rw [← h.same, ← Multiset.mem_coe, hiso.requests_eq, Multiset.mem_add] at hreq
  rcases hreq with hstored | hheld
  · obtain ⟨n, hn, hmem⟩ := Multiset.mem_sum.mp hstored
    obtain ⟨c, hc⟩ := hentry n (Finset.mem_range.mp hn)
    rw [(hwaits.net c n hc).2] at hmem
    exact absurd hmem (by simp)
  · obtain ⟨c, hc, hmem⟩ := Multiset.mem_sum.mp hheld
    rw [Finset.mem_range, hiso.accepted] at hc
    obtain ⟨hholder, -⟩ := hwaits.net c _ ((hiso.homes c).trans (List.getElem?_eq_getElem hc))
    rw [hholder] at hmem
    have hitem : req ∈ s.ex.server.net.itemsHandedTo c := by simpa using hmem
    obtain ⟨completion, hcompletion, hsome⟩ := List.mem_filterMap.mp hitem
    obtain ⟨handed, hhanded, rfl⟩ := List.mem_map.mp hcompletion
    have hall : req ∈ s.ex.handlers.map Handler.req := by
      rw [h.handlers]
      exact List.mem_filterMap.mpr ⟨handed, List.mem_of_mem_filter hhanded, hsome⟩
    exact List.mem_map.mp hall

-- A coroutine has called services with the names that were registered.
theorem exec_registered (h : ∀ handler ∈ s.ex.handlers, ∀ svcs, handler.ended = some svcs →
      svcs.map Service.name = names) (henabled : s.Enabled names label)
    (hx : exec pb s label = .ok next) : ∀ handler ∈ next.ex.handlers, ∀ svcs,
      handler.ended = some svcs → svcs.map Service.name = names := by
  obtain ⟨ex, hex, rfl⟩ := exec_ok hx
  rw [advance_ex]
  intro handler hmem svcs hended
  cases label with
  | server l =>
      rcases ExServer.handler_of_serve hex hmem with hold | hnone
      · exact h handler hold svcs hended
      · exact absurd (hended.symm.trans hnone) (by simp)
  | ends i svcs' =>
      obtain ⟨⟨⟨other, hi, -⟩, hnames⟩, -⟩ := henabled
      simp only [ExServer.exec, hi] at hex
      rw [ExServer.handleRequest_handlers hex] at hmem
      rcases ExServer.handler_of_set hmem with hold | rfl
      · exact h handler hold svcs hended
      · obtain rfl := Option.some.inj hended
        exact hnames

theorem run_registered (hrun : (machine pb names).Run Dependable new labels s) :
    ∀ handler ∈ s.ex.handlers, ∀ svcs, handler.ended = some svcs →
      svcs.map Service.name = names := by
  apply hrun.state_invariant fun s => ∀ handler ∈ s.ex.handlers, ∀ svcs,
    handler.ended = some svcs → svcs.map Service.name = names
  · exact fun _ h => absurd h List.not_mem_nil
  · exact fun _ _ _ _ h _ henabled hx => exec_registered h henabled hx

omit [DecidableEq ι] in
theorem serverLabels_snoc (labels : List (ExLabel ι ψ κ)) (l : ServerLabel ι TransportMessage ψ) :
    serverLabels (labels ++ [.server l]) = serverLabels labels ++ [l] := by
  simp [serverLabels]

-- What the transport has called does not change by a step of serve.
theorem history_own (labels : List (ExLabel ι ψ κ)) (hown : ¬Callback label) :
    Server.history (serverLabels (labels ++ [label])) = Server.history (serverLabels labels) := by
  cases label with
  | server l =>
      rw [serverLabels_snoc, Server.history_snoc]
      cases l with
      | processConnect clientId callback => exact absurd trivial hown
      | processDisconnect clientId callback => exact absurd trivial hown
      | processRequest clientId message callback => exact absurd trivial hown
      | _ => rfl
  | ends i svcs => simp [serverLabels]

theorem history_append (labels : List (ExLabel ι ψ κ)) {more : List (ExLabel ι ψ κ)}
    (hown : ∀ label ∈ more, ¬Callback label) :
    Server.history (serverLabels (labels ++ more)) = Server.history (serverLabels labels) := by
  induction more generalizing labels with
  | nil => simp
  | cons label more ih =>
      have htail := ih (labels ++ [label]) fun other hother => hown other (by simp [hother])
      rw [List.append_assoc, List.singleton_append] at htail
      rw [htail, history_own labels (hown label (by simp))]

-- The most steps that serve takes of its own, by what the transport has called.
def bound (labels : List (ExLabel ι ψ κ)) : ℕ :=
  3 + 7 * (Server.history (serverLabels labels)).opened.length +
    5 * (Server.history (serverLabels labels)).posted.length

theorem taken_le (hrun : (machine pb names).Run Dependable new labels s) :
    taken labels ≤ bound labels := by
  obtain ⟨⟨ls, h⟩, -⟩ := run_tracks hrun
  have haccount := run_account hrun
  have haccepted := accepted_le (Server.run_isolated h.run)
  have hhandlers := h.handlers_le
  rw [h.entries_length] at haccepted
  rw [h.contexts_length] at hhandlers
  rw [bound]
  omega

-- The law of serve: by steps of its own it gets to where no step of its own is
-- left, and there each request that was posted, by clients that are connected
-- or gone, has been handled by a coroutine that has ended. It is answered
-- exactly if no service threw on it.
theorem serve_answers_every_request (hrun : (machine pb names).Run Dependable new labels s) :
    (∃ more t, (∀ label ∈ more, ¬Callback label) ∧
      (machine pb names).Run Dependable new (labels ++ more) t ∧
      (machine pb names).Quiet Dependable (fun label => ¬Callback label) (labels ++ more) t) ∧
    ((machine pb names).Quiet Dependable (fun label => ¬Callback label) labels s →
      ∀ req ∈ (Server.history (serverLabels labels)).posted.map Prod.snd,
        ∃ handler ∈ s.ex.handlers, ∃ svcs, handler.req = req ∧ handler.ended = some svcs ∧
          svcs.map Service.name = names ∧
          (s.ex.Answered pb req svcs ↔ ¬Throws pb svcs (some req.msg))) := by
  obtain ⟨⟨ls, h⟩, hsound⟩ := run_tracks hrun
  constructor
  · apply hrun.quiets (fun label => ¬Callback label) bound
    · intro labels label hown
      rw [bound, bound, history_own labels hown]
    · exact fun _ _ => taken_le
    · intro labels s label hrun _ hallow henabled
      obtain ⟨⟨ls, h⟩, hsound⟩ := run_tracks hrun
      obtain ⟨next, ls', hx, -⟩ := exec_tracks h hsound hallow henabled
      exact ⟨next, hx⟩
  · intro hquiet req hreq
    have hwaits := h.waits hquiet
    obtain ⟨handler, hmem, rfl⟩ := h.handled hwaits hreq
    obtain ⟨svcs, hended⟩ := Option.ne_none_iff_exists'.mp (hwaits.handlers handler hmem)
    exact ⟨handler, hmem, svcs, rfl, hended, run_registered hrun handler hmem svcs hended,
      hsound.answered_iff hmem hended⟩

theorem serve_answers_every_request_served :
    ∃ (labels : List (ExLabel ℕ ℕ Unit)) (s : Serve ℕ ℕ Unit),
      (machine stringProtobuf [lit "pkg.Foo"]).Run Dependable new labels s ∧
      ∃ svcs, svcs.map Service.name = [lit "pkg.Foo"] ∧
        (s.ex.Answered stringProtobuf (ExServer.handlerTo "/pkg.Foo/M" none).req svcs ↔
          ¬Throws stringProtobuf svcs (some (ExServer.messageTo "/pkg.Foo/M"))) := by
  obtain ⟨s, hrun, -⟩ := run_served stringProtobuf [lit "pkg.Foo"] "/pkg.Foo/M"
  obtain ⟨more, t, hmore, hrun', hquiet⟩ := (serve_answers_every_request hrun).1
  obtain ⟨handler, -, svcs, -, -, hnames, hanswered⟩ :=
    (serve_answers_every_request hrun').2 hquiet (ExServer.handlerTo "/pkg.Foo/M" none).req (by
      rw [history_append _ hmore]
      exact List.mem_singleton_self _)
  exact ⟨_, t, hrun', svcs, hnames, hanswered⟩

end Quiet

end FabricRpc.V2.Serve
