import FabricRpc.V2.AcceptNet.WakeUp
import FabricRpc.V2.Server.History
import Mathlib.Algebra.BigOperators.Group.Finset.Sigma

namespace FabricRpc.V2.Server

open AcceptNet (pending)

variable {ι μ ψ : Type*} [DecidableEq ι]

-- What ties a server to what the transport has reported. The n-th connect made
-- entry n, the table has the entry of each connected client, and the queue of
-- an entry was given the requests of its incarnation. Server connection c is
-- attached to the entry that the acceptor handed over as number c.
structure Isolated (labels : List (ServerLabel ι μ ψ)) (s : Server ι μ ψ) : Prop where
  proper : (history labels).Proper
  lobby : AcceptNet.Orderly .connection s.lobby
  net : AcceptNet.Orderly .request s.net
  lobbyHome : s.lobby.home () = some ()
  entries : s.entries = (history labels).opened
  table : ∀ id, s.conns.lookup id = (history labels).current id
  created : ItemQueue.pushes (s.lobby.calls ()) = List.range s.entries.length
  accepted : s.accepted = (s.lobby.itemsHandedTo ()).length
  homes : ∀ c, s.net.home c = (s.lobby.itemsHandedTo ())[c]?
  posted : ∀ n, ItemQueue.pushes (s.net.calls n) = (history labels).postedTo n
  contexts : s.contexts.map AnyContext.callback = (history labels).posted.map (·.2.callback)
  completed : ∀ n ctx, s.contexts[n]? = some ctx → ctx.isCompleted = true →
    ∃ req hr replyMsg, .complete req hr replyMsg ∈ labels ∧ req.ctx = n ∧
      req ∈ (history labels).posted.map Prod.snd

theorem new_isolated : Isolated [] (new : Server ι μ ψ) where
  proper := History.new_proper
  lobby := AcceptNet.new_orderly _ _
  net := AcceptNet.new_orderly _ _
  lobbyHome := rfl
  entries := rfl
  table := fun _ => rfl
  created := rfl
  accepted := rfl
  homes := fun _ => rfl
  posted := fun _ => rfl
  contexts := rfl
  completed := fun _ _ h => by simp [new] at h

variable {labels : List (ServerLabel ι μ ψ)} {s s' : Server ι μ ψ}

-- A label that posts nothing, connects and disconnects nobody and completes nothing.
theorem Isolated.completed_snoc (h : Isolated labels s) {label : ServerLabel ι μ ψ}
    (hlabel : (history (labels ++ [label])).posted = (history labels).posted) :
    ∀ n ctx, s.contexts[n]? = some ctx → ctx.isCompleted = true →
      ∃ req hr replyMsg, .complete req hr replyMsg ∈ labels ++ [label] ∧ req.ctx = n ∧
        req ∈ (history (labels ++ [label])).posted.map Prod.snd := by
  intro n ctx hctx hdone
  obtain ⟨req, hr, replyMsg, hm, hn, hreq⟩ := h.completed n ctx hctx hdone
  exact ⟨req, hr, replyMsg, List.mem_append_left _ hm, hn, by rwa [hlabel]⟩

section Handed

-- What a server connection was handed was posted to the entry of its queue.
theorem Isolated.handed_posted (h : Isolated labels s) {c : ℕ} {req : Request ι μ ψ}
    (hreq : req ∈ s.net.itemsHandedTo c) :
    ∃ n, s.net.home c = some n ∧ (some n, req) ∈ (history labels).posted := by
  cases hhome : s.net.home c with
  | none =>
      have hnone := h.net.unattached c hhome
      simp [AcceptNet.itemsHandedTo, hnone] at hreq
  | some n =>
      refine ⟨n, rfl, ?_⟩
      have hwritten : req ∈ s.net.writtenTo n c := by
        rw [h.net.written c n hhome]
        exact List.mem_append_left _ hreq
      obtain ⟨w, hw, rfl⟩ := List.mem_map.mp hwritten
      obtain ⟨finished, haccounts⟩ := ItemQueue.run_accounts (s.net.calls n)
      have hpushed : w.2 ∈ ItemQueue.pushes (s.net.calls n) := by
        rw [← Multiset.mem_coe, haccounts.items, Multiset.mem_add]
        exact .inr (List.mem_map_of_mem (List.mem_of_mem_filter hw))
      rw [h.posted n, History.postedTo] at hpushed
      obtain ⟨p, hp, hpw⟩ := List.mem_map.mp hpushed
      obtain ⟨hp, hpn⟩ := List.mem_filter.mp hp
      have hpn : p.1 = some n := by simpa using hpn
      rwa [← hpn, ← hpw]

omit [DecidableEq ι] in
theorem mem_itemsHandedTo {net : AcceptNet (Request ι μ ψ) ℕ ℕ}
    {h : ℕ × Completion (Request ι μ ψ)} {req : Request ι μ ψ} (hm : h ∈ net.handed)
    (hreq : h.2.item = some req) : req ∈ net.itemsHandedTo h.1 := by
  rw [AcceptNet.itemsHandedTo, List.mem_filterMap]
  exact ⟨h.2, List.mem_map.mpr ⟨h, by simpa using hm, rfl⟩, hreq⟩

-- The context of a handed request was made for it.
theorem Isolated.handed_context (h : Isolated labels s) {x : ℕ × Completion (Request ι μ ψ)}
    {req : Request ι μ ψ} (hx : x ∈ s.net.handed) (hreq : x.2.item = some req) :
    (∃ n, (history labels).posted[req.ctx]? = some (some n, req)) ∧
      ∃ ctx, s.contexts[req.ctx]? = some ctx ∧ ctx.callback = req.callback := by
  obtain ⟨n, -, hposted⟩ := h.handed_posted (mem_itemsHandedTo hx hreq)
  have hget := h.proper.posted_ctx hposted
  have hcallback : (s.contexts.map AnyContext.callback)[req.ctx]? = some req.callback := by
    rw [h.contexts, List.getElem?_map, hget]
    rfl
  rw [List.getElem?_map, Option.map_eq_some_iff] at hcallback
  exact ⟨⟨n, hget⟩, hcallback⟩

end Handed

section Steps

theorem processConnect_isolated (h : Isolated labels s) {clientId : ι} (callback : ψ)
    (hallow : (history labels).current clientId = none) :
    Isolated (labels ++ [.processConnect clientId callback])
      (s.beginProcessConnect clientId callback) := by
  have hnew : clientId ∉ s.conns := by
    rw [← AList.lookup_eq_none, h.table, hallow]
  have hlobby := AcceptNet.push_orderly h.lobby () s.entries.length
  have hhanded := AcceptNet.push_handed s.lobby () s.entries.length
  have hhome := AcceptNet.push_home s.lobby () s.entries.length
  have hpushes := AcceptNet.push_pushes s.lobby () s.entries.length ()
  have hitems : (s.lobby.push () s.entries.length).itemsHandedTo () = s.lobby.itemsHandedTo () := by
    simp only [AcceptNet.itemsHandedTo, AcceptNet.handedTo, hhanded]
  refine ⟨?_, hlobby, h.net, ?_, ?_, ?_, ?_, ?_, ?_, ?_, ?_, ?_⟩
  · rw [history_snoc]
    exact History.extend_proper h.proper rfl (s := s) hallow
  · simpa [hhome, beginProcessConnect, addConn, completeImmediately] using h.lobbyHome
  · simp [beginProcessConnect, addConn, completeImmediately, h.entries, History.extend]
  · intro id
    simp only [beginProcessConnect, addConn, completeImmediately, hnew, if_false, history_snoc,
      History.extend]
    by_cases hid : id = clientId
    · subst hid
      simp [h.entries]
    · rw [AList.lookup_insert_ne hid, Function.update_of_ne hid, h.table]
  · simp [beginProcessConnect, addConn, completeImmediately, hpushes, h.created, List.range_succ]
  · simp only [beginProcessConnect, addConn, completeImmediately, hitems]
    exact h.accepted
  · simp only [beginProcessConnect, addConn, completeImmediately, hitems]
    exact h.homes
  · simpa [beginProcessConnect, addConn, completeImmediately, History.postedTo,
      History.extend] using h.posted
  · simpa [beginProcessConnect, addConn, completeImmediately, History.extend] using h.contexts
  · exact h.completed_snoc (by simp [History.extend])

theorem processDisconnect_isolated (h : Isolated labels s) {clientId : ι} (callback : ψ)
    (hallow : ((history labels).current clientId).isSome) :
    ∃ s', s.beginProcessDisconnect clientId callback = .ok s' ∧
      Isolated (labels ++ [.processDisconnect clientId callback]) s' := by
  obtain ⟨n, hn⟩ := Option.isSome_iff_exists.mp hallow
  have hlookup : s.conns.lookup clientId = some n := by rw [h.table, hn]
  refine ⟨_, beginProcessDisconnect_of_some hlookup callback, ?_⟩
  refine ⟨?_, h.lobby, h.net, h.lobbyHome, ?_, ?_, h.created, h.accepted, h.homes, ?_, ?_, ?_⟩
  · rw [history_snoc]
    exact History.extend_proper h.proper rfl (s := s) hallow
  · simpa [completeImmediately, History.extend] using h.entries
  · intro id
    simp only [completeImmediately, history_snoc, History.extend]
    by_cases hid : id = clientId
    · subst hid
      simp
    · rw [AList.lookup_erase_ne hid, Function.update_of_ne hid, h.table]
  · simpa [completeImmediately, History.postedTo, History.extend] using h.posted
  · simpa [completeImmediately, History.extend] using h.contexts
  · exact h.completed_snoc (by simp [History.extend])

theorem processRequest_isolated (h : Isolated labels s) {clientId : ι} (message : μ)
    (callback : ψ) (hallow : ((history labels).current clientId).isSome) :
    ∃ s', s.beginProcessRequest clientId message callback = .ok s' ∧
      Isolated (labels ++ [.processRequest clientId message callback]) s' := by
  obtain ⟨n, hn⟩ := Option.isSome_iff_exists.mp hallow
  have hlookup : s.conns.lookup clientId = some n := by rw [h.table, hn]
  have hlength : s.contexts.length = (history labels).posted.length := by
    simpa using congrArg List.length h.contexts
  have hnet := AcceptNet.push_orderly h.net n ⟨clientId, message, callback, s.contexts.length⟩
  refine ⟨_, beginProcessRequest_of_some hlookup message callback, ?_⟩
  refine ⟨?_, h.lobby, hnet, h.lobbyHome, ?_, ?_, h.created, h.accepted, ?_, ?_, ?_, ?_⟩
  · rw [history_snoc]
    exact History.extend_proper h.proper rfl (s := s) hallow
  · simpa [History.extend] using h.entries
  · simpa [History.extend] using h.table
  · simpa only [AcceptNet.push_home] using h.homes
  · intro k
    rw [AcceptNet.push_pushes, h.posted k]
    by_cases hk : n = k <;> simp [hk, History.postedTo, History.extend, hn, hlength]
  · simp [History.extend, h.contexts, AnyContext.new]
  · intro m ctx hctx hdone
    have hold : s.contexts[m]? = some ctx := by
      rw [List.getElem?_append] at hctx
      split at hctx
      · exact hctx
      · rw [List.getElem?_singleton] at hctx
        split at hctx
        · rw [← Option.some.inj hctx] at hdone
          simp [AnyContext.new] at hdone
        · simp at hctx
    obtain ⟨req, hr, replyMsg, hm, hmn, hreq⟩ := h.completed m ctx hold hdone
    exact ⟨req, hr, replyMsg, List.mem_append_left _ hm, hmn, by simp [History.extend, hreq]⟩

-- A step of an accept that hands nothing over.
theorem acceptConn_isolated (h : Isolated labels s) {step : AcceptStep}
    (hstep : ∀ i error, step ≠ .complete i error)
    (hallow : AcceptNet.OneAtATime [] s.lobby (step.label ()))
    (henabled : s.lobby.Enabled (step.label ())) :
    ∃ s', s.acceptConn step = .ok s' ∧ Isolated (labels ++ [.acceptConn step]) s' := by
  obtain ⟨lobby, hx, hlobby⟩ := AcceptNet.exec_orderly h.lobby hallow henabled
  have hhanded := AcceptNet.exec_handed hx (by cases step <;> simp_all [AcceptStep.label])
  have hhome := AcceptNet.exec_home hx (by cases step <;> simp [AcceptStep.label])
  have hpushes := AcceptNet.exec_pushes hx ()
  have hnone : AcceptNet.pushedTo () [(step.label () : AcceptLabel ℕ Unit Unit)] = [] := by
    cases step <;> rfl
  have hitems : lobby.itemsHandedTo () = s.lobby.itemsHandedTo () := by
    simp only [AcceptNet.itemsHandedTo, AcceptNet.handedTo, hhanded]
  have hexec : s.acceptConn step = .ok { s with lobby := lobby } := by
    cases step with
    | complete i error => exact absurd rfl (hstep i error)
    | start => simp only [acceptConn, hx]
    | pop i => simp only [acceptConn, hx]
    | wait i => simp only [acceptConn, hx]
    | cancel => simp only [acceptConn, hx]
  refine ⟨_, hexec, ?_⟩
  have hhistory : history (labels ++ [.acceptConn step]) = history labels := by
    simp [History.extend]
  refine ⟨by rw [hhistory]; exact h.proper, hlobby, h.net, ?_, ?_, ?_, ?_, ?_, ?_, ?_, ?_, ?_⟩
  · simpa only [hhome] using h.lobbyHome
  · simpa only [hhistory] using h.entries
  · simpa only [hhistory] using h.table
  · simp only [hpushes, hnone, List.append_nil]
    exact h.created
  · simpa only [hitems] using h.accepted
  · simpa only [hitems] using h.homes
  · simpa only [hhistory] using h.posted
  · simpa only [hhistory] using h.contexts
  · exact h.completed_snoc (by rw [hhistory])

-- The acceptor hands an entry over, and a new connection is attached to it.
theorem completeConn_isolated (h : Isolated labels s) {i : ℕ}
    (hi : (s.lobby.ports ()).accepts[i]? = some (.waiting true)) :
    ∃ s', s.acceptConn (.complete i false) = .ok s' ∧
      Isolated (labels ++ [.acceptConn (.complete i false)]) s' := by
  obtain ⟨lobby, entry, hholder, hx, -, -, -, hhome, hcalls, hhanded⟩ :=
    AcceptNet.complete_cases h.lobby.toSequential hi
  have hallow : AcceptNet.OneAtATime [] s.lobby (.complete () i false) := rfl
  obtain ⟨lobby', hx', hlobby⟩ := AcceptNet.exec_orderly h.lobby hallow ⟨true, hi, fun _ => rfl⟩
  obtain rfl : lobby' = lobby := Except.ok.inj (hx'.symm.trans hx)
  have hitems : lobby'.itemsHandedTo () = s.lobby.itemsHandedTo () ++ [entry] := by
    simp [AcceptNet.itemsHandedTo, AcceptNet.handedTo, hhanded]
  have hfree : s.net.home s.accepted = none := by
    rw [h.homes, h.accepted]
    simp
  obtain ⟨net, hset, hnet, hnetEq⟩ := AcceptNet.setQueue_orderly h.net entry hfree
  have hexec : s.acceptConn (.complete i false) =
      .ok { s with lobby := lobby', net := net, accepted := s.accepted + 1 } := by
    simp only [acceptConn, completeConn, hx, hholder, hset]
  refine ⟨_, hexec, ?_⟩
  have hhistory : history (labels ++ [.acceptConn (.complete i false)]) = history labels := by
    simp [History.extend]
  refine ⟨by rw [hhistory]; exact h.proper, hlobby, hnet, ?_, ?_, ?_, ?_, ?_, ?_, ?_, ?_, ?_⟩
  · simpa only [hhome] using h.lobbyHome
  · simpa only [hhistory] using h.entries
  · simpa only [hhistory] using h.table
  · simp only [hcalls]
    exact h.created
  · simp [hitems, h.accepted]
  · intro c
    rw [hnetEq, hitems]
    by_cases hc : c = s.accepted
    · subst hc
      rw [h.accepted]
      simp
    · have hne : (s.lobby.itemsHandedTo ()).length ≠ c := by
        rw [← h.accepted]
        exact fun heq => hc heq.symm
      simp only [Function.update_of_ne hc, h.homes]
      by_cases hlt : c < (s.lobby.itemsHandedTo ()).length
      · rw [List.getElem?_append_left hlt]
      · rw [List.getElem?_eq_none (by omega), List.getElem?_eq_none (by simp; omega)]
  · intro n
    rw [hhistory, hnetEq]
    exact h.posted n
  · simpa only [hhistory] using h.contexts
  · exact h.completed_snoc (by rw [hhistory])

theorem accept_isolated (h : Isolated labels s) {c : ℕ} {step : AcceptStep}
    (hallow : AcceptNet.OneAtATime [] s.net (step.label c))
    (henabled : s.net.Enabled (step.label c)) :
    ∃ s', s.accept c step = .ok s' ∧ Isolated (labels ++ [.accept c step]) s' := by
  obtain ⟨net, hx, hnet⟩ := AcceptNet.exec_orderly h.net hallow henabled
  have hhome := AcceptNet.exec_home hx (by cases step <;> simp [AcceptStep.label])
  have hpushes := AcceptNet.exec_pushes hx
  have hnone (n : ℕ) :
      AcceptNet.pushedTo n [(step.label c : AcceptLabel (Request ι μ ψ) ℕ ℕ)] = [] := by
    cases step <;> rfl
  have hhistory : history (labels ++ [.accept c step]) = history labels := by
    simp [History.extend]
  refine ⟨{ s with net := net }, by simp only [accept, hx], ?_⟩
  refine ⟨by rw [hhistory]; exact h.proper, h.lobby, hnet, h.lobbyHome, ?_, ?_, h.created,
    h.accepted, ?_, ?_, ?_, ?_⟩
  · simpa only [hhistory] using h.entries
  · simpa only [hhistory] using h.table
  · simpa only [hhome] using h.homes
  · intro n
    rw [hpushes n, hnone n, List.append_nil, hhistory, h.posted n]
  · simpa only [hhistory] using h.contexts
  · exact h.completed_snoc (by rw [hhistory])

-- Completing a request fires its own callback with its own context, unless
-- the request was completed before.
theorem complete_isolated (h : Isolated labels s) {x : ℕ × Completion (Request ι μ ψ)}
    {req : Request ι μ ψ} (hx : x ∈ s.net.handed) (hreq : x.2.item = some req) {hr : Int32}
    {replyMsg : Option μ} (hreply : hr = sOk → replyMsg.isSome) :
    ∃ s' ctx, s.complete req hr replyMsg = .ok s' ∧
      Isolated (labels ++ [.complete req hr replyMsg]) s' ∧
      s.contexts[req.ctx]? = some ctx ∧
      s'.contexts[req.ctx]? = some ⟨req.callback, some ⟨hr, replyMsg⟩, true⟩ ∧
      s'.fired = s.fired ++
        if ctx.isCompleted then [] else [(req.callback, .request req.ctx)] := by
  obtain ⟨⟨n, hposted⟩, ctx, hctx, hcallback⟩ := h.handed_context hx hreq
  have hlt : req.ctx < s.contexts.length := (List.getElem?_eq_some_iff.mp hctx).1
  have hltMap : req.ctx < (s.contexts.map AnyContext.callback).length := by simpa using hlt
  have hchecked : ¬(hr = sOk ∧ replyMsg.isNone) := by
    rintro ⟨hok, hnone⟩
    simpa [Option.isNone_iff_eq_none.mp hnone] using hreply hok
  have hcompleted : ((ctx.setContent ⟨hr, replyMsg⟩).complete).1 =
      ⟨req.callback, some ⟨hr, replyMsg⟩, true⟩ := by
    by_cases hdone : ctx.isCompleted = true
    · simp [AnyContext.complete, AnyContext.setContent, hdone, hcallback]
    · simp [AnyContext.complete, AnyContext.setContent, hdone, hcallback]
  have hinvoked : ((ctx.setContent ⟨hr, replyMsg⟩).complete).2.toList =
      if ctx.isCompleted then [] else [req.callback] := by
    by_cases hdone : ctx.isCompleted = true
    · simp [AnyContext.complete, AnyContext.setContent, hdone]
    · simp [AnyContext.complete, AnyContext.setContent, hdone, hcallback]
  have hhistory : history (labels ++ [.complete req hr replyMsg]) = history labels := by
    simp [History.extend]
  refine ⟨_, ctx, by simp only [complete, hchecked, if_false, hctx, hcompleted, hinvoked]; rfl,
    ?_, hctx, by simp [hlt], ?_⟩
  · refine ⟨by rw [hhistory]; exact h.proper, h.lobby, h.net, h.lobbyHome, ?_, ?_, h.created,
      h.accepted, h.homes, ?_, ?_, ?_⟩
    · simpa only [hhistory] using h.entries
    · simpa only [hhistory] using h.table
    · simpa only [hhistory] using h.posted
    · have hself : (s.contexts.map AnyContext.callback)[req.ctx] = req.callback := by
        rw [List.getElem_map, ← hcallback, (List.getElem?_eq_some_iff.mp hctx).2]
      simp only [hhistory, ← h.contexts, List.map_set]
      rw [← hself, List.set_getElem_self]
    · intro m other hm hdone
      by_cases hmn : req.ctx = m
      · exact ⟨req, hr, replyMsg, by simp, hmn, by
          rw [hhistory]; exact List.mem_map_of_mem (List.mem_of_getElem? hposted)⟩
      · simp only [List.getElem?_set_ne hmn] at hm
        exact h.completed_snoc (by rw [hhistory]) m other hm hdone
  · by_cases hdone : ctx.isCompleted = true <;> simp [hdone]

-- What the contract allows is executed, but for a completion that claims
-- success without a reply.
theorem exec_isolated (h : Isolated labels s) {label : ServerLabel ι μ ψ}
    (hallow : Contract labels s label) (henabled : s.Enabled label) :
    (∃ s', s.exec label = .ok s' ∧ Isolated (labels ++ [label]) s') ∨
      ∃ req, label = .complete req sOk none ∧ s.exec label = .error .replyMissing := by
  cases label with
  | processConnect clientId callback =>
      exact .inl ⟨_, rfl, processConnect_isolated h callback hallow⟩
  | processDisconnect clientId callback =>
      exact .inl (processDisconnect_isolated h callback hallow)
  | processRequest clientId message callback =>
      exact .inl (processRequest_isolated h message callback hallow)
  | acceptConn step =>
      by_cases hcomplete : ∃ i error, step = .complete i error
      · obtain ⟨i, error, rfl⟩ := hcomplete
        obtain ⟨fired, hi, hfired⟩ := henabled
        obtain rfl : error = false := hallow
        rw [hfired rfl] at hi
        exact .inl (completeConn_isolated h hi)
      · exact .inl (acceptConn_isolated h (fun i error heq => hcomplete ⟨i, error, heq⟩) hallow
          henabled)
  | accept c step => exact .inl (accept_isolated h hallow henabled)
  | complete req hr replyMsg =>
      obtain ⟨x, hx, hreq⟩ := henabled
      by_cases hmissing : hr = sOk ∧ replyMsg.isNone
      · obtain ⟨rfl, hnone⟩ := hmissing
        obtain rfl := Option.isNone_iff_eq_none.mp hnone
        exact .inr ⟨req, rfl, by simp [exec, complete]⟩
      · have hreply : hr = sOk → replyMsg.isSome := by
          intro hok
          by_contra hnone
          exact hmissing ⟨hok, by simpa using hnone⟩
        obtain ⟨s', ctx, hx, hnext, -⟩ := complete_isolated h hx hreq hreply
        exact .inl ⟨s', hx, hnext⟩

theorem run_isolated (hrun : (machine ι μ ψ).Run Contract new labels s) : Isolated labels s := by
  apply hrun.invariant Isolated new_isolated
  intro labels s label s' h hallow henabled hx
  rcases exec_isolated h hallow henabled with ⟨next, hnext, hiso⟩ | ⟨req, -, herror⟩
  · obtain rfl : next = s' := Except.ok.inj (hnext.symm.trans hx)
    exact hiso
  · exact absurd (herror.symm.trans hx) (by simp)

end Steps

section Conservation

-- What was written from the queues is what the server connections hold or have
-- handed over.
theorem Isolated.written_eq (h : Isolated labels s) :
    ∑ n ∈ Finset.range s.entries.length,
        ((ItemQueue.run (s.net.calls n)).written.map Prod.snd : Multiset (Request ι μ ψ)) =
      ∑ c ∈ Finset.range s.accepted,
        ((s.net.itemsHandedTo c : Multiset (Request ι μ ψ)) + (s.net.ports c).holder.toList) := by
  have hsplit (n : ℕ) :
      ((ItemQueue.run (s.net.calls n)).written.map Prod.snd : Multiset (Request ι μ ψ)) =
        ∑ c ∈ Finset.range s.accepted, (s.net.writtenTo n c : Multiset (Request ι μ ψ)) := by
    apply coe_map_eq_sum_filter Prod.fst Prod.snd
    intro w hw
    have hhome := h.net.homes n w hw
    rw [h.homes] at hhome
    rw [Finset.mem_range, h.accepted]
    exact (List.getElem?_eq_some_iff.mp hhome).1
  simp only [hsplit]
  rw [Finset.sum_comm]
  apply Finset.sum_congr rfl
  intro c hc
  rw [Finset.mem_range, h.accepted] at hc
  have hhome : s.net.home c = some (s.lobby.itemsHandedTo ())[c] := by
    rw [h.homes, List.getElem?_eq_getElem hc]
  have hentry : (s.lobby.itemsHandedTo ())[c] ∈ Finset.range s.entries.length := by
    have hcreated := h.lobby.items_eq (k := ()) (c := ()) (fun d => by simp [h.lobbyHome])
    rw [h.created] at hcreated
    rw [Finset.mem_range, ← List.mem_range, ← Multiset.mem_coe, hcreated, Multiset.mem_add]
    exact .inr (Multiset.mem_coe.mpr (List.getElem_mem hc))
  rw [Finset.sum_eq_single_of_mem _ hentry, h.net.written c _ hhome, h.net.pending_eq c,
    Multiset.coe_add]
  intro n _ hn
  rw [Multiset.coe_eq_zero, AcceptNet.writtenTo, List.map_eq_nil_iff, List.filter_eq_nil_iff]
  intro w hw hwc
  have hwc : w.1 = c := by simpa using hwc
  have hother := h.net.homes n w hw
  rw [hwc, hhome] at hother
  exact hn (Option.some.inj hother).symm

-- Every request is stored in a queue, held for an accept or handed over.
theorem Isolated.requests_eq (h : Isolated labels s) :
    ((history labels).posted.map Prod.snd : Multiset (Request ι μ ψ)) =
      ∑ n ∈ Finset.range s.entries.length, ((s.net.queues n).items : Multiset (Request ι μ ψ)) +
      ∑ c ∈ Finset.range s.accepted,
        ((s.net.itemsHandedTo c : Multiset (Request ι μ ψ)) + (s.net.ports c).holder.toList) := by
  have hsplit := coe_map_eq_sum_filter Prod.fst Prod.snd
    ((Finset.range s.entries.length).image some) (history labels).posted ?_
  · rw [hsplit, Finset.sum_image (fun _ _ _ _ heq => Option.some.inj heq), ← h.written_eq,
      ← Finset.sum_add_distrib]
    apply Finset.sum_congr rfl
    intro n _
    obtain ⟨finished, haccounts⟩ := ItemQueue.run_accounts (s.net.calls n)
    rw [h.net.queues n, ← haccounts.items, h.posted n, History.postedTo]
  · intro p hp
    obtain ⟨n, hn, hid⟩ := h.proper.posted p hp
    rw [hn, Finset.mem_image]
    refine ⟨n, ?_, rfl⟩
    rw [Finset.mem_range, h.entries]
    exact (List.getElem?_eq_some_iff.mp hid).1

end Conservation

-- The law of the server, under a transport that keeps its contract and loops
-- that run one accept at a time. No lookup fails. The queue of entry n is given
-- the requests that arrive while the n-th connect is its client's last, and no
-- others. Every request is in one place. A connection is handed requests of its
-- own client, and completing one fires the callback it came with.
theorem server_isolates_requests (hrun : (machine ι μ ψ).Run Contract new labels s) :
    (∀ label, Contract labels s label → s.Enabled label →
      (∃ s', s.exec label = .ok s') ∨ ∃ req, label = .complete req sOk none) ∧
    s.entries = (history labels).opened ∧
    (∀ n, ItemQueue.pushes (s.net.calls n) = (history labels).postedTo n) ∧
    (∀ p ∈ (history labels).posted, ∃ n, p.1 = some n ∧ s.entries[n]? = some p.2.connId) ∧
    ((history labels).posted.map Prod.snd).Nodup ∧
    ((history labels).posted.map Prod.snd : Multiset (Request ι μ ψ)) =
      ∑ n ∈ Finset.range s.entries.length, ((s.net.queues n).items : Multiset (Request ι μ ψ)) +
      ∑ c ∈ Finset.range s.accepted,
        ((s.net.itemsHandedTo c : Multiset (Request ι μ ψ)) + (s.net.ports c).holder.toList) ∧
    (∀ c, ∀ req ∈ s.net.itemsHandedTo c, ∃ n, s.net.home c = some n ∧
      (some n, req) ∈ (history labels).posted) ∧
    ∀ h ∈ s.net.handed, ∀ req, h.2.item = some req →
      (∃ n, (history labels).posted[req.ctx]? = some (some n, req)) ∧
      ∀ hr replyMsg, (hr = sOk → replyMsg.isSome) →
        ∃ s', s.exec (.complete req hr replyMsg) = .ok s' ∧
          s'.contexts[req.ctx]? = some ⟨req.callback, some ⟨hr, replyMsg⟩, true⟩ ∧
          ((∀ hr' replyMsg', .complete req hr' replyMsg' ∉ labels) →
            s'.fired = s.fired ++ [(req.callback, .request req.ctx)]) := by
  have h := run_isolated hrun
  refine ⟨?_, h.entries, h.posted, ?_, h.proper.nodup, h.requests_eq,
    fun c req => h.handed_posted, ?_⟩
  · intro label hallow henabled
    rcases exec_isolated h hallow henabled with ⟨s', hx, -⟩ | ⟨req, hlabel, -⟩
    · exact .inl ⟨s', hx⟩
    · exact .inr ⟨req, hlabel⟩
  · rw [h.entries]
    exact h.proper.posted
  · intro x hx req hreq
    obtain ⟨⟨n, hposted⟩, -⟩ := h.handed_context hx hreq
    refine ⟨⟨n, hposted⟩, ?_⟩
    intro hr replyMsg hreply
    obtain ⟨s', ctx, hexec, -, hctx, hctx', hfired⟩ := complete_isolated h hx hreq hreply
    refine ⟨s', hexec, hctx', ?_⟩
    intro hfirst
    have hdone : ctx.isCompleted = false := by
      by_contra hdone
      obtain ⟨other, hr', replyMsg', hm, hother, hmem⟩ :=
        h.completed req.ctx ctx hctx (by simpa using hdone)
      obtain ⟨p, hp, rfl⟩ := List.mem_map.mp hmem
      have hget := h.proper.posted_ctx hp
      rw [hother, hposted] at hget
      obtain rfl := Option.some.inj hget
      exact hfirst hr' replyMsg' hm
    simpa [hdone] using hfired

-- A client id is used again. Its requests stay apart, and the accept on the
-- second incarnation is handed the second one.
theorem server_isolates_requests_reused_id :
    ∃ (labels : List (ServerLabel ℕ ℕ ℕ)) (s : Server ℕ ℕ ℕ),
      (machine ℕ ℕ ℕ).Run Contract new labels s ∧
      s.entries = [5, 5] ∧ (s.net.queues 0).items = [⟨5, 70, 1, 0⟩] ∧
      s.net.itemsHandedTo 0 = [⟨5, 71, 2, 1⟩] ∧
      (∀ n, ItemQueue.pushes (s.net.calls n) = (history labels).postedTo n) ∧
      ∃ s', s.exec (.complete ⟨5, 71, 2, 1⟩ sOk (some 9)) = .ok s' ∧
        s'.fired = s.fired ++ [(2, .request 1)] := by
  have hrun : (machine ℕ ℕ ℕ).Run Contract new [] new := .nil
  replace hrun : (machine ℕ ℕ ℕ).Run Contract new (_ ++ [.processConnect 5 0]) _ :=
    hrun.snoc rfl trivial rfl
  replace hrun : (machine ℕ ℕ ℕ).Run Contract new (_ ++ [.processRequest 5 70 1]) _ :=
    hrun.snoc rfl trivial rfl
  replace hrun : (machine ℕ ℕ ℕ).Run Contract new (_ ++ [.processDisconnect 5 0]) _ :=
    hrun.snoc rfl trivial rfl
  replace hrun : (machine ℕ ℕ ℕ).Run Contract new (_ ++ [.processConnect 5 0]) _ :=
    hrun.snoc rfl trivial rfl
  replace hrun : (machine ℕ ℕ ℕ).Run Contract new (_ ++ [.processRequest 5 71 2]) _ :=
    hrun.snoc rfl trivial rfl
  replace hrun : (machine ℕ ℕ ℕ).Run Contract new (_ ++ [.acceptConn .start]) _ :=
    hrun.snoc ⟨rfl, rfl⟩ trivial rfl
  replace hrun : (machine ℕ ℕ ℕ).Run Contract new (_ ++ [.acceptConn (.pop 0)]) _ :=
    hrun.snoc trivial rfl rfl
  replace hrun : (machine ℕ ℕ ℕ).Run Contract new (_ ++ [.acceptConn (.wait 0)]) _ :=
    hrun.snoc trivial rfl rfl
  replace hrun : (machine ℕ ℕ ℕ).Run Contract new (_ ++ [.acceptConn (.complete 0 false)]) _ :=
    hrun.snoc rfl ⟨true, rfl, fun _ => rfl⟩ rfl
  replace hrun : (machine ℕ ℕ ℕ).Run Contract new (_ ++ [.accept 0 .start]) _ :=
    hrun.snoc ⟨rfl, rfl⟩ trivial rfl
  replace hrun : (machine ℕ ℕ ℕ).Run Contract new (_ ++ [.accept 0 (.pop 0)]) _ :=
    hrun.snoc trivial rfl rfl
  replace hrun : (machine ℕ ℕ ℕ).Run Contract new (_ ++ [.accept 0 (.wait 0)]) _ :=
    hrun.snoc trivial rfl rfl
  replace hrun : (machine ℕ ℕ ℕ).Run Contract new (_ ++ [.accept 0 (.complete 0 false)]) _ :=
    hrun.snoc rfl ⟨true, rfl, fun _ => rfl⟩ rfl
  have h := server_isolates_requests hrun
  obtain ⟨s', hx, -, hfired⟩ := (h.2.2.2.2.2.2.2 (0, ⟨false, some ⟨5, 71, 2, 1⟩⟩) (by decide)
    ⟨5, 71, 2, 1⟩ rfl).2 sOk (some 9) (fun _ => rfl)
  exact ⟨_, _, hrun, rfl, rfl, rfl, h.2.2.1, s', hx, hfired (by simp)⟩

end FabricRpc.V2.Server
