import FabricRpc.V2.AcceptNet.Once
import FabricRpc.V2.Server.Steps

namespace FabricRpc.V2.Server

open ItemQueue (pushes)

variable {ι μ ψ : Type*} [DecidableEq ι] {s s' : Server ι μ ψ} {label : ServerLabel ι μ ψ}

-- In every run a request is found again by the number of its context: that
-- context has the callback of the request, and no other request has its number,
-- on whichever queue.
structure Numbered (s : Server ι μ ψ) : Prop where
  posted : ∀ entry, ∀ req ∈ pushes (s.net.calls entry),
    ∃ ctx, s.contexts[req.ctx]? = some ctx ∧ ctx.callback = req.callback
  nodup : ∀ entry, ((pushes (s.net.calls entry)).map Request.ctx).Nodup
  apart : ∀ entry other, ∀ req ∈ pushes (s.net.calls entry), ∀ req' ∈ pushes (s.net.calls other),
    req.ctx = req'.ctx → entry = other

omit [DecidableEq ι] in
theorem Numbered.lt (h : Numbered s) {entry : ℕ} {req : Request ι μ ψ}
    (hreq : req ∈ pushes (s.net.calls entry)) : req.ctx < s.contexts.length := by
  obtain ⟨ctx, hctx, -⟩ := h.posted entry req hreq
  exact (List.getElem?_eq_some_iff.mp hctx).1

omit [DecidableEq ι] in
theorem Numbered.keep (h : Numbered s)
    (hpushes : ∀ entry, pushes (s'.net.calls entry) = pushes (s.net.calls entry))
    (hcontexts : ∀ (n : ℕ) (ctx : AnyContext ψ (ContextContent μ)), s.contexts[n]? = some ctx →
      ∃ ctx', s'.contexts[n]? = some ctx' ∧ ctx'.callback = ctx.callback) : Numbered s' where
  posted := by
    intro entry req hreq
    rw [hpushes] at hreq
    obtain ⟨ctx, hctx, hcallback⟩ := h.posted entry req hreq
    obtain ⟨ctx', hctx', hsame⟩ := hcontexts req.ctx ctx hctx
    exact ⟨ctx', hctx', hsame.trans hcallback⟩
  nodup := by
    intro entry
    rw [hpushes]
    exact h.nodup entry
  apart := by
    intro entry other req hreq req' hreq'
    rw [hpushes] at hreq hreq'
    exact h.apart entry other req hreq req' hreq'

-- A new request gets the number after all others.
theorem request_numbered (h : Numbered s) {clientId : ι} {message : μ} {callback : ψ}
    (hx : s.beginProcessRequest clientId message callback = .ok s') : Numbered s' := by
  obtain ⟨target, -, rfl⟩ := request_ok hx
  have hmem {entry : ℕ} {req : Request ι μ ψ}
      (hreq : req ∈ pushes ((s.net.push target
        ⟨clientId, message, callback, s.contexts.length⟩).calls entry)) :
      req ∈ pushes (s.net.calls entry) ∨
        entry = target ∧ req = ⟨clientId, message, callback, s.contexts.length⟩ := by
    rw [AcceptNet.push_pushes, List.mem_append] at hreq
    rcases hreq with hreq | hreq
    · exact .inl hreq
    · split at hreq
      · rename_i htarget
        exact .inr ⟨htarget.symm, List.mem_singleton.mp hreq⟩
      · exact absurd hreq List.not_mem_nil
  refine ⟨?_, ?_, ?_⟩
  · intro entry req hreq
    rcases hmem hreq with hold | ⟨-, rfl⟩
    · obtain ⟨ctx, hctx, hcallback⟩ := h.posted entry req hold
      exact ⟨ctx, by rw [List.getElem?_append_left (h.lt hold), hctx], hcallback⟩
    · exact ⟨.new callback, by simp, rfl⟩
  · intro entry
    rw [AcceptNet.push_pushes]
    split
    · rw [List.map_append, List.nodup_append]
      refine ⟨h.nodup entry, by simp, ?_⟩
      intro n hn m hm
      obtain ⟨req, hreq, rfl⟩ := List.mem_map.mp hn
      have hlt := h.lt hreq
      simp only [List.map_cons, List.map_nil, List.mem_singleton] at hm
      omega
    · simpa using h.nodup entry
  · intro entry other req hreq req' hreq' hsame
    rcases hmem hreq with hold | ⟨rfl, rfl⟩
    · rcases hmem hreq' with hold' | ⟨rfl, rfl⟩
      · exact h.apart entry other req hold req' hold' hsame
      · have hlt := h.lt hold
        simp only at hsame
        omega
    · rcases hmem hreq' with hold' | ⟨rfl, rfl⟩
      · have hlt := h.lt hold'
        simp only at hsame
        omega
      · rfl

omit [DecidableEq ι] in
theorem complete_callback (ctx : AnyContext ψ (ContextContent μ)) :
    ctx.complete.1.callback = ctx.callback := by
  unfold AnyContext.complete
  split <;> rfl

theorem exec_numbered (h : Numbered s) (hx : s.exec label = .ok s') : Numbered s' := by
  cases label with
  | processConnect clientId callback =>
      obtain rfl := Except.ok.inj hx
      exact h.keep (fun _ => rfl) fun _ ctx hctx => ⟨ctx, hctx, rfl⟩
  | processDisconnect clientId callback =>
      obtain ⟨entry, -, rfl⟩ := disconnect_ok hx
      exact h.keep (fun _ => rfl) fun _ ctx hctx => ⟨ctx, hctx, rfl⟩
  | processRequest clientId message callback => exact request_numbered h hx
  | acceptConn step =>
      rcases acceptConn_ok hx with ⟨i, error, -, hcomplete⟩ | ⟨-, lobby, -, rfl⟩
      · obtain ⟨lobby, net, entry, -, -, hnet, rfl⟩ := completeConn_ok hcomplete
        obtain rfl := AcceptNet.setQueue_ok hnet
        exact h.keep (fun _ => rfl) fun _ ctx hctx => ⟨ctx, hctx, rfl⟩
      · exact h.keep (fun _ => rfl) fun _ ctx hctx => ⟨ctx, hctx, rfl⟩
  | accept c step =>
      obtain ⟨net, hnet, rfl⟩ := accept_ok hx
      refine h.keep ?_ fun _ ctx hctx => ⟨ctx, hctx, rfl⟩
      intro entry
      rw [AcceptNet.exec_pushes hnet]
      cases step <;> simp [AcceptNet.pushedTo, AcceptNet.AcceptLabel.pushed, AcceptStep.label]
  | complete req hr replyMsg =>
      obtain ⟨ctx, hctx, rfl⟩ := complete_ok hx
      refine h.keep (fun _ => rfl) fun n old hold => ?_
      by_cases hn : req.ctx = n
      · subst hn
        obtain rfl := Option.some.inj (hctx.symm.trans hold)
        have hlt := (List.getElem?_eq_some_iff.mp hctx).1
        exact ⟨_, List.getElem?_set_self hlt, complete_callback _⟩
      · exact ⟨old, by rw [List.getElem?_set_ne hn, hold], rfl⟩

variable {labels : List (ServerLabel ι μ ψ)}
  {allow : List (ServerLabel ι μ ψ) → Server ι μ ψ → ServerLabel ι μ ψ → Prop}

theorem run_numbered (hrun : (machine ι μ ψ).Run allow new labels s) : Numbered s := by
  apply hrun.state_invariant Numbered
  · refine ⟨?_, ?_, ?_⟩ <;> simp [new, AcceptNet.new]
  · exact fun _ _ _ _ h _ _ hx => exec_numbered h hx

-- What was handed over was pushed to the queue of the connection before.
theorem handed_posted (hrun : (machine ι μ ψ).Run allow new labels s) {c : ℕ}
    {completion : Completion (Request ι μ ψ)} {req : Request ι μ ψ}
    (hmem : (c, completion) ∈ s.net.handed) (hitem : completion.item = some req) :
    ∃ entry, s.net.home c = some entry ∧ req ∈ pushes (s.net.calls entry) := by
  obtain ⟨ls, hnet⟩ := run_net hrun
  obtain ⟨hrecorded, hands⟩ := AcceptNet.run_handsOn hnet
  cases hhome : s.net.home c with
  | none =>
      have hidle := (hrecorded.unattached c hhome).2
      rw [AcceptNet.handedTo, List.map_eq_nil_iff, List.filter_eq_nil_iff] at hidle
      exact absurd (decide_eq_true rfl) (hidle (c, completion) hmem)
  | some entry =>
      refine ⟨entry, rfl, ?_⟩
      have hle := hands.handed_le_pushes entry
      refine Multiset.mem_coe.mp (Multiset.mem_of_le hle (Multiset.mem_coe.mpr ?_))
      refine List.mem_map.mpr ⟨(c, req), ?_, rfl⟩
      refine List.mem_filterMap.mpr ⟨(c, completion), ?_, by simp [hitem]⟩
      exact List.mem_filter.mpr ⟨hmem, decide_eq_true hhome⟩

omit [DecidableEq ι] in
-- A number that was handed over on the connections of one entry only.
theorem count_of_home {handed : List (ℕ × Completion (Request ι μ ψ))} (home : ℕ → Option ℕ)
    (entry : ℕ) {n : ℕ} (h : ∀ x ∈ handed, ∀ req, x.2.item = some req → req.ctx = n →
      home x.1 = some entry) :
    ((handed.filterMap (·.2.item)).map Request.ctx).count n =
      ((((handed.filter (home ·.1 = some entry)).filterMap fun x => x.2.item.map (x.1, ·)).map
        Prod.snd).map Request.ctx).count n := by
  induction handed with
  | nil => rfl
  | cons x handed ih =>
      obtain ⟨c, error, item⟩ := x
      have htail := ih fun x hx => h x (List.mem_cons_of_mem _ hx)
      cases item with
      | none => by_cases hhome : home c = some entry <;> simpa [hhome] using htail
      | some req =>
          by_cases hreq : req.ctx = n
          · have hhome := h (c, ⟨error, some req⟩) List.mem_cons_self req rfl hreq
            simp only at hhome
            simp [hhome, List.count_cons, htail]
          · by_cases hhome : home c = some entry
            · simp [hhome, List.count_cons, htail]
            · simpa [hhome, List.count_cons, hreq] using htail

-- No request is handed over twice, on whichever connections.
theorem handed_nodup (hrun : (machine ι μ ψ).Run allow new labels s) :
    ((s.net.handed.filterMap (·.2.item)).map Request.ctx).Nodup := by
  have hnumbered := run_numbered hrun
  obtain ⟨ls, hnet⟩ := run_net hrun
  obtain ⟨-, hands⟩ := AcceptNet.run_handsOn hnet
  rw [List.nodup_iff_count_le_one]
  intro n
  by_cases hn : n ∈ (s.net.handed.filterMap (·.2.item)).map Request.ctx
  · obtain ⟨req, hreq, rfl⟩ := List.mem_map.mp hn
    obtain ⟨⟨c, completion⟩, hmem, hitem⟩ := List.mem_filterMap.mp hreq
    obtain ⟨entry, -, hposted⟩ := handed_posted hrun hmem hitem
    rw [count_of_home s.net.home entry]
    · have hle := Multiset.map_le_map (f := Request.ctx) (hands.handed_le_pushes entry)
      rw [Multiset.map_coe, Multiset.map_coe] at hle
      have hnodup := Multiset.nodup_of_le hle (Multiset.coe_nodup.mpr (hnumbered.nodup entry))
      exact List.nodup_iff_count_le_one.mp (Multiset.coe_nodup.mp hnodup) req.ctx
    · rintro ⟨d, other⟩ hd req' hitem' hsame
      obtain ⟨entry', hhome, hposted'⟩ := handed_posted hrun hd hitem'
      rw [hnumbered.apart entry entry' req hposted req' hposted' hsame.symm, hhome]
  · rw [List.count_eq_zero_of_not_mem hn]
    exact Nat.zero_le 1

end FabricRpc.V2.Server
