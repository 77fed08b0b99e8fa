import FabricRpc.Protobuf.Proto3
import FabricRpc.V2.Parse
import FabricRpc.V2.Server
import Mathlib.Data.List.Infix

namespace FabricRpc.V2

abbrev eFail : Int32 := -2147467259

-- A request that was handed over: its context, the callbacks that its
-- completions have invoked, and what EndProcessRequest has returned so far.
structure HandedRequest (ψ : Type*) where
  ctx : AnyContext ψ (ContextContent TransportMessage)
  fired : List ψ
  returned : List (Option (Int32 × Option TransportMessage))
  deriving DecidableEq

inductive RequestLabel where
  | complete (hr : Int32) (replyMsg : Option TransportMessage)
  | completeRpcError (st : AbslStatus)
  | endProcessRequest
  deriving DecidableEq

section Request

variable {σ : Type*} {Msg : σ → Type*} {ψ : Type*}

def rpcErrorMsg (pb : Protobuf σ Msg) (st : AbslStatus) : TransportMessage :=
  toolTransportMsg [] (pb.replyHeader.serializeAsString ⟨st.rawCode, st.message⟩)

namespace HandedRequest

def new (callback : ψ) : HandedRequest ψ := ⟨.new callback, [], []⟩

def complete (req : HandedRequest ψ) (hr : Int32) (replyMsg : Option TransportMessage) :
    Except ServerFault (HandedRequest ψ) :=
  if hr = sOk ∧ replyMsg.isNone then .error .replyMissing
  else
    let (completed, invoked) := (req.ctx.setContent ⟨hr, replyMsg⟩).complete
    .ok { req with ctx := completed, fired := req.fired ++ invoked.toList }

def completeRpcError (pb : Protobuf σ Msg) (req : HandedRequest ψ) (st : AbslStatus) :
    Except ServerFault (HandedRequest ψ) :=
  req.complete sOk (some (rpcErrorMsg pb st))

def endProcessRequest (req : HandedRequest ψ) : Except ServerFault (HandedRequest ψ) :=
  let result := Server.endProcessRequest req.ctx
  if result = some (sOk, none) then .error .replyMissing
  else .ok { req with returned := req.returned ++ [result] }

-- The transport ends the operation after its callback was invoked.
def Enabled (req : HandedRequest ψ) : RequestLabel → Prop
  | .endProcessRequest => req.fired ≠ []
  | _ => True

def exec (pb : Protobuf σ Msg) (req : HandedRequest ψ) :
    RequestLabel → Except ServerFault (HandedRequest ψ)
  | .complete hr replyMsg => req.complete hr replyMsg
  | .completeRpcError st => req.completeRpcError pb st
  | .endProcessRequest => req.endProcessRequest

def machine (pb : Protobuf σ Msg) (ψ : Type*) :
    Lib.Machine (HandedRequest ψ) RequestLabel ServerFault where
  enabled := Enabled
  exec := exec pb

end HandedRequest

-- request::complete is the same on a server as on the request alone.
theorem Server.complete_eq {ι : Type*} (s : Server ι TransportMessage ψ)
    (req : Request ι TransportMessage ψ) {ctx : AnyContext ψ (ContextContent TransportMessage)}
    (hctx : s.contexts[req.ctx]? = some ctx) (hr : Int32) (replyMsg : Option TransportMessage) :
    s.complete req hr replyMsg =
        (HandedRequest.complete ⟨ctx, [], []⟩ hr replyMsg).map fun handed =>
      { s with
        contexts := s.contexts.set req.ctx handed.ctx
        fired := s.fired ++ handed.fired.map (·, ContextRef.request req.ctx) } := by
  unfold Server.complete HandedRequest.complete
  split
  · rfl
  · rw [hctx]
    rfl

namespace RequestLabel

-- What a call completes the request with.
def result (pb : Protobuf σ Msg) : RequestLabel → Option (ContextContent TransportMessage)
  | .complete hr replyMsg => some ⟨hr, replyMsg⟩
  | .completeRpcError st => some ⟨sOk, some (rpcErrorMsg pb st)⟩
  | .endProcessRequest => none

end RequestLabel

def results (pb : Protobuf σ Msg) (labels : List RequestLabel) :
    List (ContextContent TransportMessage) :=
  labels.filterMap (RequestLabel.result pb)

-- What can be seen of a result. A failure takes no reply along.
def ContextContent.seen (content : ContextContent TransportMessage) :
    Int32 × Option TransportMessage :=
  if content.hr ≠ sOk then (content.hr, none) else (sOk, content.replyMsg)

namespace HandedRequest

variable {pb : Protobuf σ Msg} {callback : ψ} {req req' : HandedRequest ψ}
  {labels : List RequestLabel}

-- The first completion is final: one callback, and every EndProcessRequest
-- returns what it was completed with first.
def FirstIsFinal (pb : Protobuf σ Msg) (callback : ψ) (labels : List RequestLabel)
    (req : HandedRequest ψ) : Prop :=
  req.fired = [callback] ∧
    ∀ r ∈ req.returned, r = (results pb labels).head?.map ContextContent.seen

-- At each EndProcessRequest, the last completion before it had the result of
-- the first.
def Unchanged (pb : Protobuf σ Msg) (labels : List RequestLabel) : Prop :=
  ∀ before, before ++ [.endProcessRequest] <+: labels →
    (results pb before).getLast?.map ContextContent.seen =
      (results pb before).head?.map ContextContent.seen

-- What the calls so far have left. The content is that of the last completion,
-- and the guard has let through the first.
structure Overwritten (pb : Protobuf σ Msg) (callback : ψ) (labels : List RequestLabel)
    (req : HandedRequest ψ) : Prop where
  owner : req.ctx.callback = callback
  content : req.ctx.content = (results pb labels).getLast?
  isCompleted : req.ctx.isCompleted = !(results pb labels).isEmpty
  fired : req.fired = if results pb labels = [] then [] else [callback]
  replies : ∀ content ∈ results pb labels, content.hr = sOk → content.replyMsg.isSome
  unread : results pb labels = [] → req.returned = []
  returned : (∀ r ∈ req.returned, r = (results pb labels).head?.map ContextContent.seen) ↔
    Unchanged pb labels

theorem unchanged_nil (pb : Protobuf σ Msg) : Unchanged pb [] := by
  intro before hbefore
  exact absurd (List.prefix_nil.mp hbefore) (by simp)

theorem unchanged_snoc (labels : List RequestLabel) (label : RequestLabel) :
    Unchanged pb (labels ++ [label]) ↔ Unchanged pb labels ∧
      (label = .endProcessRequest → (results pb labels).getLast?.map ContextContent.seen =
        (results pb labels).head?.map ContextContent.seen) := by
  constructor
  · intro h
    refine ⟨fun before hbefore => h before (hbefore.trans (List.prefix_append _ _)), ?_⟩
    rintro rfl
    exact h labels List.prefix_rfl
  · rintro ⟨h, hlast⟩ before hbefore
    rcases List.prefix_concat_iff.mp hbefore with heq | hbefore
    · obtain ⟨rfl, hlabel⟩ := List.append_inj' heq rfl
      exact hlast (List.singleton_inj.mp hlabel).symm
    · exact h before hbefore

theorem new_overwritten (callback : ψ) : Overwritten pb callback [] (new callback) where
  owner := rfl
  content := rfl
  isCompleted := rfl
  fired := rfl
  replies := fun _ h => absurd h List.not_mem_nil
  unread := fun _ => rfl
  returned := by simp [new, unchanged_nil]

-- All that a completion can do.
theorem complete_cases {hr : Int32} {replyMsg : Option TransportMessage}
    (hx : req.complete hr replyMsg = .ok req') :
    (hr = sOk → replyMsg.isSome) ∧ req'.returned = req.returned ∧
      req'.ctx = ⟨req.ctx.callback, some ⟨hr, replyMsg⟩, true⟩ ∧
      req'.fired = if req.ctx.isCompleted then req.fired else req.fired ++ [req.ctx.callback] := by
  unfold complete at hx
  split at hx
  · exact absurd hx (by simp)
  · rename_i hreply
    have hsome : hr = sOk → replyMsg.isSome := by
      intro hok
      simpa [hok, Option.isSome_iff_ne_none] using hreply
    cases hdone : req.ctx.isCompleted with
    | true =>
        simp only [AnyContext.complete, AnyContext.setContent, hdone, if_true] at hx
        obtain rfl := Except.ok.inj hx
        exact ⟨hsome, rfl, rfl, by simp⟩
    | false =>
        simp only [AnyContext.complete, AnyContext.setContent, hdone, Bool.false_eq_true,
          if_false] at hx
        obtain rfl := Except.ok.inj hx
        exact ⟨hsome, rfl, rfl, by simp⟩

theorem complete_overwritten (h : Overwritten pb callback labels req) {label : RequestLabel}
    {hr : Int32} {replyMsg : Option TransportMessage}
    (hlabel : label.result pb = some ⟨hr, replyMsg⟩) (hx : req.complete hr replyMsg = .ok req') :
    Overwritten pb callback (labels ++ [label]) req' := by
  obtain ⟨hreply, hreturned, hctx, hfired⟩ := complete_cases hx
  have hresults : results pb (labels ++ [label]) = results pb labels ++ [⟨hr, replyMsg⟩] := by
    simp [results, hlabel]
  have hnot : label ≠ .endProcessRequest := by
    rintro rfl
    exact absurd hlabel (by simp [RequestLabel.result])
  refine ⟨?_, ?_, ?_, ?_, ?_, ?_, ?_⟩
  · rw [hctx]
    exact h.owner
  · simp [hctx, hresults]
  · simp [hctx, hresults]
  · rw [hfired, h.isCompleted, h.fired, h.owner, hresults]
    by_cases hnone : results pb labels = []
    · simp [hnone]
    · simp [hnone]
  · intro content hmem
    rw [hresults, List.mem_append, List.mem_singleton] at hmem
    rcases hmem with hmem | rfl
    · exact h.replies content hmem
    · exact hreply
  · rw [hresults]
    exact fun hnil => absurd hnil (by simp)
  · rw [unchanged_snoc, hreturned, ← h.returned, hresults]
    by_cases hnone : results pb labels = []
    · simp [h.unread hnone, hnot]
    · simp [List.head?_append_of_ne_nil _ hnone, hnot]

-- EndProcessRequest reads what was written last.
theorem Overwritten.seen (h : Overwritten pb callback labels req) :
    Server.endProcessRequest req.ctx =
      (results pb labels).getLast?.map ContextContent.seen := by
  rw [Server.endProcessRequest, h.content]
  rfl

theorem end_overwritten (h : Overwritten pb callback labels req) (henabled : req.fired ≠ []) :
    ∃ req', req.endProcessRequest = .ok req' ∧
      Overwritten pb callback (labels ++ [.endProcessRequest]) req' := by
  have hsome : results pb labels ≠ [] := by
    intro hnil
    rw [h.fired, if_pos hnil] at henabled
    exact henabled rfl
  have hreply : Server.endProcessRequest req.ctx ≠ some (sOk, none) := by
    rw [h.seen, List.getLast?_eq_some_getLast hsome, Option.map_some]
    intro hseen
    have hlast := h.replies _ (List.getLast_mem hsome)
    unfold ContextContent.seen at hseen
    split at hseen
    · rename_i hr
      exact hr (Prod.mk.inj (Option.some.inj hseen)).1
    · rename_i hr
      have hnone := (Prod.mk.inj (Option.some.inj hseen)).2
      rw [hnone] at hlast
      exact absurd (hlast (not_not.mp hr)) (by simp)
  have hresults : results pb (labels ++ [.endProcessRequest]) = results pb labels := by
    simp [results, RequestLabel.result]
  refine ⟨_, if_neg hreply, h.owner, ?_, ?_, ?_, ?_, ?_, ?_⟩
  · rw [hresults]
    exact h.content
  · rw [hresults]
    exact h.isCompleted
  · rw [hresults]
    exact h.fired
  · rw [hresults]
    exact h.replies
  · rw [hresults]
    exact fun hnil => absurd hnil hsome
  · rw [unchanged_snoc, hresults, ← h.returned, h.seen]
    simp only [List.mem_append, List.mem_singleton, or_imp, forall_and, forall_eq, true_implies]

theorem exec_overwritten (h : Overwritten pb callback labels req) {label : RequestLabel}
    (henabled : req.Enabled label) (hx : req.exec pb label = .ok req') :
    Overwritten pb callback (labels ++ [label]) req' := by
  cases label with
  | complete hr replyMsg => exact complete_overwritten h rfl hx
  | completeRpcError st => exact complete_overwritten h rfl hx
  | endProcessRequest =>
      obtain ⟨next, hnext, hover⟩ := end_overwritten h henabled
      obtain rfl : next = req' := Except.ok.inj (hnext.symm.trans hx)
      exact hover

theorem run_overwritten
    (hrun : (machine pb ψ).Run Lib.Machine.anything (new callback) labels req) :
    Overwritten pb callback labels req := by
  apply hrun.invariant (Overwritten pb callback)
  · exact new_overwritten callback
  · exact fun labels req label req' h _ henabled hx => exec_overwritten h henabled hx

-- The guard against a second completion stands behind the assignment of the
-- result. The callback is invoked once in every run, but the first completion is
-- final only if nobody has overwritten it when the transport reads it.
theorem first_completion_final_iff_unchanged
    (hrun : (machine pb ψ).Run Lib.Machine.anything (new callback) labels req)
    (hcompleted : results pb labels ≠ []) :
    req.fired = [callback] ∧ (req.FirstIsFinal pb callback labels ↔ Unchanged pb labels) := by
  have h := run_overwritten hrun
  have hfired : req.fired = [callback] := by rw [h.fired, if_neg hcompleted]
  exact ⟨hfired, by rw [FirstIsFinal, h.returned, and_iff_right hfired]⟩

theorem enabled_end {ctx : AnyContext ψ (ContextContent TransportMessage)} {callback : ψ}
    {fired : List ψ} {returned : List (Option (Int32 × Option TransportMessage))} :
    Enabled ⟨ctx, callback :: fired, returned⟩ .endProcessRequest := List.cons_ne_nil _ _

-- The transport has read the failure before the handler completes once more.
theorem first_completion_final_iff_unchanged_late :
    ∃ (labels : List RequestLabel) (req : HandedRequest ℕ),
      labels = [.complete eFail none, .endProcessRequest, .complete sOk (some ⟨none, []⟩)] ∧
      (machine stringProtobuf ℕ).Run Lib.Machine.anything (new 1) labels req ∧
      req.FirstIsFinal stringProtobuf 1 labels := by
  have hrun : (machine stringProtobuf ℕ).Run Lib.Machine.anything (new 1)
      [.complete eFail none, .endProcessRequest, .complete sOk (some ⟨none, []⟩)]
      ⟨⟨1, some ⟨sOk, some ⟨none, []⟩⟩, true⟩, [1], [some (eFail, none)]⟩ :=
    .snoc (.snoc (.snoc .nil trivial trivial rfl) trivial enabled_end rfl) trivial trivial rfl
  refine ⟨_, _, rfl, hrun, ?_⟩
  rw [(first_completion_final_iff_unchanged hrun (List.cons_ne_nil _ _)).2]
  have hended : Unchanged stringProtobuf [.complete eFail none, .endProcessRequest] := by
    refine (unchanged_snoc [.complete eFail none] .endProcessRequest).mpr ⟨?_, fun _ => rfl⟩
    exact (unchanged_snoc [] (.complete eFail none)).mpr ⟨unchanged_nil _, by simp⟩
  exact (unchanged_snoc [.complete eFail none, .endProcessRequest] _).mpr ⟨hended, by simp⟩

-- The transport is slower, and ends the operation with the second result.
theorem second_completion_replaces_first :
    ∃ (labels : List RequestLabel) (req : HandedRequest ℕ),
      labels = [.complete eFail none, .complete sOk (some ⟨none, []⟩), .endProcessRequest] ∧
      (machine stringProtobuf ℕ).Run Lib.Machine.anything (new 1) labels req ∧
      results stringProtobuf labels ≠ [] ∧ req.returned = [some (sOk, some ⟨none, []⟩)] ∧
      ¬req.FirstIsFinal stringProtobuf 1 labels := by
  have hrun : (machine stringProtobuf ℕ).Run Lib.Machine.anything (new 1)
      [.complete eFail none, .complete sOk (some ⟨none, []⟩), .endProcessRequest]
      ⟨⟨1, some ⟨sOk, some ⟨none, []⟩⟩, true⟩, [1], [some (sOk, some ⟨none, []⟩)]⟩ :=
    .snoc (.snoc (.snoc .nil trivial trivial rfl) trivial trivial rfl) trivial enabled_end rfl
  refine ⟨_, _, rfl, hrun, List.cons_ne_nil _ _, rfl, ?_⟩
  rintro ⟨-, hreturned⟩
  have hfirst := hreturned _ List.mem_cons_self
  exact absurd hfirst (by decide)

end HandedRequest

end Request

end FabricRpc.V2
