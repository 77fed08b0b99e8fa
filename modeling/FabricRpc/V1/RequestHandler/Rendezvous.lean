import FabricRpc.Protobuf.Proto3
import FabricRpc.V1.RequestHandler.Sound

namespace FabricRpc.V1

open Lib

variable {σ υ : Type*} {Msg : σ → Type*}

namespace Request

variable {pb : Protobuf σ Msg} {route : MiddleWare σ} {msg : FRPCTransportMessage}
  {timeoutMilliseconds : UInt32} {s : Request σ υ Msg}

section Callback

variable {context : Option (Ctx υ)} {pc : InvokePc}

-- While the callback runs, BeginProcessRequest depends on it by its context only.
theorem Sound.restage (h : s.Sound pb route msg timeoutMilliseconds)
    (hinv : s.invocations = [⟨context, pc⟩]) :
    ∃ c, s.Holds c ∧ (pc ≠ .done → ∀ pc' inner,
      Holds { s with invocations := [⟨context, pc'⟩], innerCtx := inner } c →
      Stage pb route msg timeoutMilliseconds
        { s with invocations := [⟨context, pc'⟩], innerCtx := inner } s.beginPc) := by
  have hne : s.invocations ≠ [] := by simp [hinv]
  have hnot (hpc : pc ≠ .done) : s.invocations.map Invocation.pc ≠ [.done] := by
    simp [hinv, hpc]
  have hstage := h.stage
  cases hbegin : s.beginPc with
  | start => rw [hbegin] at hstage; exact absurd hstage.1.2 hne
  | routed ops => rw [hbegin] at hstage; exact absurd hstage.1.2 hne
  | invoking op timeout => rw [hbegin] at hstage; exact absurd hstage.1.2 hne
  | inUser =>
      rw [hbegin] at hstage
      obtain ⟨hbegan, hstatus, hnone, huntouched | ⟨-, u, hholds⟩⟩ := hstage
      · exact absurd huntouched.2 hne
      · exact ⟨_, hholds, fun _ _ _ hholds' =>
          ⟨hbegan, hstatus, hnone, .inr ⟨by simp, u, hholds'⟩⟩⟩
  | checked err ctx =>
      rw [hbegin] at hstage
      rcases hstage with ⟨u, hctx, herr, hbegan, hstatus, hresult, hholds⟩ |
        ⟨-, -, -, huntouched, -⟩
      · exact ⟨_, hholds, fun _ _ _ hholds' =>
          .inl ⟨u, hctx, herr, hbegan, hstatus, hresult, hholds'⟩⟩
      · exact absurd huntouched.2 hne
  | failed => rw [hbegin] at hstage; exact absurd hstage.2.2 hne
  | inCallback i =>
      rw [hbegin] at hstage
      obtain ⟨hstored, hholds, -, hi⟩ := hstage
      exact ⟨_, hholds, fun _ _ _ hholds' => ⟨hstored, hholds', rfl, hi⟩⟩
  | returning =>
      rw [hbegin] at hstage
      rcases hstage with ⟨u, hbegan, hstatus, hresult, hholds⟩ | ⟨-, hholds, hdone⟩
      · exact ⟨_, hholds, fun _ _ _ hholds' => .inl ⟨u, hbegan, hstatus, hresult, hholds'⟩⟩
      · exact ⟨_, hholds, fun hpc => absurd hdone (hnot hpc)⟩
  | returned context =>
      rw [hbegin] at hstage
      obtain ⟨hcontext, ⟨u, hbegan, hstatus, hresult, hholds⟩ | ⟨-, hholds, hdone⟩⟩ := hstage
      · exact ⟨_, hholds, fun _ _ _ hholds' =>
          ⟨hcontext, .inl ⟨u, hbegan, hstatus, hresult, hholds'⟩⟩⟩
      · exact ⟨_, hholds, fun hpc => absurd hdone (hnot hpc)⟩

-- The context that the callback is called with is the one that Begin knows.
theorem Sound.holds (h : s.Sound pb route msg timeoutMilliseconds) {c : Ctx υ}
    (hinv : s.invocations = [⟨some c, pc⟩]) : s.Holds c := by
  obtain ⟨c', hholds, -⟩ := h.restage hinv
  have hcontext : some c = some c' := hholds.2 ⟨some c, pc⟩ (by simp [hinv])
  obtain rfl := Option.some.inj hcontext
  exact hholds

-- A step of the callback keeps what is known of BeginProcessRequest.
theorem Sound.stage_step (h : s.Sound pb route msg timeoutMilliseconds)
    (hinv : s.invocations = [⟨context, pc⟩]) (hpc : pc ≠ .done) (pc' : InvokePc)
    {inner : Option (Ctx υ)} (hinner : inner = s.innerCtx ∨ inner = context) :
    Stage pb route msg timeoutMilliseconds
      { s with invocations := [⟨context, pc'⟩], innerCtx := inner } s.beginPc := by
  obtain ⟨c, hholds, hstage⟩ := h.restage hinv
  have hcontext : context = some c := hholds.2 ⟨context, pc⟩ (by simp [hinv])
  refine hstage hpc pc' inner ⟨?_, ?_⟩
  · intro x hx
    rcases hinner with rfl | rfl
    · exact hholds.1 x hx
    · exact Option.some.inj (hx.symm.trans hcontext)
  · intro inv hmem
    rw [List.mem_singleton.mp hmem, hcontext]

theorem advance_of_invocations (hinv : s.invocations = [⟨context, pc⟩]) (pc' : InvokePc) :
    s.advance 0 pc' = { s with invocations := [⟨context, pc'⟩] } := by
  simp [advance, hinv]

variable [DecidableEq υ]

theorem invokeStep_sound (h : s.Sound pb route msg timeoutMilliseconds) {i : ℕ}
    (he : s.Enabled (.invoke i)) :
    s.Progresses pb route msg timeoutMilliseconds (s.invokeStep i) := by
  obtain ⟨⟨context, pc⟩, hi, hpc⟩ : ∃ inv, s.invocations[i]? = some inv ∧ inv.pc ≠ .done := he
  obtain ⟨hinv, rfl⟩ : s.invocations = [⟨context, pc⟩] ∧ i = 0 := by
    rcases h.invocations_cases with hnil | ⟨inv, hinv⟩
    · simp [hnil] at hi
    · cases i with
      | zero =>
          simp only [hinv, List.getElem?_cons_zero, Option.some.injEq] at hi
          exact ⟨by rw [hinv, hi], rfl⟩
      | succ i => simp [hinv] at hi
  have hcallback := h.callback
  rw [hinv] at hcallback
  cases pc with
  | asserts =>
      obtain ⟨hcontext, hwrap, hcalls⟩ := hcallback
      refine ⟨{ s with invocations := [⟨context, .setInner⟩] }, ?_,
        ⟨h.stage_step hinv hpc _ (.inl rfl), ⟨hcontext, hwrap, hcalls⟩, h.ended, h.ends⟩,
        by simp [rank, hinv, invokeRank]⟩
      simp [invokeStep, hi, hwrap, Option.isNone_eq_false_iff.mpr hcontext,
        advance_of_invocations hinv]
  | setInner =>
      obtain ⟨hcontext, hwrap, hcalls⟩ := hcallback
      obtain ⟨c, rfl⟩ := Option.isSome_iff_exists.mp hcontext
      refine ⟨{ s with invocations := [⟨some c, .transport⟩], innerCtx := some c }, ?_,
        ⟨h.stage_step hinv hpc _ (.inr rfl), ⟨rfl, rfl, hwrap, hcalls⟩, h.ended,
          h.ends_store (h.holds hinv)⟩, by simp [rank, hinv, invokeRank]⟩
      simp [invokeStep, hwrap, setInnerCtx_holds (h.holds hinv), Except.map, advance, hinv]
  | transport =>
      obtain ⟨hcontext, hinner, hwrap, hcalls⟩ := hcallback
      refine ⟨{ s with
          invocations := [⟨context, .release⟩], transportCalls := [some .wrap] }, ?_,
        ⟨h.stage_step hinv hpc _ (.inl rfl), ⟨hcontext, hinner, hwrap, rfl⟩, fun _ => by simp,
          h.ends⟩, by simp [rank, hinv, invokeRank]⟩
      simp [invokeStep, hwrap, hcalls, advance, hinv]
  | release =>
      obtain ⟨hcontext, hinner, hwrap, hcalls⟩ := hcallback
      refine ⟨{ s with invocations := [⟨context, .done⟩], wrapCtx := none }, ?_,
        ⟨h.stage_step hinv hpc _ (.inl rfl), ⟨hcontext, hinner, rfl, hcalls⟩, h.ended, h.ends⟩,
        by simp [rank, hinv, invokeRank]⟩
      simp [invokeStep, advance, hinv]
  | done => exact absurd rfl hpc

end Callback

section End

-- A step of EndProcessRequest ends without a fault, keeps the invariant, and
-- takes no step from the others.
def Keeps (pb : Protobuf σ Msg) (route : MiddleWare σ) (msg : FRPCTransportMessage)
    (timeoutMilliseconds : UInt32) (s : Request σ υ Msg)
    (result : Except Fault (Request σ υ Msg)) : Prop :=
  ∃ s', result = .ok s' ∧ s'.Sound pb route msg timeoutMilliseconds ∧ s'.rank = s.rank

-- When the transport is called, either the user's Begin was called and only the
-- user's context is known, or the failure is stored.
theorem Sound.begun (h : s.Sound pb route msg timeoutMilliseconds)
    (hcalls : s.transportCalls ≠ []) :
    (s.beginStatus.failed = false ∧ s.Began pb route msg timeoutMilliseconds ∧
      ∃ u, s.Holds (.user u) ∧ s.MayHold u) ∨
    s.Stored pb route msg timeoutMilliseconds := by
  obtain ⟨c, pc, -, hinv, -⟩ := h.published hcalls
  have hne : s.invocations ≠ [] := by simp [hinv]
  have hstage := h.stage
  cases hbegin : s.beginPc with
  | start => rw [hbegin] at hstage; exact absurd hstage.1.2 hne
  | routed ops => rw [hbegin] at hstage; exact absurd hstage.1.2 hne
  | invoking op timeout => rw [hbegin] at hstage; exact absurd hstage.1.2 hne
  | inUser =>
      rw [hbegin] at hstage
      obtain ⟨hbegan, hstatus, hnone, huntouched | ⟨-, u, hholds⟩⟩ := hstage
      · exact absurd huntouched.2 hne
      · exact .inl ⟨hstatus, hbegan, u, hholds, mayHold_of_none hnone u⟩
  | checked err ctx =>
      rw [hbegin] at hstage
      rcases hstage with ⟨u, -, -, hbegan, hstatus, hresult, hholds⟩ | ⟨-, -, -, huntouched, -⟩
      · exact .inl ⟨hstatus, hbegan, u, hholds, mayHold_of_result hresult⟩
      · exact absurd huntouched.2 hne
  | failed => rw [hbegin] at hstage; exact .inr hstage.1
  | inCallback i => rw [hbegin] at hstage; exact .inr hstage.1
  | returning =>
      rw [hbegin] at hstage
      rcases hstage with ⟨u, hbegan, hstatus, hresult, hholds⟩ | ⟨hstored, -⟩
      · exact .inl ⟨hstatus, hbegan, u, hholds, mayHold_of_result hresult⟩
      · exact .inr hstored
  | returned context =>
      rw [hbegin] at hstage
      rcases hstage.2 with ⟨u, hbegan, hstatus, hresult, hholds⟩ | ⟨hstored, -⟩
      · exact .inl ⟨hstatus, hbegan, u, hholds, mayHold_of_result hresult⟩
      · exact .inr hstored

theorem Sound.user_context (h : s.Sound pb route msg timeoutMilliseconds)
    (hcalls : s.transportCalls ≠ []) (hstatus : s.beginStatus.failed = false) :
    s.Began pb route msg timeoutMilliseconds ∧ ∃ u, s.Holds (.user u) ∧ s.MayHold u := by
  rcases h.begun hcalls with ⟨-, hbegun⟩ | hstored
  · exact hbegun
  · exact absurd (hstored.1.symm.trans hstatus) (by simp)

theorem Began.stored (h : s.Began pb route msg timeoutMilliseconds) :
    ∃ endOp, s.endOp = some endOp := by
  obtain ⟨_, _, endOp, _, _, _, _, _, _, _, _, _, hend⟩ := h
  exact ⟨endOp, hend⟩

theorem setEnd_sound (h : s.Sound pb route msg timeoutMilliseconds) {i : ℕ}
    {old call : EndCall σ υ Msg} (hi : s.ends[i]? = some old)
    (hcall : EndSound pb s.beginStatus s.endOp s.innerCtx call) :
    s.Keeps pb route msg timeoutMilliseconds (.ok (s.setEnd i call)) := by
  have hne : s.ends ≠ [] := List.ne_nil_of_mem (List.mem_of_getElem? hi)
  refine ⟨_, rfl, ⟨h.stage, h.callback, fun _ => h.ended hne, ?_⟩, rfl⟩
  intro other hother
  rcases List.mem_or_eq_of_mem_set hother with hold | rfl
  · exact h.ends other hold
  · exact hcall

theorem endStart_sound (h : s.Sound pb route msg timeoutMilliseconds) {context : Ctx υ}
    (he : s.Enabled (.endStart context)) :
    s.Keeps pb route msg timeoutMilliseconds (s.endStart context) := by
  have hne : s.transportCalls ≠ [] := List.ne_nil_of_mem he
  obtain ⟨c, pc, -, -, hcalls⟩ := h.published hne
  obtain rfl : context = .wrap := by
    have hmem : some context ∈ s.transportCalls := he
    rw [hcalls, List.mem_singleton] at hmem
    exact Option.some.inj hmem
  refine ⟨_, rfl, ⟨h.stage, h.callback, fun _ => hne, ?_⟩, rfl⟩
  intro call hcall
  rcases List.mem_append.mp hcall with hold | hnew
  · exact h.ends call hold
  · rw [List.mem_singleton.mp hnew]
    exact ⟨rfl, rfl⟩

theorem endStep_sound (h : s.Sound pb route msg timeoutMilliseconds) {i : ℕ}
    (he : s.Enabled (.endStep i)) :
    s.Keeps pb route msg timeoutMilliseconds (s.endStep pb i) := by
  obtain ⟨⟨pc, calls, result⟩, hi, hpc⟩ : ∃ call, s.ends[i]? = some call ∧
      call.pc.ready = true := he
  have hcall := h.ends _ (List.mem_of_getElem? hi)
  have hne : s.transportCalls ≠ [] := h.ended (List.ne_nil_of_mem (List.mem_of_getElem? hi))
  cases pc with
  | reading =>
      obtain ⟨hcalls, hresult⟩ := hcall
      simp only [endStep, hi]
      cases hstatus : s.beginStatus.failed with
      | true => exact setEnd_sound h hi (.inl ⟨hstatus, hcalls, hresult, rfl⟩)
      | false => exact setEnd_sound h hi ⟨hstatus, hcalls, hresult⟩
  | asserts =>
      have hstatus : s.beginStatus.failed = false := hcall.1
      obtain ⟨endOp, hend⟩ := (h.user_context hne hstatus).1.stored
      obtain ⟨c, _, hinner, -, -⟩ := h.published hne
      simp only [endStep, hi, hend, hinner, Option.isNone_some, Bool.false_eq_true, if_false]
      exact setEnd_sound h hi hcall
  | invoking =>
      obtain ⟨hstatus, hcalls, hresult⟩ := hcall
      obtain ⟨endOp, hend⟩ := (h.user_context hne hstatus).1.stored
      simp only [endStep, hi, hend]
      refine setEnd_sound h hi ⟨hstatus, hend, ?_, hresult⟩
      obtain rfl : calls = [] := hcalls
      rfl
  | inUser op => simp [EndPc.ready] at hpc
  | finished reply => simp [EndPc.ready] at hpc

theorem endReturn_sound (h : s.Sound pb route msg timeoutMilliseconds) {i : ℕ} {err : Status}
    {proto : Sigma Msg} (he : s.Enabled (.endReturn i err proto)) :
    s.Keeps pb route msg timeoutMilliseconds (.ok (s.endReturn pb i err proto)) := by
  obtain ⟨⟨pc, calls, result⟩, hi, op, hop, hproto⟩ : ∃ call, s.ends[i]? = some call ∧
      ∃ op ∈ call.pc.userOp, proto.1 = op.proto := he
  obtain rfl : pc = .inUser op := EndPc.eq_inUser hop
  obtain ⟨hstatus, hend, hcalls, -⟩ := h.ends _ (List.mem_of_getElem? hi)
  simp only [endReturn, hi]
  exact setEnd_sound h hi
    (.inr ⟨hstatus, op, err, proto, hend, hcalls, rfl, hproto, rfl⟩)

end End

-- The steps of EndProcessRequest.
def ofEnd : RequestLabel σ υ Msg → Bool
  | .endStart _ | .endStep _ | .endReturn _ _ _ => true
  | _ => false

-- Nobody but EndProcessRequest can take a step that the contract allows.
def Stuck (s : Request σ υ Msg) : Prop :=
  ∀ label, ofEnd label = false → Contract [] s label → ¬s.Enabled label

section Rendezvous

variable [DecidableEq υ] (pb : Protobuf σ Msg) (route : MiddleWare σ)
  (message : Option TransportMessage) (timeoutMilliseconds : UInt32)

-- What a call of EndProcessRequest reports: the failure of the begin, or else
-- the result of one call of the routed End operation, with the user's context.
def Reports (msg : FRPCTransportMessage) (s : Request σ υ Msg) (call : EndCall σ υ Msg)
    (reply : TransportMessage) : Prop :=
  (∃ st, st.failed = true ∧ s.BeginFailed pb route msg timeoutMilliseconds st ∧
    call.calls = [] ∧ call.result = none ∧ reply = makeReply pb st []) ∨
  ((∀ st, st.failed = true → ¬s.BeginFailed pb route msg timeoutMilliseconds st) ∧
    s.Began pb route msg timeoutMilliseconds ∧
    ∃ ops endOp u err proto, Routed pb route msg ops ∧ ops.endOp = some endOp ∧
      s.invocations.map Invocation.context = [some (.user u)] ∧
      s.MayHold u ∧
      call.calls = [(endOp, some (.user u))] ∧ call.result = some (err, proto) ∧
      proto.1 = endOp.proto ∧ reply = endReply pb err proto)

structure Rendezvous (labels : List (RequestLabel σ υ Msg)) (s : Request σ υ Msg) : Prop where
  -- no assertion fails
  noFault : ∀ label, Contract labels s label → s.Enabled label →
    ∃ s', s.exec pb route message timeoutMilliseconds label = .ok s'
  -- the transport is called back at most once, with the context that is returned
  atMostOnce : s.transportCalls = [] ∨ s.transportCalls = [some .wrap]
  returned : ∀ context, s.beginPc = .returned context → context = .wrap
  -- and once when nothing is left to do, which is after at most 13 steps
  atLeastOnce : s.Stuck → s.transportCalls = [some .wrap] ∧ s.beginPc = .returned .wrap
  bounded : (labels.filter fun label => !ofEnd label).length ≤ 13
  reports : ∀ call ∈ s.ends, ∀ reply, call.pc = .finished reply →
    Reports pb route timeoutMilliseconds (.copyMsg message) s call reply

end Rendezvous

theorem routed_binds {svcList : List (MiddleWare σ)} {ops : Ops σ}
    (h : ∀ svc ∈ svcList, svc.Binds) (hrouted : Routed pb (router svcList) msg ops) :
    ops.beginOp.isSome ∧ ops.endOp.isSome := by
  obtain ⟨ec, hparse, hec⟩ := hrouted
  unfold parseRequest at hparse
  split at hparse
  · obtain ⟨rfl, -⟩ := Prod.mk.inj hparse
    simp [StatusCode.INVALID_ARGUMENT, StatusCode.OK] at hec
  · split at hparse
    split at hparse
    · obtain ⟨rfl, -⟩ := Prod.mk.inj hparse
      simp [StatusCode.INVALID_ARGUMENT, StatusCode.OK] at hec
    · exact router_binds h _ _ ec ops hparse hec

theorem generated_binds {svcList : List (GeneratedService σ)} {ops : Ops σ}
    (hrouted : Routed pb (router (svcList.map GeneratedService.route)) msg ops) :
    ops.beginOp.isSome ∧ ops.endOp.isSome := by
  refine routed_binds ?_ hrouted
  intro route hroute
  obtain ⟨svc, -, rfl⟩ := List.mem_map.mp hroute
  exact svc.route_binds

theorem Sound.reports (h : s.Sound pb route msg timeoutMilliseconds) {call : EndCall σ υ Msg}
    (hcall : call ∈ s.ends) {reply : TransportMessage} (hpc : call.pc = .finished reply) :
    Reports pb route timeoutMilliseconds msg s call reply := by
  have hne : s.transportCalls ≠ [] := h.ended (List.ne_nil_of_mem hcall)
  have hsound := h.ends call hcall
  simp only [EndSound, hpc] at hsound
  rcases hsound with ⟨hstatus, hcalls, hresult, hreply⟩ |
    ⟨hstatus, op, err, proto, hend, hcalls, hresult, hproto, hreply⟩
  · rcases h.begun hne with ⟨hok, -⟩ | hstored
    · exact absurd (hstatus.symm.trans hok) (by simp)
    · exact .inl ⟨s.beginStatus, hstatus, hstored.2, hcalls, hresult, hreply⟩
  · obtain ⟨hbegan, u, hholds, houtcome⟩ := h.user_context hne hstatus
    have ⟨ops, _, endOp, _, _, _, _, hrouted, _, hops, _, hbegun, hstored⟩ := hbegan
    obtain rfl : endOp = op := Option.some.inj (hstored.symm.trans hend)
    obtain ⟨c, pc, hinner, hinv, -⟩ := h.published hne
    obtain rfl := hholds.1 c hinner
    have hnever (st : Status) : ¬s.BeginFailed pb route msg timeoutMilliseconds st := by
      intro hfailed
      exact hfailed.not_invoked (by simp [hbegun]) houtcome
    refine .inr ⟨fun st _ => hnever st, hbegan, ops, endOp, u, err, proto, hrouted, hops, ?_,
      houtcome, ?_,
      hresult, hproto, hreply⟩
    · simp [hinv]
    · rw [hcalls, hinner]

theorem Stuck.done {inv : Invocation υ} (h : s.Stuck) (hinv : s.invocations = [inv]) :
    inv.pc = .done := by
  by_contra hpc
  exact h (.invoke 0) rfl trivial ⟨inv, by simp [hinv], hpc⟩

theorem Sound.called_of_done (h : s.Sound pb route msg timeoutMilliseconds) {inv : Invocation υ}
    (hinv : s.invocations = [inv]) (hdone : inv.pc = .done) :
    s.transportCalls = [some .wrap] := by
  have hcallback := h.callback
  obtain ⟨context, pc⟩ := inv
  obtain rfl : pc = .done := hdone
  rw [hinv] at hcallback
  exact hcallback.2.2.2

theorem Sound.complete (h : s.Sound pb route msg timeoutMilliseconds) (hstuck : s.Stuck) :
    s.transportCalls = [some .wrap] ∧ s.beginPc = .returned .wrap := by
  have hbegin (henabled : s.Enabled (.beginStep 0)) : False :=
    hstuck (.beginStep 0) rfl trivial henabled
  have hstage := h.stage
  cases hpc : s.beginPc with
  | start => exact (hbegin (by simp [Enabled, beginReady, hpc])).elim
  | routed ops => exact (hbegin (by simp [Enabled, beginReady, hpc])).elim
  | invoking op timeout => exact (hbegin (by simp [Enabled, beginReady, hpc])).elim
  | inUser =>
      rw [hpc] at hstage
      obtain ⟨-, -, -, huntouched | ⟨-, u, hholds⟩⟩ := hstage
      · refine (hstuck (.userReturn (.make StatusCode.INTERNAL []) none) rfl ?_ ?_).elim
        · exact ⟨rfl, huntouched.2⟩
        · simp [Enabled, inUserBegin, hpc]
      · refine (hstuck (.userReturn .ok (some u)) rfl ?_ ?_).elim
        · exact ⟨u, rfl, hholds.2⟩
        · simp [Enabled, inUserBegin, hpc]
  | checked err ctx => exact (hbegin (by simp [Enabled, beginReady, hpc])).elim
  | failed => exact (hbegin (by simp [Enabled, beginReady, hpc])).elim
  | inCallback i =>
      rw [hpc] at hstage
      obtain ⟨-, -, hlength, rfl⟩ := hstage
      obtain ⟨inv, hinv⟩ := List.length_eq_one_iff.mp hlength
      have hdone := hstuck.done hinv
      exact (hbegin (by simp [Enabled, beginReady, hpc, hinv, hdone])).elim
  | returning => exact (hbegin (by simp [Enabled, beginReady, hpc])).elim
  | returned context =>
      rw [hpc] at hstage
      obtain ⟨rfl, hmode⟩ := hstage
      refine ⟨?_, rfl⟩
      rcases h.invocations_cases with hinv | ⟨inv, hinv⟩
      · rcases hmode with ⟨u, hbegan, -, hresult, -⟩ | ⟨-, -, hdone⟩
        · obtain ⟨_, _, _, _, _, _, _, _, _, _, -, hbegun, -⟩ := hbegan
          refine (hstuck (.userInvoke (some u)) rfl
            ⟨hinv, u, rfl, mayHold_of_result hresult⟩ ?_).elim
          simp [Enabled, hbegun]
        · simp [hinv] at hdone
      · exact h.called_of_done hinv (hstuck.done hinv)

section Runs

variable [DecidableEq υ] {message : Option TransportMessage}
  {labels : List (RequestLabel σ υ Msg)}

-- One step of anyone.
theorem exec_sound (hbinds : ∀ ops, Routed pb route (.copyMsg message) ops →
      ops.beginOp.isSome ∧ ops.endOp.isSome)
    (h : s.Sound pb route (.copyMsg message) timeoutMilliseconds)
    {label : RequestLabel σ υ Msg} (hcontract : Contract labels s label)
    (he : s.Enabled label) :
    ∃ s', s.exec pb route message timeoutMilliseconds label = .ok s' ∧
      s'.Sound pb route (.copyMsg message) timeoutMilliseconds ∧
      s'.rank + (if ofEnd label then 0 else 1) ≤ s.rank := by
  have hown {result : Except Fault (Request σ υ Msg)}
      (hp : s.Progresses pb route (.copyMsg message) timeoutMilliseconds result) :
      ∃ s', result = .ok s' ∧ s'.Sound pb route (.copyMsg message) timeoutMilliseconds ∧
        s'.rank + 1 ≤ s.rank := hp
  have hend {result : Except Fault (Request σ υ Msg)}
      (hk : s.Keeps pb route (.copyMsg message) timeoutMilliseconds result) :
      ∃ s', result = .ok s' ∧ s'.Sound pb route (.copyMsg message) timeoutMilliseconds ∧
        s'.rank + 0 ≤ s.rank := by
    obtain ⟨s', hx, hsound, hrank⟩ := hk
    exact ⟨s', hx, hsound, by omega⟩
  cases label with
  | beginStep elapsed => exact hown (beginStep_sound hbinds h he)
  | userReturn err ctx => exact hown (userReturn_sound h he hcontract)
  | userInvoke ctx => exact hown (userInvoke_sound h he hcontract)
  | invoke i => exact hown (invokeStep_sound h he)
  | endStart context => exact hend (endStart_sound h he)
  | endStep i => exact hend (endStep_sound h he)
  | endReturn i err proto => exact hend (endReturn_sound h he)

-- A whole run.
theorem run_sound (hbinds : ∀ ops, Routed pb route (.copyMsg message) ops →
      ops.beginOp.isSome ∧ ops.endOp.isSome)
    (hrun : (requestMachine pb route message timeoutMilliseconds).Run Contract new labels s) :
    s.Sound pb route (.copyMsg message) timeoutMilliseconds ∧
      (labels.filter fun label => !ofEnd label).length + s.rank ≤ 13 := by
  induction hrun with
  | nil => exact ⟨new_sound, by simp [rank, new, beginRank, invokeRank]⟩
  | snoc _ hcontract he hx ih =>
      rename_i labels s s' label hrun
      obtain ⟨next, hnext, hsound, hrank⟩ := exec_sound hbinds ih.1 hcontract he
      obtain rfl : next = s' := Except.ok.inj (hnext.symm.trans hx)
      refine ⟨hsound, ?_⟩
      have hcount := ih.2
      rw [List.filter_append, List.length_append]
      cases hend : ofEnd label with
      | true =>
          simp only [hend, if_true] at hrank
          simp only [List.filter_cons, hend, Bool.not_true, Bool.false_eq_true, if_false,
            List.filter_nil, List.length_nil]
          omega
      | false =>
          simp only [hend, Bool.false_eq_true, if_false] at hrank
          simp only [List.filter_cons, hend, Bool.not_false, if_true, List.filter_nil,
            List.length_singleton]
          omega

theorem generated_sound {svcList : List (GeneratedService σ)}
    (hrun : (requestMachine pb (router (svcList.map GeneratedService.route)) message
      timeoutMilliseconds).Run Contract new labels s) :
    s.Sound pb (router (svcList.map GeneratedService.route)) (.copyMsg message)
      timeoutMilliseconds :=
  (run_sound (fun _ hrouted => generated_binds hrouted) hrun).1

-- The law of the first stack's server. For every message, every list of
-- generated services and every run in which the user keeps the contract: no
-- assertion fails, the transport is called back exactly once with the context
-- that BeginProcessRequest returns, and EndProcessRequest reports what it should.
theorem begin_end_rendezvous (pb : Protobuf σ Msg) (svcList : List (GeneratedService σ))
    (hrun : (requestMachine pb (router (svcList.map GeneratedService.route)) message
      timeoutMilliseconds).Run Contract new labels s) :
    Rendezvous pb (router (svcList.map GeneratedService.route)) message timeoutMilliseconds
      labels s := by
  have hbinds (ops : Ops σ)
      (hrouted : Routed pb (router (svcList.map GeneratedService.route)) (.copyMsg message) ops) :
      ops.beginOp.isSome ∧ ops.endOp.isSome := generated_binds hrouted
  obtain ⟨hsound, hcount⟩ := run_sound hbinds hrun
  refine ⟨?_, ?_, ?_, ?_, by omega, fun call hcall reply hpc => hsound.reports hcall hpc⟩
  · intro label hcontract he
    obtain ⟨s', hx, -⟩ := exec_sound hbinds hsound hcontract he
    exact ⟨s', hx⟩
  · by_cases hcalls : s.transportCalls = []
    · exact .inl hcalls
    · obtain ⟨_, _, -, -, hwrap⟩ := hsound.published hcalls
      exact .inr hwrap
  · intro context hpc
    have hstage := hsound.stage
    rw [hpc] at hstage
    exact hstage.1
  · intro hstuck
    exact hsound.complete hstuck

end Runs

section Todo

-- A service with one method, after an example of the repository.
def todo : GeneratedService Unit where
  package := [⟨lit "todolist", by decide⟩]
  service := ⟨lit "Todo", by decide⟩
  methods := [⟨⟨lit "Find", by decide⟩, (), ()⟩]

def findRequest : TransportMessage :=
  toolTransportMsg ((stringProtobuf.payload ()).serializeAsString (lit "milk"))
    (stringProtobuf.requestHeader.serializeAsString ⟨lit "/todolist.Todo/Find"⟩)

abbrev todoMachine :
    Machine (Request Unit ℕ fun _ => Bytes) (RequestLabel Unit ℕ fun _ => Bytes) Fault :=
  requestMachine stringProtobuf (router ([todo].map GeneratedService.route)) (some findRequest) 1000

-- The user invokes the callback inside Begin, and the transport calls
-- EndProcessRequest inside its own.
def reentrant (err : Status) : List (RequestLabel Unit ℕ fun _ => Bytes) :=
  [.beginStep 0, .beginStep 0, .beginStep 0, .userInvoke (some 7), .invoke 0, .invoke 0, .invoke 0,
    .endStart .wrap, .endStep 0, .endStep 0, .endStep 0, .endReturn 0 err ⟨(), lit "found"⟩,
    .invoke 0, .userReturn .ok (some 7), .beginStep 0, .beginStep 0]

theorem begin_end_rendezvous_reentrant :
    ∃ s : Request Unit ℕ fun _ => Bytes,
      Rendezvous stringProtobuf (router ([todo].map GeneratedService.route)) (some findRequest) 1000
        (reentrant .ok) s ∧
      s.transportCalls = [some .wrap] ∧
      s.ends.map EndCall.calls =
        [[(⟨todo.package, todo.service, ⟨lit "Find", by decide⟩, ()⟩, some (.user 7))]] := by
  have hcalls : (todoMachine.reaches Contract [] new (reentrant .ok)).map transportCalls =
      some [some .wrap] := by decide
  have hends : (todoMachine.reaches Contract [] new (reentrant .ok)).map
      (fun s => s.ends.map EndCall.calls) = some
        [[(⟨todo.package, todo.service, ⟨lit "Find", by decide⟩, ()⟩, some (.user 7))]] := by
    decide
  obtain ⟨s, hs, hcalled⟩ := Option.map_eq_some_iff.mp hcalls
  rw [hs] at hends
  have hrun := Machine.Run.nil.reaches hs
  exact ⟨s, begin_end_rendezvous _ _ hrun, hcalled, Option.some.inj hends⟩

end Todo

end Request

end FabricRpc.V1
