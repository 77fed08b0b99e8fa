import FabricRpc.V1.RequestHandler

namespace FabricRpc.V1

open Lib

variable {σ υ : Type*} {Msg : σ → Type*}

namespace Request

-- The user's Begin has not failed, and has set no other context.
def MayHold (s : Request σ υ Msg) (u : υ) : Prop :=
  ∀ result ∈ s.outcome, result.1.failed = false ∧ result.2 = some u

instance [DecidableEq υ] (s : Request σ υ Msg) (u : υ) : Decidable (s.MayHold u) :=
  inferInstanceAs
    (Decidable (∀ result ∈ s.outcome, result.1.failed = false ∧ result.2 = some u))

theorem mayHold_of_none {s : Request σ υ Msg} (h : s.outcome = none) (u : υ) : s.MayHold u := by
  intro result hresult
  exact absurd (h.symm.trans hresult) (by simp)

theorem mayHold_of_result {s : Request σ υ Msg} {u : υ}
    (h : ∃ err, s.outcome = some (err, some u) ∧ err.failed = false) : s.MayHold u := by
  obtain ⟨err, hsome, herr⟩ := h
  intro result hresult
  obtain rfl : result = (err, some u) := Option.some.inj (hresult.symm.trans hsome)
  exact ⟨herr, rfl⟩

-- The begin/end contract of the user's service. A Begin that fails sets no
-- context and never invokes the callback. One that succeeds sets a context, and
-- the callback is invoked once with it, also before Begin returns.
def Contract (_ : List (RequestLabel σ υ Msg)) (s : Request σ υ Msg) :
    RequestLabel σ υ Msg → Prop
  | .userReturn err ctx =>
      if err.failed then ctx = none ∧ s.invocations = []
      else ∃ u ∈ ctx, ∀ inv ∈ s.invocations, inv.context = some (.user u)
  | .userInvoke ctx => s.invocations = [] ∧ ∃ u ∈ ctx, s.MayHold u
  | _ => True

instance [DecidableEq υ] (labels : List (RequestLabel σ υ Msg)) (s : Request σ υ Msg) :
    (label : RequestLabel σ υ Msg) → Decidable (Contract labels s label)
  | .userReturn err ctx => inferInstanceAs (Decidable (if err.failed then
      ctx = none ∧ s.invocations = []
      else ∃ u ∈ ctx, ∀ inv ∈ s.invocations, inv.context = some (.user u)))
  | .userInvoke ctx =>
      inferInstanceAs (Decidable (s.invocations = [] ∧ ∃ u ∈ ctx, s.MayHold u))
  | .beginStep _ | .invoke _ | .endStart _ | .endStep _ | .endReturn _ _ _ => .isTrue trivial

-- The steps that BeginProcessRequest and the callback may still take.
def beginRank : BeginPc σ υ → ℕ
  | .start => 8
  | .routed _ => 7
  | .invoking _ _ => 6
  | .inUser => 5
  | .checked _ _ => 4
  | .failed => 3
  | .inCallback _ => 2
  | .returning => 1
  | .returned _ => 0

def invokeRank : List (Invocation υ) → ℕ
  | [] => 5
  | ⟨_, .asserts⟩ :: _ => 4
  | ⟨_, .setInner⟩ :: _ => 3
  | ⟨_, .transport⟩ :: _ => 2
  | ⟨_, .release⟩ :: _ => 1
  | ⟨_, .done⟩ :: _ => 0

def rank (s : Request σ υ Msg) : ℕ := beginRank s.beginPc + invokeRank s.invocations

section Stages

variable (pb : Protobuf σ Msg) (route : MiddleWare σ) (msg : FRPCTransportMessage)
  (timeoutMilliseconds : UInt32)

def Routed (ops : Ops σ) : Prop :=
  ∃ ec, parseRequest pb route msg = (ec, ops) ∧ ec.failed = false

-- The user's Begin was called with the request, and the End operation is stored.
def Began (s : Request σ υ Msg) : Prop :=
  ∃ ops op endOp elapsed₁ elapsed₂ request timeout, Routed pb route msg ops ∧
    ops.beginOp = some op ∧ ops.endOp = some endOp ∧
    beginOperation (pb.payload op.proto) msg.body
      (newTimeout timeoutMilliseconds elapsed₁) elapsed₂ = .ok (request, timeout) ∧
    s.beginCalls = [⟨op, ⟨op.proto, request⟩, timeout⟩] ∧ s.endOp = some endOp

-- Where BeginProcessRequest fails, and with which status: up to the routing, on
-- the body, or in the user's Begin.
def BeginFailed (s : Request σ υ Msg) (st : Status) : Prop :=
  (s.beginCalls = [] ∧ ∃ ops, parseRequest pb route msg = (st, ops)) ∨
  (s.beginCalls = [] ∧ ∃ ops op timeout elapsed, Routed pb route msg ops ∧
    ops.beginOp = some op ∧
    beginOperation (pb.payload op.proto) msg.body timeout elapsed = .error st) ∨
  (s.Began pb route msg timeoutMilliseconds ∧ s.outcome = some (st, none))

-- No context was published.
def Untouched (s : Request σ υ Msg) : Prop := s.innerCtx = none ∧ s.invocations = []

-- The only context that is published is this one.
def Holds (s : Request σ υ Msg) (c : Ctx υ) : Prop :=
  (∀ inner, s.innerCtx = some inner → inner = c) ∧ ∀ inv ∈ s.invocations, inv.context = some c

-- The user's Begin succeeded with this context.
def Succeeded (s : Request σ υ Msg) (u : υ) : Prop :=
  s.Began pb route msg timeoutMilliseconds ∧ s.beginStatus.failed = false ∧
  (∃ err, s.outcome = some (err, some u) ∧ err.failed = false) ∧ s.Holds (.user u)

-- The status of the failure is stored.
def Stored (s : Request σ υ Msg) : Prop :=
  s.beginStatus.failed = true ∧ s.BeginFailed pb route msg timeoutMilliseconds s.beginStatus

-- What holds at each point of BeginProcessRequest.
def Stage (s : Request σ υ Msg) : BeginPc σ υ → Prop
  | .start => s.Untouched ∧ s.beginStatus.failed = false ∧ s.beginCalls = [] ∧ s.outcome = none
  | .routed ops =>
      s.Untouched ∧ s.beginStatus.failed = false ∧ s.beginCalls = [] ∧ s.outcome = none ∧
      Routed pb route msg ops
  | .invoking op timeout =>
      s.Untouched ∧ s.beginStatus.failed = false ∧ s.beginCalls = [] ∧ s.outcome = none ∧
      (∃ elapsed, timeout = newTimeout timeoutMilliseconds elapsed) ∧
      ∃ ops endOp, Routed pb route msg ops ∧ ops.beginOp = op ∧ ops.endOp = some endOp ∧
        s.endOp = some endOp
  | .inUser =>
      s.Began pb route msg timeoutMilliseconds ∧ s.beginStatus.failed = false ∧
      s.outcome = none ∧ (s.Untouched ∨ s.invocations ≠ [] ∧ ∃ u, s.Holds (.user u))
  | .checked err ctx =>
      (∃ u, ctx = some (.user u) ∧ err.failed = false ∧
        s.Succeeded pb route msg timeoutMilliseconds u) ∨
      (ctx = none ∧ err.failed = true ∧ s.beginStatus.failed = false ∧ s.Untouched ∧
        s.BeginFailed pb route msg timeoutMilliseconds err)
  | .failed => s.Stored pb route msg timeoutMilliseconds ∧ s.Untouched
  | .inCallback i =>
      s.Stored pb route msg timeoutMilliseconds ∧ s.Holds .dummy ∧ s.invocations.length = 1 ∧ i = 0
  | .returning =>
      (∃ u, s.Succeeded pb route msg timeoutMilliseconds u) ∨
      (s.Stored pb route msg timeoutMilliseconds ∧ s.Holds .dummy ∧
        s.invocations.map Invocation.pc = [.done])
  | .returned context =>
      context = .wrap ∧
      ((∃ u, s.Succeeded pb route msg timeoutMilliseconds u) ∨
      (s.Stored pb route msg timeoutMilliseconds ∧ s.Holds .dummy ∧
        s.invocations.map Invocation.pc = [.done]))

-- What holds at each point of the callback, of whose calls there is at most one.
def Callback (s : Request σ υ Msg) : List (Invocation υ) → Prop
  | [] => s.wrapCtx = some .wrap ∧ s.transportCalls = []
  | [⟨context, pc⟩] =>
      match pc with
      | .asserts | .setInner =>
          context.isSome ∧ s.wrapCtx = some .wrap ∧ s.transportCalls = []
      | .transport =>
          context.isSome ∧ s.innerCtx = context ∧ s.wrapCtx = some .wrap ∧ s.transportCalls = []
      | .release =>
          context.isSome ∧ s.innerCtx = context ∧ s.wrapCtx = some .wrap ∧
          s.transportCalls = [some .wrap]
      | .done =>
          context.isSome ∧ s.innerCtx = context ∧ s.wrapCtx = none ∧
          s.transportCalls = [some .wrap]
  | _ => False

-- What holds at each point of a call of EndProcessRequest.
def EndSound (beginStatus : Status) (endOp : Option (Operation σ)) (innerCtx : Option (Ctx υ))
    (call : EndCall σ υ Msg) : Prop :=
  match call.pc with
  | .reading => call.calls = [] ∧ call.result = none
  | .asserts | .invoking =>
      beginStatus.failed = false ∧ call.calls = [] ∧ call.result = none
  | .inUser op =>
      beginStatus.failed = false ∧ endOp = some op ∧ call.calls = [(op, innerCtx)] ∧
      call.result = none
  | .finished reply =>
      (beginStatus.failed = true ∧ call.calls = [] ∧ call.result = none ∧
        reply = makeReply pb beginStatus []) ∨
      (beginStatus.failed = false ∧ ∃ op err proto, endOp = some op ∧
        call.calls = [(op, innerCtx)] ∧ call.result = some (err, proto) ∧
        proto.1 = op.proto ∧ reply = endReply pb err proto)

structure Sound (s : Request σ υ Msg) : Prop where
  stage : s.Stage pb route msg timeoutMilliseconds s.beginPc
  callback : s.Callback s.invocations
  ended : s.ends ≠ [] → s.transportCalls ≠ []
  ends : ∀ call ∈ s.ends, EndSound pb s.beginStatus s.endOp s.innerCtx call

end Stages

-- A step ends without a fault, keeps the invariant and leaves fewer steps.
def Progresses (pb : Protobuf σ Msg) (route : MiddleWare σ) (msg : FRPCTransportMessage)
    (timeoutMilliseconds : UInt32) (s : Request σ υ Msg)
    (result : Except Fault (Request σ υ Msg)) : Prop :=
  ∃ s', result = .ok s' ∧ s'.Sound pb route msg timeoutMilliseconds ∧ s'.rank < s.rank

variable {pb : Protobuf σ Msg} {route : MiddleWare σ} {msg : FRPCTransportMessage}
  {timeoutMilliseconds : UInt32} {s : Request σ υ Msg}

theorem new_sound :
    (new : Request σ υ Msg).Sound pb route msg timeoutMilliseconds where
  stage := ⟨⟨rfl, rfl⟩, rfl, rfl, rfl⟩
  callback := ⟨rfl, rfl⟩
  ended := fun h => absurd rfl h
  ends := fun _ h => absurd h List.not_mem_nil

-- Before the callback is invoked nothing has reached the transport.
theorem Sound.quiet (h : s.Sound pb route msg timeoutMilliseconds) (hinv : s.invocations = []) :
    s.wrapCtx = some .wrap ∧ s.transportCalls = [] ∧ s.ends = [] := by
  have hcallback := h.callback
  rw [hinv] at hcallback
  obtain ⟨hwrap, hcalls⟩ := hcallback
  refine ⟨hwrap, hcalls, ?_⟩
  by_contra hends
  exact h.ended hends hcalls

-- There is at most one call of the callback.
theorem Sound.invocations_cases (h : s.Sound pb route msg timeoutMilliseconds) :
    s.invocations = [] ∨ ∃ inv, s.invocations = [inv] := by
  have hcallback := h.callback
  unfold Callback at hcallback
  split at hcallback
  · exact .inl ‹_›
  · exact .inr ⟨_, ‹_›⟩
  · exact hcallback.elim

-- Once the transport may call EndProcessRequest, a context is stored.
theorem Sound.published (h : s.Sound pb route msg timeoutMilliseconds)
    (hcalls : s.transportCalls ≠ []) :
    ∃ c pc, s.innerCtx = some c ∧ s.invocations = [⟨some c, pc⟩] ∧
      s.transportCalls = [some .wrap] := by
  have hcallback := h.callback
  unfold Callback at hcallback
  split at hcallback
  · exact absurd hcallback.2 hcalls
  · rename_i context pc hinv
    obtain ⟨c, rfl⟩ : ∃ c, context = some c := by
      apply Option.isSome_iff_exists.mp
      cases pc with
      | asserts => exact hcallback.1
      | setInner => exact hcallback.1
      | transport => exact hcallback.1
      | release => exact hcallback.1
      | done => exact hcallback.1
    cases pc with
    | asserts => exact absurd hcallback.2.2 hcalls
    | setInner => exact absurd hcallback.2.2 hcalls
    | transport => exact absurd hcallback.2.2.2 hcalls
    | release => exact ⟨c, _, hcallback.2.1, hinv, hcallback.2.2.2⟩
    | done => exact ⟨c, _, hcallback.2.1, hinv, hcallback.2.2.2⟩
  · exact hcallback.elim

section Begin

-- A step that only moves BeginProcessRequest on.
theorem Sound.move (h : s.Sound pb route msg timeoutMilliseconds) {pc : BeginPc σ υ}
    (hstage : Stage pb route msg timeoutMilliseconds { s with beginPc := pc } pc) :
    Sound pb route msg timeoutMilliseconds { s with beginPc := pc } :=
  ⟨hstage, h.callback, h.ended, h.ends⟩

-- A step before the callback is invoked.
theorem Sound.of_quiet {s' : Request σ υ Msg} (h : s.Sound pb route msg timeoutMilliseconds)
    (hinv : s.invocations = []) (hinv' : s'.invocations = []) (hwrap : s'.wrapCtx = s.wrapCtx)
    (hcalls : s'.transportCalls = s.transportCalls) (hends : s'.ends = s.ends)
    (hstage : Stage pb route msg timeoutMilliseconds s' s'.beginPc) :
    Sound pb route msg timeoutMilliseconds s' := by
  obtain ⟨hw, hc, he⟩ := h.quiet hinv
  refine ⟨hstage, ?_, ?_, ?_⟩
  · rw [hinv']
    exact ⟨hwrap.trans hw, hcalls.trans hc⟩
  · intro hne
    exact absurd (hends.trans he) hne
  · intro call hcall
    rw [hends, he] at hcall
    exact absurd hcall List.not_mem_nil

-- Calls of EndProcessRequest do not see a context stored again.
theorem Sound.ends_store (h : s.Sound pb route msg timeoutMilliseconds) {c : Ctx υ}
    (hholds : s.Holds c) :
    ∀ call ∈ s.ends, EndSound pb s.beginStatus s.endOp (some c) call := by
  intro call hcall
  obtain ⟨inner, pc, hinner, -, -⟩ := h.published (h.ended (List.ne_nil_of_mem hcall))
  obtain rfl := hholds.1 inner hinner
  rw [← hinner]
  exact h.ends call hcall

variable [DecidableEq υ]

theorem start_sound (h : s.Sound pb route msg timeoutMilliseconds) (hpc : s.beginPc = .start)
    (elapsed : ℕ) : s.Progresses pb route msg timeoutMilliseconds
      (s.beginStep pb route msg timeoutMilliseconds elapsed) := by
  have hstage := h.stage
  rw [hpc] at hstage
  obtain ⟨huntouched, hstatus, hcalls, houtcome⟩ := hstage
  obtain ⟨err, ops, hparse⟩ : ∃ err ops, parseRequest pb route msg = (err, ops) := ⟨_, _, rfl⟩
  cases herr : err.failed with
  | false =>
      refine ⟨{ s with beginPc := .routed ops }, by simp [beginStep, hpc, hparse, herr], ?_, ?_⟩
      · exact h.move ⟨huntouched, hstatus, hcalls, houtcome, err, hparse, herr⟩
      · simp [rank, hpc, beginRank]
  | true =>
      refine ⟨{ s with beginPc := .checked err none }, by simp [beginStep, hpc, hparse, herr],
        ?_, ?_⟩
      · exact h.move (.inr ⟨rfl, herr, hstatus, huntouched, .inl ⟨hcalls, ops, hparse⟩⟩)
      · simp [rank, hpc, beginRank]

theorem routed_sound {ops : Ops σ} (hbinds : ∀ ops, Routed pb route msg ops → ops.endOp.isSome)
    (h : s.Sound pb route msg timeoutMilliseconds) (hpc : s.beginPc = .routed ops)
    (elapsed : ℕ) : s.Progresses pb route msg timeoutMilliseconds
      (s.beginStep pb route msg timeoutMilliseconds elapsed) := by
  have hstage := h.stage
  rw [hpc] at hstage
  obtain ⟨huntouched, hstatus, hcalls, houtcome, hrouted⟩ := hstage
  obtain ⟨endOp, hend⟩ := Option.isSome_iff_exists.mp (hbinds ops hrouted)
  refine ⟨_, by simp only [beginStep, hpc, hend]; rfl, ?_, ?_⟩
  · refine h.of_quiet huntouched.2 huntouched.2 rfl rfl rfl ?_
    exact ⟨huntouched, hstatus, hcalls, houtcome, ⟨elapsed, rfl⟩, ops, endOp, hrouted, rfl, hend,
      rfl⟩
  · simp [rank, hpc, beginRank]

theorem invoking_sound {op : Option (Operation σ)} {timeout : UInt32}
    (hbinds : ∀ ops, Routed pb route msg ops → ops.beginOp.isSome)
    (h : s.Sound pb route msg timeoutMilliseconds) (hpc : s.beginPc = .invoking op timeout)
    (elapsed : ℕ) : s.Progresses pb route msg timeoutMilliseconds
      (s.beginStep pb route msg timeoutMilliseconds elapsed) := by
  have hstage := h.stage
  rw [hpc] at hstage
  obtain ⟨huntouched, hstatus, hcalls, houtcome, ⟨before, rfl⟩, ops, endOp, hrouted, hbegin, hend,
    hstored⟩ := hstage
  obtain ⟨op, rfl⟩ : ∃ o, op = some o := by
    rw [← hbegin]
    exact Option.isSome_iff_exists.mp (hbinds ops hrouted)
  cases hparse : beginOperation (pb.payload op.proto) msg.body
      (newTimeout timeoutMilliseconds before) elapsed with
  | error err =>
      refine ⟨_, by simp only [beginStep, hpc, hparse]; rfl, ?_, ?_⟩
      · refine h.move (.inr ⟨rfl, ?_, hstatus, huntouched,
          .inr (.inl ⟨hcalls, ops, op, _, elapsed, hrouted, hbegin, hparse⟩)⟩)
        rw [beginOperation_error hparse]
        rfl
      · simp [rank, hpc, beginRank]
  | ok called =>
      obtain ⟨request, timeout⟩ := called
      refine ⟨_, by simp only [beginStep, hpc, hparse]; rfl, ?_, ?_⟩
      · refine h.of_quiet huntouched.2 huntouched.2 rfl rfl rfl ?_
        refine ⟨⟨ops, op, endOp, before, elapsed, request, timeout, hrouted, hbegin, hend, hparse,
          ?_, hstored⟩, hstatus, houtcome, .inl huntouched⟩
        rw [hcalls]
        rfl
      · simp [rank, hpc, beginRank]

-- SetInnerCtx never finds another context.
theorem setInnerCtx_holds {c : Ctx υ} (h : s.Holds c) :
    s.setInnerCtx (some c) = .ok { s with innerCtx := some c } := by
  unfold setInnerCtx
  cases hinner : s.innerCtx with
  | none => rfl
  | some inner =>
      obtain rfl := h.1 inner hinner
      simp [← hinner]

theorem checked_sound {err : Status} {ctx : Option (Ctx υ)}
    (h : s.Sound pb route msg timeoutMilliseconds) (hpc : s.beginPc = .checked err ctx)
    (elapsed : ℕ) : s.Progresses pb route msg timeoutMilliseconds
      (s.beginStep pb route msg timeoutMilliseconds elapsed) := by
  have hstage := h.stage
  rw [hpc] at hstage
  rcases hstage with ⟨u, rfl, herr, hbegan, hstatus, houtcome, hholds⟩ |
    ⟨rfl, herr, hstatus, huntouched, hfailed⟩
  · refine ⟨{ s with innerCtx := some (.user u), beginPc := .returning }, ?_, ?_, ?_⟩
    · simp [beginStep, hpc, herr, setInnerCtx_holds hholds, Except.map]
    · refine ⟨.inl ⟨u, hbegan, hstatus, houtcome, ?_, hholds.2⟩, ?_, h.ended,
        h.ends_store hholds⟩
      · intro inner hinner
        exact (Option.some.inj hinner).symm
      · rcases h.invocations_cases with hinv | ⟨⟨context, pc⟩, hinv⟩
        · have hcallback := h.callback
          rw [hinv] at hcallback ⊢
          exact hcallback
        · have hcallback := h.callback
          have hcontext : context = some (.user u) := hholds.2 ⟨context, pc⟩ (by simp [hinv])
          rw [hinv] at hcallback ⊢
          cases pc with
          | asserts => exact hcallback
          | setInner => exact hcallback
          | transport => exact ⟨hcallback.1, hcontext.symm, hcallback.2.2⟩
          | release => exact ⟨hcallback.1, hcontext.symm, hcallback.2.2⟩
          | done => exact ⟨hcallback.1, hcontext.symm, hcallback.2.2⟩
    · simp [rank, hpc, beginRank]
  · refine ⟨{ s with beginStatus := err, beginPc := .failed }, by simp [beginStep, hpc, herr],
      ?_, ?_⟩
    · exact h.of_quiet huntouched.2 huntouched.2 rfl rfl rfl ⟨⟨herr, hfailed⟩, huntouched⟩
    · simp [rank, hpc, beginRank]

theorem failed_sound (h : s.Sound pb route msg timeoutMilliseconds) (hpc : s.beginPc = .failed)
    (elapsed : ℕ) : s.Progresses pb route msg timeoutMilliseconds
      (s.beginStep pb route msg timeoutMilliseconds elapsed) := by
  have hstage := h.stage
  rw [hpc] at hstage
  obtain ⟨hstored, hinner, hinv⟩ := hstage
  obtain ⟨hwrap, hcalls, hends⟩ := h.quiet hinv
  refine ⟨{ s with invocations := [⟨some .dummy, .asserts⟩], beginPc := .inCallback 0 },
    by simp [beginStep, hpc, hinv], ?_, ?_⟩
  · refine ⟨⟨hstored, ⟨?_, ?_⟩, rfl, rfl⟩, ⟨rfl, hwrap, hcalls⟩, h.ended, h.ends⟩
    · intro inner hstored
      exact absurd (hinner.symm.trans hstored) (by simp)
    · intro inv hmem
      rw [List.mem_singleton.mp hmem]
  · simp [rank, hpc, beginRank, hinv, invokeRank]

theorem inCallback_sound {i : ℕ} (h : s.Sound pb route msg timeoutMilliseconds)
    (hpc : s.beginPc = .inCallback i)
    (hdone : (s.invocations[i]?).map Invocation.pc = some .done)
    (elapsed : ℕ) : s.Progresses pb route msg timeoutMilliseconds
      (s.beginStep pb route msg timeoutMilliseconds elapsed) := by
  have hstage := h.stage
  rw [hpc] at hstage
  obtain ⟨hstored, hholds, hlength, rfl⟩ := hstage
  obtain ⟨inv, hinv⟩ := List.length_eq_one_iff.mp hlength
  have hpcs : s.invocations.map Invocation.pc = [.done] := by
    simp only [hinv, List.getElem?_cons_zero, Option.map_some, Option.some.injEq] at hdone
    simp [hinv, hdone]
  refine ⟨{ s with beginPc := .returning }, by simp [beginStep, hpc], ?_, ?_⟩
  · exact h.move (.inr ⟨hstored, hholds, hpcs⟩)
  · simp [rank, hpc, beginRank]

theorem returning_sound (h : s.Sound pb route msg timeoutMilliseconds)
    (hpc : s.beginPc = .returning) (elapsed : ℕ) :
    s.Progresses pb route msg timeoutMilliseconds
      (s.beginStep pb route msg timeoutMilliseconds elapsed) := by
  have hstage := h.stage
  rw [hpc] at hstage
  refine ⟨{ s with beginPc := .returned .wrap }, by simp [beginStep, hpc], ?_, ?_⟩
  · exact h.move ⟨rfl, hstage⟩
  · simp [rank, hpc, beginRank]

theorem beginStep_sound (hbinds : ∀ ops, Routed pb route msg ops →
      ops.beginOp.isSome ∧ ops.endOp.isSome)
    (h : s.Sound pb route msg timeoutMilliseconds) {elapsed : ℕ}
    (he : s.Enabled (.beginStep elapsed)) : s.Progresses pb route msg timeoutMilliseconds
      (s.beginStep pb route msg timeoutMilliseconds elapsed) := by
  cases hpc : s.beginPc with
  | start => exact start_sound h hpc elapsed
  | routed ops => exact routed_sound (fun ops hops => (hbinds ops hops).2) h hpc elapsed
  | invoking op timeout =>
      exact invoking_sound (fun ops hops => (hbinds ops hops).1) h hpc elapsed
  | inUser => simp [Enabled, beginReady, hpc] at he
  | checked err ctx => exact checked_sound h hpc elapsed
  | failed => exact failed_sound h hpc elapsed
  | inCallback i =>
      exact inCallback_sound h hpc (by simpa [Enabled, beginReady, hpc] using he) elapsed
  | returning => exact returning_sound h hpc elapsed
  | returned context => simp [Enabled, beginReady, hpc] at he

end Begin

section User

theorem userReturn_sound (h : s.Sound pb route msg timeoutMilliseconds) {err : Status}
    {ctx : Option υ} (he : s.Enabled (.userReturn err ctx))
    (hcontract : Contract [] s (.userReturn err ctx)) :
    s.Progresses pb route msg timeoutMilliseconds
      (.ok { s with beginPc := .checked err (ctx.map .user), outcome := some (err, ctx) }) := by
  have hpc : s.beginPc = .inUser := by
    cases hpc : s.beginPc <;> simp_all [Enabled, inUserBegin]
  have hstage := h.stage
  rw [hpc] at hstage
  obtain ⟨hbegan, hstatus, -, hheld⟩ := hstage
  refine ⟨_, rfl, ⟨?_, h.callback, h.ended, h.ends⟩, by simp [rank, hpc, beginRank]⟩
  cases herr : err.failed with
  | true =>
      simp only [Contract, herr, if_true] at hcontract
      obtain ⟨rfl, hinv⟩ := hcontract
      have huntouched : s.Untouched := by
        rcases hheld with huntouched | ⟨hne, -⟩
        · exact huntouched
        · exact absurd hinv hne
      exact .inr ⟨rfl, herr, hstatus, huntouched, .inr (.inr ⟨hbegan, rfl⟩)⟩
  | false =>
      simp only [Contract, herr, Bool.false_eq_true, if_false] at hcontract
      obtain ⟨u, rfl, hsame⟩ := hcontract
      refine .inl ⟨u, rfl, herr, hbegan, hstatus, ⟨err, rfl, herr⟩, ?_, hsame⟩
      intro inner hinner
      rcases hheld with huntouched | ⟨hne, v, hinners, hinvs⟩
      · exact absurd (huntouched.1.symm.trans hinner) (by simp)
      · obtain ⟨inv, hinv⟩ := List.exists_mem_of_ne_nil _ hne
        have hv : some (Ctx.user v) = some (Ctx.user u) :=
          (hinvs inv hinv).symm.trans (hsame inv hinv)
        rw [hinners inner hinner, Option.some.inj hv]

-- A failed begin never has the callback invoked by the user.
theorem BeginFailed.not_invoked {st : Status} {u : υ}
    (h : s.BeginFailed pb route msg timeoutMilliseconds st) (hcalls : s.beginCalls ≠ [])
    (houtcome : s.MayHold u) : False := by
  rcases h with ⟨hnone, -⟩ | ⟨hnone, -⟩ | ⟨-, hfailed⟩
  · exact hcalls hnone
  · exact hcalls hnone
  · exact absurd (houtcome _ hfailed).2 (by simp)

theorem Succeeded.invoked {u v : υ}
    (h : s.Succeeded pb route msg timeoutMilliseconds v)
    (houtcome : s.MayHold u) :
    Succeeded pb route msg timeoutMilliseconds
      { s with invocations := [⟨some (.user u), .asserts⟩] } v := by
  obtain ⟨hbegan, hstatus, ⟨err, hresult, herr⟩, hinner, -⟩ := h
  have huv : v = u := Option.some.inj (houtcome _ hresult).2
  refine ⟨hbegan, hstatus, ⟨err, hresult, herr⟩, hinner, ?_⟩
  intro inv hmem
  rw [List.mem_singleton.mp hmem, huv]

theorem userInvoke_sound (h : s.Sound pb route msg timeoutMilliseconds) {ctx : Option υ}
    (he : s.Enabled (.userInvoke ctx)) (hcontract : Contract [] s (.userInvoke ctx)) :
    s.Progresses pb route msg timeoutMilliseconds
      (.ok { s with invocations := s.invocations ++ [⟨ctx.map .user, .asserts⟩] }) := by
  obtain ⟨hinv, u, rfl, houtcome⟩ := hcontract
  obtain ⟨hwrap, hcalls, hends⟩ := h.quiet hinv
  have hbegun : s.beginCalls ≠ [] := he
  rw [hinv]
  refine ⟨_, rfl, ⟨?_, ⟨rfl, hwrap, hcalls⟩, h.ended, h.ends⟩, by simp [rank, hinv, invokeRank]⟩
  have hstage := h.stage
  show Stage pb route msg timeoutMilliseconds _ s.beginPc
  cases hpc : s.beginPc with
  | start =>
      rw [hpc] at hstage
      exact absurd hstage.2.2.1 hbegun
  | routed ops =>
      rw [hpc] at hstage
      exact absurd hstage.2.2.1 hbegun
  | invoking op timeout =>
      rw [hpc] at hstage
      exact absurd hstage.2.2.1 hbegun
  | inUser =>
      rw [hpc] at hstage
      obtain ⟨hbegan, hstatus, hnone, huntouched | ⟨hne, -⟩⟩ := hstage
      · refine ⟨hbegan, hstatus, hnone, .inr ⟨by simp, u, ?_, ?_⟩⟩
        · intro inner hinner
          exact absurd (huntouched.1.symm.trans hinner) (by simp)
        · intro inv hmem
          rw [List.mem_singleton.mp hmem]
          rfl
      · exact absurd hinv hne
  | checked err ctx =>
      rw [hpc] at hstage
      rcases hstage with ⟨v, hctx, herr, hsucceeded⟩ | ⟨-, -, -, -, hfailed⟩
      · exact .inl ⟨v, hctx, herr, hsucceeded.invoked houtcome⟩
      · exact (hfailed.not_invoked hbegun houtcome).elim
  | failed =>
      rw [hpc] at hstage
      exact (hstage.1.2.not_invoked hbegun houtcome).elim
  | inCallback i =>
      rw [hpc] at hstage
      exact (hstage.1.2.not_invoked hbegun houtcome).elim
  | returning =>
      rw [hpc] at hstage
      rcases hstage with ⟨v, hsucceeded⟩ | ⟨hstored, -⟩
      · exact .inl ⟨v, hsucceeded.invoked houtcome⟩
      · exact (hstored.2.not_invoked hbegun houtcome).elim
  | returned context =>
      rw [hpc] at hstage
      rcases hstage with ⟨hcontext, ⟨v, hsucceeded⟩ | ⟨hstored, -⟩⟩
      · exact ⟨hcontext, .inl ⟨v, hsucceeded.invoked houtcome⟩⟩
      · exact (hstored.2.not_invoked hbegun houtcome).elim

end User

end Request

end FabricRpc.V1
