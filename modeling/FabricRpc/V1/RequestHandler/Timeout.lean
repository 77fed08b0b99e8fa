import FabricRpc.V1.ClientHelpers
import FabricRpc.V1.Operation.Timeout
import FabricRpc.V1.RequestHandler.Completed

namespace FabricRpc.V1

open Lib

variable {σ υ : Type*} {Msg : σ → Type*}

-- What the clock says at the steps of BeginProcessRequest: after its start, after
-- routing, after the body was parsed, and later.
def elapsedOf : RequestLabel σ υ Msg → Option ℕ
  | .beginStep elapsed => some elapsed
  | _ => none

abbrev elapsedTimes (labels : List (RequestLabel σ υ Msg)) : List ℕ := labels.filterMap elapsedOf

theorem elapsedTimes_other {labels : List (RequestLabel σ υ Msg)} {label : RequestLabel σ υ Msg}
    (h : elapsedOf label = none) : elapsedTimes (labels ++ [label]) = elapsedTimes labels := by
  simp [elapsedTimes, h]

-- The places after the call of the user's Begin, or of none.
def BeginPc.begun : BeginPc σ υ → Bool
  | .start | .routed _ | .invoking _ _ => false
  | _ => true

namespace Request

-- The user's Begin was called with what is left after both stages.
def Budgeted (timeoutMilliseconds : UInt32) (times : List ℕ) (s : Request σ υ Msg) : Prop :=
  ∀ call ∈ s.beginCalls, ∃ e0 e1 e2 rest, times = e0 :: e1 :: e2 :: rest ∧
    call.timeoutMilliseconds = budget timeoutMilliseconds e1 e2

-- Where the timeouts come from, by the place BeginProcessRequest is at.
def Timed (timeoutMilliseconds : UInt32) (times : List ℕ) (s : Request σ υ Msg) : Prop :=
  match s.beginPc with
  | .start => times = [] ∧ s.beginCalls = []
  | .routed _ => (∃ e0, times = [e0]) ∧ s.beginCalls = []
  | .invoking _ timeout =>
      (∃ e0 e1, times = [e0, e1] ∧ timeout = newTimeout timeoutMilliseconds e1) ∧
        s.beginCalls = []
  | _ => s.Budgeted timeoutMilliseconds times

-- What the other calls leave alone.
structure SameBegin (s s' : Request σ υ Msg) : Prop where
  beginPc : s'.beginPc = s.beginPc
  beginCalls : s'.beginCalls = s.beginCalls

variable {pb : Protobuf σ Msg} {route : MiddleWare σ} {msg : FRPCTransportMessage}
  {timeoutMilliseconds : UInt32} {times : List ℕ} {s s' : Request σ υ Msg}

section Timed

theorem Budgeted.of_nil (h : s.beginCalls = []) : s.Budgeted timeoutMilliseconds times := by
  intro call hcall
  rw [h] at hcall
  exact absurd hcall List.not_mem_nil

theorem Budgeted.append (h : s.Budgeted timeoutMilliseconds times) (more : List ℕ) :
    s.Budgeted timeoutMilliseconds (times ++ more) := by
  intro call hcall
  obtain ⟨e0, e1, e2, rest, rfl, htimeout⟩ := h call hcall
  exact ⟨e0, e1, e2, rest ++ more, rfl, htimeout⟩

theorem Timed.budgeted (h : s.Timed timeoutMilliseconds times) :
    s.Budgeted timeoutMilliseconds times := by
  unfold Timed at h
  split at h
  · exact .of_nil h.2
  · exact .of_nil h.2
  · exact .of_nil h.2
  · exact h

theorem SameBegin.timed (hsame : SameBegin s s') (h : s.Timed timeoutMilliseconds times) :
    s'.Timed timeoutMilliseconds times := by
  unfold Timed Budgeted at *
  rw [hsame.beginPc, hsame.beginCalls]
  exact h

end Timed

section Same

theorem setEnd_same (i : ℕ) (call : EndCall σ υ Msg) : SameBegin s (s.setEnd i call) := ⟨rfl, rfl⟩

theorem invokeStep_same [DecidableEq υ] {i : ℕ} (hx : s.invokeStep i = .ok s') :
    SameBegin s s' := by
  rcases invokeStep_cases hx with rfl | ⟨inv, hinv, innerCtx, wrapCtx, transportCalls, pc, rfl⟩
  · exact ⟨rfl, rfl⟩
  · exact ⟨rfl, rfl⟩

theorem endStep_same {i : ℕ} (hx : s.endStep pb i = .ok s') : SameBegin s s' := by
  rcases endStep_cases hx with rfl | ⟨call, rfl⟩
  · exact ⟨rfl, rfl⟩
  · exact setEnd_same i call

theorem endStart_same {context : Ctx υ} (hx : s.endStart context = .ok s') : SameBegin s s' := by
  obtain rfl := endStart_ok hx
  exact ⟨rfl, rfl⟩

theorem endReturn_same {i : ℕ} {err : Status} {proto : Sigma Msg} :
    SameBegin s (s.endReturn pb i err proto) := by
  rcases endReturn_cases s err proto with heq | ⟨call, heq⟩
  · rw [heq]
    exact ⟨rfl, rfl⟩
  · rw [heq]
    exact setEnd_same i call

end Same

section Steps

-- The steps from the call of the user's Begin on.
theorem Budgeted.timed (h : s.Budgeted timeoutMilliseconds times) (hpc : s.beginPc.begun = true) :
    s.Timed timeoutMilliseconds times := by
  unfold Timed
  split
  · rename_i hstart
    exact absurd hpc (by simp [hstart, BeginPc.begun])
  · rename_i hrouted
    exact absurd hpc (by simp [hrouted, BeginPc.begun])
  · rename_i hinvoking
    exact absurd hpc (by simp [hinvoking, BeginPc.begun])
  · exact h

theorem Budgeted.timed_of (h : s.Budgeted timeoutMilliseconds times)
    (hcalls : s'.beginCalls = s.beginCalls) (hpc : s'.beginPc.begun = true) :
    s'.Timed timeoutMilliseconds times := by
  apply Budgeted.timed _ hpc
  unfold Budgeted
  rw [hcalls]
  exact h

theorem beginOperation_ok {M : Type*} {codec : Codec M} {body : Bytes} {timeout left : UInt32}
    {elapsed : ℕ} {request : M}
    (h : beginOperation codec body timeout elapsed = .ok (request, left)) :
    left = newTimeout timeout elapsed := by
  simp only [beginOperation] at h
  split at h
  · cases h
  · exact (Prod.mk.inj (Except.ok.inj h)).2.symm

variable [DecidableEq υ]

theorem beginStep_timed {elapsed : ℕ} (h : s.Timed timeoutMilliseconds times)
    (hx : s.beginStep pb route msg timeoutMilliseconds elapsed = .ok s') :
    s'.Timed timeoutMilliseconds (times ++ [elapsed]) := by
  have hlater := h.budgeted.append [elapsed]
  unfold Timed at h
  cases hpc : s.beginPc with
  | start =>
      simp only [hpc] at h
      simp only [beginStep, hpc] at hx
      obtain ⟨rfl, hcalls⟩ := h
      obtain rfl := Except.ok.inj hx
      cases hfailed : (parseRequest pb route msg).1.failed with
      | false => simp [Timed, hcalls]
      | true => exact Budgeted.timed (.of_nil hcalls) rfl
  | routed ops =>
      simp only [hpc] at h
      simp only [beginStep, hpc] at hx
      obtain ⟨⟨e0, rfl⟩, hcalls⟩ := h
      split at hx
      · cases hx
      · obtain rfl := Except.ok.inj hx
        exact ⟨⟨e0, elapsed, rfl, rfl⟩, hcalls⟩
  | invoking op timeout =>
      simp only [hpc] at h
      obtain ⟨⟨e0, e1, rfl, rfl⟩, hcalls⟩ := h
      cases op with
      | none => simp [beginStep, hpc] at hx
      | some op =>
          simp only [beginStep, hpc] at hx
          split at hx
          · obtain rfl := Except.ok.inj hx
            exact Budgeted.timed (.of_nil hcalls) rfl
          · rename_i request left hop
            obtain rfl := Except.ok.inj hx
            -- This is the call of the user's Begin.
            intro call hcall
            rw [hcalls, List.nil_append, List.mem_singleton] at hcall
            refine ⟨e0, e1, elapsed, [], rfl, ?_⟩
            rw [hcall, budget, beginOperation_ok hop]
  | inUser =>
      simp only [beginStep, hpc] at hx
      obtain rfl := Except.ok.inj hx
      exact hlater.timed (by rw [hpc]; rfl)
  | checked err ctx =>
      simp only [beginStep, hpc] at hx
      split at hx
      · cases hset : s.setInnerCtx ctx with
        | error fault => simp [hset, Except.map] at hx
        | ok next =>
            obtain ⟨innerCtx, rfl⟩ := setInnerCtx_ok hset
            rw [hset] at hx
            obtain rfl := Except.ok.inj hx
            exact hlater.timed_of rfl rfl
      · split at hx
        · cases hx
        · obtain rfl := Except.ok.inj hx
          exact hlater.timed_of rfl rfl
  | failed =>
      simp only [beginStep, hpc] at hx
      obtain rfl := Except.ok.inj hx
      exact hlater.timed_of rfl rfl
  | inCallback i =>
      simp only [beginStep, hpc] at hx
      obtain rfl := Except.ok.inj hx
      exact hlater.timed_of rfl rfl
  | returning =>
      simp only [beginStep, hpc] at hx
      obtain rfl := Except.ok.inj hx
      exact hlater.timed_of rfl rfl
  | returned context =>
      simp only [beginStep, hpc] at hx
      obtain rfl := Except.ok.inj hx
      exact hlater.timed (by rw [hpc]; rfl)

theorem exec_timed {message : Option TransportMessage} {labels : List (RequestLabel σ υ Msg)}
    {label : RequestLabel σ υ Msg} (h : s.Timed timeoutMilliseconds (elapsedTimes labels))
    (hx : s.exec pb route message timeoutMilliseconds label = .ok s') :
    s'.Timed timeoutMilliseconds (elapsedTimes (labels ++ [label])) := by
  cases label with
  | beginStep elapsed =>
      rw [elapsedTimes, List.filterMap_append]
      exact beginStep_timed h hx
  | userReturn err ctx =>
      obtain rfl := Except.ok.inj hx
      rw [elapsedTimes_other rfl]
      exact h.budgeted.timed_of rfl rfl
  | userInvoke ctx =>
      obtain rfl := Except.ok.inj hx
      rw [elapsedTimes_other rfl]
      exact SameBegin.timed ⟨rfl, rfl⟩ h
  | invoke i =>
      rw [elapsedTimes_other rfl]
      exact (invokeStep_same hx).timed h
  | endStart context =>
      rw [elapsedTimes_other rfl]
      exact (endStart_same hx).timed h
  | endStep i =>
      rw [elapsedTimes_other rfl]
      exact (endStep_same hx).timed h
  | endReturn i err proto =>
      obtain rfl := Except.ok.inj hx
      rw [elapsedTimes_other rfl]
      exact endReturn_same.timed h

-- A whole run.
theorem run_timed {message : Option TransportMessage} {labels : List (RequestLabel σ υ Msg)}
    (hrun : (requestMachine pb route message timeoutMilliseconds).Run Machine.anything new
      labels s) :
    s.Timed timeoutMilliseconds (elapsedTimes labels) :=
  hrun.invariant (fun labels s => s.Timed timeoutMilliseconds (elapsedTimes labels)) ⟨rfl, rfl⟩
    fun _ _ _ _ h _ _ hx => exec_timed h hx

end Steps

end Request

-- What is left after both stages: the difference, or nothing. Rounding each stage down
-- gives at most one millisecond away.
structure Saturates (timeoutMilliseconds : UInt32) (e1 e2 : ℕ) : Prop where
  eq_max : ((budget timeoutMilliseconds e1 e2).toNat : ℤ) =
    max 0 (timeoutMilliseconds.toNat - floorMs e1 - floorMs e2)
  le : budget timeoutMilliseconds e1 e2 ≤ timeoutMilliseconds
  mono : ∀ t', timeoutMilliseconds ≤ t' → budget timeoutMilliseconds e1 e2 ≤ budget t' e1 e2
  rounding : ((budget timeoutMilliseconds e1 e2).toNat : ℤ) ≤
    max 0 (timeoutMilliseconds.toNat - floorMs (e1 + e2)) + 1

theorem budget_saturates (timeoutMilliseconds : UInt32) (e1 e2 : ℕ) :
    Saturates timeoutMilliseconds e1 e2 where
  eq_max := budget_eq_max timeoutMilliseconds e1 e2
  le := budget_le timeoutMilliseconds e1 e2
  mono := fun _ h => budget_mono e1 e2 h
  rounding := budget_rounding timeoutMilliseconds e1 e2

theorem execClientBegin_timeout {pb : Protobuf σ Msg} {Req : Type*} {codec : Codec Req}
    {timeoutMilliseconds timeout : UInt32} {url : Bytes} {request : Req} {elapsed : ℕ}
    {beginRequest : TransportMessage → UInt32 → Int32} {sent : TransportMessage}
    (h : (execClientBegin pb codec timeoutMilliseconds url request elapsed beginRequest).2 =
      some (sent, timeout)) : timeout = newTimeout timeoutMilliseconds elapsed := by
  unfold execClientBegin at h
  split at h
  · cases h
  · exact (Prod.mk.inj (Option.some.inj h)).2.symm

-- In every run the user's Begin is called with what is left, and that saturates. The
-- client takes the same step, and so do the machine words.
theorem timeout_budget [DecidableEq υ] (pb : Protobuf σ Msg) (route : MiddleWare σ)
    (message : Option TransportMessage) {Req : Type*} (codec : Codec Req) :
    (∀ timeoutMilliseconds labels (s : Request σ υ Msg),
      (requestMachine pb route message timeoutMilliseconds).Run Machine.anything .new labels s →
      ∀ call ∈ s.beginCalls, ∃ e0 e1 e2 rest, elapsedTimes labels = e0 :: e1 :: e2 :: rest ∧
        call.timeoutMilliseconds = budget timeoutMilliseconds e1 e2) ∧
    (∀ timeoutMilliseconds e1 e2, Saturates timeoutMilliseconds e1 e2) ∧
    (∀ timeoutMilliseconds url request elapsed beginRequest sent timeout,
      (execClientBegin pb codec timeoutMilliseconds url request elapsed beginRequest).2 =
        some (sent, timeout) →
      (timeout.toNat : ℤ) = max 0 (timeoutMilliseconds.toNat - floorMs elapsed)) ∧
    (∀ timeoutMilliseconds (elapsed : Int64), 0 ≤ elapsed →
      newTimeoutWord timeoutMilliseconds elapsed =
        newTimeout timeoutMilliseconds elapsed.toNatClampNeg) := by
  refine ⟨?_, budget_saturates, ?_, ?_⟩
  · intro timeoutMilliseconds labels s hrun
    exact (Request.run_timed hrun).budgeted
  · intro timeoutMilliseconds url request elapsed beginRequest sent timeout hsent
    rw [execClientBegin_timeout hsent, newTimeout_toNat]
    omega
  · intro timeoutMilliseconds elapsed h
    exact newTimeoutWord_eq timeoutMilliseconds h

-- Almost two milliseconds, and almost one.
theorem timeout_budget_todo : ∃ labels s,
    Request.todoMachine.Run Machine.anything .new labels s ∧
    s.beginCalls.map BeginCall.timeoutMilliseconds = [999] := by
  let labels : List (RequestLabel Unit ℕ fun _ => Bytes) :=
    [.beginStep 0, .beginStep 1999999, .beginStep 999999]
  have hcalls : (Request.todoMachine.reaches Request.Contract [] .new labels).map
      (fun s => s.beginCalls.length) = some 1 := by decide
  obtain ⟨s, hs, hlength⟩ := Option.map_eq_some_iff.mp hcalls
  have hrun : Request.todoMachine.Run Machine.anything .new ([] ++ labels) s :=
    (Machine.Run.nil.reaches hs).weaken fun _ _ _ _ => trivial
  obtain ⟨call, hcall⟩ := List.length_eq_one_iff.mp hlength
  have hbudget := (timeout_budget stringProtobuf _ _ (stringProtobuf.payload ())).1 _ _ s hrun call
    (by simp [hcall])
  obtain ⟨e0, e1, e2, rest, htimes, htimeout⟩ := hbudget
  have htimes' : [0, 1999999, 999999] = e0 :: e1 :: e2 :: rest := htimes
  simp only [List.cons.injEq] at htimes'
  obtain ⟨-, rfl, rfl, -⟩ := htimes'
  refine ⟨labels, s, hrun, ?_⟩
  rw [hcall, List.map_singleton, htimeout]
  decide

end FabricRpc.V1
