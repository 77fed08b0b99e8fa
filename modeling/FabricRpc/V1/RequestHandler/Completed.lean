import FabricRpc.V1.RequestHandler.Rendezvous

namespace FabricRpc.V1

open Lib

variable {σ υ : Type*} {Msg : σ → Type*}

-- AsyncAnyCtx, which the transport gets as the context of the request. Its
-- members do not look at the payload.
def isCompleted (_ : Request σ υ Msg) : Bool := true

def completedSynchronously (_ : Request σ υ Msg) : Bool := true

namespace Request

-- FRPCOperationCallback::Invoke was called, by the user or by the error path.
def completed (s : Request σ υ Msg) : Bool := !s.invocations.isEmpty

-- The context that BeginProcessRequest has returned.
def returnedContext (s : Request σ υ Msg) : Option (Ctx υ) :=
  match s.beginPc with
  | .returned context => some context
  | _ => none

def returned (s : Request σ υ Msg) : Bool := s.returnedContext.isSome

-- What a step does to what the transport can see, and to the return of
-- BeginProcessRequest.
structure Advances (s : Request σ υ Msg) (label : RequestLabel σ υ Msg)
    (s' : Request σ υ Msg) : Prop where
  completed : s.completed = true → s'.completed = true
  called : s'.transportCalls ≠ [] → s.transportCalls ≠ [] ∨ s.completed = true
  ended : s'.ends ≠ [] → s.ends ≠ [] ∨ ∃ context, label = .endStart context
  returned : s'.returned = true → s.returned = true ∨ (s.beginPc = .returning ∧
    (∃ elapsed, label = .beginStep elapsed) ∧ s'.completed = s.completed)
  stays : s.returned = true → s'.returned = true

variable {s s' : Request σ υ Msg} {label : RequestLabel σ υ Msg}

theorem completed_iff : s.completed = true ↔ s.invocations ≠ [] := by
  simp [completed]

-- A step that leaves BeginProcessRequest where it is.
theorem Advances.of_same (hinv : s.invocations ≠ [] → s'.invocations ≠ [])
    (hcalls : s'.transportCalls ≠ [] → s.transportCalls ≠ [] ∨ s.completed = true)
    (hends : s'.ends ≠ [] → s.ends ≠ [] ∨ ∃ context, label = .endStart context)
    (hpc : s'.beginPc = s.beginPc) : Advances s label s' where
  completed := fun h => completed_iff.mpr (hinv (completed_iff.mp h))
  called := hcalls
  ended := hends
  returned := fun h => .inl (by simpa [Request.returned, returnedContext, hpc] using h)
  stays := fun h => by simpa [Request.returned, returnedContext, hpc] using h

-- A step of BeginProcessRequest that does not return.
theorem Advances.of_begin (hinv : s.invocations ≠ [] → s'.invocations ≠ [])
    (hcalls : s'.transportCalls = s.transportCalls) (hends : s'.ends = s.ends)
    (hpc : s.returned = false) (hpc' : s'.returned = false) : Advances s label s' where
  completed := fun h => completed_iff.mpr (hinv (completed_iff.mp h))
  called := fun h => .inl (hcalls ▸ h)
  ended := fun h => .inl (hends ▸ h)
  returned := fun h => absurd (hpc'.symm.trans h) (by simp)
  stays := fun h => absurd (hpc.symm.trans h) (by simp)

variable [DecidableEq υ]

theorem beginStep_advances {pb : Protobuf σ Msg} {route : MiddleWare σ}
    {msg : FRPCTransportMessage} {timeoutMilliseconds : UInt32} {elapsed : ℕ}
    (henabled : s.beginReady = true)
    (hx : s.beginStep pb route msg timeoutMilliseconds elapsed = .ok s') :
    Advances s (.beginStep elapsed) s' := by
  have hgone {pc : BeginPc σ υ} (hpc : s.beginPc = pc) (hne : ∀ context, pc ≠ .returned context) :
      s.returned = false := by
    unfold Request.returned returnedContext
    split
    · rename_i context hreturned
      exact absurd (hpc.symm.trans hreturned) (hne context)
    · rfl
  cases hpc : s.beginPc with
  | start =>
      simp only [beginStep, hpc] at hx
      obtain rfl := Except.ok.inj hx
      refine .of_begin id rfl rfl (hgone hpc (by simp)) ?_
      cases (parseRequest pb route msg).1.failed <;> rfl
  | routed ops =>
      simp only [beginStep, hpc] at hx
      split at hx
      · cases hx
      · obtain rfl := Except.ok.inj hx
        exact .of_begin id rfl rfl (hgone hpc (by simp)) rfl
  | invoking op timeout =>
      cases op with
      | none => simp [beginStep, hpc] at hx
      | some op =>
          simp only [beginStep, hpc] at hx
          split at hx
          · obtain rfl := Except.ok.inj hx
            exact .of_begin id rfl rfl (hgone hpc (by simp)) rfl
          · obtain rfl := Except.ok.inj hx
            exact .of_begin id rfl rfl (hgone hpc (by simp)) rfl
  | inUser => simp [beginReady, hpc] at henabled
  | checked err ctx =>
      simp only [beginStep, hpc] at hx
      split at hx
      · cases hset : s.setInnerCtx ctx with
        | error fault => simp [hset, Except.map] at hx
        | ok next =>
            obtain ⟨innerCtx, rfl⟩ := setInnerCtx_ok hset
            rw [hset] at hx
            obtain rfl := Except.ok.inj hx
            exact .of_begin id rfl rfl (hgone hpc (by simp)) rfl
      · split at hx
        · cases hx
        · obtain rfl := Except.ok.inj hx
          exact .of_begin id rfl rfl (hgone hpc (by simp)) rfl
  | failed =>
      simp only [beginStep, hpc] at hx
      obtain rfl := Except.ok.inj hx
      exact .of_begin (fun _ => by simp) rfl rfl (hgone hpc (by simp)) rfl
  | inCallback i =>
      simp only [beginStep, hpc] at hx
      obtain rfl := Except.ok.inj hx
      exact .of_begin id rfl rfl (hgone hpc (by simp)) rfl
  | returning =>
      simp only [beginStep, hpc] at hx
      obtain rfl := Except.ok.inj hx
      exact ⟨id, .inl, .inl, fun _ => .inr ⟨hpc, ⟨elapsed, rfl⟩, rfl⟩, fun _ => rfl⟩
  | returned context => simp [beginReady, hpc] at henabled

omit [DecidableEq υ] in
theorem advance_ne_nil {i : ℕ} {pc : InvokePc} (h : s.invocations ≠ []) :
    (s.advance i pc).invocations ≠ [] := by
  rw [advance, ← List.length_pos_iff] at *
  simpa using h

theorem invokeStep_advances {i : ℕ} (hx : s.invokeStep i = .ok s') :
    Advances s (.invoke i) s' := by
  rcases invokeStep_cases hx with rfl | ⟨inv, hinv, innerCtx, wrapCtx, transportCalls, pc, rfl⟩
  · exact .of_same id .inl .inl rfl
  · have hcompleted : s.completed = true :=
      completed_iff.mpr (List.ne_nil_of_mem (List.mem_of_getElem? hinv))
    exact .of_same advance_ne_nil (fun _ => .inr hcompleted) .inl rfl

omit [DecidableEq υ] in
theorem setEnd_advances {i : ℕ} (call : EndCall σ υ Msg) : Advances s label (s.setEnd i call) := by
  refine .of_same id .inl (fun h => .inl ?_) rfl
  intro hnil
  simp [setEnd, hnil] at h

omit [DecidableEq υ] in
theorem endStep_advances {pb : Protobuf σ Msg} {i : ℕ} (hx : s.endStep pb i = .ok s') :
    Advances s (.endStep i) s' := by
  rcases endStep_cases hx with rfl | ⟨call, rfl⟩
  · exact .of_same id .inl .inl rfl
  · exact setEnd_advances call

theorem exec_advances {pb : Protobuf σ Msg} {route : MiddleWare σ}
    {message : Option TransportMessage} {timeoutMilliseconds : UInt32}
    (henabled : (∀ context, label ≠ .endStart context) → s.Enabled label)
    (hx : s.exec pb route message timeoutMilliseconds label = .ok s') : Advances s label s' := by
  cases label with
  | beginStep elapsed => exact beginStep_advances (henabled (by simp)) hx
  | userReturn err ctx =>
      have hpc : s.inUserBegin = true := henabled (by simp)
      obtain rfl := Except.ok.inj hx
      refine .of_begin id rfl rfl ?_ rfl
      unfold inUserBegin at hpc
      unfold Request.returned returnedContext
      split at hpc
      · rename_i hin
        simp [hin]
      · cases hpc
  | userInvoke ctx =>
      obtain rfl := Except.ok.inj hx
      exact .of_same (fun _ => by simp) .inl .inl rfl
  | invoke i => exact invokeStep_advances hx
  | endStart context =>
      obtain rfl := endStart_ok hx
      exact .of_same id .inl (fun _ => .inr ⟨context, rfl⟩) rfl
  | endStep i => exact endStep_advances hx
  | endReturn i err proto =>
      obtain rfl := Except.ok.inj hx
      rcases endReturn_cases s err proto with heq | ⟨call, heq⟩
      · rw [heq]
        exact .of_same id .inl .inl rfl
      · rw [heq]
        exact setEnd_advances call

end Request

-- A request whose transport polls the context. At the return of
-- BeginProcessRequest it is noted whether the operation had completed.
structure Polled (σ υ : Type*) (Msg : σ → Type*) where
  request : Request σ υ Msg
  atReturn : Option Bool

namespace Polled

def new : Polled σ υ Msg := ⟨.new, none⟩

-- The transport has the context, from the return or from its callback.
def Given (s : Polled σ υ Msg) (context : Ctx υ) : Prop :=
  s.request.returnedContext = some context ∨ some context ∈ s.request.transportCalls

-- EndProcessRequest is called as soon as the context reports completion.
def Enabled (s : Polled σ υ Msg) : RequestLabel σ υ Msg → Prop
  | .endStart context => s.Given context ∧ isCompleted s.request = true
  | label => s.request.Enabled label

-- The operation completed before BeginProcessRequest returned.
def CompletedInBegin (s : Polled σ υ Msg) : Prop :=
  s.atReturn.getD s.request.completed = true

-- The context claims only what is so, and user End operations are only called
-- on operations that have completed.
structure Truthful (s : Polled σ υ Msg) : Prop where
  isCompleted : ∀ context, s.Given context → isCompleted s.request = true →
    s.request.completed = true
  completedSynchronously : ∀ context, s.Given context → completedSynchronously s.request = true →
    s.CompletedInBegin
  ends : ∀ call ∈ s.request.ends, call.calls ≠ [] → s.request.completed = true

end Polled

section Poll

variable [DecidableEq υ]

def pollingMachine (pb : Protobuf σ Msg) (route : MiddleWare σ) (message : Option TransportMessage)
    (timeoutMilliseconds : UInt32) : Machine (Polled σ υ Msg) (RequestLabel σ υ Msg) Fault where
  enabled := Polled.Enabled
  exec s label :=
    match s.request.exec pb route message timeoutMilliseconds label with
    | .error fault => .error fault
    | .ok request => .ok
        ⟨request, if s.atReturn.isNone ∧ request.returned then some request.completed
          else s.atReturn⟩

namespace Polled

variable {pb : Protobuf σ Msg} {route : MiddleWare σ} {message : Option TransportMessage}
  {timeoutMilliseconds : UInt32} {s s' : Polled σ υ Msg} {label : RequestLabel σ υ Msg}
  {labels : List (RequestLabel σ υ Msg)}

-- What holds as long as no context was returned too early.
structure Timely (s : Polled σ υ Msg) : Prop where
  called : s.request.transportCalls ≠ [] → s.request.completed = true
  ended : s.request.ends ≠ [] → s.request.completed = true
  returned : s.request.returned = true → s.request.completed = true ∧ s.atReturn = some true
  unreturned : s.request.returned = false → s.atReturn = none

-- BeginProcessRequest returns only after the callback was invoked.
def ReturnsCompleted (s : Polled σ υ Msg) (label : RequestLabel σ υ Msg) : Prop :=
  ∀ elapsed, label = .beginStep elapsed → s.request.beginPc = .returning →
    s.request.completed = true

omit [DecidableEq υ] in
theorem Given.completed {context : Ctx υ} (hgiven : s.Given context) (h : Timely s) :
    s.request.completed = true := by
  rcases hgiven with hpc | hmem
  · exact (h.returned (by simp [Request.returned, hpc])).1
  · exact h.called (List.ne_nil_of_mem hmem)

omit [DecidableEq υ] in
theorem Timely.truthful (h : Timely s) : Truthful s where
  isCompleted := fun _ hgiven _ => hgiven.completed h
  completedSynchronously := by
    intro context hgiven _
    rw [CompletedInBegin]
    cases hpc : s.request.returned with
    | true => rw [(h.returned hpc).2]; rfl
    | false => rw [h.unreturned hpc]; exact hgiven.completed h
  ends := fun call hcall _ => h.ended (List.ne_nil_of_mem hcall)

theorem exec_ok (hx : (pollingMachine pb route message timeoutMilliseconds).exec s label = .ok s') :
    s.request.exec pb route message timeoutMilliseconds label = .ok s'.request ∧
      s'.atReturn = if s.atReturn.isNone ∧ s'.request.returned then some s'.request.completed
        else s.atReturn := by
  simp only [pollingMachine] at hx
  split at hx
  · cases hx
  · rename_i request hrequest
    obtain rfl := Except.ok.inj hx
    exact ⟨hrequest, rfl⟩

theorem exec_advances (henabled : s.Enabled label)
    (hx : (pollingMachine pb route message timeoutMilliseconds).exec s label = .ok s') :
    s.request.Advances label s'.request := by
  refine Request.exec_advances (fun hne => ?_) (exec_ok hx).1
  cases label with
  | endStart context => exact absurd rfl (hne context)
  | _ => exact henabled

theorem exec_timely (h : Timely s) (hreturns : s.ReturnsCompleted label)
    (henabled : s.Enabled label)
    (hx : (pollingMachine pb route message timeoutMilliseconds).exec s label = .ok s') :
    Timely s' := by
  have ha := exec_advances henabled hx
  have hat := (exec_ok hx).2
  refine ⟨?_, ?_, ?_, ?_⟩
  · intro hcalls
    apply ha.completed
    rcases ha.called hcalls with hold | hcompleted
    · exact h.called hold
    · exact hcompleted
  · intro hends
    apply ha.completed
    rcases ha.ended hends with hold | ⟨context, rfl⟩
    · exact h.ended hold
    · exact henabled.1.completed h
  · intro hpc
    rcases ha.returned hpc with hold | ⟨hreturning, ⟨elapsed, rfl⟩, hsame⟩
    · obtain ⟨hcompleted, hnoted⟩ := h.returned hold
      refine ⟨ha.completed hcompleted, ?_⟩
      rw [hat, hnoted]
      rfl
    · have hcompleted := hreturns elapsed rfl hreturning
      have hnone : s.atReturn = none := h.unreturned
        (by simp [Request.returned, Request.returnedContext, hreturning])
      rw [hat, hnone, hpc, hsame, hcompleted]
      exact ⟨rfl, rfl⟩
  · intro hpc
    have hold : s.request.returned = false := by
      cases hold : s.request.returned with
      | false => rfl
      | true => exact absurd (hpc.symm.trans (ha.stays hold)) (by simp)
    rw [hat, h.unreturned hold, hpc]
    rfl

-- A step makes the context claim too much exactly if it is the return of
-- BeginProcessRequest before the callback was invoked.
theorem exec_truthful_iff (h : Timely s) (henabled : s.Enabled label)
    (hx : (pollingMachine pb route message timeoutMilliseconds).exec s label = .ok s') :
    Truthful s' ↔ s.ReturnsCompleted label := by
  refine ⟨?_, fun hreturns => (exec_timely h hreturns henabled hx).truthful⟩
  rintro htruthful elapsed rfl hpc
  have hrequest := (exec_ok hx).1
  simp only [Request.exec, Request.beginStep, hpc] at hrequest
  have hsame := Except.ok.inj hrequest
  have hcompleted := htruthful.isCompleted .wrap (.inl (by rw [← hsame]; rfl)) rfl
  rw [← hsame] at hcompleted
  exact hcompleted

omit [DecidableEq υ] in
theorem new_timely : Timely (new : Polled σ υ Msg) where
  called := fun h => absurd rfl h
  ended := fun h => absurd rfl h
  returned := fun h => absurd h
    (by simp [new, Request.new, Request.returned, Request.returnedContext])
  unreturned := fun _ => rfl

-- The runs whose contexts only claim what is so are exactly those in which
-- BeginProcessRequest returns after the callback was invoked, whatever else is
-- promised of the surroundings.
theorem claims_truthful_iff_returns_completed (pb : Protobuf σ Msg) (route : MiddleWare σ)
    (message : Option TransportMessage) (timeoutMilliseconds : UInt32)
    (allow : List (RequestLabel σ υ Msg) → Polled σ υ Msg → RequestLabel σ υ Msg → Prop) :
    (pollingMachine pb route message timeoutMilliseconds).Run (fun labels s label =>
        allow labels s label ∧ ∀ s', (pollingMachine pb route message timeoutMilliseconds).exec s
          label = .ok s' → Truthful s') new labels s ↔
      (pollingMachine pb route message timeoutMilliseconds).Run (fun labels s label =>
        allow labels s label ∧ s.ReturnsCompleted label) new labels s := by
  apply Machine.Run.congr fun _ s => Timely s
  · exact new_timely
  · exact fun _ _ _ _ h hallow henabled hx => exec_timely h hallow.2 henabled hx
  · intro labels s label s' h henabled hx
    rw [← exec_truthful_iff h henabled hx]
    constructor
    · exact fun hallow => ⟨hallow.1, hallow.2 s' hx⟩
    · rintro ⟨hallow, hnext⟩
      refine ⟨hallow, fun next hnextx => ?_⟩
      obtain rfl : s' = next := Except.ok.inj (hx.symm.trans hnextx)
      exact hnext

-- And in these runs they do so in every state.
theorem run_truthful
    (hrun : (pollingMachine pb route message timeoutMilliseconds).Run
      (fun _ s label => s.ReturnsCompleted label) new labels s) : Truthful s := by
  have htimely := hrun.state_invariant Timely new_timely
    fun _ _ _ _ h hreturns henabled hx => exec_timely h hreturns henabled hx
  exact htimely.truthful

end Polled

end Poll

namespace Polled

open Request (todo findRequest Contract)

instance [DecidableEq σ] [DecidableEq υ] (s : Polled σ υ Msg) :
    (label : RequestLabel σ υ Msg) → Decidable (s.Enabled label)
  | .endStart context => inferInstanceAs (Decidable
      ((s.request.returnedContext = some context ∨ some context ∈ s.request.transportCalls) ∧
        isCompleted s.request = true))
  | .beginStep elapsed => inferInstanceAs (Decidable (s.request.Enabled (.beginStep elapsed)))
  | .userReturn err ctx => inferInstanceAs (Decidable (s.request.Enabled (.userReturn err ctx)))
  | .userInvoke ctx => inferInstanceAs (Decidable (s.request.Enabled (.userInvoke ctx)))
  | .invoke i => inferInstanceAs (Decidable (s.request.Enabled (.invoke i)))
  | .endStep i => inferInstanceAs (Decidable (s.request.Enabled (.endStep i)))
  | .endReturn i err proto =>
      inferInstanceAs (Decidable (s.request.Enabled (.endReturn i err proto)))

instance [DecidableEq σ] [DecidableEq υ] (pb : Protobuf σ Msg) (route : MiddleWare σ)
    (message : Option TransportMessage) (timeoutMilliseconds : UInt32) (s : Polled σ υ Msg)
    (label : RequestLabel σ υ Msg) :
    Decidable ((pollingMachine pb route message timeoutMilliseconds).enabled s label) :=
  inferInstanceAs (Decidable (s.Enabled label))

abbrev todoPolled : Machine (Polled Unit ℕ fun _ => Bytes)
    (RequestLabel Unit ℕ fun _ => Bytes) Fault :=
  pollingMachine stringProtobuf (router ([todo].map GeneratedService.route)) (some findRequest) 1000

-- The begin/end contract of the user's service.
def Contracted (labels : List (RequestLabel σ υ Msg)) (s : Polled σ υ Msg)
    (label : RequestLabel σ υ Msg) : Prop :=
  Contract labels s.request label

instance [DecidableEq υ] (labels : List (RequestLabel σ υ Msg)) (s : Polled σ υ Msg)
    (label : RequestLabel σ υ Msg) : Decidable (Contracted labels s label) :=
  inferInstanceAs (Decidable (Contract labels s.request label))

-- Up to the call of the user's End operation.
def early : List (RequestLabel Unit ℕ fun _ => Bytes) :=
  [.beginStep 0, .beginStep 0, .beginStep 0, .userReturn .ok (some 7), .beginStep 0, .beginStep 0,
    .endStart .wrap, .endStep 0, .endStep 0, .endStep 0]

-- The user's Begin returns and will invoke the callback later. The transport
-- sees a completed context and ends the operation.
theorem polled_end_runs_on_unfinished_operation :
    ∃ s : Polled Unit ℕ fun _ => Bytes,
      todoPolled.Run Contracted new early s ∧
      s.request.completed = false ∧
      s.request.ends.map EndCall.calls =
        [[(⟨todo.package, todo.service, ⟨lit "Find", by decide⟩, ()⟩, some (.user 7))]] ∧
      ¬Truthful s := by
  have hstate : (todoPolled.reaches Contracted [] new early).map (fun s =>
      (s.request.returnedContext, s.request.completed)) = some (some .wrap, false) := by decide
  have hends : (todoPolled.reaches Contracted [] new early).map
      (fun s => s.request.ends.map EndCall.calls) = some
        [[(⟨todo.package, todo.service, ⟨lit "Find", by decide⟩, ()⟩, some (.user 7))]] := by
    decide
  obtain ⟨s, hs, hseen⟩ := Option.map_eq_some_iff.mp hstate
  obtain ⟨hreturned, hcompleted⟩ := Prod.mk.inj hseen
  rw [hs] at hends
  refine ⟨s, Machine.Run.nil.reaches hs, hcompleted, Option.some.inj hends, ?_⟩
  intro h
  exact absurd (hcompleted.symm.trans (h.isCompleted .wrap (.inl hreturned) rfl)) (by simp)

end Polled

end FabricRpc.V1
