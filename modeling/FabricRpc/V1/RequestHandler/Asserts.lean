import FabricRpc.V1.RequestHandler.Rendezvous

namespace FabricRpc.V1

open Lib

-- The assertions on what is sent, which the release build leaves out.
inductive EndFault where
  | bodyNotSerialized
  | messageEmpty
  | headerNotSerialized
  deriving DecidableEq

variable {σ υ : Type*} {Msg : σ → Type*}

-- The end of EndProcessRequest, with the assertion on the serialisation.
def assertedReply (pb : Protobuf σ Msg) (err : Status) (replyStr : Bytes) :
    Except EndFault TransportMessage :=
  let (_, ok) := serializeReplyHeader pb ⟨err.errorCode, err.errorMessage⟩
  if !ok then .error .headerNotSerialized else .ok (makeReply pb err replyStr)

-- EndProcessRequest on a failure of begin.
def beginErrorReply (pb : Protobuf σ Msg) (beginErr : Status) : Except EndFault TransportMessage :=
  assertedReply pb beginErr []

-- EndProcessRequest from the return of the user's End operation, with the
-- assertions of EndOperation::Invoke and its own.
def assertedEndReply (pb : Protobuf σ Msg) (err : Status) (proto : Sigma Msg) :
    Except EndFault TransportMessage :=
  let (_, ok) := (pb.payload proto.1).serializeToString proto.2
  if !err.failed && !ok then .error .bodyNotSerialized
  else
    let (err, replyStr) := endOperation (pb.payload proto.1) err proto.2
    let replyStr := if err.failed then [] else replyStr
    if err.errorMessage.length = 0 then .error .messageEmpty
    else assertedReply pb err replyStr

-- The assertions leave the reply alone.
theorem assertedReply_ok {pb : Protobuf σ Msg} {err : Status} {replyStr : Bytes}
    (h : pb.replyHeader.Serializes ⟨err.errorCode, err.errorMessage⟩) :
    assertedReply pb err replyStr = .ok (makeReply pb err replyStr) := by
  simp only [assertedReply, serializeReplyHeader, Codec.serializeToString_eq h, Bool.not_true,
    Bool.false_eq_true, if_false]

theorem assertedEndReply_failed (pb : Protobuf σ Msg) {err : Status} (herr : err.failed = true)
    (proto : Sigma Msg) : assertedEndReply pb err proto =
      if err.errorMessage = [] then .error .messageEmpty else beginErrorReply pb err := by
  simp only [assertedEndReply, endOperation, herr, Bool.not_true, Bool.false_and,
    Bool.false_eq_true, if_true, if_false, List.length_eq_zero_iff, beginErrorReply]

theorem assertedEndReply_ok (pb : Protobuf σ Msg) {err : Status} (herr : err.failed = false)
    {proto : Sigma Msg} (hbody : (pb.payload proto.1).Serializes proto.2) :
    assertedEndReply pb err proto =
      assertedReply pb .ok ((pb.payload proto.1).serializeAsString proto.2) := by
  have hmessage : ¬Status.ok.errorMessage.length = 0 := by decide
  simp only [assertedEndReply, endOperation, Codec.serializeToString_eq hbody, herr,
    Bool.not_true, Bool.and_false, Bool.false_eq_true, if_false, hmessage, Status.failed_ok]

namespace Request

-- The assertions of a step that are compiled out in requestMachine.
def asserts (pb : Protobuf σ Msg) (s : Request σ υ Msg) :
    RequestLabel σ υ Msg → Except EndFault Unit
  | .endStep i =>
      match (s.ends[i]?).map EndCall.pc with
      | some .reading =>
          if s.beginStatus.failed then (beginErrorReply pb s.beginStatus).map fun _ => ()
          else .ok ()
      | _ => .ok ()
  | .endReturn _ err proto => (assertedEndReply pb err proto).map fun _ => ()
  | _ => .ok ()

-- What the step serialises can be serialised.
def SerializesAt (pb : Protobuf σ Msg) (s : Request σ υ Msg) : RequestLabel σ υ Msg → Prop
  | .endStep _ => s.beginStatus.failed = true →
      pb.replyHeader.Serializes ⟨s.beginStatus.errorCode, s.beginStatus.errorMessage⟩
  | .endReturn _ err proto =>
      (err.failed = true → pb.replyHeader.Serializes ⟨err.errorCode, err.errorMessage⟩) ∧
      (err.failed = false → (pb.payload proto.1).Serializes proto.2 ∧
        pb.replyHeader.Serializes ⟨Status.ok.errorCode, Status.ok.errorMessage⟩)
  | _ => True

instance (pb : Protobuf σ Msg) (s : Request σ υ Msg) :
    (label : RequestLabel σ υ Msg) → Decidable (SerializesAt pb s label)
  | .endStep _ => inferInstanceAs (Decidable (s.beginStatus.failed = true →
      (pb.replyHeader.serializeToString _).2 = true))
  | .endReturn _ err proto => inferInstanceAs (Decidable
      ((err.failed = true → (pb.replyHeader.serializeToString _).2 = true) ∧
      (err.failed = false → ((pb.payload proto.1).serializeToString proto.2).2 = true ∧
        (pb.replyHeader.serializeToString _).2 = true)))
  | .beginStep _ | .userReturn _ _ | .userInvoke _ | .invoke _ | .endStart _ => .isTrue trivial

-- What is promised of the surroundings: the user keeps the contract, and
-- everything serialises.
def Promised (pb : Protobuf σ Msg) (labels : List (RequestLabel σ υ Msg)) (s : Request σ υ Msg)
    (label : RequestLabel σ υ Msg) : Prop :=
  Contract labels s label ∧ SerializesAt pb s label

instance [DecidableEq υ] (pb : Protobuf σ Msg) (labels : List (RequestLabel σ υ Msg))
    (s : Request σ υ Msg) (label : RequestLabel σ υ Msg) : Decidable (Promised pb labels s label) :=
  inferInstanceAs (Decidable (Contract labels s label ∧ SerializesAt pb s label))

-- The user's End operation returns an error without a message.
def SilentEndError (label : RequestLabel σ υ Msg) : Prop :=
  ∃ i err proto, label = .endReturn i err proto ∧ err.failed = true ∧ err.errorMessage = []

variable {pb : Protobuf σ Msg} {s s' : Request σ υ Msg} {label : RequestLabel σ υ Msg}

theorem not_silent_of_ne (h : ∀ i err proto, label ≠ .endReturn i err proto) :
    ¬SilentEndError label := by
  rintro ⟨i, err, proto, hlabel, -⟩
  exact h i err proto hlabel

-- Only an error without a message from the user's End operation fails one.
theorem asserts_ok_iff (hserializes : SerializesAt pb s label) :
    s.asserts pb label = .ok () ↔ ¬SilentEndError label := by
  cases label with
  | endStep i =>
      refine iff_of_true ?_ (not_silent_of_ne (by simp))
      simp only [asserts]
      split
      · cases hfailed : s.beginStatus.failed with
        | true =>
            simp only [if_true, beginErrorReply, assertedReply_ok (hserializes hfailed)]
            rfl
        | false => rfl
      · rfl
  | endReturn i err proto =>
      cases herr : err.failed with
      | true =>
          simp only [asserts, assertedEndReply_failed pb herr, beginErrorReply,
            assertedReply_ok (hserializes.1 herr)]
          constructor
          · rintro h ⟨_, _, _, hlabel, -, hempty⟩
            obtain ⟨-, rfl, -⟩ := RequestLabel.endReturn.inj hlabel
            rw [if_pos hempty] at h
            cases h
          · intro h
            rw [if_neg fun hempty => h ⟨i, err, proto, rfl, herr, hempty⟩]
            rfl
      | false =>
          obtain ⟨hbody, hheader⟩ := hserializes.2 herr
          simp only [asserts, assertedEndReply_ok pb herr hbody, assertedReply_ok hheader]
          refine iff_of_true rfl ?_
          rintro ⟨_, _, _, hlabel, hfailed, -⟩
          obtain ⟨-, rfl, -⟩ := RequestLabel.endReturn.inj hlabel
          exact absurd (herr.symm.trans hfailed) (by simp)
  | beginStep elapsed => exact iff_of_true rfl (not_silent_of_ne (by simp))
  | userReturn err ctx => exact iff_of_true rfl (not_silent_of_ne (by simp))
  | userInvoke ctx => exact iff_of_true rfl (not_silent_of_ne (by simp))
  | invoke i => exact iff_of_true rfl (not_silent_of_ne (by simp))
  | endStart context => exact iff_of_true rfl (not_silent_of_ne (by simp))

end Request

section Debug

variable [DecidableEq υ]

-- The request in a debug build: the steps of requestMachine, after the
-- assertions on what is sent.
def debugMachine (pb : Protobuf σ Msg) (route : MiddleWare σ) (message : Option TransportMessage)
    (timeoutMilliseconds : UInt32) :
    Machine (Request σ υ Msg) (RequestLabel σ υ Msg) (EndFault ⊕ Fault) where
  enabled := Request.Enabled
  exec s label :=
    match s.asserts pb label with
    | .error fault => .error (.inl fault)
    | .ok () =>
        match (requestMachine pb route message timeoutMilliseconds).exec s label with
        | .error fault => .error (.inr fault)
        | .ok s' => .ok s'

namespace Request

variable {pb : Protobuf σ Msg} {route : MiddleWare σ} {message : Option TransportMessage}
  {timeoutMilliseconds : UInt32} {s s' : Request σ υ Msg} {label : RequestLabel σ υ Msg}
  {labels : List (RequestLabel σ υ Msg)}

theorem debug_ok_iff :
    (debugMachine pb route message timeoutMilliseconds).exec s label = .ok s' ↔
      s.asserts pb label = .ok () ∧
        (requestMachine pb route message timeoutMilliseconds).exec s label = .ok s' := by
  simp only [debugMachine]
  cases s.asserts pb label with
  | error fault => simp
  | ok u =>
      cases (requestMachine pb route message timeoutMilliseconds).exec s label with
      | error fault => simp
      | ok next => simp

-- A debug run in which no assertion fails is a run.
theorem debug_run
    (hrun : (debugMachine pb route message timeoutMilliseconds).Run (Promised pb) new labels s) :
    (requestMachine pb route message timeoutMilliseconds).Run Contract new labels s := by
  induction hrun with
  | nil => exact .nil
  | snoc _ hpromised he hx ih => exact .snoc ih hpromised.1 he (debug_ok_iff.mp hx).2

-- In every reachable state a step fails an assertion exactly if it is the
-- return of the user's End operation with an error that has no message. An
-- error with a message is answered as if it were one of begin.
theorem end_asserts_hold_iff_message (pb : Protobuf σ Msg) (svcList : List (GeneratedService σ))
    (hrun : (debugMachine pb (router (svcList.map GeneratedService.route)) message
      timeoutMilliseconds).Run (Promised pb) new labels s)
    (hpromised : Promised pb labels s label) (henabled : s.Enabled label) :
    ((∃ s', (debugMachine pb (router (svcList.map GeneratedService.route)) message
        timeoutMilliseconds).exec s label = .ok s') ↔ ¬SilentEndError label) ∧
    ∀ err : Status, err.failed = true →
      pb.replyHeader.Serializes ⟨err.errorCode, err.errorMessage⟩ →
      ∀ proto, (assertedEndReply pb err proto = beginErrorReply pb err ↔
        err.errorMessage ≠ []) := by
  have hsound := generated_sound (debug_run hrun)
  constructor
  · rw [← asserts_ok_iff hpromised.2]
    constructor
    · rintro ⟨s', hx⟩
      exact (debug_ok_iff.mp hx).1
    · intro hasserts
      obtain ⟨s', hx, -⟩ := exec_sound (fun _ hrouted => generated_binds hrouted) hsound
        hpromised.1 henabled
      exact ⟨s', debug_ok_iff.mpr ⟨hasserts, hx⟩⟩
  · intro err herr hserializes proto
    have hreply : beginErrorReply pb err = .ok (makeReply pb err []) := assertedReply_ok hserializes
    rw [assertedEndReply_failed pb herr]
    constructor
    · intro h hempty
      rw [if_pos hempty, hreply] at h
      cases h
    · intro hmessage
      rw [if_neg hmessage]

end Request

end Debug

namespace Request

instance [DecidableEq σ] [DecidableEq υ] (pb : Protobuf σ Msg) (route : MiddleWare σ)
    (message : Option TransportMessage) (timeoutMilliseconds : UInt32) (s : Request σ υ Msg)
    (label : RequestLabel σ υ Msg) :
    Decidable ((debugMachine pb route message timeoutMilliseconds).enabled s label) :=
  inferInstanceAs (Decidable (s.Enabled label))

abbrev todoDebug : Machine (Request Unit ℕ fun _ => Bytes)
    (RequestLabel Unit ℕ fun _ => Bytes) (EndFault ⊕ Fault) :=
  debugMachine stringProtobuf (router ([todo].map GeneratedService.route)) (some findRequest) 1000

-- Up to the return of the user's End operation.
def endUnderWay : List (RequestLabel Unit ℕ fun _ => Bytes) :=
  [.beginStep 0, .beginStep 0, .beginStep 0, .userInvoke (some 7), .invoke 0, .invoke 0, .invoke 0,
    .endStart .wrap, .endStep 0, .endStep 0, .endStep 0]

def endReturns (message : Bytes) : RequestLabel Unit ℕ fun _ => Bytes :=
  .endReturn 0 (.make StatusCode.UNKNOWN message) ⟨(), []⟩

-- The End operation may return any status then.
theorem reaches_endUnderWay (message : Bytes)
    (hready : ((todoDebug.reaches (Promised stringProtobuf) [] new endUnderWay).map fun s =>
      decide (Promised stringProtobuf endUnderWay s (endReturns message) ∧
        s.Enabled (endReturns message))) = some true) :
    ∃ s, todoDebug.Run (Promised stringProtobuf) new endUnderWay s ∧
      Promised stringProtobuf endUnderWay s (endReturns message) ∧
      s.Enabled (endReturns message) := by
  obtain ⟨s, hs, hready⟩ := Option.map_eq_some_iff.mp hready
  exact ⟨s, Machine.Run.nil.reaches hs, of_decide_eq_true hready⟩

-- An error with a message passes.
theorem end_asserts_hold_iff_message_given :
    ∃ s s', todoDebug.Run (Promised stringProtobuf) new endUnderWay s ∧
      todoDebug.exec s (endReturns (lit "busy")) = .ok s' := by
  obtain ⟨s, hrun, hpromised, henabled⟩ := reaches_endUnderWay (lit "busy") (by decide)
  obtain ⟨s', hx⟩ := (end_asserts_hold_iff_message stringProtobuf [todo] hrun hpromised
    henabled).1.mpr (by
      rintro ⟨i, err, proto, hlabel, -, hempty⟩
      obtain ⟨-, rfl, -⟩ := RequestLabel.endReturn.inj hlabel
      exact absurd hempty (by decide))
  exact ⟨s, s', hrun, hx⟩

-- UNKNOWN with the empty message, returned from the user's End operation, fails
-- the assertion on the message.
theorem end_error_without_message_fails_assertion :
    ∃ s, todoDebug.Run (Promised stringProtobuf) new endUnderWay s ∧
      Promised stringProtobuf endUnderWay s (endReturns []) ∧ s.Enabled (endReturns []) ∧
      todoDebug.exec s (endReturns []) = .error (.inl .messageEmpty) := by
  obtain ⟨s, hrun, hpromised, henabled⟩ := reaches_endUnderWay [] (by decide)
  have hasserts : s.asserts stringProtobuf (endReturns []) = .error .messageEmpty := rfl
  refine ⟨s, hrun, hpromised, henabled, ?_⟩
  simp only [todoDebug, debugMachine, hasserts]

end Request

end FabricRpc.V1
