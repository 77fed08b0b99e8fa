import FabricRpc.Protobuf.Proto3
import FabricRpc.V1.ClientHelpers
import FabricRpc.V1.RequestHandler

namespace FabricRpc.V1

open Lib

variable {σ : Type*} {Msg : σ → Type*} {Req Resp : Type*}

-- FAILED
def hrFailed (hr : Int32) : Prop := hr < 0

instance (hr : Int32) : Decidable (hrFailed hr) := inferInstanceAs (Decidable (hr < 0))

-- A status says how the transport has done, by the HRESULT of its step.
structure Status.Trusted (st : Status) (hr : Int32) : Prop where
  isTransportError : st.isTransportError = true ↔ hrFailed hr
  transportErrorCode : hrFailed hr → st.transportErrorCode = hr

-- The code in the header of a reply, if there is one that can be read.
def replyCode (pb : Protobuf σ Msg) (reply : Option TransportMessage) : Option StatusCode :=
  let header := (FRPCTransportMessage.copyMsg reply).header
  let (read, ok) := deserializeReplyHeader pb header ⟨0, []⟩
  if header.length ≠ 0 ∧ ok then some read.statusCode else none

section Begin

variable {pb : Protobuf σ Msg} {codec : Codec Req} {url : Bytes} {request : Req}

theorem makeRequest_error {st : Status} (h : makeRequest pb codec url request = .error st) :
    st.errorCode = StatusCode.INTERNAL := by
  unfold makeRequest at h
  split at h
  split at h
  · exact (Except.error.inj h) ▸ rfl
  · split at h
    split at h
    · exact (Except.error.inj h) ▸ rfl
    · exact absurd h (by simp)

-- Begin calls the transport and reports its failure, or fails by itself before.
theorem execClientBegin_trusted (timeoutMilliseconds : UInt32) (elapsed : ℕ)
    (beginRequest : TransportMessage → UInt32 → Int32) {st : Status}
    {sent : Option (TransportMessage × UInt32)}
    (h : execClientBegin pb codec timeoutMilliseconds url request elapsed beginRequest =
      (st, sent)) :
    (sent = none ∧ st.isTransportError = false) ∨
      ∃ msg timeout, sent = some (msg, timeout) ∧ st.Trusted (beginRequest msg timeout) := by
  unfold execClientBegin at h
  split at h
  · rename_i err herror
    obtain ⟨rfl, rfl⟩ := Prod.mk.inj h
    refine .inl ⟨rfl, ?_⟩
    rw [Status.isTransportError, makeRequest_error herror]
    rfl
  · rename_i msg _
    obtain ⟨rfl, rfl⟩ := Prod.mk.inj h
    refine .inr ⟨msg, _, rfl, ?_⟩
    by_cases hfailed : beginRequest msg (newTimeout timeoutMilliseconds elapsed) < 0
    · rw [if_pos hfailed]
      exact ⟨by simp [hrFailed, hfailed, Status.isTransportError], fun _ => rfl⟩
    · rw [if_neg hfailed]
      exact ⟨by simp [hrFailed, hfailed, Status.isTransportError, Status.ok, StatusCode.OK,
        StatusCode.FABRIC_TRANSPORT_ERROR], fun hr => absurd hr hfailed⟩

end Begin

section End

variable {pb : Protobuf σ Msg} {codec : Codec Resp} {reply : Option TransportMessage}

theorem isTransportError_make (code : StatusCode) (message : Bytes) :
    (Status.make code message).isTransportError = true ↔
      code = StatusCode.FABRIC_TRANSPORT_ERROR := by
  simp [Status.isTransportError]

-- The status of a reply that the transport has brought.
theorem isTransportError_of_reply (response : Resp) :
    (execClientEnd pb codec 0 reply response).1.isTransportError = true ↔
      replyCode pb reply = some StatusCode.FABRIC_TRANSPORT_ERROR := by
  obtain ⟨read, ok, hread⟩ : ∃ read ok, deserializeReplyHeader pb
      (FRPCTransportMessage.copyMsg reply).header ⟨0, []⟩ = (read, ok) := ⟨_, _, rfl⟩
  have hunknown (message : Bytes) :
      (Status.make StatusCode.UNKNOWN message).isTransportError = false := rfl
  by_cases hheader : (FRPCTransportMessage.copyMsg reply).header.length = 0
  · simp [execClientEnd, replyCode, hheader, hunknown]
  cases ok with
  | false => simp [execClientEnd, replyCode, hheader, hread, hunknown]
  | true =>
      by_cases hcode : read.statusCode = 0
      · obtain ⟨parsed, ok, hparse⟩ : ∃ parsed ok, codec.parseFromArray
            (FRPCTransportMessage.copyMsg reply).body = (parsed, ok) := ⟨_, _, rfl⟩
        have hne : (0 : Int32) ≠ StatusCode.FABRIC_TRANSPORT_ERROR := by decide
        cases ok with
        | false => simp [execClientEnd, replyCode, hheader, hread, hcode, hparse, hunknown, hne]
        | true =>
            have hok : Status.ok.isTransportError = false := rfl
            simp [execClientEnd, replyCode, hheader, hread, hcode, hparse, hok, hne]
      · simp [execClientEnd, replyCode, hheader, hread, hcode, isTransportError_make]

theorem execClientEnd_trusted_iff (hr : Int32) (response : Resp) :
    (execClientEnd pb codec hr reply response).1.Trusted hr ↔
      hr ≤ 0 ∧ (hr = 0 → replyCode pb reply ≠ some StatusCode.FABRIC_TRANSPORT_ERROR) := by
  by_cases hzero : hr = 0
  · subst hzero
    have hnot : ¬hrFailed 0 := by decide
    have hreply : (execClientEnd pb codec 0 reply response).1.isTransportError = true ↔
        replyCode pb reply = some StatusCode.FABRIC_TRANSPORT_ERROR :=
      isTransportError_of_reply response
    constructor
    · rintro ⟨hiff, -⟩
      exact ⟨by decide, fun _ hcode => hnot (hiff.mp (hreply.mpr hcode))⟩
    · rintro ⟨-, hcode⟩
      exact ⟨⟨fun h => absurd (hreply.mp h) (hcode rfl), fun h => absurd h hnot⟩,
        fun h => absurd h hnot⟩
  · have hend : (execClientEnd pb codec hr reply response).1 =
        ⟨StatusCode.FABRIC_TRANSPORT_ERROR, lit "EndRequest failed", hr⟩ := by
      simp [execClientEnd, hzero]
    have hle : hr ≤ 0 ↔ hrFailed hr := by
      unfold hrFailed
      grind
    rw [hend, hle]
    constructor
    · rintro ⟨hiff, -⟩
      exact ⟨hiff.mp rfl, fun h => absurd h hzero⟩
    · rintro ⟨hfailed, -⟩
      exact ⟨⟨fun _ => hfailed, fun _ => rfl⟩, fun _ => rfl⟩

end End

-- Begin reports what the transport has done. End does, unless the transport
-- succeeds with another HRESULT than S_OK or the server has sent the code that
-- the client has reserved for transport errors.
theorem transport_error_trusted_iff (pb : Protobuf σ Msg) :
    (∀ (codec : Codec Req) timeoutMilliseconds url request elapsed beginRequest st sent,
      execClientBegin pb codec timeoutMilliseconds url request elapsed beginRequest = (st, sent) →
        (sent = none ∧ st.isTransportError = false) ∨
          ∃ msg timeout, sent = some (msg, timeout) ∧ st.Trusted (beginRequest msg timeout)) ∧
    ∀ (codec : Codec Resp) hr reply response,
      (execClientEnd pb codec hr reply response).1.Trusted hr ↔
        hr ≤ 0 ∧ (hr = 0 → replyCode pb reply ≠ some StatusCode.FABRIC_TRANSPORT_ERROR) :=
  ⟨fun _ timeoutMilliseconds _ _ elapsed beginRequest _ _ =>
    execClientBegin_trusted timeoutMilliseconds elapsed beginRequest,
    fun _ hr _ response => execClientEnd_trusted_iff hr response⟩

-- A user's operation fails with status 50, which the server sends as it is.
theorem server_status_is_transport_error :
    ∃ (st : Status) (reply : TransportMessage), st.errorCode = 50 ∧
      reply = makeReply stringProtobuf st [] ∧
      (execClientEnd stringProtobuf (stringProtobuf.payload ()) 0 (some reply) []).1 =
        ⟨StatusCode.FABRIC_TRANSPORT_ERROR, lit "busy", 0⟩ ∧
      ¬(execClientEnd stringProtobuf (stringProtobuf.payload ()) 0 (some reply) []).1.Trusted
        0 := by
  refine ⟨.make 50 (lit "busy"), _, rfl, rfl, by decide, ?_⟩
  rintro ⟨hiff, -⟩
  exact absurd (hiff.mp (by decide)) (by decide)

end FabricRpc.V1
