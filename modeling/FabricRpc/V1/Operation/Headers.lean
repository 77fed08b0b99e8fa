import FabricRpc.Protobuf.Proto3
import FabricRpc.V1.Operation

namespace FabricRpc.V1

open Lib

variable {σ : Type*} {Msg : σ → Type*} {pb : Protobuf σ Msg}

section Deserialize

variable {data : Bytes}

-- What a header is, once it was accepted.
theorem deserializeRequestHeader_iff {request old : FabricRPCRequestHeader} :
    deserializeRequestHeader pb data old = (request, true) ↔
      pb.requestHeader.parseFromArray data = (⟨request.url⟩, true) := by
  obtain ⟨header, ok, hread⟩ :
      ∃ header ok, pb.requestHeader.parseFromArray data = (header, ok) := ⟨_, _, rfl⟩
  cases ok with
  | false => simp [deserializeRequestHeader, hread]
  | true =>
      cases header
      cases request
      simp [deserializeRequestHeader, hread]

theorem deserializeReplyHeader_iff {reply old : FabricRPCReplyHeader} :
    deserializeReplyHeader pb data old = (reply, true) ↔
      pb.replyHeader.parseFromArray data = (⟨reply.statusCode, reply.statusMessage⟩, true) := by
  obtain ⟨header, ok, hread⟩ :
      ∃ header ok, pb.replyHeader.parseFromArray data = (header, ok) := ⟨_, _, rfl⟩
  cases ok with
  | false => simp [deserializeReplyHeader, hread]
  | true =>
      cases header
      cases reply
      simp [deserializeReplyHeader, hread]

end Deserialize

-- The converter writes any string and reads valid ones. A header survives the
-- way over the wire exactly if its string is valid UTF-8, whatever its code is.
theorem headers_roundtrip_iff_valid (hpb : pb.Lawful) :
    (∀ request data old, serializeRequestHeader pb request = (data, true) →
      (deserializeRequestHeader pb data old = (request, true) ↔
        validUtf8 request.url = true)) ∧
    ∀ reply data old, serializeReplyHeader pb reply = (data, true) →
      (deserializeReplyHeader pb data old = (reply, true) ↔
        validUtf8 reply.statusMessage = true) := by
  refine ⟨?_, ?_⟩
  · intro request data old hdata
    rw [deserializeRequestHeader_iff]
    exact hpb.requestHeader.parseFromArray_iff hdata
  · intro reply data old hdata
    rw [deserializeReplyHeader_iff]
    exact hpb.replyHeader.parseFromArray_iff hdata

-- A negative code and the message "ä".
theorem headers_roundtrip_iff_valid_negative :
    ∃ data, serializeReplyHeader stringProtobuf ⟨-7, [0xC3, 0xA4]⟩ = (data, true) ∧
      deserializeReplyHeader stringProtobuf data ⟨0, []⟩ = (⟨-7, [0xC3, 0xA4]⟩, true) := by
  refine ⟨_, rfl, ?_⟩
  exact ((headers_roundtrip_iff_valid stringProtobuf_lawful).2 ⟨-7, [0xC3, 0xA4]⟩ _ ⟨0, []⟩
    rfl).mpr (by decide)

-- A message of one byte that begins no character is written, and then refused.
theorem reply_header_not_read_back :
    ∃ data, serializeReplyHeader stringProtobuf ⟨StatusCode.INTERNAL, [0xFF]⟩ = (data, true) ∧
      ∀ old, deserializeReplyHeader stringProtobuf data old = (old, false) :=
  ⟨_, rfl, fun _ => rfl⟩

end FabricRpc.V1
