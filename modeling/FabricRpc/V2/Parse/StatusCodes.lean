import FabricRpc.Protobuf.Proto3
import FabricRpc.V2.Parse

namespace FabricRpc.V2

open Lib AbslStatus

-- The codes that absl defines, from kOk to kUnauthenticated.
def DefinedCode (code : Int32) : Prop := 0 ≤ code ∧ code ≤ 16

instance (code : Int32) : Decidable (DefinedCode code) :=
  inferInstanceAs (Decidable (0 ≤ code ∧ code ≤ 16))

-- The codes below the sentinel of absl::StatusCode that no status has.
def GapCode (code : Int32) : Prop := 17 ≤ code ∧ code ≤ 20

-- What a reply header says, if only the defined codes are accepted.
def acceptDefined (code : Int32) (message : Bytes) : AbslStatus :=
  if DefinedCode code then make code message
  else invalidArgumentError
    (lit "reply_header has unknown statuscode: " ++ lit (toString code.toInt))

section Codes

variable {code : Int32} {message : Bytes}

theorem make_rawCode (code : Int32) (message : Bytes) : (make code message).rawCode = code := by
  by_cases h : code = 0
  · simp [make, h]
  · simp [make, h]

-- The range check of the client and the defined codes differ by the gap.
theorem not_range_iff : ¬(code > 20 ∨ code < 0) ↔ DefinedCode code ∨ GapCode code := by
  simp only [DefinedCode, GapCode]
  grind

theorem not_gap_of_defined (h : DefinedCode code) : ¬GapCode code := by
  simp only [DefinedCode, GapCode] at *
  grind

theorem defined_invalidArgumentError (message : Bytes) :
    DefinedCode (invalidArgumentError message).rawCode := by
  rw [invalidArgumentError, make_rawCode]
  decide

-- A code of the gap is taken for a status, which has that code and not the one
-- of the error.
theorem statusFromHeader_of_gap (h : GapCode code) :
    statusFromHeader (some ⟨code, message⟩) = make code message := by
  have hin : ¬(code > 20 ∨ code < 0) := not_range_iff.mpr (.inr h)
  simp only [statusFromHeader, hin, if_false]

theorem statusFromHeader_of_not_gap (h : ¬GapCode code) :
    statusFromHeader (some ⟨code, message⟩) = acceptDefined code message := by
  by_cases hdef : DefinedCode code
  · have hin : ¬(code > 20 ∨ code < 0) := not_range_iff.mpr (.inl hdef)
    simp only [statusFromHeader, acceptDefined, hin, hdef, if_true, if_false]
  · have hout : code > 20 ∨ code < 0 := by
      by_contra hin
      rcases not_range_iff.mp hin with hdef' | hgap
      · exact hdef hdef'
      · exact h hgap
    simp only [statusFromHeader, acceptDefined, hout, hdef, if_true, if_false]

theorem defined_acceptDefined (code : Int32) (message : Bytes) :
    DefinedCode (acceptDefined code message).rawCode := by
  by_cases h : DefinedCode code
  · rw [acceptDefined, if_pos h, make_rawCode]
    exact h
  · rw [acceptDefined, if_neg h]
    exact defined_invalidArgumentError _

theorem statusFromHeader_iff :
    statusFromHeader (some ⟨code, message⟩) = acceptDefined code message ↔ ¬GapCode code := by
  refine ⟨fun heq hgap => ?_, statusFromHeader_of_not_gap⟩
  have hraw : (acceptDefined code message).rawCode = code := by
    rw [← heq, statusFromHeader_of_gap hgap, make_rawCode]
  have hdef := defined_acceptDefined code message
  rw [hraw] at hdef
  exact not_gap_of_defined hdef hgap

end Codes

variable {σ : Type*} {Msg : σ → Type*} {pb : Protobuf σ Msg}

-- Every reply is either no header or one whose status is taken from it.
theorem parseReplyHeader_of_parsed {data : Bytes} {header : ReplyHeader}
    (h : pb.replyHeader.parseFromString data = (header, true)) :
    parseReplyHeader pb data = statusFromHeader (some header) := by
  simp only [parseReplyHeader, parseProtoPayload_of_parsed h, ok_okStatus, if_true]

theorem parseReplyHeader_of_not_parsed {data : Bytes}
    (h : (pb.replyHeader.parseFromString data).2 = false) :
    parseReplyHeader pb data = unknownError (lit "parse_proto_payload failed") := by
  simp [parseReplyHeader, parseProtoPayload, h]

theorem parseReplyHeader_defined_iff (pb : Protobuf σ Msg) (data : Bytes) :
    DefinedCode (parseReplyHeader pb data).rawCode ↔
      ∀ header, pb.replyHeader.parseFromString data = (header, true) →
        ¬GapCode header.statusCode := by
  obtain ⟨header, ok, hread⟩ :
      ∃ header ok, pb.replyHeader.parseFromString data = (header, ok) := ⟨_, _, rfl⟩
  cases ok with
  | false =>
      have hfail : (pb.replyHeader.parseFromString data).2 = false := by rw [hread]
      rw [parseReplyHeader_of_not_parsed hfail, unknownError, make_rawCode]
      refine ⟨fun _ header' h => ?_, fun _ => by decide⟩
      rw [hread] at h
      exact absurd (congrArg Prod.snd h) (by simp)
  | true =>
      obtain ⟨code, message⟩ := header
      rw [parseReplyHeader_of_parsed hread]
      constructor
      · intro hdef header' h hgap
        rw [hread] at h
        obtain rfl : ⟨code, message⟩ = header' := congrArg Prod.fst h
        rw [statusFromHeader_of_gap hgap, make_rawCode] at hdef
        exact not_gap_of_defined hdef hgap
      · intro h
        rw [statusFromHeader_of_not_gap (h _ hread)]
        exact defined_acceptDefined code message

-- The encoding of a header is read as the claimed status exactly if its code is
-- none of the gap, and from any bytes at all the client gets a defined code
-- exactly if they do not hold such a header.
theorem reply_codes_defined_iff_no_gap (hpb : pb.Lawful) :
    (∀ code message, validUtf8 message = true → pb.replyHeader.Serializes ⟨code, message⟩ →
      (parseReplyHeader pb (pb.replyHeader.serializeAsString ⟨code, message⟩) =
        acceptDefined code message ↔ ¬GapCode code)) ∧
    ∀ data, DefinedCode (parseReplyHeader pb data).rawCode ↔
      ∀ header, pb.replyHeader.parseFromString data = (header, true) →
        ¬GapCode header.statusCode := by
  refine ⟨?_, parseReplyHeader_defined_iff pb⟩
  intro code message hvalid hserializes
  have hread := hpb.replyHeader.parse_serializeAsString hserializes hvalid
  rw [parseReplyHeader_of_parsed hread]
  exact statusFromHeader_iff

-- UNAUTHENTICATED, the last defined code.
theorem reply_codes_defined_iff_no_gap_unauthenticated :
    parseReplyHeader stringProtobuf (stringProtobuf.replyHeader.serializeAsString ⟨16, []⟩) =
      make 16 [] :=
  (((reply_codes_defined_iff_no_gap stringProtobuf_lawful).1 16 [] (by decide) rfl).mpr
    (by simp only [GapCode]; decide)).trans (by decide)

-- A header with the code 17 is handed to the caller as a status with that code.
theorem parse_reply_header_takes_undefined_code :
    parseReplyHeader stringProtobuf (stringProtobuf.replyHeader.serializeAsString ⟨17, []⟩) ≠
        acceptDefined 17 [] ∧
      ¬DefinedCode (parseReplyHeader stringProtobuf
        (stringProtobuf.replyHeader.serializeAsString ⟨17, []⟩)).rawCode := by
  decide

end FabricRpc.V2
