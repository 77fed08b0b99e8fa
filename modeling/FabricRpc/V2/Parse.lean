import FabricRpc.Protobuf
import FabricRpc.TransportMessage

namespace FabricRpc.V2

open Lib

-- absl::Status. A status with code zero has no message.
structure AbslStatus where
  rawCode : Int32
  message : Bytes
  silent : rawCode = 0 → message = []
  deriving DecidableEq

namespace AbslStatus

-- absl::Status(code, message), which drops the message of an OK status.
def make (code : Int32) (message : Bytes) : AbslStatus :=
  if h : code = 0 then ⟨0, [], fun _ => rfl⟩ else ⟨code, message, fun h' => absurd h' h⟩

def okStatus : AbslStatus := make 0 []

def unknownError (message : Bytes) : AbslStatus := make 2 message

def invalidArgumentError (message : Bytes) : AbslStatus := make 3 message

def unimplementedError (message : Bytes) : AbslStatus := make 12 message

def ok (st : AbslStatus) : Bool := st.rawCode == 0

@[simp] theorem ok_okStatus : okStatus.ok = true := rfl

@[simp] theorem ok_unknownError (message : Bytes) : (unknownError message).ok = false := rfl

@[simp] theorem ok_invalidArgumentError (message : Bytes) :
    (invalidArgumentError message).ok = false := rfl

@[simp] theorem ok_unimplementedError (message : Bytes) :
    (unimplementedError message).ok = false := rfl

-- A status is made again from its code and message.
theorem make_self (st : AbslStatus) : make st.rawCode st.message = st := by
  obtain ⟨code, message, silent⟩ := st
  by_cases h : code = 0
  · simp [make, h, silent h]
  · simp [make, h]

theorem eq_okStatus {st : AbslStatus} (h : st.ok = true) : st = okStatus := by
  have hcode : st.rawCode = 0 := by simpa [ok] using h
  rw [← make_self st, hcode, st.silent hcode]
  rfl

end AbslStatus

open AbslStatus

variable {M : Type*}

def statusFromHeader : Option ReplyHeader → AbslStatus
  | none => invalidArgumentError (lit "parse_from_header has nullptr")
  | some h =>
      -- kDoNotUseReservedForFutureExpansionUseDefaultInSwitchInstead_ is 20
      if h.statusCode > 20 ∨ h.statusCode < 0 then
        invalidArgumentError
          (lit "reply_header has unknown statuscode: " ++ lit (toString h.statusCode.toInt))
      else make h.statusCode h.statusMessage

-- The second component is what `ret` points to afterwards, if it is no nullptr.
def parseProtoPayload (codec : Codec M) (data : Bytes) : Option M → AbslStatus × Option M
  | none => (invalidArgumentError (lit "parse_proto_payload has nullptr"), none)
  | some _ =>
      let (m, ok) := codec.parseFromString data
      (if ok then okStatus else unknownError (lit "parse_proto_payload failed"), some m)

def serializeProtoPayload (codec : Codec M) :
    Option M → Option Bytes → AbslStatus × Option Bytes
  | some m, some _ =>
      let (out, ok) := codec.serializeToString m
      (if ok then okStatus else unknownError (lit "serialize_proto_payload failed"), some out)
  | _, ret => (invalidArgumentError (lit "serialize_proto_payload has nullptr"), ret)

section Headers

variable {σ : Type*} {Msg : σ → Type*}

def parseReplyHeader (pb : Protobuf σ Msg) (data : Bytes) : AbslStatus :=
  let (ec, h) := parseProtoPayload pb.replyHeader data (some ⟨0, []⟩)
  if ec.ok then statusFromHeader h else ec

-- The second component is `url_ret`, which is empty before the call.
def parseRequestHeader (pb : Protobuf σ Msg) (data : Bytes) : AbslStatus × Bytes :=
  let (header, ok) := pb.requestHeader.parseFromString data
  if ok then (okStatus, header.url)
  else (invalidArgumentError (lit "cannot parse request header"), [])

-- The second component is `ret`, which is empty before the call.
def serializeReplyHeader (pb : Protobuf σ Msg) (st : AbslStatus) : AbslStatus × Bytes :=
  let header : ReplyHeader := ⟨st.rawCode, st.message⟩
  let (ec, ret) := serializeProtoPayload pb.replyHeader (some header) (some [])
  (ec, ret.getD [])

end Headers

theorem parseProtoPayload_of_parsed {codec : Codec M} {data : Bytes} {m : M}
    (h : codec.parseFromString data = (m, true)) (old : M) :
    parseProtoPayload codec data (some old) = (okStatus, some m) := by
  simp [parseProtoPayload, h]

theorem serializeProtoPayload_of_serializes {codec : Codec M} {m : M} (h : codec.Serializes m)
    (old : Bytes) : serializeProtoPayload codec (some m) (some old) =
      (okStatus, some (codec.serializeAsString m)) := by
  simp [serializeProtoPayload, Codec.serializeToString_eq h]

section Laws

variable {σ : Type*} {Msg : σ → Type*} {pb : Protobuf σ Msg}

theorem parseRequestHeader_serialize (hpb : pb.Lawful) {url : Bytes}
    (hvalid : validUtf8 url = true) (hserializes : pb.requestHeader.Serializes ⟨url⟩) :
    parseRequestHeader pb (pb.requestHeader.serializeAsString ⟨url⟩) = (okStatus, url) := by
  simp [parseRequestHeader, hpb.requestHeader.parse_serializeAsString hserializes hvalid]

theorem serializeReplyHeader_eq {st : AbslStatus}
    (h : pb.replyHeader.Serializes ⟨st.rawCode, st.message⟩) :
    serializeReplyHeader pb st =
      (okStatus, pb.replyHeader.serializeAsString ⟨st.rawCode, st.message⟩) := by
  simp [serializeReplyHeader, serializeProtoPayload_of_serializes h]

-- A reply header whose code is in the range of the client is read as it was written.
theorem parseReplyHeader_serialize (hpb : pb.Lawful) {code : Int32} {message : Bytes}
    (hrange : 0 ≤ code ∧ code ≤ 20) (hvalid : validUtf8 message = true)
    (hserializes : pb.replyHeader.Serializes ⟨code, message⟩) :
    parseReplyHeader pb (pb.replyHeader.serializeAsString ⟨code, message⟩) =
      make code message := by
  have hparsed := hpb.replyHeader.parse_serializeAsString hserializes hvalid
  have hin : ¬(code > 20 ∨ code < 0) := by grind
  simp only [parseReplyHeader, parseProtoPayload_of_parsed hparsed, ok_okStatus, if_true,
    statusFromHeader, hin, if_false]

-- The header of an OK reply has no bytes.
theorem serialize_ok_header (hpb : pb.Lawful) :
    pb.replyHeader.serializeAsString ⟨0, []⟩ = [] := by
  simp [Codec.serializeAsString, hpb.replyHeader.serialize_empty]

end Laws

end FabricRpc.V2
