import FabricRpc.Lib.Utf8
import Mathlib.Algebra.Ring.Nat
import Mathlib.Tactic.TypeStar

namespace FabricRpc

open Lib

-- fabricrpc.proto
structure RequestHeader where
  url : Bytes
  deriving DecidableEq

structure ReplyHeader where
  statusCode : Int32
  statusMessage : Bytes
  deriving DecidableEq

-- What protobuf generates for a message type. SerializeToString leaves the
-- encoding in the string and says whether it succeeded. A parse leaves what it
-- read in the message, complete or not, and says the same. ParseFromArray is
-- called with the size of a string, cast to int.
structure Codec (M : Type*) where
  serializeToString : M → Bytes × Bool
  parseFromString : Bytes → M × Bool
  parseFromArray : Bytes → M × Bool

namespace Codec

variable {M : Type*}

def serializeAsString (codec : Codec M) (m : M) : Bytes :=
  let (out, ok) := codec.serializeToString m
  if ok then out else []

-- The message can be serialised.
def Serializes (codec : Codec M) (m : M) : Prop := (codec.serializeToString m).2 = true

-- What protobuf promises of proto3. No encoding is longer than INT_MAX.
structure Lawful (codec : Codec M) (stringsValid : M → Prop) (empty : M) : Prop where
  parse_serialize : ∀ m out, stringsValid m → codec.serializeToString m = (out, true) →
    codec.parseFromString out = (m, true)
  parsed_valid : ∀ bytes m, codec.parseFromString bytes = (m, true) → stringsValid m
  array_valid : ∀ bytes m, codec.parseFromArray bytes = (m, true) → stringsValid m
  array : ∀ bytes, bytes.length < 2 ^ 31 →
    codec.parseFromArray bytes = codec.parseFromString bytes
  serialize_empty : codec.serializeToString empty = ([], true)
  size : ∀ m out, codec.serializeToString m = (out, true) → out.length < 2 ^ 31

variable {codec : Codec M} {stringsValid : M → Prop} {empty : M} {m : M}

theorem serializeToString_eq (h : codec.Serializes m) :
    codec.serializeToString m = (codec.serializeAsString m, true) := by
  have h : (codec.serializeToString m).2 = true := h
  simp only [serializeAsString, h, if_true]
  rw [← h]

theorem Lawful.parse_serializeAsString (hl : codec.Lawful stringsValid empty)
    (h : codec.Serializes m) (hm : stringsValid m) :
    codec.parseFromString (codec.serializeAsString m) = (m, true) :=
  hl.parse_serialize m _ hm (serializeToString_eq h)

-- What was serialised is read back exactly if its strings are valid.
theorem Lawful.parseFromArray_iff (hl : codec.Lawful stringsValid empty) {out : Bytes}
    (h : codec.serializeToString m = (out, true)) :
    codec.parseFromArray out = (m, true) ↔ stringsValid m := by
  refine ⟨hl.array_valid out m, fun hm => ?_⟩
  rw [hl.array out (hl.size m out h)]
  exact hl.parse_serialize m out hm h

-- Only the default message has the empty encoding.
theorem Lawful.eq_empty (hl : codec.Lawful stringsValid empty) (hvalid : stringsValid empty)
    (hm : stringsValid m) (h : codec.serializeToString m = ([], true)) : m = empty := by
  have hread := hl.parse_serialize m [] hm h
  have hempty := hl.parse_serialize empty [] hvalid hl.serialize_empty
  exact congrArg Prod.fst (hread.symm.trans hempty)

theorem Lawful.length_lt (hl : codec.Lawful stringsValid empty) (m : M) :
    (codec.serializeAsString m).length < 2 ^ 31 := by
  by_cases h : codec.Serializes m
  · exact hl.size m _ (serializeToString_eq h)
  · have h : (codec.serializeToString m).2 = false := by simpa [Serializes] using h
    simp [serializeAsString, h]

end Codec

-- Protobuf as this program uses it: its own headers, and the message types of
-- the services, which are named by σ.
structure Protobuf (σ : Type*) (Msg : σ → Type*) where
  requestHeader : Codec RequestHeader
  replyHeader : Codec ReplyHeader
  payload : (t : σ) → Codec (Msg t)
  stringsValid : (t : σ) → Msg t → Prop
  empty : (t : σ) → Msg t

structure Protobuf.Lawful {σ : Type*} {Msg : σ → Type*} (pb : Protobuf σ Msg) : Prop where
  requestHeader : pb.requestHeader.Lawful (fun h => validUtf8 h.url = true) ⟨[]⟩
  replyHeader : pb.replyHeader.Lawful (fun h => validUtf8 h.statusMessage = true) ⟨0, []⟩
  payload : ∀ t, (pb.payload t).Lawful (pb.stringsValid t) (pb.empty t)

end FabricRpc
