import FabricRpc.Protobuf
import FabricRpc.V1.Status

namespace FabricRpc.V1

open Lib

section Header

variable {σ : Type*} {Msg : σ → Type*}

structure FabricRPCRequestHeader where
  url : Bytes
  deriving DecidableEq

structure FabricRPCReplyHeader where
  statusCode : Int32
  statusMessage : Bytes
  deriving DecidableEq

-- FabricRPCHeaderProtoConverter. The Boolean is what the member returns, and
-- the other component is what its out parameter then is.
def serializeRequestHeader (pb : Protobuf σ Msg) (request : FabricRPCRequestHeader) :
    Bytes × Bool :=
  pb.requestHeader.serializeToString ⟨request.url⟩

def serializeReplyHeader (pb : Protobuf σ Msg) (reply : FabricRPCReplyHeader) : Bytes × Bool :=
  pb.replyHeader.serializeToString ⟨reply.statusCode, reply.statusMessage⟩

def deserializeRequestHeader (pb : Protobuf σ Msg) (data : Bytes)
    (request : FabricRPCRequestHeader) : FabricRPCRequestHeader × Bool :=
  let (header, ok) := pb.requestHeader.parseFromArray data
  if !ok then (request, false) else (⟨header.url⟩, true)

def deserializeReplyHeader (pb : Protobuf σ Msg) (data : Bytes)
    (reply : FabricRPCReplyHeader) : FabricRPCReplyHeader × Bool :=
  let (header, ok) := pb.replyHeader.parseFromArray data
  if !ok then (reply, false) else (⟨header.statusCode, header.statusMessage⟩, true)

end Header

-- What is left of a timeout after so many nanoseconds. The comparison is one of
-- long longs.
def newTimeout (timeoutMilliseconds : UInt32) (elapsed : ℕ) : UInt32 :=
  let ms := elapsed / 1000000
  if timeoutMilliseconds.toNat > ms then timeoutMilliseconds - UInt32.ofNat ms else 0

variable {M : Type*}

-- BeginOperation::Invoke up to the call of the user's operation: the error it
-- returns instead, or what it calls the operation with.
def beginOperation (codec : Codec M) (body : Bytes) (timeoutMilliseconds : UInt32)
    (elapsed : ℕ) : Except Status (M × UInt32) :=
  let (req, ok) := codec.parseFromArray body
  if !ok then .error (.make StatusCode.INVALID_ARGUMENT (lit "cannot parse body"))
  else .ok (req, newTimeout timeoutMilliseconds elapsed)

-- EndOperation::Invoke from the return of the user's operation: what it returns,
-- and `reply`, which is empty before.
def endOperation (codec : Codec M) (err : Status) (proto : M) : Status × Bytes :=
  if err.failed then (err, [])
  else
    let (reply, ok) := codec.serializeToString proto
    if !ok then (.make StatusCode.INTERNAL (lit "Server cannot serialize body."), reply)
    else (.ok, reply)

theorem beginOperation_error {codec : Codec M} {body : Bytes} {timeoutMilliseconds : UInt32}
    {elapsed : ℕ} {err : Status}
    (h : beginOperation codec body timeoutMilliseconds elapsed = .error err) :
    err = .make StatusCode.INVALID_ARGUMENT (lit "cannot parse body") := by
  obtain ⟨req, ok, hparse⟩ : ∃ req ok, codec.parseFromArray body = (req, ok) := ⟨_, _, rfl⟩
  simp only [beginOperation, hparse] at h
  cases ok with
  | false => exact (Except.error.inj h).symm
  | true => cases h

end FabricRpc.V1
