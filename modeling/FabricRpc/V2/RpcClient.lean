import FabricRpc.V2.Parse

namespace FabricRpc.V2

open Lib AbslStatus

variable {σ : Type*} {Msg : σ → Type*} {Req Resp : Type*}

-- The message that async_rpc_op sends.
def makeRequest (pb : Protobuf σ Msg) (codec : Codec Req) (url : Bytes) (request : Req) :
    TransportMessage :=
  toolTransportMsg (codec.serializeAsString request) (pb.requestHeader.serializeAsString ⟨url⟩)

-- What the handler of an rpc is called with.
structure RpcCompletion where
  ec : Int32
  st : AbslStatus
  deriving DecidableEq

-- The continuation of async_rpc_op on a reply. The second component is what
-- `reply_` points to afterwards.
def onReply (pb : Protobuf σ Msg) (codec : Codec Resp) (ec : Int32)
    (reply : Option TransportMessage) (protoReply : Option Resp) : RpcCompletion × Option Resp :=
  if ec ≠ 0 then (⟨ec, okStatus⟩, protoReply)
  else
    let st := parseReplyHeader pb (getHeader reply)
    if !st.ok then (⟨0, st⟩, protoReply)
    else
      let (st, protoReply) := parseProtoPayload codec (getBody reply) protoReply
      (⟨0, st⟩, protoReply)

end FabricRpc.V2
