import FabricRpc.TransportMessage
import FabricRpc.V1.Operation

namespace FabricRpc.V1

open Lib

variable {σ : Type*} {Msg : σ → Type*} {Req Resp : Type*}

-- The message of ExecClientBegin. The assertions on the serialisations are
-- compiled out.
def makeRequest (pb : Protobuf σ Msg) (codec : Codec Req) (url : Bytes) (request : Req) :
    Except Status TransportMessage :=
  let (headerStr, ok) := serializeRequestHeader pb ⟨url⟩
  if !ok then
    .error (.make StatusCode.INTERNAL (lit "Client cannot serialize request header."))
  else
    let (bodyStr, ok) := codec.serializeToString request
    if !ok then
      .error (.make StatusCode.INTERNAL (lit "Client cannot serialize request body."))
    else .ok (FRPCTransportMessage.init headerStr bodyStr).message

-- ExecClientBegin, over the HRESULT that BeginRequest of the transport returns.
-- The second component is what BeginRequest is called with.
def execClientBegin (pb : Protobuf σ Msg) (codec : Codec Req) (timeoutMilliseconds : UInt32)
    (url : Bytes) (request : Req) (elapsed : ℕ)
    (beginRequest : TransportMessage → UInt32 → Int32) :
    Status × Option (TransportMessage × UInt32) :=
  match makeRequest pb codec url request with
  | .error st => (st, none)
  | .ok msg =>
      let timeout := newTimeout timeoutMilliseconds elapsed
      let hr := beginRequest msg timeout
      (if hr < 0 then ⟨StatusCode.FABRIC_TRANSPORT_ERROR, lit "BeginRequest failed", hr⟩ else .ok,
        some (msg, timeout))

-- ExecClientEnd, over the HRESULT and the reply that EndRequest of the transport
-- returns. The second component is what `response` then is.
def execClientEnd (pb : Protobuf σ Msg) (codec : Codec Resp) (hr : Int32)
    (reply : Option TransportMessage) (response : Resp) : Status × Resp :=
  if hr ≠ 0 then
    (⟨StatusCode.FABRIC_TRANSPORT_ERROR, lit "EndRequest failed", hr⟩, response)
  else
    let msg := FRPCTransportMessage.copyMsg reply
    if msg.header.length = 0 then
      (.make StatusCode.UNKNOWN (lit "Server returned empty header"), response)
    else
      let (header, ok) := deserializeReplyHeader pb msg.header ⟨0, []⟩
      if !ok then (.make StatusCode.UNKNOWN (lit "Server returned bad header"), response)
      else if header.statusCode ≠ 0 then
        (.make header.statusCode header.statusMessage, response)
      else
        let (response, ok) := codec.parseFromArray msg.body
        if !ok then (.make StatusCode.UNKNOWN (lit "Server returned bad body"), response)
        else (.ok, response)

end FabricRpc.V1
