import FabricRpc.Protobuf.Proto3
import FabricRpc.V1.ClientHelpers
import FabricRpc.V1.RequestHandler.Rendezvous

namespace FabricRpc.V1

open Lib FRPCTransportMessage

-- FABRIC_TRANSPORT_MESSAGE_BUFFER. BufferSize is a ULONG.
structure MessageBuffer where
  buffer : Bytes
  bufferSize : buffer.length < 2 ^ 32

-- What GetHeaderAndBodyBuffer of any transport message gives. The count of the
-- chunks is a ULONG as well.
structure BufferedMessage where
  header : Option MessageBuffer
  body : List MessageBuffer
  msgCount : body.length < 2 ^ 32

namespace BufferedMessage

def message (m : BufferedMessage) : TransportMessage :=
  ⟨m.header.map MessageBuffer.buffer, m.body.map MessageBuffer.buffer⟩

def headerBytes (m : BufferedMessage) : Bytes := (m.header.map MessageBuffer.buffer).getD []

-- All chunks in order.
def bodyBytes (m : BufferedMessage) : Bytes := (m.body.map MessageBuffer.buffer).flatten

theorem headerBytes_length (m : BufferedMessage) : m.headerBytes.length < 2 ^ 32 := by
  cases hheader : m.header with
  | none => simp [headerBytes, hheader]
  | some header => simpa [headerBytes, hheader] using header.bufferSize

end BufferedMessage

-- The loop of get_body over what is left of the chunks.
def appendChunks (body : Bytes) : List Bytes → Bytes
  | [] => body
  | msgStr :: msgs => appendChunks (body ++ msgStr) msgs

theorem appendChunks_eq (body : Bytes) (msgs : List Bytes) :
    appendChunks body msgs = body ++ msgs.flatten := by
  induction msgs generalizing body with
  | nil => simp [appendChunks]
  | cons msgStr msgs ih => rw [appendChunks, ih, List.flatten_cons, List.append_assoc]

theorem getBody_eq_appendChunks (message : TransportMessage) :
    getBody (some message) = appendChunks [] message.body := by
  rw [appendChunks_eq, List.nil_append]
  rfl

-- `static_cast<int>(size())`
def parseSize (s : Bytes) : Int32 := Int32.ofNat s.length

-- A size is cast to itself exactly if it fits.
theorem parseSize_iff {s : Bytes} : (parseSize s).toInt = s.length ↔ s.length < 2 ^ 31 := by
  refine ⟨fun h => ?_, Int32.toInt_ofNat_of_lt⟩
  have hle := (parseSize s).toInt_le
  have hmax : Int32.maxValue.toInt = 2 ^ 31 - 1 := by decide
  omega

variable {σ : Type*} {Msg : σ → Type*}

section Server

-- The size that BeginOperation::Invoke gives ParseFromArray with the body, if
-- BeginProcessRequest gets there.
def beginOperationSize (pb : Protobuf σ Msg) (route : MiddleWare σ)
    (message : Option TransportMessage) : Option Int32 :=
  let msg := copyMsg message
  let (err, ops) := parseRequest pb route msg
  if err.failed then none else ops.beginOp.map fun _ => parseSize msg.body

-- The headers with which BeginProcessRequest fails before the operation.
def ServerRefuses (pb : Protobuf σ Msg) (route : MiddleWare σ) (header : Bytes) : Prop :=
  header = [] ∨
  (deserializeRequestHeader pb header ⟨[]⟩).2 = false ∨
  (route (deserializeRequestHeader pb header ⟨[]⟩).1.url ⟨none, none⟩).1.failed = true

theorem parseRequest_failed_iff {pb : Protobuf σ Msg} {route : MiddleWare σ}
    {msg : FRPCTransportMessage} :
    (parseRequest pb route msg).1.failed = true ↔ ServerRefuses pb route msg.header := by
  unfold parseRequest ServerRefuses
  by_cases hheader : msg.header = []
  · simp [hheader, StatusCode.INVALID_ARGUMENT, StatusCode.OK]
  obtain ⟨header, ok, hread⟩ : ∃ header ok,
      deserializeRequestHeader pb msg.header ⟨[]⟩ = (header, ok) := ⟨_, _, rfl⟩
  cases ok with
  | false => simp [hheader, hread, StatusCode.INVALID_ARGUMENT, StatusCode.OK]
  | true => simp [hheader, hread]

-- With services that the generator wrote it gets there unless it fails.
theorem beginOperationSize_eq {pb : Protobuf σ Msg} {svcList : List (GeneratedService σ)}
    {message : Option TransportMessage}
    (h : ¬ServerRefuses pb (router (svcList.map GeneratedService.route)) (copyMsg message).header) :
    beginOperationSize pb (router (svcList.map GeneratedService.route)) message =
      some (parseSize (copyMsg message).body) := by
  rw [← parseRequest_failed_iff] at h
  obtain ⟨err, ops, hparse⟩ : ∃ err ops, parseRequest pb
      (router (svcList.map GeneratedService.route)) (copyMsg message) = (err, ops) := ⟨_, _, rfl⟩
  rw [hparse, Bool.not_eq_true] at h
  obtain ⟨op, hop⟩ := Option.isSome_iff_exists.mp
    (Request.generated_binds ⟨err, hparse, h⟩).1
  simp [beginOperationSize, hparse, h, hop]

theorem beginOperationSize_none {pb : Protobuf σ Msg} {route : MiddleWare σ}
    {message : Option TransportMessage} (h : ServerRefuses pb route (copyMsg message).header) :
    beginOperationSize pb route message = none := by
  rw [← parseRequest_failed_iff] at h
  simp [beginOperationSize, h]

end Server

section Client

variable {Resp : Type*}

-- The size that ExecClientEnd gives it, if it gets there.
def execClientEndSize (pb : Protobuf σ Msg) (hr : Int32) (reply : Option TransportMessage) :
    Option Int32 :=
  if hr ≠ 0 then none
  else
    let msg := copyMsg reply
    if msg.header.length = 0 then none
    else
      let (header, ok) := deserializeReplyHeader pb msg.header ⟨0, []⟩
      if !ok then none
      else if header.statusCode ≠ 0 then none
      else some (parseSize msg.body)

-- Where it does not get there, it refuses the reply.
theorem execClientEnd_of_no_size {pb : Protobuf σ Msg} {hr : Int32}
    {reply : Option TransportMessage} (h : execClientEndSize pb hr reply = none)
    (codec : Codec Resp) (response : Resp) :
    (execClientEnd pb codec hr reply response).1.failed = true ∧
      (execClientEnd pb codec hr reply response).2 = response := by
  unfold execClientEndSize at h
  unfold execClientEnd
  by_cases hhr : hr ≠ 0
  · rw [if_pos hhr]
    exact ⟨rfl, rfl⟩
  rw [if_neg hhr] at h ⊢
  by_cases hheader : (copyMsg reply).header.length = 0
  · simp only [hheader, if_true]
    exact ⟨rfl, trivial⟩
  simp only [hheader, if_false] at h ⊢
  obtain ⟨header, ok, hread⟩ : ∃ header ok,
      deserializeReplyHeader pb (copyMsg reply).header ⟨0, []⟩ = (header, ok) := ⟨_, _, rfl⟩
  rw [hread] at h ⊢
  cases ok with
  | false => exact ⟨rfl, rfl⟩
  | true =>
      by_cases hcode : header.statusCode ≠ 0
      · simp only [Bool.not_true, Bool.false_eq_true, if_false]
        rw [if_pos hcode]
        exact ⟨Status.failed_iff.mpr hcode, rfl⟩
      · simp [hcode] at h

-- The headers with which ExecClientEnd fails before the body, once EndRequest
-- has returned.
def ClientRefuses (pb : Protobuf σ Msg) (hr : Int32) (header : Bytes) : Prop :=
  hr ≠ 0 ∨ header = [] ∨
  (deserializeReplyHeader pb header ⟨0, []⟩).2 = false ∨
  (deserializeReplyHeader pb header ⟨0, []⟩).1.statusCode ≠ 0

theorem execClientEndSize_eq {pb : Protobuf σ Msg} {hr : Int32}
    {reply : Option TransportMessage} (h : ¬ClientRefuses pb hr (copyMsg reply).header) :
    execClientEndSize pb hr reply = some (parseSize (copyMsg reply).body) := by
  simp only [ClientRefuses, not_or, not_not, Bool.not_eq_false] at h
  obtain ⟨hhr, hheader, hread, hcode⟩ := h
  simp [execClientEndSize, hhr, hheader, hread, hcode]

theorem execClientEndSize_none {pb : Protobuf σ Msg} {hr : Int32}
    {reply : Option TransportMessage} (h : ClientRefuses pb hr (copyMsg reply).header) :
    execClientEndSize pb hr reply = none := by
  unfold execClientEndSize
  rcases h with hhr | hheader | hread | hcode
  · rw [if_pos hhr]
  · simp [hheader]
  · simp [hread]
  · simp [hcode]

end Client

-- What happens to a message that is copied: the copy has the bytes, shows them,
-- and both parsers are given their number, if the message is not refused.
structure Survives (pb : Protobuf σ Msg) (route : MiddleWare σ) (hr : Int32)
    (m : BufferedMessage) : Prop where
  header : (copyMsg (some m.message)).header = m.headerBytes
  body : (copyMsg (some m.message)).body = m.bodyBytes
  getHeader : getHeader (some (copyMsg (some m.message)).message) = m.headerBytes
  getBody : getBody (some (copyMsg (some m.message)).message) = m.bodyBytes
  beginOperation : ∀ size ∈ beginOperationSize pb route (some m.message),
    size.toInt = m.bodyBytes.length
  execClientEnd : ∀ size ∈ execClientEndSize pb hr (some m.message),
    size.toInt = m.bodyBytes.length

theorem copyMsg_eq (m : BufferedMessage) :
    copyMsg (some m.message) = ⟨m.headerBytes, m.bodyBytes⟩ := by
  cases hheader : m.header with
  | none => simp [copyMsg, init, FabricRpc.getHeader, FabricRpc.getBody, BufferedMessage.message,
      BufferedMessage.headerBytes, BufferedMessage.bodyBytes, hheader]
  | some header => simp [copyMsg, init, FabricRpc.getHeader, FabricRpc.getBody,
      BufferedMessage.message, BufferedMessage.headerBytes, BufferedMessage.bodyBytes, hheader]

theorem bufferOf_eq_iff {s : Bytes} : bufferOf s = s ↔ s.length < 2 ^ 32 := by
  refine ⟨fun h => ?_, bufferOf_eq⟩
  have hlength := congrArg List.length h
  rw [bufferOf, List.length_take] at hlength
  have hlt : s.length % 2 ^ 32 < 2 ^ 32 := Nat.mod_lt _ (by omega)
  omega

theorem getBody_copy (m : BufferedMessage) :
    getBody (some (copyMsg (some m.message)).message) = bufferOf m.bodyBytes := by
  rw [copyMsg_eq]
  simp [FabricRpc.getBody, FRPCTransportMessage.message]

-- The copy shows the body again exactly if its size fits a ULONG.
theorem getBody_copy_iff (m : BufferedMessage) :
    getBody (some (copyMsg (some m.message)).message) = m.bodyBytes ↔
      m.bodyBytes.length < 2 ^ 32 := by
  rw [getBody_copy]
  exact bufferOf_eq_iff

theorem getHeader_copy (m : BufferedMessage) :
    getHeader (some (copyMsg (some m.message)).message) = m.headerBytes := by
  rw [copyMsg_eq]
  exact bufferOf_eq m.headerBytes_length

-- A message survives exactly if all its chunks together fit an int, or else a
-- ULONG while neither side parses the body. From 2^31 on a parser is given
-- another number, and from twice as much on the copy shows fewer bytes.
theorem message_survives_iff_fits_or_refused (pb : Protobuf σ Msg)
    (svcList : List (GeneratedService σ)) (hr : Int32) (m : BufferedMessage) :
    Survives pb (router (svcList.map GeneratedService.route)) hr m ↔
      m.bodyBytes.length < 2 ^ 31 ∨
      (m.bodyBytes.length < 2 ^ 32 ∧
        ServerRefuses pb (router (svcList.map GeneratedService.route)) m.headerBytes ∧
        ClientRefuses pb hr m.headerBytes) := by
  have hheader : (copyMsg (some m.message)).header = m.headerBytes := by rw [copyMsg_eq]
  have hbody : (copyMsg (some m.message)).body = m.bodyBytes := by rw [copyMsg_eq]
  constructor
  · intro h
    by_cases hfits : m.bodyBytes.length < 2 ^ 31
    · exact .inl hfits
    refine .inr ⟨(getBody_copy_iff m).mp h.getBody, ?_, ?_⟩
    · by_contra hserver
      rw [← hheader] at hserver
      have hsize := h.beginOperation _ (beginOperationSize_eq hserver)
      rw [hbody] at hsize
      exact hfits (parseSize_iff.mp hsize)
    · by_contra hclient
      rw [← hheader] at hclient
      have hsize := h.execClientEnd _ (execClientEndSize_eq hclient)
      rw [hbody] at hsize
      exact hfits (parseSize_iff.mp hsize)
  · intro h
    have hlong : m.bodyBytes.length < 2 ^ 32 := by
      rcases h with hfits | ⟨hlong, -, -⟩
      · omega
      · exact hlong
    refine ⟨hheader, hbody, getHeader_copy m, (getBody_copy_iff m).mpr hlong, ?_, ?_⟩
    · intro size hmem
      by_cases hserver : ServerRefuses pb (router (svcList.map GeneratedService.route))
          (copyMsg (some m.message)).header
      · rw [beginOperationSize_none hserver] at hmem
        cases hmem
      · rw [beginOperationSize_eq hserver, hbody] at hmem
        obtain rfl := Option.some.inj hmem
        rw [hheader] at hserver
        exact parseSize_iff.mpr (h.resolve_right fun hrefused => hserver hrefused.2.1)
    · intro size hmem
      by_cases hclient : ClientRefuses pb hr (copyMsg (some m.message)).header
      · rw [execClientEndSize_none hclient] at hmem
        cases hmem
      · rw [execClientEndSize_eq hclient, hbody] at hmem
        obtain rfl := Option.some.inj hmem
        rw [hheader] at hclient
        exact parseSize_iff.mpr (h.resolve_right fun hrefused => hclient hrefused.2.2)

-- A chunk of so many zeros.
def zeros (n : ℕ) : Bytes := List.replicate n 0

theorem length_zeros (n : ℕ) : (zeros n).length = n := List.length_replicate

def zerosTwice (n : ℕ) (h : n < 2 ^ 32) : BufferedMessage where
  header := none
  body := [⟨zeros n, by rwa [length_zeros]⟩, ⟨zeros n, by rwa [length_zeros]⟩]
  msgCount := by simp

theorem bodyBytes_zerosTwice (n : ℕ) (h : n < 2 ^ 32) :
    (zerosTwice n h).bodyBytes.length = n + n := by
  simp [zerosTwice, BufferedMessage.bodyBytes, length_zeros]

-- Of two chunks of 2^31 bytes each, the copy shows none.
theorem two_chunks_do_not_survive :
    getBody (some (copyMsg (some (zerosTwice (2 ^ 31) (by omega)).message)).message) = [] ∧
      ¬Survives stringProtobuf (router ([Request.todo].map GeneratedService.route)) 0
        (zerosTwice (2 ^ 31) (by omega)) := by
  have hlength := bodyBytes_zerosTwice (2 ^ 31) (by omega)
  constructor
  · have hempty : (zerosTwice (2 ^ 31) (by omega)).bodyBytes.length % 2 ^ 32 = 0 := by
      omega
    rw [getBody_copy, bufferOf, hempty, List.take_zero]
  · intro h
    have hlong := (getBody_copy_iff _).mp h.getBody
    omega

end FabricRpc.V1
