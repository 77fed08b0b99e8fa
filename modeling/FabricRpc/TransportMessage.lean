import FabricRpc.Lib.Utf8
import Mathlib.Algebra.Ring.Nat

namespace FabricRpc

open Lib

-- IFabricTransportMessage: what GetHeaderAndBodyBuffer gives. A buffer is the
-- bytes that its pointer and its size show, and the header may be a nullptr.
structure TransportMessage where
  header : Option Bytes
  body : List Bytes
  deriving DecidableEq

-- A buffer over a string, with `static_cast<ULONG>(size())`.
def bufferOf (s : Bytes) : Bytes := s.take (s.length % 2 ^ 32)

theorem bufferOf_eq {s : Bytes} (h : s.length < 2 ^ 32) : bufferOf s = s := by
  rw [bufferOf, Nat.mod_eq_of_lt h, List.take_length]

@[simp] theorem bufferOf_nil : bufferOf [] = [] := rfl

-- get_header and get_body, of which both stacks have a copy.
def getHeader : Option TransportMessage → Bytes
  | none => []
  | some message => message.header.getD []

def getBody : Option TransportMessage → Bytes
  | none => []
  | some message => message.body.flatten

-- tool_transport_msg
def toolTransportMsg (body headers : Bytes) : TransportMessage :=
  ⟨some (bufferOf headers), [bufferOf body]⟩

@[simp] theorem getHeader_toolTransportMsg (body headers : Bytes) :
    getHeader (some (toolTransportMsg body headers)) = bufferOf headers := rfl

@[simp] theorem getBody_toolTransportMsg (body headers : Bytes) :
    getBody (some (toolTransportMsg body headers)) = bufferOf body := by
  simp [getBody, toolTransportMsg]

-- FRPCTransportMessage
structure FRPCTransportMessage where
  header : Bytes
  body : Bytes
  deriving DecidableEq

namespace FRPCTransportMessage

-- Initialize
def init (header body : Bytes) : FRPCTransportMessage := ⟨header, body⟩

def copyMsg (other : Option TransportMessage) : FRPCTransportMessage :=
  init (getHeader other) (getBody other)

-- The same object as an IFabricTransportMessage.
def message (msg : FRPCTransportMessage) : TransportMessage :=
  ⟨some (bufferOf msg.header), [bufferOf msg.body]⟩

theorem copyMsg_message (header body : Bytes) :
    copyMsg (some (init header body).message) =
      init (bufferOf header) (bufferOf body) := by
  simp [copyMsg, init, message, getHeader, getBody]

end FRPCTransportMessage

end FabricRpc
