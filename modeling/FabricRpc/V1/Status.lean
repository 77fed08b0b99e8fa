import FabricRpc.Lib.Utf8

namespace FabricRpc.V1

open Lib

-- The status codes, of a C++ enum that is an int.
abbrev StatusCode := Int32

namespace StatusCode

def OK : StatusCode := 0

def UNKNOWN : StatusCode := 2

def INVALID_ARGUMENT : StatusCode := 3

def DEADLINE_EXCEEDED : StatusCode := 4

def NOT_FOUND : StatusCode := 5

def INTERNAL : StatusCode := 13

def FABRIC_TRANSPORT_ERROR : StatusCode := 50

end StatusCode

structure Status where
  errorCode : StatusCode
  errorMessage : Bytes
  transportErrorCode : Int32
  deriving DecidableEq

namespace Status

-- Status(code, error_message)
def make (code : StatusCode) (errorMessage : Bytes) : Status := ⟨code, errorMessage, 0⟩

-- Status()
def ok : Status := make StatusCode.OK (lit "OK")

-- operator bool
def failed (st : Status) : Bool := st.errorCode != StatusCode.OK

def isTransportError (st : Status) : Bool := st.errorCode == StatusCode.FABRIC_TRANSPORT_ERROR

@[simp] theorem make_errorCode (code : StatusCode) (message : Bytes) :
    (make code message).errorCode = code := rfl

@[simp] theorem make_errorMessage (code : StatusCode) (message : Bytes) :
    (make code message).errorMessage = message := rfl

@[simp] theorem failed_ok : ok.failed = false := rfl

@[simp] theorem failed_make (code : StatusCode) (message : Bytes) :
    (make code message).failed = (code != StatusCode.OK) := rfl

theorem failed_iff {st : Status} : st.failed = true ↔ st.errorCode ≠ 0 := by
  simp [failed, StatusCode.OK]

end Status

end FabricRpc.V1
