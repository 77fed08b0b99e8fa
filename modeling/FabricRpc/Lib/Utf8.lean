import Mathlib.Data.List.Basic

namespace FabricRpc.Lib

abbrev Bytes := List UInt8

-- A string literal, which is ASCII.
def lit (s : String) : Bytes := s.toList.map fun c => UInt8.ofNat c.toNat

-- A literal is a list of characters to the kernel, so this is how long ones are evaluated.
theorem lit_ofList (cs : List Char) :
    lit (String.ofList cs) = cs.map fun c => UInt8.ofNat c.toNat := by
  rw [lit, String.toList_ofList]

-- The states of a validator of UTF-8. After the first byte of a sequence it
-- counts the continuation bytes to come. Where the second byte is restricted
-- (overlong forms, surrogates, beyond U+10FFFF) the state is the first byte.
inductive Utf8State where
  | start
  | tail1
  | tail2
  | tail3
  | e0
  | ed
  | f0
  | f4
  | reject
  deriving DecidableEq

namespace Utf8State

def between (lo hi b : UInt8) : Bool := lo ≤ b && b ≤ hi

def first (b : UInt8) : Utf8State :=
  if b < 0x80 then .start
  else if between 0xC2 0xDF b then .tail1
  else if b = 0xE0 then .e0
  else if b = 0xED then .ed
  else if between 0xE1 0xEF b then .tail2
  else if b = 0xF0 then .f0
  else if between 0xF1 0xF3 b then .tail3
  else if b = 0xF4 then .f4
  else .reject

def step : Utf8State → UInt8 → Utf8State
  | .start, b => first b
  | .tail1, b => if between 0x80 0xBF b then .start else .reject
  | .tail2, b => if between 0x80 0xBF b then .tail1 else .reject
  | .tail3, b => if between 0x80 0xBF b then .tail2 else .reject
  | .e0, b => if between 0xA0 0xBF b then .tail1 else .reject
  | .ed, b => if between 0x80 0x9F b then .tail1 else .reject
  | .f0, b => if between 0x90 0xBF b then .tail2 else .reject
  | .f4, b => if between 0x80 0x8F b then .tail2 else .reject
  | .reject, _ => .reject

end Utf8State

def validUtf8 (bytes : Bytes) : Bool := bytes.foldl Utf8State.step .start == .start

@[simp] theorem validUtf8_nil : validUtf8 [] = true := rfl

-- After a valid string the validator starts over.
theorem validUtf8_append {bytes : Bytes} (h : validUtf8 bytes = true) (more : Bytes) :
    validUtf8 (bytes ++ more) = validUtf8 more := by
  have hstart : bytes.foldl Utf8State.step .start = .start := by simpa [validUtf8] using h
  rw [validUtf8, List.foldl_append, hstart, validUtf8]

theorem validUtf8_of_ascii {bytes : Bytes} (h : ∀ b ∈ bytes, b < 0x80) :
    validUtf8 bytes = true := by
  induction bytes with
  | nil => rfl
  | cons b bytes ih =>
      have hb : validUtf8 [b] = true := by
        have hlt := h b List.mem_cons_self
        simp [validUtf8, Utf8State.step, Utf8State.first, hlt]
      have hrest := ih fun c hc => h c (List.mem_cons_of_mem b hc)
      rw [← List.singleton_append, validUtf8_append hb, hrest]

end FabricRpc.Lib
