import FabricRpc.Lib.Utf8
import Mathlib.Tactic.Ring

namespace FabricRpc.Lib

-- Base-128 varints: seven bits a byte, the lowest first, and the high bit set
-- in every byte but the last. `more` bounds the bytes after the first.
def encodeVarint : ℕ → ℕ → Bytes
  | 0, n => [UInt8.ofNat n]
  | more + 1, n =>
      if n < 128 then [UInt8.ofNat n]
      else UInt8.ofNat (n % 128 + 128) :: encodeVarint more (n / 128)

def decodeVarint : ℕ → Bytes → Option (ℕ × Bytes)
  | _, [] => none
  | 0, b :: rest => if b.toNat < 128 then some (b.toNat, rest) else none
  | more + 1, b :: rest =>
      if b.toNat < 128 then some (b.toNat, rest)
      else (decodeVarint more rest).map fun (n, rest) => (b.toNat - 128 + 128 * n, rest)

theorem toNat_ofNat {n : ℕ} (h : n < 256) : (UInt8.ofNat n).toNat = n := by
  simp [Nat.mod_eq_of_lt h]

theorem decode_encode_varint (more n : ℕ) (rest : Bytes) (h : n < 128 ^ (more + 1)) :
    decodeVarint more (encodeVarint more n ++ rest) = some (n, rest) := by
  induction more generalizing n with
  | zero =>
      have hn : n < 128 := by simpa using h
      have hbyte : (UInt8.ofNat n).toNat = n := toNat_ofNat (by omega)
      simp only [encodeVarint, List.singleton_append, decodeVarint, hbyte, hn, if_true]
  | succ more ih =>
      by_cases hn : n < 128
      · have hbyte : (UInt8.ofNat n).toNat = n := toNat_ofNat (by omega)
        simp only [encodeVarint, hn, if_true, List.singleton_append, decodeVarint, hbyte]
      · have hbyte : (UInt8.ofNat (n % 128 + 128)).toNat = n % 128 + 128 :=
          toNat_ofNat (by omega)
        have hdiv : n / 128 < 128 ^ (more + 1) := by
          rw [Nat.div_lt_iff_lt_mul (by decide)]
          simpa [pow_succ] using h
        have hbig : ¬n % 128 + 128 < 128 := by omega
        simp only [encodeVarint, hn, if_false, List.cons_append, decodeVarint, hbyte, hbig,
          ih (n / 128) hdiv, Option.map_some, Option.some.injEq, Prod.mk.injEq, and_true]
        omega

theorem encodeVarint_ne_nil (more n : ℕ) : encodeVarint more n ≠ [] := by
  cases more with
  | zero => simp [encodeVarint]
  | succ more =>
      unfold encodeVarint
      split <;> simp

-- The values of the wire format: a varint of up to 64 bits, eight or four
-- bytes, or bytes with their length in front.
inductive WireValue where
  | varint (n : ℕ)
  | fixed64 (bytes : Bytes)
  | len (bytes : Bytes)
  | fixed32 (bytes : Bytes)
  deriving DecidableEq

structure WireField where
  number : ℕ
  value : WireValue
  deriving DecidableEq

namespace WireValue

def wireType : WireValue → ℕ
  | .varint _ => 0
  | .fixed64 _ => 1
  | .len _ => 2
  | .fixed32 _ => 5

def encode : WireValue → Bytes
  | .varint n => encodeVarint 9 n
  | .fixed64 bytes => bytes
  | .len bytes => encodeVarint 9 bytes.length ++ bytes
  | .fixed32 bytes => bytes

-- The values that the format can carry.
def Fits : WireValue → Prop
  | .varint n => n < 2 ^ 64
  | .fixed64 bytes => bytes.length = 8
  | .len bytes => bytes.length < 2 ^ 64
  | .fixed32 bytes => bytes.length = 4

end WireValue

-- The first bytes, if there are so many, and the rest.
def splitBytes (n : ℕ) (bytes : Bytes) : Option (Bytes × Bytes) :=
  if n ≤ bytes.length then some (bytes.take n, bytes.drop n) else none

theorem splitBytes_append (bytes rest : Bytes) :
    splitBytes bytes.length (bytes ++ rest) = some (bytes, rest) := by
  simp [splitBytes]

def decodeValue (wireType : ℕ) (bytes : Bytes) : Option (WireValue × Bytes) :=
  match wireType with
  | 0 => (decodeVarint 9 bytes).map fun (n, rest) => (.varint n, rest)
  | 1 => (splitBytes 8 bytes).map fun (value, rest) => (.fixed64 value, rest)
  | 2 =>
      match decodeVarint 9 bytes with
      | none => none
      | some (n, rest) => (splitBytes n rest).map fun (value, rest) => (.len value, rest)
  | 5 => (splitBytes 4 bytes).map fun (value, rest) => (.fixed32 value, rest)
  | _ => none

theorem lt_varint_bound {n : ℕ} (h : n < 2 ^ 64) : n < 128 ^ (9 + 1) := by
  have hpow : (2 : ℕ) ^ 64 ≤ 128 ^ (9 + 1) := by decide
  omega

theorem decode_encode_value (value : WireValue) (rest : Bytes) (h : value.Fits) :
    decodeValue value.wireType (value.encode ++ rest) = some (value, rest) := by
  cases value with
  | varint n =>
      simp only [WireValue.wireType, WireValue.encode, decodeValue,
        decode_encode_varint 9 n rest (lt_varint_bound h), Option.map_some]
  | fixed64 bytes =>
      have hlen : bytes.length = 8 := h
      simp only [WireValue.wireType, WireValue.encode, decodeValue, ← hlen, splitBytes_append,
        Option.map_some]
  | len bytes =>
      simp only [WireValue.wireType, WireValue.encode, decodeValue, List.append_assoc,
        decode_encode_varint 9 bytes.length (bytes ++ rest) (lt_varint_bound h),
        splitBytes_append, Option.map_some]
  | fixed32 bytes =>
      have hlen : bytes.length = 4 := h
      simp only [WireValue.wireType, WireValue.encode, decodeValue, ← hlen, splitBytes_append,
        Option.map_some]

namespace WireField

def encode (f : WireField) : Bytes :=
  encodeVarint 9 (f.number * 8 + f.value.wireType) ++ f.value.encode

def Fits (f : WireField) : Prop := 0 < f.number ∧ f.number < 2 ^ 29 ∧ f.value.Fits

end WireField

-- A tag has the field number over the wire type. No field has the number zero.
def decodeField (bytes : Bytes) : Option (WireField × Bytes) :=
  match decodeVarint 9 bytes with
  | none => none
  | some (tag, rest) =>
      if tag / 8 = 0 then none
      else (decodeValue (tag % 8) rest).map fun (value, rest) => (⟨tag / 8, value⟩, rest)

theorem wireType_lt (value : WireValue) : value.wireType < 8 := by
  cases value <;> simp [WireValue.wireType]

theorem decode_encode_field (f : WireField) (rest : Bytes) (h : f.Fits) :
    decodeField (f.encode ++ rest) = some (f, rest) := by
  obtain ⟨hpos, hlt, hvalue⟩ := h
  have htype := wireType_lt f.value
  have htag : f.number * 8 + f.value.wireType < 2 ^ 64 := by omega
  have hnumber : (f.number * 8 + f.value.wireType) / 8 = f.number := by omega
  have hwire : (f.number * 8 + f.value.wireType) % 8 = f.value.wireType := by omega
  have hne : ¬f.number = 0 := by omega
  simp only [decodeField, WireField.encode, List.append_assoc,
    decode_encode_varint 9 _ _ (lt_varint_bound htag), hnumber, hwire, hne, if_false,
    decode_encode_value f.value rest hvalue, Option.map_some]

def encodeFields (fields : List WireField) : Bytes := fields.flatMap WireField.encode

-- `fuel` bounds the number of fields, each of which takes a byte at least.
def decodeFieldsUpTo : ℕ → Bytes → Option (List WireField)
  | _, [] => some []
  | 0, _ :: _ => none
  | fuel + 1, bytes =>
      match decodeField bytes with
      | none => none
      | some (f, rest) => (decodeFieldsUpTo fuel rest).map (f :: ·)

def decodeFields (bytes : Bytes) : Option (List WireField) :=
  decodeFieldsUpTo bytes.length bytes

theorem encode_field_length_pos (f : WireField) : 0 < f.encode.length := by
  have htag := List.length_pos_of_ne_nil (encodeVarint_ne_nil 9 (f.number * 8 + f.value.wireType))
  simp only [WireField.encode, List.length_append]
  omega

theorem length_le_encodeFields (fields : List WireField) :
    fields.length ≤ (encodeFields fields).length := by
  induction fields with
  | nil => simp
  | cons f fields ih =>
      have hf := encode_field_length_pos f
      simp only [encodeFields, List.flatMap_cons, List.length_append, List.length_cons] at ih ⊢
      omega

theorem decodeFieldsUpTo_encode (fields : List WireField) (fuel : ℕ)
    (hfuel : fields.length ≤ fuel) (h : ∀ f ∈ fields, f.Fits) :
    decodeFieldsUpTo fuel (encodeFields fields) = some fields := by
  induction fields generalizing fuel with
  | nil => cases fuel <;> rfl
  | cons f fields ih =>
      cases fuel with
      | zero => simp at hfuel
      | succ fuel =>
          have hne : f.encode ++ encodeFields fields ≠ [] := by
            have hpos := encode_field_length_pos f
            intro hnil
            simp [List.append_eq_nil_iff.mp hnil] at hpos
          have hrest := ih fuel (by simpa using hfuel) fun g hg => h g (List.mem_cons_of_mem f hg)
          have hfield := decode_encode_field f (encodeFields fields) (h f List.mem_cons_self)
          have hcons : encodeFields (f :: fields) = f.encode ++ encodeFields fields := by
            simp [encodeFields]
          rw [hcons]
          obtain ⟨b, rest, hb⟩ := List.exists_cons_of_ne_nil hne
          rw [hb] at hfield ⊢
          simp only [decodeFieldsUpTo, hfield, hrest, Option.map_some]

-- What was encoded is decoded.
theorem decode_encode_fields (fields : List WireField) (h : ∀ f ∈ fields, f.Fits) :
    decodeFields (encodeFields fields) = some fields :=
  decodeFieldsUpTo_encode fields _ (length_le_encodeFields fields) h

end FabricRpc.Lib
