import FabricRpc.Lib.Wire
import FabricRpc.Protobuf

namespace FabricRpc

open Lib

-- A proto3 message type in the wire format: the fields it writes, and how it
-- takes in a field that it reads. A field of no interest is skipped.
structure Proto3 (M : Type*) where
  empty : M
  fields : M → List WireField
  merge : M → WireField → Option M

namespace Proto3

variable {M : Type*}

def serialize (p : Proto3 M) (m : M) : Bytes × Bool :=
  let out := encodeFields (p.fields m)
  if out.length < 2 ^ 31 then (out, true) else ([], false)

def parse (p : Proto3 M) (bytes : Bytes) : M × Bool :=
  match decodeFields bytes with
  | none => (p.empty, false)
  | some fields =>
      match fields.foldlM p.merge p.empty with
      | none => (p.empty, false)
      | some m => (m, true)

def codec (p : Proto3 M) : Codec M := ⟨p.serialize, p.parse, p.parse⟩

-- What makes a message type a lawful one.
structure Regular (p : Proto3 M) (stringsValid : M → Prop) : Prop where
  fits : ∀ m, ∀ f ∈ p.fields m, 0 < f.number ∧ f.number < 2 ^ 29 ∧
    (f.value.Fits ∨ ∃ bytes, f.value = .len bytes)
  merge_fields : ∀ m, stringsValid m → (p.fields m).foldlM p.merge p.empty = some m
  merge_valid : ∀ m f m', stringsValid m → p.merge m f = some m' → stringsValid m'
  empty_valid : stringsValid p.empty
  empty_fields : p.fields p.empty = []

theorem length_le_of_mem {fields : List WireField} {f : WireField} {bytes : Bytes}
    (hf : f ∈ fields) (hvalue : f.value = .len bytes) :
    bytes.length ≤ (encodeFields fields).length := by
  have hfield : bytes.length ≤ f.encode.length := by
    simp [WireField.encode, hvalue, WireValue.encode]
    omega
  obtain ⟨before, after, rfl⟩ := List.append_of_mem hf
  simp only [encodeFields, List.flatMap_append, List.flatMap_cons, List.length_append]
  omega

theorem foldlM_valid {p : Proto3 M} {stringsValid : M → Prop} (hr : p.Regular stringsValid)
    (fields : List WireField) (m m' : M) (hm : stringsValid m)
    (h : fields.foldlM p.merge m = some m') : stringsValid m' := by
  induction fields generalizing m with
  | nil =>
      obtain rfl : m = m' := by simpa using h
      exact hm
  | cons f fields ih =>
      rw [List.foldlM_cons] at h
      cases hmerge : p.merge m f with
      | none => simp [hmerge] at h
      | some next =>
          simp only [hmerge] at h
          exact ih next (hr.merge_valid m f next hm hmerge) h

theorem parse_valid {p : Proto3 M} {stringsValid : M → Prop} (hr : p.Regular stringsValid)
    (bytes : Bytes) (m : M) (h : p.parse bytes = (m, true)) : stringsValid m := by
  simp only [parse] at h
  split at h
  · exact absurd (congrArg Prod.snd h) (by simp)
  · split at h
    · exact absurd (congrArg Prod.snd h) (by simp)
    · rename_i hfold
      obtain rfl := congrArg Prod.fst h
      exact foldlM_valid hr _ _ _ hr.empty_valid hfold

theorem codec_lawful {p : Proto3 M} {stringsValid : M → Prop} (hr : p.Regular stringsValid) :
    p.codec.Lawful stringsValid p.empty where
  parse_serialize := by
    intro m out hm hout
    simp only [codec, serialize] at hout
    split at hout
    · rename_i hsize
      obtain rfl := congrArg Prod.fst hout
      have hfits : ∀ f ∈ p.fields m, f.Fits := by
        intro f hf
        obtain ⟨hpos, hlt, hvalue⟩ := hr.fits m f hf
        refine ⟨hpos, hlt, ?_⟩
        rcases hvalue with hvalue | ⟨bytes, hbytes⟩
        · exact hvalue
        · have hle := length_le_of_mem hf hbytes
          rw [hbytes]
          change bytes.length < 2 ^ 64
          omega
      simp only [codec, parse, decode_encode_fields _ hfits, hr.merge_fields m hm]
    · exact absurd (congrArg Prod.snd hout) (by simp)
  parsed_valid := parse_valid hr
  array_valid := parse_valid hr
  array := fun _ _ => rfl
  serialize_empty := by
    simp [codec, serialize, hr.empty_fields, encodeFields]
  size := by
    intro m out hout
    simp only [codec, serialize] at hout
    split at hout
    · rename_i hsize
      obtain rfl := congrArg Prod.fst hout
      exact hsize
    · exact absurd (congrArg Prod.snd hout) (by simp)

end Proto3

-- A string field is written unless it is empty, and read if it is valid UTF-8.
def stringField (number : ℕ) (value : Bytes) : List WireField :=
  if value = [] then [] else [⟨number, .len value⟩]

-- An int32 field is written unless it is zero, with the sign extended to 64 bits.
def int32Field (number : ℕ) (value : Int32) : List WireField :=
  if value = 0 then [] else [⟨number, .varint (value.toInt % 2 ^ 64).toNat⟩]

def readInt32 (n : ℕ) : Int32 := Int32.ofInt n

theorem readInt32_extended (value : Int32) :
    readInt32 (value.toInt % 2 ^ 64).toNat = value := by
  have hpos : 0 ≤ value.toInt % 2 ^ 64 := Int.emod_nonneg _ (by decide)
  have hcast : (((value.toInt % 2 ^ 64).toNat : ℕ) : ℤ) = value.toInt % 2 ^ 64 :=
    Int.toNat_of_nonneg hpos
  rw [readInt32, hcast]
  apply Int32.toInt_inj.mp
  rw [Int32.toInt_ofInt]
  have hle := value.le_toInt
  have hlt := value.toInt_lt
  simp only [Int.bmod_def, Int32.size]
  omega

-- A message with one string field, such as the request header.
def stringMessage : Proto3 Bytes where
  empty := []
  fields := stringField 1
  merge
    | _, ⟨1, .len bytes⟩ => if validUtf8 bytes then some bytes else none
    | value, _ => some value

theorem stringMessage_regular : stringMessage.Regular (fun value => validUtf8 value = true) where
  fits := by
    intro value f hf
    simp only [stringMessage, stringField] at hf
    split at hf
    · simp at hf
    · obtain rfl := List.mem_singleton.mp hf
      exact ⟨by simp, by simp, .inr ⟨value, rfl⟩⟩
  merge_fields := by
    intro value hvalue
    by_cases hempty : value = []
    · simp [stringMessage, stringField, hempty]
    · simp [stringMessage, stringField, hempty, hvalue]
  merge_valid := by
    intro value f value' hvalue h
    simp only [stringMessage] at h
    split at h
    · split at h
      · rename_i hbytes
        obtain rfl := Option.some.inj h
        exact hbytes
      · simp at h
    · obtain rfl := Option.some.inj h
      exact hvalue
  empty_valid := rfl
  empty_fields := rfl

def requestHeaderMessage : Proto3 RequestHeader where
  empty := ⟨[]⟩
  fields h := stringMessage.fields h.url
  merge h f := (stringMessage.merge h.url f).map RequestHeader.mk

theorem requestHeaderMessage_regular :
    requestHeaderMessage.Regular (fun h => validUtf8 h.url = true) where
  fits := fun h => stringMessage_regular.fits h.url
  merge_fields := by
    rintro ⟨url⟩ hurl
    by_cases hempty : url = []
    · simp [requestHeaderMessage, stringMessage, stringField, hempty]
    · simp_all [requestHeaderMessage, stringMessage, stringField]
  merge_valid := by
    intro h f h' hurl hmerge
    obtain ⟨url, hurl', rfl⟩ := Option.map_eq_some_iff.mp hmerge
    exact stringMessage_regular.merge_valid h.url f url hurl hurl'
  empty_valid := rfl
  empty_fields := rfl

def replyHeaderMessage : Proto3 ReplyHeader where
  empty := ⟨0, []⟩
  fields h := int32Field 1 h.statusCode ++ stringField 2 h.statusMessage
  merge
    | h, ⟨1, .varint n⟩ => some { h with statusCode := readInt32 n }
    | h, ⟨2, .len bytes⟩ => if validUtf8 bytes then some { h with statusMessage := bytes } else none
    | h, _ => some h

theorem replyHeaderMessage_regular :
    replyHeaderMessage.Regular (fun h => validUtf8 h.statusMessage = true) where
  fits := by
    intro h f hf
    rcases List.mem_append.mp hf with hf | hf
    · simp only [int32Field] at hf
      split at hf
      · simp at hf
      · obtain rfl := List.mem_singleton.mp hf
        refine ⟨by simp, by simp, .inl ?_⟩
        change (h.statusCode.toInt % 2 ^ 64).toNat < 2 ^ 64
        omega
    · simp only [stringField] at hf
      split at hf
      · simp at hf
      · obtain rfl := List.mem_singleton.mp hf
        exact ⟨by simp, by simp, .inr ⟨_, rfl⟩⟩
  merge_fields := by
    intro h hmessage
    have hread := readInt32_extended h.statusCode
    obtain ⟨code, message⟩ := h
    by_cases hcode : code = 0
    · by_cases hempty : message = []
      · simp [replyHeaderMessage, int32Field, stringField, hcode, hempty]
      · simp_all [replyHeaderMessage, int32Field, stringField]
    · by_cases hempty : message = []
      · simp_all [replyHeaderMessage, int32Field, stringField]
      · simp_all [replyHeaderMessage, int32Field, stringField]
  merge_valid := by
    intro h f h' hmessage hmerge
    simp only [replyHeaderMessage] at hmerge
    split at hmerge
    · obtain rfl := Option.some.inj hmerge
      exact hmessage
    · split at hmerge
      · rename_i hbytes
        obtain rfl := Option.some.inj hmerge
        exact hbytes
      · simp at hmerge
    · obtain rfl := Option.some.inj hmerge
      exact hmessage
  empty_valid := rfl
  empty_fields := rfl

-- Services whose messages have one string field.
def stringProtobuf : Protobuf Unit fun _ => Bytes where
  requestHeader := requestHeaderMessage.codec
  replyHeader := replyHeaderMessage.codec
  payload := fun _ => stringMessage.codec
  stringsValid := fun _ value => validUtf8 value = true
  empty := fun _ => []

theorem stringProtobuf_lawful : stringProtobuf.Lawful where
  requestHeader := Proto3.codec_lawful requestHeaderMessage_regular
  replyHeader := Proto3.codec_lawful replyHeaderMessage_regular
  payload := fun _ => Proto3.codec_lawful stringMessage_regular

end FabricRpc
