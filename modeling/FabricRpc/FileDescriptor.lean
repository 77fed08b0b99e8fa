import FabricRpc.V1.Generator

namespace FabricRpc.Pb

open Lib

-- A message: the package of its file, the messages it is nested in, and its name.
structure Descriptor where
  package : Package
  outer : List Ident
  name : Ident
  deriving DecidableEq

namespace Descriptor

-- The class that protoc generates for it, in the namespace of the package,
def className (message : Descriptor) : Bytes :=
  (message.outer.flatMap fun i => i.bytes ++ lit "_") ++ message.name.bytes

-- and its name from outside of all namespaces.
def qualifiedName (message : Descriptor) : Bytes :=
  (message.package.flatMap fun i => i.bytes ++ lit "::") ++ message.className

end Descriptor

structure MethodDescriptor where
  name : Ident
  inputType : Descriptor
  outputType : Descriptor
  clientStreaming : Bool
  serverStreaming : Bool
  deriving DecidableEq

-- What the generators ask a method for. Of its messages that is `name()`.
def MethodDescriptor.read (method : MethodDescriptor) : V1.MethodDescriptor :=
  ⟨method.name, method.inputType.name, method.outputType.name, method.clientStreaming,
    method.serverStreaming⟩

structure ServiceDescriptor where
  name : Ident
  methods : List MethodDescriptor
  nodup : (methods.map MethodDescriptor.name).Nodup

def ServiceDescriptor.read (package : Package) (service : ServiceDescriptor) :
    V1.ServiceDescriptor where
  package := package
  name := service.name
  methods := service.methods.map MethodDescriptor.read
  nodup := by
    rw [List.map_map]
    exact service.nodup

theorem filter_read (service : ServiceDescriptor) (package : Package)
    {value : V1.MethodDescriptor → Bytes} :
    ((service.read package).methods.filter V1.MethodDescriptor.noStreaming).map value =
      (service.methods.filter fun method => method.read.noStreaming).map
        fun method => value method.read := by
  rw [ServiceDescriptor.read, List.filter_map, List.map_map]
  rfl

structure FileDescriptor where
  package : Package
  services : List ServiceDescriptor
  nodup : (services.map ServiceDescriptor.name).Nodup

section Names

theorem className_not_mem (message : Descriptor) {b : UInt8} (hb : identByte b = false) :
    b ∉ message.className := by
  rw [Descriptor.className, List.mem_append, not_or]
  refine ⟨fun hmem => ?_, ident_not_mem message.name hb⟩
  obtain ⟨i, -, hmem⟩ := List.mem_flatMap.mp hmem
  rcases List.mem_append.mp hmem with hmem | hmem
  · exact ident_not_mem i hb hmem
  · obtain rfl : b = 0x5F := by simpa [lit] using hmem
    exact absurd hb (by decide)

-- A class without an underscore is that of a message that is not nested.
theorem className_eq_iff (message : Descriptor) {i : Ident} (hi : 0x5F ∉ i.bytes) :
    message.className = i.bytes ↔ message.outer = [] ∧ message.name = i := by
  cases houter : message.outer with
  | nil => simp [Descriptor.className, houter, Ident.bytes_inj]
  | cons o os =>
      simp only [Descriptor.className, houter, List.flatMap_cons, reduceCtorEq, false_and,
        iff_false]
      intro heq
      exact hi (heq ▸ by simp [lit])

theorem qualifiedName_eq_iff (message : Descriptor) {i j : Ident} (hj : 0x5F ∉ j.bytes) :
    message.qualifiedName = i.bytes ++ lit "::" ++ j.bytes ↔
      message.package = [i] ∧ message.outer = [] ∧ message.name = j := by
  have hcolon (k : Ident) : (0x3A : UInt8) ∉ k.bytes := ident_not_mem k (by decide)
  have hsplit : i.bytes ++ lit "::" ++ j.bytes = i.bytes ++ 0x3A :: (0x3A :: j.bytes) := by
    simp [lit]
  rw [← className_eq_iff message hj, hsplit]
  cases hpackage : message.package with
  | nil =>
      simp only [Descriptor.qualifiedName, hpackage, List.flatMap_nil, List.nil_append,
        List.ne_cons_self, false_and, iff_false]
      intro heq
      exact className_not_mem message (by decide : identByte 0x3A = false) (heq ▸ by simp)
  | cons k ks =>
      have hcons : message.qualifiedName = k.bytes ++ 0x3A :: (0x3A ::
          ((ks.flatMap fun i => i.bytes ++ lit "::") ++ message.className)) := by
        simp [Descriptor.qualifiedName, hpackage, lit]
      rw [hcons]
      constructor
      · intro heq
        obtain ⟨hk, htail⟩ := append_cons_inj (hcolon k) (hcolon i) heq
        have hrest := (List.cons.inj htail).2
        obtain rfl := Ident.bytes_inj.mp hk
        cases ks with
        | nil => exact ⟨rfl, by simpa using hrest⟩
        | cons l ls => exact absurd (hrest ▸ by simp [lit]) (hcolon j)
      · rintro ⟨hks, hclass⟩
        obtain ⟨rfl, rfl⟩ := List.cons.inj hks
        rw [hclass]
        rfl

end Names

end FabricRpc.Pb
