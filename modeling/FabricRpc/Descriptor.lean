import FabricRpc.Lib.Text
import FabricRpc.Lib.Utf8
import Mathlib.Data.List.Basic

namespace FabricRpc

open Lib

-- A name in a proto file: letters, digits and underscores.
def identByte (b : UInt8) : Bool :=
  (0x61 ≤ b && b ≤ 0x7A) || (0x41 ≤ b && b ≤ 0x5A) || (0x30 ≤ b && b ≤ 0x39) || b == 0x5F

structure Ident where
  bytes : Bytes
  wellFormed : bytes ≠ [] ∧ bytes.all identByte = true
  deriving DecidableEq

theorem Ident.bytes_inj {i j : Ident} : i.bytes = j.bytes ↔ i = j := by
  cases i
  cases j
  simp

section Hello

-- The names of the example service of the repository.
theorem helloPackage_wellFormed :
    lit "helloworld" ≠ [] ∧ (lit "helloworld").all identByte = true := by decide

theorem helloService_wellFormed :
    lit "FabricHello" ≠ [] ∧ (lit "FabricHello").all identByte = true := by decide

theorem helloMethod_wellFormed :
    lit "SayHello" ≠ [] ∧ (lit "SayHello").all identByte = true := by decide

end Hello

-- A package, by its parts. `vars["Package"]` of the generators has a dot after each.
abbrev Package := List Ident

def Package.scope (package : Package) : Bytes := package.flatMap fun i => i.bytes ++ lit "."

-- "/$Package$$Service$/$Method$"
def methodUrl (package : Package) (service method : Ident) : Bytes :=
  lit "/" ++ package.scope ++ service.bytes ++ lit "/" ++ method.bytes

-- A name has no byte but those of names, so no dot, slash or dollar sign.
theorem ident_not_mem (i : Ident) {b : UInt8} (hb : identByte b = false) : b ∉ i.bytes := by
  intro hmem
  rw [List.all_eq_true.mp i.wellFormed.2 b hmem] at hb
  exact absurd hb (by simp)

theorem scope_not_mem (package : Package) {b : UInt8} (hb : identByte b = false)
    (hdot : b ≠ 0x2E) : b ∉ package.scope := by
  intro hmem
  obtain ⟨i, -, hmem⟩ := List.mem_flatMap.mp hmem
  rcases List.mem_append.mp hmem with hmem | hmem
  · exact ident_not_mem i hb hmem
  · exact hdot (by simpa [lit] using hmem)

-- The full name of a service has its package and its name.
theorem fullName_inj {package package' : Package} {service service' : Ident}
    (h : package.scope ++ service.bytes = package'.scope ++ service'.bytes) :
    package = package' ∧ service = service' := by
  have hdot (i : Ident) : (0x2E : UInt8) ∉ i.bytes := ident_not_mem i (by decide)
  -- A name cannot be a scope and a name: there is no dot in it.
  have hne (i : Ident) (is : Package) (j k : Ident) :
      k.bytes ≠ Package.scope (i :: is) ++ j.bytes := by
    intro heq
    apply hdot k
    rw [heq]
    simp [Package.scope, lit]
  induction package generalizing package' with
  | nil =>
      cases package' with
      | nil => exact ⟨rfl, Ident.bytes_inj.mp h⟩
      | cons i is => exact absurd h (hne i is service' service)
  | cons i is ih =>
      cases package' with
      | nil => exact absurd h.symm (hne i is service service')
      | cons i' is' =>
          have hcons (j : Ident) (js : Package) (k : Ident) :
              Package.scope (j :: js) ++ k.bytes =
                j.bytes ++ 0x2E :: (Package.scope js ++ k.bytes) := by
            simp [Package.scope, lit]
          rw [hcons, hcons] at h
          obtain ⟨hi, htail⟩ := append_cons_inj (hdot i) (hdot i') h
          obtain ⟨rfl, rfl⟩ := ih htail
          obtain rfl := Ident.bytes_inj.mp hi
          exact ⟨rfl, rfl⟩

-- A url has the package, the service and the method.
theorem methodUrl_inj {package package' : Package} {service service' method method' : Ident}
    (h : methodUrl package service method = methodUrl package' service' method') :
    package = package' ∧ service = service' ∧ method = method' := by
  have hname (p : Package) (i : Ident) : (0x2F : UInt8) ∉ p.scope ++ i.bytes := by
    rw [List.mem_append, not_or]
    exact ⟨scope_not_mem p (by decide) (by decide), ident_not_mem i (by decide)⟩
  have hsplit (p : Package) (i j : Ident) :
      methodUrl p i j = 0x2F :: ((p.scope ++ i.bytes) ++ 0x2F :: j.bytes) := by
    simp [methodUrl, lit]
  rw [hsplit, hsplit] at h
  obtain ⟨hfull, hmethod⟩ := append_cons_inj (hname _ _) (hname _ _) (List.cons.inj h).2
  obtain ⟨rfl, rfl⟩ := fullName_inj hfull
  obtain rfl := Ident.bytes_inj.mp hmethod
  exact ⟨rfl, rfl, rfl⟩

theorem ident_ascii (i : Ident) {b : UInt8} (hb : b ∈ i.bytes) : b < 0x80 := by
  have h := List.all_eq_true.mp i.wellFormed.2 b hb
  simp only [identByte, Bool.or_eq_true, Bool.and_eq_true, decide_eq_true_eq, beq_iff_eq] at h
  rcases h with ((⟨-, h⟩ | ⟨-, h⟩) | ⟨-, h⟩) | rfl
  · exact UInt8.lt_of_le_of_lt h (by decide)
  · exact UInt8.lt_of_le_of_lt h (by decide)
  · exact UInt8.lt_of_le_of_lt h (by decide)
  · decide

theorem scope_ascii (package : Package) {b : UInt8} (hb : b ∈ package.scope) : b < 0x80 := by
  obtain ⟨i, -, hb⟩ := List.mem_flatMap.mp hb
  rcases List.mem_append.mp hb with hb | hb
  · exact ident_ascii i hb
  · obtain rfl : b = 0x2E := by simpa [lit] using hb
    decide

theorem methodUrl_ascii (package : Package) (service method : Ident) {b : UInt8}
    (hb : b ∈ methodUrl package service method) : b < 0x80 := by
  have hslash (hb : b ∈ lit "/") : b < 0x80 := by
    obtain rfl : b = 0x2F := by simpa [lit] using hb
    decide
  simp only [methodUrl, List.mem_append] at hb
  rcases hb with (((hb | hb) | hb) | hb) | hb
  · exact hslash hb
  · exact scope_ascii package hb
  · exact ident_ascii service hb
  · exact hslash hb
  · exact ident_ascii method hb

theorem methodUrl_valid (package : Package) (service method : Ident) :
    validUtf8 (methodUrl package service method) = true :=
  validUtf8_of_ascii fun _ hb => methodUrl_ascii package service method hb

end FabricRpc
