import FabricRpc.V1.Generator.Names
import FabricRpc.V2.Generator.Names

namespace FabricRpc

open Lib Pb

-- What the names of a file need: a package of one part that is a name in C++, and of
-- every method what a generator needs.
structure NamesVisible (file : FileDescriptor)
    (resolves : Pb.ServiceDescriptor → Pb.MethodDescriptor → Prop) : Prop where
  package : ∃ i, file.package = [i] ∧ cppName i.bytes = true
  methods : ∀ service ∈ file.services, ∀ method ∈ service.methods, resolves service method

-- The names that both generators print mean the messages that they are printed for
-- exactly when these are visible and not hidden by what is printed around them, and the
-- second generator also needs every unary method to have the messages of the example.
theorem generated_names_resolve_iff {file : FileDescriptor} (pool : Pool file)
    (hne : file.package ≠ []) :
    (NamesResolve pool (V1.printed file) ↔ NamesVisible file (V1.MethodResolves pool)) ∧
    (NamesResolve pool (V2.printed file) ↔ NamesVisible file (V2.MethodResolves pool)) := by
  constructor
  · rw [V1.names_resolve_iff hne]
    exact ⟨fun h => ⟨h.1, h.2⟩, fun h => ⟨h.package, h.methods⟩⟩
  · rw [V2.names_resolve_iff hne]
    exact ⟨fun h => ⟨h.1, h.2⟩, fun h => ⟨h.package, h.methods⟩⟩

-- A file with one unary method, whose messages are declared in its package.
def fileOf (package : Package) : FileDescriptor :=
  ⟨package, [⟨V2.helloService, [⟨V2.helloMethod, ⟨package, [], V2.helloRequest.name⟩,
    ⟨package, [], V2.helloResponse.name⟩, false, false⟩], by simp⟩], by simp⟩

def poolOf (package : Package) : Pool (fileOf package) where
  packages := [package]
  messages := [⟨package, [], V2.helloRequest.name⟩, ⟨package, [], V2.helloResponse.name⟩]
  types := []
  objects := []
  own := List.mem_singleton_self _
  packaged := by simp
  mentioned := by simp [fileOf]
  distinct := by
    intro message hmessage _ other hother hpackage
    obtain rfl := List.mem_singleton.mp hother
    have hlength := hpackage.length_le
    rw [List.length_append, List.length_singleton] at hlength
    rcases List.mem_pair.mp hmessage with rfl | rfl
    · exact absurd hlength (Nat.not_succ_le_self _)
    · exact absurd hlength (Nat.not_succ_le_self _)
  apart := by simp

-- It is the file of the example.
theorem generated_names_hello :
    NamesResolve (poolOf [V2.helloPackage]) (V1.printed (fileOf [V2.helloPackage])) ∧
    NamesResolve (poolOf [V2.helloPackage]) (V2.printed (fileOf [V2.helloPackage])) := by
  have hiff := generated_names_resolve_iff (poolOf [V2.helloPackage]) (List.cons_ne_nil _ _)
  have hpackage : ∃ i, (fileOf [V2.helloPackage]).package = [i] ∧ cppName i.bytes = true :=
    ⟨V2.helloPackage, rfl, by decide⟩
  have hclear {taken : List Bytes} {message : Descriptor} (houter : message.outer = [])
      (hown : message.package = [V2.helloPackage]) (hname : cppName message.name.bytes = true)
      (hfree : message.name.bytes ∉ taken) : Clear (poolOf [V2.helloPackage]) taken message :=
    ⟨⟨houter, .inl hown⟩, hname, hfree⟩
  refine ⟨hiff.1.mpr ⟨hpackage, ?_⟩, hiff.2.mpr ⟨hpackage, ?_⟩⟩
  · intro service hservice method hmethod
    obtain rfl := List.mem_singleton.mp hservice
    obtain rfl := List.mem_singleton.mp hmethod
    exact ⟨hclear rfl rfl (by decide) (by decide), hclear rfl rfl (by decide) (by decide),
      fun _ => ⟨hclear rfl rfl (by decide) (by decide), hclear rfl rfl (by decide) (by decide)⟩⟩
  · intro service hservice method hmethod
    obtain rfl := List.mem_singleton.mp hservice
    obtain rfl := List.mem_singleton.mp hmethod
    exact ⟨hclear rfl rfl (by decide) (by decide), hclear rfl rfl (by decide) (by decide),
      fun _ => ⟨hclear rfl rfl (by decide) (by decide), hclear rfl rfl (by decide) (by decide),
        ⟨rfl, rfl, rfl, by decide, by decide⟩⟩⟩

-- A package of two parts gives no namespace.
theorem generated_names_unresolved : ∃ (file : FileDescriptor) (pool : Pool file),
    file.package ≠ [] ∧ ¬ NamesResolve pool (V1.printed file) ∧
      ¬ NamesResolve pool (V2.printed file) := by
  let package : Package := [⟨lit "a", by decide⟩, ⟨lit "b", by decide⟩]
  have htwo : ¬ ∃ i, package = [i] ∧ cppName i.bytes = true := by simp [package]
  refine ⟨fileOf package, poolOf package, List.cons_ne_nil _ _, fun h => ?_, fun h => ?_⟩
  · exact htwo ((V1.names_resolve_iff (List.cons_ne_nil _ _)).mp h).1
  · exact htwo ((V2.names_resolve_iff (List.cons_ne_nil _ _)).mp h).1

end FabricRpc
