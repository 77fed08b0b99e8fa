import FabricRpc.Preamble
import FabricRpc.V2.Generator.Files

namespace FabricRpc.V2

open Lib Printer
open V1 (dollar)

namespace PbGenMetaHeader

def generatedTemplate : Template [] := .ofText _
  (lit "// Generated by fabric_rpc2_cpp_plugin. Do not Edit.")
  [[.text (lit "// Generated by fabric_rpc2_cpp_plugin. Do not Edit.")]]
  (by
    repeat rw [lit_ofList]
    decide +kernel)

def includesTemplate : Template [] := .ofText _
  (lit "#include \"fabrictransport_.h\"\n" ++
    lit "#include \"fabricrpc/fabricrpc2.hpp\"\n")
  [[.text (lit "#include \"fabrictransport_.h\"")],
    [.text (lit "#include \"fabricrpc/fabricrpc2.hpp\"")]]
  (by
    repeat rw [lit_ofList]
    decide +kernel)

def generateContent (filename : Bytes) : Bytes :=
  let vars := preambleVars filename
  let p := (Printer.new.addLn generatedTemplate.text).addLnVars vars sourceTemplate.text
  let p := (p.addLnVars vars pragmaTemplate.text).addLnVars vars includeTemplate.text
  (p.add includesTemplate.text).output

theorem generateContent_eq {base : Bytes} (hdollar : dollar ∉ base) (hline : newline ∉ base) :
    generateContent (base ++ lit ".proto") =
    unlines newline [lit "// Generated by fabric_rpc2_cpp_plugin. Do not Edit.",
      lit "// source: " ++ base ++ lit ".proto", lit "#pragma once",
      lit "#include \"" ++ base ++ lit ".pb.h" ++ lit "\"",
      lit "#include \"fabrictransport_.h\"", lit "#include \"fabricrpc/fabricrpc2.hpp\""] := by
  have hvars := preambleVars_values hdollar hline
  have hgenerated : generatedTemplate.lines.map (source dollar) =
      [lit "// Generated by fabric_rpc2_cpp_plugin. Do not Edit."] := by
    simp [generatedTemplate, source, Piece.source]
  have hincludes : includesTemplate.lines.map (source dollar) =
      [lit "#include \"fabrictransport_.h\"", lit "#include \"fabricrpc/fabricrpc2.hpp\""] := by
    simp [includesTemplate, source, Piece.source]
  simp only [generateContent, Template.printLn, Template.print, Template.printLnPlain,
    Template.printLnVars _ _ hvars, hgenerated, fill_source, source_pragma, fill_include,
    hincludes, write_write, new_write, List.cons_append, List.nil_append]

end PbGenMetaHeader

-- The templates of the generator, with the names of the variables.
def templates : List (Sigma Template) :=
  [⟨_, sourceTemplate⟩, ⟨_, pragmaTemplate⟩, ⟨_, includeTemplate⟩, ⟨_, namespaceTemplate⟩,
    ⟨_, endNamespaceTemplate⟩, ⟨_, PbGenClientHeader.fileTemplate⟩,
    ⟨_, PbGenClientHeader.stubTemplate⟩, ⟨_, PbGenClientHeader.notSupportedTemplate⟩,
    ⟨_, PbGenClientHeader.classTemplate⟩, ⟨_, PbGenClientHeader.constructorTemplate⟩,
    ⟨_, PbGenServerHeader.fileTemplate⟩, ⟨_, PbGenServerHeader.notSupportedTemplate⟩,
    ⟨_, PbGenServerHeader.ifTemplate⟩, ⟨_, PbGenServerHeader.callTemplate⟩,
    ⟨_, PbGenServerHeader.classTemplate⟩, ⟨_, PbGenServerHeader.nameTemplate⟩,
    ⟨_, PbGenServerHeader.executeTemplate⟩, ⟨_, PbGenServerHeader.statusTemplate⟩]

end FabricRpc.V2
