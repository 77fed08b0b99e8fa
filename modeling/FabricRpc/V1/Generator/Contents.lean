import FabricRpc.Preamble
import FabricRpc.V1.Generator.Files

namespace FabricRpc.V1.PbGen

open Lib Printer

def generatedTemplate : Template [] := .ofText _
  (lit "// Generated by fabric_rpc_cpp_plugin. Do not Edit.")
  [[.text (lit "// Generated by fabric_rpc_cpp_plugin. Do not Edit.")]]
  (by
    repeat rw [lit_ofList]
    decide +kernel)

def headerIncludesTemplate : Template [] := .ofText _
  (lit "#include \"fabrictransport_.h\"\n" ++
    lit "#include <atlbase.h>\n" ++
    lit "#include <atlcom.h>\n" ++
    lit "#include \"fabricrpc/Operation.hpp\"\n" ++
    lit "#include \"fabricrpc/FRPCHeader.hpp\"\n")
  [[.text (lit "#include \"fabrictransport_.h\"")],
    [.text (lit "#include <atlbase.h>")],
    [.text (lit "#include <atlcom.h>")],
    [.text (lit "#include \"fabricrpc/Operation.hpp\"")],
    [.text (lit "#include \"fabricrpc/FRPCHeader.hpp\"")]]
  (by
    repeat rw [lit_ofList]
    decide +kernel)

def generateHeaderContent (filename : Bytes) (file : Pb.FileDescriptor) : Bytes :=
  let vars := preambleVars filename
  let p := (Printer.new.addLn generatedTemplate.text).addLnVars vars sourceTemplate.text
  let p := (p.addLnVars vars pragmaTemplate.text).addLnVars vars includeTemplate.text
  let p := p.add headerIncludesTemplate.text
  p.output ++ (getHeaderServices file).output ++ (getHeaderClients file).output

def includeHeaderTemplate : Template preambleKeys := .ofText _
  (lit "#include \"$filename_base$.fabricrpc.h\"")
  [[.text (lit "#include \""), .hole (lit "filename_base"), .text (lit ".fabricrpc.h\"")]]
  (by
    unfold preambleKeys
    repeat rw [lit_ofList]
    decide +kernel)

def includeProtoTemplate : Template [] := .ofText _
  (lit "#include <fabricrpc.pb.h>")
  [[.text (lit "#include <fabricrpc.pb.h>")]]
  (by
    repeat rw [lit_ofList]
    decide +kernel)

def sourceIncludesTemplate : Template [] := .ofText _
  (lit "#include <functional>\n" ++
    lit "#include \"fabricrpc/ClientHelpers.hpp\"\n" ++
    lit "#include \"fabricrpc/FRPCRequestHandler.hpp\"\n" ++
    lit "#include \"fabricrpc/FRPCHeader.hpp\"\n")
  [[.text (lit "#include <functional>")],
    [.text (lit "#include \"fabricrpc/ClientHelpers.hpp\"")],
    [.text (lit "#include \"fabricrpc/FRPCRequestHandler.hpp\"")],
    [.text (lit "#include \"fabricrpc/FRPCHeader.hpp\"")]]
  (by
    repeat rw [lit_ofList]
    decide +kernel)

def generateCCContent (filename : Bytes) (file : Pb.FileDescriptor) : Bytes :=
  let vars := preambleVars filename
  let p := (Printer.new.addLn generatedTemplate.text).addLnVars vars sourceTemplate.text
  let p := (p.addLnVars vars includeHeaderTemplate.text).addLnVars vars includeProtoTemplate.text
  let p := p.add sourceIncludesTemplate.text
  p.output ++ (getCCServices file).output ++ (getCCClientServices file).output

section Print

variable {base : Bytes} (hdollar : dollar ∉ base) (hline : newline ∉ base)
  (file : Pb.FileDescriptor)
include hdollar hline

-- The header includes the one that protoc generates, and the source the header.
theorem generateHeaderContent_eq : generateHeaderContent (base ++ lit ".proto") file =
    unlines newline [lit "// Generated by fabric_rpc_cpp_plugin. Do not Edit.",
      lit "// source: " ++ base ++ lit ".proto", lit "#pragma once",
      lit "#include \"" ++ base ++ lit ".pb.h" ++ lit "\"",
      lit "#include \"fabrictransport_.h\"", lit "#include <atlbase.h>",
      lit "#include <atlcom.h>", lit "#include \"fabricrpc/Operation.hpp\"",
      lit "#include \"fabricrpc/FRPCHeader.hpp\""] ++
    (getHeaderServices file).output ++ (getHeaderClients file).output := by
  have hvars := preambleVars_values hdollar hline
  have hgenerated : generatedTemplate.lines.map (source dollar) =
      [lit "// Generated by fabric_rpc_cpp_plugin. Do not Edit."] := by
    simp [generatedTemplate, source, Piece.source]
  have hincludes : headerIncludesTemplate.lines.map (source dollar) =
      [lit "#include \"fabrictransport_.h\"", lit "#include <atlbase.h>",
        lit "#include <atlcom.h>", lit "#include \"fabricrpc/Operation.hpp\"",
        lit "#include \"fabricrpc/FRPCHeader.hpp\""] := by
    simp [headerIncludesTemplate, source, Piece.source]
  simp only [generateHeaderContent, Template.printLn, Template.print, Template.printLnPlain,
    Template.printLnVars _ _ hvars, hgenerated, fill_source, source_pragma, fill_include,
    hincludes, write_write, new_write, List.cons_append, List.nil_append]

theorem generateCCContent_eq : generateCCContent (base ++ lit ".proto") file =
    unlines newline [lit "// Generated by fabric_rpc_cpp_plugin. Do not Edit.",
      lit "// source: " ++ base ++ lit ".proto",
      lit "#include \"" ++ base ++ lit ".fabricrpc.h\"", lit "#include <fabricrpc.pb.h>",
      lit "#include <functional>", lit "#include \"fabricrpc/ClientHelpers.hpp\"",
      lit "#include \"fabricrpc/FRPCRequestHandler.hpp\"",
      lit "#include \"fabricrpc/FRPCHeader.hpp\""] ++
    (getCCServices file).output ++ (getCCClientServices file).output := by
  have hvars := preambleVars_values hdollar hline
  have hgenerated : generatedTemplate.lines.map (source dollar) =
      [lit "// Generated by fabric_rpc_cpp_plugin. Do not Edit."] := by
    simp [generatedTemplate, source, Piece.source]
  have hheader : includeHeaderTemplate.lines.map (fill (preambleVars (base ++ lit ".proto"))) =
      [lit "#include \"" ++ base ++ lit ".fabricrpc.h\""] := by
    simp [includeHeaderTemplate, fill, Piece.fill, lookup_filename_base]
  have hproto : includeProtoTemplate.lines.map (source dollar) =
      [lit "#include <fabricrpc.pb.h>"] := by
    simp [includeProtoTemplate, source, Piece.source]
  have hincludes : sourceIncludesTemplate.lines.map (source dollar) =
      [lit "#include <functional>", lit "#include \"fabricrpc/ClientHelpers.hpp\"",
        lit "#include \"fabricrpc/FRPCRequestHandler.hpp\"",
        lit "#include \"fabricrpc/FRPCHeader.hpp\""] := by
    simp [sourceIncludesTemplate, source, Piece.source]
  simp only [generateCCContent, Template.printLn, Template.print, Template.printLnPlain,
    Template.printLnVars _ _ hvars, hgenerated, fill_source, hheader, hproto, hincludes,
    write_write, new_write, List.cons_append, List.nil_append]

end Print

-- The templates of the generator, with the names of the variables.
def templates : List (Sigma Template) :=
  [⟨_, sourceTemplate⟩, ⟨_, pragmaTemplate⟩, ⟨_, includeTemplate⟩, ⟨_, includeHeaderTemplate⟩,
    ⟨_, includeProtoTemplate⟩, ⟨_, packageTemplate⟩, ⟨_, clientTemplate⟩, ⟨_, namespaceTemplate⟩,
    ⟨_, endNamespaceTemplate⟩, ⟨_, notSupportedTemplate⟩, ⟨_, beginTemplate⟩, ⟨_, endTemplate⟩,
    ⟨_, classTemplate⟩, ⟨_, fullNameTemplate⟩, ⟨_, routeTemplate⟩, ⟨_, ifTemplate⟩,
    ⟨_, bindTemplate⟩, ⟨_, signatureTemplate⟩, ⟨_, clientBeginTemplate⟩, ⟨_, clientEndTemplate⟩,
    ⟨_, clientClassTemplate⟩, ⟨_, clientConstructorTemplate⟩, ⟨_, execBeginTemplate⟩,
    ⟨_, execEndTemplate⟩, ⟨_, clientSourceTemplate⟩]

end FabricRpc.V1.PbGen
