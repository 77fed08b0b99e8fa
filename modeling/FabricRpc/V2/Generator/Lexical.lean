import FabricRpc.CppText
import FabricRpc.V2.Generator.Contents
import FabricRpc.V2.Generator.Names

namespace FabricRpc.V2

open Cpp Lib Printer
open V1 (MethodDescriptor ServiceDescriptor)

section Values

variable (service : ServiceDescriptor) (method : MethodDescriptor)

theorem fileVars_calms (package : Package) : Calms names (fileVars package) := by
  apply calms_names
  intro b hb hdot
  simp only [fileVars, List.forall_mem_cons, List.not_mem_nil, false_implies, implies_true,
    and_true]
  exact ⟨namespaceOf_not_mem package hb hdot, scope_not_mem package hb hdot⟩

theorem serviceVars_calms : Calms names (serviceVars service) :=
  calms_names fun _ hb hdot =>
    Template.serviceNames_not_mem service (namespaceOf_not_mem service.package hb hdot) hb hdot

theorem vars_calms : Calms names (vars service method) :=
  calms_names fun _ hb hdot =>
    Template.methodNames_not_mem service method (namespaceOf_not_mem service.package hb hdot) hb
      hdot

end Values

variable (service : ServiceDescriptor) (method : MethodDescriptor) {p : Printer}
  {stack : List UInt8}

-- What each template opens and closes, with names in its holes or in comments only.
structure PbGenClientHeader.Scans : Prop where
  stubText : scanLines names [] PbGenClientHeader.stubTemplate.lines = some []
  notSupportedText : scanLines [.line] [] PbGenClientHeader.notSupportedTemplate.lines = some []
  classText : scanLines names [] PbGenClientHeader.classTemplate.lines = some [0x7D]
  typedefText : scanLines [.line] [] PbGenClientHeader.typedefTemplate.lines = some []
  constructorText : scanLines names [] PbGenClientHeader.constructorTemplate.lines = some []
  privateText : scanLines [.line] [] PbGenClientHeader.privateTemplate.lines = some []
  fieldText : scanLines [.line] [] PbGenClientHeader.fieldTemplate.lines = some []
  closeClassText : scanLines [.line] [0x7D] PbGenClientHeader.closeClassTemplate.lines = some []
  fileText : scanLines [.line] [] PbGenClientHeader.fileTemplate.lines = some []

structure PbGenServerHeader.Scans : Prop where
  handlerText : scanLines [.line] [] PbGenServerHeader.handlerTemplate.lines = some []
  notSupportedText : scanLines [.line] [] PbGenServerHeader.notSupportedTemplate.lines = some []
  elseText : scanLines [.line] [] PbGenServerHeader.elseTemplate.lines = some []
  ifText : scanLines names [] PbGenServerHeader.ifTemplate.lines = some [0x7D]
  callText : scanLines names [] PbGenServerHeader.callTemplate.lines = some []
  closeText : scanLines [.line] [0x7D] PbGenServerHeader.closeTemplate.lines = some []
  classText : scanLines names [] PbGenServerHeader.classTemplate.lines = some [0x7D]
  nameText : scanLines [.line] [] PbGenServerHeader.nameTemplate.lines = some []
  executeText : scanLines [.line] [] PbGenServerHeader.executeTemplate.lines = some [0x7D]
  statusText : scanLines [.line] [] PbGenServerHeader.statusTemplate.lines = some []
  notFoundText : scanLines [.line] [] PbGenServerHeader.notFoundTemplate.lines = some []
  returnText : scanLines [.line] [] PbGenServerHeader.returnTemplate.lines = some []
  closeClassText : scanLines [.line] [0x7D] PbGenServerHeader.closeClassTemplate.lines = some []
  fileText : scanLines [.line] [] PbGenServerHeader.fileTemplate.lines = some []

structure PbGenMetaHeader.Scans : Prop where
  generatedText : scanLines [.line] [] PbGenMetaHeader.generatedTemplate.lines = some []
  includesText : scanLines [.line] [] PbGenMetaHeader.includesTemplate.lines = some []

structure Scans : Prop where
  namespaceText : scanLines names [] namespaceTemplate.lines = some [0x7D]
  netText : scanLines [.line] [] netTemplate.lines = some []
  endNamespaceText : scanLines names [0x7D] endNamespaceTemplate.lines = some []
  client : PbGenClientHeader.Scans
  server : PbGenServerHeader.Scans
  preamble : PbGenMetaHeader.Scans

theorem scans : Scans := by
  constructor
  case' client => constructor
  case' server => constructor
  case' preamble => constructor
  all_goals
    simp only [namespaceTemplate, netTemplate, endNamespaceTemplate,
      PbGenClientHeader.stubTemplate, PbGenClientHeader.notSupportedTemplate,
      PbGenClientHeader.classTemplate, PbGenClientHeader.typedefTemplate,
      PbGenClientHeader.constructorTemplate, PbGenClientHeader.privateTemplate,
      PbGenClientHeader.fieldTemplate, PbGenClientHeader.closeClassTemplate,
      PbGenClientHeader.fileTemplate, PbGenServerHeader.handlerTemplate,
      PbGenServerHeader.notSupportedTemplate, PbGenServerHeader.elseTemplate,
      PbGenServerHeader.ifTemplate, PbGenServerHeader.callTemplate,
      PbGenServerHeader.closeTemplate, PbGenServerHeader.classTemplate,
      PbGenServerHeader.nameTemplate, PbGenServerHeader.executeTemplate,
      PbGenServerHeader.statusTemplate, PbGenServerHeader.notFoundTemplate,
      PbGenServerHeader.returnTemplate, PbGenServerHeader.closeClassTemplate,
      PbGenServerHeader.fileTemplate, PbGenMetaHeader.generatedTemplate,
      PbGenMetaHeader.includesTemplate, Template.ofText_lines]
    repeat rw [lit_ofList]
    rfl

namespace PbGenClientHeader

theorem printHeaderClientMethodSync_reads (h : Reads p stack) :
    Reads (printHeaderClientMethodSync service p method) stack := by
  have hscans := scans
  rw [printHeaderClientMethodSync]
  split
  · have hvars := vars_values service method
    exact h.keeps (prints_lnVars _ hvars (vars_calms service method)) hscans.client.stubText
  · exact h.keeps (prints_ln _) hscans.client.notSupportedText

theorem printHeaderClientService_reads (h : Reads p stack) :
    Reads (printHeaderClientService service p) stack := by
  have hscans := scans
  have hvars := serviceVars_values service
  have hcalm := serviceVars_calms service
  have hopen := (h.opens (prints_vars _ hvars hcalm) hscans.client.classText).indent
  have htypedef := hopen.keeps (prints_ln _) hscans.client.typedefText
  have hconstructed := htypedef.keeps (prints_lnVars _ hvars hcalm) hscans.client.constructorText
  have hmethods := hconstructed.foldl fun method (_ : method ∈ service.methods) _ hp =>
    printHeaderClientMethodSync_reads service method hp
  have hprivate := (hmethods.outdent.keeps (prints_ln _) hscans.client.privateText).indent
  have hfields := hprivate.keeps (prints_source _) hscans.client.fieldText
  exact hfields.outdent.closes (prints_source _) hscans.client.closeClassText

theorem generateContent_closed (file : Pb.FileDescriptor) :
    Closed (generateContent file).output := by
  have hscans := scans
  have hvars := fileVars_values file.package
  have hcalm := fileVars_calms file.package
  have htop := new_reads.keeps (prints_lnPlain _ (fileVars file.package)) hscans.client.fileText
  have hopen := htop.opens (prints_lnVars _ hvars hcalm) hscans.namespaceText
  have hservices := (hopen.keeps (prints_ln _) hscans.netText).foldl
    fun service (_ : service ∈ file.services) _ hp =>
      printHeaderClientService_reads (service.read file.package) hp
  exact hservices.closes (prints_lnVars _ hvars hcalm) hscans.endNamespaceText

end PbGenClientHeader

namespace PbGenServerHeader

theorem printHeaderServerMethodSync_reads (h : Reads p stack) :
    Reads (printHeaderServerMethodSync p method) stack := by
  have hscans := scans
  rw [printHeaderServerMethodSync]
  split
  · exact h.keeps (prints_ln _) hscans.server.handlerText
  · exact h.keeps (prints_ln _) hscans.server.notSupportedText

theorem printBranch_reads (h : Reads p stack) (item : MethodDescriptor × ℕ) :
    Reads (printBranch service p item) stack := by
  have hscans := scans
  obtain ⟨method, i⟩ := item
  have hvars := vars_values service method
  have hcalm := vars_calms service method
  have hbefore : Reads (if i ≠ 0 then p.add elseTemplate.text else p) stack := by
    split
    · exact h.keeps (prints_source _) hscans.server.elseText
    · exact h
  have hopen := (hbefore.opens (prints_vars _ hvars hcalm) hscans.server.ifText).indent
  have hcall := (hopen.keeps (prints_vars _ hvars hcalm) hscans.server.callText).outdent
  exact hcall.closes (prints_ln _) hscans.server.closeText

theorem printHeaderService_reads (h : Reads p stack) :
    Reads (printHeaderService service p) stack := by
  have hscans := scans
  have hvars := serviceVars_values service
  have hcalm := serviceVars_calms service
  have hopen := (h.opens (prints_vars _ hvars hcalm) hscans.server.classText).indent
  have hnamed := hopen.keeps (prints_plain _ (serviceVars service)) hscans.server.nameText
  have hexecute := hnamed.opens (prints_plain _ (serviceVars service)) hscans.server.executeText
  have hstatus := hexecute.indent.keeps (prints_lnPlain _ (serviceVars service))
    hscans.server.statusText
  have hbranches := hstatus.foldl fun item (_ : item ∈ service.methods.zipIdx) _ hp =>
    printBranch_reads service hp item
  have hnotFound := hbranches.keeps (prints_source _) hscans.server.notFoundText
  have hbody := hnotFound.keeps (prints_ln _) hscans.server.returnText
  have hmethods := (hbody.outdent.closes (prints_ln _) hscans.server.closeText).foldl
    fun method (_ : method ∈ service.methods) _ hp => printHeaderServerMethodSync_reads method hp
  exact hmethods.outdent.closes (prints_ln _) hscans.server.closeClassText

theorem generateContent_closed (file : Pb.FileDescriptor) :
    Closed (generateContent file).output := by
  have hscans := scans
  have hvars := fileVars_values file.package
  have hcalm := fileVars_calms file.package
  have htop := new_reads.keeps (prints_lnPlain _ (fileVars file.package)) hscans.server.fileText
  have hopen := htop.opens (prints_lnVars _ hvars hcalm) hscans.namespaceText
  have hservices := (hopen.keeps (prints_ln _) hscans.netText).foldl
    fun service (_ : service ∈ file.services) _ hp =>
      printHeaderService_reads (service.read file.package) hp
  exact hservices.closes (prints_lnVars _ hvars hcalm) hscans.endNamespaceText

end PbGenServerHeader

namespace PbGenMetaHeader

theorem generateContent_closed {base : Bytes} (h : Plain base) :
    Closed (generateContent (base ++ lit ".proto")) := by
  have hscans := scans
  have hvars := h.values
  have hcalm := h.calms
  obtain ⟨hsource, hpragma, hinclude⟩ := scan_shared_preamble
  have hgenerated := new_reads.keeps (prints_ln _) hscans.preamble.generatedText
  have htop := hgenerated.keeps (prints_lnVars _ hvars hcalm) hsource
  have hself := (htop.keeps (prints_lnPlain _ (preambleVars (base ++ lit ".proto"))) hpragma).keeps
    (prints_lnVars _ hvars hcalm) hinclude
  exact hself.keeps (prints_source _) hscans.preamble.includesText

end PbGenMetaHeader

end FabricRpc.V2
