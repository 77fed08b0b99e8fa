import FabricRpc.CppText
import FabricRpc.V1.Generator.Contents
import FabricRpc.V1.Generator.Names

namespace FabricRpc.V1.PbGen

open Cpp Lib Printer

section Values

variable (service : ServiceDescriptor) (method : MethodDescriptor)

theorem fileVars_calms (package : Package) : Calms names (fileVars package) := by
  apply calms_names
  intro b hb hdot
  simp only [fileVars, List.forall_mem_cons, List.not_mem_nil, false_implies, implies_true,
    and_true]
  exact ⟨namespaceOf_not_mem package hb hdot, scope_not_mem package hb hdot⟩

theorem serviceVars_calms : Calms names (serviceVars service) :=
  calms_names fun _ hb hdot =>
    Template.serviceNames_not_mem service (namespaceOf_not_mem service.package hb hdot) hb hdot

theorem vars_calms : Calms names (vars service method) :=
  calms_names fun _ hb hdot =>
    Template.methodNames_not_mem service method (namespaceOf_not_mem service.package hb hdot) hb
      hdot

end Values

variable (service : ServiceDescriptor) (method : MethodDescriptor) {p : Printer}
  {stack : List UInt8}

-- What each template opens and closes, with names in its holes or in comments only.
structure Scans : Prop where
  closeText : scanLines [.line] [0x7D] closeTemplate.lines = some []
  closeClassText : scanLines [.line] [0x7D] closeClassTemplate.lines = some []
  notSupportedText : scanLines [.line] [] notSupportedTemplate.lines = some []
  beginText : scanLines names [] beginTemplate.lines = some []
  endText : scanLines names [] endTemplate.lines = some []
  classText : scanLines names [] classTemplate.lines = some [0x7D]
  fullNameText : scanLines names [] fullNameTemplate.lines = some []
  serviceText : scanLines [.line] [] serviceTemplate.lines = some [0x7D]
  constructorText : scanLines [.line] [] constructorTemplate.lines = some []
  destructorText : scanLines [.line] [] destructorTemplate.lines = some []
  routeText : scanLines [.line] [] routeTemplate.lines = some []
  elseText : scanLines [.line] [] elseTemplate.lines = some []
  ifText : scanLines names [] ifTemplate.lines = some [0x7D]
  bindText : scanLines names [] bindTemplate.lines = some []
  signatureText : scanLines names [] signatureTemplate.lines = some [0x7D]
  notFoundText : scanLines [.line] [] notFoundTemplate.lines = some []
  returnText : scanLines [.line] [] returnTemplate.lines = some []
  clientBeginText : scanLines names [] clientBeginTemplate.lines = some []
  clientEndText : scanLines names [] clientEndTemplate.lines = some []
  execBeginText : scanLines names [] execBeginTemplate.lines = some []
  execEndText : scanLines names [] execEndTemplate.lines = some []
  clientClassText : scanLines names [] clientClassTemplate.lines = some [0x7D]
  clientConstructorText : scanLines names [] clientConstructorTemplate.lines = some []
  privateText : scanLines [.line] [] privateTemplate.lines = some []
  fieldsText : scanLines [.line] [] fieldsTemplate.lines = some []
  clientSourceText : scanLines names [] clientSourceTemplate.lines = some []
  packageText : scanLines names [] packageTemplate.lines = some []
  clientText : scanLines [.line] [] clientTemplate.lines = some []
  namespaceText : scanLines names [] namespaceTemplate.lines = some [0x7D]
  endNamespaceText : scanLines names [0x7D] endNamespaceTemplate.lines = some []
  createDeclarationText : scanLines [.line] [] createDeclarationTemplate.lines = some []
  createText : scanLines [.line] [] createTemplate.lines = some [0x7D]
  createBodyText : scanLines [.line] [] createBodyTemplate.lines = some []
  generatedText : scanLines [.line] [] generatedTemplate.lines = some []
  headerIncludesText : scanLines [.line] [] headerIncludesTemplate.lines = some []
  includeHeaderText : scanLines quotes [] includeHeaderTemplate.lines = some []
  includeProtoText : scanLines [.line] [] includeProtoTemplate.lines = some []
  sourceIncludesText : scanLines [.line] [] sourceIncludesTemplate.lines = some []

theorem scans : Scans := by
  constructor
  all_goals
    simp only [closeTemplate, closeClassTemplate, notSupportedTemplate, beginTemplate,
      endTemplate, classTemplate, fullNameTemplate, serviceTemplate, constructorTemplate,
      destructorTemplate, routeTemplate, elseTemplate, ifTemplate, bindTemplate,
      signatureTemplate, notFoundTemplate, returnTemplate, clientBeginTemplate,
      clientEndTemplate, execBeginTemplate, execEndTemplate, clientClassTemplate,
      clientConstructorTemplate, privateTemplate, fieldsTemplate, clientSourceTemplate,
      packageTemplate, clientTemplate, namespaceTemplate, endNamespaceTemplate,
      createDeclarationTemplate, createTemplate, createBodyTemplate, generatedTemplate,
      headerIncludesTemplate, includeHeaderTemplate, includeProtoTemplate,
      sourceIncludesTemplate, Template.ofText_lines]
    repeat rw [lit_ofList]
    rfl

section HeaderService

theorem printHeaderServerMethodSync_reads (h : Reads p stack) :
    Reads (printHeaderServerMethodSync service p method) stack := by
  have hscans := scans
  have hvars := vars_values service method
  have hcalm := vars_calms service method
  rw [printHeaderServerMethodSync]
  split
  · have hbegin := h.keeps (prints_lnVars _ hvars hcalm) hscans.beginText
    exact hbegin.keeps (prints_lnVars _ hvars hcalm) hscans.endText
  · exact h.keeps (prints_ln _) hscans.notSupportedText

theorem printHeaderService_reads (h : Reads p stack) :
    Reads (printHeaderService service p) stack := by
  have hscans := scans
  have hvars := serviceVars_values service
  have hcalm := serviceVars_calms service
  have houter := (h.opens (prints_vars _ hvars hcalm) hscans.classText).indent
  have hnamed := houter.keeps (prints_vars _ hvars hcalm) hscans.fullNameText
  have hinner := (hnamed.opens (prints_source _) hscans.serviceText).indent
  have hconstructor := hinner.keeps (prints_source _) hscans.constructorText
  have hmembers := hconstructor.keeps (prints_source _) hscans.destructorText
  have hmethods := hmembers.foldl fun method (_ : method ∈ service.methods) _ hp =>
    printHeaderServerMethodSync_reads service method hp
  have hroutes := (hmethods.keeps (prints_lnPlain _ (varsAfter service)) hscans.routeText).outdent
  have hservice := (hroutes.closes (prints_ln _) hscans.closeClassText).outdent
  exact hservice.closes (prints_ln _) hscans.closeClassText

end HeaderService

section CCService

theorem printBranch_reads (h : Reads p stack) (item : MethodDescriptor × ℕ) :
    Reads (printBranch service p item) stack := by
  have hscans := scans
  obtain ⟨method, i⟩ := item
  have hvars := vars_values service method
  have hcalm := vars_calms service method
  have hbefore : Reads (if i ≠ 0 then p.add elseTemplate.text else p) stack := by
    split
    · exact h.keeps (prints_source _) hscans.elseText
    · exact h
  have hopen := (hbefore.opens (prints_vars _ hvars hcalm) hscans.ifText).indent
  have hbody := (hopen.keeps (prints_vars _ hvars hcalm) hscans.bindText).outdent
  exact hbody.closes (prints_source _) hscans.closeText

theorem printCCService_reads (h : Reads p stack) :
    Reads (PbGen.printCCService service p) stack := by
  have hscans := scans
  have hvars := serviceVars_values service
  have hcalm := serviceVars_calms service
  have hroute := (h.opens (prints_lnVars _ hvars hcalm) hscans.signatureText).indent
  have hbranches := hroute.foldl fun item (_ : item ∈ service.methods.zipIdx) _ hp =>
    printBranch_reads service hp item
  have hnotFound := hbranches.keeps (prints_source _) hscans.notFoundText
  have hbody := (hnotFound.keeps (prints_ln _) hscans.returnText).outdent
  exact hbody.closes (prints_ln _) hscans.closeText

end CCService

section Client

theorem printHeaderClientMethodSync_reads (h : Reads p stack) :
    Reads (printHeaderClientMethodSync service p method) stack := by
  have hscans := scans
  have hvars := vars_values service method
  have hcalm := vars_calms service method
  rw [printHeaderClientMethodSync]
  split
  · have hbegin := h.keeps (prints_lnVars _ hvars hcalm) hscans.clientBeginText
    exact hbegin.keeps (prints_lnVars _ hvars hcalm) hscans.clientEndText
  · exact h.keeps (prints_ln _) hscans.notSupportedText

theorem printClientMethod_reads (h : Reads p stack) :
    Reads (printClientMethod service p method) stack := by
  have hscans := scans
  have hvars := vars_values service method
  have hcalm := vars_calms service method
  rw [printClientMethod]
  split
  · have hbegin := h.keeps (prints_lnVars _ hvars hcalm) hscans.execBeginText
    exact hbegin.keeps (prints_lnVars _ hvars hcalm) hscans.execEndText
  · exact h.keeps (prints_ln _) hscans.notSupportedText

theorem printHeaderClientService_reads (h : Reads p stack) :
    Reads (printHeaderClientService service p) stack := by
  have hscans := scans
  have hvars := serviceVars_values service
  have hcalm := serviceVars_calms service
  have hopen := (h.opens (prints_vars _ hvars hcalm) hscans.clientClassText).indent
  have hmethods := (hopen.keeps (prints_lnVars _ hvars hcalm) hscans.clientConstructorText).foldl
    fun method (_ : method ∈ service.methods) _ hp =>
      printHeaderClientMethodSync_reads service method hp
  have hprivate := hmethods.outdent.keeps (prints_source _) hscans.privateText
  have hmembers := hprivate.keeps (prints_source _) hscans.fieldsText
  exact hmembers.closes (prints_ln _) hscans.closeClassText

theorem printCCClientService_reads (h : Reads p stack) :
    Reads (PbGen.printCCClientService service p) stack := by
  have hscans := scans
  have hsource := h.keeps (prints_vars _ (serviceVars_values service) (serviceVars_calms service))
    hscans.clientSourceText
  exact hsource.foldl fun method _ _ hp => printClientMethod_reads service method hp

end Client

section File

variable (file : Pb.FileDescriptor)

theorem getHeaderServices_closed : Closed (getHeaderServices file).output := by
  have hscans := scans
  have hvars := fileVars_values file.package
  have hcalm := fileVars_calms file.package
  have hopen := (new_reads.keeps (prints_lnVars _ hvars hcalm) hscans.packageText).opens
    (prints_lnVars _ hvars hcalm) hscans.namespaceText
  have hservices := hopen.foldl fun service (_ : service ∈ file.services) _ hp =>
    printHeaderService_reads (service.read file.package) hp
  have hcreate := hservices.keeps (prints_ln _) hscans.createDeclarationText
  exact hcreate.closes (prints_lnVars _ hvars hcalm) hscans.endNamespaceText

theorem getCCServices_closed : Closed (getCCServices file).output := by
  have hscans := scans
  have hvars := fileVars_values file.package
  have hcalm := fileVars_calms file.package
  have hopen := (new_reads.keeps (prints_lnVars _ hvars hcalm) hscans.packageText).opens
    (prints_lnVars _ hvars hcalm) hscans.namespaceText
  have hservices := hopen.foldl fun service (_ : service ∈ file.services) _ hp =>
    printCCService_reads (service.read file.package) hp
  have hcreate := (hservices.opens (prints_ln _) hscans.createText).indent
  have hbody := (hcreate.keeps (prints_ln _) hscans.createBodyText).outdent
  have hfunction := hbody.closes (prints_ln _) hscans.closeText
  exact hfunction.closes (prints_lnVars _ hvars hcalm) hscans.endNamespaceText

theorem getHeaderClients_closed : Closed (getHeaderClients file).output := by
  have hscans := scans
  have hvars := fileVars_values file.package
  have hcalm := fileVars_calms file.package
  have hopen := (new_reads.keeps (prints_lnPlain _ (fileVars file.package)) hscans.clientText).opens
    (prints_lnVars _ hvars hcalm) hscans.namespaceText
  have hservices := hopen.foldl fun service (_ : service ∈ file.services) _ hp =>
    printHeaderClientService_reads (service.read file.package) hp
  exact hservices.closes (prints_lnVars _ hvars hcalm) hscans.endNamespaceText

theorem getCCClientServices_closed : Closed (getCCClientServices file).output := by
  have hscans := scans
  have hvars := fileVars_values file.package
  have hcalm := fileVars_calms file.package
  have hopen := (new_reads.keeps (prints_lnPlain _ (fileVars file.package)) hscans.clientText).opens
    (prints_lnVars _ hvars hcalm) hscans.namespaceText
  have hservices := hopen.foldl fun service (_ : service ∈ file.services) _ hp =>
    printCCClientService_reads (service.read file.package) hp
  exact hservices.closes (prints_lnVars _ hvars hcalm) hscans.endNamespaceText

end File

section Preamble

variable {base : Bytes} (h : Plain base) (file : Pb.FileDescriptor)
include h

theorem generateHeaderContent_closed :
    Closed (generateHeaderContent (base ++ lit ".proto") file) := by
  have hscans := scans
  have hvars := h.values
  have hcalm := h.calms
  obtain ⟨hsource, hpragma, hinclude⟩ := scan_shared_preamble
  have hgenerated := new_reads.keeps (prints_ln _) hscans.generatedText
  have htop := hgenerated.keeps (prints_lnVars _ hvars hcalm) hsource
  have hself := (htop.keeps (prints_lnPlain _ (preambleVars (base ++ lit ".proto"))) hpragma).keeps
    (prints_lnVars _ hvars hcalm) hinclude
  have hpreamble : Closed _ := hself.keeps (prints_source _) hscans.headerIncludesText
  exact (hpreamble.append (getHeaderServices_closed file)).append (getHeaderClients_closed file)

theorem generateCCContent_closed : Closed (generateCCContent (base ++ lit ".proto") file) := by
  have hscans := scans
  have hvars := h.values
  have hcalm := h.calms
  obtain ⟨hsource, -, -⟩ := scan_shared_preamble
  have hgenerated := new_reads.keeps (prints_ln _) hscans.generatedText
  have htop := hgenerated.keeps (prints_lnVars _ hvars hcalm) hsource
  have hself := (htop.keeps (prints_lnVars _ hvars hcalm) hscans.includeHeaderText).keeps
    (prints_lnPlain _ (preambleVars (base ++ lit ".proto"))) hscans.includeProtoText
  have hpreamble : Closed _ := hself.keeps (prints_source _) hscans.sourceIncludesText
  exact (hpreamble.append (getCCServices_closed file)).append (getCCClientServices_closed file)

end Preamble

end FabricRpc.V1.PbGen
