import FabricRpc.Names
import FabricRpc.V1.Generator.PbGen

namespace FabricRpc.V1

open Lib

namespace PbGen

def packageTemplate : Template fileKeys := .ofText _
  (lit "// Service pkg $Package$")
  [[.text (lit "// Service pkg "), .hole (lit "Package")]]
  (by
    unfold fileKeys
    repeat rw [lit_ofList]
    decide +kernel)

def clientTemplate : Template [] := .ofText _
  (lit "// Client code")
  [[.text (lit "// Client code")]]
  Template.check_client

def namespaceTemplate : Template fileKeys := .ofText _
  (lit "namespace $Namespace$ \x7b")
  [[.text (lit "namespace "), .hole (lit "Namespace"), .text (lit " \x7b")]]
  Template.check_namespace

def endNamespaceTemplate : Template fileKeys := .ofText _
  (lit "\x7d // namespace $Namespace$")
  [[.text (lit "\x7d // namespace "), .hole (lit "Namespace")]]
  Template.check_endNamespace

def createDeclarationTemplate : Template [] := .ofText _
  (lit "void CreateFabricRPCRequestHandler(const " ++
    lit "std::vector<std::shared_ptr<fabricrpc::MiddleWare>> & svcList, " ++
    lit "IFabricTransportMessageHandler ** handler);")
  [[.text (lit "void CreateFabricRPCRequestHandler(const "),
    .text (lit "std::vector<std::shared_ptr<fabricrpc::MiddleWare>> & svcList, "),
    .text (lit "IFabricTransportMessageHandler ** handler);")]]
  (by
    repeat rw [lit_ofList]
    decide +kernel)

-- The texts of a file are those of its services, inside a namespace.
def getHeaderServices (file : Pb.FileDescriptor) : Printer :=
  let vars := fileVars file.package
  let p := (Printer.new.addLnVars vars packageTemplate.text).addLnVars vars namespaceTemplate.text
  let p := file.services.foldl
    (fun p service => printHeaderService (service.read file.package) p) p
  (p.addLn createDeclarationTemplate.text).addLnVars vars endNamespaceTemplate.text

def createTemplate : Template [] := .ofText _
  (lit "void CreateFabricRPCRequestHandler(const " ++
    lit "std::vector<std::shared_ptr<fabricrpc::MiddleWare>> & svcList,\n" ++
    lit "                                    " ++
    lit "IFabricTransportMessageHandler **handler) \x7b")
  [[.text (lit "void CreateFabricRPCRequestHandler(const "),
    .text (lit "std::vector<std::shared_ptr<fabricrpc::MiddleWare>> & svcList,")],
    [.text (lit "                                    IFabricTransportMessageHandler "),
     .text (lit "**handler) \x7b")]]
  (by
    repeat rw [lit_ofList]
    decide +kernel)

def createBodyTemplate : Template [] := .ofText _
  (lit "using privateconverter = " ++
    lit "fabricrpc::FabricRPCHeaderProtoConverter<fabricrpc::request_" ++
    lit "header, fabricrpc::reply_header>;\n" ++
    lit "std::shared_ptr<fabricrpc::IFabricRPCHeaderProtoConverter> cv = " ++
    lit "std::make_shared<privateconverter>();\n" ++
    lit "CComPtr<CComObjectNoLock<fabricrpc::FRPCRequestHandler>> " ++
    lit "msgHandlerPtr(\n" ++
    lit "  new CComObjectNoLock<fabricrpc::FRPCRequestHandler>());\n" ++
    lit "msgHandlerPtr->Initialize(svcList, cv);\n" ++
    lit "*handler = msgHandlerPtr.Detach();\n")
  [[.text (lit "using privateconverter = "),
    .text (lit "fabricrpc::FabricRPCHeaderProtoConverter<fabricrpc::request_header, "),
    .text (lit "fabricrpc::reply_header>;")],
    [.text (lit "std::shared_ptr<fabricrpc::IFabricRPCHeaderProtoConverter> cv = "),
     .text (lit "std::make_shared<privateconverter>();")],
    [.text (lit "CComPtr<CComObjectNoLock<fabricrpc::FRPCRequestHandler>> msgHandlerPtr(")],
    [.text (lit "  new CComObjectNoLock<fabricrpc::FRPCRequestHandler>());")],
    [.text (lit "msgHandlerPtr->Initialize(svcList, cv);")],
    [.text (lit "*handler = msgHandlerPtr.Detach();")]]
  (by
    repeat rw [lit_ofList]
    decide +kernel)

def getCCServices (file : Pb.FileDescriptor) : Printer :=
  let vars := fileVars file.package
  let p := (Printer.new.addLnVars vars packageTemplate.text).addLnVars vars namespaceTemplate.text
  let p := file.services.foldl (fun p service => printCCService (service.read file.package) p) p
  let p := (p.addLn createTemplate.text).indent
  let p := ((p.addLn createBodyTemplate.text).outdent).addLn closeTemplate.text
  p.addLnVars vars endNamespaceTemplate.text

def getHeaderClients (file : Pb.FileDescriptor) : Printer :=
  let vars := fileVars file.package
  let p := (Printer.new.addLnVars vars clientTemplate.text).addLnVars vars namespaceTemplate.text
  let p := file.services.foldl
    (fun p service => printHeaderClientService (service.read file.package) p) p
  p.addLnVars vars endNamespaceTemplate.text

def getCCClientServices (file : Pb.FileDescriptor) : Printer :=
  let vars := fileVars file.package
  let p := (Printer.new.addLnVars vars clientTemplate.text).addLnVars vars namespaceTemplate.text
  let p := file.services.foldl
    (fun p service => printCCClientService (service.read file.package) p) p
  p.addLnVars vars endNamespaceTemplate.text

end PbGen

end FabricRpc.V1
