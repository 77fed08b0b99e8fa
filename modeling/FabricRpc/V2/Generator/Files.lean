import FabricRpc.Names
import FabricRpc.V2.Generator

namespace FabricRpc.V2

open Lib

-- The texts of both headers of a file.
def namespaceTemplate : Template fileKeys := .ofText _
  (lit "namespace $Namespace$ \x7b")
  [[.text (lit "namespace "), .hole (lit "Namespace"), .text (lit " \x7b")]]
  Template.check_namespace

def netTemplate : Template [] := .ofText _
  (lit "namespace net = boost::asio;")
  [[.text (lit "namespace net = boost::asio;")]]
  (by
    repeat rw [lit_ofList]
    decide +kernel)

def endNamespaceTemplate : Template fileKeys := .ofText _
  (lit "\x7d // namespace $Namespace$")
  [[.text (lit "\x7d // namespace "), .hole (lit "Namespace")]]
  Template.check_endNamespace

namespace PbGenClientHeader

def fileTemplate : Template [] := .ofText _
  (lit "// Client code")
  [[.text (lit "// Client code")]]
  Template.check_client

def generateContent (file : Pb.FileDescriptor) : Printer :=
  let vars := fileVars file.package
  let p := (Printer.new.addLnVars vars fileTemplate.text).addLnVars vars namespaceTemplate.text
  let p := p.addLn netTemplate.text
  let p := file.services.foldl
    (fun p service => printHeaderClientService (service.read file.package) p) p
  p.addLnVars vars endNamespaceTemplate.text

end PbGenClientHeader

namespace PbGenServerHeader

def fileTemplate : Template [] := .ofText _
  (lit "// Server code")
  [[.text (lit "// Server code")]]
  (by
    repeat rw [lit_ofList]
    decide +kernel)

def generateContent (file : Pb.FileDescriptor) : Printer :=
  let vars := fileVars file.package
  let p := (Printer.new.addLnVars vars fileTemplate.text).addLnVars vars namespaceTemplate.text
  let p := p.addLn netTemplate.text
  let p := file.services.foldl
    (fun p service => printHeaderService (service.read file.package) p) p
  p.addLnVars vars endNamespaceTemplate.text

end PbGenServerHeader

end FabricRpc.V2
