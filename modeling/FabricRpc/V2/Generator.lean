import FabricRpc.Printer

namespace FabricRpc.V2

open Lib
open V1 (MethodDescriptor ServiceDescriptor)

-- `file_->package()`, or the namespace that stands for an empty one.
def namespaceOf (package : Package) : Bytes :=
  if package.scope.isEmpty then lit "fabricrpc2" else package.scope.dropLast

-- `vars` of a file, at the templates of a service, and at those of a method.
def fileVars (package : Package) : List (Bytes × Bytes) :=
  [(lit "Namespace", namespaceOf package), (lit "Package", package.scope)]

def serviceVars (service : ServiceDescriptor) : List (Bytes × Bytes) :=
  fileVars service.package ++ [(lit "Service", service.name.bytes)]

def vars (service : ServiceDescriptor) (method : MethodDescriptor) : List (Bytes × Bytes) :=
  [(lit "Method", method.name.bytes), (lit "Namespace", namespaceOf service.package),
    (lit "Package", service.package.scope), (lit "Request", method.inputType.bytes),
    (lit "Response", method.outputType.bytes), (lit "Service", service.name.bytes)]

namespace PbGenClientHeader

def stubTemplate : Template methodKeys := .ofText _
  (lit "// handler void(ec, absl::Status)\n" ++
    lit "template <typename Token>\n" ++
    lit "auto SayHello($Request$ *request,\n" ++
    lit "/*out*/$Response$ *reply, Token &&token) \x7b\n" ++
    lit "static const std::string url = \"/$Package$$Service$/$Method$\";\n" ++
    lit "return conn_.async_send(url, request, reply, std::move(token));\n" ++
    lit "\x7d")
  [[.text (lit "// handler void(ec, absl::Status)")],
    [.text (lit "template <typename Token>")],
    [.text (lit "auto SayHello("), .hole (lit "Request"), .text (lit " *request,")],
    [.text (lit "/*out*/"), .hole (lit "Response"), .text (lit " *reply, Token &&token) \x7b")],
    [.text (lit "static const std::string url = \""), .text (lit "/"), .hole (lit "Package"),
     .hole (lit "Service"), .text (lit "/"), .hole (lit "Method"), .text (lit "\";")],
    [.text (lit "return conn_.async_send(url, request, reply, std::move(token));")],
    [.text (lit "\x7d")]]
  (by
    unfold methodKeys
    repeat rw [lit_ofList]
    decide +kernel)

def notSupportedTemplate : Template methodKeys := .ofText _
  (lit "// Streamingfor method $Method$ request $Request$ response " ++
    lit "$Response$ not supported ")
  [[.text (lit "// Streamingfor method "), .hole (lit "Method"), .text (lit " request "),
    .hole (lit "Request"), .text (lit " response "), .hole (lit "Response"),
    .text (lit " not supported ")]]
  Template.check_notSupported

def printHeaderClientMethodSync (service : ServiceDescriptor) (p : Printer)
    (method : MethodDescriptor) : Printer :=
  if method.noStreaming then p.addLnVars (vars service method) stubTemplate.text
  else p.addLn notSupportedTemplate.text

def classTemplate : Template serviceKeys := .ofText _
  (lit "template <typename Executor = net::any_io_executor> class " ++
    lit "$Service$Client\x7b\n" ++
    lit "public:\n")
  [[.text (lit "template <typename Executor = net::any_io_executor> class "),
    .hole (lit "Service"), .text (lit "Client\x7b")],
    [.text (lit "public:")]]
  (by
    unfold serviceKeys
    repeat rw [lit_ofList]
    decide +kernel)

def typedefTemplate : Template [] := .ofText _
  (lit "typedef Executor executor_type;")
  [[.text (lit "typedef Executor executor_type;")]]
  (by
    repeat rw [lit_ofList]
    decide +kernel)

def constructorTemplate : Template serviceKeys := .ofText _
  (lit "$Service$Client(fabricrpc::rpc_client<executor_type> &conn) " ++
    lit ": conn_(conn) \x7b\x7d")
  [[.hole (lit "Service"),
    .text (lit "Client(fabricrpc::rpc_client<executor_type> &conn) : conn_(conn) \x7b\x7d")]]
  (by
    unfold serviceKeys
    repeat rw [lit_ofList]
    decide +kernel)

def privateTemplate : Template [] := .ofText _
  (lit "private:\n")
  [[.text (lit "private:")]]
  Template.check_private

def fieldTemplate : Template [] := .ofText _
  (lit "fabricrpc::rpc_client<executor_type> &conn_;")
  [[.text (lit "fabricrpc::rpc_client<executor_type> &conn_;")]]
  (by
    repeat rw [lit_ofList]
    decide +kernel)

def closeClassTemplate : Template [] := .ofText _
  (lit "\x7d;\n")
  [[.text (lit "\x7d;")]]
  (by
    repeat rw [lit_ofList]
    decide +kernel)

def printHeaderClientService (service : ServiceDescriptor) (p : Printer) : Printer :=
  let vars := serviceVars service
  let p := (p.addVars vars classTemplate.text).indent
  let p := (p.addLn typedefTemplate.text).addLnVars vars constructorTemplate.text
  let p := (service.methods.foldl (printHeaderClientMethodSync service) p).outdent
  let p := (p.addLn privateTemplate.text).indent
  (p.add fieldTemplate.text).outdent.add closeClassTemplate.text

end PbGenClientHeader

namespace PbGenServerHeader

def handlerTemplate : Template [] := .ofText _
  (lit "virtual net::awaitable<absl::Status> " ++
    lit "SayHello(helloworld::FabricRequest *request," ++
    lit "helloworld::FabricResponse *resp) = 0;")
  [[.text (lit "virtual net::awaitable<absl::Status> "),
    .text (lit "SayHello(helloworld::FabricRequest "),
    .text (lit "*request,helloworld::FabricResponse *resp) = 0;")]]
  (by
    repeat rw [lit_ofList]
    decide +kernel)

def notSupportedTemplate : Template methodKeys := .ofText _
  (lit "// Streaming for method $Method$ request $Request$ response " ++
    lit "$Response$ not supported ")
  [[.text (lit "// Streaming for method "), .hole (lit "Method"), .text (lit " request "),
    .hole (lit "Request"), .text (lit " response "), .hole (lit "Response"),
    .text (lit " not supported ")]]
  (by
    unfold methodKeys
    repeat rw [lit_ofList]
    decide +kernel)

def printHeaderServerMethodSync (p : Printer) (method : MethodDescriptor) : Printer :=
  if method.noStreaming then p.addLn handlerTemplate.text else p.addLn notSupportedTemplate.text

def elseTemplate : Template [] := .ofText _
  (lit "else ")
  [[.text (lit "else ")]]
  Template.check_else

def ifTemplate : Template methodKeys := .ofText _
  (lit "if (url == \"/$Package$$Service$/$Method$\") \x7b\n")
  [[.text (lit "if (url == \""), .text (lit "/"), .hole (lit "Package"), .hole (lit "Service"),
    .text (lit "/"), .hole (lit "Method"), .text (lit "\") \x7b")]]
  Template.check_if

def callTemplate : Template methodKeys := .ofText _
  (lit "st = co_await fabricrpc::codegen_handler_helper<\n" ++
    lit "$Request$, $Response$,\n" ++
    lit "decltype(&$Service$::$Method$), decltype(this)>(\n" ++
    lit "req, resp, &$Service$::$Method$, this);\n")
  [[.text (lit "st = co_await fabricrpc::codegen_handler_helper<")],
    [.hole (lit "Request"), .text (lit ", "), .hole (lit "Response"), .text (lit ",")],
    [.text (lit "decltype(&"), .hole (lit "Service"), .text (lit "::"), .hole (lit "Method"),
     .text (lit "), decltype(this)>(")],
    [.text (lit "req, resp, &"), .hole (lit "Service"), .text (lit "::"), .hole (lit "Method"),
     .text (lit ", this);")]]
  (by
    unfold methodKeys
    repeat rw [lit_ofList]
    decide +kernel)

def closeTemplate : Template [] := .ofText _
  (lit "\x7d")
  [[.text (lit "\x7d")]]
  Template.check_close

-- The body of the loop over the branches.
def printBranch (service : ServiceDescriptor) (p : Printer) : MethodDescriptor × ℕ → Printer
  | (method, i) =>
    let vars := vars service method
    let p := if i ≠ 0 then p.add elseTemplate.text else p
    let p := (p.addVars vars ifTemplate.text).indent
    let p := (p.addVars vars callTemplate.text).outdent
    p.addLn closeTemplate.text

def classTemplate : Template serviceKeys := .ofText _
  (lit "class $Service$ : public fabricrpc::service \x7b\n" ++
    lit "  public:\n")
  [[.text (lit "class "), .hole (lit "Service"), .text (lit " : public fabricrpc::service \x7b")],
    [.text (lit "  public:")]]
  (by
    unfold serviceKeys
    repeat rw [lit_ofList]
    decide +kernel)

def nameTemplate : Template [] := .ofText _
  (lit "const std::string_view name() override \x7b return " ++
    lit "\"helloworld.FabricHello\"; \x7d\n")
  [[.text (lit "const std::string_view name() override \x7b return "),
    .text (lit "\"helloworld.FabricHello\"; \x7d")]]
  (by
    repeat rw [lit_ofList]
    decide +kernel)

def executeTemplate : Template [] := .ofText _
  (lit "net::awaitable<absl::Status> execute(const std::string &url,\n" ++
    lit "const std::string_view req,\n" ++
    lit "std::string *resp) override \x7b\n")
  [[.text (lit "net::awaitable<absl::Status> execute(const std::string &url,")],
    [.text (lit "const std::string_view req,")],
    [.text (lit "std::string *resp) override \x7b")]]
  (by
    repeat rw [lit_ofList]
    decide +kernel)

def statusTemplate : Template [] := .ofText _
  (lit "absl::Status st;")
  [[.text (lit "absl::Status st;")]]
  (by
    repeat rw [lit_ofList]
    decide +kernel)

def notFoundTemplate : Template [] := .ofText _
  (lit "else \x7b\n" ++
    lit "  st = absl::UnimplementedError(absl::StrCat(\"url: \", url, \" not " ++
    lit "found\"));\n" ++
    lit "\x7d\n")
  [[.text (lit "else \x7b")],
    [.text (lit "  st = absl::UnimplementedError(absl::StrCat(\"url: \", url, \" not found\"));")],
    [.text (lit "\x7d")]]
  (by
    repeat rw [lit_ofList]
    decide +kernel)

def returnTemplate : Template [] := .ofText _
  (lit "co_return st;")
  [[.text (lit "co_return st;")]]
  (by
    repeat rw [lit_ofList]
    decide +kernel)

def closeClassTemplate : Template [] := .ofText _
  (lit "\x7d;")
  [[.text (lit "\x7d;")]]
  Template.check_closeClass

def printHeaderService (service : ServiceDescriptor) (p : Printer) : Printer :=
  let vars := serviceVars service
  let p := (p.addVars vars classTemplate.text).indent
  let p := p.addVars vars nameTemplate.text
  let p := (p.addVars vars executeTemplate.text).indent
  let p := p.addLnVars vars statusTemplate.text
  let p := service.methods.zipIdx.foldl (printBranch service) p
  let p := p.add notFoundTemplate.text
  let p := ((p.addLn returnTemplate.text).outdent).addLn closeTemplate.text
  let p := (service.methods.foldl printHeaderServerMethodSync p).outdent
  p.addLn closeClassTemplate.text

end PbGenServerHeader

end FabricRpc.V2
