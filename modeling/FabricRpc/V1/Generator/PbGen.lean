import FabricRpc.Printer

namespace FabricRpc.V1

open Lib

-- `vars` of a file, and at the templates of a service.
def fileVars (package : Package) : List (Bytes × Bytes) :=
  [(lit "Namespace", namespaceOf package), (lit "Package", package.scope)]

def serviceVars (service : ServiceDescriptor) : List (Bytes × Bytes) :=
  fileVars service.package ++ [(lit "Service", service.name.bytes)]

-- Those that the loop over the methods leaves, where it shares `vars`.
def varsAfter (service : ServiceDescriptor) : List (Bytes × Bytes) :=
  match service.methods.getLast? with
  | none => serviceVars service
  | some method => vars service method

namespace PbGen

-- The texts that several functions print.
def closeTemplate : Template [] := .ofText _
  (lit "\x7d")
  [[.text (lit "\x7d")]]
  Template.check_close

def closeClassTemplate : Template [] := .ofText _
  (lit "\x7d;")
  [[.text (lit "\x7d;")]]
  Template.check_closeClass

def notSupportedTemplate : Template methodKeys := .ofText _
  (lit "// Streamingfor method $Method$ request $Request$ response " ++
    lit "$Response$ not supported ")
  [[.text (lit "// Streamingfor method "), .hole (lit "Method"), .text (lit " request "),
    .hole (lit "Request"), .text (lit " response "), .hole (lit "Response"),
    .text (lit " not supported ")]]
  Template.check_notSupported

section HeaderService

def beginTemplate : Template methodKeys := .ofText _
  (lit "virtual fabricrpc::Status Begin$Method$(" ++
    lit "const $Request$* request, DWORD timeoutMilliseconds," ++
    lit "IFabricAsyncOperationCallback *callback, /*out*/ " ++
    lit "IFabricAsyncOperationContext **context) = 0;")
  [[.text (lit "virtual fabricrpc::Status "), .text (lit "Begin"), .hole (lit "Method"),
    .text (lit "(const "), .hole (lit "Request"),
    .text (lit "* request, DWORD timeoutMilliseconds,IFabricAsyncOperationCallback "),
    .text (lit "*callback, /*out*/ IFabricAsyncOperationContext **context) = 0;")]]
  (by
    unfold methodKeys
    repeat rw [lit_ofList]
    decide +kernel)

def endTemplate : Template methodKeys := .ofText _
  (lit "virtual fabricrpc::Status End$Method$(" ++
    lit "IFabricAsyncOperationContext *context, /*out*/$Response$* " ++
    lit "response) = 0;")
  [[.text (lit "virtual fabricrpc::Status "), .text (lit "End"), .hole (lit "Method"),
    .text (lit "(IFabricAsyncOperationContext *context, /*out*/"), .hole (lit "Response"),
    .text (lit "* response) = 0;")]]
  (by
    unfold methodKeys
    repeat rw [lit_ofList]
    decide +kernel)

def printHeaderServerMethodSync (service : ServiceDescriptor) (p : Printer)
    (method : MethodDescriptor) : Printer :=
  let vars := vars service method
  if method.noStreaming then
    (p.addLnVars vars beginTemplate.text).addLnVars vars endTemplate.text
  else p.addLn notSupportedTemplate.text

def classTemplate : Template serviceKeys := .ofText _
  (lit "class $Service$ final \x7b\n" ++
    lit "  public:\n")
  [[.text (lit "class "), .hole (lit "Service"), .text (lit " final \x7b")],
    [.text (lit "  public:")]]
  (by
    unfold serviceKeys
    repeat rw [lit_ofList]
    decide +kernel)

def fullNameTemplate : Template serviceKeys := .ofText _
  (lit "static constexpr char const* service_full_name() \x7b\n" ++
    lit "  return \"$Package$$Service$\";\n" ++
    lit "\x7d\n")
  [[.text (lit "static constexpr char const* service_full_name() \x7b")],
    [.text (lit "  return \""), .hole (lit "Package"), .hole (lit "Service"), .text (lit "\";")],
    [.text (lit "\x7d")]]
  (by
    unfold serviceKeys
    repeat rw [lit_ofList]
    decide +kernel)

def serviceTemplate : Template [] := .ofText _
  (lit "class Service : public fabricrpc::MiddleWare \x7b\n" ++
    lit "  public:\n")
  [[.text (lit "class Service : public fabricrpc::MiddleWare \x7b")],
    [.text (lit "  public:")]]
  (by
    repeat rw [lit_ofList]
    decide +kernel)

def constructorTemplate : Template [] := .ofText _
  (lit "Service() \x7b\x7d;\n")
  [[.text (lit "Service() \x7b\x7d;")]]
  (by
    repeat rw [lit_ofList]
    decide +kernel)

def destructorTemplate : Template [] := .ofText _
  (lit "virtual ~Service() \x7b\x7d;\n")
  [[.text (lit "virtual ~Service() \x7b\x7d;")]]
  (by
    repeat rw [lit_ofList]
    decide +kernel)

def routeTemplate : Template [] := .ofText _
  (lit "virtual fabricrpc::Status Route(const std::string & url, " ++
    lit "std::unique_ptr<fabricrpc::IBeginOperation> & beginOp, " ++
    lit "std::unique_ptr<fabricrpc::IEndOperation> & endOp) override;")
  [[.text (lit "virtual fabricrpc::Status Route(const std::string & url, "),
    .text (lit "std::unique_ptr<fabricrpc::IBeginOperation> & beginOp, "),
    .text (lit "std::unique_ptr<fabricrpc::IEndOperation> & endOp) override;")]]
  (by
    repeat rw [lit_ofList]
    decide +kernel)

def printHeaderService (service : ServiceDescriptor) (p : Printer) : Printer :=
  let vars := serviceVars service
  let p := (p.addVars vars classTemplate.text).indent
  let p := p.addVars vars fullNameTemplate.text
  let p := (p.add serviceTemplate.text).indent
  let p := (p.add constructorTemplate.text).add destructorTemplate.text
  let p := service.methods.foldl (printHeaderServerMethodSync service) p
  let p := (p.addLnVars (varsAfter service) routeTemplate.text).outdent
  let p := (p.add (closeClassTemplate.text ++ lit "\n")).outdent
  p.addLn closeClassTemplate.text

end HeaderService

section CCService

def elseTemplate : Template [] := .ofText _
  (lit "else ")
  [[.text (lit "else ")]]
  Template.check_else

def ifTemplate : Template methodKeys := .ofText _
  (lit "if (url == \"/$Package$$Service$/$Method$\") \x7b\n")
  [[.text (lit "if (url == \""), .text (lit "/"), .hole (lit "Package"), .hole (lit "Service"),
    .text (lit "/"), .hole (lit "Method"), .text (lit "\") \x7b")]]
  Template.check_if

def bindTemplate : Template methodKeys := .ofText _
  (lit "auto bo = std::bind(&Service::Begin$Method$, this, " ++
    lit "std::placeholders::_1,\n" ++
    lit "              std::placeholders::_2, std::placeholders::_3, " ++
    lit "std::placeholders::_4);\n" ++
    lit "auto eo = std::bind(&Service::End$Method$, this, " ++
    lit "std::placeholders::_1,\n" ++
    lit "              std::placeholders::_2);\n" ++
    lit "beginOp = " ++
    lit "std::make_unique<fabricrpc::BeginOperation<$Request$>>(bo);\n" ++
    lit "endOp = " ++
    lit "std::make_unique<fabricrpc::EndOperation<$Response$>>(eo);\n")
  [[.text (lit "auto bo = std::bind(&Service::"), .text (lit "Begin"), .hole (lit "Method"),
    .text (lit ", this, std::placeholders::_1,")],
    [.text (lit "              std::placeholders::_2, std::placeholders::_3, "),
     .text (lit "std::placeholders::_4);")],
    [.text (lit "auto eo = std::bind(&Service::"), .text (lit "End"), .hole (lit "Method"),
     .text (lit ", this, std::placeholders::_1,")],
    [.text (lit "              std::placeholders::_2);")],
    [.text (lit "beginOp = std::make_unique<fabricrpc::BeginOperation<"), .hole (lit "Request"),
     .text (lit ">>(bo);")],
    [.text (lit "endOp = std::make_unique<fabricrpc::EndOperation<"), .hole (lit "Response"),
     .text (lit ">>(eo);")]]
  (by
    unfold methodKeys
    repeat rw [lit_ofList]
    decide +kernel)

-- The body of the loop of PrintCCService.
def printBranch (service : ServiceDescriptor) (p : Printer) : MethodDescriptor × ℕ → Printer
  | (method, i) =>
    let vars := vars service method
    let p := if i ≠ 0 then p.add elseTemplate.text else p
    let p := (p.addVars vars ifTemplate.text).indent
    let p := (p.addVars vars bindTemplate.text).outdent
    p.add closeTemplate.text

def signatureTemplate : Template serviceKeys := .ofText _
  (lit "fabricrpc::Status $Service$::Service::Route(const std::string & " ++
    lit "url, std::unique_ptr<fabricrpc::IBeginOperation> & beginOp, " ++
    lit "std::unique_ptr<fabricrpc::IEndOperation> & endOp) \x7b")
  [[.text (lit "fabricrpc::Status "), .hole (lit "Service"),
    .text (lit "::Service::Route(const std::string & url, "),
    .text (lit "std::unique_ptr<fabricrpc::IBeginOperation> & beginOp, "),
    .text (lit "std::unique_ptr<fabricrpc::IEndOperation> & endOp) \x7b")]]
  (by
    unfold serviceKeys
    repeat rw [lit_ofList]
    decide +kernel)

def notFoundTemplate : Template [] := .ofText _
  (lit "else \x7b\n" ++
    lit "  return fabricrpc::Status(fabricrpc::StatusCode::NOT_FOUND, " ++
    lit "\"method not found: \" + url);\n" ++
    lit "\x7d\n")
  [[.text (lit "else \x7b")],
    [.text (lit "  return fabricrpc::Status(fabricrpc::StatusCode::NOT_FOUND, \"method "),
     .text (lit "not found: \" + url);")],
    [.text (lit "\x7d")]]
  (by
    repeat rw [lit_ofList]
    decide +kernel)

def returnTemplate : Template [] := .ofText _
  (lit "return fabricrpc::Status();")
  [[.text (lit "return fabricrpc::Status();")]]
  (by
    repeat rw [lit_ofList]
    decide +kernel)

def printCCService (service : ServiceDescriptor) (p : Printer) : Printer :=
  let p := (p.addLnVars (serviceVars service) signatureTemplate.text).indent
  let p := service.methods.zipIdx.foldl (printBranch service) p
  let p := p.add notFoundTemplate.text
  ((p.addLn returnTemplate.text).outdent).addLn closeTemplate.text

end CCService

section HeaderClientService

def clientBeginTemplate : Template methodKeys := .ofText _
  (lit "fabricrpc::Status Begin$Method$(" ++
    lit "const $Request$* request, " ++
    lit "DWORD timeoutMilliseconds, " ++
    lit "IFabricAsyncOperationCallback *callback, /*out*/ " ++
    lit "IFabricAsyncOperationContext **context);")
  [[.text (lit "fabricrpc::Status Begin"), .hole (lit "Method"), .text (lit "(const "),
    .hole (lit "Request"),
    .text (lit "* request, DWORD timeoutMilliseconds, IFabricAsyncOperationCallback "),
    .text (lit "*callback, /*out*/ IFabricAsyncOperationContext **context);")]]
  (by
    unfold methodKeys
    repeat rw [lit_ofList]
    decide +kernel)

def clientEndTemplate : Template methodKeys := .ofText _
  (lit "fabricrpc::Status End$Method$(" ++
    lit "IFabricAsyncOperationContext *context, /*out*/$Response$* " ++
    lit "response);")
  [[.text (lit "fabricrpc::Status End"), .hole (lit "Method"),
    .text (lit "(IFabricAsyncOperationContext *context, /*out*/"), .hole (lit "Response"),
    .text (lit "* response);")]]
  (by
    unfold methodKeys
    repeat rw [lit_ofList]
    decide +kernel)

def printHeaderClientMethodSync (service : ServiceDescriptor) (p : Printer)
    (method : MethodDescriptor) : Printer :=
  let vars := vars service method
  if method.noStreaming then
    (p.addLnVars vars clientBeginTemplate.text).addLnVars vars clientEndTemplate.text
  else p.addLn notSupportedTemplate.text

def clientClassTemplate : Template serviceKeys := .ofText _
  (lit "class $Service$Client\x7b\n" ++
    lit "public:\n")
  [[.text (lit "class "), .hole (lit "Service"), .text (lit "Client\x7b")],
    [.text (lit "public:")]]
  (by
    unfold serviceKeys
    repeat rw [lit_ofList]
    decide +kernel)

def clientConstructorTemplate : Template serviceKeys := .ofText _
  (lit "$Service$Client(IFabricTransportClient * client);")
  [[.hole (lit "Service"), .text (lit "Client(IFabricTransportClient * client);")]]
  (by
    unfold serviceKeys
    repeat rw [lit_ofList]
    decide +kernel)

def privateTemplate : Template [] := .ofText _
  (lit "private:\n")
  [[.text (lit "private:")]]
  Template.check_private

def fieldsTemplate : Template [] := .ofText _
  (lit "  CComPtr<IFabricTransportClient> client_;\n" ++
    lit "  std::shared_ptr<fabricrpc::IFabricRPCHeaderProtoConverter> cv_;\n")
  [[.text (lit "  CComPtr<IFabricTransportClient> client_;")],
    [.text (lit "  std::shared_ptr<fabricrpc::IFabricRPCHeaderProtoConverter> cv_;")]]
  (by
    repeat rw [lit_ofList]
    decide +kernel)

def printHeaderClientService (service : ServiceDescriptor) (p : Printer) : Printer :=
  let vars := serviceVars service
  let p := (p.addVars vars clientClassTemplate.text).indent
  let p := p.addLnVars vars clientConstructorTemplate.text
  let p := (service.methods.foldl (printHeaderClientMethodSync service) p).outdent
  let p := (p.add privateTemplate.text).add fieldsTemplate.text
  p.add (closeClassTemplate.text ++ lit "\n")

end HeaderClientService

section CCClientService

def execBeginTemplate : Template methodKeys := .ofText _
  (lit "fabricrpc::Status $Service$Client::Begin$Method$(" ++
    lit "const $Request$* request, " ++
    lit "DWORD timeoutMilliseconds, " ++
    lit "IFabricAsyncOperationCallback *callback, /*out*/ " ++
    lit "IFabricAsyncOperationContext **context)\x7b\n" ++
    lit "  return fabricrpc::ExecClientBegin(client_, cv_, " ++
    lit "timeoutMilliseconds, \"/$Package$$Service$/$Method$\", request,\n" ++
    lit "             callback, context);" ++
    lit "\x7d\n")
  [[.text (lit "fabricrpc::Status "), .hole (lit "Service"), .text (lit "Client::Begin"),
    .hole (lit "Method"), .text (lit "(const "), .hole (lit "Request"),
    .text (lit "* request, DWORD timeoutMilliseconds, IFabricAsyncOperationCallback "),
    .text (lit "*callback, /*out*/ IFabricAsyncOperationContext **context)\x7b")],
    [.text (lit "  return fabricrpc::ExecClientBegin(client_, cv_, timeoutMilliseconds, \""),
     .text (lit "/"), .hole (lit "Package"), .hole (lit "Service"), .text (lit "/"),
     .hole (lit "Method"), .text (lit "\", request,")],
    [.text (lit "             callback, context);\x7d")]]
  (by
    unfold methodKeys
    repeat rw [lit_ofList]
    decide +kernel)

def execEndTemplate : Template methodKeys := .ofText _
  (lit "fabricrpc::Status $Service$Client::End$Method$(" ++
    lit "IFabricAsyncOperationContext *context, " ++
    lit "/*out*/$Response$* response)\x7b\n" ++
    lit "  return fabricrpc::ExecClientEnd(client_, cv_, " ++
    lit "context, response);" ++
    lit "\x7d\n")
  [[.text (lit "fabricrpc::Status "), .hole (lit "Service"), .text (lit "Client::End"),
    .hole (lit "Method"), .text (lit "(IFabricAsyncOperationContext *context, /*out*/"),
    .hole (lit "Response"), .text (lit "* response)\x7b")],
    [.text (lit "  return fabricrpc::ExecClientEnd(client_, cv_, context, response);\x7d")]]
  (by
    unfold methodKeys
    repeat rw [lit_ofList]
    decide +kernel)

-- The body of the loop of PrintCCClientService.
def printClientMethod (service : ServiceDescriptor) (p : Printer) (method : MethodDescriptor) :
    Printer :=
  let vars := vars service method
  if method.noStreaming then
    (p.addLnVars vars execBeginTemplate.text).addLnVars vars execEndTemplate.text
  else p.addLn notSupportedTemplate.text

def clientSourceTemplate : Template serviceKeys := .ofText _
  (lit "using privateconverter = " ++
    lit "fabricrpc::FabricRPCHeaderProtoConverter<fabricrpc::request_header, " ++
    lit "fabricrpc::reply_header>;\n" ++
    lit "$Service$Client::$Service$Client(IFabricTransportClient *client)\n" ++
    lit "  : client_(), cv_(std::make_shared<privateconverter>()) \x7b\n" ++
    lit "  client->AddRef();\n" ++
    lit "  client_.Attach(client);\n" ++
    lit "\x7d\n")
  [[.text (lit "using privateconverter = "),
    .text (lit "fabricrpc::FabricRPCHeaderProtoConverter<fabricrpc::request_header, "),
    .text (lit "fabricrpc::reply_header>;")],
    [.hole (lit "Service"), .text (lit "Client::"), .hole (lit "Service"),
     .text (lit "Client(IFabricTransportClient *client)")],
    [.text (lit "  : client_(), cv_(std::make_shared<privateconverter>()) \x7b")],
    [.text (lit "  client->AddRef();")],
    [.text (lit "  client_.Attach(client);")],
    [.text (lit "\x7d")]]
  (by
    unfold serviceKeys
    repeat rw [lit_ofList]
    decide +kernel)

def printCCClientService (service : ServiceDescriptor) (p : Printer) : Printer :=
  let p := p.addVars (serviceVars service) clientSourceTemplate.text
  service.methods.foldl (printClientMethod service) p

end CCClientService

end PbGen

end FabricRpc.V1
