import FabricRpc.Lib.Machine
import FabricRpc.Lib.Rendezvous
import FabricRpc.Lib.Text
import FabricRpc.Lib.Utf8
import FabricRpc.Lib.Wire
import FabricRpc.Protobuf
import FabricRpc.Protobuf.Proto3
import FabricRpc.TransportMessage
import FabricRpc.Descriptor
import FabricRpc.V2.ItemQueue
import FabricRpc.V2.ItemQueue.Conservation
import FabricRpc.V2.ItemQueue.Order
import FabricRpc.V2.AcceptNet
import FabricRpc.V2.AcceptNet.Sequential
import FabricRpc.V2.AcceptNet.Labels
import FabricRpc.V2.AcceptNet.Ledger
import FabricRpc.V2.AcceptNet.WakeUp
import FabricRpc.V2.AcceptNet.Arrival
import FabricRpc.V2.Server
import FabricRpc.V2.Server.History
import FabricRpc.V2.Server.Isolation
import FabricRpc.V2.Server.Survival
import FabricRpc.V2.Parse
import FabricRpc.V2.Middleware
import FabricRpc.V2.Middleware.Routing
import FabricRpc.V2.RpcClient
import FabricRpc.V2.RpcClient.Transparency
import FabricRpc.V1.Status
import FabricRpc.V1.Operation
import FabricRpc.V1.Router
import FabricRpc.V1.Generator
import FabricRpc.V1.RequestHandler
import FabricRpc.V1.RequestHandler.Sound
import FabricRpc.V1.RequestHandler.Rendezvous
import FabricRpc.V1.ClientHelpers
import FabricRpc.V1.ClientHelpers.Transparency
import FabricRpc.Interop
import FabricRpc.V1.Generator.Routing
import FabricRpc.V1.Operation.Headers
import FabricRpc.V2.Completion
import FabricRpc.V1.ClientHelpers.TransportError
import FabricRpc.V2.ClientConnection
import FabricRpc.V2.ClientConnection.Sends
import FabricRpc.V2.ConnectionManager
import FabricRpc.V2.ConnectionManager.Live
import FabricRpc.V2.AcceptNet.Records
import FabricRpc.V2.Server.Steps
import FabricRpc.V2.AcceptNet.Overlap
import FabricRpc.V2.ItemQueue.Drain
import FabricRpc.V2.Server.Shutdown
import FabricRpc.V2.AcceptNet.Orphan
import FabricRpc.V2.Server.Orphan
import FabricRpc.V2.ExServer
import FabricRpc.V2.ExServer.Answers
import FabricRpc.V2.Parse.StatusCodes
import FabricRpc.V2.Middleware.ErrorReplies
import FabricRpc.V1.RequestHandler.Asserts
import FabricRpc.V1.ClientHelpers.Sizes
import FabricRpc.V2.ItemQueue.Cancel
import FabricRpc.V2.AcceptNet.Destroyed
import FabricRpc.V1.RequestHandler.Completed
import FabricRpc.V2.AcceptNet.Tagged
import FabricRpc.V2.AcceptNet.FailedWait
import FabricRpc.V2.AcceptNet.InTime
import FabricRpc.V2.AcceptNet.FailedInOrder
import FabricRpc.V2.AcceptNet.Progress
import FabricRpc.V2.AcceptNet.Withdrawn
import FabricRpc.Lib.Lines
import FabricRpc.Lib.Template
import FabricRpc.V1.Generator.PbGen
import FabricRpc.Printer
import FabricRpc.V1.Generator.Lines
import FabricRpc.V1.Generator.Chain
import FabricRpc.V1.Generator.Emitted
import FabricRpc.V2.Generator
import FabricRpc.V2.Generator.Lines
import FabricRpc.FileDescriptor
import FabricRpc.V2.Generator.ReadOut
import FabricRpc.V2.Generator.Follows
import FabricRpc.Lib.Scope
import FabricRpc.Names
import FabricRpc.V1.Generator.Files
import FabricRpc.V2.Generator.Files
import FabricRpc.V1.Generator.ClientLines
import FabricRpc.V1.Generator.Types
import FabricRpc.V1.Generator.ClientTypes
import FabricRpc.V1.Generator.Names
import FabricRpc.V2.Generator.Types
import FabricRpc.V2.Generator.Names
import FabricRpc.GeneratedNames
import FabricRpc.V1.Operation.Timeout
import FabricRpc.V1.RequestHandler.Timeout
import FabricRpc.Lib.Template.Spaced
import FabricRpc.Preamble
import FabricRpc.Simultaneous
import FabricRpc.Lib.Progress
import FabricRpc.V2.AcceptNet.Remaining
import FabricRpc.V2.Server.Remaining
import FabricRpc.V2.ExServer.Serve
import FabricRpc.V2.ExServer.Loops
import FabricRpc.V2.ExServer.Progress
import FabricRpc.V2.ClientConnection.Steps
import FabricRpc.V2.System
import FabricRpc.V2.System.Linked
import FabricRpc.V2.System.Progress
import FabricRpc.V2.System.Calls
import FabricRpc.V2.System.Rpc
import FabricRpc.Interop.Mixed
import FabricRpc.Lib.Lexer
import FabricRpc.CppText
import FabricRpc.V1.Generator.Lexical
import FabricRpc.V2.Generator.Lexical
import FabricRpc.CodeGenerator
