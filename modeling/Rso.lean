import Rso.Lib.Runs
import Rso.Lib.Transitions
import Rso.Lib.OrderedTable
import Rso.Lib.Script
import Rso.Lib.Play
import Rso.Lib.Scan
import Rso.Lib.Search
import Rso.Lib.Rpc
import Rso.Chat.Slice
import Rso.Chat.Room
import Rso.Chat.Membership
import Rso.Chat.RoomRuns
import Rso.Chat.Broadcast
import Rso.Chat.DeadMembers
import Rso.Chat.Server
import Rso.Chat.Registry
import Rso.Chat.Directory
import Rso.Chat.Dispatch
import Rso.Chat.RoomNames
import Rso.Chat.Undisturbed
import Rso.Chat.Selection
import Rso.Chat.Interface
import Rso.Chat.Connection
import Rso.Chat.FactoryProcess
import Rso.Chat.FactoryAccess
import Rso.Chat.Factory
import Rso.Chat.World
import Rso.Chat.Skeletons
import Rso.Chat.Stubs
import Rso.Chat.Casts
import Rso.Chat.Invocation
import Rso.Chat.Traffic
import Rso.Chat.Screens
import Rso.Chat.Failures
import Rso.Chat.RoomCounts
import Rso.Chat.Client
import Rso.Chat.Disconnect
import Rso.Chat.Menu
import Rso.Chat.Console
import Rso.Chat.TypedSession
import Rso.Chat.Startup
import Rso.Chat.Handlers
import Rso.Chat.Deployment
import Rso.Chat.Exit
import Rso.Chat.CompleteActions
import Rso.Chat.Agreement
import Rso.Lib.Bytes
import Rso.Lib.Memory
import Rso.Lib.Process
import Rso.Lib.Host
import Rso.Lib.Descriptors
import Rso.Lib.Transfer
import Rso.Lib.Replay
import Rso.Lib.Framing
import Rso.Lib.Pipe
import Rso.Socket.Wire
import Rso.Socket.Server
import Rso.Socket.ServerSpec
import Rso.Socket.ServerWrappers
import Rso.Socket.ServerMain
import Rso.Socket.ServerSession
import Rso.Socket.Client
import Rso.Socket.ClientSpec
import Rso.Socket.ClientWrapper
import Rso.Socket.MenuLoop
import Rso.Socket.ClientSession
import Rso.Socket.Requests
import Rso.Socket.Answers
import Rso.Socket.Threads
import Rso.Socket.Network
import Rso.Socket.NetworkRuns
import Rso.Socket.NetworkSession
import Rso.Socket.NetworkIds
