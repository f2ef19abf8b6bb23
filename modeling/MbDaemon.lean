import MbDaemon.Lib.Lts
import MbDaemon.Lib.Mutex
import MbDaemon.Lib.Ownership
import MbDaemon.Helpers.Descriptors
import MbDaemon.FirmwareFSM
import MbDaemon.FirmwareFSM.Exclusion
import MbDaemon.FirmwareFSM.Lifecycle
import MbDaemon.FirmwareFSM.Messages
import MbDaemon.HandlerImpl
import MbDaemon.HandlerImpl.Steps
import MbDaemon.HandlerImpl.PortSafety
import MbDaemon.Lib.Arbiter
import MbDaemon.HandlerImpl.Arbitration
import MbDaemon.HandlerImpl.Holders
import MbDaemon.Lib.Memory
import MbDaemon.RPCDefs
import MbDaemon.RPC
import MbDaemon.RPCDefs.Wire
import MbDaemon.RPC.Transfer
import MbDaemon.DaemonTools
import MbDaemon.DaemonTools.Truncation
import MbDaemon.RPC.Codec
import MbDaemon.RPC.Bounds
import MbDaemon.RPC.Signedness
import MbDaemon.Server
import MbDaemon.Server.Turn
import MbDaemon.RPC.Stream
import MbDaemon.Server.Session
import MbDaemon.Server.Responces
import MbDaemon.Client
import MbDaemon.Client.Pairing
import MbDaemon.CLI
import MbDaemon.Server.Ports
import MbDaemon.HandlerImpl.Progress
import MbDaemon.HandlerImpl.Replies
import MbDaemon.Lib.Hex
import MbDaemon.Lib.Python
import MbDaemon.Lib.Script
import MbDaemon.Lib.Shell
import MbDaemon.HwUtils.Command
import MbDaemon.HwUtils.FillString
import MbDaemon.Lib.StopAndWait
import MbDaemon.Scripts.BootloaderFlash
import MbDaemon.Scripts.BootloaderFlash.Session
import MbDaemon.Scripts.BootloaderFlash.Erase
import MbDaemon.Scripts.BootloaderFlash.Oversize
import MbDaemon.Scripts.BootloaderFind
import MbDaemon.Scripts.BootloaderStart
import MbDaemon.Scripts.BootloaderStart.Discovery
import MbDaemon.Server.Threads
import MbDaemon.Server.Threads.Roster
import MbDaemon.Server.Threads.Steps
import MbDaemon.Server.Threads.Joining
import MbDaemon.Server.Threads.Wakeups
import MbDaemon.Server.Threads.Cancelling
import MbDaemon.Lib.Interaction
import MbDaemon.Server.Calls
import MbDaemon.Server.Frames
import MbDaemon.Server.Replay
import MbDaemon.Server.Protocol
import MbDaemon.Server.Conversation
import MbDaemon.HandlerImpl.Executing
import MbDaemon.Daemon
import MbDaemon.Daemon.Ledger
import MbDaemon.Daemon.Requested
import MbDaemon.Server.Threads.Blocking
import MbDaemon.Server.Threads.Shutdown
import MbDaemon.Server.Threads.Return
import MbDaemon.Lib.CommandTree
import MbDaemon.CLI.Parser
import MbDaemon.CLI.Commands
import MbDaemon.CLI.Reported
import MbDaemon.Scripts.BootloaderFlash.Board
import MbDaemon.Daemon.Scripted
import MbDaemon.CLI.Flashed
import MbDaemon.HandlerImpl.Rest
import MbDaemon.Server.Rendezvous
import MbDaemon.Server.Rendezvous.Pairing
