import Riser.Core.CppString
import Riser.Core.CppSearch
import Riser.Core.ExpiringMap
import Riser.Core.Transition
import Riser.Core.Loop
import Riser.Core.Scan
import Riser.Core.Inserts
import Riser.Core.SharedObject
import Riser.Core.Ring
import Riser.Core.Monitor
import Riser.Core.RespValue
import Riser.Store.MetaData
import Riser.Store.GentDb
import Riser.Store.Refinement
import Riser.Store.Interleaving
import Riser.Store.KeyCount
import Riser.Store.Number
import Riser.Store.Scan
import Riser.Store.Failures
import Riser.Redis.Parser
import Riser.Redis.Tokens
import Riser.Redis.Faults
import Riser.Redis.Resp
import Riser.Redis.Request
import Riser.Redis.Operations
import Riser.Redis.Pieces
import Riser.Redis.Complete
import Riser.Redis.Answers
import Riser.Repl.RepInfo
import Riser.Repl.GentReplication
import Riser.Repl.Acknowledge
import Riser.Repl.Converge
import Riser.Repl.Restart
import Riser.Repl.Encoding
import Riser.Repl.GentRepMgr
import Riser.Repl.Slots
import Riser.Repl.Workers
import Riser.Repl.Registration
import Riser.Connect.GentConnect
import Riser.Connect.TryRunning
import Riser.Connect.Stream
import Riser.Connect.Pool
import Riser.Connect.Accounts
import Riser.Connect.Session
import Riser.Connect.Unauthenticated
import Riser.Connect.Rejected
import Riser.Connect.Serve
import Riser.Connect.Cuts
import Riser.Connect.Clients
import Riser.Connect.Events
import Riser.Repl.Dialogue
import Riser.Repl.Synced
import Riser.Repl.Replica
import Riser.Repl.Reconnect
import Riser.Repl.Slaves
import Riser.Redis.Expiry
import Riser.Redis.Segments
import Riser.Redis.Remaining
import Riser.Repl.Lifetime
import Riser.Repl.Clear
import Riser.Repl.MasterQueue
import Riser.Repl.MappedSlot
import Riser.Connect.Mget
import Riser.Connect.Replies
import Riser.Connect.Values
import Riser.Store.Sweeper
import Riser.Frame.GentMsg
import Riser.Frame.Handover
import Riser.Frame.GentConfig
import Riser.Core.Chain
import Riser.Repl.GentListQueue
import Riser.Redis.Splitter
import Riser.Connect.ReadBuffer
import Riser.Repl.Bookkeeping
import Riser.Core.CountingFilter
import Riser.Store.GentList
import Riser.Core.Numeral
import Riser.Level.GentLevel
import Riser.Level.MultiGet
import Riser.Level.SetCommand
import Riser.Level.Requests
