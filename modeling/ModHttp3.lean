import ModHttp3.Lib.Run
import ModHttp3.Lib.LinkedQueue
import ModHttp3.Lib.Transfer
import ModHttp3.Basic
import ModHttp3.Response.Queue
import ModHttp3.Response.Refinement
import ModHttp3.Response.Integrity
import ModHttp3.Quic.Datagram
import ModHttp3.Quic.Delivery
import ModHttp3.Quic.Isolation
import ModHttp3.Response.Completion
import ModHttp3.Session.Callbacks
import ModHttp3.Session.Drain
import ModHttp3.Session.Flush
import ModHttp3.Session.Lifecycle
import ModHttp3.System.Tasks
import ModHttp3.System.Machine
import ModHttp3.Session.Change
import ModHttp3.System.Moves
import ModHttp3.System.Custody
import ModHttp3.System.Lifetime
import ModHttp3.System.Safety
import ModHttp3.Lib.Ledger
import ModHttp3.Session.Handles
import ModHttp3.System.Handles
import ModHttp3.System.Release
import ModHttp3.Lib.History
import ModHttp3.Session.Progress
import ModHttp3.System.Effect
import ModHttp3.System.Reset
import ModHttp3.System.Malformed
import ModHttp3.System.Whole
import ModHttp3.System.Dispatch
import ModHttp3.Session.Streams
import ModHttp3.System.Reclaim
import ModHttp3.Quic.Write
import ModHttp3.Session.Wire
import ModHttp3.Session.Contiguous
import ModHttp3.Lib.SwapRemove
import ModHttp3.Process.Accounting
import ModHttp3.Request.Body
import ModHttp3.System.Idle
import ModHttp3.Lib.KeyedTable
import ModHttp3.Request.Build
import ModHttp3.Request.Headers
import ModHttp3.Session.Alter
import ModHttp3.System.Uri
import ModHttp3.System.Alter
import ModHttp3.Quic.PeerAddr
import ModHttp3.Response.Resume
import ModHttp3.Lib.Tally
import ModHttp3.Session.Balance
import ModHttp3.System.Blocked
import ModHttp3.Process.Handshakes
import ModHttp3.Session.Faults
import ModHttp3.System.Errors
import ModHttp3.Response.Fields
import ModHttp3.Response.SameBody
import ModHttp3.System.Blame
import ModHttp3.Config.Server
import ModHttp3.Process.Listener
import ModHttp3.Response.Interim
import ModHttp3.Config.AltSvc
import ModHttp3.System.Producers
import ModHttp3.Config.Merge
import ModHttp3.Config.Running
import ModHttp3.Request.Limits
import ModHttp3.Lib.Words
import ModHttp3.Response.Vary
import ModHttp3.Lib.Block
import ModHttp3.Response.Buffers
import ModHttp3.Response.Stall
import ModHttp3.Lib.Rotation
import ModHttp3.Session.Budget
import ModHttp3.System.Fairness
import ModHttp3.System.FlushEnds
import ModHttp3.System.Flushing
import ModHttp3.Response.Finalize
import ModHttp3.Response.Buffered
import ModHttp3.Response.AllOrNothing
import ModHttp3.Process.Passes
import ModHttp3.Process.SessionPasses
import ModHttp3.Session.Course
import ModHttp3.System.Closing
import ModHttp3.System.Goaway
import ModHttp3.Process.Wakeup
import ModHttp3.Process.Watch
import ModHttp3.Process.Asleep
import ModHttp3.Process.Teardown
import ModHttp3.Quic.Pump
import ModHttp3.System.Received
import ModHttp3.Response.Outlet
import ModHttp3.Process.Stopping
import ModHttp3.Response.FinalFields
import ModHttp3.Quic.EngineLife
