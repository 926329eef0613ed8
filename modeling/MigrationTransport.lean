import MigrationTransport.Lib.Runs
import MigrationTransport.Lib.BoundedDeque
import MigrationTransport.Lib.OrderedDict
import MigrationTransport.Lib.DropOldestFifo
import MigrationTransport.ByteStream
import MigrationTransport.TcpProxy.CircularQueue
import MigrationTransport.TcpProxy.QueueClients
import MigrationTransport.TcpProxy.FifoRefinement
import MigrationTransport.TcpProxy.ForwardData
import MigrationTransport.TcpProxy.Lossless
import MigrationTransport.TcpProxy.Eviction
import MigrationTransport.TcpProxy.EventLoop
import MigrationTransport.TcpProxy.TurnTaking
import MigrationTransport.TcpProxy.Scheduling
import MigrationTransport.TcpProxy.Chunks
import MigrationTransport.TcpProxy.Destination
import MigrationTransport.TcpProxy.LostDestination
import MigrationTransport.TcpProxy.Backlog
import MigrationTransport.TcpProxy.Session
import MigrationTransport.TcpProxy.Histogram
import MigrationTransport.TcpProxy.Teardown
import MigrationTransport.TcpProxy.HalfClose
import MigrationTransport.WebSocket.Pipe
import MigrationTransport.WebSocket.TunnelSafety
import MigrationTransport.WebSocket.Tunnel
import MigrationTransport.WebSocket.TunnelTermination
import MigrationTransport.WebSocket.Shutdown
import MigrationTransport.WebSocket.Cleanup
import MigrationTransport.WebSocket.CleanupOverlap
import MigrationTransport.WebSocket.Client
import MigrationTransport.WebSocket.Release
import MigrationTransport.WebSocket.Ownership
import MigrationTransport.BpfRedirect.Sockmap
import MigrationTransport.BpfRedirect.Isolation
import MigrationTransport.ReusePort.Selector
import MigrationTransport.ReusePort.TcpServer
import MigrationTransport.ReusePort.Routing
import MigrationTransport.WebSocket.FinalLoop
import MigrationTransport.WebSocket.Server
import MigrationTransport.WebSocket.ServerTeardown
import MigrationTransport.Lib.AttemptLog
import MigrationTransport.ProxyPerf.Progress
import MigrationTransport.ProxyPerf.UnixSender
import MigrationTransport.ProxyPerf.UnixSenderGap
import MigrationTransport.Lib.PacedLog
import MigrationTransport.Lib.Telescope
import MigrationTransport.ProxyPerf.Meter
import MigrationTransport.ProxyPerf.BenchmarkSend
import MigrationTransport.ProxyPerf.TcpReceiver
import MigrationTransport.ProxyPerf.Receiver
import MigrationTransport.ProxyPerf.TcpReceiverGap
import MigrationTransport.ProxyPerf.StartServer
import MigrationTransport.ProxyPerf.UnixReceiver
import MigrationTransport.ProxyPerf.WebSocketReceiver
import MigrationTransport.ProxyPerf.BenchLoops
import MigrationTransport.ProxyPerf.IntervalRate
import MigrationTransport.ProxyPerf.Pacing
import MigrationTransport.ProxyPerf.Segmentation
import MigrationTransport.ProxyPerf.FinalStatistics
import MigrationTransport.ProxyPerf.BenchmarkRelease
import MigrationTransport.ProgressLines
import MigrationTransport.BpfRedirect.EchoServer
import MigrationTransport.Lib.Utf8Cut
import MigrationTransport.ReuseAddr.EchoServer
import MigrationTransport.EchoSegmentation
import MigrationTransport.Lib.CounterMap
import MigrationTransport.MigrateTls.TlsPerf
import MigrationTransport.Lib.Ranking
import MigrationTransport.Lib.Descriptors
import MigrationTransport.Lib.SendLog
import MigrationTransport.ProxyPerf.Pipeline
import MigrationTransport.MigrateTls.HandOver
import MigrationTransport.MigrateTls.HandOverSafety
import MigrationTransport.MigrateTls.HandOverKept
import MigrationTransport.TcpProxy.Ordering
import MigrationTransport.TcpProxy.Termination
import MigrationTransport.TcpProxy.Relay
import MigrationTransport.TcpProxy.RelayComplete
import MigrationTransport.TcpProxy.RelayTermination
import MigrationTransport.Qmp.Scripts
import MigrationTransport.Qmp.Conversation
import MigrationTransport.Qmp.TwoHosts
import MigrationTransport.TcpProxy.ConnectRetry
import MigrationTransport.TcpProxy.HistogramReport
import MigrationTransport.MigrateTls.PerThread
import MigrationTransport.ReusePort.ServeLoop
import MigrationTransport.ReusePort.Deployment
import MigrationTransport.Lib.Ascii
import MigrationTransport.ReuseAddr.Dialogue
import MigrationTransport.ReuseAddr.Lockstep
import MigrationTransport.ReuseAddr.PortReuse
import MigrationTransport.Lib.Family
import MigrationTransport.TcpProxy.Channels
