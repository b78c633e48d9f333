import WebsocketServer.Server.EventLoop
import WebsocketServer.Server.Connection
import WebsocketServer.Ws.Segmentation
import WebsocketServer.Ws.PayloadLimit
import WebsocketServer.Common.Crc32
import WebsocketServer.Common.ErrorCodes
import WebsocketServer.File.Protocol
import WebsocketServer.Library.FileSystem
import WebsocketServer.File.TransferManager
import WebsocketServer.Library.Run
import WebsocketServer.File.Sessions
import WebsocketServer.File.Steps
import WebsocketServer.File.Upload
import WebsocketServer.File.FinishAck
import WebsocketServer.File.Rejection
import WebsocketServer.Server.Outbound
import WebsocketServer.Server.Handshake
import WebsocketServer.Server.Dispatch
import WebsocketServer.Library.Trace
import WebsocketServer.Server.CloseOrder
import WebsocketServer.Library.WorkerPool
import WebsocketServer.Server.Order
import WebsocketServer.Server.Moves
import WebsocketServer.Server.Frames
import WebsocketServer.File.Representation
import WebsocketServer.Client.Resume
import WebsocketServer.Ws.Nonce
import WebsocketServer.Ws.BinaryFrames
import WebsocketServer.Client.PayloadSizes
import WebsocketServer.Client.LostFrames
import WebsocketServer.Server.WireStream
import WebsocketServer.Server.HttpResponder
import WebsocketServer.Server.EventBatch
import WebsocketServer.Common.MemoryPool
import WebsocketServer.Common.Shutdown
import WebsocketServer.File.ChunkRange
import WebsocketServer.Client.StuckUploads
import WebsocketServer.File.Syscalls
import WebsocketServer.File.Ownership
import WebsocketServer.File.Closes
import WebsocketServer.Server.TlsCalls
import WebsocketServer.Server.Drained
import WebsocketServer.Server.Heartbeat
import WebsocketServer.Client.EarlyData
import WebsocketServer.Library.JavaScript
import WebsocketServer.Client.WebCodec
import WebsocketServer.Client.WireFormat
import WebsocketServer.Ws.Framing
import WebsocketServer.Common.Crc32Bits
import WebsocketServer.Client.WebCrc
import WebsocketServer.File.Checksums
import WebsocketServer.Client.UploadParameters
import WebsocketServer.Ws.HeaderFields
import WebsocketServer.Server.HttpFraming
import WebsocketServer.Server.HttpSegments
import WebsocketServer.Library.PathName
import WebsocketServer.Server.HttpConfinement
import WebsocketServer.File.Cleanup
import WebsocketServer.File.Duplicates
import WebsocketServer.Library.Utf8
import WebsocketServer.File.Names
import WebsocketServer.Ws.Indexing
import WebsocketServer.Library.CText
import WebsocketServer.Common.ConfigFile
import WebsocketServer.Server.StartUp
import WebsocketServer.Server.BrowserLog
import WebsocketServer.Library.Simulation
import WebsocketServer.Server.FileCalls
import WebsocketServer.Server.Tickets
import WebsocketServer.Client.Downstream
import WebsocketServer.Server.Wakeups
import WebsocketServer.Server.Inbound
import WebsocketServer.Server.Upstream
import WebsocketServer.Client.Demux
import WebsocketServer.Client.PageMessages
import WebsocketServer.Client.PageDialogue
import WebsocketServer.Client.CliDialogue
