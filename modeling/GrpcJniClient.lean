import GrpcJniClient.Run
import GrpcJniClient.ThreadPool
import GrpcJniClient.Backlog
import GrpcJniClient.Ownership
import GrpcJniClient.SharedFlow
import GrpcJniClient.Subscription
import GrpcJniClient.Demux
import GrpcJniClient.Loop
import GrpcJniClient.Continuation
import GrpcJniClient.JavaString
import GrpcJniClient.ModifiedUtf8
import GrpcJniClient.Tlv
import GrpcJniClient.Numeral
import GrpcJniClient.Shuffle
import GrpcJniClient.NormalLookup
import GrpcJniClient.BluetoothExt
import GrpcJniClient.BluetoothUuids
import GrpcJniClient.BluetoothProfileManager
import GrpcJniClient.RfcommManager
import GrpcJniClient.RfcommList
import GrpcJniClient.RfcommRouting
import GrpcJniClient.RfcommStop
import GrpcJniClient.RfcommRequests
import GrpcJniClient.RfcommBlocking
import GrpcJniClient.RfcommRelease
import GrpcJniClient.ReadLoop
import GrpcJniClient.CarplayRuntime
import GrpcJniClient.RuntimeStartup
import GrpcJniClient.InboundPipeline
import GrpcJniClient.OutboundPipeline
import GrpcJniClient.PhoneLinks
import GrpcJniClient.PhoneStreams
import GrpcJniClient.DisableBluetooth
import GrpcJniClient.ProfileAddresses
import GrpcJniClient.Flatbuffers
import GrpcJniClient.FlatbufferBuilder
import GrpcJniClient.FlatbufferTables
import GrpcJniClient.FlatbufferRoundTrip
import GrpcJniClient.RpcRequests
import GrpcJniClient.RpcEncoding
import GrpcJniClient.RpcLifecycle
import GrpcJniClient.ScreenStream
import GrpcJniClient.CodecSafety
import GrpcJniClient.ScreenSession
import GrpcJniClient.SurfaceWindow
import GrpcJniClient.ScreenLooper
import GrpcJniClient.ScreenLooperWindow
import GrpcJniClient.CodecInput
import GrpcJniClient.CodecConfiguration
import GrpcJniClient.CodecFrames
import GrpcJniClient.CodecRetry
import GrpcJniClient.CodecBounds
import GrpcJniClient.HostapdService
import GrpcJniClient.HostapdStart
import GrpcJniClient.HostapdWaiters
import GrpcJniClient.HostapdPublication
import GrpcJniClient.HostapdSessions
import GrpcJniClient.HostapdOrder
import GrpcJniClient.HostapdSsid
import GrpcJniClient.HostapdPassword
import GrpcJniClient.CallbackBridges
import GrpcJniClient.HostapdFailures
import GrpcJniClient.NetLinkMonitor
import GrpcJniClient.NetLinkBounds
import GrpcJniClient.NetLinkMessages
import GrpcJniClient.NetLinkLifecycle
import GrpcJniClient.NetLinkStop
import GrpcJniClient.TouchListener
import GrpcJniClient.TouchSlots
import GrpcJniClient.TouchProjection
import GrpcJniClient.TouchReports
import GrpcJniClient.TouchPacking
import GrpcJniClient.RpcStreams
import GrpcJniClient.SessionRequests
import GrpcJniClient.RpcSessions
import GrpcJniClient.BluetoothBroadcasts
import GrpcJniClient.JniThreads
import GrpcJniClient.HostapdCredentials
import GrpcJniClient.CodecLeaks
import GrpcJniClient.KernelAddresses
