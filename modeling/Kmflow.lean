import Kmflow.Foundation.Transition
import Kmflow.Foundation.Toggle
import Kmflow.Foundation.Framing
import Kmflow.Foundation.Handover
import Kmflow.Foundation.Slots
import Kmflow.Foundation.Bitmap
import Kmflow.Foundation.Broadcast
import Kmflow.Foundation.Channels
import Kmflow.Foundation.Datagrams
import Kmflow.Foundation.Dispatch
import Kmflow.Foundation.Exchange
import Kmflow.Foundation.Infix
import Kmflow.Foundation.LinePipe
import Kmflow.Foundation.Passes
import Kmflow.Foundation.Trunc
import Kmflow.Foundation.Utf8
import Kmflow.Foundation.Utf8Infix
import Kmflow.Foundation.Text
import Kmflow.Foundation.Ipv4
import Kmflow.Foundation.Json
import Kmflow.Foundation.JsonCut
import Kmflow.Foundation.JsonLine
import Kmflow.Foundation.Serde
import Kmflow.Proto.Types
import Kmflow.Proto.Codec
import Kmflow.Net.Control
import Kmflow.Net.Tls
import Kmflow.Net.ConfigDir
import Kmflow.Net.Announce
import Kmflow.Net.Discovery
import Kmflow.Net.OwnAnnounce
import Kmflow.Net.Lan
import Kmflow.Net.LanInfo
import Kmflow.Input.X11Capture
import Kmflow.Input.Emulate
import Kmflow.Input.EvdevCapture
import Kmflow.Input.EvdevDevices
import Kmflow.Input.EventNodes
import Kmflow.Input.Loopback
import Kmflow.Input.Agreement
import Kmflow.Daemon.Edge
import Kmflow.Daemon.State
import Kmflow.Daemon.Session
import Kmflow.Daemon.Outcome
import Kmflow.Daemon.StuckKeys
import Kmflow.Daemon.Tracking
import Kmflow.Daemon.GrabRequest
import Kmflow.Daemon.ControlStream
import Kmflow.Daemon.FocusAgreement
import Kmflow.Daemon.Batching
import Kmflow.Daemon.ReceiveOnly
import Kmflow.Daemon.Supervisor
import Kmflow.Daemon.Dialing
import Kmflow.Daemon.Handshake
import Kmflow.Daemon.Connections
import Kmflow.Daemon.Capture
import Kmflow.Daemon.GrabLoop
import Kmflow.Daemon.Watcher
import Kmflow.Daemon.Ipc
import Kmflow.Daemon.IpcServer
import Kmflow.Daemon.Clipboard
import Kmflow.Daemon.ClipboardPair
import Kmflow.Daemon.Trust
import Kmflow.Daemon.Scan
import Kmflow.Daemon.Received
import Kmflow.Daemon.Cooldown
import Kmflow.Daemon.Overflow
import Kmflow.Daemon.EdgeGeometry
import Kmflow.Daemon.Screen
import Kmflow.Daemon.LocalScreen
import Kmflow.Daemon.Monitors
import Kmflow.Daemon.SubPixel
import Kmflow.Daemon.FrameSize
import Kmflow.Daemon.ClipboardStream
import Kmflow.Daemon.Link
import Kmflow.Daemon.DevicePath
import Kmflow.Daemon.Machines
import Kmflow.Daemon.Shutdown
