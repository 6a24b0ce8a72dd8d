import YangIpc.FrameQueue.Delivery
import YangIpc.FrameQueue.StrayRelease
import YangIpc.FrameQueue.Wakeup
import YangIpc.FrameQueue.InterleavedHolds
import YangIpc.Transmission.Sending
import YangIpc.Signalling.Peers
import YangIpc.Signalling.Server
import YangIpc.Signalling.Mqtt
import YangIpc.Signalling.Queue
import YangIpc.Signalling.Parser
import YangIpc.Audio.Handles
import YangIpc.Boarding.RoundTrip
import YangIpc.Core.Beacon
import YangIpc.FrameQueue.Capacity
import YangIpc.FrameQueue.Starvation
import YangIpc.Commands.Payload
import YangIpc.Commands.KeepAlive
import YangIpc.Commands.Transfer
import YangIpc.Boarding.Credentials
import YangIpc.Core.Wifi
import YangIpc.Core.Startup
import YangIpc.Encoder.Nal
import YangIpc.Encoder.AudioFifo
import YangIpc.Library.Bits
import YangIpc.Library.Broadcast.Accounting
import YangIpc.Boarding.Lengths
import YangIpc.Boarding.Custody
import YangIpc.Transmission.Clock
import YangIpc.Transmission.SendLoop
import YangIpc.Transmission.Voice
import YangIpc.Camera.Uvc
import YangIpc.Cs2.SameLan
import YangIpc.Cs2.Packets
import YangIpc.Cs2.SessionLosses
import YangIpc.Cs2.SessionRuns
import YangIpc.Cs2.DropStrategy
import YangIpc.Signalling.MissingData
import YangIpc.Display.Release
import YangIpc.FrameQueue.Intrusive
import YangIpc.Encoder.Scan
import YangIpc.Encoder.VideoRequests
import YangIpc.Encoder.Pipeline
import YangIpc.Encoder.Sessions
import YangIpc.Lan.Descriptors
import YangIpc.Signalling.VectorRuns
import YangIpc.Signalling.Shutdown
