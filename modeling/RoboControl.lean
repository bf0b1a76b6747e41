import RoboControl.Base.Bytes
import RoboControl.Base.Channel
import RoboControl.Base.Chain
import RoboControl.Base.Double
import RoboControl.Base.Circular
import RoboControl.Base.Run
import RoboControl.Base.Fifo
import RoboControl.Base.CubeRoot
import RoboControl.Base.Slots
import RoboControl.Base.CString
import RoboControl.Base.Expiring
import RoboControl.Base.Window
import RoboControl.Base.Decimal
import RoboControl.Base.Ledger
import RoboControl.Base.Report
import RoboControl.Base.Estimator
import RoboControl.Base.Words
import RoboControl.Base.Crc
import RoboControl.Base.Absorb
import RoboControl.Base.Fips180
import RoboControl.Base.Fips197
import RoboControl.Base.Hex
import RoboControl.Base.Intern
import RoboControl.Base.Printf
import RoboControl.Proto.Header
import RoboControl.Proto.Message
import RoboControl.Proto.Validate
import RoboControl.Proto.Codec
import RoboControl.Proto.Crc
import RoboControl.Crypto.Openssl
import RoboControl.Crypto.Session
import RoboControl.Crypto.Record
import RoboControl.Crypto.Derived
import RoboControl.Crypto.Rotation
import RoboControl.Crypto.Atomic
import RoboControl.Connection.RingBuf
import RoboControl.Connection.Fifo
import RoboControl.Connection.Basic
import RoboControl.Connection.Pool
import RoboControl.Connection.Chains
import RoboControl.Connection.Lifecycle
import RoboControl.Connection.Ids
import RoboControl.Connection.References
import RoboControl.Connection.Spsc
import RoboControl.Connection.Purge
import RoboControl.Handshake.Steps
import RoboControl.Handshake.Honest
import RoboControl.Handshake.Keys
import RoboControl.Handshake.Frame
import RoboControl.Handshake.Completion
import RoboControl.P2p.Framing
import RoboControl.P2p.Stun
import RoboControl.Relay.Forward
import RoboControl.Relay.Table
import RoboControl.Relay.Routed
import RoboControl.Relay.Accounting
import RoboControl.Relay.Limits
import RoboControl.RelayServer.Sessions
import RoboControl.RelayServer.Table
import RoboControl.RelayServer.Find
import RoboControl.RelayServer.Admit
import RoboControl.RelayServer.Lru
import RoboControl.RelayServer.Registry
import RoboControl.RelayServer.Stale
import RoboControl.Retransmit.Queue
import RoboControl.Retransmit.Window
import RoboControl.Retransmit.Wrap
import RoboControl.Retransmit.Loss
import RoboControl.Congestion.Cubic
import RoboControl.Congestion.Root
import RoboControl.Congestion.Window
import RoboControl.Congestion.Rtt
import RoboControl.Congestion.Curve
import RoboControl.Signaling.Server
import RoboControl.Signaling.Rooms
import RoboControl.Signaling.Leaving
import RoboControl.Signaling.Joining
import RoboControl.Signaling.Clients
import RoboControl.Signaling.Actions
import RoboControl.Signaling.Membership
import RoboControl.Signaling.Broadcast
import RoboControl.Signaling.Received
import RoboControl.Signaling.Segments
import RoboControl.Signaling.Log
import RoboControl.Signaling.Pool
import RoboControl.Auth.Server
import RoboControl.Auth.Loop
import RoboControl.Auth.Segments
import RoboControl.Auth.Rate
import RoboControl.Auth.Tokens
import RoboControl.Auth.Bucket
import RoboControl.Billing.Server
import RoboControl.Billing.Commands
import RoboControl.Billing.Usage
import RoboControl.Billing.Subscription
import RoboControl.Billing.Json
import RoboControl.Timers.Wheel
import RoboControl.Timers.Layout
import RoboControl.Timers.Agenda
import RoboControl.Timers.Exact
import RoboControl.Timers.Threads
import RoboControl.Timers.Partition
import RoboControl.Timers.Cancel
import RoboControl.Timers.Cascade
import RoboControl.Watchers.Pool
import RoboControl.Watchers.Dispatch
import RoboControl.Framed.Packet
import RoboControl.Framed.Burst
import RoboControl.Light.Sha256
import RoboControl.Light.Hmac
import RoboControl.Light.Aes
import RoboControl.Light.Packets
import RoboControl.Light.Token
import RoboControl.RateLimit.Table
import RoboControl.Redis.Command
import RoboControl.Http.Response
import RoboControl.Http.Json
import RoboControl.P2p.Punch
import RoboControl.Crypto.Replay
import RoboControl.Loop.Stop
import RoboControl.Retransmit.Sender
