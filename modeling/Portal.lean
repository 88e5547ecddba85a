import Portal.Theory.Transition
import Portal.Theory.PartialMap
import Portal.Theory.Query
import Portal.Theory.Tally
import Portal.Theory.Binary64
import Portal.Theory.Codec
import Portal.Theory.Bytes
import Portal.Theory.Frames
import Portal.Theory.Separator
import Portal.Theory.Replay
import Portal.Theory.RWLock
import Portal.Theory.Carrier
import Portal.Theory.Eviction
import Portal.Theory.History
import Portal.Theory.Relay
import Portal.Theory.Dialogue
import Portal.Theory.Scanner
import Portal.Server.Object
import Portal.Server.Registry
import Portal.Server.Probe
import Portal.Server.HealthChecker
import Portal.Session.Packet
import Portal.Session.Translator
import Portal.Session.Involution
import Portal.Session.Carriers
import Portal.Session.State
import Portal.Session.Transfer
import Portal.Session.Loops
import Portal.Session.Machine
import Portal.Session.Agreement
import Portal.Session.PlayerCount
import Portal.Session.Provenance
import Portal.Session.Ownership
import Portal.Session.Outcome
import Portal.Session.Rollback
import Portal.Session.Acknowledge
import Portal.Session.Dimension
import Portal.Session.NilSafety
import Portal.Session.Disconnect
import Portal.Session.Numbering
import Portal.Session.Reply
import Portal.Session.Straggler
import Portal.Session.Sweep
import Portal.Session.View
import Portal.Session.Effects
import Portal.Session.Leak
import Portal.Session.Lifecycle
import Portal.Session.Waiting
import Portal.Session.SoftLock
import Portal.Session.ServerBound
import Portal.Session.ClientBound
import Portal.Session.Store
import Portal.Session.LoadBalancer
import Portal.Session.IPGuard
import Portal.Session.RateLimit
import Portal.Event.Bus
import Portal.Event.BusLock
import Portal.Socket.Wire
import Portal.Socket.ServerList
import Portal.Socket.Stream
import Portal.Socket.Send
import Portal.Socket.Registration
import Portal.Socket.Drain
import Portal.Socket.Health
import Portal.Socket.Throttle
import Portal.Socket.Server
import Portal.Socket.Authentication
import Portal.Socket.Ownership
import Portal.Socket.Events
import Portal.Socket.Dead
import Portal.Socket.Link
import Portal.Control.Operation
import Portal.Control.Requests
import Portal.Control.Command
import Portal.Control.Console
import Portal.Cluster.Presence
import Portal.Cluster.Reconnect
import Portal.Cluster.Heartbeat
import Portal.Cluster.Ghost
import Portal.ResourcePack.Manager
import Portal.ResourcePack.Fingerprint
import Portal.ResourcePack.Reload
import Portal.ResourcePack.HotReload
import Portal.ResourcePack.CheckEnds
import Portal.Transport
