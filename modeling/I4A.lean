import I4A.Core.Machine
import I4A.Core.TaskPool
import I4A.Core.Progress
import I4A.Core.Ownership
import I4A.Core.Prefix
import I4A.Core.Walk
import I4A.Core.Rounds
import I4A.Core.Sweep
import I4A.Core.Recorder
import I4A.Core.Delegation
import I4A.Core.Words
import I4A.Core.Countdown
import I4A.Core.Checked
import I4A.Core.CString
import I4A.Core.Json
import I4A.Core.JsonSize
import I4A.Core.JsonWrite
import I4A.Core.Utf8
import I4A.Config
import I4A.Routing.Table
import I4A.Routing.LongestPrefix
import I4A.Routing.Types
import I4A.Routing.Subnet
import I4A.Routing.AddressPlan
import I4A.Routing.Handlers
import I4A.Routing.Dispatch
import I4A.Routing.ExactlyOnce
import I4A.Routing.Wire
import I4A.Routing.RootTimer
import I4A.Sync.Messages
import I4A.Sync.Protocol
import I4A.Sync.TokenRing
import I4A.Sync.RoundRobin
import I4A.Sync.PartialRing
import I4A.Ring.Model
import I4A.Ring.Moves
import I4A.Ring.SingleCopy
import I4A.RingLink.Broadcast
import I4A.RingLink.Payload
import I4A.RingLink.Circulation
import I4A.RingLink.Retry
import I4A.Wireless.Framing
import I4A.Wireless.Callbacks
import I4A.Wireless.Sockets
import I4A.Wireless.Server
import I4A.Wireless.Client
import I4A.Wireless.Station
import I4A.Wireless.StationLock
import I4A.Wireless.SingleTask
import I4A.Node.Model
import I4A.Node.GatewayRequest
import I4A.Node.Distance
import I4A.Node.Hearing
import I4A.Node.Provision
import I4A.Node.Gateway
import I4A.Node.AccessPoint
import I4A.Node.Adoption
import I4A.Node.Agreement
import I4A.Node.LinkState
import I4A.Node.Exchange
import I4A.Node.Hooks
import I4A.Mesh.Model
import I4A.Mesh.Provisioning
import I4A.Mesh.Depth
import I4A.Mesh.Addresses
import I4A.Mesh.AccessPoints
import I4A.Mesh.Loop
import I4A.Mesh.Distance
import I4A.Mesh.Tree
import I4A.Mesh.Growth
import I4A.Mesh.Delivery
import I4A.Mesh.Boards
import I4A.Flood.Model
import I4A.Flood.Requests
import I4A.Flood.Distances
import I4A.Spi.Buffers
import I4A.Spi.Receive
import I4A.RingLink.Netif
import I4A.Integration.PriorityManager
import I4A.Integration.RingShare
import I4A.Integration.InfoManager
import I4A.Integration.Telemetry
import I4A.Integration.Payload
import I4A.Integration.RoundTrip
import I4A.Integration.RemoteControl
import I4A.Integration.Components
import I4A.Integration.ArrayIndices
import I4A.Integration.ChannelManager
import I4A.Integration.BlockedNetworks
import I4A.Mesh.Startup
