import PccGateway.Http1.Fragmentation
import PccGateway.Proxy.ChunkedAgreement
import PccGateway.Proxy.ListSyntax
import PccGateway.Proxy.Target
import PccGateway.Lib.Method
import PccGateway.Http1.ResponseEncoder
import PccGateway.Buffer
import PccGateway.Proxy.Exchange
import PccGateway.Http1.WholeMessage
import PccGateway.Proxy.RequestHead
import PccGateway.Proxy.ExchangeRun
import PccGateway.Proxy.RequestWire
import PccGateway.Http1.ChunkedEncoding
import PccGateway.Proxy.RequestRoundTrip
import PccGateway.Proxy.ResponseHead
import PccGateway.Proxy.ResponseWire
import PccGateway.Proxy.ResponseTranslation
import PccGateway.Lib.Thread
import PccGateway.Server.BodyStream
import PccGateway.Server.Environment
import PccGateway.Server.Connection
import PccGateway.Server.Transport
import PccGateway.Server.Proxying
import PccGateway.Server.Run
import PccGateway.Lib.Acceptance
import PccGateway.Http1.Acceptance
import PccGateway.Proxy.UpstreamAcceptance
import PccGateway.Server.Frame
import PccGateway.Proxy.ExchangeAccounting
import PccGateway.Server.ServingFrame
import PccGateway.Server.Accounting
import PccGateway.Server.Gateway
import PccGateway.Server.ProxyFrame
import PccGateway.Server.RunFrame
import PccGateway.Server.Reach
import PccGateway.Server.Admission
import PccGateway.Server.AdmissionLedger
import PccGateway.Server.AdmissionRun
import PccGateway.Server.Leasing
import PccGateway.Proxy.Commitment
import PccGateway.Server.PeerClose
import PccGateway.Http1.Pumping
import PccGateway.Http1.Retention
import PccGateway.Server.ResponseFraming
import PccGateway.Server.RequestForwarding
import PccGateway.Proxy.UpstreamDecoding
import PccGateway.Segment
import PccGateway.Ownership
import PccGateway.Lib.Fifo
import PccGateway.SegmentedBuffer
import PccGateway.BufferRefinement
import PccGateway.BufferFifo
import PccGateway.Lib.Hysteresis
import PccGateway.Watermarks
import PccGateway.Server.UpstreamWrites
import PccGateway.Server.Reuse
import PccGateway.RetainedBody
import PccGateway.Lib.Simulation
import PccGateway.BodyRefinement
import PccGateway.Lib.Interleaving
import PccGateway.BodyRun
import PccGateway.BodyWakeups
import PccGateway.BodyCancellation
import PccGateway.Lib.Counting
import PccGateway.Upstream.Group
import PccGateway.Upstream.Pool
import PccGateway.Upstream.PoolLedger
import PccGateway.Upstream.PoolRun
import PccGateway.Lifecycle.State
import PccGateway.Lifecycle.Admission
import PccGateway.Lifecycle.Generations
import PccGateway.Lifecycle.GenerationRun
import PccGateway.Lifecycle.GenerationLedger
import PccGateway.Lifecycle.GenerationLifetime
import PccGateway.Lifecycle.Reload
import PccGateway.Lifecycle.Shutdown
import PccGateway.Lifecycle.ShutdownFrame
import PccGateway.Lifecycle.ShutdownOwners
import PccGateway.Lifecycle.ShutdownOrder
import PccGateway.Lifecycle.ShutdownRun
import PccGateway.Dns.Message
import PccGateway.Dns.Totality
import PccGateway.Dns.NameCodec
import PccGateway.Dns.Binding
import PccGateway.Lib.Recency
import PccGateway.Dns.Chain
import PccGateway.Dns.Cache
import PccGateway.Dns.Address
import PccGateway.Dns.Policy
import PccGateway.Dns.Operation
import PccGateway.Dns.Driver
import PccGateway.Dns.DriverRun
import PccGateway.Dns.Framing
import PccGateway.Dns.Delivery
import PccGateway.Lifecycle.Accept
import PccGateway.Lifecycle.AcceptLedger
import PccGateway.Lifecycle.AcceptRun
import PccGateway.Lifecycle.AcceptAtomic
import PccGateway.Server.BodyReads
import PccGateway.Lib.StableSort
import PccGateway.Routing.Normalization
import PccGateway.Routing.Router
import PccGateway.Routing.Matching
import PccGateway.Routing.Precedence
import PccGateway.Http1.ChunkGrammar
import PccGateway.Structured.TaskScope
import PccGateway.Structured.ScopeCalls
import PccGateway.Structured.Barrier
import PccGateway.Tls.Sni
import PccGateway.Tls.Channel
import PccGateway.Tls.ChannelCalls
import PccGateway.Tls.ChannelRun
import PccGateway.Tls.Generations
import PccGateway.Lib.Custody
import PccGateway.Tls.GenerationLedger
import PccGateway.Tls.GenerationRun
import PccGateway.Tls.Publication
import PccGateway.Tls.ContextLifetime
import PccGateway.Tls.NativeProvider
import PccGateway.Tls.NativeOwners
import PccGateway.Tls.NativeLibraries
import PccGateway.Tls.NativeLeases
import PccGateway.Tls.NativeRun
import PccGateway.Server.ResponseEncoding
import PccGateway.Server.StreamDriver
import PccGateway.Upstream.Rotation
import PccGateway.Channel
import PccGateway.Proxy.Forwarding
import PccGateway.Lib.Checked
import PccGateway.Tls.Alpn
import PccGateway.Tls.Selection
import PccGateway.Query
import PccGateway.Dns.Canonical
import PccGateway.Http1.ChunkOwners
import PccGateway.Lib.Traversal
import PccGateway.Routing.Binding
import PccGateway.Lib.Coroutine
import PccGateway.Web.App
import PccGateway.Web.Chain
import PccGateway.Web.Dispatch
import PccGateway.Web.Lifespan
import PccGateway.Dns.HostsFile
import PccGateway.Dns.ResolverFile
import PccGateway.Dns.ResolverPolicy
import PccGateway.Dns.QueryIds
import PccGateway.Dns.NativeRun
import PccGateway.Server.AddressLookup
import PccGateway.Server.AddressLookupRun
import PccGateway.Server.AddressLookupEnd
import PccGateway.Server.AddressLookupReport
import PccGateway.Control.Owner
import PccGateway.Control.Host
import PccGateway.Lib.Caught
import PccGateway.Lifecycle.ControlLoop
import PccGateway.Lifecycle.ControlDrain
