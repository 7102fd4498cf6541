import CacheCluster.Bootstrap.Load
import CacheCluster.Bootstrap.Loader
import CacheCluster.Chunk
import CacheCluster.Clock
import CacheCluster.Codec.Bits
import CacheCluster.Codec.Block
import CacheCluster.Codec.Deflate
import CacheCluster.Codec.Frequency
import CacheCluster.Codec.Gzip
import CacheCluster.Codec.Inflate
import CacheCluster.Codec.Match
import CacheCluster.Codec.PrefixCode
import CacheCluster.Codec.Token
import CacheCluster.Decimal.Binary64
import CacheCluster.Decimal.Integer
import CacheCluster.Decimal.Reading
import CacheCluster.Decimal.Shortest
import CacheCluster.Element
import CacheCluster.Error
import CacheCluster.Heartbeat
import CacheCluster.Json.Basic
import CacheCluster.Json.Lexeme
import CacheCluster.Json.Printer
import CacheCluster.Json.Reader
import CacheCluster.Logging.Filter
import CacheCluster.Logging.Level
import CacheCluster.Logging.Output
import CacheCluster.Logging.Settings
import CacheCluster.Main
import CacheCluster.Metrics
import CacheCluster.Mutation
import CacheCluster.Node.Basic
import CacheCluster.Node.Cluster
import CacheCluster.Peer.Delivery
import CacheCluster.Peer.Mesh
import CacheCluster.Peer.Provider
import CacheCluster.Peer.Script
import CacheCluster.Peer.Url
import CacheCluster.Registry
import CacheCluster.Replication.Dispatcher
import CacheCluster.Replication.Fanout
import CacheCluster.Replication.Queue
import CacheCluster.Server.CommandLine
import CacheCluster.Server.Configuration
import CacheCluster.Server.Environment
import CacheCluster.Server.Exporter
import CacheCluster.Server.Overview
import CacheCluster.Server.Startup
import CacheCluster.Settings.Bootstrap
import CacheCluster.Settings.Configuration
import CacheCluster.Settings.Discovery
import CacheCluster.Settings.Document
import CacheCluster.Settings.Overview
import CacheCluster.Settings.Replication
import CacheCluster.Settings.Value
import CacheCluster.Settings.Warning
import CacheCluster.ShutdownSignal
import CacheCluster.Store
import CacheCluster.Table
import CacheCluster.Text.Blank
import CacheCluster.Text.CaseTable
import CacheCluster.Text.Hex
import CacheCluster.Text.Lowercase
import CacheCluster.Text.Split
import CacheCluster.Text.Utf8
import CacheCluster.Transport.Address
import CacheCluster.Transport.Handle
import CacheCluster.Transport.Listener
import CacheCluster.Transport.Service
import CacheCluster.Trial.Dispatcher
import CacheCluster.Trial.Loader
import CacheCluster.Trial.Queue
import CacheCluster.Wire.Element
import CacheCluster.Wire.Frame
import CacheCluster.Wire.Message
import CacheCluster.Wire.Request
import CacheCluster.Wire.Response
import CacheCluster.Wire.Shape
import CacheCluster.Yaml.Block
import CacheCluster.Yaml.Document
import CacheCluster.Yaml.Flow
import CacheCluster.Yaml.Scalar
import CacheCluster.Proofs.Flusher
import CacheCluster.Proofs.QueueHistory
import CacheCluster.Proofs.Fanout
import CacheCluster.Proofs.Dispatch
import CacheCluster.Proofs.DispatcherHistory
import CacheCluster.Proofs.Replica
import CacheCluster.Proofs.JsonText
import CacheCluster.Proofs.Connection
import CacheCluster.Proofs.RegistryHistory
import CacheCluster.Proofs.Utf8Text
import CacheCluster.Proofs.Compression
import CacheCluster.Proofs.Packing
import CacheCluster.Proofs.JsonReading
import CacheCluster.Proofs.Loading
import CacheCluster.Proofs.WireRoundTrip
import CacheCluster.Proofs.LoadOverConnection
import CacheCluster.Proofs.Hearing
import CacheCluster.Proofs.NodeLife
import CacheCluster.Proofs.UrlReadings
import CacheCluster.Proofs.SelfDiscovery
import CacheCluster.Proofs.Responses
import CacheCluster.Proofs.Reaching
import CacheCluster.Proofs.KeptHandles
import CacheCluster.Proofs.RemoteOperations
import CacheCluster.Proofs.Convergence
import CacheCluster.Proofs.Lifecycle
import CacheCluster.Proofs.Draining
import CacheCluster.Proofs.Invalidation
import CacheCluster.Proofs.LateCopies
import CacheCluster.Proofs.Interleaving
import CacheCluster.Proofs.ChunkedCopy
import CacheCluster.Proofs.Waking
import CacheCluster.Proofs.FlushTiming
import CacheCluster.Proofs.LatePushes
import CacheCluster.Proofs.CopyRequests
import CacheCluster.Proofs.UrlLists
import CacheCluster.Proofs.CutPayloads
import CacheCluster.Proofs.Receiving
import CacheCluster.Proofs.Resolving
import CacheCluster.Proofs.CutStreams
import CacheCluster.Proofs.HostedCaches
import CacheCluster.Proofs.Defaults
import CacheCluster.Proofs.SafeSettings
import CacheCluster.Proofs.ChunkFrames
import CacheCluster.Proofs.QueueRecords
import CacheCluster.Proofs.LateRecords
import CacheCluster.Proofs.Accounting
import CacheCluster.Proofs.Batches
import CacheCluster.Proofs.Overrides
import CacheCluster.Proofs.EnvironmentTexts
import CacheCluster.Proofs.WireForms
import CacheCluster.Proofs.FieldNames
import CacheCluster.Proofs.Trials
