import HierKvGateway.Lib.Run
import HierKvGateway.Lib.Cuckoo
import HierKvGateway.Lib.Trie
import HierKvGateway.Lib.LeadingRun
import HierKvGateway.Core.KvEvent
import HierKvGateway.Metadata.CuckooFilter
import HierKvGateway.Metadata.CuckooLane
import HierKvGateway.Metadata.CkfProducer
import HierKvGateway.Metadata.CkfOwnership
import HierKvGateway.Metadata.CkfInsertion
import HierKvGateway.Metadata.Xxh3
import HierKvGateway.Metadata.CkfLedger
import HierKvGateway.Metadata.LocalCkf
import HierKvGateway.Metadata.CkfConsumer
import HierKvGateway.Metadata.Lookup
import HierKvGateway.Metadata.Replication
import HierKvGateway.Cluster.CkfRelay
import HierKvGateway.Gateway.ClusterBridge
import HierKvGateway.Gateway.Delivery
import HierKvGateway.Gateway.SharedLane
import HierKvGateway.Metadata.RadixTree
import HierKvGateway.Metadata.KvIndex
import HierKvGateway.Metadata.Overlap
import HierKvGateway.Metadata.RadixWorker
import HierKvGateway.Metadata.KvCalls
import HierKvGateway.Metadata.KvAgreement
import HierKvGateway.Metadata.Holdings
import HierKvGateway.Metadata.RadixShape
import HierKvGateway.Metadata.RadixQueries
import HierKvGateway.Metadata.LaneScan
import HierKvGateway.Metadata.LaneTables
import HierKvGateway.Metadata.ResetFence
import HierKvGateway.Cluster.Member
import HierKvGateway.Cluster.RelayCalls
import HierKvGateway.Cluster.Gossip
import HierKvGateway.Cluster.GossipNetwork
import HierKvGateway.Cluster.MemberView
import HierKvGateway.Cluster.Repair
import HierKvGateway.Cluster.FailureDetector
import HierKvGateway.Cluster.ProbeRace
import HierKvGateway.Cluster.Lifecycle
import HierKvGateway.Lib.LastWrite
import HierKvGateway.Metadata.LoadStats
import HierKvGateway.Metadata.TopologyGraph
import HierKvGateway.Gateway.GossipedState
import HierKvGateway.Cluster.SharedState
import HierKvGateway.Cluster.RedisState
import HierKvGateway.Cluster.SharedStores
import HierKvGateway.Cluster.RedisHeartbeat
import HierKvGateway.Cluster.SharedLock
import HierKvGateway.Cluster.SharedReads
import HierKvGateway.Core.Floating
import HierKvGateway.Core.Request
import HierKvGateway.Metadata.ModelRegistry
import HierKvGateway.Metadata.RoutingHistory
import HierKvGateway.Metadata.Store
import HierKvGateway.Routing.PrefixHistory
import HierKvGateway.Routing.Hybrid
import HierKvGateway.Routing.Engine
import HierKvGateway.Core.ExtRat
import HierKvGateway.Routing.Failover
import HierKvGateway.Routing.ModelFilter
import HierKvGateway.Routing.Affinity
import HierKvGateway.Lib.Ranking
import HierKvGateway.Routing.Admission
import HierKvGateway.Routing.Exclusion
import HierKvGateway.Api.OpenaiTypes
import HierKvGateway.Api.Stream
import HierKvGateway.Api.Handlers
import HierKvGateway.Api.Coalesced
import HierKvGateway.Api.Coalescer
import HierKvGateway.Connector.CircuitBreaker
import HierKvGateway.Connector.BreakerHistory
import HierKvGateway.Connector.HalfOpen
import HierKvGateway.Api.Forward
import HierKvGateway.Api.Replay
import HierKvGateway.Api.SingleFlight
import HierKvGateway.Lib.Bucket
import HierKvGateway.Routing.TokenBucket
import HierKvGateway.Routing.TenantScheduler
import HierKvGateway.Routing.Reservations
import HierKvGateway.Routing.TenantInFlight
import HierKvGateway.Connector.Metrics
import HierKvGateway.Routing.LoadAge
import HierKvGateway.Lib.Lines
import HierKvGateway.Connector.SseParser
import HierKvGateway.Connector.Fragments
import HierKvGateway.Api.SseResponse
import HierKvGateway.Metadata.LaneOwnership
import HierKvGateway.Lib.ReverseIndex
import HierKvGateway.Cluster.Dispatch
import HierKvGateway.Gateway.Snapshots
import HierKvGateway.Metadata.TopologyHistory
import HierKvGateway.Metadata.Registry
import HierKvGateway.Core.Rounded
import HierKvGateway.Routing.Normalization
import HierKvGateway.Routing.HybridScore
import HierKvGateway.Routing.ModelCapability
import HierKvGateway.Routing.Draws
import HierKvGateway.Routing.ModelTier
import HierKvGateway.Lib.Rotation
import HierKvGateway.Lib.Eviction
import HierKvGateway.Lib.WaterFilling
import HierKvGateway.Routing.RoundRobin
import HierKvGateway.Routing.DegradedReplay
import HierKvGateway.Routing.PrefixEviction
import HierKvGateway.Routing.PrefixReplay
import HierKvGateway.Routing.Adaptive
import HierKvGateway.Routing.WeightFloor
import HierKvGateway.Routing.OutcomeAverages
import HierKvGateway.Routing.RefusalCost
import HierKvGateway.Routing.RetryAfter
import HierKvGateway.Api.Failover
import HierKvGateway.Connector.SseCompleteness
import HierKvGateway.Routing.EffectiveWeights
import HierKvGateway.Connector.SglangStream
import HierKvGateway.Routing.KvEstimate
import HierKvGateway.Routing.KvBlocks
import HierKvGateway.Routing.AvailableCapacity
import HierKvGateway.Gateway.BackendIds
import HierKvGateway.Cluster.Frames
import HierKvGateway.Cluster.FrameSize
import HierKvGateway.Lib.Windows
import HierKvGateway.Metadata.LoadHistory
import HierKvGateway.Metadata.BlockHashes
import HierKvGateway.Connector.RetryPolicy
import HierKvGateway.Routing.ModelCatalog
import HierKvGateway.Connector.ConnectorRegistry
import HierKvGateway.Lib.Readable
import HierKvGateway.Cluster.JsonText
import HierKvGateway.Api.RequestKey
import HierKvGateway.Api.DecisionEvent
import HierKvGateway.Api.Telemetry
import HierKvGateway.Api.DecisionLines
import HierKvGateway.Gateway.Healing
import HierKvGateway.Routing.KvAware
import HierKvGateway.Routing.CostScores
import HierKvGateway.Routing.TopologyAware
import HierKvGateway.Routing.CostAware
import HierKvGateway.Routing.SingleStrategy
import HierKvGateway.Gateway.GossipRouting
import HierKvGateway.Routing.StagedPlugins
import HierKvGateway.Routing.SpecCatalog
import HierKvGateway.Routing.Dominance
import HierKvGateway.Routing.Comparison
import HierKvGateway.Gateway.GatewayEngine
import HierKvGateway.Gateway.GatewayStore
import HierKvGateway.Gateway.SyncNetwork
import HierKvGateway.Gateway.SyncRounds
import HierKvGateway.Gateway.SyncSources
import HierKvGateway.Lib.FirstOf
import HierKvGateway.Gateway.ModelList
