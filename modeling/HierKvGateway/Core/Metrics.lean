import HierKvGateway.Core.Ids

/-!
# Core.Metrics — load metrics and topology information

What the instances tell each other about their backends (`metrics.rs`), the
Regions and the network between them (`topology.rs`). The gossip path stores and returns
floating-point numbers and never computes with them, so they are their bits.
-/

namespace HierKvGateway

/-- A double, as its bits. -/
abbrev F64 := BitVec 64

namespace F64

/-- `0.0`. -/
def zero : F64 := 0

/-- `f64::INFINITY`. -/
def infinity : F64 := 0x7FF0000000000000#64

end F64

/-- Latency percentiles of a backend. -/
structure LatencyStats where
  p50Ms : F64
  p99Ms : F64
  p999Ms : F64
  sampleCount : BitVec 64
deriving DecidableEq, Repr

/-- The load of a backend at one moment. -/
structure BackendMetrics where
  activeRequests : BitVec 64
  queueDepth : BitVec 64
  activeDecodeBlocks : BitVec 64
  activePrefillTokens : BitVec 64
  kvUsedBlocks : BitVec 64
  kvTotalBlocks : BitVec 64
  gpuUtilization : F64
  gpuMemoryUsedMb : BitVec 64
  gpuMemoryTotalMb : BitVec 64
  latency : LatencyStats
  /-- When the metrics were collected (Unix seconds). -/
  timestamp : Int
deriving DecidableEq, Repr

/-- The latency between two Regions at one moment. -/
structure LatencyEstimate where
  rttP50Ms : F64
  rttP99Ms : F64
  bandwidthMbps : F64
  /-- When the estimate was made (Unix seconds). -/
  lastUpdatedUnix : Int
deriving DecidableEq, Repr

/-- Where a Region is, in degrees. -/
structure GeoCoord where
  lat : F64
  lon : F64
deriving DecidableEq, Repr

/-- What is known of a Region. -/
structure RegionInfo where
  id : RegionId
  tier : RegionTier
  geo : Option GeoCoord
  networkZone : String
  endpoints : List String
deriving DecidableEq, Repr

end HierKvGateway
