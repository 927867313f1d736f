import HierKvGateway.Cluster.CkfRelay
import HierKvGateway.Core.Metrics

/-!
# Cluster.Messages — what the instances send each other

The cluster messages (`messages.rs`). The two that carry a filter, which only the
gossip handler looks into, are `ClusterMessage`; `GossipMessage` adds the others.
-/

namespace HierKvGateway

/-- The versions of the parts of an instance's metadata. -/
structure MetaDigest where
  kvVersion : BitVec 64
  modelVersion : BitVec 64
  loadVersion : BitVec 64
  topologyVersion : BitVec 64
  membersVersion : BitVec 64
deriving DecidableEq, Repr

/-- `MetaDigest::default`. -/
def MetaDigest.default : MetaDigest := ⟨0, 0, 0, 0, 0⟩

/-- A JSON value; a number is the text it was written as. -/
inductive Json where
  | null
  | bool (b : Bool)
  | number (text : String)
  | string (s : String)
  | array (items : List Json)
  | object (fields : List (String × Json))

/-- `Value::as_str`. -/
def Json.asStr : Json → Option String
  | .string s => some s
  | _ => none

/-- `Value::get`. -/
def Json.get (key : String) : Json → Option Json
  | .object fields => fields.lookup key
  | _ => none

/-- `Value::as_array`. -/
def Json.asArray : Json → Option (List Json)
  | .array items => some items
  | _ => none

/-- A metadata item; its value is read according to its key. -/
structure MetaEntry where
  key : String
  value : Json
  version : BitVec 64

/-- Encoded metrics, with the version of the encoding. -/
structure LoadPayload where
  v : BitVec 8
  data : String
deriving DecidableEq, Repr

/-- A message of the cluster. -/
inductive GossipMessage where
  | ping (sender : InstanceId) (region : RegionId) (metaDigest : MetaDigest) (timestamp : Nat)
  | pong (sender : InstanceId) (region : RegionId) (metaDigest : MetaDigest) (timestamp : Nat)
  | meet (sender : InstanceId) (region : RegionId) (addr : String)
  | syncRequest (sender : InstanceId) (keys : List String)
  | syncResponse (entries : List MetaEntry)
  | ckf (message : ClusterMessage)
  | metricsBroadcast (region : RegionId) (payload : LoadPayload)
  | topologyUpdate (source target : RegionId) (estimate : LatencyEstimate)
  | sessionAffinityBroadcast (session : SessionId) (backendRegion : RegionId)
      (backendInstance : String)

namespace GossipMessage

/-- Whether an instance is the sender a message names (`message_sender_is_self`). -/
def senderIsSelf (selfId : InstanceId) : GossipMessage → Bool
  | .ping sender _ _ _ => sender = selfId
  | .pong sender _ _ _ => sender = selfId
  | .meet sender _ _ => sender = selfId
  | .syncRequest sender _ => sender = selfId
  | _ => false

end GossipMessage

/-- A message on its way to an address. -/
structure Packet where
  target : String
  msg : GossipMessage

end HierKvGateway
