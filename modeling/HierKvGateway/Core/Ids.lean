import Mathlib.Data.Finset.Basic

/-!
# Core.Ids — identifier types

Every identifier of the source compares and hashes by its string content (the
`Arc` pointer is never looked at), so a structure over `String` with derived
equality has the same equality.
-/

namespace HierKvGateway

/-- Region identifier. -/
structure RegionId where
  str : String
deriving DecidableEq, Repr

/-- Gateway instance identifier. -/
structure InstanceId where
  str : String
deriving DecidableEq, Repr

/-- Session identifier. -/
structure SessionId where
  str : String
deriving DecidableEq, Repr

/-- Backend instance identifier. -/
structure BackendInstanceId where
  str : String
deriving DecidableEq, Repr

/-- Backend identifier: an instance within a region. -/
structure BackendId where
  region : RegionId
  inst : BackendInstanceId
deriving DecidableEq, Repr

/-- The text of a backend identifier. -/
def BackendId.display (b : BackendId) : String := b.region.str ++ "/" ++ b.inst.str

/-- Read `"<region>/<instance>"`, split at the first slash; neither part may be
empty. -/
def BackendId.parse (s : String) : Option BackendId :=
  match s.toList.dropWhile (· ≠ '/') with
  | [] => none
  | _ :: inst =>
    let region := s.toList.takeWhile (· ≠ '/')
    if region = [] ∨ inst = [] then none
    else some ⟨⟨String.ofList region⟩, ⟨String.ofList inst⟩⟩

/-- The tier of a Region. -/
inductive RegionTier where
  | cloud
  | edge
  | device
deriving DecidableEq, Repr

/-- Indexer domain identifier. -/
structure IndexerDomainId where
  val : BitVec 64
deriving DecidableEq, Repr

/-- Connection pool identifier: an indexer domain in a region. -/
structure PoolId where
  domain : IndexerDomainId
  region : RegionId
deriving DecidableEq, Repr

/-- Worker identifier together with its data-parallel rank. -/
structure WorkerWithRank where
  workerId : BitVec 64
  dpRank : BitVec 32
deriving DecidableEq, Repr

end HierKvGateway
