import HierKvGateway.Core.Ids

/-!
# Core.KvEvent — KV cache events

A backend reports the blocks it stores and removes as `KvCacheEvent`s. A block
is identified by its 64-bit content hash.
-/

namespace HierKvGateway

/-- Content hash of a KV cache block (`u64` in the source). -/
abbrev BlockHash := BitVec 64

/-- A store / remove / clear / reset event for KV cache blocks. -/
inductive KvCacheEvent where
  | stored (worker : WorkerWithRank) (blockHashes : List BlockHash)
      (parentHash : Option BlockHash) (numBlockTokens : List (BitVec 64))
  | removed (worker : WorkerWithRank) (blockHashes : List BlockHash)
  | clear (worker : WorkerWithRank)
  | reset (worker : WorkerWithRank) (generation : BitVec 64)
deriving DecidableEq, Repr

end HierKvGateway
