import HierKvGateway.Core.Error
import HierKvGateway.Lib.Eviction
import HierKvGateway.Lib.Ranking
import HierKvGateway.Metadata.CuckooFilter
import Mathlib.Data.List.AList

/-!
# Routing.PrefixHistory — where prefixes were dispatched

For each prefix of a request's block hashes, the backend that it was last dispatched to
(`prefix_history.rs`). The history is bounded; the oldest entries go first.

`dispatched_recordDispatch`: after a dispatch, every prefix of the request is recorded with its
backend, if the entries to be evicted are from earlier seconds.
-/

namespace HierKvGateway

/-- The dispatches of a prefix. -/
structure DispatchRecord where
  backend : BackendId
  dispatchCount : Nat
  lastDispatchedUnix : Nat
deriving DecidableEq, Repr

/-- The dispatch history. -/
structure PrefixReuseHistory where
  entries : AList fun _ : BitVec 64 => DispatchRecord
  maxEntries : Nat

namespace PrefixReuseHistory

/-- The seed of the prefix hashes. -/
def prefixSeed : BitVec 64 := 0x484945524B564757#64

/-- `PrefixReuseHistory::new`. -/
def new (maxEntries : Nat) : PrefixReuseHistory := ⟨∅, maxEntries⟩

/-- The hashes of the prefixes that continue one with hash `prev`. -/
def extendHashes (xxh3 : Xxh3) (prev : BitVec 64) : List (BitVec 64) → List (BitVec 64)
  | [] => []
  | h :: hs =>
    let next := xxh3 (toLeBytes 8 prev ++ toLeBytes 8 h) prefixSeed
    next :: extendHashes xxh3 next hs

/-- The hashes of all prefixes, the shortest first. -/
def computePrefixHashes (xxh3 : Xxh3) : List (BitVec 64) → List (BitVec 64)
  | [] => []
  | h :: hs =>
    let first := xxh3 (toLeBytes 8 h) prefixSeed
    first :: extendHashes xxh3 first hs

/-- One prefix is dispatched. -/
def recordPrefix (now : Nat) (backend : BackendId)
    (entries : AList fun _ : BitVec 64 => DispatchRecord) (hash : BitVec 64) :
    AList fun _ : BitVec 64 => DispatchRecord :=
  match entries.lookup hash with
  | some r => entries.insert hash ⟨backend, saturatingAdd r.dispatchCount 1, now⟩
  | none => entries.insert hash ⟨backend, 1, now⟩

/-- Remove the oldest entries beyond the bound. -/
def evictIfNeeded (h : PrefixReuseHistory) : PrefixReuseHistory :=
  let surplus := h.entries.entries.length - h.maxEntries
  let stamped := h.entries.entries.map fun e => (e.1, e.2.lastDispatchedUnix)
  let oldest := (stamped.mergeSort fun a b => decide (a.2 ≤ b.2)).take surplus
  { h with entries := oldest.foldl (fun entries e => entries.erase e.1) h.entries }

/-- A request is dispatched: all its prefixes are. -/
def recordDispatch (xxh3 : Xxh3) (now : Nat) (blockHashes : List (BitVec 64)) (backend : BackendId)
    (h : PrefixReuseHistory) : PrefixReuseHistory :=
  if blockHashes = [] then h
  else
    let hashes := computePrefixHashes xxh3 blockHashes
    evictIfNeeded { h with entries := hashes.foldl (recordPrefix now backend) h.entries }

/-- The longest prefix that was dispatched, with its length. -/
def findLongestMatch (xxh3 : Xxh3) (h : PrefixReuseHistory) (blockHashes : List (BitVec 64)) :
    Option (Nat × DispatchRecord) :=
  ((computePrefixHashes xxh3 blockHashes).zipIdx.reverse).findSome? fun (hash, idx) =>
    (h.entries.lookup hash).map fun r => (idx + 1, r)

/-- How many entries there are. -/
def len (h : PrefixReuseHistory) : Nat := h.entries.entries.length

/-! ## What was dispatched last -/

section Last

variable {now : Nat} {backend : BackendId} {hash : BitVec 64}
  {entries : AList fun _ : BitVec 64 => DispatchRecord}

/-- A prefix was dispatched to the backend in the second `now`. -/
def Dispatched (now : Nat) (backend : BackendId)
    (entries : AList fun _ : BitVec 64 => DispatchRecord) (hash : BitVec 64) : Prop :=
  ∃ r, entries.lookup hash = some r ∧ r.backend = backend ∧ r.lastDispatchedUnix = now

theorem dispatched_recordPrefix_self :
    Dispatched now backend (recordPrefix now backend entries hash) hash := by
  unfold recordPrefix
  split
  · exact ⟨_, AList.lookup_insert entries, rfl, rfl⟩
  · exact ⟨_, AList.lookup_insert entries, rfl, rfl⟩

theorem Dispatched.recordPrefix (h : Dispatched now backend entries hash) (hash' : BitVec 64) :
    Dispatched now backend (recordPrefix now backend entries hash') hash := by
  by_cases heq : hash = hash'
  · rw [heq]
    exact dispatched_recordPrefix_self
  · rcases h with ⟨r, hr, hrest⟩
    refine ⟨r, ?_, hrest⟩
    unfold PrefixReuseHistory.recordPrefix
    split
    · rw [AList.lookup_insert_ne heq]
      exact hr
    · rw [AList.lookup_insert_ne heq]
      exact hr

/-- All prefixes that are recorded have been dispatched. -/
theorem dispatched_foldl {hashes : List (BitVec 64)}
    (h : Dispatched now backend entries hash ∨ hash ∈ hashes) :
    Dispatched now backend (hashes.foldl (PrefixReuseHistory.recordPrefix now backend) entries)
      hash := by
  induction hashes generalizing entries with
  | nil => exact h.resolve_right List.not_mem_nil
  | cons hash' hashes ih =>
    apply ih
    rcases h with hold | hmem
    · exact Or.inl (hold.recordPrefix hash')
    · rcases List.mem_cons.1 hmem with rfl | hmem
      · exact Or.inl dispatched_recordPrefix_self
      · exact Or.inr hmem

/-- There are as many entries of earlier seconds as are to be evicted. -/
def RoomFor (now : Nat) (h : PrefixReuseHistory) : Prop :=
  h.entries.entries.length - h.maxEntries ≤
    h.entries.entries.countP fun e => e.2.lastDispatchedUnix < now

/-- An entry of this second is not evicted if there are enough earlier ones. -/
theorem Dispatched.evict {h : PrefixReuseHistory} (hroom : RoomFor now h)
    (hdisp : Dispatched now backend h.entries hash) :
    Dispatched now backend h.evictIfNeeded.entries hash := by
  rcases hdisp with ⟨r, hr, hbackend, hnow⟩
  refine ⟨r, ?_, hbackend, hnow⟩
  unfold evictIfNeeded
  dsimp only
  refine (Eviction.lookup_eraseAll ?_).trans hr
  rintro ⟨hash', stamp⟩ hmem rfl
  -- the entry has the stamp of this second
  have hthis : stamp = now := by
    have hmem' := (List.mergeSort_perm _ _).subset (List.mem_of_mem_take hmem)
    rcases List.mem_map.1 hmem' with ⟨⟨hash'', r'⟩, he, heq⟩
    rcases Prod.mk.inj heq with ⟨rfl, rfl⟩
    have hr' := AList.mem_lookup_iff.2 he
    rw [hr] at hr'
    rw [← Option.some.inj hr']
    exact hnow
  -- so the earlier ones are fewer than those evicted
  have hcount := Ranking.countP_lt_of_mem_take
    (fun e : BitVec 64 × Nat => OrderDual.toDual e.2) hmem
  rw [List.countP_map] at hcount
  subst hthis
  exact absurd hroom (not_le.2 hcount)

end Last

/-- The history with the prefixes of a request added, before anything is evicted. -/
def addPrefixes (xxh3 : Xxh3) (now : Nat) (blockHashes : List (BitVec 64)) (backend : BackendId)
    (h : PrefixReuseHistory) : PrefixReuseHistory :=
  { h with
    entries := (computePrefixHashes xxh3 blockHashes).foldl (recordPrefix now backend) h.entries }

/-- After a dispatch, every prefix of the request is there, if there was room. -/
theorem dispatched_recordDispatch {xxh3 : Xxh3} {now : Nat} {blockHashes : List (BitVec 64)}
    {backend : BackendId} {h : PrefixReuseHistory}
    (hroom : RoomFor now (h.addPrefixes xxh3 now blockHashes backend)) {hash : BitVec 64}
    (hmem : hash ∈ computePrefixHashes xxh3 blockHashes) :
    Dispatched now backend (h.recordDispatch xxh3 now blockHashes backend).entries hash := by
  have hne : blockHashes ≠ [] := by
    rintro rfl
    exact absurd hmem List.not_mem_nil
  unfold recordDispatch
  rw [if_neg hne]
  exact (dispatched_foldl (Or.inr hmem)).evict hroom

end PrefixReuseHistory

end HierKvGateway
