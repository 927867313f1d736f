import HierKvGateway.Lib.Eviction
import HierKvGateway.Lib.Run
import HierKvGateway.Lib.Update
import HierKvGateway.Metadata.Xxh3
import HierKvGateway.Routing.PrefixHistory

/-!
# Routing.PrefixEviction — concurrent dispatches into the bounded history

A call of `record_dispatch` takes the write lock twice: to insert the prefixes, and to evict what is
too much. In between other calls may insert (`system`), so the history may be too long while calls
are in progress. The entries of one second are evicted in any order: the map and the sort do not
keep one.

`RecordState.bounded_oldest`: when no call is in progress, the history is within its bound, and
every eviction removes the surplus and nothing newer than what stays.
-/

namespace HierKvGateway

namespace PrefixReuseHistory

/-- An order in which `evict_if_needed` may go through the entries. -/
def EvictionOrder (h : PrefixReuseHistory) (order : List (BitVec 64 × Nat)) : Prop :=
  Eviction.OldestFirst DispatchRecord.lastDispatchedUnix h.entries order

/-- `evict_if_needed`, in a given order. -/
def evictBy (order : List (BitVec 64 × Nat)) (h : PrefixReuseHistory) : PrefixReuseHistory :=
  if h.len ≤ h.maxEntries then h
  else
    let surplus := h.len - h.maxEntries
    { h with entries := Eviction.eraseAll (order.take surplus) h.entries }

/-- Without calls in between, the entries are evicted in the order of a stable sort. -/
theorem evictIfNeeded_eq (h : PrefixReuseHistory) :
    ∃ order, h.EvictionOrder order ∧ h.evictIfNeeded = h.evictBy order := by
  refine ⟨_, Eviction.oldestFirst_mergeSort _ _, ?_⟩
  unfold evictBy
  split
  · rename_i hle
    unfold evictIfNeeded
    have hzero : h.entries.entries.length - h.maxEntries = 0 := Nat.sub_eq_zero_of_le hle
    dsimp only
    rw [hzero]
    rfl
  · rfl

/-- From `h` to `h'` the surplus is evicted: as many entries as there are too many, none of them
newer than what stays. -/
structure SurplusEvicted (h h' : PrefixReuseHistory) : Prop where
  length : h'.len + (h.len - h.maxEntries) = h.len
  kept : ∀ hash r, h'.entries.lookup hash = some r → h.entries.lookup hash = some r
  oldest : ∀ hash r, h.entries.lookup hash = some r → h'.entries.lookup hash = none →
    ∀ hash' r', h'.entries.lookup hash' = some r' → r.lastDispatchedUnix ≤ r'.lastDispatchedUnix

theorem surplusEvicted_evictBy {h : PrefixReuseHistory} {order : List (BitVec 64 × Nat)}
    (horder : h.EvictionOrder order) : SurplusEvicted h (h.evictBy order) := by
  unfold evictBy
  split
  · rename_i hle
    refine ⟨?_, fun _ _ hr => hr, ?_⟩
    · rw [Nat.sub_eq_zero_of_le hle, Nat.add_zero]
    · intro hash r hr hnone
      rw [hr] at hnone
      exact absurd hnone nofun
  · exact {
      length := horder.length_evict (Nat.sub_le _ _)
      kept := fun _ _ hr => (Eviction.lookup_of_lookup_eraseAll hr).1
      oldest := fun _ _ hr hnone _ _ hr' => horder.le_of_evicted hr hnone hr' }

@[simp] theorem maxEntries_evictBy (h : PrefixReuseHistory) (order : List (BitVec 64 × Nat)) :
    (h.evictBy order).maxEntries = h.maxEntries := by
  unfold evictBy
  split
  · rfl
  · rfl

theorem len_evictBy_le {h : PrefixReuseHistory} {order : List (BitVec 64 × Nat)}
    (horder : h.EvictionOrder order) : (h.evictBy order).len ≤ h.maxEntries := by
  have hlength := (surplusEvicted_evictBy horder).length
  by_cases hle : h.len ≤ h.maxEntries
  · unfold evictBy
    rw [if_pos hle]
    exact hle
  · omega

end PrefixReuseHistory

/-! ## The system -/

/-- How far a call of `record_dispatch` has got. -/
inductive RecordStage where
  | notCalled
  /-- Has computed the hashes and read the clock. -/
  | hashed
  /-- Has inserted the prefixes. -/
  | inserted
  | returned
deriving DecidableEq, Repr

/-- A step of the calls of `record_dispatch`. -/
inductive RecordStep (ι : Type) where
  | call (i : ι)
  /-- The prefixes are inserted, with a time that was read before. -/
  | insert (i : ι) (now : Nat)
  /-- What is too much is evicted, in this order. -/
  | evict (i : ι) (order : List (BitVec 64 × Nat))

/-- The history and the calls. -/
structure RecordState (ι : Type) where
  history : PrefixReuseHistory
  stage : ι → RecordStage

namespace RecordState

variable {ι : Type}

/-- No call is in progress. -/
def Quiet (s : RecordState ι) : Prop := ∀ i, s.stage i = .notCalled ∨ s.stage i = .returned

/-- Every call takes its steps in order. -/
def guard : RecordStep ι → RecordState ι → Prop
  | .call i, s => s.stage i = .notCalled
  | .insert i _, s => s.stage i = .hashed
  | .evict i order, s => s.stage i = .inserted ∧ s.history.EvictionOrder order

variable [DecidableEq ι] (xxh3 : Xxh3) (blockHashes : ι → List (BitVec 64)) (backend : ι → BackendId)

/-- What a step does. A call without blocks returns at once. -/
def update : RecordStep ι → RecordState ι → RecordState ι
  | .call i, s =>
    let next := if blockHashes i = [] then .returned else .hashed
    { s with stage := Function.update s.stage i next }
  | .insert i now, s =>
    { history := s.history.addPrefixes xxh3 now (blockHashes i) (backend i)
      stage := Function.update s.stage i .inserted }
  | .evict i order, s =>
    { history := s.history.evictBy order
      stage := Function.update s.stage i .returned }

/-- The calls, in any order of their steps, from an empty history on. -/
def system (maxEntries : Nat) : Lts (RecordState ι) (RecordStep ι) where
  init s := s = ⟨.new maxEntries, fun _ => .notCalled⟩
  guard := guard
  update := update xxh3 blockHashes backend

/-- The history is within its bound, or a call is about to evict. -/
structure WillFit (maxEntries : Nat) (s : RecordState ι) : Prop where
  sameBound : s.history.maxEntries = maxEntries
  fits : s.history.len ≤ maxEntries ∨ ∃ i, s.stage i = .inserted

variable {xxh3 blockHashes backend} {maxEntries : Nat} {s : RecordState ι}

/-- A call that has not inserted moves on. -/
theorem WillFit.move (h : s.WillFit maxEntries) {i : ι} (hi : s.stage i ≠ .inserted)
    (next : RecordStage) :
    WillFit maxEntries { s with stage := Function.update s.stage i next } where
  sameBound := h.sameBound
  fits := by
    rcases h.fits with hle | ⟨j, hj⟩
    · exact Or.inl hle
    · right
      refine ⟨j, ?_⟩
      have hne : j ≠ i := by
        rintro rfl
        exact hi hj
      show Function.update s.stage i next j = _
      rw [Function.update_of_ne hne, hj]

theorem willFit_step (l : RecordStep ι) (h : s.WillFit maxEntries) (hg : guard l s) :
    WillFit maxEntries (update xxh3 blockHashes backend l s) := by
  cases l with
  | call i =>
    have hi : s.stage i ≠ .inserted := by
      rw [show s.stage i = .notCalled from hg]
      decide
    exact h.move hi _
  | insert i now =>
    -- this call is going to evict
    exact ⟨h.sameBound, Or.inr ⟨i, Function.update_self i _ _⟩⟩
  | evict i order =>
    obtain ⟨-, horder⟩ := hg
    refine ⟨?_, Or.inl ?_⟩
    · exact (PrefixReuseHistory.maxEntries_evictBy _ _).trans h.sameBound
    · rw [← h.sameBound]
      exact PrefixReuseHistory.len_evictBy_le horder

theorem willFit_of_reachable :
    ∀ s, (system xxh3 blockHashes backend maxEntries).Reachable s → s.WillFit maxEntries := by
  apply Lts.invariant
  · rintro s rfl
    exact ⟨rfl, Or.inl (Nat.zero_le _)⟩
  · intro s l h hg
    exact willFit_step l h hg

omit [DecidableEq ι] in
/-- A call that has inserted can go on: there is always an order. -/
theorem exists_evict {i : ι} (h : s.stage i = .inserted) : ∃ order, guard (.evict i order) s :=
  ⟨_, h, Eviction.oldestFirst_mergeSort _ _⟩

/-- Without calls in progress the history is within its bound. Every eviction removes the surplus,
and nothing newer than what stays. -/
theorem bounded_oldest (xxh3 : Xxh3) (blockHashes : ι → List (BitVec 64)) (backend : ι → BackendId)
    (maxEntries : Nat) (s : RecordState ι)
    (hs : (system xxh3 blockHashes backend maxEntries).Reachable s) :
    (s.Quiet → s.history.len ≤ maxEntries) ∧
      ∀ i order, (system xxh3 blockHashes backend maxEntries).guard (.evict i order) s →
        s.history.SurplusEvicted
          ((system xxh3 blockHashes backend maxEntries).update (.evict i order) s).history := by
  have hfit := willFit_of_reachable s hs
  constructor
  · intro hquiet
    rcases hfit.fits with hle | ⟨i, hi⟩
    · exact hle
    · rcases hquiet i with h | h
      · rw [hi] at h
        exact absurd h (by decide)
      · rw [hi] at h
        exact absurd h (by decide)
  · rintro i order ⟨-, horder⟩
    exact PrefixReuseHistory.surplusEvicted_evictBy horder

/-- Two calls of one block each. -/
def oneBlock (i : Bool) : List (BitVec 64) := if i then [2] else [1]

/-- Both have inserted, into a history for one entry. -/
def overfull : RecordState Bool :=
  Lts.run (system Xxh3.upTo16 oneBlock (fun _ => ⟨⟨"r1"⟩, ⟨"a"⟩⟩) 1)
    ⟨.new 1, fun _ => .notCalled⟩ [.call false, .call true, .insert true 2, .insert false 1]

theorem reachable_overfull :
    (system Xxh3.upTo16 oneBlock (fun _ => ⟨⟨"r1"⟩, ⟨"a"⟩⟩) 1).Reachable overfull :=
  (Lts.Reachable.init rfl).run ⟨rfl, rfl, rfl, rfl, trivial⟩

theorem evicted_overfull :
    ∃ order, guard (.evict true order) overfull ∧ overfull.history.len = 2 ∧
      overfull.history.SurplusEvicted (overfull.history.evictBy order) := by
  obtain ⟨order, horder⟩ := exists_evict (show overfull.stage true = .inserted from rfl)
  exact ⟨order, horder, by decide +kernel, (bounded_oldest Xxh3.upTo16 oneBlock
    (fun _ => ⟨⟨"r1"⟩, ⟨"a"⟩⟩) 1 overfull reachable_overfull).2 true order horder⟩

end RecordState

end HierKvGateway
