import HierKvGateway.Core.ExtRat
import HierKvGateway.Lib.Rotation
import HierKvGateway.Routing.Strategy

/-!
# Routing.RoundRobin — the candidates in turn

The round-robin strategy (`round_robin.rs`) ranks the candidates in order, beginning one position
further at each call. There is one cursor for all candidate lists; it is reduced modulo the length
of the list at hand.

A list is served fairly if its calls are not interleaved with others (`fair_of_consecutive`). In
general the calls in between count: `rankedFirst_once_iff`.
-/

namespace HierKvGateway

/-- `RoundRobinStrategy`. -/
structure RoundRobinStrategy where
  /-- How many calls there were; it wraps. -/
  cursor : BitVec 64
deriving DecidableEq, Repr

namespace RoundRobinStrategy

variable {F : Type} [Floating F]

/-- `RoundRobinStrategy::new`. -/
def new : RoundRobinStrategy := ⟨0⟩

/-- The candidates from a position on and around. -/
def ranked (candidates : List BackendId) (start : Nat) : List (ScoredBackend F) :=
  (List.finRange candidates.length).map fun (offset : Fin candidates.length) =>
    let idx := (start + offset) % candidates.length
    let score := Floating.ofNat (candidates.length - offset)
    ⟨candidates.get ⟨idx, Nat.mod_lt _ offset.pos⟩, score, -score, 0⟩

/-- `RoundRobinStrategy::evaluate`; it does not fail. -/
def evaluate (candidates : List BackendId) (s : RoundRobinStrategy) :
    List (ScoredBackend F) × RoundRobinStrategy :=
  let n := candidates.length
  if n = 0 then ([], s)
  else (ranked candidates (s.cursor.toNat % n), ⟨s.cursor + 1⟩)

/-- `RoundRobinStrategy` as a strategy; neither the request nor the metadata matter. -/
def strategy : RoutingStrategy F RoundRobinStrategy where
  name := "round_robin"
  evaluate _ candidates _ s :=
    let (out, s) := evaluate candidates s
    (.ok out, s)
  isAvailable _ := true
  weight := Floating.ofNat 1

/-! ## One call -/

theorem length_ranked (candidates : List BackendId) (start : Nat) :
    (ranked candidates start : List (ScoredBackend F)).length = candidates.length := by
  unfold ranked
  rw [List.length_map, List.length_finRange]

/-- The ranking is the rotation of the candidates. -/
theorem backendId_ranked (candidates : List BackendId) (start : Nat) :
    (ranked candidates start : List (ScoredBackend F)).map (·.backendId) =
      candidates.rotate start := by
  apply List.ext_getElem
  · rw [List.length_map, length_ranked, List.length_rotate]
  · intro i hi hi'
    rw [List.getElem_map, List.getElem_rotate]
    unfold ranked
    rw [List.getElem_map, List.getElem_finRange]
    dsimp only [List.get_eq_getElem, Fin.val_cast]
    congr 2
    exact Nat.add_comm start i

/-- The scores go down by one. -/
theorem score_ranked (candidates : List BackendId) (start : Nat) :
    (ranked candidates start : List (ScoredBackend F)).map (·.score) =
      (List.range candidates.length).map fun offset =>
        Floating.ofNat (candidates.length - offset) := by
  unfold ranked
  rw [List.map_map, ← List.map_coe_finRange_eq_range, List.map_map]
  rfl

theorem score_ranked_pairwise (candidates : List BackendId) (start : Nat) :
    ((ranked candidates start : List (ScoredBackend ExtRat)).map (·.score)).Pairwise
      fun a b => Floating.lt b a = true := by
  rw [score_ranked, List.pairwise_map]
  apply List.pairwise_lt_range.imp_of_mem
  intro i j hi hj hij
  rw [ExtRat.ofNat_eq, ExtRat.ofNat_eq, ExtRat.lt_num, decide_eq_true_eq, Nat.cast_lt]
  rw [List.mem_range] at hi hj
  omega

/-! ## Calls one after another -/

/-- The rankings that calls return, each with its candidates. -/
def rankings (s : RoundRobinStrategy) :
    List (List BackendId) → List (List BackendId × List (ScoredBackend F))
  | [] => []
  | candidates :: calls =>
    let (out, s) := evaluate candidates s
    (candidates, out) :: rankings s calls

/-- The rankings of one candidate list. -/
def rankingsOf (s : RoundRobinStrategy) (calls : List (List BackendId))
    (candidates : List BackendId) : List (List (ScoredBackend F)) :=
  ((rankings s calls).filter fun p => p.1 = candidates).map (·.2)

/-- The candidate is ranked first. -/
def RankedFirst (cand : BackendId) (out : List (ScoredBackend F)) : Prop :=
  (out.map (·.backendId)).head? = some cand

instance (cand : BackendId) (out : List (ScoredBackend F)) : Decidable (RankedFirst cand out) :=
  inferInstanceAs (Decidable (_ = _))

/-- How often the candidate is ranked first. -/
def timesFirst (cand : BackendId) (outs : List (List (ScoredBackend F))) : Nat :=
  outs.countP fun out => RankedFirst cand out

/-- For each call, how many calls with candidates there were before, `k` at first. -/
def turns (k : Nat) : List (List BackendId) → List (List BackendId × Nat)
  | [] => []
  | candidates :: calls =>
    (candidates, k) :: turns (if candidates = [] then k else k + 1) calls

/-- The turns of one candidate list. -/
def turnsOf (k : Nat) (calls : List (List BackendId)) (candidates : List BackendId) : List Nat :=
  ((turns k calls).filter fun p => p.1 = candidates).map (·.2)

/-- The cursor has room for these calls. -/
def NoWrap (s : RoundRobinStrategy) (calls : List (List BackendId)) : Prop :=
  s.cursor.toNat + calls.countP (· ≠ []) ≤ 2 ^ 64

instance (s : RoundRobinStrategy) (calls : List (List BackendId)) : Decidable (NoWrap s calls) :=
  inferInstanceAs (Decidable (_ ≤ _))

variable {s : RoundRobinStrategy} {calls : List (List BackendId)} {candidates : List BackendId}

theorem rankings_eq_of_cursor {k : Nat} (hs : s.cursor = BitVec.ofNat 64 k)
    (hwrap : k + calls.countP (· ≠ []) ≤ 2 ^ 64) :
    (s.rankings calls : List (List BackendId × List (ScoredBackend F))) =
      (turns k calls).map fun p => (p.1, ranked p.1 (p.2 % p.1.length)) := by
  induction calls generalizing s k with
  | nil => rfl
  | cons candidates calls ih =>
    rw [List.countP_cons] at hwrap
    unfold rankings turns evaluate
    dsimp only
    rw [List.map_cons]
    by_cases hnil : candidates = []
    · subst hnil
      rw [if_pos List.length_nil, if_pos rfl]
      congr 1
      exact ih hs (by simpa using hwrap)
    · rw [if_neg (fun h => hnil (List.length_eq_zero_iff.1 h)), if_neg hnil]
      rw [if_pos (decide_eq_true hnil)] at hwrap
      -- the cursor is read before it may come back to 0
      have hk : s.cursor.toNat = k := by
        rw [hs, BitVec.toNat_ofNat]
        exact Nat.mod_eq_of_lt (by omega)
      have hnext : s.cursor + 1 = BitVec.ofNat 64 (k + 1) := by
        rw [hs, BitVec.ofNat_add]
        rfl
      rw [hk]
      congr 1
      exact ih hnext (by omega)

/-- While it does not wrap, the cursor counts the calls with candidates. -/
theorem rankings_eq (hwrap : s.NoWrap calls) :
    (s.rankings calls : List (List BackendId × List (ScoredBackend F))) =
      (turns s.cursor.toNat calls).map fun p => (p.1, ranked p.1 (p.2 % p.1.length)) :=
  rankings_eq_of_cursor (BitVec.eq_of_toNat_eq (by simp)) hwrap

/-- At each turn of a list, the list is ranked from the cursor on and around. -/
theorem rankingsOf_eq (hwrap : s.NoWrap calls) :
    (s.rankingsOf calls candidates : List (List (ScoredBackend F))) =
      (turnsOf s.cursor.toNat calls candidates).map fun k =>
        ranked candidates (k % candidates.length) := by
  unfold rankingsOf turnsOf
  rw [rankings_eq hwrap, List.filter_map, List.map_map, List.map_map]
  apply List.map_congr_left
  intro p hp
  have hp' : p.1 = candidates := of_decide_eq_true (List.mem_filter.1 hp).2
  show ranked p.1 (p.2 % p.1.length) = ranked candidates (p.2 % candidates.length)
  rw [hp']

/-- Of some consecutive rankings of a list, the turns. -/
theorem rankings_window (hwrap : s.NoWrap calls)
    {before here after : List (List (ScoredBackend F))}
    (hsplit : s.rankingsOf calls candidates = before ++ here ++ after) :
    here = (((turnsOf s.cursor.toNat calls candidates).drop before.length).take here.length).map
      fun k => ranked candidates (k % candidates.length) := by
  rw [rankingsOf_eq hwrap] at hsplit
  rw [List.map_take, List.map_drop, hsplit, List.append_assoc, List.drop_left, List.take_left]

/-- The candidate at the turn is first. -/
theorem rankedFirst_ranked {cand : BackendId} {k : Nat} :
    RankedFirst cand (ranked candidates (k % candidates.length) : List (ScoredBackend F)) ↔
      (candidates.rotate k).head? = some cand := by
  unfold RankedFirst
  rw [backendId_ranked, List.rotate_mod]

theorem timesFirst_ranked {cand : BackendId} (turns : List Nat) :
    timesFirst cand (turns.map fun k =>
      (ranked candidates (k % candidates.length) : List (ScoredBackend F))) =
      turns.countP fun k => decide ((candidates.rotate k).head? = some cand) := by
  unfold timesFirst
  rw [List.countP_map]
  apply List.countP_congr
  intro k _
  rw [Function.comp_apply, decide_eq_true_eq, decide_eq_true_eq]
  exact rankedFirst_ranked

/-- As many rankings as candidates, each first once: the numbers of calls in front of them differ
modulo the number of candidates. -/
theorem timesFirst_eq_one_iff (hwrap : s.NoWrap calls) (hnodup : candidates.Nodup)
    {before here after : List (List (ScoredBackend F))}
    (hsplit : s.rankingsOf calls candidates = before ++ here ++ after)
    (hlen : here.length = candidates.length) :
    (∀ cand ∈ candidates, timesFirst cand here = 1) ↔
      ((((turnsOf s.cursor.toNat calls candidates).drop before.length).take
        candidates.length).map (· % candidates.length)).Nodup := by
  have hhere := rankings_window hwrap hsplit
  rw [hlen] at hhere
  rw [← Rotation.each_once_iff hnodup]
  · apply forall₂_congr
    intro cand _
    rw [hhere, timesFirst_ranked]
  · have hlen' := congrArg List.length hhere
    rw [List.length_map, hlen] at hlen'
    exact hlen'.symm

/-- A ranking of the candidates in rotation, with strictly decreasing scores. -/
def Rotated (candidates : List BackendId) (out : List (ScoredBackend ExtRat)) : Prop :=
  (∃ start, out.map (·.backendId) = candidates.rotate start) ∧
    (out.map (·.score)).Pairwise fun a b => Floating.lt b a = true

theorem rotated_evaluate (candidates : List BackendId) (s : RoundRobinStrategy) :
    Rotated candidates (evaluate candidates s).1 := by
  unfold evaluate
  dsimp only
  split
  · rename_i hzero
    rw [List.length_eq_zero_iff.1 hzero]
    exact ⟨⟨0, rfl⟩, List.Pairwise.nil⟩
  · exact ⟨⟨_, backendId_ranked candidates _⟩, score_ranked_pairwise candidates _⟩

theorem rotated_of_mem_rankings {p : List BackendId × List (ScoredBackend ExtRat)}
    (hp : p ∈ s.rankings calls) : Rotated p.1 p.2 := by
  induction calls generalizing s with
  | nil => exact absurd hp List.not_mem_nil
  | cons candidates calls ih =>
    rcases List.mem_cons.1 hp with rfl | hp
    · exact rotated_evaluate candidates s
    · exact ih hp

/-- Of as many consecutive rankings of a list as it has candidates, each candidate is first in one
if no other calls are in between; in general, if the numbers of calls in front of them differ
modulo the number of candidates. -/
theorem fair_iff (s : RoundRobinStrategy) (calls : List (List BackendId)) (hwrap : s.NoWrap calls)
    (candidates : List BackendId) (hnodup : candidates.Nodup)
    (before here after : List (List (ScoredBackend ExtRat)))
    (hsplit : s.rankingsOf calls candidates = before ++ here ++ after)
    (hlen : here.length = candidates.length) :
    ((∀ cand ∈ candidates, timesFirst cand here = 1) ↔
      ((((turnsOf s.cursor.toNat calls candidates).drop before.length).take
        candidates.length).map (· % candidates.length)).Nodup) ∧
    ((∃ k, ((turnsOf s.cursor.toNat calls candidates).drop before.length).take candidates.length =
        List.range' k candidates.length) →
      ∀ cand ∈ candidates, timesFirst cand here = 1) ∧
    ∀ p ∈ (s.rankings calls : List (List BackendId × List (ScoredBackend ExtRat))),
      Rotated p.1 p.2 := by
  have honce := timesFirst_eq_one_iff hwrap hnodup hsplit hlen
  refine ⟨honce, ?_, fun p hp => rotated_of_mem_rankings hp⟩
  rintro ⟨k, hk⟩
  rw [honce, hk]
  exact Rotation.nodup_range'_mod k candidates.length

/-- The backend of a name. -/
def backendOf (name : String) : BackendId := ⟨⟨"r1"⟩, ⟨name⟩⟩

theorem fair_oneList :
    let mine := [backendOf "a", backendOf "b"]
    let outs : List (List (ScoredBackend ExtRat)) := rankingsOf new [mine, [], mine] mine
    timesFirst (backendOf "a") outs = 1 ∧ timesFirst (backendOf "b") outs = 1 := by
  intro mine outs
  obtain ⟨-, hfair, -⟩ := fair_iff new [mine, [], mine] (by decide) mine (by decide) [] outs []
    (List.append_nil _).symm (by decide)
  have honce := hfair ⟨0, by decide⟩
  exact ⟨honce _ List.mem_cons_self, honce _ (List.mem_cons_of_mem _ List.mem_cons_self)⟩

/-- Two models with two backends each, in turn: of the backends of the first one is first both
times, the other never. -/
theorem starved_alternating :
    let mine := [backendOf "a", backendOf "b"]
    let other := [backendOf "c", backendOf "d"]
    let outs : List (List (ScoredBackend ExtRat)) :=
      rankingsOf new [mine, other, mine, other] mine
    NoWrap new [mine, other, mine, other] ∧ mine.Nodup ∧ outs.length = mine.length ∧
      timesFirst (backendOf "a") outs = 2 ∧ timesFirst (backendOf "b") outs = 0 := by
  decide

end RoundRobinStrategy

end HierKvGateway
