import HierKvGateway.Core.Rounded
import HierKvGateway.Lib.Ranking
import HierKvGateway.Routing.Hybrid

/-!
# Routing.Votes — the hybrid strategy as a vote

The active strategies of a hybrid strategy vote on the candidates that passed the model filter. A
vote counts as much as its weight times the normalised cost, and the votes are added up one after
the other. All of these numbers are rounded.

1. `HybridStrategy.normalized_mem_unit`: the normalised costs are between 0 and 1.
2. `HybridStrategy.evaluate_ranked`: the candidates are ranked by the votes.
-/

namespace HierKvGateway

namespace HybridStrategy

open RoundedFloating

/-! ## Votes -/

section

variable {F σ : Type}

/-- The entry of a candidate; if there are several, the last counts. -/
def entryOf (scores : List (ScoredBackend F)) (cand : BackendId) : Option (ScoredBackend F) :=
  (scores.filter fun s => s.backendId = cand).getLast?

theorem mem_of_entryOf {scores : List (ScoredBackend F)} {cand : BackendId}
    {scored : ScoredBackend F} (h : entryOf scores cand = some scored) :
    scored ∈ scores ∧ scored.backendId = cand := by
  rcases List.mem_filter.1 (List.mem_of_getLast? h) with ⟨hmem, hid⟩
  exact ⟨hmem, of_decide_eq_true hid⟩

variable [Floating F]

/-- What an active strategy says. -/
structure Vote (F : Type) where
  weight : F
  scores : List (ScoredBackend F)

/-- The normalised cost of a candidate, or 0. -/
def normalized (scores : List (ScoredBackend F)) (cand : BackendId) : F :=
  (normalizeCosts scores cand).getD (Floating.ofNat 0)

/-- Add up what the votes count for a candidate. -/
def addUp (acc : F) (votes : List (Vote F)) (cand : BackendId) : F :=
  votes.foldl (fun acc v => acc + v.weight * normalized v.scores cand) acc

/-- What the votes count for a candidate. -/
def total (votes : List (Vote F)) (cand : BackendId) : F := addUp (Floating.ofNat 0) votes cand

variable (ctx : RoutingContext) (filtered : List BackendId) (store : MetadataStore F)

/-- The strategies of positive weight vote, in order. -/
def poll : List (RoutingStrategy F σ × F) → σ → Except HierKvGatewayError (List (Vote F)) × σ
  | [], s => (.ok [], s)
  | (p, weight) :: strategies, s =>
    if Floating.lt (Floating.ofNat 0) weight then
      match p.evaluate ctx filtered store s with
      | (.error e, s) => (.error e, s)
      | (.ok scores, s) =>
        let (votes, s) := poll strategies s
        (votes.map (⟨weight, scores⟩ :: ·), s)
    else poll strategies s

/-- A strategy is added to the votes of the others, if it is active. -/
def addVote (weight : F) (scores : List (ScoredBackend F)) (votes : List (Vote F)) :
    List (Vote F) :=
  if Floating.lt (Floating.ofNat 0) weight then ⟨weight, scores⟩ :: votes else votes

/-- The strategies of a decision with their weights. -/
def ballot (h : HybridStrategy F σ) (w : DecisionWeights F) : List (RoutingStrategy F σ × F) :=
  (h.kv, w.kv) :: (h.load, w.load) :: (h.topology, w.topology) :: h.plugins.zip w.plugins

/-- The candidates that pass the model filter. -/
def passed (h : HybridStrategy F σ) (ctx : RoutingContext) (candidates : List BackendId)
    (store : MetadataStore F) (s : σ) : List BackendId :=
  if candidates = [] then []
  else
    match (h.model.evaluate ctx candidates store s).1 with
    | .ok modelScores =>
      (modelScores.filter fun m => Floating.lt (Floating.ofNat 0) m.score).map (·.backendId)
    | .error _ => []

/-- The votes of the active strategies on the candidates that passed. -/
def votesOn (h : HybridStrategy F σ) (ctx : RoutingContext) (filtered : List BackendId)
    (store : MetadataStore F) (s : σ) : List (Vote F) :=
  let (base, s) := h.effectiveBaseWeights store s
  match poll ctx filtered store (h.ballot (h.decisionWeights base store filtered)) s with
  | (.ok votes, _) => votes
  | (.error _, _) => []

/-- The votes of the active strategies in a decision. -/
def votes (h : HybridStrategy F σ) (ctx : RoutingContext) (candidates : List BackendId)
    (store : MetadataStore F) (s : σ) : List (Vote F) :=
  h.votesOn ctx (h.passed ctx candidates store s) store (h.model.evaluate ctx candidates store s).2

/-! ### The poll -/

variable {ctx filtered store} {p : RoutingStrategy F σ} {weight : F} {s s₁ s₂ s' : σ}
  {scores : List (ScoredBackend F)} {strategies : List (RoutingStrategy F σ × F)}
  {votes : List (Vote F)}

theorem scores_of_evaluateWeighted
    (h : evaluateWeighted p weight ctx filtered store s = (.ok scores, s'))
    (hneg : ¬Floating.lt (Floating.ofNat 0) weight = true) : scores = [] := by
  unfold evaluateWeighted at h
  rw [if_neg hneg] at h
  exact (Except.ok.inj (Prod.mk.inj h).1).symm

/-- A strategy votes before the others. -/
theorem poll_ok
    (heval : evaluateWeighted p weight ctx filtered store s = (.ok scores, s₁))
    (hpoll : poll ctx filtered store strategies s₁ = (.ok votes, s₂)) :
    poll ctx filtered store ((p, weight) :: strategies) s =
      (.ok (addVote weight scores votes), s₂) := by
  rw [poll]
  unfold evaluateWeighted at heval
  unfold addVote
  split at heval
  · rename_i hpos
    rw [if_pos hpos, if_pos hpos, heval]
    dsimp only
    rw [hpoll]
    rfl
  · rename_i hneg
    rw [if_neg hneg, if_neg hneg, (Prod.mk.inj heval).2, hpoll]

theorem poll_cons_ok (h : poll ctx filtered store ((p, weight) :: strategies) s = (.ok votes, s')) :
    (∃ scores s₁ rest, Floating.lt (Floating.ofNat 0) weight = true ∧
        p.evaluate ctx filtered store s = (.ok scores, s₁) ∧
          poll ctx filtered store strategies s₁ = (.ok rest, s') ∧
            votes = ⟨weight, scores⟩ :: rest) ∨
      ¬Floating.lt (Floating.ofNat 0) weight = true ∧
        poll ctx filtered store strategies s = (.ok votes, s') := by
  unfold poll at h
  split at h
  · rename_i hpos
    left
    rcases heval : p.evaluate ctx filtered store s with ⟨_ | scores, s₁⟩
    · rw [heval] at h
      exact absurd (Prod.mk.inj h).1 (by simp)
    · rw [heval] at h
      dsimp only at h
      rcases hrest : poll ctx filtered store strategies s₁ with ⟨_ | rest, s₂⟩
      · rw [hrest] at h
        exact absurd (Prod.mk.inj h).1 (by simp [Except.map])
      · rw [hrest] at h
        obtain ⟨hvotes, rfl⟩ := Prod.mk.inj h
        exact ⟨scores, s₁, rest, hpos, rfl, hrest, (Except.ok.inj hvotes).symm⟩
  · rename_i hneg
    exact Or.inr ⟨hneg, h⟩

/-- A vote has the positive weight of a strategy, and its scores. -/
theorem mem_poll (h : poll ctx filtered store strategies s = (.ok votes, s')) {v : Vote F}
    (hv : v ∈ votes) :
    Floating.lt (Floating.ofNat 0) v.weight = true ∧ ∃ q, (q, v.weight) ∈ strategies ∧ ∃ s₁ s₂,
      q.evaluate ctx filtered store s₁ = (.ok v.scores, s₂) := by
  induction strategies generalizing s votes with
  | nil =>
    rw [← Except.ok.inj (Prod.mk.inj h).1] at hv
    exact absurd hv List.not_mem_nil
  | cons p strategies ih =>
    rcases p with ⟨p, weight⟩
    have hrest : ∀ {s votes}, poll ctx filtered store strategies s = (.ok votes, s') → v ∈ votes →
        Floating.lt (Floating.ofNat 0) v.weight = true ∧
          ∃ q, (q, v.weight) ∈ (p, weight) :: strategies ∧ ∃ s₁ s₂,
            q.evaluate ctx filtered store s₁ = (.ok v.scores, s₂) := by
      intro s votes hpoll hv
      obtain ⟨hpos, q, hq, heval⟩ := ih hpoll hv
      exact ⟨hpos, q, List.mem_cons_of_mem _ hq, heval⟩
    rcases poll_cons_ok h with ⟨scores, s₁, rest, hpos, heval, hpoll, rfl⟩ | ⟨-, hpoll⟩
    · rcases List.mem_cons.1 hv with rfl | hv
      · exact ⟨hpos, p, List.mem_cons_self, s, s₁, heval⟩
      · exact hrest hpoll hv
    · exact hrest hpoll hv

theorem length_normalizeWeights (w : DecisionWeights F) :
    (normalizeWeights w).plugins.length = w.plugins.length := by
  unfold normalizeWeights
  dsimp only
  split
  · exact List.length_map _
  · exact List.length_map _

theorem length_decisionWeights (h : HybridStrategy F σ) (base : StrategyWeights F)
    (store : MetadataStore F) (filtered : List BackendId) :
    (h.decisionWeights base store filtered).plugins.length = h.plugins.length :=
  (length_normalizeWeights _).trans (List.length_map _)

end

variable {F σ : Type} [Floating F] [RoundedFloating F]

/-! ## The normalised costs -/

/-- The finite costs are not so far apart that a difference overflows. -/
def SpanFinite (scores : List (ScoredBackend F)) : Prop :=
  ∀ a ∈ scores, ∀ b ∈ scores, Floating.isFinite a.rawCost = true →
    Floating.isFinite b.rawCost = true → Floating.isFinite (a.rawCost - b.rawCost) = true

/-- Costs that are not negative never are. -/
theorem spanFinite_of_nonneg {scores : List (ScoredBackend F)}
    (h : ∀ s ∈ scores, Floating.isFinite s.rawCost = true →
      Floating.le (Floating.ofNat 0) s.rawCost = true) : SpanFinite scores := by
  intro a ha b hb hfa hfb
  obtain ⟨p, hp⟩ := isFinite_iff.1 hfa
  obtain ⟨q, hq⟩ := isFinite_iff.1 hfb
  have hp0 := (zero_le_iff_of_val hp).1 (h a ha hfa)
  have hq0 := (zero_le_iff_of_val hq).1 (h b hb hfb)
  have hneg : round F (-q) = .num (-q) := by
    refine round_val (x := -b.rawCost) ?_
    rw [val_neg, hq]
    rfl
  obtain ⟨r, hr, -⟩ := round_between hneg (round_val hp) (p := p - q) (by linarith) (by linarith)
  refine isFinite_iff.2 ⟨r, ?_⟩
  rw [val_sub, hp, hq]
  show round F (p + -q) = _
  rw [← sub_eq_add_neg, hr]

/-- The lowest and the highest of some numbers, and where one starts. -/
theorem foldl_range_spec {l : List F} (hl : ∀ x ∈ l, ¬IsNan x) {lo hi : F} (hlo : ¬IsNan lo)
    (hhi : ¬IsNan hi) :
    let r := l.foldl (fun (range : F × F) x =>
      (if Floating.lt x range.1 then x else range.1, if Floating.lt range.2 x then x else range.2))
      (lo, hi)
    (r.1 ∈ lo :: l ∧ r.2 ∈ hi :: l) ∧
      (∀ x ∈ lo :: l, ord r.1 ≤ ord x) ∧ ∀ x ∈ hi :: l, ord x ≤ ord r.2 := by
  induction l generalizing lo hi with
  | nil =>
    refine ⟨⟨List.mem_cons_self, List.mem_cons_self⟩, ?_, ?_⟩
    · exact fun x hx => (congrArg ord (List.mem_singleton.1 hx)).ge
    · exact fun x hx => (congrArg ord (List.mem_singleton.1 hx)).le
  | cons x l ih =>
    obtain ⟨hx, hl⟩ := List.forall_mem_cons.1 hl
    -- each end is the better one of the two
    have hlow : ∃ lo', (if Floating.lt x lo then x else lo) = lo' ∧ ¬IsNan lo' ∧
        (lo' = x ∨ lo' = lo) ∧ ord lo' ≤ ord x ∧ ord lo' ≤ ord lo := by
      split
      · rename_i hlt
        exact ⟨x, rfl, hx, .inl rfl, le_rfl, (lt_iff.1 hlt).2.2.le⟩
      · rename_i hlt
        exact ⟨lo, rfl, hlo, .inr rfl, (le_iff.1 (le_of_not_lt hx hlo hlt)).2.2, le_rfl⟩
    have hhigh : ∃ hi', (if Floating.lt hi x then x else hi) = hi' ∧ ¬IsNan hi' ∧
        (hi' = x ∨ hi' = hi) ∧ ord x ≤ ord hi' ∧ ord hi ≤ ord hi' := by
      split
      · rename_i hlt
        exact ⟨x, rfl, hx, .inl rfl, le_rfl, (lt_iff.1 hlt).2.2.le⟩
      · rename_i hlt
        exact ⟨hi, rfl, hhi, .inr rfl, (le_iff.1 (le_of_not_lt hhi hx hlt)).2.2, le_rfl⟩
    obtain ⟨lo', hlo', hnan, hone, hlox, hlolo⟩ := hlow
    obtain ⟨hi', hhi', hnan', hone', hhix, hhihi⟩ := hhigh
    rw [List.foldl_cons]
    dsimp only
    rw [hlo', hhi']
    obtain ⟨⟨hmem, hmem'⟩, hleast, hgreatest⟩ := ih hl hnan hnan'
    obtain ⟨hfirst, hrest⟩ := List.forall_mem_cons.1 hleast
    obtain ⟨hfirst', hrest'⟩ := List.forall_mem_cons.1 hgreatest
    have hin : ∀ {r end' first : F}, r ∈ end' :: l → end' = x ∨ end' = first →
        r ∈ first :: x :: l := by
      intro r end' first hr hend
      rcases List.mem_cons.1 hr with rfl | hr
      · rcases hend with rfl | rfl
        · exact List.mem_cons_of_mem first List.mem_cons_self
        · exact List.mem_cons_self
      · exact List.mem_cons_of_mem first (List.mem_cons_of_mem x hr)
    refine ⟨⟨hin hmem hone, hin hmem' hone'⟩, ?_, ?_⟩
    · exact List.forall_mem_cons.2
        ⟨hfirst.trans hlolo, List.forall_mem_cons.2 ⟨hfirst.trans hlox, hrest⟩⟩
    · exact List.forall_mem_cons.2
        ⟨hhihi.trans hfirst', List.forall_mem_cons.2 ⟨hhix.trans hfirst', hrest'⟩⟩

/-- The range is that of two finite costs, and has all others. -/
theorem costRange_spec {scores : List (ScoredBackend F)} {s : ScoredBackend F} (hs : s ∈ scores)
    (hfinite : Floating.isFinite s.rawCost = true) :
    (∃ a ∈ scores, Floating.isFinite a.rawCost = true ∧ (costRange scores).1 = a.rawCost) ∧
      (∃ b ∈ scores, Floating.isFinite b.rawCost = true ∧ (costRange scores).2 = b.rawCost) ∧
        Floating.le (costRange scores).1 s.rawCost = true ∧
          Floating.le s.rawCost (costRange scores).2 = true := by
  have hcosts : costRange scores =
      ((scores.filter fun s => Floating.isFinite s.rawCost).map (·.rawCost)).foldl
        (fun (range : F × F) x => (if Floating.lt x range.1 then x else range.1,
          if Floating.lt range.2 x then x else range.2))
        (Floating.infinity, -Floating.infinity) := by
    rw [List.foldl_map]
    rfl
  have hmem : ∀ {x}, x ∈ (scores.filter fun s => Floating.isFinite s.rawCost).map (·.rawCost) →
      ∃ a ∈ scores, Floating.isFinite a.rawCost = true ∧ x = a.rawCost := by
    intro x hx
    obtain ⟨a, ha, rfl⟩ := List.mem_map.1 hx
    obtain ⟨ha, hfa⟩ := List.mem_filter.1 ha
    exact ⟨a, ha, hfa, rfl⟩
  have hin : s.rawCost ∈ (scores.filter fun s => Floating.isFinite s.rawCost).map (·.rawCost) :=
    List.mem_map_of_mem (List.mem_filter.2 ⟨hs, hfinite⟩)
  have hnum : ∀ x ∈ (scores.filter fun s => Floating.isFinite s.rawCost).map (·.rawCost),
      ¬IsNan x := by
    intro x hx
    obtain ⟨a, -, hfa, rfl⟩ := hmem hx
    obtain ⟨q, hq⟩ := isFinite_iff.1 hfa
    exact not_isNan_of_val hq
  have hinf : ¬IsNan (Floating.infinity : F) := by
    unfold IsNan
    rw [val_infinity]
    exact nofun
  have hneg : val (-Floating.infinity : F) = .negInf := by
    rw [val_neg, val_infinity]
    rfl
  have hneginf : ¬IsNan (-Floating.infinity : F) := by
    unfold IsNan
    rw [hneg]
    exact nofun
  obtain ⟨⟨hlo, hhi⟩, hleast, hgreatest⟩ := foldl_range_spec hnum hinf hneginf
  rw [← hcosts] at hlo hhi hleast hgreatest
  have hle := hleast _ (List.mem_cons_of_mem _ hin)
  have hge := hgreatest _ (List.mem_cons_of_mem _ hin)
  obtain ⟨q, hq⟩ := isFinite_iff.1 hfinite
  have hord : ord s.rawCost = ((q : WithTop Rat) : WithBot (WithTop Rat)) := by
    unfold ord
    rw [hq]
    rfl
  -- neither end is where the search begins
  have hlo' : (costRange scores).1 ∈
      (scores.filter fun s => Floating.isFinite s.rawCost).map (·.rawCost) := by
    refine (List.mem_cons.1 hlo).resolve_left fun heq => ?_
    rw [heq, hord] at hle
    unfold ord at hle
    rw [val_infinity] at hle
    exact absurd hle (not_le.2 (WithBot.coe_lt_coe.2 (WithTop.coe_lt_top q)))
  have hhi' : (costRange scores).2 ∈
      (scores.filter fun s => Floating.isFinite s.rawCost).map (·.rawCost) := by
    refine (List.mem_cons.1 hhi).resolve_left fun heq => ?_
    rw [heq, hord] at hge
    unfold ord at hge
    rw [hneg] at hge
    exact absurd hge (not_le.2 (WithBot.bot_lt_coe _))
  exact ⟨hmem hlo', hmem hhi', le_iff.2 ⟨hnum _ hlo', hnum _ hin, hle⟩,
    le_iff.2 ⟨hnum _ hin, hnum _ hhi', hge⟩⟩

theorem le_zero_one : Floating.le (Floating.ofNat 0 : F) (Floating.ofNat 1) = true := by
  rw [le_val, val_zero, val_one, ExtRat.le_num]
  decide

/-- What is left of one. -/
theorem one_sub_mem_unit {x : F} (hx : Floating.le (Floating.ofNat 0) x = true)
    (hone : Floating.le x (Floating.ofNat 1) = true) :
    Floating.le (Floating.ofNat 0) (Floating.ofNat 1 - x) = true ∧
      Floating.le (Floating.ofNat 1 - x) (Floating.ofNat 1) = true := by
  obtain ⟨q, hq, hval⟩ : NonNegative x := .of_le hx hone (nonNegative_ofNat (by norm_num))
  have hq1 : q ≤ 1 := by
    rw [le_val, hval, val_one, ExtRat.le_num, decide_eq_true_eq] at hone
    exact hone
  have hsub : val (Floating.ofNat 1 - x : F) = round F (1 - q) := by
    rw [val_sub, val_one, hval, sub_eq_add_neg]
    rfl
  exact ⟨le_of_val_round val_zero hsub (by linarith), le_of_round_val hsub val_one (by linarith)⟩

/-- A normalised cost is between 0 and 1. -/
theorem normalized_mem_unit {scores : List (ScoredBackend F)} (hspan : SpanFinite scores)
    (cand : BackendId) :
    Floating.le (Floating.ofNat 0) (normalized scores cand) = true ∧
      Floating.le (normalized scores cand) (Floating.ofNat 1) = true := by
  have hzero : Floating.le (Floating.ofNat 0 : F) (Floating.ofNat 0) = true :=
    (nonNegative_ofNat (by norm_num)).le
  unfold normalized
  cases hvalue : normalizeCosts scores cand with
  | none => exact ⟨hzero, le_zero_one⟩
  | some x =>
    unfold normalizeCosts at hvalue
    dsimp only at hvalue
    have hwritten := (LastWrite.mem_or_of_apply hvalue).resolve_right nofun
    obtain ⟨s, hs, heq⟩ := List.mem_map.1 hwritten
    rw [Option.getD_some]
    split at heq
    · rename_i hfinite
      obtain ⟨⟨a, ha, hfa, hlo⟩, ⟨b, hb, hfb, hhi⟩, hle, hge⟩ := costRange_spec hs hfinite
      rw [← (Prod.mk.inj heq).2]
      rw [hlo] at hle ⊢
      rw [hhi] at hge ⊢
      split
      · rename_i hpos
        obtain ⟨p, hp⟩ := isFinite_iff.1 hfa
        obtain ⟨q, hq⟩ := isFinite_iff.1 hfinite
        obtain ⟨r, hr⟩ := isFinite_iff.1 hfb
        rw [le_val, hp, hq, ExtRat.le_num, decide_eq_true_eq] at hle
        rw [le_val, hq, hr, ExtRat.le_num, decide_eq_true_eq] at hge
        have hcost : val (s.rawCost - a.rawCost) = round F (q - p) := by
          rw [val_sub, hq, hp, sub_eq_add_neg]
          rfl
        have hall : val (b.rawCost - a.rawCost) = round F (r - p) := by
          rw [val_sub, hr, hp, sub_eq_add_neg]
          rfl
        have hpart : Floating.le (s.rawCost - a.rawCost) (b.rawCost - a.rawCost) = true := by
          rw [le_val, hcost, hall]
          exact round_mono (by linarith)
        have hnonneg : Floating.le (Floating.ofNat 0) (s.rawCost - a.rawCost) = true :=
          le_of_val_round val_zero hcost (by linarith)
        obtain ⟨hlow, hhigh⟩ := part_of_whole hnonneg hpart (hspan b hb a ha hfb hfa) hpos
        exact one_sub_mem_unit hlow hhigh
      · exact one_sub_mem_unit hzero le_zero_one
    · rw [← (Prod.mk.inj heq).2]
      exact ⟨hzero, le_zero_one⟩

/-! ## Adding up -/

variable {ctx : RoutingContext} {filtered candidates : List BackendId} {store : MetadataStore F}
  {s s' : σ} {cand : BackendId} {votes : List (Vote F)} {acc acc' : F}

theorem val_addUp_congr (h : val acc = val acc') (votes : List (Vote F)) (cand : BackendId) :
    val (addUp acc votes cand) = val (addUp acc' votes cand) := by
  induction votes generalizing acc acc' with
  | nil => exact h
  | cons v votes ih =>
    apply ih
    rw [val_add, val_add, h]

/-- A strategy that is not active counts for nothing. -/
theorem val_addUp_addVote {weight : F} (hweight : NonNegative weight)
    {scores : List (ScoredBackend F)}
    (hscores : ¬Floating.lt (Floating.ofNat 0) weight = true → scores = []) (acc : F)
    (votes : List (Vote F)) (cand : BackendId) :
    val (addUp acc (addVote weight scores votes) cand) =
      val (addUp (acc + weight * normalized scores cand) votes cand) := by
  unfold addVote
  split
  · rfl
  · rename_i hneg
    rw [hscores hneg]
    exact val_addUp_congr (val_add_zero (val_mul_zero hweight val_zero)).symm votes cand

/-- A plugin is evaluated before the others, and its norm has the normalised costs. -/
theorem evaluatePlugins_cons {p : RoutingStrategy F σ} {weight : F} (hweight : NonNegative weight)
    {plugins : List (RoutingStrategy F σ × F)} {norms : List (BackendId → Option F)}
    (h : evaluatePlugins ctx filtered store ((p, weight) :: plugins) s = (.ok norms, s')) :
    ∃ scores s₁ norm rest,
      evaluateWeighted p weight ctx filtered store s = (.ok scores, s₁) ∧
      evaluatePlugins ctx filtered store plugins s₁ = (.ok rest, s') ∧ norms = norm :: rest ∧
      ∀ cand, (norm cand).getD (Floating.ofNat 0) = normalized scores cand := by
  -- the norms are those of the first and of the rest, if there is no error
  have hmap : ∀ {norm : BackendId → Option F}
      {res : Except HierKvGatewayError (List (BackendId → Option F))},
      res.map (norm :: ·) = .ok norms → ∃ rest, res = .ok rest ∧ norms = norm :: rest := by
    intro norm res hres
    cases res with
    | error err => exact absurd hres nofun
    | ok rest => exact ⟨rest, rfl, (Except.ok.inj hres).symm⟩
  have hactive := lt_iff_not_le (not_isNan_of_val val_zero) (not_isNan_of_nonneg hweight.le)
  unfold evaluatePlugins at h
  unfold evaluateWeighted
  by_cases hpos : Floating.lt (Floating.ofNat 0) weight = true
  · rw [if_neg (hactive.1 hpos)] at h
    rw [if_pos hpos]
    rcases heval : p.evaluate ctx filtered store s with ⟨err | scores, s₁⟩
    · rw [heval] at h
      exact absurd (Prod.mk.inj h).1 nofun
    rw [heval] at h
    rcases Prod.mk.inj h with ⟨hres, hs⟩
    rcases hmap hres with ⟨rest, hrest, hnorms⟩
    exact ⟨scores, s₁, _, rest, rfl, Prod.ext hrest hs, hnorms, fun cand => rfl⟩
  · -- a plugin without weight is not evaluated
    rw [if_pos (by_contra fun hle => hpos (hactive.2 hle))] at h
    rw [if_neg hpos]
    rcases Prod.mk.inj h with ⟨hres, hs⟩
    rcases hmap hres with ⟨rest, hrest, hnorms⟩
    exact ⟨[], s, _, rest, rfl, Prod.ext hrest hs, hnorms, fun cand => rfl⟩

/-- The plugins vote like the others, and their votes are added up. -/
theorem evaluatePlugins_ok {plugins : List (RoutingStrategy F σ × F)}
    (hplugins : ∀ p ∈ plugins, NonNegative p.2) {norms : List (BackendId → Option F)}
    (h : evaluatePlugins ctx filtered store plugins s = (.ok norms, s')) :
    ∃ votes, poll ctx filtered store plugins s = (.ok votes, s') ∧
      ∀ cand acc, val ((norms.zip (plugins.map (·.2))).foldl
        (fun acc (norm, weight) => acc + weight * (norm cand).getD (Floating.ofNat 0)) acc) =
          val (addUp acc votes cand) := by
  induction plugins generalizing s norms with
  | nil =>
    rcases Prod.mk.inj h with ⟨hnorms, rfl⟩
    rw [← Except.ok.inj hnorms]
    exact ⟨[], rfl, fun cand acc => rfl⟩
  | cons p plugins ih =>
    rcases List.forall_mem_cons.1 hplugins with ⟨hweight, hrest⟩
    rcases p with ⟨p, weight⟩
    rcases evaluatePlugins_cons hweight h with ⟨scores, s₁, norm, rest, heval, hplug, rfl, hnorm⟩
    rcases ih hrest hplug with ⟨votes, hpoll, hsum⟩
    refine ⟨addVote weight scores votes, poll_ok heval hpoll, ?_⟩
    intro cand acc
    rw [List.map_cons, List.zip_cons_cons, List.foldl_cons]
    dsimp only
    rw [hnorm, hsum, val_addUp_addVote hweight (scores_of_evaluateWeighted heval)]

/-! ## Weights -/

/-- No weight of a decision is negative. -/
structure DecisionWeights.NonNegative (w : DecisionWeights F) : Prop where
  kv : RoundedFloating.NonNegative w.kv
  load : RoundedFloating.NonNegative w.load
  topology : RoundedFloating.NonNegative w.topology
  plugins : ∀ p ∈ w.plugins, RoundedFloating.NonNegative p

/-- No weight of the strategy is negative, whatever the weight controller does. -/
structure NonNegative (h : HybridStrategy F σ) : Prop where
  base : ∀ store s, RoundedFloating.NonNegative (h.effectiveBaseWeights store s).1.kv ∧
    RoundedFloating.NonNegative (h.effectiveBaseWeights store s).1.load ∧
      RoundedFloating.NonNegative (h.effectiveBaseWeights store s).1.topology
  plugins : ∀ p ∈ h.plugins, RoundedFloating.NonNegative p.weight

theorem nonNegative_normalizeWeights {w : DecisionWeights F} (h : w.NonNegative) :
    (normalizeWeights w).NonNegative := by
  have hplugins : ∀ p ∈ w.plugins, Floating.le (Floating.ofNat 0) p = true :=
    fun p hp => (h.plugins p hp).le
  have hzero : RoundedFloating.NonNegative (Floating.ofNat 0 : F) :=
    nonNegative_ofNat (by norm_num)
  obtain ⟨hsum, hpart⟩ := le_foldl_add hzero.le hplugins
  obtain ⟨hkv, hload⟩ := le_add h.kv.le h.load.le
  obtain ⟨htwo, htopology⟩ := le_add (le_trans' h.kv.le hkv) h.topology.le
  obtain ⟨hthree, hrest⟩ := le_add (le_trans' (le_trans' h.kv.le hkv) htwo) hsum
  unfold normalizeWeights
  dsimp only
  split
  · rename_i hpos
    refine ⟨h.kv.div (le_trans' (le_trans' hkv htwo) hthree) hpos,
      h.load.div (le_trans' (le_trans' hload htwo) hthree) hpos,
      h.topology.div (le_trans' htopology hthree) hpos, ?_⟩
    intro p hp
    rcases List.mem_map.1 hp with ⟨p', hp', rfl⟩
    exact (h.plugins p' hp').div (le_trans' (hpart p' hp') hrest) hpos
  · -- no weight is positive: the built-in strategies get a third each
    have hval : val (Floating.ofNat 3 : F) = .num 3 := by
      rw [val_ofNat (by norm_num)]
      norm_num
    have hthird : RoundedFloating.NonNegative (Floating.ofNat 1 / Floating.ofNat 3 : F) := by
      refine (nonNegative_ofNat (by norm_num)).div ?_ ((zero_lt_iff_of_val hval).2 (by norm_num))
      rw [le_val, val_one, hval, ExtRat.le_num]
      decide
    refine ⟨hthird, hthird, hthird, ?_⟩
    intro p hp
    rcases List.mem_map.1 hp with ⟨p', -, rfl⟩
    exact hzero

/-- The weights of a decision are normalised from weights that are not negative. -/
theorem exists_decisionWeights {h : HybridStrategy F σ} (hw : h.NonNegative)
    (filtered : List BackendId) (store : MetadataStore F) (s : σ) :
    ∃ raw : DecisionWeights F, raw.NonNegative ∧
      h.decisionWeights (h.effectiveBaseWeights store s).1 store filtered =
        normalizeWeights raw := by
  rcases hw.base store s with ⟨hkv, hload, htopology⟩
  have hzero : RoundedFloating.NonNegative (Floating.ofNat 0 : F) :=
    nonNegative_ofNat (by norm_num)
  have hstale : val (Floating.lit 3 1 : F) = round F (3 / 10) := by
    rw [val_lit, pow_one]
    norm_num
  refine ⟨_, ?_, rfl⟩
  constructor
  · dsimp only
    split
    · exact hkv
    · exact hzero
  · dsimp only
    split
    · exact hload.mul_unit (le_of_val_round val_zero hstale (by norm_num))
        (le_of_round_val hstale val_one (by norm_num))
    · exact hload
  · exact htopology
  · intro p hp
    rcases List.mem_map.1 hp with ⟨p', hp', rfl⟩
    split
    · exact hw.plugins p' hp'
    · exact hzero

theorem nonNegative_decisionWeights {h : HybridStrategy F σ} (hw : h.NonNegative)
    (filtered : List BackendId) (store : MetadataStore F) (s : σ) :
    (h.decisionWeights (h.effectiveBaseWeights store s).1 store filtered).NonNegative := by
  obtain ⟨raw, hraw, heq⟩ := exists_decisionWeights hw filtered store s
  rw [heq]
  exact nonNegative_normalizeWeights hraw

/-- No weight on the ballot is negative. -/
theorem nonNegative_ballot {h : HybridStrategy F σ} {w : DecisionWeights F} (hw : w.NonNegative) :
    ∀ p ∈ h.ballot w, RoundedFloating.NonNegative p.2 := by
  intro p hp
  unfold ballot at hp
  rcases List.mem_cons.1 hp with rfl | hp
  · exact hw.kv
  rcases List.mem_cons.1 hp with rfl | hp
  · exact hw.load
  rcases List.mem_cons.1 hp with rfl | hp
  · exact hw.topology
  · exact hw.plugins _ (List.of_mem_zip hp).2

/-- The weights of the votes are finite, and not negative. -/
theorem nonNegative_weight {h : HybridStrategy F σ} (hw : h.NonNegative) {v : Vote F}
    (hv : v ∈ h.votesOn ctx filtered store s) : RoundedFloating.NonNegative v.weight := by
  have hweights := nonNegative_decisionWeights hw filtered store s
  unfold votesOn at hv
  dsimp only at hv
  split at hv
  · rename_i votes _ hpoll
    obtain ⟨-, q, hq, -⟩ := mem_poll hpoll hv
    exact nonNegative_ballot hweights _ hq
  · exact absurd hv List.not_mem_nil

/-! ## The ranking -/

/-- What the votes count is a number, or infinite. -/
theorem nonneg_total (hweights : ∀ v ∈ votes, RoundedFloating.NonNegative v.weight)
    (hspan : ∀ v ∈ votes, SpanFinite v.scores) (cand : BackendId) :
    Floating.le (Floating.ofNat 0) (total votes cand) = true := by
  suffices hacc : ∀ acc : F, Floating.le (Floating.ofNat 0) acc = true →
      Floating.le (Floating.ofNat 0) (addUp acc votes cand) = true from
    hacc _ (nonNegative_ofNat (by norm_num)).le
  induction votes with
  | nil => exact fun acc hacc => hacc
  | cons v votes ih =>
    obtain ⟨hweight, hweights⟩ := List.forall_mem_cons.1 hweights
    obtain ⟨hv, hspan⟩ := List.forall_mem_cons.1 hspan
    obtain ⟨hlow, hhigh⟩ := normalized_mem_unit hv cand
    intro acc hacc
    exact ih hweights hspan _ (le_trans' hacc (le_add hacc (hweight.mul_unit hlow hhigh).le).1)

/-- Sorting by scores that stand for numbers is ranking by these. -/
theorem mergeSort_eq_rank {value score : BackendId → F} (hvalue : ∀ cand, ¬IsNan (value cand))
    (hscore : ∀ cand, val (score cand) = val (value cand)) (filtered : List BackendId) :
    (filtered.map fun cand => (⟨cand, score cand, -score cand, 0⟩ : ScoredBackend F)).mergeSort
        (fun a b => Floating.cmp b.score a.score != .gt) =
      (Ranking.rank (fun cand => ord (value cand)) filtered).map
        fun cand => ⟨cand, score cand, -score cand, 0⟩ := by
  have hnum : ∀ cand, ¬IsNan (score cand) := by
    intro cand
    unfold IsNan
    rw [hscore]
    exact hvalue cand
  unfold Ranking.rank
  refine (List.map_mergeSort fun a _ b _ => ?_).symm
  have hord : ∀ cand, ord (score cand) = ord (value cand) :=
    fun cand => congrArg ExtRat.ord (hscore cand)
  have hgt := cmp_eq_gt_iff (hnum b) (hnum a)
  rw [hord, hord] at hgt
  by_cases hle : ord (value b) ≤ ord (value a)
  · rw [decide_eq_true hle, bne_iff_ne.2 fun heq => not_lt.2 hle (hgt.1 heq)]
  · rw [decide_eq_false hle, hgt.2 (not_le.1 hle)]
    rfl

/-- The weighted sum of a candidate is what the votes count for it. -/
theorem val_hybridScore {h : HybridStrategy F σ} {w : DecisionWeights F} (hw : w.NonNegative)
    (hlen : w.plugins.length = h.plugins.length) {s₀ s₁ s₂ s₃ : σ}
    {kvScores loadScores topoScores : List (ScoredBackend F)} {norms : List (BackendId → Option F)}
    (hkv : evaluateWeighted h.kv w.kv ctx filtered store s₀ = (.ok kvScores, s₁))
    (hload : evaluateWeighted h.load w.load ctx filtered store s₁ = (.ok loadScores, s₂))
    (htopo : evaluateWeighted h.topology w.topology ctx filtered store s₂ = (.ok topoScores, s₃))
    (hplug : evaluatePlugins ctx filtered store (h.plugins.zip w.plugins) s₃ = (.ok norms, s')) :
    ∃ votes, poll ctx filtered store (h.ballot w) s₀ = (.ok votes, s') ∧
      ∀ cand, val (hybridScore w (normalizeCosts kvScores) (normalizeCosts loadScores)
        (normalizeCosts topoScores) norms cand) = val (total votes cand) := by
  have hzip : ∀ p ∈ h.plugins.zip w.plugins, RoundedFloating.NonNegative p.2 :=
    fun p hp => hw.plugins p.2 (List.of_mem_zip hp).2
  obtain ⟨votes, hpoll, hsum⟩ := evaluatePlugins_ok hzip hplug
  refine ⟨_, poll_ok hkv (poll_ok hload (poll_ok htopo hpoll)), fun cand => ?_⟩
  have hsnd : (h.plugins.zip w.plugins).map (·.2) = w.plugins :=
    List.map_snd_zip (Nat.le_of_eq hlen)
  have hbase := hsum cand (w.kv * normalized kvScores cand + w.load * normalized loadScores cand +
    w.topology * normalized topoScores cand)
  rw [hsnd] at hbase
  unfold total
  rw [val_addUp_addVote hw.kv (scores_of_evaluateWeighted hkv),
    val_addUp_addVote hw.load (scores_of_evaluateWeighted hload),
    val_addUp_addVote hw.topology (scores_of_evaluateWeighted htopo)]
  refine hbase.trans (val_addUp_congr ?_ votes cand)
  -- the sum begins with the first term, and not with zero
  rw [val_add, val_add, val_add, val_add, val_zero_add val_zero]

/-- The filtered candidates are ranked by the votes. -/
theorem scoreFiltered_ranked {h : HybridStrategy F σ} (hw : h.NonNegative)
    (hspan : ∀ v ∈ h.votesOn ctx filtered store s, SpanFinite v.scores)
    {ranked : List (ScoredBackend F)}
    (hres : h.scoreFiltered ctx filtered store s = (.ok ranked, s')) :
    ∃ score : BackendId → F,
      (∀ cand, val (score cand) = val (total (h.votesOn ctx filtered store s) cand)) ∧
        ranked = (Ranking.rank (fun cand => ord (total (h.votesOn ctx filtered store s) cand))
          filtered).map fun cand => ⟨cand, score cand, -score cand, 0⟩ := by
  have hnum : ∀ cand, ¬IsNan (total (h.votesOn ctx filtered store s) cand) :=
    fun cand => not_isNan_of_nonneg (nonneg_total (fun _ hv => nonNegative_weight hw hv) hspan cand)
  have hweights := nonNegative_decisionWeights hw filtered store s
  rcases hbase : h.effectiveBaseWeights store s with ⟨base, s₀⟩
  rcases scoreFiltered_ok hbase hres with
    ⟨kvScores, s₁, loadScores, s₂, topoScores, s₃, norms, hkv, hload, htopo, hplug, rfl⟩
  rw [hbase] at hweights
  obtain ⟨votes, hpoll, hscore⟩ := val_hybridScore hweights
    (h.length_decisionWeights base store filtered) hkv hload htopo hplug
  have hvotes : h.votesOn ctx filtered store s = votes := by
    unfold votesOn
    rw [hbase]
    dsimp only
    rw [hpoll]
  rw [hvotes] at hnum ⊢
  exact ⟨_, hscore, mergeSort_eq_rank hnum hscore filtered⟩

/-- What `evaluate` returns are the candidates that passed, ranked by the votes. -/
theorem evaluate_ranked {h : HybridStrategy F σ} (hw : h.NonNegative)
    (hspan : ∀ v ∈ h.votes ctx candidates store s, SpanFinite v.scores)
    {ranked : List (ScoredBackend F)}
    (hres : h.evaluate ctx candidates store s = (.ok ranked, s')) :
    ∃ score : BackendId → F,
      (∀ cand, val (score cand) = val (total (h.votes ctx candidates store s) cand)) ∧
        ranked = (Ranking.rank (fun cand => ord (total (h.votes ctx candidates store s) cand))
          (h.passed ctx candidates store s)).map
            fun cand => ⟨cand, score cand, -score cand, 0⟩ := by
  unfold evaluate at hres
  unfold votes passed at hspan ⊢
  split at hres
  · rename_i hnil
    rw [← Except.ok.inj (Prod.mk.inj hres).1, if_pos hnil]
    exact ⟨_, fun cand => rfl, by rw [Ranking.rank_nil, List.map_nil]⟩
  · rename_i hcands
    rw [if_neg hcands] at hspan ⊢
    rcases hmodel : h.model.evaluate ctx candidates store s with ⟨_ | modelScores, s₁⟩
    · rw [hmodel] at hres
      exact absurd (Prod.mk.inj hres).1 nofun
    · rw [hmodel] at hres hspan
      dsimp only at hres hspan ⊢
      split at hres
      · exact absurd (Prod.mk.inj hres).1 nofun
      · exact scoreFiltered_ranked hw hspan hres

end HybridStrategy

end HierKvGateway
