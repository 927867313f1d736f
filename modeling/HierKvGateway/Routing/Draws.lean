import HierKvGateway.Core.Rounded
import HierKvGateway.Lib.Draws
import HierKvGateway.Metadata.Registry
import HierKvGateway.Routing.Failover

/-!
# Routing.Draws — what may be selected

Selection draws from the scores, one after the other. Each draw is greedy, or random with the
softmax of the scores left as weights, and which of the two is decided by the temperature and by
numerical anomalies. Apart from an anomaly the weights are as a sampler wants them, and the best
score has a positive one (`weight_spec`).

1. `RoutingEngine.drawn_selectLoop`: what is selected is drawn (`Draws.Drawn`) from what has a
   positive weight.
2. `RoutingEngine.ranked_selection`: hence as many are selected as there are to be, each once.
3. `RoutingEngine.exists_plan`: every list that can be drawn is selected with some sampler.
4. `RoutingEngine.max_of_cold`, `RoutingEngine.drawable_of_warm`: what the temperature says about
   what may be drawn.
-/

namespace HierKvGateway

namespace RoutingEngine

variable {F σ : Type} [Floating F] {temperature : F} {pool : List (ScoredBackend F)}
  {x y : ScoredBackend F}

/-! ## The weights -/

/-- The highest score. -/
def maxScore (pool : List (ScoredBackend F)) : F :=
  (pool.map (·.score)).foldl Floating.max (-Floating.infinity)

/-- The exponential of a score, shifted by the highest. -/
def expOf (temperature : F) (pool : List (ScoredBackend F)) (x : ScoredBackend F) : F :=
  Floating.exp ((x.score - maxScore pool) / temperature)

/-- The sum of the exponentials. -/
def sumExps (temperature : F) (pool : List (ScoredBackend F)) : F :=
  (pool.map (expOf temperature pool)).foldl (· + ·) (Floating.ofNat 0)

/-- The weight of a score. -/
def weight (temperature : F) (pool : List (ScoredBackend F)) (x : ScoredBackend F) : F :=
  expOf temperature pool x / sumExps temperature pool

/-- The next draw is greedy: by the temperature, or because of a numerical anomaly. -/
def IsGreedy (temperature : F) (pool : List (ScoredBackend F)) : Prop :=
  Floating.le temperature (Floating.ofNat 0) = true ∨
    Floating.isFinite (sumExps temperature pool) = false ∨
      Floating.le (sumExps temperature pool) (Floating.ofNat 0) = true

instance (temperature : F) (pool : List (ScoredBackend F)) :
    Decidable (IsGreedy temperature pool) :=
  inferInstanceAs (Decidable (_ ∨ _))

/-- What may be drawn next. -/
def Drawable (temperature : F) (pool : List (ScoredBackend F)) (x : ScoredBackend F) : Prop :=
  if IsGreedy temperature pool then greedy pool = some x
  else x ∈ pool ∧ Floating.lt (Floating.ofNat 0) (weight temperature pool x) = true

theorem selectWithTemperature_eq (e : RoutingEngine F σ) (hne : pool ≠ []) (s : σ) :
    e.selectWithTemperature pool temperature s =
      if IsGreedy temperature pool then (greedy pool, s)
      else
        let (idx, s) := e.sampleIndex (pool.map (weight temperature pool)) s
        (idx.bind (pool[·]?), s) := by
  have hweights : (pool.map (expOf temperature pool)).map (· / sumExps temperature pool) =
      pool.map (weight temperature pool) := List.map_map
  have hanomaly : (!Floating.isFinite (sumExps temperature pool) ||
      Floating.le (sumExps temperature pool) (Floating.ofNat 0)) = true ↔
      Floating.isFinite (sumExps temperature pool) = false ∨
        Floating.le (sumExps temperature pool) (Floating.ofNat 0) = true := by
    rw [Bool.or_eq_true, Bool.not_eq_true']
  unfold selectWithTemperature
  rw [if_neg hne]
  by_cases htemp : Floating.le temperature (Floating.ofNat 0) = true
  · rw [if_pos htemp, if_pos (show IsGreedy temperature pool from Or.inl htemp)]
  · rw [if_neg htemp, ← hweights]
    by_cases hgreedy : IsGreedy temperature pool
    · rw [if_pos hgreedy]
      exact if_pos (hanomaly.2 (hgreedy.resolve_left htemp))
    · rw [if_neg hgreedy]
      exact if_neg fun h => hgreedy (Or.inr (hanomaly.1 h))

theorem mem_of_drawable (h : Drawable temperature pool x) : x ∈ pool := by
  unfold Drawable at h
  split at h
  · cases pool with
    | nil => exact absurd h nofun
    | cons s scores =>
      rw [← Option.some.inj h]
      exact mem_foldl_pick _ s scores
  · exact h.1

omit [Floating F] in
/-- The position of a backend among distinct ones. -/
theorem findIdx_of_nodup {l r : List (ScoredBackend F)}
    (hnodup : ((l ++ x :: r).map (·.backendId)).Nodup) :
    (l ++ x :: r).findIdx (fun y => y.backendId = x.backendId) = l.length := by
  have hnone : l.findIdx (fun y => y.backendId = x.backendId) = l.length := by
    rw [List.findIdx_eq_length]
    intro y hy
    rw [List.map_append, List.nodup_append] at hnodup
    exact decide_eq_false (hnodup.2.2 _ (List.mem_map_of_mem hy) _
      (List.mem_map_of_mem List.mem_cons_self))
  rw [List.findIdx_append, hnone, if_neg (Nat.lt_irrefl _), List.findIdx_cons,
    decide_eq_true rfl]
  exact Nat.zero_add _

section Rounded

variable [RoundedFloating F]

open RoundedFloating

theorem not_isNan_neg_infinity : ¬IsNan (-Floating.infinity : F) := by
  unfold IsNan
  rw [val_neg, val_infinity]
  exact nofun

/-- The maximum is one of the numbers, and none is higher. -/
theorem foldl_max_spec {l : List F} {acc : F} (hacc : ¬IsNan acc) (hl : ∀ x ∈ l, ¬IsNan x) :
    l.foldl Floating.max acc ∈ acc :: l ∧
      ∀ x ∈ acc :: l, ord x ≤ ord (l.foldl Floating.max acc) := by
  induction l generalizing acc with
  | nil => exact ⟨List.mem_cons_self, fun x hx => (List.mem_singleton.1 hx ▸ le_rfl)⟩
  | cons x l ih =>
    obtain ⟨hx, hl⟩ := List.forall_mem_cons.1 hl
    rw [List.foldl_cons, max_of_num hacc]
    split
    · rename_i hle
      obtain ⟨hmem, hmax⟩ := ih hx hl
      refine ⟨List.mem_cons_of_mem acc hmem, List.forall_mem_cons.2 ⟨?_, hmax⟩⟩
      exact (le_iff.1 hle).2.2.trans (hmax x List.mem_cons_self)
    · rename_i hle
      obtain ⟨hmem, hmax⟩ := ih hacc hl
      obtain ⟨hacc', hrest⟩ := List.forall_mem_cons.1 hmax
      constructor
      · rcases List.mem_cons.1 hmem with heq | hmem
        · exact List.mem_cons.2 (Or.inl heq)
        · exact List.mem_cons_of_mem acc (List.mem_cons_of_mem x hmem)
      · have hlt := (lt_iff.1 ((lt_iff_not_le hx hacc).2 hle)).2.2
        exact List.forall_mem_cons.2 ⟨hacc', List.forall_mem_cons.2 ⟨hlt.le.trans hacc', hrest⟩⟩

/-- Where the draw is random, the exponentials are finite. -/
theorem isFinite_of_not_isGreedy (h : ¬IsGreedy temperature pool) :
    Floating.isFinite (sumExps temperature pool) = true ∧
      Floating.lt (Floating.ofNat 0) (sumExps temperature pool) = true ∧
        ∀ x ∈ pool, Floating.isFinite (expOf temperature pool x) = true := by
  unfold IsGreedy at h
  rw [not_or, not_or, Bool.not_eq_false] at h
  obtain ⟨-, hfinite, hpos⟩ := h
  obtain ⟨q, hq⟩ := isFinite_iff.1 hfinite
  refine ⟨hfinite, (lt_iff_not_le (not_isNan_of_val val_zero) (not_isNan_of_val hq)).2 hpos, ?_⟩
  intro x hx
  exact (isFinite_of_foldl_add hfinite).2 _ (List.mem_map_of_mem hx)

/-- And no number is NaN. -/
theorem not_isNan_of_not_isGreedy (h : ¬IsGreedy temperature pool) (hx : x ∈ pool) :
    Floating.lt (Floating.ofNat 0) temperature = true ∧ ¬IsNan x.score ∧
      ¬IsNan (x.score - maxScore pool) := by
  have hexp : ¬IsNan ((x.score - maxScore pool) / temperature) := by
    intro hnan
    have hfinite := (isFinite_of_not_isGreedy h).2.2 x hx
    exact not_isFinite_of_isNan (val_exp_nan hnan) hfinite
  have htemp : ¬Floating.le temperature (Floating.ofNat 0) = true := fun hle => h (Or.inl hle)
  have hne : val temperature ≠ .num 0 := by
    intro hzero
    refine htemp (le_iff.2 ⟨not_isNan_of_val hzero, not_isNan_of_val val_zero, ?_⟩)
    unfold ord
    rw [hzero, val_zero]
  have hdiff : ¬IsNan (x.score - maxScore pool) := fun hnan => hexp (isNan_div hnan hne)
  have htempNan : ¬IsNan temperature := fun hnan => hexp (isNan_div_right hnan)
  exact ⟨(lt_iff_not_le (not_isNan_of_val val_zero) htempNan).2 htemp,
    fun hnan => hdiff (isNan_sub hnan), hdiff⟩

/-- Where the draw is random, the highest score is one of the scores, and finite. -/
theorem exists_maxScore (h : ¬IsGreedy temperature pool) (hne : pool ≠ []) :
    ∃ z ∈ pool, z.score = maxScore pool ∧ Floating.isFinite (maxScore pool) = true ∧
      ∀ y ∈ pool, ord y.score ≤ ord z.score := by
  have hscores : ∀ f ∈ pool.map (·.score), ¬IsNan f := by
    intro f hf
    obtain ⟨x, hx, rfl⟩ := List.mem_map.1 hf
    exact (not_isNan_of_not_isGreedy h hx).2.1
  obtain ⟨hmem, hmax⟩ := foldl_max_spec not_isNan_neg_infinity hscores
  change maxScore pool ∈ _ at hmem
  change ∀ f ∈ _, ord f ≤ ord (maxScore pool) at hmax
  obtain ⟨x, hx⟩ := List.exists_mem_of_ne_nil pool hne
  have hdiff := (not_isNan_of_not_isGreedy h hx).2.2
  rcases List.mem_cons.1 hmem with hinf | hmem
  · -- all scores are the negative infinity, and the differences are NaN
    have hle := hmax x.score (List.mem_cons_of_mem _ (List.mem_map_of_mem hx))
    rw [hinf] at hle hdiff
    exact absurd (isNan_sub_neg_infinity (hscores _ (List.mem_map_of_mem hx)) hle) hdiff
  · obtain ⟨z, hz, heq⟩ := List.mem_map.1 hmem
    refine ⟨z, hz, heq, ?_, ?_⟩
    · by_contra hinf
      have hdiff := (not_isNan_of_not_isGreedy h hz).2.2
      rw [heq] at hdiff
      exact hdiff (isNan_sub_self hinf)
    · intro y hy
      rw [heq]
      exact hmax y.score (List.mem_cons_of_mem _ (List.mem_map_of_mem hy))

/-- Where the draw is random, the weights are between 0 and 1, and that of the best is positive. -/
theorem weight_spec (h : ¬IsGreedy temperature pool) (hne : pool ≠ []) :
    (∀ x ∈ pool, Floating.le (Floating.ofNat 0) (weight temperature pool x) = true ∧
        Floating.le (weight temperature pool x) (Floating.ofNat 1) = true) ∧
      ∃ z ∈ pool, Floating.lt (Floating.ofNat 0) (weight temperature pool z) = true ∧
        ∀ y ∈ pool, ord y.score ≤ ord z.score := by
  obtain ⟨hfinite, hpos, hexps⟩ := isFinite_of_not_isGreedy h
  have hzero : Floating.le (Floating.ofNat 0) (Floating.ofNat 0 : F) = true :=
    (zero_le_iff_of_val val_zero).2 le_rfl
  have hnonneg : ∀ f ∈ pool.map (expOf temperature pool),
      Floating.le (Floating.ofNat 0) f = true := by
    intro f hf
    obtain ⟨x, hx, rfl⟩ := List.mem_map.1 hf
    rw [le_val, val_zero]
    exact exp_nonneg fun hnan => not_isFinite_of_isNan (val_exp_nan hnan) (hexps x hx)
  have hle := (le_foldl_add hzero hnonneg).2
  constructor
  · intro x hx
    have hmem := List.mem_map_of_mem (f := expOf temperature pool) hx
    exact part_of_whole (hnonneg _ hmem) (hle _ hmem) hfinite hpos
  · obtain ⟨z, hz, heq, hmax, hbest⟩ := exists_maxScore h hne
    refine ⟨z, hz, ?_, hbest⟩
    -- the shifted score is 0, and the exponential 1
    obtain ⟨q, hq⟩ := isFinite_iff.1 hmax
    have hshift : val ((z.score - maxScore pool) / temperature) = .num 0 := by
      refine val_zero_div ?_ (not_isNan_of_not_isGreedy h hz).1
      rw [heq]
      exact val_sub_self hq
    exact one_div_pos (exp_zero hshift) hfinite hpos

/-! ## The draws -/

/-- The greedy choice is the best. -/
theorem greedy_max (hnan : ∀ y ∈ pool, ¬IsNan y.score) (h : greedy pool = some x) :
    ∀ y ∈ pool, ord y.score ≤ ord x.score := by
  have hfold : ∀ (l : List (ScoredBackend F)) (s : ScoredBackend F), ¬IsNan s.score →
      (∀ y ∈ l, ¬IsNan y.score) → ∀ y ∈ s :: l, ord y.score ≤ ord (l.foldl
        (fun best x => if Floating.cmp best.score x.score = .gt then best else x) s).score := by
    intro l
    induction l with
    | nil => exact fun s _ _ y hy => (List.mem_singleton.1 hy ▸ le_rfl)
    | cons t l ih =>
      intro s hs hl
      obtain ⟨ht, hl⟩ := List.forall_mem_cons.1 hl
      rw [List.foldl_cons]
      split
      · rename_i hgt
        obtain ⟨hleft, hrest⟩ := List.forall_mem_cons.1 (ih s hs hl)
        have hlt := (cmp_eq_gt_iff hs ht).1 hgt
        exact List.forall_mem_cons.2 ⟨hleft, List.forall_mem_cons.2 ⟨hlt.le.trans hleft, hrest⟩⟩
      · rename_i hgt
        obtain ⟨hleft, hrest⟩ := List.forall_mem_cons.1 (ih t ht hl)
        have hle := not_lt.1 (mt (cmp_eq_gt_iff hs ht).2 hgt)
        exact List.forall_mem_cons.2 ⟨hle.trans hleft, List.forall_mem_cons.2 ⟨hleft, hrest⟩⟩
  cases pool with
  | nil => exact absurd h nofun
  | cons s l =>
    obtain ⟨hs, hl⟩ := List.forall_mem_cons.1 hnan
    rw [← Option.some.inj h]
    exact hfold l s hs hl

/-- If no score is NaN, then one of the highest may be drawn. -/
theorem exists_drawable_max (hne : pool ≠ []) (hnan : ∀ y ∈ pool, ¬IsNan y.score) :
    ∃ x ∈ pool, Drawable temperature pool x ∧ ∀ y ∈ pool, ord y.score ≤ ord x.score := by
  unfold Drawable
  split
  · obtain ⟨x, hx, hgreedy⟩ := greedy_of_ne_nil hne
    exact ⟨x, hx, hgreedy, greedy_max hnan hgreedy⟩
  · rename_i hrandom
    obtain ⟨z, hz, hpos, hmax⟩ := (weight_spec hrandom hne).2
    exact ⟨z, hz, ⟨hz, hpos⟩, hmax⟩

/-- If the temperature is not positive, or NaN, only one of the highest may be drawn. -/
theorem max_of_cold (hcold : ¬Floating.lt (Floating.ofNat 0) temperature = true)
    (hnan : ∀ y ∈ pool, ¬IsNan y.score) (h : Drawable temperature pool x) :
    ∀ y ∈ pool, ord y.score ≤ ord x.score := by
  have hgreedy : IsGreedy temperature pool := by
    by_contra hrandom
    exact hcold (not_isNan_of_not_isGreedy hrandom (mem_of_drawable h)).1
  unfold Drawable at h
  rw [if_pos hgreedy] at h
  exact greedy_max hnan h

section Exact

variable {temperature : ExtRat} {pool : List (ScoredBackend ExtRat)} {x : ScoredBackend ExtRat}

theorem exists_foldl_add {l : List ExtRat} (hl : ∀ x ∈ l, ∃ q, x = .num q) (a : Rat) :
    ∃ b, l.foldl (· + ·) (.num a) = .num b := by
  induction l generalizing a with
  | nil => exact ⟨a, rfl⟩
  | cons x l ih =>
    obtain ⟨⟨q, rfl⟩, hrest⟩ := List.forall_mem_cons.1 hl
    exact ih hrest (a + q)

theorem exists_maxScore_num (hne : pool ≠ []) (hnum : ∀ y ∈ pool, ∃ q, y.score = .num q) :
    ∃ m, maxScore pool = .num m := by
  have hscores : ∀ f ∈ pool.map (·.score), ∃ q, f = .num q := by
    intro f hf
    obtain ⟨y, hy, rfl⟩ := List.mem_map.1 hf
    exact hnum y hy
  obtain ⟨hmem, hmax⟩ := foldl_max_spec not_isNan_neg_infinity fun f hf =>
    not_isNan_of_val (hscores f hf).choose_spec
  change maxScore pool ∈ _ at hmem
  change ∀ f ∈ _, ord f ≤ ord (maxScore pool) at hmax
  rcases List.mem_cons.1 hmem with hinf | hmem
  · -- the fold starts at the negative infinity, which no score is
    obtain ⟨y, hy⟩ := List.exists_mem_of_ne_nil pool hne
    obtain ⟨q, hq⟩ := hnum y hy
    have hle := hmax y.score (List.mem_cons_of_mem _ (List.mem_map_of_mem hy))
    rw [hinf, hq] at hle
    exact absurd hle (not_le.2 (WithBot.bot_lt_coe _))
  · exact hscores _ hmem

/-- At a positive temperature, the exponentials are positive. -/
theorem exists_expOf (hwarm : Floating.lt (Floating.ofNat 0) temperature = true)
    (hnum : ∀ y ∈ pool, ∃ q, y.score = .num q) (hx : x ∈ pool) :
    ∃ p, 0 < p ∧ expOf temperature pool x = .num p := by
  obtain ⟨m, hm⟩ := exists_maxScore_num (List.ne_nil_of_mem hx) hnum
  obtain ⟨q, hq⟩ := hnum x hx
  have hquot : ∃ r, (x.score - maxScore pool) / temperature = .num r := by
    rw [hm, hq, ExtRat.num_sub]
    cases temperature with
    | num t =>
      rw [ExtRat.ofNat_eq, Nat.cast_zero, ExtRat.lt_num, decide_eq_true_eq] at hwarm
      exact ⟨_, ExtRat.num_div _ _ hwarm.ne'⟩
    | posInf => exact ⟨0, rfl⟩
    | negInf => exact absurd hwarm Bool.false_ne_true
    | nan => exact absurd hwarm Bool.false_ne_true
  obtain ⟨r, hr⟩ := hquot
  unfold expOf
  rw [hr]
  exact ExtRat.exp_num_pos r

theorem exists_sumExps (hexp : ∀ y ∈ pool, ∃ p, 0 < p ∧ expOf temperature pool y = .num p)
    (hne : pool ≠ []) : ∃ s, 0 < s ∧ sumExps temperature pool = .num s := by
  obtain ⟨s, hs⟩ : ∃ s, sumExps temperature pool = .num s := by
    refine exists_foldl_add ?_ _
    intro f hf
    obtain ⟨y, hy, rfl⟩ := List.mem_map.1 hf
    obtain ⟨p, -, hp⟩ := hexp y hy
    exact ⟨p, hp⟩
  have hnonneg : ∀ f ∈ pool.map (expOf temperature pool),
      Floating.le (Floating.ofNat 0) f = true := by
    intro f hf
    obtain ⟨y, hy, rfl⟩ := List.mem_map.1 hf
    obtain ⟨p, hp0, hp⟩ := hexp y hy
    exact (zero_le_iff_of_val hp).2 hp0.le
  have hzero : Floating.le (Floating.ofNat 0) (Floating.ofNat 0 : ExtRat) = true :=
    (zero_le_iff_of_val val_zero).2 le_rfl
  obtain ⟨x, hx⟩ := List.exists_mem_of_ne_nil pool hne
  have hle := (le_foldl_add hzero hnonneg).2 _ (List.mem_map_of_mem hx)
  change Floating.le _ (sumExps temperature pool) = true at hle
  obtain ⟨p, hp0, hp⟩ := hexp x hx
  rw [hp, hs, ExtRat.le_num, decide_eq_true_eq] at hle
  exact ⟨s, hp0.trans_le hle, hs⟩

/-- With exact numbers, at a positive temperature everything may be drawn. -/
theorem drawable_of_warm (hwarm : Floating.lt (Floating.ofNat 0) temperature = true)
    (hnum : ∀ y ∈ pool, ∃ q, y.score = .num q) (hx : x ∈ pool) : Drawable temperature pool x := by
  have hexp : ∀ y ∈ pool, ∃ p, 0 < p ∧ expOf temperature pool y = .num p :=
    fun _ => exists_expOf hwarm hnum
  obtain ⟨s, hs0, hs⟩ := exists_sumExps hexp (List.ne_nil_of_mem hx)
  have hrandom : ¬IsGreedy temperature pool := by
    rintro (hcold | hinfinite | hzero)
    · obtain ⟨hnan, hnan', -⟩ := lt_iff.1 hwarm
      exact (lt_iff_not_le hnan hnan').1 hwarm hcold
    · rw [hs] at hinfinite
      exact absurd hinfinite.symm Bool.false_ne_true
    · rw [hs, ExtRat.ofNat_eq, Nat.cast_zero, ExtRat.le_num, decide_eq_true_eq] at hzero
      exact absurd hzero (not_le.2 hs0)
  unfold Drawable
  rw [if_neg hrandom]
  obtain ⟨p, hp0, hp⟩ := hexp x hx
  refine ⟨hx, (zero_lt_iff_of_val (q := p / s) ?_).2 (div_pos hp0 hs0)⟩
  unfold weight
  rw [hp, hs]
  exact ExtRat.num_div _ _ hs0.ne'

end Exact

/-- What is asked of a sampler (`WeightedIndex`): of weights between 0 and 1 that are not all zero
it draws the index of one that is not. -/
def Samples (sampleIndex : List F → σ → Option Nat × σ) : Prop :=
  ∀ weights s, (∀ w ∈ weights, Floating.le (Floating.ofNat 0) w = true ∧
      Floating.le w (Floating.ofNat 1) = true) →
    (∃ w ∈ weights, Floating.lt (Floating.ofNat 0) w = true) →
      ∃ i s', sampleIndex weights s = (some i, s') ∧
        ∃ w, weights[i]? = some w ∧ Floating.lt (Floating.ofNat 0) w = true

variable {e : RoutingEngine F σ}

/-- Something is always drawn, and it is drawable. -/
theorem selectWithTemperature_drawable (hs : Samples e.sampleIndex) (hne : pool ≠ []) (s : σ) :
    ∃ x s', e.selectWithTemperature pool temperature s = (some x, s') ∧
      Drawable temperature pool x := by
  rw [e.selectWithTemperature_eq hne]
  unfold Drawable
  by_cases hgreedy : IsGreedy temperature pool
  · rw [if_pos hgreedy]
    obtain ⟨x, -, hx⟩ := greedy_of_ne_nil hne
    refine ⟨x, s, ?_, ?_⟩
    · rw [hx]
    · rw [if_pos hgreedy]
      exact hx
  · rw [if_neg hgreedy]
    obtain ⟨hunit, z, hz, hpos, -⟩ := weight_spec hgreedy hne
    have hweights : ∀ w ∈ pool.map (weight temperature pool),
        Floating.le (Floating.ofNat 0) w = true ∧ Floating.le w (Floating.ofNat 1) = true := by
      intro w hw
      obtain ⟨x, hx, rfl⟩ := List.mem_map.1 hw
      exact hunit x hx
    obtain ⟨i, s', hsample, w, hw, hlt⟩ :=
      hs _ s hweights ⟨_, List.mem_map_of_mem hz, hpos⟩
    rw [List.getElem?_map] at hw
    obtain ⟨x, hx, rfl⟩ := Option.map_eq_some_iff.1 hw
    refine ⟨x, s', ?_, ?_⟩
    · rw [hsample]
      dsimp only
      rw [Option.bind_some, hx]
    · rw [if_neg hgreedy]
      exact ⟨List.mem_of_getElem? hx, hlt⟩

/-- What is selected is drawn. -/
theorem drawn_selectLoop (hs : Samples e.sampleIndex) (limit : Nat)
    (hnodup : (pool.map (·.backendId)).Nodup) (s : σ) :
    Draws.Drawn (Drawable temperature) limit pool (e.selectLoop temperature limit pool s).1 := by
  -- distinct ids: the position that is removed is that of the pick
  induction limit generalizing pool s with
  | zero => exact .enough pool
  | succ limit ih =>
    unfold selectLoop
    split
    · rename_i hnil
      rw [hnil]
      exact .empty (limit + 1)
    · rename_i hne
      obtain ⟨x, s', hselect, hdraw⟩ : ∃ x s',
          e.selectWithTemperature pool temperature s = (some x, s') ∧ Drawable temperature pool x :=
        selectWithTemperature_drawable hs hne s
      obtain ⟨l, r, rfl⟩ := List.append_of_mem (mem_of_drawable hdraw)
      rw [hselect]
      dsimp only
      rw [findIdx_of_nodup hnodup, List.getElem?_append_right (Nat.le_refl _), Nat.sub_self,
        List.eraseIdx_append_of_length_le (Nat.le_refl _), Nat.sub_self]
      have hrest : ((l ++ r).map (·.backendId)).Nodup :=
        hnodup.sublist (((List.sublist_cons_self x r).append_left l).map _)
      exact .draw hdraw (ih hrest s')

/-! ## Every draw is possible -/

/-- A sampler with a plan: the index to draw of so many weights, if its weight is positive. -/
def samplePlan (plan : Nat → Nat) (weights : List F) (s : σ) : Option Nat × σ :=
  if (weights[plan weights.length]?).any fun w => Floating.lt (Floating.ofNat 0) w then
    (some (plan weights.length), s)
  else (weights.findIdx? fun w => Floating.lt (Floating.ofNat 0) w, s)

omit [RoundedFloating F] in
theorem samples_samplePlan (plan : Nat → Nat) :
    Samples (samplePlan plan : List F → σ → Option Nat × σ) := by
  intro weights s _ hpos
  unfold samplePlan
  split
  · rename_i hplan
    obtain ⟨w, hw, hlt⟩ := (Option.any_eq_true _ _).1 hplan
    exact ⟨_, s, rfl, w, hw, hlt⟩
  · rcases hidx : weights.findIdx? fun w => Floating.lt (Floating.ofNat 0) w with _ | i
    · obtain ⟨w, hw, hlt⟩ := hpos
      rw [List.findIdx?_eq_none_iff] at hidx
      exact absurd hlt (by rw [hidx w hw]; exact Bool.false_ne_true)
    · obtain ⟨hlt, hpos, -⟩ := List.findIdx?_eq_some_iff_getElem.1 hidx
      exact ⟨i, s, rfl, weights[i], List.getElem?_eq_getElem hlt, hpos⟩

omit [RoundedFloating F] in
/-- What is drawable is drawn with the right plan. -/
theorem selectWithTemperature_plan {plan : Nat → Nat} (hsample : e.sampleIndex = samplePlan plan)
    {l r : List (ScoredBackend F)} (hplan : plan (l ++ x :: r).length = l.length)
    (hdraw : Drawable temperature (l ++ x :: r) x) (s : σ) :
    e.selectWithTemperature (l ++ x :: r) temperature s = (some x, s) := by
  have hne : l ++ x :: r ≠ [] := List.ne_nil_of_mem (mem_of_drawable hdraw)
  rw [e.selectWithTemperature_eq hne, hsample]
  unfold Drawable at hdraw
  split at hdraw
  · rename_i hgreedy
    rw [if_pos hgreedy, hdraw]
  · rename_i hrandom
    have hx : (l ++ x :: r)[l.length]? = some x := by
      rw [List.getElem?_append_right (Nat.le_refl _), Nat.sub_self]
      rfl
    rw [if_neg hrandom]
    unfold samplePlan
    rw [List.length_map, hplan, List.getElem?_map, hx, Option.map_some, Option.any_some,
      if_pos hdraw.2]
    dsimp only
    rw [Option.bind_some, hx]

omit [RoundedFloating F] in
/-- Every list that can be drawn is selected with some sampler. -/
theorem exists_plan {limit : Nat} {out : List (ScoredBackend F)}
    (h : Draws.Drawn (Drawable temperature) limit pool out)
    (hnodup : (pool.map (·.backendId)).Nodup) :
    ∃ plan : Nat → Nat, ∀ plan', (∀ n ≤ pool.length, plan' n = plan n) →
      ∀ e : RoutingEngine F σ, e.sampleIndex = samplePlan plan' → ∀ s,
        (e.selectLoop temperature limit pool s).1 = out := by
  induction h with
  | enough pool => exact ⟨id, fun _ _ _ _ _ => rfl⟩
  | empty limit =>
    refine ⟨id, fun _ _ e _ s => ?_⟩
    cases limit with
    | zero => rfl
    | succ limit => rfl
  | @draw limit l r out x hdraw _ ih =>
    have hrest : ((l ++ r).map (·.backendId)).Nodup :=
      hnodup.sublist (((List.sublist_cons_self x r).append_left l).map _)
    -- the pool gets shorter with each draw, so the plan for this length is still free
    obtain ⟨plan, hplan⟩ := ih hrest
    have hlen : (l ++ x :: r).length = (l ++ r).length + 1 := by
      rw [List.length_append, List.length_append, List.length_cons]
      omega
    refine ⟨Function.update plan (l ++ x :: r).length l.length, ?_⟩
    intro plan' hplan' e hsample s
    have hfirst : plan' (l ++ x :: r).length = l.length :=
      (hplan' _ (Nat.le_refl _)).trans (Function.update_self ..)
    have hlater : ∀ n ≤ (l ++ r).length, plan' n = plan n := by
      intro n hn
      rw [hplan' n (by omega), Function.update_of_ne (by omega)]
    have hne : l ++ x :: r ≠ [] := List.ne_nil_of_mem (mem_of_drawable hdraw)
    unfold selectLoop
    rw [if_neg hne, selectWithTemperature_plan hsample hfirst hdraw]
    dsimp only
    rw [findIdx_of_nodup hnodup, List.getElem?_append_right (Nat.le_refl _), Nat.sub_self,
      List.eraseIdx_append_of_length_le (Nat.le_refl _), Nat.sub_self]
    exact congrArg (x :: ·) (hplan plan' hlater e hsample s)

/-! ## Selection -/

/-- What is selected: as many as there are to be, each once, and greedily the best. -/
structure Selected (temperature : F) (limit : Nat) (scores ranked : List (ScoredBackend F)) :
    Prop where
  length : ranked.length = min limit scores.length
  mem : ∀ r ∈ ranked, r ∈ scores
  nodup : (ranked.map (·.backendId)).Nodup
  sorted : Floating.le temperature (Floating.ofNat 0) = true → (∀ x ∈ scores, ¬IsNan x.score) →
    ranked.Pairwise (fun a b => Floating.le b.score a.score = true) ∧
      ∀ x ∈ scores, x ∉ ranked → ∀ r ∈ ranked, Floating.le x.score r.score = true

theorem selectRanked_selected (hs : Samples e.sampleIndex) {scores : List (ScoredBackend F)}
    (hnodup : (scores.map (·.backendId)).Nodup) (temperature : F) (limit : Nat) (s : σ) :
    Selected temperature limit scores (e.selectRanked scores temperature limit s).1 := by
  have hdrawn : Draws.Drawn (Drawable temperature) limit scores
      (e.selectRanked scores temperature limit s).1 := drawn_selectLoop hs limit hnodup s
  generalize (e.selectRanked scores temperature limit s).1 = ranked at hdrawn
  constructor
  · exact hdrawn.length_eq
  · exact fun r hr => hdrawn.mem hr
  · obtain ⟨rest, hperm⟩ := hdrawn.perm
    have hall := (hperm.map (·.backendId)).nodup_iff.2 hnodup
    exact hall.sublist ((List.sublist_append_left ranked rest).map _)
  · intro htemp hnan
    have hcold : ¬Floating.lt (Floating.ofNat 0) temperature = true := by
      intro hwarm
      exact absurd (lt_iff.1 hwarm).2.2 (not_lt.2 (le_iff.1 htemp).2.2)
    have hpick : ∀ left x, left ⊆ scores → Drawable temperature left x →
        ∀ y ∈ left, ord y.score ≤ ord x.score :=
      fun left x hsub hdraw => max_of_cold hcold (fun y hy => hnan y (hsub hy)) hdraw
    have hle : ∀ {x y}, x ∈ scores → y ∈ scores → ord y.score ≤ ord x.score →
        Floating.le y.score x.score = true :=
      fun hx hy h => le_iff.2 ⟨hnan _ hy, hnan _ hx, h⟩
    obtain ⟨hsorted, rest, hperm, hrest⟩ := hdrawn.sorted hpick
    constructor
    · refine hsorted.imp_of_mem ?_
      exact fun ha hb h => hle (hdrawn.mem ha) (hdrawn.mem hb) h
    · intro x hx hout r hr
      have hmem := (List.mem_append.1 (hperm.symm.subset hx)).resolve_left hout
      exact hle (hdrawn.mem hr) hx (hrest r hr x hmem)

end Rounded

/-! ## The candidates -/

theorem nodup_collect {head : Option BackendId} {ids : List BackendId} (h : ids.Nodup) :
    (collect head ids).Nodup :=
  (List.mergeSort_perm _ _).nodup_iff.2 (h.filter _)

theorem not_mem_collect {head : BackendId} {ids : List BackendId} :
    head ∉ collect (some head) ids := by
  intro h
  have hmem := List.mem_filter.1 ((List.mergeSort_perm _ _).subset h)
  exact of_decide_eq_true hmem.2 rfl

/-- The candidates are distinct, and the head is not among them. -/
theorem candidates_spec (ctx : RoutingContext) (head : Option BackendId) (m : MetadataStore F)
    (ops : List RegistryOp) {store : MetadataStore F}
    (hbackends : store.backends = (m.withRegistry (ops.foldl BackendRegistry.step .new)).backends) :
    (candidates ctx head store).Nodup ∧ ∀ h, head = some h → h ∉ candidates ctx head store := by
  have hall : (store.backendsAll.map (·.id)).Nodup := by
    have hkeys : store.backendsAll.map (·.id) = store.backends.keys := by
      unfold MetadataStore.backendsAll AList.keys List.keys
      rw [List.map_map]
      apply List.map_congr_left
      rintro ⟨backend, info⟩ hmem
      rw [hbackends] at hmem
      exact BackendRegistry.run_keyed ops backend info (AList.mem_lookup_iff.2 hmem)
    rw [hkeys]
    exact store.backends.keys_nodup
  have hmodel : ∀ name, (store.modelFindBackends name).Nodup := by
    intro name
    exact store.models.backends.keys_nodup.sublist
      (ModelRegistry.modelFindBackends_sublist F store.models name)
  unfold candidates
  constructor
  · split
    · split
      · exact nodup_collect hall
      · dsimp only
        split
        · exact nodup_collect hall
        · exact nodup_collect (hmodel _)
    · exact nodup_collect hall
  · rintro h rfl
    split
    · split
      · exact not_mem_collect
      · dsimp only
        split
        · exact not_mem_collect
        · exact not_mem_collect
    · exact not_mem_collect

/-! ## Routing -/

/-- Of distinct candidates, the strategy returns some, each once. -/
def DistinctIds (p : RoutingStrategy F σ) : Prop :=
  ∀ ctx cands store s scores s', cands.Nodup →
    p.evaluate ctx cands store s = (.ok scores, s') →
      (scores.map (·.backendId)).Nodup ∧ scores.map (·.backendId) ⊆ cands

variable {e : RoutingEngine F σ} {now limit : Nat} {ctx : RoutingContext} {st st' : EngineState F σ}
  {ds : List (RouteDecision F)}

/-- What is scored are candidates, each once: the degradation strategy scores all of them. -/
theorem scoreCandidates_distinct (hprimary : DistinctIds e.primaryStrategy) {cands : List BackendId}
    (hcands : cands ≠ []) (hnodup : cands.Nodup) {scored : List (ScoredBackend F)} {used : String}
    (h : e.scoreCandidates ctx cands st = (.ok (scored, used), st')) :
    (scored.map (·.backendId)).Nodup ∧ scored.map (·.backendId) ⊆ cands := by
  rcases e.scoreCandidates_cases ctx hcands st with
    ⟨scores, s, -, heval, hscore⟩ | ⟨-, -, scores, s, hdeg, -, hscore⟩ | ⟨-, -, err, s, hscore⟩
  · rw [h] at hscore
    rw [(Prod.mk.inj (Except.ok.inj (Prod.mk.inj hscore).1)).1]
    exact hprimary ctx cands st.store st.inner scores s hnodup heval
  · rw [h] at hscore
    have hids : scores.map (·.backendId) = cands := by
      rw [hdeg]
      unfold DegradationStrategy.evaluate
      rw [List.map_map]
      refine (List.map_congr_left ?_).trans (List.map_id cands)
      exact fun cand _ => DegradationStrategy.backendId_scoreOf _ _ _ cand
    rw [(Prod.mk.inj (Except.ok.inj (Prod.mk.inj hscore).1)).1, hids]
    exact ⟨hnodup, List.Subset.refl cands⟩
  · rw [h] at hscore
    exact absurd (Prod.mk.inj hscore).1 nofun

omit [Floating F] in
theorem map_backend_decisions (ctx : RoutingContext) (used : String) (store : MetadataStore F)
    (scores : List (String × F)) (ranked : List (ScoredBackend F)) :
    (decisions ctx used store scores ranked).map (·.backend) = ranked.map (·.backendId) := by
  induction ranked generalizing scores with
  | nil => rfl
  | cons pick ranked ih =>
    unfold decisions
    rw [List.map_cons, List.map_cons, ih]

/-- The backends of the list: the head, and what is selected from the scores. -/
theorem routeRest_ok {head : Option (RouteDecision F)}
    (hres : e.routeRest now ctx limit head st = (.ok ds, st')) :
    ds = head.toList ∨ ∃ scored used st'',
      candidates ctx (head.map (·.backend)) st.store ≠ [] ∧
      e.scoreCandidates ctx (candidates ctx (head.map (·.backend)) st.store) st =
        (.ok (scored, used), st'') ∧
      ds.map (·.backend) = head.toList.map (·.backend) ++
        (e.selectRanked scored e.temperature (limit - head.toList.length) st''.inner).1.map
          (·.backendId) := by
  -- an exit that returns the head alone
  have halone : ∀ h st'', head = some h →
      ((.ok [h], st'') : Except HierKvGatewayError (List (RouteDecision F)) × EngineState F σ) =
        (.ok ds, st') → ds = head.toList := by
    rintro h st'' rfl heq
    exact (Except.ok.inj (Prod.mk.inj heq).1).symm
  unfold routeRest at hres
  dsimp only at hres
  split at hres
  · split at hres
    · exact Or.inl (halone _ _ rfl hres)
    · exact absurd (Prod.mk.inj hres).1 nofun
  · rename_i hcands
    split at hres
    · exact absurd (Prod.mk.inj hres).1 nofun
    · rename_i scored used st'' hscore
      split at hres
      · split at hres
        · exact Or.inl (halone _ _ rfl hres)
        · exact absurd (Prod.mk.inj hres).1 nofun
      · rename_i first ranked inner hranked
        refine Or.inr ⟨scored, used, st'', hcands, hscore, ?_⟩
        unfold conclude at hres
        dsimp only at hres
        split at hres
        · exact absurd (Prod.mk.inj hres).1 nofun
        · rw [← Except.ok.inj (Prod.mk.inj hres).1, List.map_append, map_backend_decisions, hranked]

/-- Up to `limit` decisions with a backend each. -/
theorem routeRest_distinct [RoundedFloating F] (hs : Samples e.sampleIndex)
    (hprimary : DistinctIds e.primaryStrategy) {head : Option (RouteDecision F)}
    (hlimit : head.toList.length ≤ limit) (m : MetadataStore F) (ops : List RegistryOp)
    (hbackends : st.store.backends =
      (m.withRegistry (ops.foldl BackendRegistry.step .new)).backends)
    (hres : e.routeRest now ctx limit head st = (.ok ds, st')) :
    ds.length ≤ limit ∧ (ds.map (·.backend)).Nodup := by
  have hhead : (head.toList.map (·.backend)).Nodup := by
    cases head with
    | none => exact List.nodup_nil
    | some h => exact List.nodup_singleton _
  rcases routeRest_ok hres with rfl | ⟨scored, used, st'', hcands, hscore, hds⟩
  · exact ⟨hlimit, hhead⟩
  · obtain ⟨hnodup, hnot⟩ := candidates_spec ctx (head.map (·.backend)) m ops hbackends
    obtain ⟨hscored, hsub⟩ := scoreCandidates_distinct hprimary hcands hnodup hscore
    have hselected := selectRanked_selected hs hscored e.temperature
      (limit - head.toList.length) st''.inner
    generalize (e.selectRanked scored e.temperature (limit - head.toList.length) st''.inner).1 =
      ranked at hselected hds
    constructor
    · have hlen := congrArg List.length hds
      rw [List.length_append, List.length_map, List.length_map, List.length_map,
        hselected.length] at hlen
      omega
    · rw [hds, List.nodup_append]
      refine ⟨hhead, hselected.nodup, ?_⟩
      rintro _ hx y hy rfl
      obtain ⟨h, hh, rfl⟩ := List.mem_map.1 hx
      obtain ⟨r, hr, heq⟩ := List.mem_map.1 hy
      have hcand := hsub (List.mem_map_of_mem (f := (·.backendId)) (hselected.mem r hr))
      rw [heq] at hcand
      rw [Option.mem_toList] at hh
      exact hnot h.backend (congrArg (Option.map (·.backend)) hh) hcand

omit [Floating F] in
theorem backends_affinityHead (e : RoutingEngine F σ) (now : Nat) (ctx : RoutingContext)
    (st : EngineState F σ) :
    (e.affinityHead now ctx st).2.store.backends = st.store.backends := by
  have hset : ∀ backend, (setSession now ctx backend st).store.backends = st.store.backends := by
    intro backend
    unfold setSession
    split
    · rfl
    · rfl
  unfold affinityHead
  split
  · exact hset _
  · rfl

/-- Ranked selection is complete and without repetition, and greedy selection is sorted. -/
theorem ranked_selection [RoundedFloating F] (e : RoutingEngine F σ) (hs : Samples e.sampleIndex) :
    (∀ scores : List (ScoredBackend F), (scores.map (·.backendId)).Nodup →
      ∀ temperature limit s,
        Selected temperature limit scores (e.selectRanked scores temperature limit s).1) ∧
    (DistinctIds e.primaryStrategy →
      ∀ (m : MetadataStore F) (ops : List RegistryOp) prefixHistory inner now ctx limit ds st',
        e.routeCandidates now ctx limit
            ⟨m.withRegistry (ops.foldl BackendRegistry.step .new), prefixHistory, inner⟩ =
          (.ok ds, st') →
        ds.length ≤ limit ∧ (ds.map (·.backend)).Nodup) := by
  constructor
  · intro scores hnodup temperature limit s
    exact selectRanked_selected hs hnodup temperature limit s
  · intro hprimary m ops prefixHistory inner now ctx limit ds st' hres
    unfold routeCandidates at hres
    split at hres
    · rw [← Except.ok.inj (Prod.mk.inj hres).1]
      exact ⟨Nat.zero_le limit, List.nodup_nil⟩
    · rename_i hlimit
      have hbackends := e.backends_affinityHead now ctx
        ⟨m.withRegistry (ops.foldl BackendRegistry.step .new), prefixHistory, inner⟩
      split at hres
      · rename_i h st'' hhead
        rw [hhead] at hbackends
        split at hres
        · rw [← Except.ok.inj (Prod.mk.inj hres).1]
          exact ⟨Nat.one_le_iff_ne_zero.2 hlimit, List.nodup_singleton _⟩
        · refine routeRest_distinct hs hprimary ?_ m ops hbackends hres
          exact Nat.one_le_iff_ne_zero.2 hlimit
      · rename_i st'' hhead
        rw [hhead] at hbackends
        refine routeRest_distinct hs hprimary ?_ m ops hbackends hres
        exact Nat.zero_le limit

open TwoBackends

/-- The engine of the two backends at temperature 1, with all candidates alike; its sampler draws
the first index. -/
def warmEngine : RoutingEngine ExtRat Unit :=
  { engine with
    primary := some (.even "even")
    temperature := Floating.ofNat 1
    sampleIndex := samplePlan fun _ => 0 }

/-- Both backends are registered. -/
def bothRegistered : List RegistryOp :=
  [.register ⟨second, [hosted true], ⟨"r1"⟩, ⟨0⟩⟩, .register ⟨first, [hosted true], ⟨"r1"⟩, ⟨0⟩⟩]

theorem distinctIds_even (name : String) :
    DistinctIds (RoutingStrategy.even name : RoutingStrategy F σ) := by
  intro ctx cands store s scores s' hnodup heval
  have hids : scores.map (·.backendId) = cands := by
    rw [← Except.ok.inj (Prod.mk.inj heval).1, List.map_map]
    exact List.map_id cands
  rw [hids]
  exact ⟨hnodup, List.Subset.refl cands⟩

/-- Of two scores one is drawn; and the backend of the session is followed by the other one. -/
theorem ranked_selection_two :
    let scores : List (ScoredBackend ExtRat) :=
      [⟨first, .num 0, .num 0, 0⟩, ⟨second, .num 1, .num 0, 0⟩]
    let st : EngineState ExtRat Unit :=
      ⟨(store (RoutingHistory.new.set 0 session second 0)).withRegistry
        (bothRegistered.foldl BackendRegistry.step .new), PrefixReuseHistory.new 10000, ()⟩
    Selected (Floating.ofNat 1) 1 scores
        (warmEngine.selectRanked scores (Floating.ofNat 1) 1 ()).1 ∧
      ∃ ds st', warmEngine.routeCandidates 0 request 3 st = (.ok ds, st') ∧
        ds.map (·.backend) = [second, first] ∧ ds.length ≤ 3 ∧ (ds.map (·.backend)).Nodup := by
  intro scores st
  obtain ⟨hselect, hroute⟩ := ranked_selection warmEngine (samples_samplePlan fun _ => 0)
  constructor
  · exact hselect scores (by decide) (Floating.ofNat 1) 1 ()
  · have hok : ((warmEngine.routeCandidates 0 request 3 st).1.toOption.map
        fun ds => ds.map (·.backend)) = some [second, first] := by
      decide +kernel
    rcases hres : warmEngine.routeCandidates 0 request 3 st with ⟨err | ds, st'⟩
    · rw [hres] at hok
      exact absurd hok nofun
    · rw [hres] at hok
      exact ⟨ds, st', rfl, Option.some.inj hok,
        hroute (distinctIds_even "even") _ _ _ _ _ _ _ _ _ hres⟩

end RoutingEngine

end HierKvGateway
