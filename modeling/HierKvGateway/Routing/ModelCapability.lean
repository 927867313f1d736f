import HierKvGateway.Core.Rounded
import HierKvGateway.Routing.Failover

/-!
# Routing.ModelCapability — one model for all that a request asks for

A backend hosts several models, and a request needs one that has the name, the context length and
the tools. The model filter asks for these one by one: one of the models may be long enough and
another one have the tools. And it counts the tokens in 32 bits.

`ModelAwareStrategy.exact_iff`: apart from that, the filter is exact.
-/

namespace HierKvGateway

namespace ModelRegistry

variable {F : Type} [Floating F] [RoundedFloating F] {m : ModelInstance}

open RoundedFloating

/-! ## The match score -/

/-- 0.7, rounded. -/
theorem val_lit_seven : ∃ q, val (Floating.lit 7 1 : F) = .num q ∧ 1 / 2 ≤ q ∧ q ≤ 1 := by
  have hhalf : round F (1 / 2) = .num (1 / 2) := by
    have h := round_half (F := F) (n := 1) (by norm_num)
    rwa [Nat.cast_one] at h
  have hone : round F 1 = .num 1 := round_val (val_one (F := F))
  rw [val_lit]
  exact round_between hhalf hone (by norm_num) (by norm_num)

theorem matchScore_pos_iff {modelName : String} :
    Floating.lt (Floating.ofNat 0) (matchScore m modelName : F) = true ↔
      nameMatches m modelName = true := by
  have hone : Floating.lt (Floating.ofNat 0) (Floating.ofNat 1 : F) = true :=
    (zero_lt_iff_of_val val_one).2 one_pos
  have hzero : ¬Floating.lt (Floating.ofNat 0) (Floating.ofNat 0 : F) = true :=
    fun h => lt_irrefl (0 : Rat) ((zero_lt_iff_of_val val_zero).1 h)
  obtain ⟨q, hq, hhalf, -⟩ := val_lit_seven (F := F)
  have hseven : Floating.lt (Floating.ofNat 0) (Floating.lit 7 1 : F) = true := by
    rw [zero_lt_iff_of_val hq]
    linarith
  unfold matchScore nameMatches
  rw [Bool.or_eq_true, Bool.and_eq_true, beq_iff_eq, beq_iff_eq, Bool.not_eq_true']
  split
  · rename_i hname
    exact iff_of_true hone (Or.inl hname)
  · rename_i hname
    split
    · rename_i harch
      exact iff_of_true hseven (Or.inr ⟨Bool.eq_false_iff.2 harch.1, harch.2⟩)
    · rename_i harch
      refine iff_of_false hzero ?_
      rintro (h | ⟨h, h'⟩)
      · exact hname h
      · exact harch ⟨Bool.eq_false_iff.1 h, h'⟩

/-- The best score of some models. -/
theorem foldl_matchScore_pos_iff (models : List ModelInstance) (modelName : String) {best : F}
    (hbest : Floating.le (Floating.ofNat 0) best = true) :
    Floating.lt (Floating.ofNat 0) (models.foldl
        (fun best m =>
          let score := matchScore m modelName
          if Floating.lt best score then score else best) best) = true ↔
      Floating.lt (Floating.ofNat 0) best = true ∨ ∃ m ∈ models, nameMatches m modelName = true := by
  induction models generalizing best with
  | nil =>
    constructor
    · exact Or.inl
    · rintro (h | ⟨m, hm, -⟩)
      · exact h
      · exact absurd hm List.not_mem_nil
  | cons m models ih =>
    rw [List.foldl_cons, List.exists_mem_cons_iff]
    dsimp only
    split
    · -- the score of `m` is better than what was the best
      rename_i hlt
      have hpos := lt_of_le_of_lt hbest hlt
      rw [ih (le_of_lt hpos), iff_true_left (Or.inl hpos)]
      exact Or.inr (Or.inl (matchScore_pos_iff.1 hpos))
    · rename_i hnlt
      rw [ih hbest]
      constructor
      · rintro (h | h)
        · exact Or.inl h
        · exact Or.inr (Or.inr h)
      · rintro (h | h | h)
        · exact Or.inl h
        · -- `m` matches, so that the best was positive before
          left
          by_contra hneg
          obtain ⟨hzero, hnan, -⟩ := le_iff.1 hbest
          exact hnlt (lt_of_le_of_lt (le_of_not_lt hzero hnan hneg) (matchScore_pos_iff.2 h))
        · exact Or.inr h

/-- A backend matches a name if one of its models does. -/
theorem modelMatchScore_pos_iff (r : ModelRegistry) (backend : BackendId) (modelName : String) :
    Floating.lt (Floating.ofNat 0) (r.modelMatchScore backend modelName : F) = true ↔
      ∃ m ∈ r.getInstances backend, nameMatches m modelName = true := by
  have hzero : Floating.le (Floating.ofNat 0) (Floating.ofNat 0 : F) = true :=
    (zero_le_iff_of_val val_zero).2 le_rfl
  have hnot : ¬Floating.lt (Floating.ofNat 0) (Floating.ofNat 0 : F) = true :=
    fun h => lt_irrefl (0 : Rat) ((zero_lt_iff_of_val val_zero).1 h)
  unfold modelMatchScore getInstances
  rcases r.backends.lookup backend with _ | models
  · refine iff_of_false hnot ?_
    rintro ⟨m, hm, -⟩
    exact absurd hm List.not_mem_nil
  · dsimp only
    rw [foldl_matchScore_pos_iff models modelName hzero, or_iff_right hnot]
    rfl

/-- The maximum of some scores, started with a number. -/
theorem zero_lt_foldl_max {scores : List F} {best : F} (hbest : ¬IsNan best)
    (hpos : Floating.lt (Floating.ofNat 0) best = true ∨
      ∃ score ∈ scores, Floating.lt (Floating.ofNat 0) score = true) :
    Floating.lt (Floating.ofNat 0) (scores.foldl Floating.max best) = true := by
  induction scores generalizing best with
  | nil =>
    rcases hpos with h | ⟨score, hmem, -⟩
    · exact h
    · exact absurd hmem List.not_mem_nil
  | cons score scores ih =>
    rw [List.foldl_cons, max_of_num hbest]
    split
    · next hle =>
      refine ih (le_iff.1 hle).2.1 ?_
      rcases hpos with h | ⟨other, hmem, h⟩
      · obtain ⟨hzero, -, hlt⟩ := lt_iff.1 h
        obtain ⟨-, hscore, hle⟩ := le_iff.1 hle
        exact Or.inl (lt_iff.2 ⟨hzero, hscore, hlt.trans_le hle⟩)
      · rcases List.mem_cons.1 hmem with rfl | hmem
        · exact Or.inl h
        · exact Or.inr ⟨other, hmem, h⟩
    · next hnle =>
      refine ih hbest ?_
      rcases hpos with h | ⟨other, hmem, h⟩
      · exact Or.inl h
      · rcases List.mem_cons.1 hmem with rfl | hmem
        · -- what is positive and no better than the best is below it
          left
          by_contra hneg
          obtain ⟨hzero, hnan, -⟩ := lt_iff.1 h
          exact hnle (le_of_lt (lt_of_le_of_lt (le_of_not_lt hzero hbest hneg) h))
        · exact Or.inr ⟨other, hmem, h⟩

/-- A backend is found by every name that one of its models matches. -/
theorem mem_modelFindBackends {r : ModelRegistry} {backend : BackendId} {modelName : String}
    {m : ModelInstance} (hm : m ∈ r.getInstances backend) (hname : nameMatches m modelName = true) :
    backend ∈ r.modelFindBackends F modelName := by
  unfold getInstances at hm
  cases hlookup : r.backends.lookup backend with
  | none =>
    rw [hlookup] at hm
    exact absurd hm List.not_mem_nil
  | some models =>
    rw [hlookup] at hm
    have hpos : Floating.lt (Floating.ofNat 0) ((models.map fun m => matchScore m modelName).foldl
        Floating.max (Floating.ofNat 0 : F)) = true :=
      zero_lt_foldl_max (not_isNan_of_val val_zero)
        (Or.inr ⟨_, List.mem_map_of_mem hm, matchScore_pos_iff.2 hname⟩)
    exact List.mem_filterMap.2 ⟨⟨backend, models⟩, AList.mem_lookup_iff.1 hlookup, if_pos hpos⟩

end ModelRegistry

namespace ModelAwareStrategy

variable {F σ : Type} [Floating F] [RoundedFloating F]

open RoundedFloating

/-! ## The filter -/

/-- The models of a backend that have the name. -/
def named (ctx : RoutingContext) (store : MetadataStore F) (cand : BackendId) :
    List ModelInstance :=
  (store.modelGetInstances cand).filter (ModelRegistry.nameMatches · (ctx.modelName.getD ""))

/-- The score of a match is positive. -/
theorem score_pos {matchScore : F}
    (h : matchScore = Floating.ofNat 1 ∨ matchScore = Floating.lit 7 1) :
    Floating.lt (Floating.ofNat 0)
      (Floating.ofNat 1 / (Floating.ofNat 1 + (Floating.ofNat 1 - matchScore))) = true := by
  have hzero : round F 0 = .num 0 := round_val (val_zero (F := F))
  have hone : round F 1 = .num 1 := round_val (val_one (F := F))
  have htwo : round F 2 = .num 2 := by
    have h := round_nat (F := F) (n := 2) (by norm_num)
    rwa [Nat.cast_two] at h
  -- the match score is between 0 and 1, hence so is the cost
  obtain ⟨q, hq, hq0, hq1⟩ : ∃ q, val matchScore = .num q ∧ 0 ≤ q ∧ q ≤ 1 := by
    rcases h with rfl | rfl
    · exact ⟨1, val_one, zero_le_one, le_rfl⟩
    · obtain ⟨q, hq, hhalf, hle⟩ := ModelRegistry.val_lit_seven (F := F)
      exact ⟨q, hq, by linarith, hle⟩
  obtain ⟨cost, hcost, hcost0, hcost1⟩ :
      ∃ c, val (Floating.ofNat 1 - matchScore) = .num c ∧ 0 ≤ c ∧ c ≤ 1 := by
    rw [val_sub, val_one, hq]
    exact round_between hzero hone (by linarith) (by linarith)
  obtain ⟨d, hd, hd1, -⟩ :
      ∃ d, val (Floating.ofNat 1 + (Floating.ofNat 1 - matchScore)) = .num d ∧ 1 ≤ d ∧ d ≤ 2 := by
    rw [val_add, val_one, hcost]
    exact round_between hone htwo (by linarith) (by linarith)
  refine one_div_pos val_one (isFinite_iff.2 ⟨d, hd⟩) ((zero_lt_iff_of_val hd).2 ?_)
  linarith

/-- What the filter asks of a backend: a model that has the name and is long enough, and one that
has the name and the tools. -/
theorem passes_iff (ctx : RoutingContext) (store : MetadataStore F) (cand : BackendId) :
    Passes ctx store cand ↔
      (∃ inst ∈ named ctx store cand, ctxOk ctx inst = true) ∧
        ∃ inst ∈ named ctx store cand, toolOk ctx inst = true := by
  have hnone : ¬Floating.lt (Floating.ofNat 0) (Floating.ofNat 0 : F) = true :=
    fun h => lt_irrefl (0 : Rat) ((zero_lt_iff_of_val val_zero).1 h)
  have hscore := ModelRegistry.modelMatchScore_cases (F := F) store.models cand
    (ctx.modelName.getD "")
  have hpos := ModelRegistry.modelMatchScore_pos_iff (F := F) store.models cand
    (ctx.modelName.getD "")
  unfold Passes scoreOf MetadataStore.modelMatchScore
  dsimp only
  generalize (store.models.modelMatchScore cand (ctx.modelName.getD "") : F) = score at hscore hpos ⊢
  split
  · -- no model has the name
    rename_i hle
    refine iff_of_false hnone ?_
    rintro ⟨⟨inst, hinst, -⟩, -⟩
    obtain ⟨hmem, hname⟩ := List.mem_filter.1 hinst
    have hlt := hpos.2 ⟨inst, hmem, hname⟩
    exact (lt_iff_not_le (lt_iff.1 hlt).1 (lt_iff.1 hlt).2.1).1 hlt hle
  · rename_i hle
    have hmatch : score = Floating.ofNat 1 ∨ score = Floating.lit 7 1 := by
      refine hscore.resolve_left ?_
      rintro rfl
      exact hle ((zero_le_iff_of_val val_zero).2 le_rfl)
    unfold named
    rw [← List.any_eq_true, ← List.any_eq_true]
    split
    · rename_i hfails
      refine iff_of_false hnone ?_
      rintro ⟨hctx, htool⟩
      rw [hctx, htool] at hfails
      exact absurd hfails Bool.false_ne_true
    · rename_i hok
      rw [Bool.or_eq_true, not_or, Bool.not_eq_true', Bool.not_eq_true', Bool.not_eq_false,
        Bool.not_eq_false] at hok
      exact iff_of_true (score_pos hmatch) hok

/-! ## One model for all -/

/-- The model has the name, is long enough, and has the tools if they are asked for. -/
def Serves (ctx : RoutingContext) (inst : ModelInstance) : Prop :=
  ModelRegistry.nameMatches inst (ctx.modelName.getD "") = true ∧
    (ctx.tokenIds = [] ∨ ctx.tokenIds.length ≤ inst.maxContextLen.toNat) ∧
      (ctx.requiresToolCalling = true → inst.supportsToolCalling = true)

/-- The candidates with a positive score are those that have a model for all that is asked for. -/
def Exact (ctx : RoutingContext) (candidates : List BackendId) (store : MetadataStore F) (s : σ) :
    Prop :=
  ∃ scores, (strategy : RoutingStrategy F σ).evaluate ctx candidates store s = (.ok scores, s) ∧
    scores.map (·.backendId) = candidates ∧
      ∀ scored ∈ scores, Floating.lt (Floating.ofNat 0) scored.score = true ↔
        ∃ inst ∈ store.modelGetInstances scored.backendId, Serves ctx inst

/-- What the request asks for is there, but not with one model. -/
def Spread (ctx : RoutingContext) (store : MetadataStore F) (cand : BackendId) : Prop :=
  (∃ inst ∈ named ctx store cand, ctxOk ctx inst = true) ∧
    (∃ inst ∈ named ctx store cand, toolOk ctx inst = true) ∧
      ∀ inst ∈ named ctx store cand, ctxOk ctx inst = true → toolOk ctx inst = true → False

/-- A model seems to be long enough, but none with the tools is. -/
def Wrapped (ctx : RoutingContext) (store : MetadataStore F) (cand : BackendId) : Prop :=
  (∃ inst ∈ named ctx store cand, ctxOk ctx inst = true ∧ toolOk ctx inst = true) ∧
    ∀ inst ∈ named ctx store cand, toolOk ctx inst = true →
      ctx.tokenIds ≠ [] ∧ inst.maxContextLen.toNat < ctx.tokenIds.length

variable {ctx : RoutingContext} {store : MetadataStore F} {cand : BackendId}

theorem toolOk_iff {inst : ModelInstance} :
    toolOk ctx inst = true ↔ (ctx.requiresToolCalling = true → inst.supportsToolCalling = true) := by
  unfold toolOk
  cases ctx.requiresToolCalling with
  | false => simp
  | true => simp

/-- A model that is long enough passes the check in 32 bits. -/
theorem ctxOk_of_length {inst : ModelInstance}
    (h : ctx.tokenIds = [] ∨ ctx.tokenIds.length ≤ inst.maxContextLen.toNat) :
    ctxOk ctx inst = true := by
  unfold ctxOk
  rw [Bool.or_eq_true, beq_iff_eq, decide_eq_true_eq]
  rcases h with hnil | hle
  · left
    rw [hnil]
    rfl
  · right
    rw [BitVec.le_def, BitVec.toNat_ofNat]
    exact (Nat.mod_le _ _).trans hle

omit [Floating F] [RoundedFloating F] in
theorem exists_serves_iff :
    (∃ inst ∈ store.modelGetInstances cand, Serves ctx inst) ↔
      ∃ inst ∈ named ctx store cand, toolOk ctx inst = true ∧
        (ctx.tokenIds = [] ∨ ctx.tokenIds.length ≤ inst.maxContextLen.toNat) := by
  constructor
  · rintro ⟨inst, hinst, hname, hlen, htool⟩
    exact ⟨inst, List.mem_filter.2 ⟨hinst, hname⟩, toolOk_iff.2 htool, hlen⟩
  · rintro ⟨inst, hinst, htool, hlen⟩
    obtain ⟨hmem, hname⟩ := List.mem_filter.1 hinst
    exact ⟨inst, hmem, hname, hlen, toolOk_iff.1 htool⟩

/-- The filter is wrong about a backend exactly if what is asked for is spread over its models, or
the count of the tokens wraps around. -/
theorem passes_iff_serves :
    (Passes ctx store cand ↔ ∃ inst ∈ store.modelGetInstances cand, Serves ctx inst) ↔
      ¬Spread ctx store cand ∧ ¬Wrapped ctx store cand := by
  rw [passes_iff, exists_serves_iff]
  constructor
  · intro hexact
    constructor
    · rintro ⟨hctx, htool, hnone⟩
      obtain ⟨inst, hinst, htool, hlen⟩ := hexact.1 ⟨hctx, htool⟩
      exact hnone inst hinst (ctxOk_of_length hlen) htool
    · rintro ⟨⟨inst, hinst, hctx, htool⟩, hshort⟩
      obtain ⟨inst, hinst, htool, hlen⟩ := hexact.1 ⟨⟨inst, hinst, hctx⟩, inst, hinst, htool⟩
      obtain ⟨hne, hlt⟩ := hshort inst hinst htool
      rcases hlen with hnil | hle
      · exact hne hnil
      · omega
  · rintro ⟨hspread, hwrapped⟩
    constructor
    · rintro ⟨hctx, htool⟩
      -- one of the models passes both checks, and one with the tools is long enough
      by_contra hnone
      apply hwrapped
      constructor
      · by_contra hboth
        refine hspread ⟨hctx, htool, ?_⟩
        exact fun inst hinst hctx htool => hboth ⟨inst, hinst, hctx, htool⟩
      · intro inst hinst htool
        constructor
        · exact fun hnil => hnone ⟨inst, hinst, htool, Or.inl hnil⟩
        · by_contra hlt
          exact hnone ⟨inst, hinst, htool, Or.inr (Nat.not_lt.1 hlt)⟩
    · rintro ⟨inst, hinst, htool, hlen⟩
      exact ⟨⟨inst, hinst, ctxOk_of_length hlen⟩, inst, hinst, htool⟩

omit [Floating F] [RoundedFloating F] in
/-- The count wraps around from 2^32 tokens on. -/
theorem length_of_wrapped (h : Wrapped ctx store cand) : 2 ^ 32 ≤ ctx.tokenIds.length := by
  obtain ⟨⟨inst, hinst, hctx, htool⟩, hshort⟩ := h
  obtain ⟨hne, hlt⟩ := hshort inst hinst htool
  have hpos := List.length_pos_iff.2 hne
  unfold ctxOk at hctx
  rw [Bool.or_eq_true, beq_iff_eq, decide_eq_true_eq, BitVec.le_def, ← BitVec.toNat_inj,
    BitVec.toNat_ofNat] at hctx
  by_contra hsmall
  rw [Nat.mod_eq_of_lt (by omega)] at hctx
  rcases hctx with hzero | hle
  · have hzero : ctx.tokenIds.length = 0 := hzero
    omega
  · omega

omit [Floating F] [RoundedFloating F] in
/-- A request without tools is not spread over several models. -/
theorem not_spread_of_no_tools (h : ctx.requiresToolCalling = false) : ¬Spread ctx store cand := by
  rintro ⟨⟨inst, hinst, hctx⟩, -, hnone⟩
  refine hnone inst hinst hctx (toolOk_iff.2 ?_)
  rw [h]
  exact nofun

omit [RoundedFloating F] in
theorem Exact.mem {candidates : List BackendId} {s : σ} (h : Exact ctx candidates store s)
    (hcand : cand ∈ candidates) :
    Passes ctx store cand ↔ ∃ inst ∈ store.modelGetInstances cand, Serves ctx inst := by
  obtain ⟨scores, heval, -, hexact⟩ := h
  rw [← Except.ok.inj (Prod.mk.inj heval).1] at hexact
  have hscored := hexact _ (List.mem_map_of_mem hcand)
  rw [backendId_scoreOf] at hscored
  exact hscored

/-- The filter is exact, apart from requests that are spread over the models of a candidate and
counts that wrap around. -/
theorem exact_iff (ctx : RoutingContext) (candidates : List BackendId) (store : MetadataStore F)
    (s : σ) :
    Exact ctx candidates store s ↔
      ∀ cand ∈ candidates, ¬Spread ctx store cand ∧ ¬Wrapped ctx store cand := by
  constructor
  · intro hexact cand hcand
    exact passes_iff_serves.1 (hexact.mem hcand)
  · intro h
    refine ⟨_, rfl, ?_, ?_⟩
    · rw [List.map_map]
      refine (List.map_congr_left ?_).trans (List.map_id candidates)
      exact fun cand _ => backendId_scoreOf ctx store cand
    · intro scored hscored
      obtain ⟨cand, hcand, rfl⟩ := List.mem_map.1 hscored
      rw [backendId_scoreOf]
      exact passes_iff_serves.2 (h cand hcand)

/-- A backend with a long model without tools and a short one with them. -/
def longAndShort : MetadataStore ExtRat :=
  { TwoBackends.store .new with
    models := ModelRegistry.new.register TwoBackends.first
      [⟨"m", "", 4096, false⟩, ⟨"m", "", 128, true⟩] }

/-- A request of 1000 tokens with tools. -/
def longWithTools : RoutingContext :=
  { TwoBackends.request with tokenIds := List.replicate 1000 0 }

/-- It passes, though neither model can serve it. -/
theorem not_exact_spread : ¬Exact longWithTools [TwoBackends.first] longAndShort () := by
  have hspread : Spread longWithTools longAndShort TwoBackends.first := by
    unfold Spread
    decide +kernel
  intro hexact
  exact (passes_iff_serves.1 (hexact.mem List.mem_cons_self)).1 hspread

end ModelAwareStrategy

end HierKvGateway
