import HierKvGateway.Routing.Engine

/-!
# Routing.Selection — what selection picks

Every pick is one of the scores, whatever the temperature (`RoutingEngine.mem_selectRanked`), so a
decision is the head or comes from the strategy that scored (`RoutingEngine.mem_routeRest`). With
greedy selection nothing is drawn, and the first pick does not depend on how many there are to be
(`RoutingEngine.selectRanked_greedy`).
-/

namespace HierKvGateway

namespace RoutingEngine

/-- A fold that keeps one of two elements ends with one of the list. -/
theorem mem_foldl_pick {α : Type} (keep : α → α → Prop) [DecidableRel keep] (x : α) (xs : List α) :
    xs.foldl (fun best x => if keep best x then best else x) x ∈ x :: xs := by
  induction xs generalizing x with
  | nil => exact List.mem_singleton.2 rfl
  | cons y ys ih =>
    rw [List.foldl_cons]
    have hmem := ih (if keep x y then x else y)
    split at hmem
    · rename_i hkeep
      rw [if_pos hkeep]
      rcases List.mem_cons.1 hmem with heq | hmem
      · exact List.mem_cons.2 (Or.inl heq)
      · exact List.mem_cons_of_mem _ (List.mem_cons_of_mem _ hmem)
    · rename_i hkeep
      rw [if_neg hkeep]
      exact List.mem_cons_of_mem _ hmem

variable {F σ : Type} [Floating F]

theorem greedy_of_ne_nil {scores : List (ScoredBackend F)} (h : scores ≠ []) :
    ∃ pick ∈ scores, greedy scores = some pick := by
  cases scores with
  | nil => exact absurd rfl h
  | cons s scores => exact ⟨_, mem_foldl_pick _ s scores, rfl⟩

variable (e : RoutingEngine F σ) {temperature : F}

theorem mem_selectLoop {limit : Nat} {pool : List (ScoredBackend F)} {s : σ}
    {pick : ScoredBackend F} (h : pick ∈ (e.selectLoop temperature limit pool s).1) :
    pick ∈ pool := by
  induction limit generalizing pool s with
  | zero => exact absurd h List.not_mem_nil
  | succ limit ih =>
    unfold selectLoop at h
    split at h
    · exact absurd h List.not_mem_nil
    · split at h
      · exact absurd h List.not_mem_nil
      · dsimp only at h
        split at h
        · exact absurd h List.not_mem_nil
        · rename_i found hfound
          rcases List.mem_cons.1 h with rfl | h
          · exact List.mem_of_getElem? hfound
          · exact List.mem_of_mem_eraseIdx (ih h)

theorem mem_selectRanked {limit : Nat} {scores ranked : List (ScoredBackend F)} {s s' : σ}
    (h : e.selectRanked scores temperature limit s = (ranked, s')) {pick : ScoredBackend F}
    (hpick : pick ∈ ranked) : pick ∈ scores := by
  unfold selectRanked at h
  apply e.mem_selectLoop
  rw [h]
  exact hpick

theorem length_selectLoop_le (limit : Nat) (scores : List (ScoredBackend F)) (s : σ) :
    (e.selectLoop temperature limit scores s).1.length ≤ limit := by
  induction limit generalizing scores s with
  | zero => exact Nat.le_refl 0
  | succ limit ih =>
    unfold selectLoop
    split
    · exact Nat.zero_le _
    · split
      · exact Nat.zero_le _
      · dsimp only
        split
        · exact Nat.zero_le _
        · exact Nat.succ_le_succ (ih _ _)

/-! ## The decisions -/

omit [Floating F] in
theorem mem_decisions {ctx : RoutingContext} {used : String} {store : MetadataStore F}
    {scores : List (String × F)} {ranked : List (ScoredBackend F)} {d : RouteDecision F}
    (h : d ∈ decisions ctx used store scores ranked) :
    d.strategy = used ∧ ∃ pick ∈ ranked, d.backend = pick.backendId := by
  induction ranked generalizing scores with
  | nil => exact absurd h List.not_mem_nil
  | cons pick ranked ih =>
    rcases List.mem_cons.1 h with rfl | h
    · exact ⟨rfl, pick, List.mem_cons_self, rfl⟩
    · obtain ⟨hused, pick', hmem, hid⟩ := ih h
      exact ⟨hused, pick', List.mem_cons_of_mem _ hmem, hid⟩

omit [Floating F] in
/-- The head stays in front of the decisions. -/
theorem mem_conclude {now : Nat} {ctx : RoutingContext} {head : Option (RouteDecision F)}
    {cands : List BackendId} {used : String} {first : ScoredBackend F}
    {ranked : List (ScoredBackend F)} {st st' : EngineState F σ} {ds : List (RouteDecision F)}
    (hres : e.conclude now ctx head cands used first ranked st = (.ok ds, st'))
    {d : RouteDecision F} (hd : d ∈ ds) :
    (head = some d ∧ ds.head? = some d) ∨
      d.strategy = used ∧ ∃ pick ∈ ranked, d.backend = pick.backendId := by
  unfold conclude at hres
  dsimp only at hres
  split at hres
  · exact absurd (Prod.mk.inj hres).1 nofun
  · rcases Except.ok.inj (Prod.mk.inj hres).1 with rfl
    rcases List.mem_append.1 hd with hhead | hd
    · left
      rw [Option.mem_toList] at hhead
      rw [Option.mem_def.1 hhead]
      exact ⟨rfl, rfl⟩
    · exact Or.inr (mem_decisions hd)

/-- A decision of the list is the head, in front, or a candidate with the name of the strategy
that scored it. -/
theorem mem_routeRest {now : Nat} {ctx : RoutingContext} {limit : Nat}
    {head : Option (RouteDecision F)} {st st' : EngineState F σ} {ds : List (RouteDecision F)}
    (hres : e.routeRest now ctx limit head st = (.ok ds, st')) {d : RouteDecision F} (hd : d ∈ ds) :
    (head = some d ∧ ds.head? = some d) ∨
      candidates ctx (head.map (·.backend)) st.store ≠ [] ∧ ∃ scored st'',
        e.scoreCandidates ctx (candidates ctx (head.map (·.backend)) st.store) st =
          (.ok (scored, d.strategy), st'') ∧ ∃ pick ∈ scored, d.backend = pick.backendId := by
  -- an exit that returns the head alone
  have halone : ∀ h st'', head = some h →
      ((.ok [h], st'') : Except HierKvGatewayError (List (RouteDecision F)) × EngineState F σ) =
        (.ok ds, st') → head = some d ∧ ds.head? = some d := by
    intro h st'' hhead heq
    rcases Except.ok.inj (Prod.mk.inj heq).1 with rfl
    rcases List.mem_singleton.1 hd with rfl
    exact ⟨hhead, rfl⟩
  unfold routeRest at hres
  dsimp only at hres
  split at hres
  · split at hres
    · exact Or.inl (halone _ _ rfl hres)
    · exact absurd (Prod.mk.inj hres).1 nofun
  · rename_i hcands
    split at hres
    · exact absurd (Prod.mk.inj hres).1 nofun
    · rename_i scored used st'' hscore
      split at hres
      · split at hres
        · exact Or.inl (halone _ _ rfl hres)
        · exact absurd (Prod.mk.inj hres).1 nofun
      · rename_i first ranked inner hranked
        rcases e.mem_conclude hres hd with hhead | ⟨rfl, pick, hpick, hid⟩
        · exact Or.inl hhead
        · refine Or.inr ⟨hcands, scored, st'', hscore, pick, ?_, hid⟩
          exact e.mem_selectRanked hranked hpick

/-! ## Greedy selection -/

section Greedy

variable (htemp : Floating.le temperature (Floating.ofNat 0) = true)

include htemp

theorem selectWithTemperature_greedy (pool : List (ScoredBackend F)) (s : σ) :
    e.selectWithTemperature pool temperature s = (greedy pool, s) := by
  unfold selectWithTemperature
  by_cases hnil : pool = []
  · rw [if_pos hnil, hnil]
    rfl
  · rw [if_neg hnil, if_pos htemp]

/-- Nothing is drawn. -/
theorem snd_selectLoop_greedy (limit : Nat) (pool : List (ScoredBackend F)) (s : σ) :
    (e.selectLoop temperature limit pool s).2 = s := by
  induction limit generalizing pool with
  | zero => rfl
  | succ limit ih =>
    unfold selectLoop
    rw [e.selectWithTemperature_greedy htemp]
    split
    · rfl
    · split
      · rename_i heq
        exact (Prod.mk.inj heq).2.symm
      · rename_i heq
        rcases (Prod.mk.inj heq).2 with rfl
        dsimp only
        split
        · rfl
        · exact ih _

/-- The first pick is fixed; the limit bounds the others. -/
theorem selectRanked_greedy {pool : List (ScoredBackend F)} (hpool : pool ≠ []) :
    ∃ first, ∀ limit s, ∃ rest, rest.length ≤ limit ∧
      e.selectRanked pool temperature (limit + 1) s = (first :: rest, s) := by
  obtain ⟨pick, hpick, hgreedy⟩ := greedy_of_ne_nil hpool
  have hfound : ∃ x ∈ pool, decide (x.backendId = pick.backendId) = true :=
    ⟨pick, hpick, decide_eq_true rfl⟩
  have hpos := List.findIdx_lt_length_of_exists hfound
  refine ⟨pool[pool.findIdx fun x => decide (x.backendId = pick.backendId)], ?_⟩
  intro limit s
  unfold selectRanked selectLoop
  rw [if_neg hpool, e.selectWithTemperature_greedy htemp, hgreedy]
  dsimp only
  rw [List.getElem?_eq_getElem hpos]
  exact ⟨_, e.length_selectLoop_le _ _ _, Prod.ext rfl (e.snd_selectLoop_greedy htemp _ _ _)⟩

end Greedy

end RoutingEngine

end HierKvGateway
