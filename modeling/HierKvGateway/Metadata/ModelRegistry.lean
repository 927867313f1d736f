import HierKvGateway.Core.Floating
import HierKvGateway.Core.Request
import Mathlib.Data.List.AList

/-!
# Metadata.ModelRegistry — the models of each backend

Which models a backend hosts and how well they match a name (`model_registry.rs`): the exact
name counts 1, the name of the architecture 0.7, the best of a backend's models counts.
-/

namespace HierKvGateway

/-- The models of each backend. -/
structure ModelRegistry where
  backends : AList fun _ : BackendId => List ModelInstance

namespace ModelRegistry

/-- `ModelRegistry::new`. -/
def new : ModelRegistry := ⟨∅⟩

/-- Replace the models of a backend. -/
def register (backend : BackendId) (models : List ModelInstance) (r : ModelRegistry) :
    ModelRegistry := ⟨r.backends.insert backend models⟩

/-- Forget a backend. -/
def unregister (backend : BackendId) (r : ModelRegistry) : ModelRegistry :=
  ⟨r.backends.erase backend⟩

/-- The models of a backend. -/
def getInstances (r : ModelRegistry) (backend : BackendId) : List ModelInstance :=
  (r.backends.lookup backend).getD []

/-- The name is the model's, or that of its architecture. -/
def nameMatches (m : ModelInstance) (modelName : String) : Bool :=
  m.modelName == modelName || (!m.modelArchitecture.isEmpty && m.modelArchitecture == modelName)

section Score

variable {F : Type} [Floating F]

/-- How well a model matches a name. -/
def matchScore (m : ModelInstance) (modelName : String) : F :=
  if m.modelName = modelName then Floating.ofNat 1
  else if ¬m.modelArchitecture.isEmpty ∧ m.modelArchitecture = modelName then Floating.lit 7 1
  else Floating.ofNat 0

/-- How well a backend matches a name. -/
def modelMatchScore (r : ModelRegistry) (backend : BackendId) (modelName : String) : F :=
  match r.backends.lookup backend with
  | none => Floating.ofNat 0
  | some models =>
    models.foldl
      (fun best m =>
        let score := matchScore m modelName
        if Floating.lt best score then score else best)
      (Floating.ofNat 0)

/-- A match counts 1, 0.7 or nothing. -/
theorem modelMatchScore_cases (r : ModelRegistry) (backend : BackendId) (modelName : String) :
    (r.modelMatchScore backend modelName : F) = Floating.ofNat 0 ∨
      (r.modelMatchScore backend modelName : F) = Floating.ofNat 1 ∨
        (r.modelMatchScore backend modelName : F) = Floating.lit 7 1 := by
  have hmatch : ∀ m : ModelInstance, (matchScore m modelName : F) = Floating.ofNat 0 ∨
      (matchScore m modelName : F) = Floating.ofNat 1 ∨
        (matchScore m modelName : F) = Floating.lit 7 1 := by
    intro m
    unfold matchScore
    split
    · exact Or.inr (Or.inl rfl)
    · split
      · exact Or.inr (Or.inr rfl)
      · exact Or.inl rfl
  have hfold : ∀ (models : List ModelInstance) (best : F),
      (best = Floating.ofNat 0 ∨ best = Floating.ofNat 1 ∨ best = Floating.lit 7 1) →
        ∀ score, models.foldl (fun best m =>
            let score := matchScore m modelName
            if Floating.lt best score then score else best) best = score →
          score = Floating.ofNat 0 ∨ score = Floating.ofNat 1 ∨ score = Floating.lit 7 1 := by
    intro models
    induction models with
    | nil => exact fun best hbest score heq => heq ▸ hbest
    | cons m models ih =>
      intro best hbest score heq
      refine ih _ ?_ score heq
      dsimp only
      split
      · exact hmatch m
      · exact hbest
  unfold modelMatchScore
  split
  · exact Or.inl rfl
  · exact hfold _ _ (Or.inl rfl) _ rfl

variable (F) in
/-- The backends that match a name at all. -/
def modelFindBackends (r : ModelRegistry) (modelName : String) : List BackendId :=
  r.backends.entries.filterMap fun ⟨backend, models⟩ =>
    let score : F := (models.map fun m => matchScore m modelName).foldl Floating.max (Floating.ofNat 0)
    if Floating.lt (Floating.ofNat 0) score then some backend else none

variable (F) in
/-- They are registered, each once. -/
theorem modelFindBackends_sublist (r : ModelRegistry) (modelName : String) :
    (r.modelFindBackends F modelName).Sublist r.backends.keys := by
  unfold modelFindBackends AList.keys List.keys
  induction r.backends.entries with
  | nil => exact List.Sublist.slnil
  | cons e entries ih =>
    rcases e with ⟨backend, models⟩
    rw [List.filterMap_cons, List.map_cons]
    dsimp only
    split
    · exact ih.cons backend
    · rename_i heq
      split at heq
      · rw [← Option.some.inj heq]
        exact ih.cons_cons backend
      · exact absurd heq nofun

end Score

end ModelRegistry

end HierKvGateway
