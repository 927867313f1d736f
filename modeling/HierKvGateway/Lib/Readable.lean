import Mathlib.Data.List.Basic

/-!
# Lib.Readable — codes that can be read

A code writes a value as a list of symbols. It is readable if a text that begins with a value, with
something behind it that may follow, tells the value and what is behind it. So codes are put
together: one after the other (`Readable.pair`), in brackets (`Readable.enclosed`), any number of
them up to a closing symbol (`Readable.flatMap`), or with a separator between them
(`Readable.separated`).

No code is cut into pieces of its own here; the length of a text is never needed.
-/

/-- What is written of a value, before something that may follow, tells both. -/
def Readable {α β : Type*} (code : α → List β) (ok : α → Prop) (follow : List β → Prop) : Prop :=
  ∀ a b s t, ok a → ok b → follow s → follow t → code a ++ s = code b ++ t → a = b ∧ s = t

/-- The list begins with the symbol. -/
def StartsWith {β : Type*} (x : β) (s : List β) : Prop := s.head? = some x

namespace Readable

variable {α α' β : Type*} {code : α → List β} {ok : α → Prop} {follow : List β → Prop}

/-- The items, with a separator between them. -/
def sepBy (sep : β) (code : α → List β) : List α → List β
  | [] => []
  | a :: l => code a ++ (if l.isEmpty then [] else [sep]) ++ sepBy sep code l

/-- What a reader reads back can be read. -/
theorem of_reader (read : List β → Option (α × List β))
    (h : ∀ a s, ok a → follow s → read (code a ++ s) = some (a, s)) : Readable code ok follow := by
  intro a b s t ha hb hs ht heq
  have hread := h a s ha hs
  rw [heq, h b t hb ht] at hread
  cases hread
  exact ⟨rfl, rfl⟩

/-- A code that can be read at the end of a text is injective. -/
theorem injective (h : Readable code ok follow) (hnil : follow []) {a b : α} (ha : ok a) (hb : ok b)
    (heq : code a = code b) : a = b := by
  refine (h a b [] [] ha hb hnil hnil ?_).1
  rw [heq]

theorem mono (h : Readable code ok follow) {ok' : α → Prop} {follow' : List β → Prop}
    (hok : ∀ a, ok' a → ok a) (hfollow : ∀ s, follow' s → follow s) :
    Readable code ok' follow' := by
  intro a b s t ha hb hs ht heq
  exact h a b s t (hok a ha) (hok b hb) (hfollow s hs) (hfollow t ht) heq

/-- Two codes, one after the other. -/
theorem pair {code' : α' → List β} {ok' : α' → Prop} {follow' : List β → Prop}
    (h : Readable code ok follow) (h' : Readable code' ok' follow')
    (hnext : ∀ b s, ok' b → follow' s → follow (code' b ++ s)) :
    Readable (fun p : α × α' => code p.1 ++ code' p.2) (fun p => ok p.1 ∧ ok' p.2) follow' := by
  rintro ⟨a, a'⟩ ⟨b, b'⟩ s t ⟨ha, ha'⟩ ⟨hb, hb'⟩ hs ht heq
  dsimp only at *
  rw [List.append_assoc, List.append_assoc] at heq
  rcases h a b _ _ ha hb (hnext a' s ha' hs) (hnext b' t hb' ht) heq with ⟨rfl, hrest⟩
  rcases h' a' b' s t ha' hb' hs ht hrest with ⟨rfl, rfl⟩
  exact ⟨rfl, rfl⟩

/-- A code behind a fixed text. -/
theorem behind (h : Readable code ok follow) (start : List β) :
    Readable (fun a => start ++ code a) ok follow := by
  intro a b s t ha hb hs ht heq
  dsimp only at heq
  rw [List.append_assoc, List.append_assoc] at heq
  exact h a b s t ha hb hs ht (List.append_cancel_left heq)

/-- A code in brackets can be followed by anything. -/
theorem enclosed {stop : β} (h : Readable code ok (StartsWith stop)) (start : β)
    (follow : List β → Prop) : Readable (fun a => start :: (code a ++ [stop])) ok follow := by
  intro a b s t ha hb _ _ heq
  have hrest : code a ++ stop :: s = code b ++ stop :: t := by
    simpa using heq
  rcases h a b (stop :: s) (stop :: t) ha hb rfl rfl hrest with ⟨rfl, htail⟩
  exact ⟨rfl, (List.cons.inj htail).2⟩

/-- What begins with a value does not begin with the symbol that no value begins with. -/
theorem not_startsWith {stop : β} (hstop : ∀ a, ok a → code a ≠ [] ∧ ¬StartsWith stop (code a))
    {a : α} (ha : ok a) (s t : List β) : stop :: s ≠ code a ++ t := by
  rcases hstop a ha with ⟨hne, hhead⟩
  rcases List.exists_cons_of_ne_nil hne with ⟨x, rest, hcode⟩
  rw [hcode] at hhead ⊢
  intro heq
  have hx : stop = x := (List.cons.inj heq).1
  exact hhead (congrArg some hx.symm)

/-- Any number of values, up to a symbol that no value begins with. -/
theorem flatMap {stop : β} (h : Readable code ok fun _ => True)
    (hstop : ∀ a, ok a → code a ≠ [] ∧ ¬StartsWith stop (code a)) :
    Readable (fun l : List α => l.flatMap code) (fun l => ∀ a ∈ l, ok a) (StartsWith stop) := by
  intro l m s t hl hm hs ht heq
  rcases List.head?_eq_some_iff.1 hs with ⟨s', rfl⟩
  rcases List.head?_eq_some_iff.1 ht with ⟨t', rfl⟩
  induction l generalizing m with
  | nil =>
    cases m with
    | nil => exact ⟨rfl, heq⟩
    | cons b m =>
      simp only [List.flatMap_nil, List.nil_append, List.flatMap_cons, List.append_assoc] at heq
      exact absurd heq (not_startsWith hstop (hm b List.mem_cons_self) _ _)
  | cons a l ih =>
    have ha := hl a List.mem_cons_self
    cases m with
    | nil =>
      simp only [List.flatMap_nil, List.nil_append, List.flatMap_cons, List.append_assoc] at heq
      exact absurd heq.symm (not_startsWith hstop ha _ _)
    | cons b m =>
      simp only [List.flatMap_cons, List.append_assoc] at heq
      rcases h a b _ _ ha (hm b List.mem_cons_self) trivial trivial heq with ⟨rfl, hrest⟩
      have htail := ih m (fun c hc => hl c (List.mem_cons_of_mem _ hc))
        (fun c hc => hm c (List.mem_cons_of_mem _ hc)) hrest
      rcases htail with ⟨rfl, hst⟩
      exact ⟨rfl, hst⟩

/-- What follows the first of several values: the separator and the others, or the end. -/
theorem sepBy_cons_append (sep : β) (code : α → List β) (a : α) (l : List α) (s : List β) :
    sepBy sep code (a :: l) ++ s =
      code a ++ if l.isEmpty then s else sep :: (sepBy sep code l ++ s) := by
  cases l with
  | nil => simp [sepBy]
  | cons b l => simp [sepBy]

/-- Values with a separator between them, up to a symbol that no value begins with. -/
theorem separated {sep stop : β} (h : Readable code ok follow)
    (hstop : ∀ a, ok a → code a ≠ [] ∧ ¬StartsWith stop (code a)) (hne : sep ≠ stop)
    (hsep : ∀ s, follow (sep :: s)) (hend : ∀ s, follow (stop :: s)) :
    Readable (sepBy sep code) (fun l => ∀ a ∈ l, ok a) (StartsWith stop) := by
  intro l m s t hl hm hs ht heq
  rcases List.head?_eq_some_iff.1 hs with ⟨s', rfl⟩
  rcases List.head?_eq_some_iff.1 ht with ⟨t', rfl⟩
  have hafter : ∀ (l : List α) (s : List β),
      follow (if l.isEmpty then stop :: s else sep :: (sepBy sep code l ++ stop :: s)) := by
    intro l s
    split
    · exact hend s
    · exact hsep _
  induction l generalizing m with
  | nil =>
    cases m with
    | nil => exact ⟨rfl, heq⟩
    | cons b m =>
      rw [sepBy_cons_append] at heq
      exact absurd heq (not_startsWith hstop (hm b List.mem_cons_self) _ _)
  | cons a l ih =>
    have ha := hl a List.mem_cons_self
    cases m with
    | nil =>
      rw [sepBy_cons_append] at heq
      exact absurd heq.symm (not_startsWith hstop ha _ _)
    | cons b m =>
      rw [sepBy_cons_append, sepBy_cons_append] at heq
      rcases h a b _ _ ha (hm b List.mem_cons_self) (hafter l s') (hafter m t') heq with ⟨rfl, hrest⟩
      -- the lists end together: a separator is not the end
      cases l with
      | nil =>
        cases m with
        | nil => exact ⟨rfl, hrest⟩
        | cons c m => exact absurd (List.cons.inj hrest).1.symm hne
      | cons c l =>
        cases m with
        | nil => exact absurd (List.cons.inj hrest).1 hne
        | cons d m =>
          have htail := ih (d :: m) (fun x hx => hl x (List.mem_cons_of_mem _ hx))
            (fun x hx => hm x (List.mem_cons_of_mem _ hx)) (List.cons.inj hrest).2
          rcases htail with ⟨hlm, hst⟩
          rw [hlm]
          exact ⟨rfl, hst⟩

end Readable
