import Mathlib.Data.List.Basic
import Mathlib.Tactic.TypeStar

/-!
# Lib.Polling — streams that are polled

A stream is asked for its next item again and again: a poll yields an item, or nothing at the end of
the stream, and leaves the stream in its next state. What a poll sees beyond the state, such as the
time, is its input.

* `Polling.item`: what a stream yields at each poll; `Polling.state_inv` is the induction on a run.
* `Polling.Yields`: the stream yields these items, and then nothing. `Polling.Emits`: and nothing
  ever after.
* `Polling.once`, `Polling.map`, `Polling.chain`: the combinators, with what they yield when their
  parts end, and when they do not.
* `Polling.item_abs`: two streams of which one is an abstraction of the other yield the same items.
-/

/-- A stream: for an input and a state, the item and the next state. -/
abbrev Poll (ι σ α : Type*) := ι → σ → Option α × σ

namespace Polling

variable {ι σ τ α β : Type*}

/-- The state after some polls. -/
def state (poll : Poll ι σ α) (input : Nat → ι) (s : σ) : Nat → σ
  | 0 => s
  | n + 1 => (poll (input n) (state poll input s n)).2

/-- What a poll yields, counted from 0. -/
def item (poll : Poll ι σ α) (input : Nat → ι) (s : σ) (n : Nat) : Option α :=
  (poll (input n) (state poll input s n)).1

variable {poll : Poll ι σ α} {input : Nat → ι} {s : σ}

/-- Induction on a run: what every poll keeps holds throughout. -/
theorem state_inv {I : σ → Prop} (hstep : ∀ i s, I s → I (poll i s).2) (hs : I s)
    (n : Nat) : I (state poll input s n) := by
  induction n with
  | zero => exact hs
  | succ n ih => exact hstep (input n) _ ih

/-- The first poll, and then a run from the state after it. -/
theorem state_succ (n : Nat) :
    state poll input s (n + 1) =
      state poll (fun k => input (k + 1)) (poll (input 0) s).2 n := by
  induction n with
  | zero => rfl
  | succ n ih =>
    show (poll (input (n + 1)) (state poll input s (n + 1))).2 = _
    rw [ih]
    rfl

theorem item_succ (n : Nat) :
    item poll input s (n + 1) =
      item poll (fun k => input (k + 1)) (poll (input 0) s).2 n := by
  show (poll (input (n + 1)) (state poll input s (n + 1))).1 = _
  rw [state_succ]
  rfl

/-- States that the first poll does not tell apart. -/
theorem item_congr {s' : σ} (h : poll (input 0) s = poll (input 0) s') (n : Nat) :
    item poll input s n = item poll input s' n := by
  cases n with
  | zero => exact congrArg Prod.fst h
  | succ n => rw [item_succ, item_succ, h]

/-- A stream yields the items of its abstraction: `abs` takes each poll of the one to a poll of the
other, in the states that meet an invariant. -/
theorem item_abs {absPoll : Poll ι τ α} {abs : σ → τ} {I : σ → Prop}
    (hstep : ∀ i s, I s → I (poll i s).2)
    (habs : ∀ i s, I s → ((poll i s).1, abs (poll i s).2) = absPoll i (abs s))
    (hs : I s) (n : Nat) : item poll input s n = item absPoll input (abs s) n := by
  induction n generalizing s input with
  | zero => exact congrArg Prod.fst (habs (input 0) s hs)
  | succ n ih =>
    have hnext : abs (poll (input 0) s).2 = (absPoll (input 0) (abs s)).2 :=
      congrArg Prod.snd (habs (input 0) s hs)
    rw [item_succ, item_succ, ← hnext]
    exact ih (hstep (input 0) s hs)

/-- A stream whose states do not depend on the inputs yields the same under all of them, as far as
what is looked at does not depend on the input of the poll. -/
theorem item_input {f : Option α → β} {input' : Nat → ι}
    (hitem : ∀ i j s, f (poll i s).1 = f (poll j s).1)
    (hstate : ∀ i j s, (poll i s).2 = (poll j s).2) (n : Nat) :
    f (item poll input s n) = f (item poll input' s n) := by
  have hsame : state poll input s n = state poll input' s n := by
    induction n with
    | zero => rfl
    | succ n ih =>
      show (poll (input n) _).2 = (poll (input' n) _).2
      rw [ih, hstate]
  unfold item
  rw [hsame]
  exact hitem _ _ _

/-! ## Ends -/

/-- The stream yields these items, and then nothing at the next poll. -/
def Yields (poll : Poll ι σ α) (input : Nat → ι) (s : σ) : List α → Prop
  | [] => (poll (input 0) s).1 = none
  | a :: l =>
    (poll (input 0) s).1 = some a ∧
      Yields poll (fun k => input (k + 1)) (poll (input 0) s).2 l

theorem Yields.item_lt {l : List α} (h : Yields poll input s l) {n : Nat} (hn : n < l.length) :
    item poll input s n = some l[n] := by
  induction n generalizing l s input with
  | zero =>
    cases l with
    | nil => exact absurd hn (Nat.lt_irrefl 0)
    | cons a l => exact h.1
  | succ n ih =>
    cases l with
    | nil => exact absurd hn (Nat.not_lt_zero _)
    | cons a l =>
      rw [item_succ]
      exact ih h.2 (Nat.lt_of_succ_lt_succ hn)

/-- The polls yield these items, in order, and nothing after them. -/
def Emits (poll : Poll ι σ α) (input : Nat → ι) (s : σ) (l : List α) : Prop :=
  ∀ n, item poll input s n = l[n]?

/-- A poll that finds nothing and changes nothing is at the end. -/
theorem emits_nil (h : ∀ i, poll i s = (none, s)) : Emits poll input s [] := by
  intro n
  have hstate : state poll input s n = s :=
    state_inv (I := fun t => t = s) (fun i t ht => by rw [ht, h]) rfl n
  unfold item
  rw [hstate, h]
  rfl

theorem Emits.cons {a : α} {l : List α} (h : (poll (input 0) s).1 = some a)
    (hl : Emits poll (fun k => input (k + 1)) (poll (input 0) s).2 l) :
    Emits poll input s (a :: l) := by
  intro n
  cases n with
  | zero => exact h
  | succ n =>
    rw [item_succ]
    exact hl n

theorem Emits.congr {s' : σ} {l : List α} (hl : Emits poll input s' l)
    (h : poll (input 0) s = poll (input 0) s') : Emits poll input s l := by
  intro n
  rw [item_congr h]
  exact hl n

/-! ## Combinators -/

/-- A stream of one item (`stream::once`); the state says whether it is still to come. -/
def once (f : ι → α) : Poll ι Bool α
  | i, true => (some (f i), false)
  | _, false => (none, false)

/-- `StreamExt::map`. -/
def map (f : ι → α → β) (poll : Poll ι σ α) : Poll ι σ β := fun i s =>
  ((poll i s).1.map (f i), (poll i s).2)

/-- `StreamExt::chain`: the second stream is polled once the first, which is then dropped, has
ended. -/
def chain (first : Poll ι σ α) (second : Poll ι τ α) : Poll ι (Option σ × τ) α
  | i, (some s, t) =>
    match first i s with
    | (some a, s') => (some a, (some s', t))
    | (none, _) => ((second i t).1, (none, (second i t).2))
  | i, (none, t) => ((second i t).1, (none, (second i t).2))

variable {second : Poll ι τ α} {t : τ}

theorem item_map (f : ι → α → β) (n : Nat) :
    item (map f poll) input s n = (item poll input s n).map (f (input n)) := by
  have hstate : state (map f poll) input s n = state poll input s n := by
    induction n with
    | zero => rfl
    | succ n ih => exact congrArg (fun s => (poll (input n) s).2) ih
  unfold item
  rw [hstate]
  rfl

theorem yields_once (f : ι → α) : Yields (once f) input true [f (input 0)] := ⟨rfl, rfl⟩

theorem Yields.map {f : ι → α → β} {l : List α} (h : Yields poll input s l) :
    Yields (map f poll) input s (l.mapIdx fun n a => f (input n) a) := by
  induction l generalizing s input with
  | nil => exact congrArg (Option.map _) h
  | cons a l ih =>
    rw [List.mapIdx_cons]
    exact ⟨congrArg (Option.map _) h.1, ih h.2⟩

variable (second t) in
theorem chain_of_some {i : ι} {a : α} (h : (poll i s).1 = some a) :
    chain poll second i (some s, t) = (some a, (some (poll i s).2, t)) := by
  unfold chain
  dsimp only
  split
  · rename_i b s' heq
    rw [heq] at h ⊢
    rw [Option.some.inj h]
  · rename_i s' heq
    rw [heq] at h
    exact absurd h.symm (Option.some_ne_none a)

theorem chain_of_none {i : ι} (h : (poll i s).1 = none) :
    chain poll second i (some s, t) = ((second i t).1, (none, (second i t).2)) := by
  unfold chain
  dsimp only
  split
  · rename_i a s' heq
    rw [heq] at h
    exact absurd h (Option.some_ne_none a)
  · rfl

variable (poll) in
/-- A chain whose first part has ended is its second part. -/
theorem yields_chain_ended {l : List α} (h : Yields second input t l) :
    Yields (chain poll second) input (none, t) l := by
  induction l generalizing t input with
  | nil => exact h
  | cons a l ih => exact ⟨h.1, ih h.2⟩

/-- Chained streams that both end yield the items of both. -/
theorem Yields.chain {l l' : List α} (h : Yields poll input s l)
    (h' : Yields second (fun k => input (k + l.length)) t l') :
    Yields (chain poll second) input (some s, t) (l ++ l') := by
  induction l generalizing s input with
  | nil =>
    -- the poll that finds the first part at its end goes on to the second part
    have hended := yields_chain_ended poll h'
    cases l' with
    | nil => exact (congrArg Prod.fst (chain_of_none h)).trans hended
    | cons a l' =>
      refine ⟨(congrArg Prod.fst (chain_of_none h)).trans hended.1, ?_⟩
      rw [chain_of_none h]
      exact hended.2
  | cons a l ih =>
    have hpoll := chain_of_some second t h.1
    refine ⟨congrArg Prod.fst hpoll, ?_⟩
    rw [hpoll]
    apply ih h.2
    have hlen (k : Nat) : k + l.length + 1 = k + (a :: l).length := rfl
    simpa only [hlen] using h'

/-! ## Streams without an end -/

/-- Every poll yields an item, in every run from these states. -/
def Endless (poll : Poll ι σ α) (s : σ) : Prop := ∀ (input : Nat → ι) n, item poll input s n ≠ none

/-- A stream is endless if all polls in states that meet an invariant yield an item. -/
theorem Endless.of_inv {I : σ → Prop} (hstep : ∀ i s, I s → I (poll i s).2)
    (hitem : ∀ i s, I s → (poll i s).1 ≠ none) (hs : I s) : Endless poll s := by
  intro input n
  exact hitem (input n) _ (state_inv hstep hs n)

theorem Endless.next (h : Endless poll s) (i : ι) :
    (poll i s).1 ≠ none ∧ Endless poll (poll i s).2 := by
  constructor
  · exact h (fun _ => i) 0
  · intro input n
    let input' : Nat → ι
      | 0 => i
      | k + 1 => input k
    have hnext := h input' (n + 1)
    rw [item_succ] at hnext
    exact hnext

theorem Endless.map {f : ι → α → β} (h : Endless poll s) : Endless (map f poll) s := by
  refine Endless.of_inv ?_ ?_ h
  · intro i s hs
    exact (hs.next i).2
  · intro i s hs hnone
    exact (hs.next i).1 (Option.map_eq_none_iff.1 hnone)

/-- A chain never comes to its second part if the first has no end. -/
theorem Endless.item_chain (h : Endless poll s) (n : Nat) :
    item (chain poll second) input (some s, t) n = item poll input s n := by
  obtain ⟨a, ha⟩ := Option.ne_none_iff_exists'.1 (h.next (input 0)).1
  have hpoll := chain_of_some second t ha
  induction n generalizing s input a with
  | zero => exact (congrArg Prod.fst hpoll).trans ha.symm
  | succ n ih =>
    rw [item_succ, item_succ, hpoll]
    have hnext := (h.next (input 0)).2
    obtain ⟨b, hb⟩ := Option.ne_none_iff_exists'.1 (hnext.next (input 1)).1
    exact ih hnext b hb (chain_of_some second t hb)

theorem Endless.chain_left (h : Endless poll s) (t : τ) :
    Endless (chain poll second) (some s, t) := by
  intro input n
  rw [h.item_chain]
  exact h input n

/-- A chain whose second part has no end has none. -/
theorem Endless.chain_right (h : Endless second t) (o : Option σ) :
    Endless (chain poll second) (o, t) := by
  refine Endless.of_inv (I := fun s => Endless second s.2) ?_ ?_ h
  · rintro i ⟨o, t⟩ ht
    cases o with
    | none => exact (ht.next i).2
    | some s =>
      cases hs : (poll i s).1 with
      | none =>
        rw [chain_of_none hs]
        exact (ht.next i).2
      | some a =>
        rw [chain_of_some second t hs]
        exact ht
  · rintro i ⟨o, t⟩ ht
    cases o with
    | none => exact (ht.next i).1
    | some s =>
      cases hs : (poll i s).1 with
      | none =>
        rw [chain_of_none hs]
        exact (ht.next i).1
      | some a =>
        rw [chain_of_some second t hs]
        exact Option.some_ne_none a

end Polling
