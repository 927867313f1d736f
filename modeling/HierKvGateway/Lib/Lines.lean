import HierKvGateway.Lib.Polling

/-!
# Lib.Lines — reading a text line by line from fragments

A reader gets a text in fragments and keeps what it has not read yet in a buffer. When it is polled
it reads lines until one of them yields an item, and takes the next fragment when the buffer has no
whole line left.

`Lines.poll_whole`: the reader does what `Lines.whole` does, which has the whole text from the
start. So it does not matter how the text is cut into fragments. `Lines.item_unlines`: this one
yields what the lines of the text do.
-/

namespace Lines

variable {ι σ ρ φ α ε : Type*} [DecidableEq α]

/-- What a reader makes of what it reads. -/
structure Format (ι σ ρ φ α ε : Type*) where
  /-- The end of a line. -/
  sep : α
  /-- The text of a fragment. -/
  decode : φ → List α
  /-- What a poll yields in a state in which nothing is read. -/
  closed : ι → σ → Option (Option ε × σ)
  /-- What a line yields. -/
  handle : ι → σ → List α → Option ε × σ
  /-- What an error of the stream of fragments yields. -/
  fail : ρ → ε
  /-- What the end of that stream yields, with the rest of the text. -/
  finish : ι → σ → List α → Option ε × σ × List α

/-! ## Lines in a text -/

/-- Read lines until one yields an item; `line` has the beginning of the first one, in reverse. The
last component is the text that has not been read. -/
def nextFrom (sep : α) (handle : σ → List α → Option ε × σ) (line : List α) (s : σ) :
    List α → Option ε × σ × List α
  | [] => (none, s, line.reverse)
  | c :: cs =>
    if c = sep then
      match handle s line.reverse with
      | (some e, s') => (some e, s', cs)
      | (none, s') => nextFrom sep handle [] s' cs
    else nextFrom sep handle (c :: line) s cs

/-- Read lines until one yields an item. -/
def next (sep : α) (handle : σ → List α → Option ε × σ) (s : σ) (text : List α) :
    Option ε × σ × List α :=
  nextFrom sep handle [] s text

variable {sep : α} {handle : σ → List α → Option ε × σ}

/-- Characters of an unfinished line may come from the text or have been gathered before. -/
theorem nextFrom_append_of_notMem {l : List α} (hl : sep ∉ l) (line : List α) (s : σ)
    (more : List α) :
    nextFrom sep handle line s (l ++ more) = nextFrom sep handle (l.reverse ++ line) s more := by
  induction l generalizing line with
  | nil => rfl
  | cons c l ih =>
    have hc : c ≠ sep := fun h => hl (h ▸ List.mem_cons_self)
    have hl' : sep ∉ l := fun h => hl (List.mem_cons_of_mem _ h)
    show (if c = sep then _ else nextFrom sep handle (c :: line) s (l ++ more)) = _
    rw [if_neg hc, ih hl', List.reverse_cons, List.append_assoc, List.singleton_append]

/-- What follows the text is read after it. -/
theorem nextFrom_append {line : List α} (hline : sep ∉ line) (s : σ) (text more : List α) :
    nextFrom sep handle line s (text ++ more) =
      match nextFrom sep handle line s text with
      | (some e, s', rest) => (some e, s', rest ++ more)
      | (none, s', rest) => next sep handle s' (rest ++ more) := by
  induction text generalizing line s with
  | nil =>
    have hrev : sep ∉ line.reverse := fun h => hline (List.mem_reverse.1 h)
    have hline' : line.reverse.reverse ++ [] = line := by simp
    show nextFrom sep handle line s more = nextFrom sep handle [] s (line.reverse ++ more)
    rw [nextFrom_append_of_notMem hrev, hline']
  | cons c text ih =>
    rw [List.cons_append]
    unfold nextFrom
    split
    · cases hc : handle s line.reverse with
      | mk r s' =>
        cases r with
        | none => exact ih (List.not_mem_nil) s'
        | some e => rfl
    · rename_i hc
      have hline' : sep ∉ c :: line := by
        intro h
        rcases List.mem_cons.1 h with h | h
        · exact hc h.symm
        · exact hline h
      exact ih hline' s

theorem next_append (s : σ) (text more : List α) :
    next sep handle s (text ++ more) =
      match next sep handle s text with
      | (some e, s', rest) => (some e, s', rest ++ more)
      | (none, s', rest) => next sep handle s' (rest ++ more) :=
  nextFrom_append List.not_mem_nil s text more

/-! ## The whole text -/

variable (F : Format ι σ ρ φ α ε)

/-- Read a text that ends the stream. -/
def read (i : ι) (s : σ) (text : List α) : Option ε × (σ × List α) :=
  match next F.sep (F.handle i) s text with
  | (some e, s', rest) => (some e, (s', rest))
  | (none, s', rest) => ((F.finish i s' rest).1, (F.finish i s' rest).2)

/-- The reader that has the whole text. -/
def whole : Poll ι (σ × List α) ε := fun i (s, text) =>
  match F.closed i s with
  | some (r, s') => (r, (s', text))
  | none => read F i s text

variable {F} in
theorem whole_of_open {i : ι} {s : σ} (h : F.closed i s = none) (text : List α) :
    whole F i (s, text) = read F i s text := by
  unfold whole
  dsimp only
  rw [h]

variable {F} in
theorem whole_of_closed {i : ι} {s : σ} {p : Option ε × σ} (h : F.closed i s = some p)
    (text : List α) : whole F i (s, text) = (p.1, (p.2, text)) := by
  unfold whole
  dsimp only
  rw [h]

/-! ## Fragments -/

/-- A reader: the fragments to come, the text that is not read yet, and a state. -/
structure Reader (σ ρ φ α : Type*) where
  inner : List (Except ρ φ)
  buffer : List α
  state : σ

/-- Read lines, and take fragments, until a line yields an item or the stream fails or ends. -/
def pull (i : ι) (inner : List (Except ρ φ)) (buffer : List α) (s : σ) :
    Option ε × Reader σ ρ φ α :=
  match next F.sep (F.handle i) s buffer with
  | (some e, s', rest) => (some e, ⟨inner, rest, s'⟩)
  | (none, s', rest) =>
    match inner with
    | [] => ((F.finish i s' rest).1, ⟨[], (F.finish i s' rest).2.2, (F.finish i s' rest).2.1⟩)
    | .error e :: inner => (some (F.fail e), ⟨inner, rest, s'⟩)
    | .ok fragment :: inner => pull i inner (rest ++ F.decode fragment) s'

/-- The reader that gets the text in fragments. -/
def poll : Poll ι (Reader σ ρ φ α) ε := fun i r =>
  match F.closed i r.state with
  | some (e, s') => (e, { r with state := s' })
  | none => pull F i r.inner r.buffer r.state

/-- The text of the fragments. -/
def textOf (inner : List (Except ρ φ)) : List α :=
  inner.flatMap fun
    | .ok fragment => F.decode fragment
    | .error _ => []

/-- The state of a reader and all the text that it has still to read. -/
def abs (r : Reader σ ρ φ α) : σ × List α := (r.state, r.buffer ++ textOf F r.inner)

/-- The stream of fragments does not fail. -/
def ErrorFree (inner : List (Except ρ φ)) : Prop := ∀ x ∈ inner, x.isOk = true

variable {F}

theorem errorFree_pull {inner : List (Except ρ φ)} (h : ErrorFree inner) (i : ι)
    (buffer : List α) (s : σ) : ErrorFree (pull F i inner buffer s).2.inner := by
  induction inner generalizing buffer s with
  | nil =>
    unfold pull
    split
    · exact h
    · exact h
  | cons x inner ih =>
    have htail : ErrorFree inner := fun y hy => h y (List.mem_cons_of_mem _ hy)
    unfold pull
    split
    · exact h
    · cases x with
      | error e => exact htail
      | ok fragment => exact ih htail _ _

theorem pull_read {inner : List (Except ρ φ)} (h : ErrorFree inner) (i : ι) (buffer : List α)
    (s : σ) :
    ((pull F i inner buffer s).1, abs F (pull F i inner buffer s).2) =
      read F i s (buffer ++ textOf F inner) := by
  induction inner generalizing buffer s with
  | nil =>
    have htext : buffer ++ textOf F [] = buffer := List.append_nil buffer
    rw [htext]
    unfold pull read
    cases next F.sep (F.handle i) s buffer with
    | mk r rest =>
      cases r with
      | some e => simp only [abs, textOf, List.flatMap_nil, List.append_nil]
      | none => simp only [abs, textOf, List.flatMap_nil, List.append_nil]
  | cons x inner ih =>
    have htail : ErrorFree inner := fun y hy => h y (List.mem_cons_of_mem _ hy)
    cases x with
    | error e => exact absurd (h _ List.mem_cons_self) Bool.false_ne_true
    | ok fragment =>
      have htext : textOf F (.ok fragment :: inner) = F.decode fragment ++ textOf F inner :=
        List.flatMap_cons
      unfold pull read
      rw [htext, next_append]
      cases next F.sep (F.handle i) s buffer with
      | mk r rest =>
        cases r with
        | some e => simp only [abs, htext]
        | none =>
          have hpull := ih htail (rest.2 ++ F.decode fragment) rest.1
          rw [List.append_assoc] at hpull
          exact hpull

/-- However the text is cut into fragments, each poll yields what the reader of the whole text
yields, and leaves the same text to be read. -/
theorem poll_whole {r : Reader σ ρ φ α} (h : ErrorFree r.inner) (i : ι) :
    ErrorFree (poll F i r).2.inner ∧
      ((poll F i r).1, abs F (poll F i r).2) = whole F i (abs F r) := by
  unfold poll whole abs
  dsimp only
  cases F.closed i r.state with
  | some p => exact ⟨h, rfl⟩
  | none => exact ⟨errorFree_pull h i _ _, pull_read h i _ _⟩

theorem item_whole {r : Reader σ ρ φ α} (h : ErrorFree r.inner) (input : Nat → ι) (n : Nat) :
    Polling.item (poll F) input r n = Polling.item (whole F) input (abs F r) n :=
  Polling.item_abs (I := fun r => ErrorFree r.inner) (fun i _ hr => (poll_whole hr i).1)
    (fun i _ hr => (poll_whole hr i).2) h n

/-- A reader yields an item at every poll if it is never closed and the end yields one. -/
theorem poll_ne_none (hclosed : ∀ i s, F.closed i s = none)
    (hfinish : ∀ i s rest, (F.finish i s rest).1 ≠ none) (i : ι) (r : Reader σ ρ φ α) :
    (poll F i r).1 ≠ none := by
  have hpull (inner : List (Except ρ φ)) (buffer : List α) (s : σ) :
      (pull F i inner buffer s).1 ≠ none := by
    induction inner generalizing buffer s with
    | nil =>
      unfold pull
      split
      · exact Option.some_ne_none _
      · exact hfinish _ _ _
    | cons x inner ih =>
      unfold pull
      split
      · exact Option.some_ne_none _
      · cases x with
        | error e => exact Option.some_ne_none _
        | ok fragment => exact ih _ _
  unfold poll
  rw [hclosed]
  exact hpull _ _ _

/-! ## Whole lines -/

/-- Induction on the lines of a text: there may be a last one that is not ended. -/
theorem line_induction {P : List α → Prop} (hlast : ∀ l, sep ∉ l → P l)
    (hline : ∀ l more, sep ∉ l → P more → P (l ++ sep :: more)) (text : List α) : P text := by
  induction hn : text.length using Nat.strongRecOn generalizing text with
  | ind n ih =>
    by_cases hsep : sep ∈ text
    · obtain ⟨l, more, rfl, hl⟩ := List.eq_append_cons_of_mem hsep
      have hlt : more.length < n := by
        rw [← hn, List.length_append, List.length_cons]
        omega
      exact hline l more hl (ih more.length hlt more rfl)
    · exact hlast text hsep

/-- The text of lines. -/
def unlines (sep : α) (ls : List (List α)) : List α := ls.flatMap fun l => l ++ [sep]

/-- A line that is not ended is left. -/
theorem next_of_notMem {l : List α} (hl : sep ∉ l) (s : σ) :
    next sep handle s l = (none, s, l) := by
  have hend : nextFrom sep handle [] s (l ++ []) = _ := nextFrom_append_of_notMem hl [] s []
  rw [List.append_nil, List.append_nil] at hend
  show nextFrom sep handle [] s l = _
  rw [hend, nextFrom, List.reverse_reverse]

/-- The first line is read first. -/
theorem next_line {l : List α} (hl : sep ∉ l) (s : σ) (more : List α) :
    next sep handle s (l ++ sep :: more) =
      match handle s l with
      | (some e, s') => (some e, s', more)
      | (none, s') => next sep handle s' more := by
  show nextFrom sep handle [] s (l ++ sep :: more) = _
  rw [nextFrom_append_of_notMem hl, List.append_nil, nextFrom, if_pos rfl, List.reverse_reverse]
  rfl

section
variable {s : σ} {f : List α → Option ε}

/-- Lines that all yield something or nothing, whatever the input is, and leave the state as it
is. -/
structure Steady (F : Format ι σ ρ φ α ε) (s : σ) (f : List α → Option ε) (ls : List (List α)) :
    Prop where
  whole : ∀ l ∈ ls, F.sep ∉ l
  handle : ∀ i, ∀ l ∈ ls, F.handle i s l = (f l, s)

/-- A line is read, and the rest is left if it yields an item. -/
theorem whole_line {i : ι} {l : List α} {o : Option ε} (hopen : F.closed i s = none)
    (hl : F.sep ∉ l) (hhandle : F.handle i s l = (o, s)) (more : List α) :
    Lines.whole F i (s, l ++ F.sep :: more) =
      o.elim (Lines.whole F i (s, more)) fun e => (some e, (s, more)) := by
  rw [whole_of_open hopen]
  unfold read
  rw [next_line hl, hhandle]
  cases o with
  | some e => rfl
  | none => exact (whole_of_open hopen more).symm

/-- A line that is not ended ends the stream. -/
theorem whole_of_notMem {i : ι} {l : List α} (hopen : F.closed i s = none) (hl : F.sep ∉ l) :
    Lines.whole F i (s, l) = F.finish i s l := by
  rw [whole_of_open hopen]
  unfold read
  rw [next_of_notMem hl]

/-- The polls yield what the lines do, in order, and then what the rest of the text does. -/
theorem item_unlines (hopen : ∀ i, F.closed i s = none) {ls : List (List α)}
    (h : Steady F s f ls) (input : Nat → ι) (rest : List α) :
    (∀ n (hn : n < (ls.filterMap f).length),
      Polling.item (Lines.whole F) input (s, unlines F.sep ls ++ rest) n =
        some (ls.filterMap f)[n]) ∧
    Polling.item (Lines.whole F) input (s, unlines F.sep ls ++ rest) (ls.filterMap f).length =
      (Lines.whole F (input (ls.filterMap f).length) (s, rest)).1 := by
  induction ls generalizing input with
  | nil => exact ⟨fun n hn => absurd hn (Nat.not_lt_zero n), rfl⟩
  | cons l ls ih =>
    obtain ⟨hl, hls⟩ := List.forall_mem_cons.1 h.whole
    have hrest : Steady F s f ls :=
      ⟨hls, fun i l' hl' => h.handle i l' (List.mem_cons_of_mem _ hl')⟩
    have htext : unlines F.sep (l :: ls) ++ rest =
        l ++ F.sep :: (unlines F.sep ls ++ rest) := by
      unfold unlines
      rw [List.flatMap_cons, List.append_assoc, List.append_assoc, List.singleton_append]
    have hline := fun i => whole_line (hopen i) hl (h.handle i l List.mem_cons_self)
      (unlines F.sep ls ++ rest)
    rw [htext]
    cases hf : f l with
    | none =>
      -- the line yields nothing, so the poll goes on to the next
      rw [List.filterMap_cons_none hf]
      have hskip : Lines.whole F (input 0) (s, l ++ F.sep :: (unlines F.sep ls ++ rest)) =
          Lines.whole F (input 0) (s, unlines F.sep ls ++ rest) := by
        rw [hline, hf, Option.elim_none]
      constructor
      · intro n hn
        rw [Polling.item_congr hskip]
        exact (ih hrest input).1 n hn
      · rw [Polling.item_congr hskip]
        exact (ih hrest input).2
    | some e =>
      -- the line is an item, and the items after it are those of the other lines
      have hyield : ∀ i, Lines.whole F i (s, l ++ F.sep :: (unlines F.sep ls ++ rest)) =
          (some e, (s, unlines F.sep ls ++ rest)) := by
        intro i
        rw [hline, hf, Option.elim_some]
      have htail := ih hrest fun k => input (k + 1)
      constructor
      · intro n hn
        simp only [List.filterMap_cons_some hf] at hn ⊢
        cases n with
        | zero => exact congrArg Prod.fst (hyield (input 0))
        | succ n =>
          rw [Polling.item_succ, hyield]
          exact htail.1 n (Nat.lt_of_succ_lt_succ hn)
      · rw [List.filterMap_cons_some hf, List.length_cons, Polling.item_succ, hyield]
        exact htail.2

end

/-! ## Inputs -/

section
variable {β τ : Type*} (f : ε → β)

/-- What `f` keeps of an item. -/
def mapItem (p : Option ε × τ) : Option β × τ := (p.1.map f, p.2)

/-- The reader that yields what `f` keeps of the items. -/
def Format.map (F : Format ι σ ρ φ α ε) : Format ι σ ρ φ α β where
  sep := F.sep
  decode := F.decode
  closed i s := (F.closed i s).map (mapItem f)
  handle i s line := mapItem f (F.handle i s line)
  fail e := f (F.fail e)
  finish i s rest := mapItem f (F.finish i s rest)

variable (sep handle) in
theorem next_map (s : σ) (text : List α) :
    next sep (fun s line => mapItem f (handle s line)) s text =
      mapItem f (next sep handle s text) := by
  suffices hfrom : ∀ line s, nextFrom sep (fun s line => mapItem f (handle s line)) line s text =
      mapItem f (nextFrom sep handle line s text) from hfrom [] s
  induction text with
  | nil => exact fun line s => rfl
  | cons c text ih =>
    intro line s
    unfold nextFrom
    split
    · cases handle s line.reverse with
      | mk r t =>
        cases r with
        | none => exact ih [] t
        | some e => rfl
    · exact ih (c :: line) s

/-- Items that `f` does not tell apart. -/
theorem mapItem_eq {p q : Option ε × τ} (h : mapItem f p = mapItem f q) :
    (∃ t, p = (none, t) ∧ q = (none, t)) ∨
      ∃ e e' t, f e = f e' ∧ p = (some e, t) ∧ q = (some e', t) := by
  obtain ⟨r, t⟩ := p
  obtain ⟨r', t'⟩ := q
  have hitem : r.map f = r'.map f := (Prod.ext_iff.1 h).1
  have hstate : t = t' := (Prod.ext_iff.1 h).2
  subst hstate
  cases r with
  | none =>
    have hr' : r' = none := Option.map_eq_none_iff.1 hitem.symm
    exact .inl ⟨t, rfl, congrArg (·, t) hr'⟩
  | some e =>
    obtain ⟨e', hr', he'⟩ := Option.map_eq_some_iff.1 hitem.symm
    exact .inr ⟨e, e', t, he'.symm, rfl, congrArg (·, t) hr'⟩

theorem next_forgets {handle' : σ → List α → Option ε × σ}
    (h : ∀ s line, mapItem f (handle s line) = mapItem f (handle' s line)) (s : σ)
    (text : List α) : mapItem f (next sep handle s text) = mapItem f (next sep handle' s text) := by
  have hhandle : (fun s line => mapItem f (handle s line)) =
      fun s line => mapItem f (handle' s line) := by
    funext s line
    exact h s line
  rw [← next_map, ← next_map, hhandle]

theorem whole_map (F : Format ι σ ρ φ α ε) (i : ι) (s : σ × List α) :
    whole (F.map f) i s = mapItem f (whole F i s) := by
  obtain ⟨s, text⟩ := s
  have hnext := next_map F.sep (F.handle i) f s text
  unfold whole
  dsimp only [Format.map]
  cases F.closed i s with
  | some p => rfl
  | none =>
    unfold read
    dsimp only [Option.map_none]
    rw [hnext]
    cases next F.sep (F.handle i) s text with
    | mk r t =>
      cases r with
      | none => rfl
      | some e => rfl

/-- What `f` keeps of the items does not depend on the inputs, and neither do the states. -/
structure Format.Forgets (F : Format ι σ ρ φ α ε) : Prop where
  closed : ∀ i j s, (F.map f).closed i s = (F.map f).closed j s
  handle : ∀ i j s line, (F.map f).handle i s line = (F.map f).handle j s line
  finish : ∀ i j s rest, (F.map f).finish i s rest = (F.map f).finish j s rest

variable {f}

theorem Format.Forgets.whole (h : F.Forgets f) (i j : ι) (s : σ × List α) :
    mapItem f (whole F i s) = mapItem f (whole F j s) := by
  rw [← whole_map, ← whole_map]
  obtain ⟨s, text⟩ := s
  have hhandle : (F.map f).handle i = (F.map f).handle j := by
    funext s line
    exact h.handle i j s line
  have hfinish : (F.map f).finish i = (F.map f).finish j := by
    funext s rest
    exact h.finish i j s rest
  unfold Lines.whole read
  dsimp only
  rw [h.closed i j s, hhandle, hfinish]

/-- What `f` keeps of the items does not depend on the inputs. -/
theorem Format.Forgets.item_input (h : F.Forgets f) (input input' : Nat → ι) (s : σ × List α)
    (n : Nat) :
    (Polling.item (Lines.whole F) input s n).map f =
      (Polling.item (Lines.whole F) input' s n).map f :=
  Polling.item_input (f := Option.map f) (fun i j s => (Prod.ext_iff.1 (h.whole i j s)).1)
    (fun i j s => (Prod.ext_iff.1 (h.whole i j s)).2) n

/-- Readers that have the same text to read yield the same, as far as `f` keeps it, however the
text is cut into fragments and whatever their inputs are. -/
theorem item_fragments (h : F.Forgets f) {r r' : Reader σ ρ φ α} (hr : ErrorFree r.inner)
    (hr' : ErrorFree r'.inner) (habs : abs F r = abs F r') (input input' : Nat → ι) (n : Nat) :
    (Polling.item (poll F) input r n).map f = (Polling.item (poll F) input' r' n).map f := by
  rw [item_whole hr, item_whole hr', habs]
  exact h.item_input input input' _ n

/-- What `f` keeps of the items is the same for texts that a reader does not tell apart. -/
theorem item_map_congr (h : F.Forgets f) {i : ι} {s t : σ × List α}
    (heq : Lines.whole F i s = Lines.whole F i t) (input : Nat → ι) (n : Nat) :
    (Polling.item (Lines.whole F) input s n).map f =
      (Polling.item (Lines.whole F) input t n).map f := by
  have hmap : mapItem f (Lines.whole F (input 0) s) = mapItem f (Lines.whole F (input 0) t) := by
    rw [h.whole (input 0) i, heq, h.whole i (input 0)]
  cases n with
  | zero => exact (Prod.ext_iff.1 hmap).1
  | succ n =>
    have hstate : (Lines.whole F (input 0) s).2 = (Lines.whole F (input 0) t).2 :=
      (Prod.ext_iff.1 hmap).2
    rw [Polling.item_succ, Polling.item_succ, hstate]

/-! ## Errors -/

/-- A line that yields nothing does not close the reader. -/
def Format.StaysOpen (F : Format ι σ ρ φ α ε) : Prop :=
  ∀ i s line s', F.closed i s = none → F.handle i s line = (none, s') → F.closed i s' = none

theorem Format.StaysOpen.next (h : F.StaysOpen) {i : ι} {s s' : σ} {text rest : List α}
    (hopen : F.closed i s = none) (hnext : next F.sep (F.handle i) s text = (none, s', rest)) :
    F.closed i s' = none := by
  suffices hfrom : ∀ line s, F.closed i s = none →
      nextFrom F.sep (F.handle i) line s text = (none, s', rest) → F.closed i s' = none from
    hfrom [] s hopen hnext
  clear hopen hnext
  intro line s hopen hnext
  induction text generalizing line s with
  | nil =>
    have hs : s = s' := (Prod.mk.inj (Prod.mk.inj hnext).2).1
    rw [← hs]
    exact hopen
  | cons c text ih =>
    unfold nextFrom at hnext
    split at hnext
    · cases hline : F.handle i s line.reverse with
      | mk o t =>
        rw [hline] at hnext
        cases o with
        | none => exact ih [] t (h i s line.reverse t hopen hline) hnext
        | some e => exact absurd (congrArg Prod.fst hnext) (Option.some_ne_none e)
    · exact ih (c :: line) s hopen hnext

/-- A poll either comes to an error of the stream, and leaves what there is to read, or does what
the reader of the whole text does. -/
theorem pull_cases (hstays : F.StaysOpen) (i : ι) (inner : List (Except ρ φ)) (buffer : List α)
    {s : σ} (hopen : F.closed i s = none) :
    (∃ e, (pull F i inner buffer s).1 = some (F.fail e) ∧
      (pull F i inner buffer s).2.inner.length < inner.length ∧
      Lines.whole F i (abs F (pull F i inner buffer s).2) =
        Lines.whole F i (s, buffer ++ textOf F inner)) ∨
    (pull F i inner buffer s).2.inner.length ≤ inner.length ∧
      ((pull F i inner buffer s).1, abs F (pull F i inner buffer s).2) =
        Lines.whole F i (s, buffer ++ textOf F inner) := by
  rw [whole_of_open hopen]
  induction inner generalizing buffer s with
  | nil =>
    -- no fragment is left: what is read is what has been buffered
    have hfree : ErrorFree ([] : List (Except ρ φ)) := fun x hx => absurd hx List.not_mem_nil
    right
    refine ⟨?_, pull_read hfree i buffer s⟩
    unfold pull
    split
    · exact Nat.le_refl _
    · exact Nat.le_refl _
  | cons x inner ih =>
    unfold pull read
    cases hnext : next F.sep (F.handle i) s buffer with
    | mk o p =>
      obtain ⟨s', rest⟩ := p
      cases o with
      | some e =>
        right
        -- the buffer holds a line that yields an item
        refine ⟨Nat.le_refl _, ?_⟩
        rw [next_append, hnext]
        rfl
      | none =>
        have hopen' : F.closed i s' = none := hstays.next hopen hnext
        cases x with
        | error e =>
          left
          -- an error is passed on, and the lines read so far stay read
          refine ⟨e, rfl, Nat.lt_succ_self _, ?_⟩
          have htext : textOf F (.error e :: inner) = textOf F inner := List.flatMap_cons
          unfold abs
          dsimp only
          rw [whole_of_open hopen', htext, next_append, hnext]
          rfl
        | ok fragment =>
          have htext : textOf F (.ok fragment :: inner) = F.decode fragment ++ textOf F inner :=
            List.flatMap_cons
          -- the fragment is appended to what is left of the buffer
          have hpull := ih (rest ++ F.decode fragment) hopen'
          have hread : read F i s' (rest ++ F.decode fragment ++ textOf F inner) =
              read F i s (buffer ++ textOf F (.ok fragment :: inner)) := by
            unfold read
            rw [htext, List.append_assoc, next_append s buffer, hnext]
          rw [hread] at hpull
          rcases hpull with ⟨e, hfail, hlen, heq⟩ | ⟨hlen, heq⟩
          · exact .inl ⟨e, hfail, Nat.lt_succ_of_lt hlen, heq⟩
          · exact .inr ⟨Nat.le_succ_of_le hlen, heq⟩

theorem poll_cases (hstays : F.StaysOpen) (i : ι) (r : Reader σ ρ φ α) :
    (∃ e, (poll F i r).1 = some (F.fail e) ∧ (poll F i r).2.inner.length < r.inner.length ∧
      Lines.whole F i (abs F (poll F i r).2) = Lines.whole F i (abs F r)) ∨
    (poll F i r).2.inner.length ≤ r.inner.length ∧
      ((poll F i r).1, abs F (poll F i r).2) = Lines.whole F i (abs F r) := by
  unfold poll
  cases hclosed : F.closed i r.state with
  | some p =>
    right
    refine ⟨Nat.le_refl _, ?_⟩
    unfold abs
    rw [whole_of_closed hclosed]
  | none => exact pull_cases hstays i r.inner r.buffer hclosed

/-- Where a poll does what the reader of the whole text does, the items after it are those of the
rest. -/
theorem item_map_succ (h : F.Forgets f) {i : ι} {r : Reader σ ρ φ α}
    (heq : ((poll F i r).1, abs F (poll F i r).2) = Lines.whole F i (abs F r))
    (input input' : Nat → ι) (n : Nat) :
    (Polling.item (Lines.whole F) input (abs F r) (n + 1)).map f =
      (Polling.item (Lines.whole F) input' (abs F (poll F i r).2) n).map f := by
  have hstate : abs F (poll F i r).2 = (Lines.whole F i (abs F r)).2 := congrArg Prod.snd heq
  have hsame : (Lines.whole F (input 0) (abs F r)).2 = (Lines.whole F i (abs F r)).2 :=
    (Prod.ext_iff.1 (h.whole (input 0) i (abs F r))).2
  rw [Polling.item_succ, hsame, ← hstate]
  exact h.item_input _ input' _ n

section Occurs

variable {b : β} {r : Reader σ ρ φ α} {input input' : Nat → ι} {n : Nat}

/-- What a reader yields occurs in the whole text, if it is no error of the stream. -/
theorem occurs_whole (h : F.Forgets f) (hstays : F.StaysOpen) (hb : ∀ e, f (F.fail e) ≠ b)
    (hn : (Polling.item (poll F) input r n).map f = some b) :
    ∃ m, (Polling.item (Lines.whole F) input' (abs F r) m).map f = some b := by
  induction n generalizing r input with
  | zero =>
    rcases poll_cases hstays (input 0) r with ⟨e, hfail, -, -⟩ | ⟨-, heq⟩
    · have hitem : Polling.item (poll F) input r 0 = some (F.fail e) := hfail
      rw [hitem, Option.map_some] at hn
      exact absurd (Option.some.inj hn) (hb e)
    · have hitem : Polling.item (poll F) input r 0 =
          Polling.item (Lines.whole F) input (abs F r) 0 := congrArg Prod.fst heq
      rw [hitem, h.item_input input input'] at hn
      exact ⟨0, hn⟩
  | succ n ih =>
    rw [Polling.item_succ] at hn
    obtain ⟨m, hm⟩ := ih hn
    rcases poll_cases hstays (input 0) r with ⟨e, -, -, heq⟩ | ⟨-, heq⟩
    · rw [item_map_congr h heq] at hm
      exact ⟨m, hm⟩
    · refine ⟨m + 1, ?_⟩
      rw [item_map_succ h heq input' input']
      exact hm

/-- What occurs in the whole text is yielded by a reader: each poll takes a fragment, or comes
closer to the item. -/
theorem occurs_poll (h : F.Forgets f) (hstays : F.StaysOpen)
    (hn : (Polling.item (Lines.whole F) input' (abs F r) n).map f = some b) :
    ∃ m, (Polling.item (poll F) input r m).map f = some b := by
  induction hk : n + r.inner.length using Nat.strongRecOn generalizing n r input with
  | ind k ih =>
    rcases poll_cases hstays (input 0) r with ⟨e, -, hlen, heq⟩ | ⟨hlen, heq⟩
    · rw [← item_map_congr h heq] at hn
      obtain ⟨m, hm⟩ := ih _ (by omega) hn rfl
      refine ⟨m + 1, ?_⟩
      rw [Polling.item_succ]
      exact hm
    · cases n with
      | zero =>
        refine ⟨0, ?_⟩
        have hitem : Polling.item (poll F) input r 0 =
            Polling.item (Lines.whole F) input (abs F r) 0 := congrArg Prod.fst heq
        rw [hitem, h.item_input input input']
        exact hn
      | succ n =>
        rw [item_map_succ h heq input' input'] at hn
        obtain ⟨m, hm⟩ := ih _ (by omega) hn rfl
        refine ⟨m + 1, ?_⟩
        rw [Polling.item_succ]
        exact hm

end Occurs

/-- Errors of the stream come between the items, and it makes no difference to the others. -/
theorem occurs_iff (h : F.Forgets f) (hstays : F.StaysOpen) {b : β} (hb : ∀ e, f (F.fail e) ≠ b)
    (r : Reader σ ρ φ α) (input input' : Nat → ι) :
    (∃ n, (Polling.item (poll F) input r n).map f = some b) ↔
      ∃ n, (Polling.item (Lines.whole F) input' (abs F r) n).map f = some b := by
  constructor
  · rintro ⟨n, hn⟩
    exact occurs_whole h hstays hb hn
  · rintro ⟨n, hn⟩
    exact occurs_poll h hstays hn

end

end Lines
