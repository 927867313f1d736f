import HierKvGateway.Lib.Lines

/-!
# Lib.Taken — what a reader has taken

A reader takes a fragment only when it needs it. As long as there are fragments to come, what it has
yielded does not depend on them (`Lines.run_swap`). So two readers agree on what they have yielded
if the text that the one has taken is what the text of the other begins with:
`Lines.item_of_prefix`.
-/

namespace Lines

variable {ι σ ρ φ α ε β : Type*} [DecidableEq α] {F : Format ι σ ρ φ α ε}

/-- The fragments that the first polls of a reader take. -/
def taken (F : Format ι σ ρ φ α ε) (input : Nat → ι) (r : Reader σ ρ φ α) (n : Nat) :
    List (Except ρ φ) :=
  r.inner.take (r.inner.length - (Polling.state (poll F) input r n).inner.length)

/-! ## One poll -/

theorem pull_suffix (i : ι) (inner : List (Except ρ φ)) (buffer : List α) (s : σ) :
    (pull F i inner buffer s).2.inner <:+ inner := by
  induction inner generalizing buffer s with
  | nil =>
    unfold pull
    split
    · exact List.suffix_rfl
    · exact List.suffix_rfl
  | cons x inner ih =>
    unfold pull
    split
    · exact List.suffix_rfl
    · cases x with
      | error e => exact List.suffix_cons _ _
      | ok fragment => exact (ih _ _).trans (List.suffix_cons _ _)

theorem poll_suffix (i : ι) (r : Reader σ ρ φ α) : (poll F i r).2.inner <:+ r.inner := by
  unfold poll
  split
  · exact List.suffix_rfl
  · exact pull_suffix i _ _ _

section
variable {i : ι} {s s' : σ} {buffer rest : List α}

/-- The buffer has a line that yields an item. -/
theorem pull_of_some {e : ε} (h : next F.sep (F.handle i) s buffer = (some e, s', rest))
    (inner : List (Except ρ φ)) : pull F i inner buffer s = (some e, ⟨inner, rest, s'⟩) := by
  unfold pull
  rw [h]

theorem pull_cons_error (h : next F.sep (F.handle i) s buffer = (none, s', rest)) (x : ρ)
    (inner : List (Except ρ φ)) :
    pull F i (.error x :: inner) buffer s = (some (F.fail x), ⟨inner, rest, s'⟩) := by
  unfold pull
  rw [h]

theorem pull_cons_ok (h : next F.sep (F.handle i) s buffer = (none, s', rest)) (fragment : φ)
    (inner : List (Except ρ φ)) :
    pull F i (.ok fragment :: inner) buffer s = pull F i inner (rest ++ F.decode fragment) s' := by
  conv => lhs; unfold pull
  rw [h]

end

/-- Where fragments are left, others may come in their place. -/
theorem pull_swap {i : ι} {inner : List (Except ρ φ)} {buffer : List α} {s : σ}
    (h : (pull F i inner buffer s).2.inner ≠ []) :
    ∃ p, inner = p ++ (pull F i inner buffer s).2.inner ∧ ∀ q, pull F i (p ++ q) buffer s =
      ((pull F i inner buffer s).1, { (pull F i inner buffer s).2 with inner := q }) := by
  induction inner generalizing buffer s with
  | nil => exact absurd (List.suffix_nil.1 (pull_suffix i [] buffer s)) h
  | cons x inner ih =>
    cases hnext : next F.sep (F.handle i) s buffer with
    | mk o p =>
      obtain ⟨s', rest⟩ := p
      cases o with
      | some e =>
        -- no fragment is taken
        rw [pull_of_some hnext]
        refine ⟨[], rfl, fun q => ?_⟩
        rw [List.nil_append, pull_of_some hnext]
      | none =>
        cases x with
        | error e =>
          rw [pull_cons_error hnext]
          refine ⟨[.error e], rfl, fun q => ?_⟩
          rw [List.singleton_append, pull_cons_error hnext]
        | ok fragment =>
          rw [pull_cons_ok hnext] at h ⊢
          obtain ⟨p, hp, hswap⟩ := ih h
          refine ⟨.ok fragment :: p, ?_, fun q => ?_⟩
          · rw [List.cons_append, ← hp]
          · rw [List.cons_append, pull_cons_ok hnext]
            exact hswap q

theorem poll_of_closed {i : ι} {s : σ} {p : Option ε × σ} (h : F.closed i s = some p)
    (inner : List (Except ρ φ)) (buffer : List α) :
    poll F i ⟨inner, buffer, s⟩ = (p.1, ⟨inner, buffer, p.2⟩) := by
  unfold poll
  dsimp only
  rw [h]

theorem poll_of_open {i : ι} {s : σ} (h : F.closed i s = none) (inner : List (Except ρ φ))
    (buffer : List α) : poll F i ⟨inner, buffer, s⟩ = pull F i inner buffer s := by
  unfold poll
  dsimp only
  rw [h]

theorem poll_swap {i : ι} {r : Reader σ ρ φ α} (h : (poll F i r).2.inner ≠ []) :
    ∃ p, r.inner = p ++ (poll F i r).2.inner ∧ ∀ q, poll F i { r with inner := p ++ q } =
      ((poll F i r).1, { (poll F i r).2 with inner := q }) := by
  obtain ⟨inner, buffer, s⟩ := r
  cases hclosed : F.closed i s with
  | some e =>
    rw [poll_of_closed hclosed]
    exact ⟨[], rfl, fun q => poll_of_closed hclosed q buffer⟩
  | none =>
    rw [poll_of_open hclosed] at h ⊢
    obtain ⟨p, hp, hswap⟩ := pull_swap h
    refine ⟨p, hp, fun q => ?_⟩
    rw [← hswap q]
    exact poll_of_open hclosed _ buffer

/-! ## A run -/

variable {input : Nat → ι} {r : Reader σ ρ φ α} {n : Nat}

theorem state_suffix (input : Nat → ι) (r : Reader σ ρ φ α) (n : Nat) :
    (Polling.state (poll F) input r n).inner <:+ r.inner := by
  induction n with
  | zero => exact List.suffix_rfl
  | succ n ih => exact (poll_suffix (input n) _).trans ih

/-- What has been taken and what is to come. -/
theorem taken_append (input : Nat → ι) (r : Reader σ ρ φ α) (n : Nat) :
    taken F input r n ++ (Polling.state (poll F) input r n).inner = r.inner := by
  obtain ⟨p, hp⟩ := state_suffix (F := F) input r n
  have hlen : r.inner.length - (Polling.state (poll F) input r n).inner.length = p.length := by
    rw [← hp, List.length_append, Nat.add_sub_cancel]
  unfold taken
  rw [hlen]
  conv => lhs; rw [← hp]
  rw [List.take_left']
  · exact hp
  · rfl

/-- As long as fragments are left, others may come in their place. -/
theorem run_swap (h : (Polling.state (poll F) input r n).inner ≠ []) (q : List (Except ρ φ)) :
    Polling.state (poll F) input { r with inner := taken F input r n ++ q } n =
        { Polling.state (poll F) input r n with inner := q } ∧
      ∀ k < n, Polling.item (poll F) input { r with inner := taken F input r n ++ q } k =
        Polling.item (poll F) input r k := by
  suffices hrun : ∃ p, r.inner = p ++ (Polling.state (poll F) input r n).inner ∧
      ∀ q, Polling.state (poll F) input { r with inner := p ++ q } n =
          { Polling.state (poll F) input r n with inner := q } ∧
        ∀ k < n, Polling.item (poll F) input { r with inner := p ++ q } k =
          Polling.item (poll F) input r k by
    obtain ⟨p, hp, hswap⟩ := hrun
    have htaken : taken F input r n = p :=
      List.append_cancel_right ((taken_append input r n).trans hp)
    rw [htaken]
    exact hswap q
  clear q
  induction n with
  | zero => exact ⟨[], rfl, fun q => ⟨rfl, fun k hk => absurd hk (Nat.not_lt_zero k)⟩⟩
  | succ n ih =>
    obtain ⟨p', hp', hpoll⟩ := poll_swap (F := F) (i := input n) h
    have hleft : (Polling.state (poll F) input r n).inner ≠ [] := by
      intro hnil
      rw [hnil] at hp'
      exact h (List.append_eq_nil_iff.1 hp'.symm).2
    obtain ⟨p, hp, hrun⟩ := ih hleft
    refine ⟨p ++ p', ?_, fun q => ?_⟩
    · show r.inner = p ++ p' ++ (poll F (input n) (Polling.state (poll F) input r n)).2.inner
      rw [List.append_assoc, ← hp']
      exact hp
    · obtain ⟨hstate, hitem⟩ := hrun (p' ++ q)
      rw [← List.append_assoc] at hstate hitem
      constructor
      · show (poll F (input n) (Polling.state (poll F) input _ n)).2 = _
        rw [hstate, hpoll q]
        rfl
      · intro k hk
        rcases Nat.lt_succ_iff_lt_or_eq.1 hk with hk | rfl
        · exact hitem k hk
        · show (poll F (input k) (Polling.state (poll F) input _ k)).1 = _
          rw [hstate, hpoll q]
          rfl

/-! ## Two readers -/

/-- A reader that begins with the text which another one has taken yields the same, as far as `f`
keeps it. -/
theorem item_of_prefix {f : ε → β} (hF : F.Forgets f) {t : Reader σ ρ φ α}
    (hdecode : ∀ text, ∃ fragment, F.decode fragment = text) (hr : ErrorFree r.inner)
    (ht : ErrorFree t.inner) (hstate : r.state = t.state) (hbuffer : r.buffer = t.buffer)
    (hleft : (Polling.state (poll F) input r n).inner ≠ [])
    (hbegins : textOf F (taken F input r n) <+: textOf F t.inner) (input' : Nat → ι) {k : Nat}
    (hk : k < n) :
    (Polling.item (poll F) input r k).map f = (Polling.item (poll F) input' t k).map f := by
  obtain ⟨text, htext⟩ := hbegins
  obtain ⟨fragment, hfragment⟩ := hdecode text
  -- what is left of the other text comes in one fragment
  rw [← (run_swap hleft [.ok fragment]).2 k hk]
  have hfree : ErrorFree (taken F input r n ++ [.ok fragment]) := by
    intro x hx
    rcases List.mem_append.1 hx with hx | hx
    · exact hr x (List.mem_of_mem_take hx)
    · rw [List.mem_singleton.1 hx]
      rfl
  have hwhole : textOf F (taken F input r n ++ [.ok fragment]) = textOf F t.inner := by
    rw [← htext, ← hfragment]
    unfold textOf
    rw [List.flatMap_append, List.flatMap_singleton]
  refine item_fragments hF (r := { r with inner := taken F input r n ++ [.ok fragment] }) hfree ht
    ?_ input input' k
  unfold abs
  dsimp only
  rw [hwhole, hstate, hbuffer]

end Lines
