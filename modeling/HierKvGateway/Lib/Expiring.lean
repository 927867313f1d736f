import HierKvGateway.Lib.Update

/-!
# Lib.Expiring — maps whose entries expire

A table keeps each value with its deadline. An entry is live before its deadline and
counts as missing from then on, whether or not it has been removed (`get`).

Two tables may keep the same entries under different clocks, one of which ticks `q`
times as fast (`Agree`). The slow one rounds a deadline down, so the two differ
on an entry during the slow tick that its deadline falls in, and at no other time
(`Agree.get_eq`, where `Sharp` excludes that tick).
-/

/-- A map from keys to values with deadlines. -/
abbrev Expiring (κ ν : Type*) := AList fun _ : κ => ν × ℕ

namespace Expiring

variable {κ κ' ν μ : Type*} [DecidableEq κ] [DecidableEq κ']

/-- The value under a key, if its deadline has not come. -/
def get (t : Expiring κ ν) (now : ℕ) (k : κ) : Option ν :=
  match t.lookup k with
  | some (v, deadline) => if now < deadline then some v else none
  | none => none

/-- Keep a value until a deadline. -/
def put (t : Expiring κ ν) (k : κ) (v : ν) (deadline : ℕ) : Expiring κ ν :=
  t.insert k (v, deadline)

/-- Forget a key. -/
def remove (t : Expiring κ ν) (k : κ) : Expiring κ ν := t.erase k

/-- The live entries. -/
def liveEntries (t : Expiring κ ν) (now : ℕ) : List (κ × ν) :=
  t.entries.filterMap fun ⟨k, v, deadline⟩ => if now < deadline then some (k, v) else none

section Basic

variable {t : Expiring κ ν} {now : ℕ} {k k' : κ} {v : ν} {d : ℕ}

@[simp] theorem lookup_put_self (t : Expiring κ ν) (k : κ) (v : ν) (d : ℕ) :
    (t.put k v d).lookup k = some (v, d) := AList.lookup_insert t

theorem lookup_put_of_ne (h : k' ≠ k) : (t.put k v d).lookup k' = t.lookup k' :=
  AList.lookup_insert_ne h

theorem lookup_remove_of_ne (h : k' ≠ k) : (t.remove k).lookup k' = t.lookup k' :=
  AList.lookup_erase_ne h

theorem lookup_of_put {x : ν × ℕ} (h : (t.put k v d).lookup k' = some x) :
    k' = k ∧ x = (v, d) ∨ k' ≠ k ∧ t.lookup k' = some x := AList.lookup_of_insert h

theorem lookup_of_remove {x : ν × ℕ} (h : (t.remove k).lookup k' = some x) :
    k' ≠ k ∧ t.lookup k' = some x := AList.lookup_of_erase h

@[simp] theorem lookup_empty (k : κ) : (∅ : Expiring κ ν).lookup k = none :=
  AList.lookup_empty k

theorem get_eq_some : t.get now k = some v ↔ ∃ d, t.lookup k = some (v, d) ∧ now < d := by
  unfold get
  constructor
  · intro h
    split at h
    · next v' d hlookup =>
      split at h
      · next hlt =>
        rcases Option.some.inj h with rfl
        exact ⟨d, hlookup, hlt⟩
      · exact absurd h nofun
    · exact absurd h nofun
  · rintro ⟨d, hlookup, hlt⟩
    rw [hlookup]
    exact if_pos hlt

theorem get_eq_none : t.get now k = none ↔ ∀ v d, t.lookup k = some (v, d) → d ≤ now := by
  constructor
  · intro h v d hlookup
    by_contra hlt
    have hsome : t.get now k = some v := get_eq_some.2 ⟨d, hlookup, Nat.lt_of_not_le hlt⟩
    rw [h] at hsome
    exact absurd hsome nofun
  · intro h
    rw [Option.eq_none_iff_forall_ne_some]
    intro v hsome
    rcases get_eq_some.1 hsome with ⟨d, hlookup, hlt⟩
    exact absurd (h v d hlookup) (Nat.not_le_of_lt hlt)

theorem get_put_self (h : now < d) : (t.put k v d).get now k = some v :=
  get_eq_some.2 ⟨d, lookup_put_self t k v d, h⟩

theorem mem_liveEntries : (k, v) ∈ t.liveEntries now ↔ t.get now k = some v := by
  rw [liveEntries, List.mem_filterMap, get_eq_some]
  constructor
  · rintro ⟨⟨k', v', d⟩, hmem, heq⟩
    dsimp only at heq
    split at heq
    · next hlt =>
      cases heq
      exact ⟨d, AList.mem_lookup_iff.2 hmem, hlt⟩
    · exact absurd heq nofun
  · rintro ⟨d, hlookup, hlt⟩
    exact ⟨⟨k, v, d⟩, AList.mem_lookup_iff.1 hlookup, if_pos hlt⟩

/-- Items selected from a list, each recognised by a label of what it was selected from. -/
theorem map_filterMap_sublist {α β γ : Type*} {f : α → Option β} {g : β → γ} {h : α → γ}
    {l : List α} (hlabel : ∀ a ∈ l, ∀ b, f a = some b → g b = h a) :
    ((l.filterMap f).map g).Sublist (l.map h) := by
  induction l with
  | nil => exact List.Sublist.slnil
  | cons a l ih =>
    rw [List.forall_mem_cons] at hlabel
    rcases hlabel with ⟨ha, hl⟩
    rw [List.filterMap_cons, List.map_cons]
    cases hf : f a with
    | none => exact (ih hl).cons (h a)
    | some b =>
      dsimp only
      rw [List.map_cons, ha b hf]
      exact (ih hl).cons_cons (h a)

omit [DecidableEq κ] in
/-- No key has two live entries. -/
theorem nodup_liveEntries (t : Expiring κ ν) (now : ℕ) :
    ((t.liveEntries now).map Prod.fst).Nodup := by
  refine List.Sublist.nodup (map_filterMap_sublist ?_) t.keys_nodup
  rintro ⟨k, v, d⟩ _ e he
  dsimp only at he
  split at he
  · cases he
    rfl
  · exact absurd he nofun

end Basic

section Agree

/-! ## One table under two clocks

`slow` is read at `now / q` and `fast` at `now`; a key `k` of `slow` is `key k` in `fast`,
where its value is written `enc k v`. Keys of `slow` with the same `key` are twins. -/

variable {q : ℕ} {key : κ → κ'} {enc : κ → ν → μ} {now : ℕ} {slow : Expiring κ ν}
  {fast : Expiring κ' μ} {k : κ} {v : ν}

/-- What is live in one table is in the other, with the same deadline up to rounding. -/
structure Agree (q : ℕ) (key : κ → κ') (enc : κ → ν → μ) (now : ℕ) (slow : Expiring κ ν)
    (fast : Expiring κ' μ) : Prop where
  fast_of_slow : ∀ k v e, slow.lookup k = some (v, e) → now / q < e →
    ∃ d, fast.lookup (key k) = some (enc k v, d) ∧ d / q = e
  slow_of_fast : ∀ k x d, fast.lookup (key k) = some (x, d) → now < d →
    ∃ k' v, key k' = key k ∧ slow.lookup k' = some (v, d / q) ∧ x = enc k' v

/-- The deadline of the key, if it has not come, is not in the current slow tick. -/
def Sharp (q : ℕ) (now : ℕ) (fast : Expiring κ' μ) (k : κ') : Prop :=
  ∀ x d, fast.lookup k = some (x, d) → now < d → now / q < d / q

/-- No twin of the key is live. -/
def NoTwin (q : ℕ) (key : κ → κ') (now : ℕ) (slow : Expiring κ ν) (k : κ) : Prop :=
  ∀ k' v e, slow.lookup k' = some (v, e) → now / q < e → key k' = key k → k' = k

omit [DecidableEq κ'] in
theorem noTwin_of_injective (h : Function.Injective key) : NoTwin q key now slow k :=
  fun _ _ _ _ _ hkey => h hkey

theorem lt_of_div_lt {d : ℕ} (h : now / q < d / q) : now < d := by
  by_contra hle
  have := Nat.div_le_div_right (c := q) (Nat.le_of_not_lt hle)
  omega

namespace Agree

theorem empty : Agree q key enc now (∅ : Expiring κ ν) (∅ : Expiring κ' μ) where
  fast_of_slow := by
    intro k v e h
    rw [lookup_empty] at h
    exact absurd h nofun
  slow_of_fast := by
    intro k x d h
    rw [lookup_empty] at h
    exact absurd h nofun

/-- Time passes. -/
theorem mono {now' : ℕ} (h : Agree q key enc now slow fast) (hle : now ≤ now') :
    Agree q key enc now' slow fast where
  fast_of_slow := by
    intro k v e hlookup hlt
    have := Nat.div_le_div_right (c := q) hle
    exact h.fast_of_slow k v e hlookup (by omega)
  slow_of_fast k x d hlookup hlt := h.slow_of_fast k x d hlookup (by omega)

/-- A read gives the same in both tables. -/
theorem get_eq (h : Agree q key enc now slow fast) (hsharp : Sharp q now fast (key k))
    (htwin : NoTwin q key now slow k) :
    fast.get now (key k) = (slow.get (now / q) k).map (enc k) := by
  cases hslow : slow.get (now / q) k with
  | some v =>
    rcases get_eq_some.1 hslow with ⟨e, hlookup, hlt⟩
    rcases h.fast_of_slow k v e hlookup hlt with ⟨d, hfast, rfl⟩
    exact get_eq_some.2 ⟨d, hfast, lt_of_div_lt hlt⟩
  | none =>
    rw [Option.map_none, get_eq_none]
    intro x d hfast
    by_contra hlt
    have hlt : now < d := Nat.lt_of_not_le hlt
    rcases h.slow_of_fast k x d hfast hlt with ⟨k', v, hkey, hlookup, _⟩
    have hlive := hsharp x d hfast hlt
    rcases htwin k' v _ hlookup hlive hkey with rfl
    rw [get_eq_none] at hslow
    have := hslow v _ hlookup
    omega

/-- The same write in both tables. -/
theorem put (h : Agree q key enc now slow fast) (hq : 0 < q) (htwin : NoTwin q key now slow k)
    (v : ν) (s : ℕ) :
    Agree q key enc now (slow.put k v (now / q + s)) (fast.put (key k) (enc k v) (now + q * s)) where
  fast_of_slow := by
    intro k' v' e hlookup hlt
    rcases lookup_of_put hlookup with ⟨rfl, heq⟩ | ⟨hk, hlookup⟩
    · cases heq
      refine ⟨now + q * s, lookup_put_self _ _ _ _, ?_⟩
      rw [Nat.add_mul_div_left _ _ hq]
    · have hkey : key k' ≠ key k := fun hkey => hk (htwin k' v' e hlookup hlt hkey)
      rw [lookup_put_of_ne hkey]
      exact h.fast_of_slow k' v' e hlookup hlt
  slow_of_fast := by
    intro k' x d hlookup hlt
    rcases lookup_of_put hlookup with ⟨hkey, heq⟩ | ⟨hkey, hlookup⟩
    · cases heq
      refine ⟨k, v, hkey.symm, ?_, rfl⟩
      rw [lookup_put_self, Nat.add_mul_div_left _ _ hq]
    · rcases h.slow_of_fast k' x d hlookup hlt with ⟨k'', v', hkey', hlookup', hx⟩
      have hk : k'' ≠ k := fun hk => hkey (hkey' ▸ congrArg key hk)
      exact ⟨k'', v', hkey', by rwa [lookup_put_of_ne hk], hx⟩

/-- The same removal in both tables. -/
theorem remove (h : Agree q key enc now slow fast) (htwin : NoTwin q key now slow k) :
    Agree q key enc now (slow.remove k) (fast.remove (key k)) where
  fast_of_slow := by
    intro k' v' e hlookup hlt
    obtain ⟨hk, hlookup⟩ := lookup_of_remove hlookup
    have hkey : key k' ≠ key k := fun hkey => hk (htwin k' v' e hlookup hlt hkey)
    rw [lookup_remove_of_ne hkey]
    exact h.fast_of_slow k' v' e hlookup hlt
  slow_of_fast := by
    intro k' x d hlookup hlt
    obtain ⟨hkey, hlookup⟩ := lookup_of_remove hlookup
    rcases h.slow_of_fast k' x d hlookup hlt with ⟨k'', v', hkey', hlookup', hx⟩
    have hk : k'' ≠ k := fun hk => hkey (hkey' ▸ congrArg key hk)
    exact ⟨k'', v', hkey', by rwa [lookup_remove_of_ne hk], hx⟩

/-- The slow table forgets a key that is not live in the fast one. -/
theorem remove_dead (h : Agree q key enc now slow fast) (hdead : fast.get now (key k) = none) :
    Agree q key enc now (slow.remove k) fast where
  fast_of_slow := by
    intro k' v' e hlookup hlt
    exact h.fast_of_slow k' v' e (lookup_of_remove hlookup).2 hlt
  slow_of_fast := by
    intro k' x d hlookup hlt
    rcases h.slow_of_fast k' x d hlookup hlt with ⟨k'', v', hkey, hlookup', hx⟩
    have hk : k'' ≠ k := by
      rintro rfl
      rw [← hkey] at hlookup
      have := get_eq_none.1 hdead x d hlookup
      omega
    exact ⟨k'', v', hkey, by rwa [lookup_remove_of_ne hk], hx⟩

/-- The fast table changes under a key that is none of the slow table's. -/
theorem congr_fast {fast' : Expiring κ' μ} (h : Agree q key enc now slow fast)
    (heq : ∀ k, fast'.lookup (key k) = fast.lookup (key k)) :
    Agree q key enc now slow fast' where
  fast_of_slow := by
    intro k v e hlookup hlt
    rw [heq]
    exact h.fast_of_slow k v e hlookup hlt
  slow_of_fast := by
    intro k x d hlookup hlt
    rw [heq] at hlookup
    exact h.slow_of_fast k x d hlookup hlt

end Agree

end Agree

end Expiring
