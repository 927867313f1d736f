import Mathlib.Data.List.Basic
import Mathlib.Algebra.Order.Group.Nat

/-!
# Lib.Windows — a list in pieces of one length

`windows k l` cuts a list into pieces of `k` items, from the front; what is left in the end and
is shorter is dropped. What comes behind a list leaves its pieces alone (`windows_prefix`), and if
nothing is left of it, the pieces of what follows come behind its own (`windows_append`).
-/

namespace Windows

variable {α : Type*} {k : Nat} {l l' : List α}

/-- The `i`th piece. -/
def window (k : Nat) (l : List α) (i : Nat) : List α := (l.drop (i * k)).take k

/-- All pieces of full length. -/
def windows (k : Nat) (l : List α) : List (List α) :=
  (List.range (l.length / k)).map (window k l)

@[simp] theorem length_windows : (windows k l).length = l.length / k := by
  rw [windows, List.length_map, List.length_range]

theorem getElem?_windows {i : Nat} (hi : i < l.length / k) :
    (windows k l)[i]? = some (window k l i) := by
  rw [windows, List.getElem?_map, List.getElem?_range hi]
  rfl

theorem windows_of_lt (hlt : l.length < k) : windows k l = [] := by
  rw [windows, Nat.div_eq_of_lt hlt]
  rfl

/-- A piece that ends before the list does is not changed by what comes behind. -/
theorem window_append_left {i : Nat} (hi : (i + 1) * k ≤ l.length) :
    window k (l ++ l') i = window k l i := by
  rw [Nat.add_mul, Nat.one_mul] at hi
  unfold window
  rw [List.drop_append_of_le_length (by omega), List.take_append_of_le_length]
  rw [List.length_drop]
  omega

/-- The pieces of what comes behind a list of `n` pieces. -/
theorem window_append_right {n : Nat} (hn : l.length = n * k) (i : Nat) :
    window k (l ++ l') (n + i) = window k l' i := by
  unfold window
  rw [Nat.add_mul, ← hn, List.drop_length_add_append]

theorem windows_append (hk : 0 < k) (hdvd : k ∣ l.length) :
    windows k (l ++ l') = windows k l ++ windows k l' := by
  have hlen : l.length = l.length / k * k := (Nat.div_mul_cancel hdvd).symm
  have hdiv : (l.length + l'.length) / k = l.length / k + l'.length / k := by
    conv_lhs => rw [hlen, Nat.add_comm, Nat.add_mul_div_right _ _ hk, Nat.add_comm]
  unfold windows
  rw [List.length_append, hdiv, List.range_add, List.map_append, List.map_map]
  congr 1
  · apply List.map_congr_left
    intro i hi
    apply window_append_left
    rw [List.mem_range] at hi
    rw [hlen]
    exact Nat.mul_le_mul_right k hi
  · apply List.map_congr_left
    intro i _
    exact window_append_right hlen i

/-- The part of a list that its pieces cover. -/
theorem dvd_length_covered : k ∣ (l.take (l.length / k * k)).length := by
  have hle : l.length / k * k ≤ l.length := Nat.div_mul_le_self _ _
  rw [List.length_take, Nat.min_eq_left hle]
  exact Nat.dvd_mul_left _ _

/-- The pieces do not depend on what is left in the end. -/
theorem windows_covered (hk : 0 < k) : windows k (l.take (l.length / k * k)) = windows k l := by
  have hrest : windows k (l.drop (l.length / k * k)) = [] := by
    apply windows_of_lt
    rw [List.length_drop, ← Nat.mod_eq_sub_div_mul]
    exact Nat.mod_lt _ hk
  calc windows k (l.take (l.length / k * k))
      = windows k (l.take (l.length / k * k)) ++ windows k (l.drop (l.length / k * k)) := by
        rw [hrest, List.append_nil]
    _ = windows k l := by rw [← windows_append hk dvd_length_covered, List.take_append_drop]

theorem windows_prefix (hk : 0 < k) (l l' : List α) : windows k l <+: windows k (l ++ l') := by
  refine ⟨windows k (l.drop (l.length / k * k) ++ l'), ?_⟩
  calc windows k l ++ windows k (l.drop (l.length / k * k) ++ l')
      = windows k (l.take (l.length / k * k) ++ (l.drop (l.length / k * k) ++ l')) := by
        rw [windows_append hk dvd_length_covered, windows_covered hk]
    _ = windows k (l ++ l') := by rw [← List.append_assoc, List.take_append_drop]

/-- The first piece, and those of the rest. -/
theorem windows_eq_cons (hk : 0 < k) (hle : k ≤ l.length) :
    windows k l = l.take k :: windows k (l.drop k) := by
  have hlen : (l.take k).length = k := by rw [List.length_take, Nat.min_eq_left hle]
  have hdvd : k ∣ (l.take k).length := ⟨1, by rw [hlen, Nat.mul_one]⟩
  have hfirst : windows k (l.take k) = [l.take k] := by
    unfold windows
    rw [hlen, Nat.div_self hk]
    show [window k (l.take k) 0] = _
    unfold window
    rw [Nat.zero_mul, List.drop_zero, List.take_take, Nat.min_self]
  calc windows k l
      = windows k (l.take k ++ l.drop k) := by rw [List.take_append_drop]
    _ = l.take k :: windows k (l.drop k) := by
        rw [windows_append hk hdvd, hfirst]
        rfl

end Windows
