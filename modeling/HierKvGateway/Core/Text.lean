import Mathlib.Algebra.GroupWithZero.Nat
import Mathlib.Data.List.DropRight

/-!
# Core.Text — operations on text

What the program does with strings beyond comparing them, on lists of characters: trimming,
splitting into lines, and slicing at a byte offset.
-/

namespace HierKvGateway.Text

/-- The characters that Unicode calls white space (`char::is_whitespace`). -/
def isWhitespace (c : Char) : Bool :=
  let n := c.toNat
  (9 ≤ n && n ≤ 13) || n == 0x20 || n == 0x85 || n == 0xA0 || n == 0x1680 ||
    (0x2000 ≤ n && n ≤ 0x200A) || n == 0x2028 || n == 0x2029 || n == 0x202F || n == 0x205F ||
    n == 0x3000

/-- `str::trim`. -/
def trim (cs : List Char) : List Char := (cs.dropWhile isWhitespace).rdropWhile isWhitespace

/-- `str::trim_end_matches` of a character. -/
def trimEndMatches (c : Char) (cs : List Char) : List Char := cs.rdropWhile (· = c)

/-- `str::strip_prefix`. -/
def stripPrefix : List Char → List Char → Option (List Char)
  | [], cs => some cs
  | _ :: _, [] => none
  | p :: ps, c :: cs => if p = c then stripPrefix ps cs else none

/-- A line without its carriage return, if it has one. -/
def stripCarriageReturn (line : List Char) : List Char :=
  if line.getLast? = some '\r' then line.dropLast else line

/-- The lines of a text, when the characters `line` of the first are read; they are in reverse. -/
def linesFrom (line : List Char) : List Char → List (List Char)
  | [] => if line.isEmpty then [] else [line.reverse]
  | c :: cs =>
    if c = '\n' then stripCarriageReturn line.reverse :: linesFrom [] cs
    else linesFrom (c :: line) cs

/-- `str::lines`. -/
def lines (cs : List Char) : List (List Char) := linesFrom [] cs

/-- The length of a text in bytes (`str::len`). -/
def byteLen (cs : List Char) : Nat := (cs.map Char.utf8Size).sum

/-- What follows the first `n` bytes; `none` if they end inside a character. -/
def dropBytes : Nat → List Char → Option (List Char)
  | 0, cs => some cs
  | _ + 1, [] => none
  | n + 1, c :: cs => if c.utf8Size ≤ n + 1 then dropBytes (n + 1 - c.utf8Size) cs else none

/-! ## Bytes -/

theorem byteLen_append (cs ds : List Char) : byteLen (cs ++ ds) = byteLen cs + byteLen ds := by
  unfold byteLen
  rw [List.map_append, List.sum_append]

theorem byteLen_cons (c : Char) (cs : List Char) : byteLen (c :: cs) = c.utf8Size + byteLen cs :=
  rfl

/-- The bytes of a beginning of a text can be dropped. -/
theorem dropBytes_append (p ds : List Char) : dropBytes (byteLen p) (p ++ ds) = some ds := by
  induction p with
  | nil =>
    cases ds with
    | nil => rfl
    | cons d ds => rfl
  | cons c p ih =>
    have hpos := c.utf8Size_pos
    obtain ⟨n, hn⟩ := Nat.exists_eq_add_one.2 (Nat.lt_of_lt_of_le hpos
      (Nat.le_add_right c.utf8Size (byteLen p)))
    have hrest : n + 1 - c.utf8Size = byteLen p := by omega
    rw [byteLen_cons, hn, List.cons_append]
    unfold dropBytes
    rw [if_pos (by omega), hrest, ih]

/-- What is left is an end of the text. -/
theorem eq_append_of_dropBytes {n : Nat} {cs ds : List Char} (h : dropBytes n cs = some ds) :
    ∃ p, cs = p ++ ds ∧ byteLen p = n := by
  induction cs generalizing n with
  | nil =>
    cases n with
    | zero => exact ⟨[], Option.some.inj h, rfl⟩
    | succ n => exact absurd h.symm (Option.some_ne_none ds)
  | cons c cs ih =>
    cases n with
    | zero => exact ⟨[], Option.some.inj h, rfl⟩
    | succ n =>
      unfold dropBytes at h
      split at h
      · rename_i hle
        obtain ⟨p, rfl, hp⟩ := ih h
        refine ⟨c :: p, rfl, ?_⟩
        rw [byteLen_cons]
        omega
      · exact absurd h.symm (Option.some_ne_none ds)

/-- What is dropped is a beginning of the text with that many bytes. -/
theorem dropBytes_eq_some_iff {n : Nat} {cs ds : List Char} :
    dropBytes n cs = some ds ↔ ∃ p, cs = p ++ ds ∧ byteLen p = n := by
  constructor
  · exact eq_append_of_dropBytes
  · rintro ⟨p, rfl, rfl⟩
    exact dropBytes_append p ds

/-! ## Prefixes and ends -/

theorem stripPrefix_append (p cs : List Char) : stripPrefix p (p ++ cs) = some cs := by
  induction p with
  | nil => rfl
  | cons c p ih =>
    show (if c = c then stripPrefix p (p ++ cs) else none) = some cs
    rw [if_pos rfl, ih]

theorem eq_append_of_stripPrefix {p cs rest : List Char} (h : stripPrefix p cs = some rest) :
    cs = p ++ rest := by
  induction p generalizing cs with
  | nil => exact Option.some.inj h
  | cons c p ih =>
    cases cs with
    | nil => exact absurd h.symm (Option.some_ne_none rest)
    | cons c' cs =>
      unfold stripPrefix at h
      split at h
      · rename_i heq
        rw [heq, ih h]
        rfl
      · exact absurd h.symm (Option.some_ne_none rest)

/-- What does not end in the character is not trimmed. -/
theorem trimEndMatches_append {c : Char} {p : List Char} (h : p.getLast? ≠ some c)
    (cs : List Char) : trimEndMatches c (p ++ cs) = p ++ trimEndMatches c cs := by
  induction cs using List.reverseRecOn with
  | nil =>
    rw [List.append_nil]
    show p.rdropWhile _ = p ++ []
    rw [List.append_nil, List.rdropWhile_eq_self_iff]
    intro hne hlast
    exact h ((List.getLast?_eq_some_getLast hne).trans (congrArg some (of_decide_eq_true hlast)))
  | append_singleton cs x ih =>
    unfold trimEndMatches at ih ⊢
    rw [← List.append_assoc]
    by_cases hx : x = c
    · rw [List.rdropWhile_concat_pos _ _ _ (by simpa using hx),
        List.rdropWhile_concat_pos _ _ _ (by simpa using hx), ih]
    · rw [List.rdropWhile_concat_neg _ _ _ (by simpa using hx),
        List.rdropWhile_concat_neg _ _ _ (by simpa using hx), List.append_assoc]

end HierKvGateway.Text
