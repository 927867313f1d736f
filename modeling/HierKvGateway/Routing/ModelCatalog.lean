import HierKvGateway.Core.Utf8
import HierKvGateway.Routing.KvEstimate

/-!
# Routing.ModelCatalog — the builtin catalog of models

The catalog of the KV estimator (`catalog.rs`) finds the specification of a model by its name: the
first pattern that occurs in it, whatever its case. The search compares the bytes of two texts in
two nested loops; in the model an index out of bounds has no result, so a result says that there
was none.

`lookupBuiltin_exact`: the loops find exactly the patterns that occur.
-/

namespace HierKvGateway

/-- The builtin specifications. -/
def builtinSpecs : List ModelSpec := [
  -- Llama 2
  ⟨32, 32, 128, .standard, .fp16, 0, 0, 0⟩,
  ⟨40, 40, 128, .standard, .fp16, 0, 0, 0⟩,
  ⟨80, 8, 128, .standard, .fp16, 0, 0, 0⟩,
  -- Llama 3 and 3.1
  ⟨32, 8, 128, .standard, .bf16, 0, 0, 0⟩,
  ⟨80, 8, 128, .standard, .bf16, 0, 0, 0⟩,
  ⟨126, 8, 128, .standard, .bf16, 0, 0, 0⟩,
  -- Qwen 2 and 2.5
  ⟨28, 4, 128, .standard, .bf16, 0, 0, 0⟩,
  ⟨48, 8, 128, .standard, .bf16, 0, 0, 0⟩,
  ⟨64, 8, 128, .standard, .bf16, 0, 0, 0⟩,
  ⟨80, 8, 128, .standard, .bf16, 0, 0, 0⟩,
  -- Mistral and Mixtral
  ⟨32, 8, 128, .standard, .fp16, 0, 0, 4096⟩,
  ⟨32, 8, 128, .standard, .fp16, 0, 0, 4096⟩,
  ⟨56, 8, 128, .standard, .fp16, 0, 0, 4096⟩,
  -- Gemma 2
  ⟨42, 8, 256, .standard, .bf16, 0, 0, 4096⟩,
  ⟨46, 16, 256, .standard, .bf16, 0, 0, 4096⟩,
  -- DeepSeek V2, V3 and R1
  ⟨27, 0, 0, .mla, .bf16, 512, 64, 0⟩,
  ⟨61, 0, 0, .mla, .bf16, 512, 64, 0⟩,
  -- ChatGLM3
  ⟨28, 2, 128, .standard, .fp16, 0, 0, 0⟩]

/-- Patterns of names, each with the index of a specification; the first that occurs counts. -/
def builtinNameMap : List (String × Nat) := [
  ("llama-2-7b", 0), ("llama2-7b", 0), ("llama-2-13b", 1), ("llama2-13b", 1),
  ("llama-2-70b", 2), ("llama2-70b", 2),
  ("llama-3.1-405b", 5), ("llama-3.3-70b", 4), ("llama-3.1-70b", 4), ("llama-3-70b", 4),
  ("llama-3.1-8b", 3), ("llama-3-8b", 3),
  ("qwen2.5-72b", 9), ("qwen2.5-32b", 8), ("qwen2.5-14b", 7), ("qwen2.5-7b", 6),
  ("qwen2.5-coder", 6), ("qwen2-72b", 9), ("qwen2-7b", 6),
  ("mixtral-8x22b", 12), ("mixtral-8x7b", 11), ("mistral-large", 11), ("mistral-7b", 10),
  ("gemma-2-27b", 14), ("gemma-2-9b", 13),
  ("deepseek-r1", 16), ("deepseek-v3", 16), ("deepseek-v2-lite", 15), ("deepseek-v2", 15),
  ("chatglm3", 17), ("glm-3", 17)]

/-! ## The search -/

/-- The bytes of a text. -/
def textBytes (s : String) : List UInt8 := Utf8.encode s.toList

/-- Lower case of the letters A to Z; every other byte is left alone. -/
def lowerByte (b : UInt8) : UInt8 := if 65 ≤ b ∧ b ≤ 90 then b + 32 else b

/-- The inner loop, from `j` on: whether the window at `i` differs from the needle. -/
def missLoop (h n : List UInt8) (i j : Nat) : Option Bool :=
  if j < n.length then
    match h[i + j]?, n[j]? with
    | some hb, some nb => if lowerByte hb ≠ nb then some true else missLoop h n i (j + 1)
    | _, _ => none
  else some false
termination_by n.length - j

/-- The outer loop, from the window at `i` on. -/
def windowLoop (h n : List UInt8) (last i : Nat) : Option Bool :=
  if i ≤ last then
    match missLoop h n i 0 with
    | some miss => if !miss then some true else windowLoop h n last (i + 1)
    | none => none
  else some false
termination_by last + 1 - i

/-- `contains_ascii_ci`; nothing if an index is out of bounds. -/
def containsAsciiCi (haystack needle : String) : Option Bool :=
  let h := textBytes haystack
  let n := textBytes needle
  if n.isEmpty then some true
  else if h.length < n.length then some false
  else windowLoop h n (h.length - n.length) 0

/-- The loop of `lookup_builtin` over the patterns. -/
def lookupLoop (model : String) : List (String × Nat) → Option (Option ModelSpec)
  | [] => some none
  | (pattern, idx) :: rest =>
    match containsAsciiCi model pattern with
    | some true => builtinSpecs[idx]?.map some
    | some false => lookupLoop model rest
    | none => none

/-- The specification of a model by its name. -/
def lookupBuiltin (model : String) : Option (Option ModelSpec) := lookupLoop model builtinNameMap

/-! ## Where a needle occurs -/

variable {h n : List UInt8} {i j last : Nat}

/-- A list occurs in another where it begins one of its ends. -/
theorem infix_iff_exists_drop {α : Type*} {l l' : List α} :
    l <:+: l' ↔ ∃ k, k + l.length ≤ l'.length ∧ l <+: l'.drop k := by
  constructor
  · rintro ⟨s, t, rfl⟩
    refine ⟨s.length, ?_, ?_⟩
    · rw [List.length_append, List.length_append]
      omega
    · rw [List.append_assoc, List.drop_left]
      exact List.prefix_append l t
  · rintro ⟨k, -, hprefix⟩
    exact hprefix.isInfix.trans (List.drop_suffix k l').isInfix

/-- What is left of a list from an index on. -/
theorem drop_eq_cons {α : Type*} {l : List α} {k : Nat} {x : α} (hx : l[k]? = some x) :
    l.drop k = x :: l.drop (k + 1) := by
  rcases List.getElem?_eq_some_iff.1 hx with ⟨hk, rfl⟩
  exact List.drop_eq_getElem_cons hk

/-- One byte of the needle and one of the window. -/
theorem drop_prefix_drop {hb nb : UInt8} (hh : h[i + j]? = some hb) (hn : n[j]? = some nb) :
    n.drop j <+: (h.map lowerByte).drop (i + j) ↔
      lowerByte hb = nb ∧ n.drop (j + 1) <+: (h.map lowerByte).drop (i + (j + 1)) := by
  have hlower : (h.map lowerByte)[i + j]? = some (lowerByte hb) := by
    rw [List.getElem?_map, hh]
    rfl
  rw [drop_eq_cons hn, drop_eq_cons hlower, List.cons_prefix_cons, Nat.add_assoc, eq_comm]

/-- The inner loop compares what is left of the needle with the window, and reads in bounds. -/
theorem missLoop_spec (hle : i + n.length ≤ h.length) (j : Nat) :
    ∃ miss, missLoop h n i j = some miss ∧
      (miss = false ↔ n.drop j <+: (h.map lowerByte).drop (i + j)) := by
  fun_induction missLoop h n i j with
  | case1 j hj hb nb hn hh hne =>
    -- the bytes differ
    refine ⟨true, rfl, ?_⟩
    rw [drop_prefix_drop hh hn]
    exact iff_of_false Bool.noConfusion fun hboth => hne hboth.1
  | case2 j hj hb nb hn hh heq ih =>
    rcases ih with ⟨miss, hmiss, hiff⟩
    refine ⟨miss, hmiss, hiff.trans ?_⟩
    rw [drop_prefix_drop hh hn]
    exact (and_iff_right (not_not.1 heq)).symm
  | case3 j hj hnone =>
    -- both indices are in bounds
    have hwindow : i + j < h.length := by omega
    exact absurd (List.getElem?_eq_getElem hj) (hnone _ _ (List.getElem?_eq_getElem hwindow))
  | case4 j hj =>
    -- the end of the needle
    refine ⟨false, rfl, iff_of_true rfl ?_⟩
    rw [List.drop_of_length_le (Nat.le_of_not_lt hj)]
    exact List.nil_prefix

/-- Compared from its first byte on, the window at `i` is the needle or it is not. -/
theorem missLoop_zero (hle : i + n.length ≤ h.length) {miss : Bool}
    (hrun : missLoop h n i 0 = some miss) : miss = false ↔ n <+: (h.map lowerByte).drop i := by
  rcases missLoop_spec hle 0 with ⟨miss', hrun', hiff⟩
  rw [List.drop_zero, Nat.add_zero] at hiff
  rw [hrun] at hrun'
  rw [Option.some.inj hrun']
  exact hiff

/-- The outer loop looks at every window from `i` on. -/
theorem windowLoop_spec (hlast : last + n.length ≤ h.length) (i : Nat) :
    ∃ found, windowLoop h n last i = some found ∧
      (found = true ↔ ∃ k, i ≤ k ∧ k ≤ last ∧ n <+: (h.map lowerByte).drop k) := by
  fun_induction windowLoop h n last i with
  | case1 i hi miss hrun hfound =>
    -- the window at `i` is the needle
    have hprefix := (missLoop_zero (by omega) hrun).1 (by simpa using hfound)
    exact ⟨true, rfl, iff_of_true rfl ⟨i, le_rfl, hi, hprefix⟩⟩
  | case2 i hi miss hrun hdiffers ih =>
    have hnot : ¬ n <+: (h.map lowerByte).drop i := by
      intro hprefix
      rw [(missLoop_zero (by omega) hrun).2 hprefix] at hdiffers
      exact hdiffers rfl
    rcases ih with ⟨found, hrest, hfound⟩
    refine ⟨found, hrest, hfound.trans ?_⟩
    constructor
    · rintro ⟨k, hik, hk, hprefix⟩
      exact ⟨k, by omega, hk, hprefix⟩
    · rintro ⟨k, hik, hk, hprefix⟩
      -- it is another window than the one at `i`
      have hne : k ≠ i := by
        rintro rfl
        exact hnot hprefix
      exact ⟨k, by omega, hk, hprefix⟩
  | case3 i hi hnone =>
    -- the inner loop has a result
    rcases missLoop_spec (h := h) (n := n) (i := i) (by omega) 0 with ⟨miss, hrun, -⟩
    rw [hrun] at hnone
    exact absurd hnone (Option.some_ne_none miss)
  | case4 i hi =>
    -- there is no further window
    refine ⟨false, rfl, iff_of_false Bool.noConfusion ?_⟩
    rintro ⟨k, hik, hk, -⟩
    omega

/-- The search has a result, and it is right. -/
theorem containsAsciiCi_spec (haystack needle : String) :
    ∃ found, containsAsciiCi haystack needle = some found ∧
      (found = true ↔ textBytes needle <:+: (textBytes haystack).map lowerByte) := by
  unfold containsAsciiCi
  dsimp only
  split
  · rename_i hempty
    rw [List.isEmpty_iff.1 hempty]
    exact ⟨true, rfl, iff_of_true rfl List.nil_infix⟩
  split
  · rename_i hlong
    refine ⟨false, rfl, iff_of_false Bool.noConfusion fun hinfix => ?_⟩
    have hle := hinfix.length_le
    rw [List.length_map] at hle
    omega
  · rename_i hshort
    have hlast : (textBytes haystack).length - (textBytes needle).length +
        (textBytes needle).length ≤ (textBytes haystack).length := by
      omega
    rcases windowLoop_spec hlast 0 with ⟨found, hrun, hfound⟩
    refine ⟨found, hrun, hfound.trans ?_⟩
    rw [infix_iff_exists_drop, List.length_map]
    apply exists_congr
    intro k
    constructor
    · rintro ⟨-, hk, hprefix⟩
      exact ⟨by omega, hprefix⟩
    · rintro ⟨hk, hprefix⟩
      exact ⟨Nat.zero_le k, by omega, hprefix⟩

/-! ## The catalog -/

/-- A pattern occurs in a name, ignoring the case of ASCII letters. -/
def OccursIn (name pattern : String) : Prop :=
  (textBytes pattern).map lowerByte <:+: (textBytes name).map lowerByte

/-- The specification at the index of the first pattern that occurs, or none if none occurs. -/
def FirstOccurring (name : String) (patterns : List (String × Nat)) : Option ModelSpec → Prop
  | none => ∀ p ∈ patterns, ¬ OccursIn name p.1
  | some spec => ∃ before pattern idx after, patterns = before ++ (pattern, idx) :: after ∧
      (∀ p ∈ before, ¬ OccursIn name p.1) ∧ OccursIn name pattern ∧
      builtinSpecs[idx]? = some spec

/-- An entry of the table: the pattern is in lower case, and the specification exists. -/
def EntryOk (entry : String × Nat) : Prop :=
  (textBytes entry.1).map lowerByte = textBytes entry.1 ∧ entry.2 < builtinSpecs.length

instance (entry : String × Nat) : Decidable (EntryOk entry) := inferInstanceAs (Decidable (_ ∧ _))

theorem builtinNameMap_ok : ∀ entry ∈ builtinNameMap, EntryOk entry := by decide

theorem FirstOccurring.cons {name : String} {entry : String × Nat}
    {patterns : List (String × Nat)} {result : Option ModelSpec} (hnot : ¬ OccursIn name entry.1)
    (h : FirstOccurring name patterns result) : FirstOccurring name (entry :: patterns) result := by
  cases result with
  | none => exact List.forall_mem_cons.2 ⟨hnot, h⟩
  | some spec =>
    rcases h with ⟨before, pattern, idx, after, rfl, hbefore, hoccurs, hspec⟩
    exact ⟨entry :: before, pattern, idx, after, rfl, List.forall_mem_cons.2 ⟨hnot, hbefore⟩,
      hoccurs, hspec⟩

theorem lookupLoop_spec (model : String) {patterns : List (String × Nat)}
    (hok : ∀ entry ∈ patterns, EntryOk entry) :
    ∃ result, lookupLoop model patterns = some result ∧ FirstOccurring model patterns result := by
  induction patterns with
  | nil => exact ⟨none, rfl, List.forall_mem_nil _⟩
  | cons entry patterns ih =>
    rcases List.forall_mem_cons.1 hok with ⟨⟨hlower, hidx⟩, hrest⟩
    rcases containsAsciiCi_spec model entry.1 with ⟨found, hrun, hfound⟩
    rw [← hlower] at hfound
    unfold lookupLoop
    rw [hrun]
    cases found with
    | true =>
      rw [List.getElem?_eq_getElem hidx]
      exact ⟨_, rfl, [], entry.1, entry.2, patterns, rfl, List.forall_mem_nil _, hfound.1 rfl,
        List.getElem?_eq_getElem hidx⟩
    | false =>
      rcases ih hrest with ⟨result, hresult, hfirst⟩
      exact ⟨result, hresult, hfirst.cons fun hoccurs => Bool.noConfusion (hfound.2 hoccurs)⟩

/-- For every two texts, and for the name of every model. -/
theorem lookupBuiltin_exact :
    (∀ haystack needle, ∃ found, containsAsciiCi haystack needle = some found ∧
      (found = true ↔ textBytes needle <:+: (textBytes haystack).map lowerByte)) ∧
    ∀ model, ∃ result, lookupBuiltin model = some result ∧
      FirstOccurring model builtinNameMap result :=
  ⟨containsAsciiCi_spec, fun model => lookupLoop_spec model builtinNameMap_ok⟩

end HierKvGateway
