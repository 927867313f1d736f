import Mathlib.Data.Nat.Notation
import Mathlib.Data.List.Basic

/-!
# Core.Utf8 — bytes as text

`String::from_utf8_lossy` puts `U+FFFD` in the place of bytes that are not UTF-8: one for a byte
that begins no character, and one for a character that breaks off, whether at a byte that cannot
follow or at the end of the bytes.

`Utf8.lossy_encode`: the bytes of a text are decoded to the text, but only if they are decoded
together.
-/

namespace HierKvGateway.Utf8

/-- `char::REPLACEMENT_CHARACTER`. -/
def replacement : Char := '\uFFFD'

/-- A character whose first bytes have been read. -/
structure Begun where
  /-- The bits of the bytes that have been read. -/
  value : Nat
  /-- How many bytes are still to come. -/
  more : Nat
  /-- The least and the greatest byte that may come next. -/
  lo : Nat
  hi : Nat
deriving DecidableEq, Repr

/-- The least byte that may follow the first of several. -/
def loSecond (b : Nat) : Nat := if b = 0xE0 then 0xA0 else if b = 0xF0 then 0x90 else 0x80

/-- The greatest byte that may follow the first of several. -/
def hiSecond (b : Nat) : Nat := if b = 0xED then 0x9F else if b = 0xF4 then 0x8F else 0xBF

/-- The first byte of a character: what has been decoded, and the character that is begun. -/
def first (b : Nat) : List Char × Option Begun :=
  if b < 0x80 then ([Char.ofNat b], none)
  else if 0xC2 ≤ b ∧ b ≤ 0xDF then ([], some ⟨b - 0xC0, 1, loSecond b, hiSecond b⟩)
  else if 0xE0 ≤ b ∧ b ≤ 0xEF then ([], some ⟨b - 0xE0, 2, loSecond b, hiSecond b⟩)
  else if 0xF0 ≤ b ∧ b ≤ 0xF4 then ([], some ⟨b - 0xF0, 3, loSecond b, hiSecond b⟩)
  else ([replacement], none)

/-- One byte. -/
def step : Option Begun → Nat → List Char × Option Begun
  | none, b => first b
  | some p, b =>
    if p.lo ≤ b ∧ b ≤ p.hi then
      if p.more = 1 then ([Char.ofNat (p.value * 64 + (b - 0x80))], none)
      else ([], some ⟨p.value * 64 + (b - 0x80), p.more - 1, 0x80, 0xBF⟩)
    -- the character has broken off, and the byte may begin another one
    else (replacement :: (first b).1, (first b).2)

/-- The rest of a text after some bytes. -/
def lossyFrom : Option Begun → List UInt8 → List Char
  | none, [] => []
  | some _, [] => [replacement]
  | p, b :: bytes => (step p b.toNat).1 ++ lossyFrom (step p b.toNat).2 bytes

/-- `String::from_utf8_lossy`. -/
def lossy (bytes : List UInt8) : List Char := lossyFrom none bytes

/-- `str::as_bytes`. -/
def encode (cs : List Char) : List UInt8 := cs.flatMap String.utf8EncodeChar

/-- The bytes are those of a text (`str::from_utf8`). -/
def Valid (bytes : List UInt8) : Prop := ∃ cs, encode cs = bytes

theorem lossyFrom_cons (p : Option Begun) (b : UInt8) (bytes : List UInt8) :
    lossyFrom p (b :: bytes) = (step p b.toNat).1 ++ lossyFrom (step p b.toNat).2 bytes := by
  cases p with
  | none => rfl
  | some p => rfl

theorem toNat_ofNat {n : Nat} (h : n < 256) : (UInt8.ofNat n).toNat = n := by
  rw [UInt8.toNat_ofNat']
  exact Nat.mod_eq_of_lt h

/-! ## Bytes of a text -/

variable {n : Nat} {bytes : List UInt8}

theorem lossyFrom_first (h : n < 256) :
    lossyFrom none (UInt8.ofNat n :: bytes) = (first n).1 ++ lossyFrom (first n).2 bytes := by
  rw [lossyFrom_cons, toNat_ofNat h]
  rfl

/-- A byte that continues a character and is not its last. -/
theorem lossyFrom_continue {value more lo hi : Nat} (h : lo ≤ n ∧ n ≤ hi) (hhi : hi < 256) :
    lossyFrom (some ⟨value, more + 2, lo, hi⟩) (UInt8.ofNat n :: bytes) =
      lossyFrom (some ⟨value * 64 + (n - 0x80), more + 1, 0x80, 0xBF⟩) bytes := by
  have hmore : more + 2 ≠ 1 := by omega
  rw [lossyFrom_cons, toNat_ofNat (by omega)]
  unfold step
  dsimp only
  rw [if_pos h, if_neg hmore]
  rfl

/-- The last byte of a character. -/
theorem lossyFrom_last {value lo hi : Nat} (h : lo ≤ n ∧ n ≤ hi) (hhi : hi < 256) :
    lossyFrom (some ⟨value, 1, lo, hi⟩) (UInt8.ofNat n :: bytes) =
      Char.ofNat (value * 64 + (n - 0x80)) :: lossyFrom none bytes := by
  rw [lossyFrom_cons, toNat_ofNat (by omega)]
  unfold step
  dsimp only
  rw [if_pos h, if_pos rfl]
  rfl

theorem first_two (hlo : 0xC2 ≤ n) (hhi : n ≤ 0xDF) :
    first n = ([], some ⟨n - 0xC0, 1, loSecond n, hiSecond n⟩) := by
  unfold first
  rw [if_neg (by omega), if_pos ⟨hlo, hhi⟩]

theorem first_three (hlo : 0xE0 ≤ n) (hhi : n ≤ 0xEF) :
    first n = ([], some ⟨n - 0xE0, 2, loSecond n, hiSecond n⟩) := by
  unfold first
  rw [if_neg (by omega), if_neg (by omega), if_pos ⟨hlo, hhi⟩]

theorem first_four (hlo : 0xF0 ≤ n) (hhi : n ≤ 0xF4) :
    first n = ([], some ⟨n - 0xF0, 3, loSecond n, hiSecond n⟩) := by
  unfold first
  rw [if_neg (by omega), if_neg (by omega), if_neg (by omega), if_pos ⟨hlo, hhi⟩]

theorem hiSecond_lt (b : Nat) : hiSecond b < 256 := by
  unfold hiSecond
  grind

/-! ### Characters of one to four bytes -/

theorem lossyFrom_one (bytes : List UInt8) (h : n < 0x80) :
    lossyFrom none (UInt8.ofNat n :: bytes) = Char.ofNat n :: lossyFrom none bytes := by
  have hfirst : first n = ([Char.ofNat n], none) := by
    unfold first
    rw [if_pos h]
  rw [lossyFrom_first (by omega), hfirst]
  rfl

theorem lossyFrom_two (bytes : List UInt8) (hlo : 0x80 ≤ n) (hhi : n < 0x800) :
    lossyFrom none (UInt8.ofNat (n / 64 + 0xC0) :: UInt8.ofNat (n % 64 + 0x80) :: bytes) =
      Char.ofNat n :: lossyFrom none bytes := by
  have hlast : loSecond (n / 64 + 0xC0) ≤ n % 64 + 0x80 ∧
      n % 64 + 0x80 ≤ hiSecond (n / 64 + 0xC0) := by
    unfold loSecond hiSecond
    grind
  have hvalue : (n / 64 + 0xC0 - 0xC0) * 64 + (n % 64 + 0x80 - 0x80) = n := by omega
  rw [lossyFrom_first (by omega), first_two (by omega) (by omega), List.nil_append,
    lossyFrom_last hlast (hiSecond_lt _), hvalue]

/-- The surrogates, which are left out, are what the second byte of three is bounded for. -/
theorem lossyFrom_three (bytes : List UInt8) (hlo : 0x800 ≤ n) (hhi : n < 0x10000)
    (hvalid : n < 0xD800 ∨ 0xDFFF < n) :
    lossyFrom none (UInt8.ofNat (n / 4096 + 0xE0) :: UInt8.ofNat (n / 64 % 64 + 0x80) ::
      UInt8.ofNat (n % 64 + 0x80) :: bytes) = Char.ofNat n :: lossyFrom none bytes := by
  have hsecond : loSecond (n / 4096 + 0xE0) ≤ n / 64 % 64 + 0x80 ∧
      n / 64 % 64 + 0x80 ≤ hiSecond (n / 4096 + 0xE0) := by
    unfold loSecond hiSecond
    grind
  have hvalue : ((n / 4096 + 0xE0 - 0xE0) * 64 + (n / 64 % 64 + 0x80 - 0x80)) * 64 +
      (n % 64 + 0x80 - 0x80) = n := by
    omega
  rw [lossyFrom_first (by omega), first_three (by omega) (by omega), List.nil_append,
    lossyFrom_continue hsecond (hiSecond_lt _), lossyFrom_last (by omega) (by decide), hvalue]

theorem lossyFrom_four (bytes : List UInt8) (hlo : 0x10000 ≤ n) (hhi : n < 0x110000) :
    lossyFrom none (UInt8.ofNat (n / 262144 + 0xF0) :: UInt8.ofNat (n / 4096 % 64 + 0x80) ::
      UInt8.ofNat (n / 64 % 64 + 0x80) :: UInt8.ofNat (n % 64 + 0x80) :: bytes) =
      Char.ofNat n :: lossyFrom none bytes := by
  have hsecond : loSecond (n / 262144 + 0xF0) ≤ n / 4096 % 64 + 0x80 ∧
      n / 4096 % 64 + 0x80 ≤ hiSecond (n / 262144 + 0xF0) := by
    unfold loSecond hiSecond
    grind
  have hvalue : (((n / 262144 + 0xF0 - 0xF0) * 64 + (n / 4096 % 64 + 0x80 - 0x80)) * 64 +
      (n / 64 % 64 + 0x80 - 0x80)) * 64 + (n % 64 + 0x80 - 0x80) = n := by
    omega
  rw [lossyFrom_first (by omega), first_four (by omega) (by omega), List.nil_append,
    lossyFrom_continue hsecond (hiSecond_lt _), lossyFrom_continue (by omega) (by decide),
    lossyFrom_last (by omega) (by decide), hvalue]

/-- The bytes of a character are decoded to it. -/
theorem lossyFrom_encodeChar (c : Char) (bytes : List UInt8) :
    lossyFrom none (String.utf8EncodeChar c ++ bytes) = c :: lossyFrom none bytes := by
  have hvalid : c.toNat < 0xD800 ∨ 0xDFFF < c.toNat ∧ c.toNat < 0x110000 := c.valid
  have hval : c.val.toNat = c.toNat := rfl
  have hback : c = Char.ofNat c.toNat := (Char.ofNat_toNat c).symm
  -- the leading bytes of the encoding are reduced modulo what their bits hold
  have htwo (h : c.toNat < 0x800) : c.toNat / 64 % 32 = c.toNat / 64 := by omega
  have hthree (h : c.toNat < 0x10000) : c.toNat / 4096 % 16 = c.toNat / 4096 := by omega
  have hfour : c.toNat / 262144 % 8 = c.toNat / 262144 := by omega
  unfold String.utf8EncodeChar
  change lossyFrom none ((if c.toNat ≤ _ then _ else _) ++ bytes) = _
  split
  · conv => rhs; rw [hback]
    exact lossyFrom_one bytes (by omega)
  split
  · conv => rhs; rw [hback]
    have hdecoded := lossyFrom_two (n := c.toNat) bytes (by omega) (by omega)
    rw [← htwo (by omega)] at hdecoded
    exact hdecoded
  split
  · conv => rhs; rw [hback]
    have hdecoded :=
      lossyFrom_three (n := c.toNat) bytes (by omega) (by omega) (by omega)
    rw [← hthree (by omega)] at hdecoded
    exact hdecoded
  · conv => rhs; rw [hback]
    have hdecoded := lossyFrom_four (n := c.toNat) bytes (by omega) (by omega)
    rw [← hfour] at hdecoded
    exact hdecoded

/-- The bytes of a text are decoded to the text, whatever follows them. -/
theorem lossy_encode_append (cs : List Char) (bytes : List UInt8) :
    lossy (encode cs ++ bytes) = cs ++ lossy bytes := by
  induction cs with
  | nil => rfl
  | cons c cs ih =>
    show lossyFrom none (encode (c :: cs) ++ bytes) = _
    have hencode : encode (c :: cs) = String.utf8EncodeChar c ++ encode cs := List.flatMap_cons
    rw [hencode, List.append_assoc, lossyFrom_encodeChar]
    exact congrArg (c :: ·) ih

/-- The bytes of a text are decoded to the text. -/
theorem lossy_encode (cs : List Char) : lossy (encode cs) = cs := by
  have h := lossy_encode_append cs []
  rw [List.append_nil] at h
  rw [h]
  exact List.append_nil cs

theorem encode_injective : Function.Injective encode :=
  Function.LeftInverse.injective lossy_encode

/-- The byte of a character of one byte occurs in no other character. -/
theorem eq_of_mem_encodeChar (h : n < 0x80) {c : Char}
    (hmem : UInt8.ofNat n ∈ String.utf8EncodeChar c) : c = Char.ofNat n := by
  have hval : c.val.toNat = c.toNat := rfl
  have hbyte {m : Nat} (hm : m < 256) (heq : UInt8.ofNat n = UInt8.ofNat m) : n = m := by
    rw [← toNat_ofNat (n := n) (by omega), heq, toNat_ofNat hm]
  -- all bytes of a longer character have their first bit set
  have hhigh (m : Nat) (hlo : 0x80 ≤ m) (hhi : m < 256) : UInt8.ofNat n ≠ UInt8.ofNat m := by
    intro heq
    have hsame := hbyte hhi heq
    omega
  unfold String.utf8EncodeChar at hmem
  simp only [hval] at hmem
  split at hmem
  · rw [List.mem_singleton] at hmem
    rw [hbyte (by omega) hmem]
    exact (Char.ofNat_toNat c).symm
  split at hmem
  · simp only [List.mem_cons, List.not_mem_nil, or_false] at hmem
    rcases hmem with hmem | hmem
    all_goals exact absurd hmem (hhigh _ (by omega) (by omega))
  split at hmem
  · simp only [List.mem_cons, List.not_mem_nil, or_false] at hmem
    rcases hmem with hmem | hmem | hmem
    all_goals exact absurd hmem (hhigh _ (by omega) (by omega))
  · simp only [List.mem_cons, List.not_mem_nil, or_false] at hmem
    rcases hmem with hmem | hmem | hmem | hmem
    all_goals exact absurd hmem (hhigh _ (by omega) (by omega))

/-- The byte of a character that is not in a text is not among its bytes. -/
theorem notMem_encode (h : n < 0x80) {cs : List Char} (hcs : Char.ofNat n ∉ cs) :
    UInt8.ofNat n ∉ encode cs := by
  intro hmem
  rcases List.mem_flatMap.1 hmem with ⟨c, hc, hbyte⟩
  rw [eq_of_mem_encodeChar h hbyte] at hc
  exact hcs hc

/-- A character that breaks off is replaced once, and the byte that breaks it is read again. -/
example : lossy [0xF0, 0x9F, 0x41] = [replacement, 'A'] := by decide

/-- Fragments that are each UTF-8 are decoded as the bytes are together. -/
theorem flatMap_lossy {fragments : List (List UInt8)} (h : ∀ f ∈ fragments, Valid f) :
    fragments.flatMap lossy = lossy fragments.flatten ∧ Valid fragments.flatten := by
  induction fragments with
  | nil => exact ⟨rfl, [], rfl⟩
  | cons f fragments ih =>
    obtain ⟨cs, rfl⟩ := h f List.mem_cons_self
    obtain ⟨hflat, cs', hcs'⟩ := ih fun f hf => h f (List.mem_cons_of_mem _ hf)
    have hencode : encode (cs ++ cs') = encode cs ++ encode cs' := List.flatMap_append
    rw [List.flatMap_cons, List.flatten_cons, hflat, ← hcs', ← hencode]
    refine ⟨?_, cs ++ cs', rfl⟩
    rw [lossy_encode, lossy_encode, lossy_encode]

end HierKvGateway.Utf8
