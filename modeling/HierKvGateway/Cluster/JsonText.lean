import HierKvGateway.Cluster.FrameSize
import HierKvGateway.Lib.Readable

/-!
# Cluster.JsonText — JSON text tells the value

`Json.compact` writes no white space, and escapes what would end a string. So the text of a value
tells the value (`compact_inj`), as long as its numbers are written in the characters of numbers,
and a text that begins with it tells what follows.

The induction is on the size of the value: arrays and objects are lists of smaller ones with commas
between them.
-/

namespace HierKvGateway

namespace Json

/-! ## Strings -/

/-- The digit of a character. -/
def hexValue (c : Char) : Nat := if c.isDigit then c.toNat - '0'.toNat else c.toNat - 'a'.toNat + 10

/-- Read one character of a string; a quote ends it. -/
def readChar : List Char → Option (Char × List Char)
  | '\\' :: 'b' :: s => some ('\x08', s)
  | '\\' :: 't' :: s => some ('\t', s)
  | '\\' :: 'n' :: s => some ('\n', s)
  | '\\' :: 'f' :: s => some ('\x0c', s)
  | '\\' :: 'r' :: s => some ('\r', s)
  | '\\' :: 'u' :: '0' :: '0' :: h :: l :: s => some (Char.ofNat (16 * hexValue h + hexValue l), s)
  | '\\' :: c :: s => some (c, s)
  | '"' :: _ => none
  | c :: s => some (c, s)
  | [] => none

theorem hexValue_digitChar {n : Nat} (h : n < 16) : hexValue (Nat.digitChar n) = n := by
  revert n
  decide

theorem readChar_control {n : Nat} (h : n < 32) (s : List Char) :
    readChar (['\\', 'u', '0', '0', Nat.digitChar (n / 16), Nat.digitChar (n % 16)] ++ s) =
      some (Char.ofNat n, s) := by
  show some (Char.ofNat (16 * hexValue _ + hexValue _), s) = _
  rw [hexValue_digitChar (by omega), hexValue_digitChar (by omega), Nat.div_add_mod]

theorem readChar_self {c : Char} (hquote : c ≠ '"') (hslash : c ≠ '\\') (s : List Char) :
    readChar (c :: s) = some (c, s) := by
  unfold readChar
  split
  all_goals simp_all

theorem readChar_escapeChar (c : Char) (s : List Char) :
    readChar (escapeChar c ++ s) = some (c, s) := by
  unfold escapeChar
  split_ifs with hquote hslash hb ht hn hf hr hcontrol
  · rw [hquote]
    rfl
  · rw [hslash]
    rfl
  · rw [hb]
    rfl
  · rw [ht]
    rfl
  · rw [hn]
    rfl
  · rw [hf]
    rfl
  · rw [hr]
    rfl
  · rw [readChar_control hcontrol, Char.ofNat_toNat]
  · exact readChar_self hquote hslash s

/-- A character of a string can be read, whatever follows. -/
theorem readable_escapeChar : Readable escapeChar (fun _ => True) fun _ => True :=
  Readable.of_reader readChar fun c s _ _ => readChar_escapeChar c s

theorem escapeChar_not_quote (c : Char) : escapeChar c ≠ [] ∧ ¬StartsWith '"' (escapeChar c) := by
  unfold escapeChar StartsWith
  split_ifs with hquote hslash hb ht hn hf hr hcontrol
  all_goals simp_all

theorem quoted_eq (s : String) : quoted s = '"' :: (s.toList.flatMap escapeChar ++ ['"']) := rfl

/-- A string in quotes can be read, whatever follows. -/
theorem readable_quoted : Readable quoted (fun _ => True) fun _ => True := by
  have hchars : Readable (fun s : String => s.toList.flatMap escapeChar) (fun _ => True)
      (StartsWith '"') := by
    intro a b s t _ _ hs ht heq
    have hlist := (Readable.flatMap readable_escapeChar fun c _ => escapeChar_not_quote c)
      a.toList b.toList s t (fun _ _ => trivial) (fun _ _ => trivial) hs ht heq
    exact ⟨String.toList_injective hlist.1, hlist.2⟩
  exact hchars.enclosed '"' fun _ => True

/-! ## Numbers -/

/-- The characters of a number. -/
def numberChar (c : Char) : Bool := c.isDigit || c ∈ ['-', '+', '.', 'e', 'E']

/-- The text of a number: characters of numbers, and not nothing. -/
def NumberText (text : String) : Prop := text.toList ≠ [] ∧ ∀ c ∈ text.toList, numberChar c = true

/-- A number ends here. -/
def EndsNumber (s : List Char) : Prop := ∀ c ∈ s.head?, numberChar c = false

theorem takeWhile_number {text : String} (h : NumberText text) {s : List Char} (hs : EndsNumber s) :
    (text.toList ++ s).takeWhile numberChar = text.toList := by
  have hrest : s.takeWhile numberChar = [] := by
    cases s with
    | nil => rfl
    | cons c s =>
      have hc : numberChar c = false := hs c rfl
      rw [List.takeWhile_cons, hc]
      rfl
  rw [List.takeWhile_append_of_pos h.2, hrest, List.append_nil]

/-- A number can be read if what follows is none of its characters. -/
theorem readable_number : Readable String.toList NumberText EndsNumber := by
  intro a b s t ha hb hs ht heq
  have hlist : a.toList = b.toList := by
    rw [← takeWhile_number ha hs, heq, takeWhile_number hb ht]
  rw [hlist] at heq
  exact ⟨String.toList_injective hlist, List.append_cancel_left heq⟩

/-! ## Values -/

mutual

/-- All numbers of a value are written in the characters of numbers. -/
def WellFormed : Json → Prop
  | .null => True
  | .bool _ => True
  | .number text => NumberText text
  | .string _ => True
  | .array items => WellFormedItems items
  | .object fields => WellFormedFields fields

/-- The same of all items. -/
def WellFormedItems : List Json → Prop
  | [] => True
  | item :: items => WellFormed item ∧ WellFormedItems items

/-- The same of the values of all fields. -/
def WellFormedFields : List (String × Json) → Prop
  | [] => True
  | (_, value) :: fields => WellFormed value ∧ WellFormedFields fields

end

theorem wellFormedItems_iff {items : List Json} :
    WellFormedItems items ↔ ∀ item ∈ items, WellFormed item := by
  induction items with
  | nil => simp [WellFormedItems]
  | cons item items ih => simp [WellFormedItems, ih]

theorem wellFormedFields_iff {fields : List (String × Json)} :
    WellFormedFields fields ↔ ∀ field ∈ fields, WellFormed field.2 := by
  induction fields with
  | nil => simp [WellFormedFields]
  | cons field fields ih =>
    rcases field with ⟨key, value⟩
    simp [WellFormedFields, ih]

theorem compactItems_eq (items : List Json) : compactItems items = Readable.sepBy ',' compact items := by
  induction items with
  | nil => rfl
  | cons item items ih => rw [compactItems, Readable.sepBy, ih]

/-- A field: its key in quotes, a colon and its value. -/
def compactField (field : String × Json) : List Char := quoted field.1 ++ ':' :: compact field.2

theorem compactFields_eq (fields : List (String × Json)) :
    compactFields fields = Readable.sepBy ',' compactField fields := by
  induction fields with
  | nil => rfl
  | cons field fields ih =>
    rcases field with ⟨key, value⟩
    rw [compactFields, Readable.sepBy, ih]
    rfl

/-- What a value begins with. -/
def Begins : Json → Char → Prop
  | .null, c => c = 'n'
  | .bool b, c => c = if b then 't' else 'f'
  | .number _, c => numberChar c = true
  | .string _, c => c = '"'
  | .array _, c => c = '['
  | .object _, c => c = '\x7b'

theorem exists_begins {v : Json} (h : v.WellFormed) : ∃ c s, compact v = c :: s ∧ v.Begins c := by
  cases v with
  | null => exact ⟨'n', _, rfl, rfl⟩
  | bool b =>
    cases b with
    | false => exact ⟨'f', _, rfl, rfl⟩
    | true => exact ⟨'t', _, rfl, rfl⟩
  | number text =>
    rw [WellFormed] at h
    rcases List.exists_cons_of_ne_nil h.1 with ⟨c, s, hcs⟩
    refine ⟨c, s, hcs, h.2 c ?_⟩
    rw [hcs]
    exact List.mem_cons_self
  | string s => exact ⟨'"', _, rfl, rfl⟩
  | array items => exact ⟨'[', _, rfl, rfl⟩
  | object fields => exact ⟨'\x7b', _, rfl, rfl⟩

/-- Which constructor a value is made with. -/
def kind : Json → Nat
  | .null => 0
  | .bool _ => 1
  | .number _ => 2
  | .string _ => 3
  | .array _ => 4
  | .object _ => 5

/-- The constructor that a first character tells. -/
def kindOf (c : Char) : Nat :=
  if c = 'n' then 0
  else if c = 't' ∨ c = 'f' then 1
  else if c = '"' then 3
  else if c = '[' then 4
  else if c = '\x7b' then 5
  else 2

theorem Begins.kindOf {v : Json} {c : Char} (h : v.Begins c) : Json.kindOf c = v.kind := by
  cases v with
  | bool b =>
    rw [show c = if b then 't' else 'f' from h]
    cases b <;> rfl
  | number text =>
    have hc : numberChar c = true := h
    unfold Json.kindOf
    split_ifs with h0 h1 h3 h4 h5
    · rw [h0] at hc
      exact absurd hc (by decide)
    · rcases h1 with h1 | h1
      all_goals
        rw [h1] at hc
        exact absurd hc (by decide)
    · rw [h3] at hc
      exact absurd hc (by decide)
    · rw [h4] at hc
      exact absurd hc (by decide)
    · rw [h5] at hc
      exact absurd hc (by decide)
    · rfl
  | null =>
    rw [show c = 'n' from h]
    rfl
  | string s =>
    rw [show c = '"' from h]
    rfl
  | array items =>
    rw [show c = '[' from h]
    rfl
  | object fields =>
    rw [show c = '\x7b' from h]
    rfl

theorem kind_eq {v w : Json} (hv : v.WellFormed) (hw : w.WellFormed) {s t : List Char}
    (heq : compact v ++ s = compact w ++ t) : v.kind = w.kind := by
  rcases exists_begins hv with ⟨c, s', hv', hc⟩
  rcases exists_begins hw with ⟨d, t', hw', hd⟩
  rw [hv', hw'] at heq
  have hcd : c = d := (List.cons.inj heq).1
  rw [← hc.kindOf, hcd, hd.kindOf]

/-- No value begins with a bracket that closes. -/
theorem compact_not_close {v : Json} (h : v.WellFormed) :
    compact v ≠ [] ∧ ¬StartsWith ']' (compact v) := by
  rcases exists_begins h with ⟨c, s, hcs, hc⟩
  rw [hcs]
  refine ⟨List.cons_ne_nil c s, ?_⟩
  intro hclose
  have hbracket : c = ']' := Option.some.inj hclose
  rw [hbracket] at hc
  cases v with
  | bool b => cases b <;> simp [Begins] at hc
  | number text => exact absurd (show numberChar ']' = true from hc) (by decide)
  | _ => simp [Begins] at hc

theorem compactField_not_close (field : String × Json) :
    compactField field ≠ [] ∧ ¬StartsWith '\x7d' (compactField field) :=
  ⟨List.cons_ne_nil _ _, nofun⟩

theorem endsNumber_cons {c : Char} (hc : numberChar c = false) (s : List Char) :
    EndsNumber (c :: s) := by
  intro d hd
  rw [← Option.some.inj hd]
  exact hc

section Step

variable {ok : Json → Prop} (h : Readable compact ok EndsNumber)
include h

/-- An array of values that can be read can be read. -/
theorem readable_array (hok : ∀ v, ok v → v.WellFormed) (follow : List Char → Prop) :
    Readable (fun items => compact (.array items)) (fun items => ∀ v ∈ items, ok v) follow := by
  have hitems : Readable compactItems (fun items => ∀ v ∈ items, ok v) (StartsWith ']') := by
    rw [funext compactItems_eq]
    exact h.separated (fun v hv => compact_not_close (hok v hv)) (by decide)
      (fun s => endsNumber_cons rfl s) fun s => endsNumber_cons rfl s
  exact hitems.enclosed '[' follow

/-- So can an object of such values. -/
theorem readable_object (follow : List Char → Prop) :
    Readable (fun fields => compact (.object fields)) (fun fields => ∀ field ∈ fields, ok field.2)
      follow := by
  have hfield : Readable compactField (fun field => True ∧ ok field.2) EndsNumber :=
    readable_quoted.pair (h.behind [':']) fun _ _ _ _ => trivial
  have hfields : Readable compactFields (fun fields => ∀ field ∈ fields, True ∧ ok field.2)
      (StartsWith '\x7d') := by
    rw [funext compactFields_eq]
    exact hfield.separated (fun field _ => compactField_not_close field) (by decide)
      (fun s => endsNumber_cons rfl s) fun s => endsNumber_cons rfl s
  refine (hfields.enclosed '\x7b' follow).mono ?_ fun s hs => hs
  exact fun fields hok field hfield => ⟨trivial, hok field hfield⟩

end Step

/-- The items of an array are smaller than the array. -/
theorem smaller_items {items : List Json} {n : Nat} (h : WellFormed (.array items))
    (hn : sizeOf (Json.array items) < n + 1) : ∀ v ∈ items, WellFormed v ∧ sizeOf v < n := by
  intro v hv
  have hlt := List.sizeOf_lt_of_mem hv
  rw [WellFormed] at h
  rw [Json.array.sizeOf_spec] at hn
  exact ⟨wellFormedItems_iff.1 h v hv, by omega⟩

theorem smaller_fields {fields : List (String × Json)} {n : Nat} (h : WellFormed (.object fields))
    (hn : sizeOf (Json.object fields) < n + 1) :
    ∀ field ∈ fields, WellFormed field.2 ∧ sizeOf field.2 < n := by
  rintro ⟨key, value⟩ hfield
  have hlt := List.sizeOf_lt_of_mem hfield
  rw [WellFormed] at h
  rw [Json.object.sizeOf_spec] at hn
  rw [Prod.mk.sizeOf_spec] at hlt
  refine ⟨wellFormedFields_iff.1 h (key, value) hfield, ?_⟩
  show sizeOf value < n
  omega

/-- A value can be read if what follows ends a number. -/
theorem readable_compact : Readable compact WellFormed EndsNumber := by
  have hsize : ∀ n, Readable compact (fun v => WellFormed v ∧ sizeOf v < n) EndsNumber := by
    intro n
    induction n with
    | zero => exact fun v _ _ _ hv => absurd hv.2 (Nat.not_lt_zero _)
    | succ n ih =>
      rintro v w s t ⟨hv, hvn⟩ ⟨hw, hwn⟩ hs ht heq
      have hkind := kind_eq hv hw heq
      cases v with
      | null =>
        cases w with
        | null => exact ⟨rfl, List.append_cancel_left heq⟩
        | _ => cases hkind
      | bool b =>
        cases w with
        | bool b' =>
          cases b <;> cases b'
          · exact ⟨rfl, List.append_cancel_left heq⟩
          · exact absurd (List.cons.inj heq).1 (by decide)
          · exact absurd (List.cons.inj heq).1 (by decide)
          · exact ⟨rfl, List.append_cancel_left heq⟩
        | _ => cases hkind
      | number text =>
        cases w with
        | number text' =>
          rcases readable_number text text' s t hv hw hs ht heq with ⟨rfl, hst⟩
          exact ⟨rfl, hst⟩
        | _ => cases hkind
      | string x =>
        cases w with
        | string y =>
          rcases readable_quoted x y s t trivial trivial trivial trivial heq with ⟨rfl, hst⟩
          exact ⟨rfl, hst⟩
        | _ => cases hkind
      | array items =>
        cases w with
        | array items' =>
          have hstep := readable_array ih (fun v hv => hv.1) fun _ => True
          rcases hstep items items' s t (smaller_items hv hvn) (smaller_items hw hwn) trivial trivial
            heq with ⟨rfl, hst⟩
          exact ⟨rfl, hst⟩
        | _ => cases hkind
      | object fields =>
        cases w with
        | object fields' =>
          have hstep := readable_object ih fun _ => True
          rcases hstep fields fields' s t (smaller_fields hv hvn) (smaller_fields hw hwn) trivial
            trivial heq with ⟨rfl, hst⟩
          exact ⟨rfl, hst⟩
        | _ => cases hkind
  intro v w s t hv hw hs ht heq
  exact hsize (sizeOf v + sizeOf w + 1) v w s t ⟨hv, by omega⟩ ⟨hw, by omega⟩ hs ht heq

/-- The text of a value tells the value. -/
theorem compact_inj {v w : Json} (hv : v.WellFormed) (hw : w.WellFormed)
    (h : compact v = compact w) : v = w :=
  readable_compact.injective (fun _ hc => nomatch hc) hv hw h

/-! ## Integers -/

/-- The JSON of a signed integer. -/
def ofInt (n : Int) : Json := .number (toString n)

theorem numberChar_of_digit {n : Nat} {c : Char} (hc : c ∈ Nat.toDigits 10 n) :
    numberChar c = true := by
  have hdigit := Nat.isDigit_of_mem_toDigits (by decide) (by decide) hc
  unfold numberChar
  rw [hdigit, Bool.true_or]

theorem numberText_ofNat (n : Nat) : NumberText (toString n) := by
  have htext : (toString n).toList = Nat.toDigits 10 n := Nat.toList_repr
  unfold NumberText
  rw [htext]
  exact ⟨List.ne_nil_of_length_pos Nat.length_toDigits_pos, fun c hc => numberChar_of_digit hc⟩

theorem toDigits_inj {m n : Nat} (h : Nat.toDigits 10 m = Nat.toDigits 10 n) : m = n := by
  rw [← Nat.ofDigitChars_ten_toDigits (n := m), h, Nat.ofDigitChars_ten_toDigits]

theorem ofNat_inj {m n : Nat} (h : ofNat m = ofNat n) : m = n := by
  have htext : (toString m).toList = (toString n).toList := by
    rw [number.inj h]
  exact toDigits_inj (Nat.toList_repr.symm.trans (htext.trans Nat.toList_repr))

theorem toList_negSucc (n : Nat) :
    (toString (Int.negSucc n)).toList = '-' :: (toString (n + 1)).toList := by
  show ("-" ++ toString (n + 1)).toList = _
  rw [String.toList_append]
  rfl

theorem numberText_ofInt (n : Int) : NumberText (toString n) := by
  cases n with
  | ofNat n => exact numberText_ofNat n
  | negSucc n =>
    unfold NumberText
    rw [toList_negSucc]
    refine ⟨List.cons_ne_nil _ _, ?_⟩
    intro c hc
    rcases List.mem_cons.1 hc with rfl | hc
    · rfl
    · exact (numberText_ofNat (n + 1)).2 c hc

/-- A text of digits does not begin with a minus. -/
theorem digits_ne_minus (n : Nat) (s t : List Char) : '-' :: s ≠ Nat.toDigits 10 n ++ t := by
  rcases List.exists_cons_of_ne_nil (List.ne_nil_of_length_pos (Nat.length_toDigits_pos (b := 10)
    (n := n))) with ⟨c, cs, hcs⟩
  have hdigit := Nat.isDigit_of_mem_toDigits (b := 10) (n := n) (c := c) (by decide) (by decide)
    (by rw [hcs]; exact List.mem_cons_self)
  rw [hcs]
  intro heq
  rw [← (List.cons.inj heq).1] at hdigit
  exact absurd hdigit (by decide)

theorem ofInt_inj {m n : Int} (h : ofInt m = ofInt n) : m = n := by
  have htext : (toString m).toList = (toString n).toList := by
    rw [number.inj h]
  have hdigits (k : Nat) : (toString (Int.ofNat k)).toList = Nat.toDigits 10 k := Nat.toList_repr
  cases m with
  | ofNat m =>
    cases n with
    | ofNat n => rw [toDigits_inj ((hdigits m).symm.trans (htext.trans (hdigits n)))]
    | negSucc n =>
      rw [hdigits, toList_negSucc] at htext
      exact absurd (htext.symm.trans (List.append_nil _).symm) (digits_ne_minus m _ [])
  | negSucc m =>
    rw [toList_negSucc] at htext
    cases n with
    | ofNat n =>
      rw [hdigits] at htext
      exact absurd (htext.trans (List.append_nil _).symm) (digits_ne_minus n _ [])
    | negSucc n =>
      rw [toList_negSucc] at htext
      have hsucc : (toString (m + 1)).toList = (toString (n + 1)).toList := (List.cons.inj htext).2
      have hnat : m + 1 = n + 1 :=
        toDigits_inj (Nat.toList_repr.symm.trans (hsucc.trans Nat.toList_repr))
      rw [Nat.succ.inj hnat]

/-! ## Fields that may be left out -/

/-- A field that is left out if there is nothing. -/
def field {α : Type} (key : String) (toJson : α → Json) (value : Option α) :
    List (String × Json) :=
  value.toList.map fun a => (key, toJson a)

theorem wellFormed_field {α : Type} {key : String} {toJson : α → Json} {value : Option α}
    (h : ∀ a, (toJson a).WellFormed) {f : String × Json} (hf : f ∈ field key toJson value) :
    f.2.WellFormed := by
  rcases List.mem_map.1 hf with ⟨a, -, rfl⟩
  exact h a

theorem lookup_field {α : Type} (key key' : String) (toJson : α → Json) (value : Option α) :
    (field key toJson value).lookup key' = if key' = key then value.map toJson else none := by
  unfold field
  cases value with
  | none => split <;> rfl
  | some v =>
    rw [Option.toList_some, List.map_singleton, List.lookup_cons]
    by_cases h : key' = key
    · rw [if_pos h, beq_iff_eq.2 h]
      rfl
    · rw [if_neg h, beq_eq_false_iff_ne.2 h]
      rfl

end Json

end HierKvGateway
