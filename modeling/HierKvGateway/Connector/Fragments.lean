import HierKvGateway.Connector.SglangParser
import HierKvGateway.Lib.Taken

/-!
# Connector.Fragments — the answer of a backend in fragments

The parsers decode every fragment on its own (`String::from_utf8_lossy`), so a character whose
bytes come in two fragments is lost. Apart from that it does not matter how the bytes are cut:
`splittings_agree`.
-/

namespace HierKvGateway

/-- The item is an end chunk. -/
def SglangItem.isDone : SglangItem → Bool
  | .chunk c => c.isDone
  | .panicked => false

/-- What the first `n` polls yield before the first end chunk. -/
def beforeDone {ε : Type} (isDone : ε → Bool) (items : Nat → Option ε) (n : Nat) :
    List (Option ε) :=
  ((List.range n).map items).takeWhile fun item => !item.any isDone

/-- What is kept of an item: end chunks are all alike. -/
def keep {ε : Type} (isDone : ε → Bool) (e : ε) : Option ε := if isDone e then none else some e

/-- What is kept tells an item from all others but end chunks from each other. -/
theorem keep_eq {ε : Type} {isDone : ε → Bool} {r r' : Option ε}
    (h : r.map (keep isDone) = r'.map (keep isDone)) :
    r = r' ∨ r.any isDone = true ∧ r'.any isDone = true := by
  cases r with
  | none => exact .inl (Option.map_eq_none_iff.1 h.symm).symm
  | some e =>
    obtain ⟨e', rfl, hkeep⟩ := Option.map_eq_some_iff.1 h.symm
    rw [Option.any_some, Option.any_some]
    unfold keep at hkeep
    cases hdone : isDone e with
    | true =>
      cases hdone' : isDone e' with
      | true => exact .inr ⟨rfl, rfl⟩
      | false =>
        rw [hdone, hdone'] at hkeep
        exact absurd hkeep (Option.some_ne_none e')
    | false =>
      cases hdone' : isDone e' with
      | true =>
        rw [hdone, hdone'] at hkeep
        exact absurd hkeep.symm (Option.some_ne_none e)
      | false =>
        rw [hdone, hdone'] at hkeep
        exact .inl (congrArg some (Option.some.inj hkeep).symm)

/-- Streams that yield the same as long as no end chunk has come. -/
theorem beforeDone_congr {ε : Type} {isDone : ε → Bool} {items items' : Nat → Option ε}
    (h : ∀ n, (∀ k < n, (items k).any isDone = false) →
      (items n).map (keep isDone) = (items' n).map (keep isDone)) (n : Nat) :
    beforeDone isDone items n = beforeDone isDone items' n := by
  unfold beforeDone
  rw [List.range_eq_range']
  suffices hfrom : ∀ start, (∀ k < start, (items k).any isDone = false) →
      ((List.range' start n).map items).takeWhile (fun item => !item.any isDone) =
        ((List.range' start n).map items').takeWhile fun item => !item.any isDone from
    hfrom 0 fun k hk => absurd hk (Nat.not_lt_zero k)
  induction n with
  | zero => exact fun start _ => rfl
  | succ n ih =>
    intro start hnone
    rw [List.range'_succ, List.map_cons, List.map_cons, List.takeWhile_cons, List.takeWhile_cons]
    rcases keep_eq (h start hnone) with heq | ⟨hdone, hdone'⟩
    · rw [← heq]
      cases hdone : (items start).any isDone with
      | true => rfl
      | false =>
        have hnext : ∀ k < start + 1, (items k).any isDone = false := by
          intro k hk
          rcases Nat.lt_succ_iff_lt_or_eq.1 hk with hk | rfl
          · exact hnone k hk
          · exact hdone
        rw [Bool.not_false, if_pos rfl, if_pos rfl, ih (start + 1) hnext]
    · rw [hdone, hdone']
      rfl

/-! ## Inputs -/

section
variable (i j : Duration)

theorem mapItem_done {τ : Type} (backendId : BackendId) (t : τ) :
    Lines.mapItem (keep InferenceChunk.isDone) (some (doneChunk i backendId), t) =
      (some none, t) :=
  congrArg (fun o => (some o, t)) (if_pos rfl)

theorem mapItem_chunk_done {τ : Type} (backendId : BackendId) (t : τ) :
    Lines.mapItem (keep SglangItem.isDone) (some (.chunk (doneChunk i backendId)), t) =
      (some none, t) :=
  congrArg (fun o => (some o, t)) (if_pos rfl)

/-- The time of a poll is seen in the end chunks only. -/
theorem SseParser.handleLine_forgets (fromStr : String → Option ChatCompletionChunk)
    (s : BackendId) (line : List Char) :
    Lines.mapItem (keep InferenceChunk.isDone) (handleLine fromStr i s line) =
      Lines.mapItem (keep InferenceChunk.isDone) (handleLine fromStr j s line) := by
  unfold handleLine
  cases sseLine line with
  | ignored => rfl
  | done =>
    rw [mapItem_done, mapItem_done]
  | data data => rfl

theorem SseParser.finish_forgets (fromStr : String → Option ChatCompletionChunk)
    (s : BackendId) (rest : List Char) :
    Lines.mapItem (keep InferenceChunk.isDone) (finish fromStr i s rest) =
      Lines.mapItem (keep InferenceChunk.isDone) (finish fromStr j s rest) := by
  have hdone (t : BackendId × List Char) :
      Lines.mapItem (keep InferenceChunk.isDone) (some (doneChunk i t.1), t) =
        Lines.mapItem (keep InferenceChunk.isDone) (some (doneChunk j t.1), t) := by
    rw [mapItem_done, mapItem_done]
  have hparse : Lines.mapItem _ (tryParse fromStr i s rest) =
      Lines.mapItem _ (tryParse fromStr j s rest) :=
    Lines.next_forgets _ (handleLine_forgets i j fromStr) s rest
  unfold finish
  split
  · exact hdone (s, rest)
  · rcases Lines.mapItem_eq _ hparse with ⟨t, hi, hj⟩ | ⟨e, e', t, he, hi, hj⟩
    · rw [hi, hj]
      exact hdone t
    · rw [hi, hj]
      exact congrArg (fun o => (some o, t)) he

theorem SglangGenerateParser.handleLine_forgets (fromStr : String → Option GenerateStreamChunk)
    (s : SglangState) (line : List Char) :
    Lines.mapItem (keep SglangItem.isDone) (handleLine fromStr i s line) =
      Lines.mapItem (keep SglangItem.isDone) (handleLine fromStr j s line) := by
  unfold handleLine
  cases sseLine line with
  | ignored => rfl
  | done =>
    rw [mapItem_chunk_done, mapItem_chunk_done]
  | data data => rfl

theorem SglangGenerateParser.closed_forgets (s : SglangState) :
    (closed i s).map (Lines.mapItem (keep SglangItem.isDone)) =
      (closed j s).map (Lines.mapItem (keep SglangItem.isDone)) := by
  unfold closed
  split
  · split
    · rfl
    · rw [Option.map_some, Option.map_some, mapItem_chunk_done, mapItem_chunk_done]
  · rfl

theorem SglangGenerateParser.finish_forgets (fromStr : String → Option GenerateStreamChunk)
    (s : SglangState) (rest : List Char) :
    Lines.mapItem (keep SglangItem.isDone) (finish fromStr i s rest) =
      Lines.mapItem (keep SglangItem.isDone) (finish fromStr j s rest) := by
  have hdone (t : SglangState × List Char) :
      Lines.mapItem (keep SglangItem.isDone)
          (some (.chunk (doneChunk i t.1.backendId)), t.1.close, t.2) =
        Lines.mapItem (keep SglangItem.isDone)
          (some (.chunk (doneChunk j t.1.backendId)), t.1.close, t.2) := by
    rw [mapItem_chunk_done, mapItem_chunk_done]
  have hparse : Lines.mapItem _ (tryParse fromStr i s (rest ++ ['\n'])) =
      Lines.mapItem _ (tryParse fromStr j s (rest ++ ['\n'])) :=
    Lines.next_forgets _ (handleLine_forgets i j fromStr) s (rest ++ ['\n'])
  unfold finish
  split
  · exact hdone (s, rest)
  · rcases Lines.mapItem_eq _ hparse with ⟨t, hi, hj⟩ | ⟨e, e', t, he, hi, hj⟩
    · rw [hi, hj]
      exact hdone t
    · rw [hi, hj]
      exact congrArg (fun o => (some o, t)) he

end

theorem SseParser.forgets (fromStr : String → Option ChatCompletionChunk) :
    (format fromStr).Forgets (keep InferenceChunk.isDone) where
  closed _ _ _ := rfl
  handle i j := handleLine_forgets i j fromStr
  finish i j := finish_forgets i j fromStr

theorem SglangGenerateParser.forgets (fromStr : String → Option GenerateStreamChunk) :
    (format fromStr).Forgets (keep SglangItem.isDone) where
  closed := closed_forgets
  handle i j := handleLine_forgets i j fromStr
  finish i j := finish_forgets i j fromStr

/-! ## Fragments -/

/-- A stream that yields these fragments. -/
def okStream (fragments : List (List UInt8)) : List (Except String (List UInt8)) :=
  fragments.map .ok

theorem errorFree_okStream (fragments : List (List UInt8)) :
    Lines.ErrorFree (okStream fragments) := by
  intro x hx
  obtain ⟨f, -, rfl⟩ := List.mem_map.1 hx
  rfl

/-- What the polls of a new `SseParser` yield. -/
def SseParser.items (fromStr : String → Option ChatCompletionChunk) (backendId : BackendId)
    (elapsed : Nat → Duration) (fragments : List (List UInt8)) : Nat → Option InferenceChunk :=
  Polling.item (pollNext fromStr) elapsed (new (okStream fragments) backendId)

/-- What the polls of a new `SglangGenerateParser` yield. -/
def SglangGenerateParser.items (fromStr : String → Option GenerateStreamChunk)
    (backendId : BackendId) (elapsed : Nat → Duration) (fragments : List (List UInt8)) :
    Nat → Option SglangItem :=
  Polling.item (pollNext fromStr) elapsed (new (okStream fragments) backendId)

/-- The parsers yield the same from two splittings, up to the first end chunk. -/
structure SplittingsAgree (sse : String → Option ChatCompletionChunk)
    (generate : String → Option GenerateStreamChunk) (fragments fragments' : List (List UInt8)) :
    Prop where
  openAi : ∀ backendId elapsed elapsed' n,
    beforeDone InferenceChunk.isDone (SseParser.items sse backendId elapsed fragments) n =
      beforeDone InferenceChunk.isDone (SseParser.items sse backendId elapsed' fragments') n
  sglang : ∀ backendId elapsed elapsed' n,
    beforeDone SglangItem.isDone
        (SglangGenerateParser.items generate backendId elapsed fragments) n =
      beforeDone SglangItem.isDone
        (SglangGenerateParser.items generate backendId elapsed' fragments') n

/-! ## Whole characters -/

section Taken

variable {σ ε : Type} {F : Lines.Format Duration σ String (List UInt8) Char ε} {isDone : ε → Bool}
  {s : σ} {fragments fragments' : List (List UInt8)} {elapsed elapsed' : Nat → Duration}
  {n n' : Nat}

/-- The fragments that a parser takes until it has yielded an end chunk are each of whole
characters. -/
def TakesWhole (F : Lines.Format Duration σ String (List UInt8) Char ε) (isDone : ε → Bool) (s : σ)
    (elapsed : Nat → Duration) (fragments : List (List UInt8)) : Prop :=
  ∀ n, (∀ k < n,
      (Polling.item (Lines.poll F) elapsed ⟨okStream fragments, [], s⟩ k).any isDone = false) →
    ∀ f, .ok f ∈ Lines.taken F elapsed ⟨okStream fragments, [], s⟩ (n + 1) → Utf8.Valid f

theorem textOf_okStream (F : Lines.Format Duration σ String (List UInt8) Char ε)
    (fragments : List (List UInt8)) :
    Lines.textOf F (okStream fragments) = fragments.flatMap F.decode := by
  unfold Lines.textOf okStream
  rw [List.flatMap_map]

theorem abs_okStream (F : Lines.Format Duration σ String (List UInt8) Char ε)
    (fragments : List (List UInt8)) (s : σ) :
    Lines.abs F ⟨okStream fragments, [], s⟩ = (s, fragments.flatMap F.decode) := by
  unfold Lines.abs
  rw [textOf_okStream, List.nil_append]

/-- The fragments are those that have been taken and those that are left. -/
theorem exists_taken (elapsed : Nat → Duration) (s : σ) (fragments : List (List UInt8)) (n : Nat) :
    ∃ p q, fragments = p ++ q ∧
      Lines.taken F elapsed ⟨okStream fragments, [], s⟩ n = okStream p ∧
        (Polling.state (Lines.poll F) elapsed ⟨okStream fragments, [], s⟩ n).inner =
          okStream q := by
  have hsplit := Lines.taken_append (F := F) elapsed ⟨okStream fragments, [], s⟩ n
  obtain ⟨p, q, hfragments, hp, hq⟩ := List.map_eq_append_iff.1 hsplit.symm
  exact ⟨p, q, hfragments, hp.symm, hq.symm⟩

/-- Of two parsers that have taken whole characters, the one that has taken less of the same bytes
has yielded what the other one yields. -/
theorem item_of_shorter (hF : F.Forgets (keep isDone)) (hdecode : F.decode = Utf8.lossy)
    {p q p' q' : List (List UInt8)} (hbytes : (p ++ q).flatten = (p' ++ q').flatten)
    (htaken : Lines.taken F elapsed ⟨okStream (p ++ q), [], s⟩ n = okStream p)
    (hleft : (Polling.state (Lines.poll F) elapsed ⟨okStream (p ++ q), [], s⟩ n).inner = okStream q)
    (hp : ∀ f ∈ p, Utf8.Valid f) (hp' : ∀ f ∈ p', Utf8.Valid f)
    (hle : p.flatten.length ≤ p'.flatten.length) {k : Nat} (hk : k < n) :
    (Polling.item (Lines.poll F) elapsed ⟨okStream (p ++ q), [], s⟩ k).map (keep isDone) =
      (Polling.item (Lines.poll F) elapsed' ⟨okStream (p' ++ q'), [], s⟩ k).map
        (keep isDone) := by
  rw [List.flatten_append, List.flatten_append] at hbytes
  obtain ⟨hlossy, text, htext⟩ := Utf8.flatMap_lossy hp
  obtain ⟨hlossy', -⟩ := Utf8.flatMap_lossy hp'
  have hprefix : p.flatten <+: p'.flatten := by
    refine List.prefix_of_prefix_length_le ⟨q.flatten, hbytes⟩ ⟨q'.flatten, rfl⟩ hle
  obtain ⟨more, hmore⟩ := hprefix
  cases q with
  | nil =>
    -- everything has been taken, and what is left of the other splitting is empty
    rw [List.flatten_nil, List.append_nil, ← hmore, List.append_assoc] at hbytes
    have hnil := List.append_eq_nil_iff.1 (List.append_right_eq_self.1 hbytes.symm)
    have hall' : ∀ f ∈ p' ++ q', Utf8.Valid f := by
      intro f hf
      rcases List.mem_append.1 hf with hf | hf
      · exact hp' f hf
      · rw [List.flatten_eq_nil_iff.1 hnil.2 f hf]
        exact ⟨[], rfl⟩
    have hflat : (p ++ []).flatten = (p' ++ q').flatten := by
      rw [List.append_nil, List.flatten_append, ← hmore, hnil.1, hnil.2, List.append_nil,
        List.append_nil]
    refine Lines.item_fragments hF (errorFree_okStream _) (errorFree_okStream _) ?_ elapsed
      elapsed' k
    unfold Lines.abs
    rw [textOf_okStream, textOf_okStream, hdecode, (Utf8.flatMap_lossy hall').1, ← hflat,
      List.append_nil, hlossy]
  | cons f q =>
    refine Lines.item_of_prefix (r := ⟨okStream (p ++ f :: q), [], s⟩)
      (t := ⟨okStream (p' ++ q'), [], s⟩) hF ?_ (errorFree_okStream _)
      (errorFree_okStream _) rfl rfl ?_ ?_ elapsed' hk
    · intro text
      exact ⟨Utf8.encode text, by rw [hdecode, Utf8.lossy_encode]⟩
    · rw [hleft]
      exact List.cons_ne_nil _ _
    · rw [htaken, textOf_okStream, textOf_okStream, hdecode, List.flatMap_append, hlossy,
        hlossy', ← hmore, ← htext, Utf8.lossy_encode_append, Utf8.lossy_encode]
      exact (List.prefix_append text _).trans (List.prefix_append _ _)

/-- As long as neither has yielded an end chunk, two parsers of the same bytes yield the same. -/
theorem item_of_undone (hF : F.Forgets (keep isDone)) (hdecode : F.decode = Utf8.lossy)
    (hbytes : fragments.flatten = fragments'.flatten)
    (hwhole : TakesWhole F isDone s elapsed fragments)
    (hwhole' : TakesWhole F isDone s elapsed' fragments')
    (hnone : ∀ k < n,
      (Polling.item (Lines.poll F) elapsed ⟨okStream fragments, [], s⟩ k).any isDone = false)
    (hnone' : ∀ k < n,
      (Polling.item (Lines.poll F) elapsed' ⟨okStream fragments', [], s⟩ k).any isDone = false) :
    (Polling.item (Lines.poll F) elapsed ⟨okStream fragments, [], s⟩ n).map (keep isDone) =
      (Polling.item (Lines.poll F) elapsed' ⟨okStream fragments', [], s⟩ n).map
        (keep isDone) := by
  have hvalid := hwhole n hnone
  have hvalid' := hwhole' n hnone'
  obtain ⟨p, q, rfl, htaken, hleft⟩ := exists_taken (F := F) elapsed s fragments (n + 1)
  obtain ⟨p', q', rfl, htaken', hleft'⟩ := exists_taken (F := F) elapsed' s fragments' (n + 1)
  rw [htaken] at hvalid
  rw [htaken'] at hvalid'
  have hp : ∀ f ∈ p, Utf8.Valid f := fun f hf => hvalid f (List.mem_map_of_mem hf)
  have hp' : ∀ f ∈ p', Utf8.Valid f := fun f hf => hvalid' f (List.mem_map_of_mem hf)
  rcases Nat.le_total p.flatten.length p'.flatten.length with hle | hle
  · exact item_of_shorter hF hdecode hbytes htaken hleft hp hp' hle (Nat.lt_succ_self n)
  · exact (item_of_shorter hF hdecode hbytes.symm htaken' hleft' hp' hp hle
      (Nat.lt_succ_self n)).symm

/-- Parsers of the same bytes that take whole characters yield the same, up to the first end
chunk. -/
theorem beforeDone_of_takesWhole (hF : F.Forgets (keep isDone)) (hdecode : F.decode = Utf8.lossy)
    (hbytes : fragments.flatten = fragments'.flatten)
    (hwhole : TakesWhole F isDone s elapsed fragments)
    (hwhole' : TakesWhole F isDone s elapsed' fragments') (n : Nat) :
    beforeDone isDone (Polling.item (Lines.poll F) elapsed ⟨okStream fragments, [], s⟩) n =
      beforeDone isDone (Polling.item (Lines.poll F) elapsed' ⟨okStream fragments', [], s⟩) n := by
  apply beforeDone_congr
  intro n
  induction n using Nat.strongRecOn with
  | ind n ih =>
    intro hnone
    refine item_of_undone hF hdecode hbytes hwhole hwhole' hnone ?_
    intro k hk
    rcases keep_eq (ih k hk fun j hj => hnone j (hj.trans hk)) with heq | ⟨hdone, -⟩
    · rw [← heq]
      exact hnone k hk
    · rw [hnone k hk] at hdone
      exact absurd hdone Bool.false_ne_true

end Taken

/-- Both parsers take whole characters until they have yielded an end chunk. -/
structure WholeCharacters (sse : String → Option ChatCompletionChunk)
    (generate : String → Option GenerateStreamChunk) (fragments : List (List UInt8)) : Prop where
  openAi : ∀ backendId elapsed,
    TakesWhole (SseParser.format sse) InferenceChunk.isDone backendId elapsed fragments
  sglang : ∀ backendId elapsed,
    TakesWhole (SglangGenerateParser.format generate) SglangItem.isDone
      ⟨backendId, 0, false, false⟩ elapsed fragments

theorem takesWhole_of_valid {σ ε : Type}
    {F : Lines.Format Duration σ String (List UInt8) Char ε} {isDone : ε → Bool} {s : σ}
    {elapsed : Nat → Duration} {fragments : List (List UInt8)}
    (h : ∀ f ∈ fragments, Utf8.Valid f) : TakesWhole F isDone s elapsed fragments := by
  intro n _ f hf
  have hmem : .ok f ∈ okStream fragments := List.mem_of_mem_take hf
  obtain ⟨f', hf', heq⟩ := List.mem_map.1 hmem
  rw [← Except.ok.inj heq]
  exact h f' hf'

/-- They do if every fragment is. -/
theorem wholeCharacters_of_valid (sse : String → Option ChatCompletionChunk)
    (generate : String → Option GenerateStreamChunk) {fragments : List (List UInt8)}
    (h : ∀ f ∈ fragments, Utf8.Valid f) : WholeCharacters sse generate fragments where
  openAi _ _ := takesWhole_of_valid h
  sglang _ _ := takesWhole_of_valid h

/-- If no character that is read is cut, it does not matter how the bytes are. -/
theorem splittings_agree (sse : String → Option ChatCompletionChunk)
    (generate : String → Option GenerateStreamChunk) {fragments fragments' : List (List UInt8)}
    (hbytes : fragments.flatten = fragments'.flatten)
    (hwhole : WholeCharacters sse generate fragments)
    (hwhole' : WholeCharacters sse generate fragments') :
    SplittingsAgree sse generate fragments fragments' := by
  constructor
  case openAi =>
    intro backendId elapsed elapsed' n
    exact beforeDone_of_takesWhole (SseParser.forgets sse) rfl hbytes
      (hwhole.openAi backendId elapsed) (hwhole'.openAi backendId elapsed') n
  case sglang =>
    intro backendId elapsed elapsed' n
    exact beforeDone_of_takesWhole (SglangGenerateParser.forgets generate) rfl hbytes
      (hwhole.sglang backendId elapsed) (hwhole'.sglang backendId elapsed') n

/-- What stands between two parts of a text. -/
def between (pre post : String) (text : String) : Option String :=
  (Text.stripPrefix pre.toList text.toList).bind fun rest =>
    (Text.stripPrefix post.toList.reverse rest.reverse).map fun s => String.ofList s.reverse

/-- Reads a chunk of one choice that has content and nothing else. -/
def contentOf (text : String) : Option ChatCompletionChunk :=
  let content := between "\x7b\"choices\":[\x7b\"delta\":\x7b\"content\":\"" "\"\x7d\x7d]\x7d" text
  content.map fun content => ⟨[⟨⟨some content, []⟩, none⟩]⟩

/-- Reads a chunk that has text and nothing else. -/
def generatedOf (text : String) : Option GenerateStreamChunk :=
  (between "\x7b\"text\":\"" "\"\x7d" text).map fun text => ⟨text, none⟩

/-- A stream of one line. -/
def cafe : List UInt8 :=
  Utf8.encode "data: \x7b\"choices\":[\x7b\"delta\":\x7b\"content\":\"café\"\x7d\x7d]\x7d\n".toList

/-- The line that ends a stream. -/
def doneLine : List Char := "data: [DONE]".toList

/-- A parser of which the first poll yields an end chunk, and takes one fragment for it. -/
theorem takesWhole_of_first {σ ε : Type} {isDone : ε → Bool}
    {F : Lines.Format Duration σ String (List UInt8) Char ε} {s : σ} {elapsed : Nat → Duration}
    {f : List UInt8} {fragments : List (List UInt8)} {l : List Char}
    (hopen : F.closed (elapsed 0) s = none) (hdecode : F.decode f = l ++ [F.sep]) (hl : F.sep ∉ l)
    (hline : ∃ e s', F.handle (elapsed 0) s l = (some e, s') ∧ isDone e = true)
    (hf : Utf8.Valid f) : TakesWhole F isDone s elapsed (f :: fragments) := by
  obtain ⟨e, s', hline, hdone⟩ := hline
  have hpoll : Lines.poll F (elapsed 0) ⟨okStream (f :: fragments), [], s⟩ =
      (some e, ⟨okStream fragments, [], s'⟩) := by
    have hempty : Lines.next F.sep (F.handle (elapsed 0)) s [] = (none, s, []) := rfl
    have hnext : Lines.next F.sep (F.handle (elapsed 0)) s (l ++ [F.sep]) = (some e, s', []) := by
      rw [Lines.next_line hl, hline]
    rw [Lines.poll_of_open hopen]
    show Lines.pull F (elapsed 0) (.ok f :: okStream fragments) [] s = _
    rw [Lines.pull_cons_ok hempty, List.nil_append, hdecode, Lines.pull_of_some hnext]
  intro n hnone f' hf'
  cases n with
  | zero =>
    have hleft : (Polling.state (Lines.poll F) elapsed ⟨okStream (f :: fragments), [], s⟩ 1).inner =
        okStream fragments := congrArg (fun p => p.2.inner) hpoll
    have hsplit := Lines.taken_append (F := F) elapsed ⟨okStream (f :: fragments), [], s⟩ 1
    rw [hleft] at hsplit
    have htaken := List.append_cancel_right (hsplit.trans (List.singleton_append).symm)
    rw [htaken, List.mem_singleton] at hf'
    rw [Except.ok.inj hf']
    exact hf
  | succ n =>
    have hitem : Polling.item (Lines.poll F) elapsed ⟨okStream (f :: fragments), [], s⟩ 0 =
        some e :=
      congrArg Prod.fst hpoll
    have hnot := hnone 0 (Nat.succ_pos n)
    rw [hitem, Option.any_some, hdone] at hnot
    exact absurd hnot.symm Bool.false_ne_true

/-- Both parsers stop reading at the end line. -/
theorem wholeCharacters_of_doneLine (sse : String → Option ChatCompletionChunk)
    (generate : String → Option GenerateStreamChunk) (fragments : List (List UInt8)) :
    WholeCharacters sse generate (Utf8.encode (doneLine ++ ['\n']) :: fragments) := by
  have hline : sseLine doneLine = .done := by decide +kernel
  have hsep : '\n' ∉ doneLine := by decide +kernel
  constructor
  case openAi =>
    intro backendId elapsed
    have hhandle : SseParser.handleLine sse (elapsed 0) backendId doneLine =
        (some (doneChunk (elapsed 0) backendId), backendId) := by
      unfold SseParser.handleLine
      rw [hline]
    exact takesWhole_of_first rfl (Utf8.lossy_encode _) hsep ⟨_, _, hhandle, rfl⟩ ⟨_, rfl⟩
  case sglang =>
    intro backendId elapsed
    have hhandle (s : SglangState) :
        SglangGenerateParser.handleLine generate (elapsed 0) s doneLine =
          (some (.chunk (doneChunk (elapsed 0) s.backendId)), s.close) := by
      unfold SglangGenerateParser.handleLine
      rw [hline]
    exact takesWhole_of_first rfl (Utf8.lossy_encode _) hsep ⟨_, _, hhandle _, rfl⟩ ⟨_, rfl⟩

/-- A stream may be cut between characters, and anywhere once it has ended. -/
theorem splittings_agree_cafe :
    SplittingsAgree contentOf generatedOf [cafe.take 2, cafe.drop 2] [cafe] ∧
      SplittingsAgree contentOf generatedOf
        [Utf8.encode (doneLine ++ ['\n']), [0xC3], [0xA9]]
        [Utf8.encode (doneLine ++ ['\n']), [0xC3, 0xA9]] := by
  constructor
  · refine splittings_agree contentOf generatedOf (by decide +kernel)
      (wholeCharacters_of_valid _ _ ?_) (wholeCharacters_of_valid _ _ ?_)
    · intro f hf
      rcases List.mem_cons.1 hf with rfl | hf
      · exact ⟨['d', 'a'], by decide +kernel⟩
      · rw [List.mem_singleton.1 hf]
        exact ⟨"ta: \x7b\"choices\":[\x7b\"delta\":\x7b\"content\":\"café\"\x7d\x7d]\x7d\n".toList,
          by decide +kernel⟩
    · intro f hf
      rw [List.mem_singleton.1 hf]
      exact ⟨_, rfl⟩
  · exact splittings_agree contentOf generatedOf (by decide +kernel)
      (wholeCharacters_of_doneLine _ _ _) (wholeCharacters_of_doneLine _ _ _)

/-- The two bytes of `é` in two fragments. -/
theorem accent_lost :
    ¬ ∀ (sse : String → Option ChatCompletionChunk) (generate : String → Option GenerateStreamChunk)
      (fragments fragments' : List (List UInt8)), fragments.flatten = fragments'.flatten →
      Utf8.Valid fragments.flatten → [] ∉ fragments → [] ∉ fragments' →
      SplittingsAgree sse generate fragments fragments' := by
  intro h
  have hflat : [cafe].flatten = [cafe.take 43, cafe.drop 43].flatten := by decide +kernel
  have hvalid : Utf8.Valid [cafe].flatten := ⟨_, (List.append_nil cafe).symm⟩
  have hagree := h contentOf generatedOf [cafe] [cafe.take 43, cafe.drop 43] hflat hvalid
    (by decide +kernel) (by decide +kernel)
  have hne : beforeDone InferenceChunk.isDone
        (SseParser.items contentOf ⟨⟨"eu"⟩, ⟨"a"⟩⟩ (fun _ => .fromSecs 1) [cafe]) 1 ≠
      beforeDone InferenceChunk.isDone
        (SseParser.items contentOf ⟨⟨"eu"⟩, ⟨"a"⟩⟩ (fun _ => .fromSecs 1)
          [cafe.take 43, cafe.drop 43]) 1 := by
    decide +kernel
  exact hne (hagree.openAi _ _ _ 1)

end HierKvGateway
