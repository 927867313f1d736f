import HierKvGateway.Connector.Fragments
import HierKvGateway.Lib.Run

/-!
# Connector.SglangStream — what arrives of the answer of an SGLang backend

The data of each line has all the text so far, and `SglangGenerateParser` sends what is new in it.
What it sends is a function of the data in the lines before `[DONE]`, up to the first finish reason
(`emitsAll`). From it follow that the stream ends once (`ends_once`), that the text is rebuilt
(`rebuilds`), and on which texts the parser panics (`never_panics_iff`).
-/

namespace HierKvGateway

/-! ## The data that is read -/

/-- The data of a line, if it can be read. -/
def SseLine.chunk (fromStr : String → Option GenerateStreamChunk) :
    SseLine → Option GenerateStreamChunk
  | .data text => fromStr (String.ofList text)
  | .ignored | .done => none

/-- The data in some lines before `[DONE]`. -/
def chunksBeforeDone (fromStr : String → Option GenerateStreamChunk) (lines : List SseLine) :
    List GenerateStreamChunk :=
  (lines.takeWhile (· ≠ .done)).filterMap (SseLine.chunk fromStr)

/-- The data in the lines of a text before `[DONE]`. The last line need not be ended. -/
def dataChunks (fromStr : String → Option GenerateStreamChunk) (text : List Char) :
    List GenerateStreamChunk :=
  chunksBeforeDone fromStr ((text.splitOn '\n').map sseLine)

/-- The data up to the first finish reason. -/
def uptoFinish : List GenerateStreamChunk → List GenerateStreamChunk
  | [] => []
  | c :: cs => if c.finishReason.isSome then [c] else c :: uptoFinish cs

namespace SglangState

/-- What is sent of the data, without the end chunk. -/
def sent (s : SglangState) : List GenerateStreamChunk → List SglangItem
  | [] => []
  | c :: cs =>
    (s.emit c).1.toList ++ if (s.emit c).2.finished then [] else sent (s.emit c).2 cs

end SglangState

section
variable {fromStr : String → Option GenerateStreamChunk} {l more : List Char}

theorem chunksBeforeDone_cons (line : SseLine) (lines : List SseLine) :
    chunksBeforeDone fromStr (line :: lines) =
      if line = .done then []
      else (line.chunk fromStr).toList ++ chunksBeforeDone fromStr lines := by
  unfold chunksBeforeDone
  by_cases hdone : line = .done
  · rw [List.takeWhile_cons_of_neg (by simpa using hdone), if_pos hdone, List.filterMap_nil]
  · rw [List.takeWhile_cons_of_pos (by simpa using hdone), if_neg hdone, List.filterMap_cons]
    cases line.chunk fromStr with
    | none => rfl
    | some c => rfl

variable (fromStr more) in
theorem dataChunks_line (hl : '\n' ∉ l) :
    dataChunks fromStr (l ++ '\n' :: more) =
      if sseLine l = .done then []
      else ((sseLine l).chunk fromStr).toList ++ dataChunks fromStr more := by
  unfold dataChunks
  rw [List.splitOn_append_cons_self_of_not_mem hl, List.map_cons, chunksBeforeDone_cons]

theorem dataChunks_nil : dataChunks fromStr [] = [] := rfl

/-- It makes no difference whether the last line is ended. -/
theorem dataChunks_last (hl : '\n' ∉ l) :
    dataChunks fromStr (l ++ ['\n']) = dataChunks fromStr l := by
  rw [dataChunks_line _ _ hl, dataChunks_nil]
  unfold dataChunks
  rw [List.splitOn_eq_singleton hl, List.map_singleton, chunksBeforeDone_cons]
  rfl

end

/-! ## What is emitted -/

namespace SglangState

/-- The end chunk is still to come. -/
structure Open (s : SglangState) : Prop where
  finished : s.finished = false
  doneEmitted : s.doneEmitted = false

/-- What the data of a line does to the state, and what it can yield. -/
theorem emit_spec (s : SglangState) (c : GenerateStreamChunk) :
    (s.emit c).2.backendId = s.backendId ∧ (s.emit c).2.doneEmitted = s.doneEmitted ∧
      ((s.emit c).1 = none → (s.emit c).2.finished = s.finished) ∧
      ∀ e, (s.emit c).1 = some e → e.isDone = false := by
  unfold emit
  cases s.deltaText c.text.toList with
  | none =>
    refine ⟨rfl, rfl, fun _ => rfl, ?_⟩
    rintro e he
    rw [← Option.some.inj he]
    rfl
  | some delta =>
    dsimp only
    split
    · rename_i hempty
      refine ⟨rfl, rfl, fun _ => ?_, fun e he => absurd he.symm (Option.some_ne_none e)⟩
      rw [hempty.2, Option.isSome_none, Bool.or_false]
    · refine ⟨rfl, rfl, fun hnone => absurd hnone (Option.some_ne_none _), ?_⟩
      intro e he
      rw [← Option.some.inj he]
      rfl

theorem Open.emit {s : SglangState} (hs : s.Open) {c : GenerateStreamChunk}
    (hc : (s.emit c).2.finished = false) : (s.emit c).2.Open :=
  ⟨hc, (s.emit_spec c).2.1.trans hs.doneEmitted⟩

end SglangState

namespace SglangGenerateParser

variable {fromStr : String → Option GenerateStreamChunk} {input : Nat → Duration}
  {s : SglangState} {text l more : List Char}

/-- What becomes of a line. -/
theorem handleLine_done (h : sseLine l = .done) (i : Duration) :
    handleLine fromStr i s l = (some (.chunk (doneChunk i s.backendId)), s.close) := by
  unfold handleLine
  rw [h]

theorem handleLine_unread (hdone : sseLine l ≠ .done) (h : (sseLine l).chunk fromStr = none)
    (i : Duration) : handleLine fromStr i s l = (none, s) := by
  unfold handleLine
  cases hline : sseLine l with
  | ignored => rfl
  | done => exact absurd hline hdone
  | data text =>
    rw [hline] at h
    have htext : fromStr (String.ofList text) = none := h
    dsimp only
    rw [htext]

theorem handleLine_chunk {c : GenerateStreamChunk} (h : (sseLine l).chunk fromStr = some c)
    (i : Duration) : handleLine fromStr i s l = s.emit c := by
  unfold handleLine
  cases hline : sseLine l with
  | ignored =>
    rw [hline] at h
    exact absurd h.symm (Option.some_ne_none c)
  | done =>
    rw [hline] at h
    exact absurd h.symm (Option.some_ne_none c)
  | data text =>
    rw [hline] at h
    have htext : fromStr (String.ofList text) = some c := h
    dsimp only
    rw [htext]

theorem closed_of_open (i : Duration) (hs : s.Open) : closed i s = none := by
  unfold closed
  rw [hs.finished]
  rfl

/-- Nothing comes after the end chunk. -/
theorem emits_closed (hfinished : s.finished = true) (hdone : s.doneEmitted = true) :
    Polling.Emits (Lines.whole (format fromStr)) input (s, text) [] := by
  apply Polling.emits_nil
  intro i
  have hclosed : (format fromStr).closed i s = some (none, s) := by
    show closed i s = _
    unfold closed
    rw [if_pos hfinished, if_pos hdone]
  rw [Lines.whole_of_closed hclosed]

/-- After a finish reason the end chunk is all that is still to come. -/
theorem emits_finished (hfinished : s.finished = true) (hdone : s.doneEmitted = false) :
    Polling.Emits (Lines.whole (format fromStr)) input (s, text)
      [.chunk (doneChunk (input 0) s.backendId)] := by
  have hclosed : (format fromStr).closed (input 0) s =
      some (some (.chunk (doneChunk (input 0) s.backendId)), { s with doneEmitted := true }) := by
    show closed (input 0) s = _
    unfold closed
    rw [if_pos hfinished, if_neg (Bool.eq_false_iff.1 hdone)]
  have hpoll : Lines.whole (format fromStr) (input 0) (s, text) =
      (some (.chunk (doneChunk (input 0) s.backendId)),
        ({ s with doneEmitted := true }, text)) := Lines.whole_of_closed hclosed text
  apply Polling.Emits.cons
  · exact congrArg Prod.fst hpoll
  · rw [hpoll]
    exact emits_closed hfinished rfl

variable (fromStr more) in
/-- What a poll makes of the first line. -/
theorem whole_first (i : Duration) (hs : s.Open) (hl : '\n' ∉ l) :
    Lines.whole (format fromStr) i (s, l ++ '\n' :: more) =
      match handleLine fromStr i s l with
      | (some e, s') => (some e, (s', more))
      | (none, s') => Lines.read (format fromStr) i s' more := by
  have hnext : Lines.next '\n' (handleLine fromStr i) s (l ++ '\n' :: more) = _ :=
    Lines.next_line hl s more
  rw [Lines.whole_of_open (F := format fromStr) (closed_of_open i hs)]
  unfold Lines.read
  dsimp only [format]
  rw [hnext]
  cases handleLine fromStr i s l with
  | mk o s' =>
    cases o with
    | none => rfl
    | some e => rfl

/-- The parser ends the last line itself. -/
theorem whole_last (i : Duration) (hs : s.Open) (hl : '\n' ∉ l) :
    Lines.whole (format fromStr) i (s, l) = Lines.whole (format fromStr) i (s, l ++ ['\n']) := by
  have hfinish : Lines.whole (format fromStr) i (s, l) = finish fromStr i s l :=
    Lines.whole_of_notMem (F := format fromStr) (closed_of_open i hs) hl
  have hnext : Lines.next '\n' (handleLine fromStr i) s (l ++ ['\n']) = _ :=
    Lines.next_line hl s []
  rw [whole_first _ _ i hs hl, hfinish]
  unfold finish
  by_cases hempty : l = []
  · subst hempty
    rfl
  · rw [if_neg hempty]
    unfold tryParse
    rw [hnext]
    cases handleLine fromStr i s l with
    | mk o s' =>
      cases o with
      | none => rfl
      | some e => rfl

/-- The stream ends where the text does. -/
theorem emits_empty (hs : s.Open) :
    Polling.Emits (Lines.whole (format fromStr)) input (s, [])
      [.chunk (doneChunk (input 0) s.backendId)] := by
  have hpoll : Lines.whole (format fromStr) (input 0) (s, []) =
      (some (.chunk (doneChunk (input 0) s.backendId)), (s.close, [])) :=
    Lines.whole_of_open (F := format fromStr) (closed_of_open _ hs) []
  apply Polling.Emits.cons
  · exact congrArg Prod.fst hpoll
  · rw [hpoll]
    exact emits_closed rfl rfl

/-- The items of a parser that has a text to read: what is sent of the data in it, and then the end
chunk. -/
def EmitsAll (fromStr : String → Option GenerateStreamChunk) (s : SglangState)
    (text : List Char) : Prop :=
  ∀ input, Polling.Emits (Lines.whole (format fromStr)) input (s, text)
    (s.sent (dataChunks fromStr text) ++
      [.chunk (doneChunk (input (s.sent (dataChunks fromStr text)).length) s.backendId)])

/-- A line that yields nothing is skipped. -/
theorem emitsAll_skip {s' : SglangState} (hl : '\n' ∉ l) (hs : s.Open) (hs' : s'.Open)
    (hhandle : ∀ i, handleLine fromStr i s l = (none, s')) (hid : s'.backendId = s.backendId)
    (hsent : s.sent (dataChunks fromStr (l ++ '\n' :: more)) = s'.sent (dataChunks fromStr more))
    (hmore : EmitsAll fromStr s' more) : EmitsAll fromStr s (l ++ '\n' :: more) := by
  intro input
  have hpoll : Lines.whole (format fromStr) (input 0) (s, l ++ '\n' :: more) =
      Lines.whole (format fromStr) (input 0) (s', more) := by
    rw [whole_first _ _ _ hs hl, hhandle]
    exact (Lines.whole_of_open (F := format fromStr) (closed_of_open _ hs') more).symm
  rw [hsent, ← hid]
  exact (hmore input).congr hpoll

/-- A line with data that can be read. -/
theorem emitsAll_chunk {c : GenerateStreamChunk} (hl : '\n' ∉ l) (hs : s.Open)
    (hchunk : (sseLine l).chunk fromStr = some c)
    (hmore : ∀ s : SglangState, s.Open → EmitsAll fromStr s more) :
    EmitsAll fromStr s (l ++ '\n' :: more) := by
  have hcons : dataChunks fromStr (l ++ '\n' :: more) = c :: dataChunks fromStr more := by
    have hdone : sseLine l ≠ .done := by
      intro hdone
      rw [hdone] at hchunk
      exact absurd hchunk.symm (Option.some_ne_none c)
    rw [dataChunks_line fromStr more hl, if_neg hdone, hchunk]
    rfl
  obtain ⟨hid, hdone, hnone, -⟩ := s.emit_spec c
  cases hitem : (s.emit c).1 with
  | none =>
    have hopen : (s.emit c).2.Open := hs.emit ((hnone hitem).trans hs.finished)
    refine emitsAll_skip hl hs hopen (fun i => ?_) hid ?_ (hmore _ hopen)
    · rw [handleLine_chunk hchunk, ← hitem]
    · rw [hcons]
      show (s.emit c).1.toList ++ _ = _
      rw [hitem, hopen.finished]
      rfl
  | some e =>
    intro input
    have hpoll := whole_first fromStr more (input 0) hs hl
    have hpair : s.emit c = (some e, (s.emit c).2) := by rw [← hitem]
    rw [handleLine_chunk hchunk, hpair] at hpoll
    have hsent : s.sent (c :: dataChunks fromStr more) = e ::
        if (s.emit c).2.finished then [] else (s.emit c).2.sent (dataChunks fromStr more) := by
      show (s.emit c).1.toList ++ _ = _
      rw [hitem]
      rfl
    rw [hcons, hsent]
    apply Polling.Emits.cons
    · exact congrArg Prod.fst hpoll
    · rw [hpoll]
      -- a finish reason ends the reading, else the rest of the text is read
      cases hfinished : (s.emit c).2.finished with
      | true =>
        rw [← hid]
        exact emits_finished hfinished (hdone.trans hs.doneEmitted)
      | false =>
        have htail := hmore _ (hs.emit hfinished) fun k => input (k + 1)
        rw [hid] at htail
        exact htail

theorem emitsAll_line (hl : '\n' ∉ l) (hs : s.Open)
    (hmore : ∀ s : SglangState, s.Open → EmitsAll fromStr s more) :
    EmitsAll fromStr s (l ++ '\n' :: more) := by
  by_cases hdone : sseLine l = .done
  · -- the end chunk comes now, and what follows the line is not read
    intro input
    have hpoll := whole_first fromStr more (input 0) hs hl
    rw [handleLine_done hdone] at hpoll
    rw [dataChunks_line fromStr more hl, if_pos hdone]
    apply Polling.Emits.cons
    · exact congrArg Prod.fst hpoll
    · rw [hpoll]
      exact emits_closed rfl rfl
  · cases hchunk : (sseLine l).chunk fromStr with
    | none =>
      refine emitsAll_skip hl hs hs (handleLine_unread hdone hchunk) rfl ?_ (hmore s hs)
      rw [dataChunks_line fromStr more hl, if_neg hdone, hchunk]
      rfl
    | some c => exact emitsAll_chunk hl hs hchunk hmore

variable (fromStr) in
theorem emitsAll (hs : s.Open) (text : List Char) : EmitsAll fromStr s text := by
  have hempty (s : SglangState) (hs : s.Open) : EmitsAll fromStr s [] := fun _ => emits_empty hs
  induction text using @Lines.line_induction Char _ '\n' generalizing s with
  | hlast l hl =>
    intro input
    have hended := emitsAll_line hl hs hempty input
    rw [dataChunks_last hl] at hended
    refine hended.congr ?_
    exact whole_last _ hs hl
  | hline l more hl ih => exact emitsAll_line hl hs fun s hs => ih hs

/-- A new parser. -/
theorem open_new (backendId : BackendId) : (SglangState.mk backendId 0 false false).Open :=
  ⟨rfl, rfl⟩

variable (fromStr) in
/-- What a parser yields of a stream that does not fail. -/
theorem items_eq (backendId : BackendId) (elapsed : Nat → Duration)
    (fragments : List (List UInt8)) (n : Nat) :
    let sent := (SglangState.mk backendId 0 false false).sent
      (dataChunks fromStr (fragments.flatMap Utf8.lossy))
    items fromStr backendId elapsed fragments n =
      (sent ++ [.chunk (doneChunk (elapsed sent.length) backendId)])[n]? := by
  intro sent
  have hfree := errorFree_okStream fragments
  unfold items pollNext
  rw [Lines.item_whole (r := new (okStream fragments) backendId) hfree]
  unfold new
  rw [abs_okStream]
  exact emitsAll fromStr (open_new backendId) _ elapsed n

end SglangGenerateParser

/-- The bytes of lines that have these texts. -/
def generateLines (texts : List String) : List UInt8 :=
  Utf8.encode (texts.flatMap fun t => ("data: \x7b\"text\":\"" ++ t ++ "\"\x7d\n").toList)

/-! ## The end -/

theorem SglangState.isDone_of_mem_sent {s : SglangState} {chunks : List GenerateStreamChunk}
    {e : SglangItem} (he : e ∈ s.sent chunks) : e.isDone = false := by
  induction chunks generalizing s with
  | nil => exact absurd he List.not_mem_nil
  | cons c cs ih =>
    rcases List.mem_append.1 he with hitem | hrest
    · exact (s.emit_spec c).2.2.2 e (Option.mem_toList.1 hitem)
    · split at hrest
      · exact absurd hrest List.not_mem_nil
      · exact ih hrest

/-- Some items and one end after them. -/
theorem EndsOnce.concat {ε : Type} {isDone : ε → Bool} {sent : List ε} {last : ε}
    (hsent : ∀ e ∈ sent, isDone e = false) (hlast : isDone last = true) :
    EndsOnce isDone fun n => (sent ++ [last])[n]? := by
  refine ⟨sent.length, ?_, ⟨last, List.getElem?_concat_length, hlast⟩, ?_⟩
  · intro i hi
    refine ⟨sent[i], ?_, hsent _ (List.getElem_mem hi)⟩
    dsimp only
    rw [List.getElem?_append_left hi, List.getElem?_eq_getElem hi]
  · intro i hi
    dsimp only
    rw [List.getElem?_eq_none]
    rw [List.length_append, List.length_singleton]
    exact hi

/-- Items without a panic are chunks. -/
theorem exists_chunks {items : List SglangItem} (h : .panicked ∉ items) :
    ∃ chunks : List InferenceChunk, items = chunks.map .chunk := by
  induction items with
  | nil => exact ⟨[], rfl⟩
  | cons e items ih =>
    obtain ⟨hne, hrest⟩ := not_or.1 (mt List.mem_cons.2 h)
    obtain ⟨chunks, rfl⟩ := ih hrest
    cases e with
    | chunk c => exact ⟨c :: chunks, rfl⟩
    | panicked => exact absurd rfl hne

/-- A stream that does not fail, and on which the parser does not panic, ends with one end chunk
and has nothing after it. -/
theorem SglangGenerateParser.ends_once (fromStr : String → Option GenerateStreamChunk)
    (backendId : BackendId) (elapsed : Nat → Duration) (fragments : List (List UInt8))
    (hsafe : ∀ n, items fromStr backendId elapsed fragments n ≠ some .panicked) :
    ∃ chunks : Nat → Option InferenceChunk,
      (∀ n, items fromStr backendId elapsed fragments n = (chunks n).map .chunk) ∧
        EndsOnce InferenceChunk.isDone chunks := by
  have hitems := items_eq fromStr backendId elapsed fragments
  have hnone : SglangItem.panicked ∉ (SglangState.mk backendId 0 false false).sent
      (dataChunks fromStr (fragments.flatMap Utf8.lossy)) := by
    intro hmem
    obtain ⟨n, hn, hget⟩ := List.mem_iff_getElem.1 hmem
    apply hsafe n
    rw [hitems, List.getElem?_append_left hn, List.getElem?_eq_getElem hn, hget]
  obtain ⟨sent, hsent⟩ := exists_chunks hnone
  let last := doneChunk (elapsed (sent.map SglangItem.chunk).length) backendId
  refine ⟨fun n => (sent ++ [last])[n]?, ?_, EndsOnce.concat ?_ rfl⟩
  · intro n
    rw [hitems, hsent, ← List.getElem?_map, List.map_append]
    rfl
  · intro c hc
    have hmem : SglangItem.chunk c ∈ sent.map SglangItem.chunk := List.mem_map_of_mem hc
    rw [← hsent] at hmem
    exact SglangState.isDone_of_mem_sent hmem

/-- Two lines, in fragments that cut a character. -/
theorem SglangGenerateParser.ends_once_two :
    let lines := generateLines ["a", "aé"]
    ∃ chunks : Nat → Option InferenceChunk,
      (∀ n, items generatedOf ⟨⟨"eu"⟩, ⟨"a"⟩⟩ (fun _ => .fromSecs 1)
        [lines.take 36, lines.drop 36] n = (chunks n).map .chunk) ∧
        EndsOnce InferenceChunk.isDone chunks := by
  intro lines
  refine ends_once generatedOf ⟨⟨"eu"⟩, ⟨"a"⟩⟩ (fun _ => .fromSecs 1)
    [lines.take 36, lines.drop 36] ?_
  intro n hn
  rw [items_eq generatedOf] at hn
  have hmem := List.mem_of_getElem? hn
  revert hmem
  decide +kernel

/-! ## The text -/

/-- The text of a chunk. -/
def InferenceChunk.deltaText : InferenceChunk → List Char
  | .delta text _ => text.toList
  | _ => []

/-- The finish reason of a chunk. -/
def InferenceChunk.finishReason : InferenceChunk → Option String
  | .delta _ reason => reason
  | _ => none

/-- The text of an answer: that of the data with the finish reason, or else that of the last. -/
def finalText (chunks : List GenerateStreamChunk) : List Char :=
  let last := (chunks.find? (·.finishReason.isSome)).or chunks.getLast?
  (last.map (·.text.toList)).getD []

/-- What follows from the data, when some text has been sent. -/
def finalFrom (sent : List Char) : List GenerateStreamChunk → List Char
  | [] => sent
  | c :: cs => if c.finishReason.isSome then c.text.toList else finalFrom c.text.toList cs

theorem finalFrom_eq (sent : List Char) (chunks : List GenerateStreamChunk) :
    finalFrom sent chunks =
      (((chunks.find? (·.finishReason.isSome)).or chunks.getLast?).map (·.text.toList)).getD
        sent := by
  induction chunks generalizing sent with
  | nil => rfl
  | cons c cs ih =>
    unfold finalFrom
    rw [List.find?_cons]
    cases c.finishReason.isSome with
    | true => rfl
    | false =>
      rw [if_neg Bool.false_ne_true, ih]
      cases cs with
      | nil => rfl
      | cons c' cs =>
        rw [List.getLast?_cons_cons]
        -- there is a last one, and so it makes no difference what has been sent before
        cases hlast : (c' :: cs).getLast? with
        | none => exact absurd (List.getLast?_eq_none_iff.1 hlast) (List.cons_ne_nil c' cs)
        | some last =>
          dsimp only
          cases (c' :: cs).find? (·.finishReason.isSome) with
          | none => rfl
          | some first => rfl

namespace SglangState

variable {s : SglangState} {c : GenerateStreamChunk}

/-- A text that extends what has been sent: the rest of it is sent. -/
theorem emit_of_append {sent delta : List Char} (hlen : s.emittedLen = Text.byteLen sent)
    (htext : c.text.toList = sent ++ delta) :
    s.emit c =
      (if delta = [] ∧ c.finishReason = none then none
        else some (.chunk (.delta (String.ofList delta) c.finishReason)),
       { s with
          emittedLen := Text.byteLen c.text.toList
          finished := s.finished || c.finishReason.isSome }) := by
  have hle : s.emittedLen ≤ Text.byteLen c.text.toList := by
    rw [htext, Text.byteLen_append, hlen]
    exact Nat.le_add_right _ _
  have hdelta : s.deltaText c.text.toList = some delta := by
    unfold deltaText
    rw [if_pos hle]
    exact Text.dropBytes_eq_some_iff.2 ⟨sent, htext, hlen.symm⟩
  have hnext : s.nextEmittedLen c.text.toList = Text.byteLen c.text.toList := if_pos hle
  unfold emit
  rw [hdelta]
  dsimp only
  rw [hnext]
  split
  · rfl
  · rfl

/-- Texts that extend each other are sent piece by piece, up to the first finish reason. -/
theorem sent_of_chain {sent : List Char} (hs : s.Open) (hlen : s.emittedLen = Text.byteLen sent)
    {chunks : List GenerateStreamChunk}
    (hgrows : (sent :: chunks.map (·.text.toList)).IsChain (· <+: ·)) :
    ∃ out : List InferenceChunk, s.sent chunks = out.map .chunk ∧
      sent ++ out.flatMap (·.deltaText) = finalFrom sent chunks ∧
      out.filterMap (·.finishReason) = (chunks.findSome? (·.finishReason)).toList := by
  induction chunks generalizing s sent with
  | nil => exact ⟨[], rfl, List.append_nil sent, rfl⟩
  | cons c cs ih =>
    rw [List.map_cons, List.isChain_cons_cons] at hgrows
    obtain ⟨⟨delta, hdelta⟩, hgrows⟩ := hgrows
    have hemit := emit_of_append hlen hdelta.symm
    unfold SglangState.sent finalFrom
    cases hfinish : c.finishReason with
    | some reason =>
      -- the rest of the data is not read
      rw [hfinish] at hemit
      refine ⟨[.delta (String.ofList delta) (some reason)], ?_, ?_, ?_⟩
      · rw [hemit, hs.finished]
        simp
      · simp [InferenceChunk.deltaText, hdelta]
      · simp [InferenceChunk.finishReason, hfinish]
    | none =>
      rw [hfinish] at hemit
      have hopen : (s.emit c).2.Open := hs.emit (by rw [hemit, hs.finished]; rfl)
      have hlen' : (s.emit c).2.emittedLen = Text.byteLen c.text.toList := by rw [hemit]
      obtain ⟨out, hsent, htext, hreasons⟩ := ih hopen hlen' hgrows
      rw [hopen.finished, hsent]
      by_cases hempty : delta = []
      · refine ⟨out, ?_, ?_, ?_⟩
        · rw [hemit]
          simp [hempty]
        · rw [hempty, List.append_nil] at hdelta
          rw [hdelta]
          exact htext
        · rw [hreasons, List.findSome?_cons, hfinish]
      · refine ⟨.delta (String.ofList delta) none :: out, ?_, ?_, ?_⟩
        · rw [hemit]
          simp [hempty]
        · rw [List.flatMap_cons, ← List.append_assoc]
          simpa [InferenceChunk.deltaText, hdelta] using htext
        · rw [List.filterMap_cons_none rfl, hreasons, List.findSome?_cons, hfinish]

end SglangState

/-- If each text extends the last one, and no character is cut, then what is sent is the text, with
its finish reason once. -/
theorem SglangGenerateParser.rebuilds (fromStr : String → Option GenerateStreamChunk)
    (backendId : BackendId) (elapsed : Nat → Duration) {text : List Char}
    {fragments : List (List UInt8)} (hbytes : fragments.flatten = Utf8.encode text)
    (hutf8 : ∀ f ∈ fragments, Utf8.Valid f)
    (hgrows : ((dataChunks fromStr text).map (·.text.toList)).IsChain (· <+: ·)) :
    ∃ out : List InferenceChunk,
      (∀ n, items fromStr backendId elapsed fragments n = out[n]?.map .chunk) ∧
        out.flatMap (·.deltaText) = finalText (dataChunks fromStr text) ∧
        out.filterMap (·.finishReason) =
          ((dataChunks fromStr text).findSome? (·.finishReason)).toList := by
  have htext : fragments.flatMap Utf8.lossy = text := by
    rw [(Utf8.flatMap_lossy hutf8).1, hbytes, Utf8.lossy_encode]
  have hitems := items_eq fromStr backendId elapsed fragments
  rw [htext] at hitems
  have hstart : ([] :: (dataChunks fromStr text).map (·.text.toList)).IsChain (· <+: ·) := by
    cases h : (dataChunks fromStr text).map (·.text.toList) with
    | nil => exact .singleton _
    | cons t ts =>
      rw [List.isChain_cons_cons, ← h]
      exact ⟨List.nil_prefix, hgrows⟩
  obtain ⟨out, hsent, hfinal, hreasons⟩ :=
    SglangState.sent_of_chain (open_new backendId) rfl hstart
  dsimp only at hitems
  rw [hsent] at hitems
  refine ⟨out ++ [doneChunk (elapsed out.length) backendId], ?_, ?_, ?_⟩
  · intro n
    rw [hitems, List.length_map, ← List.getElem?_map, List.map_append]
    rfl
  · rw [List.flatMap_append]
    rw [List.nil_append, finalFrom_eq] at hfinal
    rw [hfinal]
    exact List.append_nil _
  · rw [List.filterMap_append, hreasons]
    exact List.append_nil _

/-- Reads a chunk that has text and a reason to stop, or text and nothing else. -/
def stoppedOf (text : String) : Option GenerateStreamChunk :=
  let stopped := between "\x7b\"text\":\""
    "\",\"meta_info\":\x7b\"finish_reason\":\x7b\"type\":\"stop\"\x7d\x7d\x7d" text
  (stopped.map fun text => ⟨text, some ⟨some ⟨"stop"⟩⟩⟩).or (generatedOf text)

/-- The last line has the reason to stop and is not ended, and a keep-alive line comes in
between. -/
theorem SglangGenerateParser.rebuilds_stopped :
    let text := ("data: \x7b\"text\":\"a\"\x7d\n\n: alive\ndata: \x7b\"text\":\"aé\"," ++
      "\"meta_info\":\x7b\"finish_reason\":\x7b\"type\":\"stop\"\x7d\x7d\x7d").toList
    ∃ out : List InferenceChunk,
      (∀ n, items stoppedOf ⟨⟨"eu"⟩, ⟨"a"⟩⟩ (fun _ => .fromSecs 1)
        [Utf8.encode (text.take 9), Utf8.encode (text.drop 9)] n = out[n]?.map .chunk) ∧
        out.flatMap (·.deltaText) = "aé".toList ∧ out.filterMap (·.finishReason) = ["stop"] := by
  intro text
  have hchunks : dataChunks stoppedOf text =
      [⟨"a", none⟩, ⟨"aé", some ⟨some ⟨"stop"⟩⟩⟩] := by decide +kernel
  have hbytes : [Utf8.encode (text.take 9), Utf8.encode (text.drop 9)].flatten =
      Utf8.encode text := by decide +kernel
  have hutf8 : ∀ f ∈ [Utf8.encode (text.take 9), Utf8.encode (text.drop 9)], Utf8.Valid f := by
    intro f hf
    rcases List.mem_cons.1 hf with rfl | hf
    · exact ⟨_, rfl⟩
    · rw [List.mem_singleton.1 hf]
      exact ⟨_, rfl⟩
  have hgrows : ((dataChunks stoppedOf text).map (·.text.toList)).IsChain (· <+: ·) := by
    rw [hchunks]
    decide +kernel
  obtain ⟨out, hitems, htext, hreasons⟩ :=
    rebuilds stoppedOf ⟨⟨"eu"⟩, ⟨"a"⟩⟩ (fun _ => .fromSecs 1) hbytes hutf8 hgrows
  rw [hchunks] at htext hreasons
  exact ⟨out, hitems, htext, hreasons⟩

/-! ## Panics -/

/-- How many bytes count as sent after a text. -/
def carried (sent : Nat) (text : List Char) : Nat :=
  if sent ≤ Text.byteLen text then Text.byteLen text else sent + Text.byteLen text

/-- The text is shorter than what counts as sent, or that many bytes of it are whole characters. -/
def Sliceable (sent : Nat) (text : List Char) : Prop :=
  sent ≤ Text.byteLen text → ∃ p, p <+: text ∧ Text.byteLen p = sent

namespace SglangState

variable {s : SglangState} {c : GenerateStreamChunk}

theorem deltaText_eq_none_iff (text : List Char) :
    s.deltaText text = none ↔ ¬Sliceable s.emittedLen text := by
  unfold deltaText Sliceable
  split
  · rename_i hle
    constructor
    · intro hnone hslice
      obtain ⟨p, ⟨rest, hrest⟩, hlen⟩ := hslice hle
      have hsome := Text.dropBytes_eq_some_iff.2 ⟨p, hrest.symm, hlen⟩
      exact absurd (hnone.symm.trans hsome) (Option.some_ne_none rest).symm
    · intro hslice
      cases hdrop : Text.dropBytes s.emittedLen text with
      | none => rfl
      | some rest =>
        obtain ⟨p, hp, hlen⟩ := Text.dropBytes_eq_some_iff.1 hdrop
        exact absurd (fun _ => ⟨p, ⟨rest, hp.symm⟩, hlen⟩) hslice
  · rename_i hlt
    constructor
    · intro h
      exact absurd h (Option.some_ne_none text)
    · intro h
      exact absurd (fun hle => absurd hle hlt) h

/-- A text that can be sliced is, and counts as sent. -/
theorem emit_of_sliceable (h : Sliceable s.emittedLen c.text.toList) :
    (s.emit c).1 ≠ some .panicked ∧ (s.emit c).2.emittedLen = carried s.emittedLen c.text.toList ∧
      (s.emit c).2.finished = (s.finished || c.finishReason.isSome) := by
  cases hdelta : s.deltaText c.text.toList with
  | none => exact absurd h ((deltaText_eq_none_iff _).1 hdelta)
  | some delta =>
    unfold emit
    rw [hdelta]
    dsimp only
    split
    · exact ⟨nofun, rfl, rfl⟩
    · exact ⟨nofun, rfl, rfl⟩

theorem emit_of_not_sliceable (h : ¬Sliceable s.emittedLen c.text.toList) :
    s.emit c = (some .panicked, s) := by
  unfold emit
  rw [(deltaText_eq_none_iff _).2 h]

/-- The parser panics at the first text that it cannot slice. -/
theorem panicked_mem_sent_iff (hs : s.finished = false) (chunks : List GenerateStreamChunk) :
    .panicked ∈ s.sent chunks ↔
      ¬Run.Each carried Sliceable s.emittedLen
        ((uptoFinish chunks).map (·.text.toList)) := by
  induction chunks generalizing s with
  | nil =>
    constructor
    · intro h
      exact absurd h List.not_mem_nil
    · intro h
      exact absurd trivial h
  | cons c cs ih =>
    have htexts : (uptoFinish (c :: cs)).map (·.text.toList) = c.text.toList ::
        if c.finishReason.isSome then [] else (uptoFinish cs).map (·.text.toList) := by
      show (if c.finishReason.isSome then [c] else c :: uptoFinish cs).map _ = _
      split
      · rfl
      · rfl
    rw [htexts, Run.each_cons]
    by_cases hslice : Sliceable s.emittedLen c.text.toList
    · -- this text does not panic, so it is up to the others, unless it is the last
      obtain ⟨hitem, hlen, hfinished⟩ := emit_of_sliceable hslice
      rw [hs, Bool.false_or] at hfinished
      have hfirst : SglangItem.panicked ∉ (s.emit c).1.toList := by
        intro h
        exact hitem (Option.mem_toList.1 h)
      unfold SglangState.sent
      rw [List.mem_append, hfinished, ← hlen]
      cases hreason : c.finishReason.isSome with
      | true => simp [hfirst, hslice]
      | false =>
        rw [hreason] at hfinished
        simp [hfirst, hslice, ih hfinished]
    · unfold SglangState.sent
      -- the panic is the item of this text
      rw [emit_of_not_sliceable hslice]
      constructor
      · intro _ h
        exact hslice h.1
      · intro _
        exact List.mem_append_left _ (List.mem_singleton_self _)

end SglangState

namespace SglangGenerateParser

variable {fromStr : String → Option GenerateStreamChunk}

theorem closed_eq_none_iff (i : Duration) (s : SglangState) :
    closed i s = none ↔ s.finished = false := by
  unfold closed
  cases s.finished with
  | false => exact ⟨fun _ => rfl, fun _ => rfl⟩
  | true =>
    cases s.doneEmitted with
    | false => exact ⟨nofun, nofun⟩
    | true => exact ⟨nofun, nofun⟩

theorem staysOpen : (format fromStr).StaysOpen := by
  intro i s line s' hopen hnone
  have hline : handleLine fromStr i s line = (none, s') := hnone
  refine (closed_eq_none_iff i s').2 (Eq.trans ?_ ((closed_eq_none_iff i s).1 hopen))
  unfold handleLine at hline
  split at hline
  · rw [← (Prod.mk.inj hline).2]
  · exact absurd (Prod.mk.inj hline).1 (Option.some_ne_none _)
  · split at hline
    · rename_i chunk _
      have hemit := (s.emit_spec chunk).2.2.1
      rw [hline] at hemit
      exact hemit rfl
    · rw [← (Prod.mk.inj hline).2]

/-- The times of end chunks are left out, but panics are kept. -/
theorem keep_eq_panicked_iff (o : Option SglangItem) :
    o.map (keep SglangItem.isDone) = some (some .panicked) ↔ o = some .panicked := by
  constructor
  · intro h
    have hmap : o.map (keep SglangItem.isDone) =
        (some SglangItem.panicked).map (keep SglangItem.isDone) := h
    rcases keep_eq hmap with heq | hdone
    · exact heq
    · exact absurd hdone.2 Bool.false_ne_true
  · intro h
    rw [h]
    rfl

/-- The parser never panics, on a stream that may fail, just when it can slice each text that it
reads at the number of bytes that the texts before it have left. -/
theorem never_panics_iff (fromStr : String → Option GenerateStreamChunk) (backendId : BackendId)
    (elapsed : Nat → Duration) (inner : List (Except String (List UInt8))) :
    (∀ n, Polling.item (pollNext fromStr) elapsed (new inner backendId) n ≠ some .panicked) ↔
      Run.Each carried Sliceable 0
        ((uptoFinish (dataChunks fromStr (Lines.textOf (format fromStr) inner))).map
          (·.text.toList)) := by
  let start : SglangState := ⟨backendId, 0, false, false⟩
  let text := Lines.textOf (format fromStr) inner
  have hfail (e : String) :
      keep SglangItem.isDone ((format fromStr).fail e) ≠ some .panicked := by
    intro h
    exact absurd (Option.some.inj h) nofun
  have hoccurs := Lines.occurs_iff (forgets fromStr) staysOpen hfail (new inner backendId) elapsed
    elapsed
  simp only [keep_eq_panicked_iff] at hoccurs
  have hitems : ∀ n, Polling.item (Lines.whole (format fromStr)) elapsed (start, text) n =
      (start.sent (dataChunks fromStr text) ++ [_])[n]? :=
    emitsAll fromStr (open_new backendId) text elapsed
  have hmem : (∃ n, Polling.item (Lines.whole (format fromStr)) elapsed (start, text) n =
      some .panicked) ↔ SglangItem.panicked ∈ start.sent (dataChunks fromStr text) := by
    simp only [hitems]
    rw [← List.mem_iff_getElem?, List.mem_append, List.mem_singleton]
    exact or_iff_left nofun
  have hpanics := hoccurs.trans (hmem.trans (SglangState.panicked_mem_sent_iff (s := start) rfl _))
  constructor
  · intro h
    by_contra hnot
    obtain ⟨n, hn⟩ := hpanics.2 hnot
    exact h n hn
  · intro h n hn
    exact hpanics.1 ⟨n, hn⟩ h

/-- A server that sends what is new, and not all the text: `é` has two bytes, of which one counts
as sent. -/
theorem accent_panics :
    ¬ ∀ (fromStr : String → Option GenerateStreamChunk) (backendId : BackendId)
      (elapsed : Nat → Duration) (inner : List (Except String (List UInt8))) (n : Nat),
      Polling.item (pollNext fromStr) elapsed (new inner backendId) n ≠ some .panicked := by
  intro h
  have hpanics : Polling.item (pollNext generatedOf) (fun _ => .fromSecs 1)
      (new [.ok (generateLines ["a", "é"])] ⟨⟨"eu"⟩, ⟨"a"⟩⟩) 1 = some .panicked := by
    decide +kernel
  exact h generatedOf ⟨⟨"eu"⟩, ⟨"a"⟩⟩ (fun _ => .fromSecs 1) [.ok (generateLines ["a", "é"])] 1
    hpanics

/-- Texts that extend each other can all be sliced. -/
theorem each_sliceable_of_chain {sent : List Char} {texts : List (List Char)}
    (hgrows : (sent :: texts).IsChain (· <+: ·)) :
    Run.Each carried Sliceable (Text.byteLen sent) texts := by
  induction texts generalizing sent with
  | nil => trivial
  | cons text texts ih =>
    rw [List.isChain_cons_cons] at hgrows
    obtain ⟨⟨delta, rfl⟩, hgrows⟩ := hgrows
    have hle : Text.byteLen sent ≤ Text.byteLen (sent ++ delta) := by
      rw [Text.byteLen_append]
      exact Nat.le_add_right _ _
    have hcarried : carried (Text.byteLen sent) (sent ++ delta) = Text.byteLen (sent ++ delta) :=
      if_pos hle
    refine ⟨fun _ => ⟨sent, List.prefix_append sent delta, rfl⟩, ?_⟩
    rw [hcarried]
    exact ih hgrows

end SglangGenerateParser

end HierKvGateway
