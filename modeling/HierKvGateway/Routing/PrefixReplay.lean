import HierKvGateway.Lib.Run
import HierKvGateway.Metadata.Xxh3
import HierKvGateway.Routing.PrefixHistory
import Mathlib.Order.Bounds.Basic

/-!
# Routing.PrefixReplay — the dispatch history against all dispatches

The history keeps one record for the hash of every prefix that was dispatched. As long as nothing is
evicted and no two prefixes have one hash, the record of a prefix is what the list of all dispatches
says (`Refines`): the backend and the time of the last one with the prefix, and how many there are.
So a lookup finds the longest prefix that any dispatch shares (`findLongestMatch_recordAll`).
-/

namespace HierKvGateway

namespace PrefixReuseHistory

variable {xxh3 : Xxh3}

/-! ## The hash of a prefix -/

/-- The hash of a prefix that is continued by a block. -/
def nextHash (xxh3 : Xxh3) (prev h : BitVec 64) : BitVec 64 :=
  xxh3 (toLeBytes 8 prev ++ toLeBytes 8 h) prefixSeed

/-- The hash of a prefix; the empty one has none. -/
def prefixHash (xxh3 : Xxh3) : List (BitVec 64) → BitVec 64
  | [] => 0
  | h :: hs => hs.foldl (nextHash xxh3) (xxh3 (toLeBytes 8 h) prefixSeed)

theorem extendHashes_eq (prev : BitVec 64) (hs : List (BitVec 64)) :
    prev :: extendHashes xxh3 prev hs =
      (List.range (hs.length + 1)).map fun i => (hs.take i).foldl (nextHash xxh3) prev := by
  induction hs generalizing prev with
  | nil => rfl
  | cons h hs ih =>
    rw [List.length_cons, List.range_succ_eq_map, List.map_cons, List.map_map]
    exact congrArg (prev :: ·) (ih (nextHash xxh3 prev h))

/-- The hashes are those of the prefixes, the shortest first. -/
theorem computePrefixHashes_eq (hs : List (BitVec 64)) :
    computePrefixHashes xxh3 hs =
      (List.range hs.length).map fun i => prefixHash xxh3 (hs.take (i + 1)) := by
  cases hs with
  | nil => rfl
  | cons h hs => exact extendHashes_eq _ hs

theorem take_succ_ne_nil {i : Nat} {hs : List (BitVec 64)} (hi : i < hs.length) :
    hs.take (i + 1) ≠ [] := by
  intro hnil
  have hlen := congrArg List.length hnil
  rw [List.length_take, List.length_nil] at hlen
  omega

theorem mem_computePrefixHashes {hash : BitVec 64} {hs : List (BitVec 64)} :
    hash ∈ computePrefixHashes xxh3 hs ↔ ∃ p, p ≠ [] ∧ p <+: hs ∧ prefixHash xxh3 p = hash := by
  rw [computePrefixHashes_eq, List.mem_map]
  constructor
  · rintro ⟨i, hi, rfl⟩
    rw [List.mem_range] at hi
    exact ⟨_, take_succ_ne_nil hi, List.take_prefix (i + 1) hs, rfl⟩
  · rintro ⟨p, hne, hp, rfl⟩
    have hpos := List.length_pos_of_ne_nil hne
    have hlen := hp.length_le
    refine ⟨p.length - 1, List.mem_range.2 (by omega), ?_⟩
    rw [Nat.sub_add_cancel hpos, ← List.prefix_iff_eq_take.1 hp]

/-- No two prefixes of these sequences have one hash. -/
def Injective (xxh3 : Xxh3) (seqs : List (List (BitVec 64))) : Prop :=
  ∀ s ∈ seqs, ∀ s' ∈ seqs, ∀ p p', p ≠ [] → p' ≠ [] → p <+: s → p' <+: s' →
    prefixHash xxh3 p = prefixHash xxh3 p' → p = p'

instance (xxh3 : Xxh3) (seqs : List (List (BitVec 64))) : Decidable (Injective xxh3 seqs) :=
  decidable_of_iff (∀ s ∈ seqs, ∀ s' ∈ seqs, ∀ p ∈ s.inits, ∀ p' ∈ s'.inits, p ≠ [] → p' ≠ [] →
      prefixHash xxh3 p = prefixHash xxh3 p' → p = p') <| by
    unfold Injective
    simp only [List.mem_inits]
    constructor
    · exact fun h s hs s' hs' p p' hne hne' hp hp' => h s hs s' hs' p hp p' hp' hne hne'
    · exact fun h s hs s' hs' p hp p' hp' hne hne' => h s hs s' hs' p p' hne hne' hp hp'

section Injective

variable {seqs : List (List (BitVec 64))} (hinj : Injective xxh3 seqs) {s s' : List (BitVec 64)}

include hinj

theorem Injective.mem_iff (hs : s ∈ seqs) (hs' : s' ∈ seqs) {p : List (BitVec 64)} (hne : p ≠ [])
    (hp : p <+: s) : prefixHash xxh3 p ∈ computePrefixHashes xxh3 s' ↔ p <+: s' := by
  rw [mem_computePrefixHashes]
  constructor
  · rintro ⟨p', hne', hp', heq⟩
    rwa [hinj s hs s' hs' p p' hne hne' hp hp' heq.symm]
  · exact fun hp' => ⟨p, hne, hp', rfl⟩

theorem Injective.nodup (hs : s ∈ seqs) : (computePrefixHashes xxh3 s).Nodup := by
  rw [computePrefixHashes_eq]
  refine List.Nodup.map_on ?_ List.nodup_range
  intro i hi j hj heq
  rw [List.mem_range] at hi hj
  have hsame := congrArg List.length (hinj s hs s hs _ _ (take_succ_ne_nil hi)
    (take_succ_ne_nil hj) (List.take_prefix _ s) (List.take_prefix _ s) heq)
  rw [List.length_take, List.length_take] at hsame
  omega

end Injective

/-! ## All dispatches -/

/-- A call of `record_dispatch`. -/
structure Dispatch where
  now : Nat
  blockHashes : List (BitVec 64)
  backend : BackendId

/-- The calls of `record_dispatch`, one after another. -/
def recordAll (xxh3 : Xxh3) (ds : List Dispatch) (h : PrefixReuseHistory) : PrefixReuseHistory :=
  ds.foldl (fun h d => h.recordDispatch xxh3 d.now d.blockHashes d.backend) h

/-- The dispatches with a prefix. -/
def sharing (p : List (BitVec 64)) (ds : List Dispatch) : List Dispatch :=
  ds.filter fun d => p <+: d.blockHashes

/-- What all dispatches with a prefix say about it. -/
def recordOf (ds : List Dispatch) : Option DispatchRecord :=
  ds.getLast?.map fun d => ⟨d.backend, min ds.length (2 ^ 64 - 1), d.now⟩

/-- The history says of every prefix of the sequences what the dispatches say. -/
def Refines (xxh3 : Xxh3) (seqs : List (List (BitVec 64))) (ds : List Dispatch)
    (h : PrefixReuseHistory) : Prop :=
  ∀ s ∈ seqs, ∀ p, p ≠ [] → p <+: s →
    h.entries.lookup (prefixHash xxh3 p) = recordOf (sharing p ds)

/-- A dispatch does not make the history too long. -/
def Fits (xxh3 : Xxh3) (h : PrefixReuseHistory) (d : Dispatch) : Prop :=
  (h.addPrefixes xxh3 d.now d.blockHashes d.backend).len ≤ h.maxEntries

instance (xxh3 : Xxh3) (h : PrefixReuseHistory) (d : Dispatch) : Decidable (Fits xxh3 h d) :=
  inferInstanceAs (Decidable (_ ≤ _))

/-! ## One dispatch -/

/-- The record of a prefix after one more dispatch. -/
def again (now : Nat) (backend : BackendId) : Option DispatchRecord → DispatchRecord
  | some r => ⟨backend, saturatingAdd r.dispatchCount 1, now⟩
  | none => ⟨backend, 1, now⟩

section Fold

variable {now : Nat} {backend : BackendId} {hash hash' : BitVec 64} {hashes : List (BitVec 64)}
  {entries : AList fun _ : BitVec 64 => DispatchRecord}

theorem recordPrefix_eq :
    recordPrefix now backend entries hash =
      entries.insert hash (again now backend (entries.lookup hash)) := by
  unfold recordPrefix
  cases entries.lookup hash with
  | some r => rfl
  | none => rfl

theorem lookup_recordPrefix_ne (h : hash ≠ hash') :
    (recordPrefix now backend entries hash').lookup hash = entries.lookup hash := by
  rw [recordPrefix_eq]
  exact AList.lookup_insert_ne h

theorem lookup_foldl_of_notMem (h : hash ∉ hashes) :
    (hashes.foldl (recordPrefix now backend) entries).lookup hash = entries.lookup hash := by
  induction hashes generalizing entries with
  | nil => rfl
  | cons hash' hashes ih =>
    rw [List.mem_cons, not_or] at h
    rw [List.foldl_cons, ih h.2, lookup_recordPrefix_ne h.1]

theorem lookup_foldl_of_mem (hnodup : hashes.Nodup) (h : hash ∈ hashes) :
    (hashes.foldl (recordPrefix now backend) entries).lookup hash =
      some (again now backend (entries.lookup hash)) := by
  induction hashes generalizing entries with
  | nil => exact absurd h List.not_mem_nil
  | cons hash' hashes ih =>
    rcases List.nodup_cons.1 hnodup with ⟨hnew, hnodup⟩
    rw [List.foldl_cons]
    by_cases heq : hash = hash'
    · subst heq
      rw [lookup_foldl_of_notMem hnew, recordPrefix_eq, AList.lookup_insert]
    · rw [ih hnodup ((List.mem_cons.1 h).resolve_left heq), lookup_recordPrefix_ne heq]

end Fold

theorem recordOf_append (ds : List Dispatch) (d : Dispatch) :
    recordOf (ds ++ [d]) = some (again d.now d.backend (recordOf ds)) := by
  unfold recordOf
  rw [List.getLast?_concat, Option.map_some, List.length_append, List.length_singleton]
  cases hlast : ds.getLast? with
  | none =>
    rw [List.getLast?_eq_none_iff.1 hlast]
    rfl
  | some d' =>
    unfold again saturatingAdd
    dsimp only [Option.map_some]
    congr 2
    omega

/-- While there is room, nothing is evicted. -/
theorem recordDispatch_of_fits {h : PrefixReuseHistory} {d : Dispatch} (hfits : Fits xxh3 h d) :
    h.recordDispatch xxh3 d.now d.blockHashes d.backend =
      h.addPrefixes xxh3 d.now d.blockHashes d.backend := by
  unfold recordDispatch
  split
  · rename_i hnil
    unfold addPrefixes
    rw [hnil]
    rfl
  · unfold evictIfNeeded
    have hzero : (h.addPrefixes xxh3 d.now d.blockHashes d.backend).entries.entries.length -
        h.maxEntries = 0 := Nat.sub_eq_zero_of_le hfits
    unfold addPrefixes at hzero ⊢
    dsimp only at hzero ⊢
    rw [hzero]
    rfl

variable {seqs : List (List (BitVec 64))} {ds : List Dispatch} {d : Dispatch}
  {h : PrefixReuseHistory}

/-- A dispatch changes the records of its own prefixes only, as it changes the list. -/
theorem Refines.recordDispatch (href : Refines xxh3 seqs ds h) (hinj : Injective xxh3 seqs)
    (hd : d.blockHashes ∈ seqs) (hfits : Fits xxh3 h d) :
    Refines xxh3 seqs (ds ++ [d]) (h.recordDispatch xxh3 d.now d.blockHashes d.backend) := by
  intro s hs p hne hp
  rw [recordDispatch_of_fits hfits]
  unfold addPrefixes sharing
  dsimp only
  rw [List.filter_append, List.filter_singleton]
  by_cases hshare : p <+: d.blockHashes
  · have hmem := (hinj.mem_iff hs hd hne hp).2 hshare
    rw [decide_eq_true hshare, cond_true, recordOf_append, lookup_foldl_of_mem (hinj.nodup hd) hmem,
      href s hs p hne hp]
    rfl
  · have hnot := mt (hinj.mem_iff hs hd hne hp).1 hshare
    rw [decide_eq_false hshare, cond_false, List.append_nil, lookup_foldl_of_notMem hnot]
    exact href s hs p hne hp

/-! ## All of them -/

/-- Every dispatch fits. -/
def NeverExceeded (xxh3 : Xxh3) (ds : List Dispatch) (h : PrefixReuseHistory) : Prop :=
  Run.Each (fun h d => h.recordDispatch xxh3 d.now d.blockHashes d.backend) (Fits xxh3) h ds

instance (xxh3 : Xxh3) (ds : List Dispatch) (h : PrefixReuseHistory) :
    Decidable (NeverExceeded xxh3 ds h) := inferInstanceAs (Decidable (Run.Each _ _ _ _))

theorem Refines.recordAll {later : List Dispatch} (href : Refines xxh3 seqs ds h)
    (hinj : Injective xxh3 seqs) (hseqs : ∀ d ∈ later, d.blockHashes ∈ seqs)
    (hfits : NeverExceeded xxh3 later h) :
    Refines xxh3 seqs (ds ++ later) (recordAll xxh3 later h) := by
  induction later generalizing ds h with
  | nil =>
    rw [List.append_nil]
    exact href
  | cons d later ih =>
    rcases List.forall_mem_cons.1 hseqs with ⟨hd, hlater⟩
    have hnext := ih (href.recordDispatch hinj hd hfits.1) hlater hfits.2
    rwa [List.append_assoc] at hnext

theorem refines_new (xxh3 : Xxh3) (seqs : List (List (BitVec 64))) (maxEntries : Nat) :
    Refines xxh3 seqs [] (new maxEntries) := by
  intro s _ p _ _
  rfl

/-! ## The longest match -/

/-- Counting down from `n`, the first hit. -/
theorem findSome?_countdown {β : Type} (g : Nat → Option β) (n : Nat) :
    match (List.range n).reverse.findSome? g with
    | some b => ∃ k < n, g k = some b ∧ ∀ j < n, k < j → g j = none
    | none => ∀ k < n, g k = none := by
  induction n with
  | zero => exact fun k hk => absurd hk (Nat.not_lt_zero k)
  | succ n ih =>
    rw [List.range_succ, List.reverse_append, List.reverse_singleton, List.singleton_append,
      List.findSome?_cons]
    cases hn : g n with
    | some b =>
      refine ⟨n, Nat.lt_succ_self n, hn, ?_⟩
      intro j hj hnj
      omega
    | none =>
      have hlast : ∀ j, j < n + 1 → ¬j < n → g j = none := by
        intro j hj hnj
        rw [show j = n by omega]
        exact hn
      cases hfind : (List.range n).reverse.findSome? g with
      | some b =>
        rw [hfind] at ih
        obtain ⟨k, hk, hgk, hlater⟩ := ih
        refine ⟨k, Nat.lt_succ_of_lt hk, hgk, ?_⟩
        intro j hj hkj
        by_cases hjn : j < n
        · exact hlater j hjn hkj
        · exact hlast j hj hjn
      | none =>
        rw [hfind] at ih
        intro k hk
        by_cases hkn : k < n
        · exact ih k hkn
        · exact hlast k hk hkn

theorem findLongestMatch_eq (h : PrefixReuseHistory) (q : List (BitVec 64)) :
    h.findLongestMatch xxh3 q =
      (List.range q.length).reverse.findSome? fun i =>
        (h.entries.lookup (prefixHash xxh3 (q.take (i + 1)))).map fun r => (i + 1, r) := by
  have hzip : (computePrefixHashes xxh3 q).zipIdx =
      (List.range q.length).map fun i => (prefixHash xxh3 (q.take (i + 1)), i) := by
    rw [computePrefixHashes_eq]
    apply List.ext_getElem
    · simp
    · intro i hi hi'
      simp
  unfold findLongestMatch
  rw [hzip, ← List.map_reverse, List.findSome?_map]
  rfl

/-- The lengths of the prefixes that some dispatch shares. -/
def sharedLengths (ds : List Dispatch) (q : List (BitVec 64)) : Set Nat :=
  {k | 0 < k ∧ k ≤ q.length ∧ ∃ d ∈ ds, q.take k <+: d.blockHashes}

/-- The longest shared prefix, with the backend of the last dispatch that has it and the number of
these dispatches, as far as it can be counted. -/
structure LongestMatch (ds : List Dispatch) (q : List (BitVec 64)) (k : Nat)
    (record : DispatchRecord) : Prop where
  greatest : IsGreatest (sharedLengths ds q) k
  latest : (sharing (q.take k) ds).getLast?.map (·.backend) = some record.backend
  count : record.dispatchCount = min (sharing (q.take k) ds).length (2 ^ 64 - 1)

theorem recordOf_eq_some {r : DispatchRecord} (hr : recordOf ds = some r) :
    ds ≠ [] ∧ ds.getLast?.map (·.backend) = some r.backend ∧
      r.dispatchCount = min ds.length (2 ^ 64 - 1) := by
  unfold recordOf at hr
  rcases Option.map_eq_some_iff.1 hr with ⟨d, hd, rfl⟩
  refine ⟨?_, ?_, rfl⟩
  · rintro rfl
    exact absurd hd nofun
  · rw [hd]
    rfl

theorem recordOf_eq_none : recordOf ds = none ↔ ds = [] := by
  unfold recordOf
  rw [Option.map_eq_none_iff, List.getLast?_eq_none_iff]

theorem sharing_ne_nil {p : List (BitVec 64)} :
    sharing p ds ≠ [] ↔ ∃ d ∈ ds, p <+: d.blockHashes := by
  unfold sharing
  rw [Ne, List.filter_eq_nil_iff]
  simp

/-- The lookup, by what the dispatches say. -/
theorem Refines.findLongestMatch (href : Refines xxh3 seqs ds h) {q : List (BitVec 64)}
    (hq : q ∈ seqs) :
    match h.findLongestMatch xxh3 q with
    | some (k, record) => LongestMatch ds q k record
    | none => ∀ d ∈ ds, ∀ b, q.head? = some b → d.blockHashes.head? ≠ some b := by
  have hlookup : ∀ i < q.length, h.entries.lookup (prefixHash xxh3 (q.take (i + 1))) =
      recordOf (sharing (q.take (i + 1)) ds) :=
    fun i hi => href q hq _ (take_succ_ne_nil hi) (List.take_prefix _ q)
  have hfind := findSome?_countdown (fun i =>
    (h.entries.lookup (prefixHash xxh3 (q.take (i + 1)))).map fun r => (i + 1, r)) q.length
  rw [← findLongestMatch_eq] at hfind
  -- what is not found is shared by no dispatch
  have hnone : ∀ i < q.length, (h.entries.lookup (prefixHash xxh3 (q.take (i + 1)))).map
      (fun r => (i + 1, r)) = none → ¬∃ d ∈ ds, q.take (i + 1) <+: d.blockHashes := by
    intro i hi hmap
    rw [Option.map_eq_none_iff, hlookup i hi, recordOf_eq_none] at hmap
    rw [← sharing_ne_nil]
    exact not_not.2 hmap
  cases hmatch : h.findLongestMatch xxh3 q with
  | some m =>
    rcases m with ⟨k, record⟩
    rw [hmatch] at hfind
    obtain ⟨i, hi, hsome, hlater⟩ := hfind
    rcases Option.map_eq_some_iff.1 hsome with ⟨r, hr, heq⟩
    rcases Prod.mk.inj heq with ⟨rfl, rfl⟩
    rw [hlookup i hi] at hr
    obtain ⟨hne, hlatest, hcount⟩ := recordOf_eq_some hr
    refine ⟨⟨⟨Nat.succ_pos i, hi, sharing_ne_nil.1 hne⟩, ?_⟩, hlatest, hcount⟩
    rintro j ⟨hpos, hj, hshared⟩
    by_contra hlt
    have hprev : j - 1 + 1 = j := Nat.sub_add_cancel hpos
    have hmiss := hnone (j - 1) (by omega) (hlater (j - 1) (by omega) (by omega))
    rw [hprev] at hmiss
    exact hmiss hshared
  | none =>
    rw [hmatch] at hfind
    intro d hd b hb hb'
    have hlen : 0 < q.length := List.length_pos_of_ne_nil (by
      rintro rfl
      exact absurd hb nofun)
    refine hnone 0 hlen (hfind 0 hlen) ⟨d, hd, ?_⟩
    cases q with
    | nil => exact absurd hb nofun
    | cons b' q =>
      cases hblocks : d.blockHashes with
      | nil =>
        rw [hblocks] at hb'
        exact absurd hb' nofun
      | cons b'' rest =>
        rw [hblocks] at hb'
        rw [Option.some.inj hb, Option.some.inj hb']
        exact List.prefix_append [b] rest

/-- After any dispatches that fit, a lookup finds the longest prefix that one of them shares. -/
theorem findLongestMatch_recordAll (xxh3 : Xxh3) (maxEntries : Nat) (ds : List Dispatch)
    (q : List (BitVec 64)) (hinj : Injective xxh3 (q :: ds.map (·.blockHashes)))
    (hfits : NeverExceeded xxh3 ds (new maxEntries)) :
    match (recordAll xxh3 ds (new maxEntries)).findLongestMatch xxh3 q with
    | some (k, record) => LongestMatch ds q k record
    | none => ∀ d ∈ ds, ∀ b, q.head? = some b → d.blockHashes.head? ≠ some b := by
  have hseqs : ∀ d ∈ ds, d.blockHashes ∈ q :: ds.map (·.blockHashes) :=
    fun d hd => List.mem_cons_of_mem _ (List.mem_map_of_mem hd)
  have href := (refines_new xxh3 _ maxEntries).recordAll hinj hseqs hfits
  exact href.findLongestMatch List.mem_cons_self

/-- A prefix is dispatched to one backend, then a continuation to another. -/
def continued : List Dispatch :=
  [⟨1, [1, 2], ⟨⟨"r1"⟩, ⟨"a"⟩⟩⟩, ⟨2, [1, 2, 3], ⟨⟨"r1"⟩, ⟨"b"⟩⟩⟩]

theorem longestMatch_continued :
    LongestMatch continued [1, 2, 4] 2 ⟨⟨⟨"r1"⟩, ⟨"b"⟩⟩, 2, 2⟩ := by
  have hmatch := findLongestMatch_recordAll Xxh3.upTo16 5 continued [1, 2, 4] (by decide +kernel)
    (by decide +kernel)
  have hfind : (recordAll Xxh3.upTo16 continued (new 5)).findLongestMatch Xxh3.upTo16 [1, 2, 4] =
      some (2, ⟨⟨⟨"r1"⟩, ⟨"b"⟩⟩, 2, 2⟩) := by decide +kernel
  rwa [hfind] at hmatch

/-! ### One block again and again -/

/-- A single block, dispatched to one backend. -/
def oneBlock : Dispatch := ⟨1, [1], ⟨⟨"r1"⟩, ⟨"a"⟩⟩⟩

/-- This dispatch, so many times. -/
def repeated (n : Nat) : List Dispatch := List.replicate n oneBlock

theorem length_repeated (n : Nat) : (repeated n).length = n := List.length_replicate

theorem mem_repeated {n : Nat} {d : Dispatch} : d ∈ repeated n ↔ n ≠ 0 ∧ d = oneBlock :=
  List.mem_replicate

/-- There is an entry for this block at most, and room for it. -/
def OnlyEntry (xxh3 : Xxh3) (h : PrefixReuseHistory) : Prop :=
  h.maxEntries = 1 ∧ ∀ hash ∈ h.entries, hash = prefixHash xxh3 [1]

theorem onlyEntry_new (xxh3 : Xxh3) : OnlyEntry xxh3 (new 1) :=
  ⟨rfl, fun hash hmem => absurd hmem (AList.notMem_empty hash)⟩

theorem OnlyEntry.len_le {h : PrefixReuseHistory} (honly : OnlyEntry xxh3 h) : h.len ≤ 1 := by
  have hkeys : h.entries.keys = List.replicate h.entries.keys.length (prefixHash xxh3 [1]) :=
    List.eq_replicate_iff.2 ⟨rfl, fun hash hmem => honly.2 hash (AList.mem_keys.2 hmem)⟩
  have hnodup := h.entries.keys_nodup
  rw [hkeys, List.nodup_replicate] at hnodup
  unfold AList.keys List.keys at hnodup
  rwa [List.length_map] at hnodup

theorem OnlyEntry.addPrefixes {h : PrefixReuseHistory} (honly : OnlyEntry xxh3 h) :
    OnlyEntry xxh3
      (h.addPrefixes xxh3 oneBlock.now oneBlock.blockHashes oneBlock.backend) := by
  refine ⟨honly.1, ?_⟩
  intro hash hmem
  have hentries : (h.addPrefixes xxh3 oneBlock.now oneBlock.blockHashes oneBlock.backend).entries =
      recordPrefix oneBlock.now oneBlock.backend h.entries (prefixHash xxh3 [1]) := rfl
  rw [hentries, recordPrefix_eq, AList.mem_insert] at hmem
  rcases hmem with heq | hmem
  · exact heq
  · exact honly.2 hash hmem

theorem neverExceeded_repeated {h : PrefixReuseHistory} (honly : OnlyEntry xxh3 h) (n : Nat) :
    NeverExceeded xxh3 (repeated n) h := by
  induction n generalizing h with
  | zero => trivial
  | succ n ih =>
    have hfits : Fits xxh3 h oneBlock := honly.addPrefixes.len_le.trans honly.1.ge
    have hnext := ih honly.addPrefixes
    rw [← recordDispatch_of_fits hfits] at hnext
    exact ⟨hfits, hnext⟩

theorem injective_repeated (n : Nat) :
    Injective xxh3 ([1] :: (repeated n).map (·.blockHashes)) := by
  have honly : ∀ s ∈ [1] :: (repeated n).map (·.blockHashes), s = [1] := by
    intro s hs
    rcases List.mem_cons.1 hs with hs | hs
    · exact hs
    · obtain ⟨d, hd, rfl⟩ := List.mem_map.1 hs
      rw [(mem_repeated.1 hd).2]
      rfl
  have hone : ∀ p : List (BitVec 64), p ≠ [] → p <+: [1] → p = [1] := by
    intro p hne hp
    apply hp.eq_of_length_le
    exact List.length_pos_of_ne_nil hne
  intro s hs s' hs' p p' hne hne' hp hp' _
  rw [honly s hs] at hp
  rw [honly s' hs'] at hp'
  rw [hone p hne hp, hone p' hne' hp']

/-- The count of `n` dispatches. -/
theorem count_repeated (xxh3 : Xxh3) {n : Nat} (hn : 0 < n) :
    ∃ k record, (recordAll xxh3 (repeated n) (new 1)).findLongestMatch xxh3 [1] =
        some (k, record) ∧ record.dispatchCount = min n (2 ^ 64 - 1) ∧
      (sharing (List.take k [1]) (repeated n)).length = n := by
  have hseqs : ∀ d ∈ repeated n,
      d.blockHashes ∈ [1] :: (repeated n).map (·.blockHashes) :=
    fun d hd => List.mem_cons_of_mem _ (List.mem_map_of_mem hd)
  have href := (refines_new xxh3 _ 1).recordAll (injective_repeated n) hseqs
    (neverExceeded_repeated (onlyEntry_new xxh3) n)
  have hmatch := href.findLongestMatch List.mem_cons_self
  cases hfind : (recordAll xxh3 (repeated n) (new 1)).findLongestMatch xxh3 [1] with
  | none =>
    rw [hfind] at hmatch
    exact absurd rfl (hmatch oneBlock (mem_repeated.2 ⟨hn.ne', rfl⟩) 1 rfl)
  | some m =>
    rw [hfind] at hmatch
    have hall : sharing (List.take m.1 [1]) (repeated n) = repeated n := by
      apply List.filter_eq_self.2
      intro d hd
      rw [(mem_repeated.1 hd).2]
      exact decide_eq_true (List.take_prefix m.1 [1])
    refine ⟨m.1, m.2, rfl, ?_, ?_⟩
    · have hcount := hmatch.count
      rwa [List.nil_append, hall, length_repeated] at hcount
    · rw [hall, length_repeated]

/-- The counter stays at its greatest value. -/
theorem uncounted_dispatch :
    NeverExceeded Xxh3.upTo16 (repeated (2 ^ 64)) (new 1) ∧
      Injective Xxh3.upTo16 ([1] :: (repeated (2 ^ 64)).map (·.blockHashes)) ∧
      ∃ k record, (recordAll Xxh3.upTo16 (repeated (2 ^ 64)) (new 1)).findLongestMatch
          Xxh3.upTo16 [1] = some (k, record) ∧
        record.dispatchCount ≠
          (sharing (List.take k [1]) (repeated (2 ^ 64))).length := by
  refine ⟨neverExceeded_repeated (onlyEntry_new _) _, injective_repeated _, ?_⟩
  obtain ⟨k, record, hfind, hcount, hlen⟩ := count_repeated Xxh3.upTo16 (n := 2 ^ 64)
    (by norm_num)
  refine ⟨k, record, hfind, ?_⟩
  rw [hcount, hlen]
  norm_num

end PrefixReuseHistory

end HierKvGateway
