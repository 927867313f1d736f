import HierKvGateway.Api.Coalescer
import Mathlib.Data.Finset.Card
import Mathlib.Data.List.Nodup

/-!
# Api.SingleFlight — one producer for each key

All interleavings of the steps of `coalesce` with the removals that are due, when no call is
dropped: time may pass between any two steps (`interleavings`). `SingleFlight` is what holds in
every state:

* the entry of a key is the one its leader made, until this leader's own cleanup;
* so no two producers run for a key, and a removal finds the entry of the leader it is of;
* an answer is what the producer of the leader produced whose entry the call attached to;
* the statistics count the calls past the entry, by the role they got there.

That the entries are their leaders' holds as well if calls are dropped (`owned_droppable`).
-/

namespace HierKvGateway

/-- The role that a call gets at the entry. -/
inductive CallRole where
  | leader
  | waiter
  | bypassing
deriving DecidableEq, Repr

namespace CallPhase

variable {ι : Type}

/-- The role of a call, once it is past the entry. -/
def role [DecidableEq ι] (c : ι) : CallPhase ι → Option CallRole
  | .attached leader _ => some (if leader = c then .leader else .waiter)
  | .answered leader _ _ => some (if leader = c then .leader else .waiter)
  | .bypassing => some .bypassing
  | .bypassed _ => some .bypassing
  | _ => none

end CallPhase

/-- The counter of a role. -/
def CoalesceStats.count (stats : CoalesceStats) : CallRole → Nat
  | .leader => stats.leaders
  | .waiter => stats.waiters
  | .bypassing => stats.bypassed

namespace CoalescerState

variable {ι : Type}

/-- The call leads, and its producer is running. -/
def Running (s : CoalescerState ι) (c : ι) : Prop :=
  (∃ since, s.phase c = .attached c since) ∧ s.completed c = none

/-- A shared future is waited for, by its leader or by others, and its producer has not
completed. -/
def Driven (s : CoalescerState ι) (leader : ι) : Prop :=
  (∃ c since, s.phase c = .attached leader since) ∧ s.completed leader = none

/-- Time may pass whenever it likes. -/
def timelessGuard : Label ι → CoalescerState ι → Prop
  | .tick, _ => True
  | l, s => guard l s

/-- No call is dropped, and time may pass whenever it likes. -/
def freeGuard : Label ι → CoalescerState ι → Prop
  | .tick, _ => True
  | .drop _, _ => False
  | l, s => guard l s

theorem timelessGuard_of_free {l : Label ι} {s : CoalescerState ι} (h : freeGuard l s) :
    timelessGuard l s := by
  cases l with
  | drop c => exact h.elim
  | _ => exact h

variable [DecidableEq ι] (cfg : CoalescingConfig) (key : ι → BitVec 64)

/-- All interleavings of the calls, which may be dropped, and the timers. -/
def droppable : Lts (CoalescerState ι) (Label ι) where
  init := Initial
  guard := timelessGuard
  update := update cfg key

instance [Fintype ι] (s : CoalescerState ι) :
    ∀ l : Label ι, Decidable ((droppable cfg key).guard l s)
  | .tick => .isTrue trivial
  | .drop c => inferInstanceAs (Decidable (guard (.drop c) s))
  | .call c => inferInstanceAs (Decidable (guard (.call c) s))
  | .attach c => inferInstanceAs (Decidable (guard (.attach c) s))
  | .complete c result => inferInstanceAs (Decidable (guard (.complete c result) s))
  | .resume c => inferInstanceAs (Decidable (guard (.resume c) s))
  | .bypass c result => inferInstanceAs (Decidable (guard (.bypass c result) s))
  | .remove r => inferInstanceAs (Decidable (guard (.remove r) s))

/-- All interleavings of the calls and the timers, from a new coalescer; no call is dropped. -/
def interleavings : Lts (CoalescerState ι) (Label ι) where
  init s := Initial s ∧ s.stats = ⟨0, 0, 0, 0⟩
  guard := freeGuard
  update := update cfg key

instance [Fintype ι] (s : CoalescerState ι) :
    ∀ l : Label ι, Decidable ((interleavings cfg key).guard l s)
  | .tick => .isTrue trivial
  | .drop _ => .isFalse id
  | .call c => inferInstanceAs (Decidable (guard (.call c) s))
  | .attach c => inferInstanceAs (Decidable (guard (.attach c) s))
  | .complete c result => inferInstanceAs (Decidable (guard (.complete c result) s))
  | .resume c => inferInstanceAs (Decidable (guard (.resume c) s))
  | .bypass c result => inferInstanceAs (Decidable (guard (.bypass c result) s))
  | .remove r => inferInstanceAs (Decidable (guard (.remove r) s))

/-- Every entry is its leader's, until this leader's own cleanup. A leader that is dropped leaves
its entry. -/
structure Owned (s : CoalescerState ι) : Prop where
  entry : ∀ k leader, s.inflight.lookup k = some leader →
    key leader = k ∧ (s.phase leader).Entered
  leading : ∀ c since, s.phase c = .attached c since → s.inflight.lookup (key c) = some c
  attached : ∀ c leader since, s.phase c = .attached leader since →
    key leader = key c ∧ (s.phase leader).Entered
  running : ∀ c leader since, s.phase c = .attached leader since → s.completed leader = none →
    s.inflight.lookup (key leader) = some leader
  completed : ∀ leader t result, s.completed leader = some (t, result) →
    (s.phase leader).Entered
  answered : ∀ c leader since result, s.phase c = .answered leader since result →
    key leader = key c ∧ ∃ t, s.completed leader = some (t, result)
  /-- A leader that has scheduled a removal has returned. -/
  removal : ∀ r ∈ s.removals, s.inflight.lookup r.key = some r.leader ∧
    s.completed r.leader ≠ none ∧ ∀ since, s.phase r.leader ≠ .attached r.leader since
  nodup : (s.removals.map Removal.key).Nodup

/-- The statistics count the calls of each role. -/
structure Counted (s : CoalescerState ι) : Prop where
  role : ∀ role, ∃ calls : Finset ι,
    (∀ c, c ∈ calls ↔ (s.phase c).role c = some role) ∧ calls.card = s.stats.count role
  saved : s.stats.forwardsSaved = s.stats.waiters

variable {cfg key} {s : CoalescerState ι} {c : ι}

/-! ## The entries -/

/-- A call that does not wait leaves the entries to their leaders. -/
theorem owned_apart (h : Owned key s) {p : CallPhase ι} (hp : p.Apart)
    (hentered : (s.phase c).Entered → p.Entered) :
    Owned key { s with phase := Function.update s.phase c p } where
  entry k leader hk := ⟨(h.entry k leader hk).1, entered_update hentered (h.entry k leader hk).2⟩
  leading c' since hc' := h.leading c' since (attached_of_update hp hc')
  attached c' leader since hc' := by
    obtain ⟨hkey, hleader⟩ := h.attached c' leader since (attached_of_update hp hc')
    exact ⟨hkey, entered_update hentered hleader⟩
  running c' leader since hc' := h.running c' leader since (attached_of_update hp hc')
  completed leader t result hdone := entered_update hentered (h.completed leader t result hdone)
  answered c' leader since result hc' := by
    refine h.answered c' leader since result (answered_of_update ?_ hc')
    rintro leader since result rfl
    exact hp
  removal r hr := by
    obtain ⟨hentry, hdone, hgone⟩ := h.removal r hr
    refine ⟨hentry, hdone, ?_⟩
    intro since hl
    exact hgone since (attached_of_update hp hl)
  nodup := h.nodup

omit [DecidableEq ι] in
theorem apart_of_admitted (hc : s.phase c = .admitted) : (s.phase c).Apart := by
  rw [hc]
  exact True.intro

/-- A call finds an entry and waits for its leader. -/
theorem owned_wait (h : Owned key s) (hc : s.phase c = .admitted) {leader : ι}
    (hentry : s.inflight.lookup (key c) = some leader) :
    Owned key { s with phase := Function.update s.phase c (.attached leader s.now) } := by
  obtain ⟨hkey, hleader⟩ := h.entry _ leader hentry
  have hnot := not_entered_of_admitted hc
  have hne : leader ≠ c := by
    rintro rfl
    exact hnot hleader
  have hkeep {c' : ι} (hc' : (s.phase c').Entered) :
      (Function.update s.phase c (.attached leader s.now) c').Entered :=
    entered_update (fun _ => True.intro) hc'
  constructor
  case entry =>
    intro k leader' hk
    exact ⟨(h.entry k leader' hk).1, hkeep (h.entry k leader' hk).2⟩
  case leading =>
    intro c' since hc'
    rcases Function.update_cases hc' with ⟨rfl, heq⟩ | ⟨-, hc'⟩
    · exact absurd (CallPhase.attached.inj heq).1 hne
    · exact h.leading c' since hc'
  case attached =>
    intro c' leader' since hc'
    rcases Function.update_cases hc' with ⟨rfl, heq⟩ | ⟨-, hc'⟩
    · cases heq
      exact ⟨hkey, hkeep hleader⟩
    · exact ⟨(h.attached c' leader' since hc').1, hkeep (h.attached c' leader' since hc').2⟩
  case running =>
    intro c' leader' since hc' hnone
    rcases Function.update_cases hc' with ⟨-, heq⟩ | ⟨-, hc'⟩
    · cases heq
      rw [hkey]
      exact hentry
    · exact h.running c' leader' since hc' hnone
  case completed =>
    intro leader' t result hdone
    exact hkeep (h.completed leader' t result hdone)
  case answered =>
    intro c' leader' since result hc'
    refine h.answered c' leader' since result (answered_of_update ?_ hc')
    exact nofun
  case removal =>
    intro r hr
    obtain ⟨hentry', hdone, hgone⟩ := h.removal r hr
    refine ⟨hentry', hdone, ?_⟩
    intro since hl
    rcases Function.update_cases hl with ⟨heq, hl⟩ | ⟨-, hl⟩
    · exact hne ((CallPhase.attached.inj hl).1.trans heq)
    · exact hgone since hl
  case nodup => exact h.nodup

/-- A call finds no entry and leads. -/
theorem owned_lead (h : Owned key s) (hc : s.phase c = .admitted)
    (hentry : s.inflight.lookup (key c) = none) :
    Owned key { s with
      inflight := s.inflight.insert (key c) c
      phase := Function.update s.phase c (.attached c s.now) } := by
  have hnot := not_entered_of_admitted hc
  have hkeep {c' : ι} (hc' : (s.phase c').Entered) :
      (Function.update s.phase c (.attached c s.now) c').Entered :=
    entered_update (fun _ => True.intro) hc'
  have hself : (Function.update s.phase c (.attached c s.now) c).Entered :=
    entered_update_self True.intro
  -- the key was not there, so no other entry is overwritten
  have hother {k : BitVec 64} {leader : ι} (hk : s.inflight.lookup k = some leader) :
      (s.inflight.insert (key c) c).lookup k = some leader := by
    have hne : k ≠ key c := by
      rintro rfl
      exact Option.some_ne_none _ (hk.symm.trans hentry)
    rw [AList.lookup_insert_ne hne]
    exact hk
  constructor
  case entry =>
    intro k leader hk
    rcases AList.lookup_of_insert hk with ⟨rfl, rfl⟩ | ⟨-, hk⟩
    · exact ⟨rfl, hself⟩
    · exact ⟨(h.entry k leader hk).1, hkeep (h.entry k leader hk).2⟩
  case leading =>
    intro c' since hc'
    rcases Function.update_cases hc' with ⟨rfl, -⟩ | ⟨-, hc'⟩
    · exact AList.lookup_insert _
    · exact hother (h.leading c' since hc')
  case attached =>
    intro c' leader since hc'
    rcases Function.update_cases hc' with ⟨rfl, heq⟩ | ⟨-, hc'⟩
    · cases heq
      exact ⟨rfl, hself⟩
    · exact ⟨(h.attached c' leader since hc').1, hkeep (h.attached c' leader since hc').2⟩
  case running =>
    intro c' leader since hc' hnone
    rcases Function.update_cases hc' with ⟨-, heq⟩ | ⟨-, hc'⟩
    · cases heq
      exact AList.lookup_insert _
    · exact hother (h.running c' leader since hc' hnone)
  case completed =>
    intro leader t result hdone
    exact hkeep (h.completed leader t result hdone)
  case answered =>
    intro c' leader since result hc'
    refine h.answered c' leader since result (answered_of_update ?_ hc')
    exact nofun
  case removal =>
    intro r hr
    obtain ⟨hr', hdone, hgone⟩ := h.removal r hr
    refine ⟨hother hr', hdone, ?_⟩
    intro since hl
    rcases Function.update_cases hl with ⟨heq, -⟩ | ⟨-, hl⟩
    · -- the entry of a removal belongs to a leader, which this call was not
      exact hnot (heq ▸ (h.entry _ _ hr').2)
    · exact hgone since hl
  case nodup => exact h.nodup

/-- The producer of a leader completes. -/
theorem owned_complete (h : Owned key s) {leader : ι} {since : Nat} {result : Produced}
    (hc : s.phase c = .attached leader since) (hrunning : s.completed leader = none) :
    Owned key
      { s with completed := Function.update s.completed leader (some (s.now, result)) } :=
  { h with
    running := by
      intro c' leader' since' hc' hnone
      rcases Function.update_cases hnone with ⟨-, heq⟩ | ⟨-, hnone⟩
      · exact absurd heq (Option.some_ne_none _)
      · exact h.running c' leader' since' hc' hnone
    completed := by
      intro leader' t result' hdone
      rcases Function.update_cases hdone with ⟨rfl, -⟩ | ⟨-, hdone⟩
      · exact (h.attached c leader' since hc).2
      · exact h.completed leader' t result' hdone
    removal := by
      intro r hr
      obtain ⟨hentry, hdone, hgone⟩ := h.removal r hr
      refine ⟨hentry, ?_, hgone⟩
      intro hnone
      rcases Function.update_cases hnone with ⟨-, heq⟩ | ⟨-, hnone⟩
      · exact absurd heq (Option.some_ne_none _)
      · exact hdone hnone
    answered := by
      intro c' leader' since' result' hc'
      obtain ⟨hkey, t, hdone⟩ := h.answered c' leader' since' result' hc'
      have hne : leader' ≠ leader := by
        rintro rfl
        exact Option.some_ne_none _ (hdone.symm.trans hrunning)
      exact ⟨hkey, t, (Function.update_of_ne hne _ _).trans hdone⟩ }

/-- A call returns with its answer. -/
theorem owned_answered (h : Owned key s) {leader : ι} {since t : Nat} {result : Produced}
    (hc : s.phase c = .attached leader since) (hdone : s.completed leader = some (t, result)) :
    Owned key { s with phase := Function.update s.phase c (.answered leader since result) } := by
  have hkeep {c' : ι} (hc' : (s.phase c').Entered) :
      (Function.update s.phase c (.answered leader since result) c').Entered :=
    entered_update (fun _ => True.intro) hc'
  -- the call that returns waits no longer; the others wait as before
  have hback {c' leader' : ι} {since' : Nat}
      (hc' : Function.update s.phase c (.answered leader since result) c' =
        .attached leader' since') : s.phase c' = .attached leader' since' := by
    rcases Function.update_cases hc' with ⟨-, heq⟩ | ⟨-, hc'⟩
    · exact nomatch heq
    · exact hc'
  constructor
  case entry =>
    intro k leader' hk
    exact ⟨(h.entry k leader' hk).1, hkeep (h.entry k leader' hk).2⟩
  case leading =>
    intro c' since' hc'
    exact h.leading c' since' (hback hc')
  case attached =>
    intro c' leader' since' hc'
    exact ⟨(h.attached c' leader' since' (hback hc')).1,
      hkeep (h.attached c' leader' since' (hback hc')).2⟩
  case running =>
    intro c' leader' since' hc'
    exact h.running c' leader' since' (hback hc')
  case completed =>
    intro leader' t' result' hdone'
    exact hkeep (h.completed leader' t' result' hdone')
  case answered =>
    intro c' leader' since' result' hc'
    rcases Function.update_cases hc' with ⟨rfl, heq⟩ | ⟨-, hc'⟩
    · cases heq
      exact ⟨(h.attached _ leader since hc).1, t, hdone⟩
    · exact h.answered c' leader' since' result' hc'
  case removal =>
    intro r hr
    obtain ⟨hentry, hdone', hgone⟩ := h.removal r hr
    refine ⟨hentry, hdone', ?_⟩
    intro since' hl
    exact hgone since' (hback hl)
  case nodup => exact h.nodup

omit [DecidableEq ι] in
/-- A leader that has returned removes its entry. -/
theorem owned_erase (h : Owned key s) {k : BitVec 64} (hno : ∀ r ∈ s.removals, r.key ≠ k)
    (hgone : ∀ c since, s.phase c = .attached c since → key c ≠ k)
    (hdone : ∀ leader, s.inflight.lookup k = some leader → s.completed leader ≠ none) :
    Owned key { s with inflight := s.inflight.erase k } :=
  { h with
    entry := by
      intro k' leader hk
      exact h.entry k' leader (AList.lookup_of_erase hk).2
    leading := by
      intro c since hc
      rw [AList.lookup_erase_ne (hgone c since hc)]
      exact h.leading c since hc
    running := by
      intro c leader since hc hnone
      have hentry := h.running c leader since hc hnone
      have hne : key leader ≠ k := by
        rintro rfl
        exact hdone leader hentry hnone
      rw [AList.lookup_erase_ne hne]
      exact hentry
    removal := by
      intro r hr
      rw [AList.lookup_erase_ne (hno r hr)]
      exact h.removal r hr }

omit [DecidableEq ι] in
/-- What a leader that returns finds: its entry, and no removal for its key. -/
theorem Owned.no_removal (h : Owned key s) {since : Nat} (hc : s.phase c = .attached c since) :
    ∀ r ∈ s.removals, r.key ≠ key c := by
  intro r hr hkey
  obtain ⟨hentry, -, hgone⟩ := h.removal r hr
  rw [hkey, h.leading c since hc] at hentry
  rcases Option.some.inj hentry with rfl
  exact hgone since hc

theorem owned_finish (h : Owned key s) {leader : ι} {since t : Nat} {result : Produced}
    (hc : s.phase c = .attached leader since) (hdone : s.completed leader = some (t, result)) :
    Owned key (s.finish cfg key c leader since result) := by
  have hans := owned_answered h hc hdone
  unfold finish
  dsimp only
  split
  · rename_i hlead
    subst hlead
    have hno := h.no_removal hc
    have hself (since' : Nat) :
        Function.update s.phase c (.answered c since result) c ≠ .attached c since' := by
      rw [Function.update_self]
      exact nofun
    unfold scheduleCleanup
    split
    · refine owned_erase hans hno ?_ ?_
      · intro c' since' hc' hkey
        -- only `c` was attached to itself for this key
        have hc' : Function.update s.phase c (.answered c since result) c' =
            .attached c' since' := hc'
        have hentry : s.inflight.lookup (key c') = some c' := by
          rcases Function.update_cases hc' with ⟨-, heq⟩ | ⟨-, hc'⟩
          · exact nomatch heq
          · exact h.leading c' since' hc'
        rw [hkey, h.leading c since hc] at hentry
        rcases Option.some.inj hentry with rfl
        exact hself since' hc'
      · intro leader hleader
        rcases Option.some.inj ((h.leading c since hc).symm.trans hleader) with rfl
        exact fun hnone => Option.some_ne_none _ (hdone.symm.trans hnone)
    · constructor
      case entry => exact hans.entry
      case leading => exact hans.leading
      case attached => exact hans.attached
      case running => exact hans.running
      case completed => exact hans.completed
      case answered => exact hans.answered
      case removal =>
        intro r hr
        rcases List.mem_cons.1 hr with rfl | hr
        · exact ⟨h.leading c since hc, fun hnone => Option.some_ne_none _ (hdone.symm.trans hnone),
            hself⟩
        · exact hans.removal r hr
      case nodup =>
        rw [List.map_cons, List.nodup_cons]
        refine ⟨?_, h.nodup⟩
        intro hmem
        obtain ⟨r, hr, hkey⟩ := List.mem_map.1 hmem
        exact hno r hr hkey
  · exact hans

/-- A removal takes the entry of its leader with it. -/
theorem owned_remove (h : Owned key s) {r : Removal ι} (hr : r ∈ s.removals) :
    Owned key
      { s with inflight := s.inflight.erase r.key, removals := s.removals.erase r } := by
  obtain ⟨hentry, hdone, hgone⟩ := h.removal r hr
  have hrest : Owned key { s with removals := s.removals.erase r } :=
    { h with
      removal := fun r' hr' => h.removal r' (List.mem_of_mem_erase hr')
      nodup := h.nodup.sublist (List.Sublist.map _ List.erase_sublist) }
  refine owned_erase hrest ?_ ?_ ?_
  · intro r' hr' hkey
    -- the keys of the removals are distinct
    have hmem := List.mem_of_mem_erase hr'
    have heq : r' = r := List.inj_on_of_nodup_map h.nodup hmem hr hkey
    subst heq
    exact (List.Nodup.not_mem_erase h.nodup.of_map) hr'
  · intro c since hc hkey
    have hc' := h.leading c since hc
    rw [hkey, hentry] at hc'
    rcases Option.some.inj hc' with rfl
    exact hgone since hc
  · intro leader hleader
    rcases Option.some.inj (hentry.symm.trans hleader) with rfl
    exact hdone

theorem owned_step (h : Owned key s) {l : Label ι} (hg : timelessGuard l s) :
    Owned key (update cfg key l s) := by
  cases l with
  | tick => exact { h with }
  | drop c => exact owned_apart h True.intro fun _ => True.intro
  | call c =>
    -- admitted or past the capacity: either way it has no leader yet
    have hc : s.phase c = .absent := hg
    show Owned key (s.capacityGuard cfg c)
    unfold capacityGuard
    split
    · have hnew := owned_apart h (c := c) (p := .bypassing) True.intro fun _ => True.intro
      exact { hnew with }
    · refine owned_apart h True.intro ?_
      rw [hc]
      exact id
  | attach c =>
    have hc : s.phase c = .admitted := hg
    show Owned key (s.attach key c)
    unfold attach
    -- one look at the map decides between leading and waiting
    rcases hentry : s.inflight.lookup (key c) with _ | leader
    · have hnew := owned_lead h hc hentry
      exact { hnew with }
    · have hnew := owned_wait h hc hentry
      exact { hnew with }
  | complete c result =>
    obtain ⟨leader, since, hc, hrunning⟩ := waiting_iff.1 hg
    simp only [update, hc]
    exact owned_complete h hc hrunning
  | resume c =>
    obtain ⟨leader, since, t, result, hc, hdone⟩ := woken_iff.1 hg
    simp only [update, hc, hdone]
    exact owned_finish h hc hdone
  | bypass c result => exact owned_apart h True.intro fun _ => True.intro
  | remove r => exact owned_remove h hg.1

/-! ## The statistics -/

/-- A call that keeps its role leaves the counts as they are. -/
theorem counted_same (h : Counted s) {p : CallPhase ι} (hp : p.role c = (s.phase c).role c)
    {s' : CoalescerState ι} (hphase : s'.phase = Function.update s.phase c p)
    (hstats : s'.stats = s.stats) : Counted s' where
  role role := by
    obtain ⟨calls, hcalls, hcard⟩ := h.role role
    refine ⟨calls, ?_, ?_⟩
    · intro c'
      rw [hcalls, hphase]
      by_cases hc : c' = c
      · subst hc
        rw [Function.update_self, hp]
      · rw [Function.update_of_ne hc]
    · rw [hcard, hstats]
  saved := by
    rw [hstats]
    exact h.saved

/-- A call that gets a role is counted. -/
theorem counted_enter (h : Counted s) {p : CallPhase ι} (role : CallRole)
    (hnone : (s.phase c).role c = none) (hp : p.role c = some role)
    {s' : CoalescerState ι} (hphase : s'.phase = Function.update s.phase c p)
    (hself : s'.stats.count role = s.stats.count role + 1)
    (hother : ∀ role', role' ≠ role → s'.stats.count role' = s.stats.count role')
    (hsaved : s'.stats.forwardsSaved = s'.stats.waiters) : Counted s' where
  role role' := by
    obtain ⟨calls, hcalls, hcard⟩ := h.role role'
    have hc : c ∉ calls := by
      rw [hcalls, hnone]
      exact nofun
    by_cases hrole : role' = role
    · subst hrole
      refine ⟨insert c calls, ?_, ?_⟩
      · intro c'
        rw [Finset.mem_insert, hcalls, hphase]
        by_cases hc' : c' = c
        · subst hc'
          rw [Function.update_self]
          exact ⟨fun _ => hp, fun _ => Or.inl rfl⟩
        · rw [Function.update_of_ne hc']
          exact ⟨fun hmem => hmem.resolve_left hc', Or.inr⟩
      · rw [Finset.card_insert_of_notMem hc, hcard, hself]
    · refine ⟨calls, ?_, ?_⟩
      · intro c'
        rw [hcalls, hphase]
        by_cases hc' : c' = c
        · subst hc'
          rw [Function.update_self, hp, hnone]
          constructor
          · exact nofun
          · intro heq
            exact absurd (Option.some.inj heq).symm hrole
        · rw [Function.update_of_ne hc']
      · rw [hcard, hother role' hrole]
  saved := hsaved

theorem counted_finish (h : Counted s) {leader : ι} {since : Nat} {result : Produced}
    (hc : s.phase c = .attached leader since) :
    Counted (s.finish cfg key c leader since result) := by
  have hrole : (CallPhase.answered leader since result).role c = (s.phase c).role c := by
    rw [hc]
    rfl
  unfold finish
  dsimp only
  split
  · unfold scheduleCleanup
    split
    · exact counted_same h hrole rfl rfl
    · exact counted_same h hrole rfl rfl
  · exact counted_same h hrole rfl rfl

theorem counted_attach (ho : Owned key s) (h : Counted s) (hc : s.phase c = .admitted) :
    Counted (s.attach key c) := by
  have hnone : (s.phase c).role c = none := by
    rw [hc]
    rfl
  unfold attach
  rcases hentry : s.inflight.lookup (key c) with _ | leader
  · refine counted_enter h .leader hnone ?_ rfl rfl ?_ h.saved
    · show some (if c = c then CallRole.leader else CallRole.waiter) = some .leader
      rw [if_pos rfl]
    · intro role' hne
      cases role' with
      | leader => exact absurd rfl hne
      | waiter => rfl
      | bypassing => rfl
  · have hne : leader ≠ c := by
      rintro rfl
      exact not_entered_of_admitted hc (ho.entry _ leader hentry).2
    refine counted_enter h .waiter hnone ?_ rfl rfl ?_ ?_
    · show some (if leader = c then CallRole.leader else CallRole.waiter) = some .waiter
      rw [if_neg hne]
    · intro role' hne
      cases role' with
      | leader => rfl
      | waiter => exact absurd rfl hne
      | bypassing => rfl
    · show s.stats.forwardsSaved + 1 = s.stats.waiters + 1
      rw [h.saved]

theorem counted_call (h : Counted s) (hc : s.phase c = .absent) :
    Counted (s.capacityGuard cfg c) := by
  have hnone : (s.phase c).role c = none := by
    rw [hc]
    rfl
  unfold capacityGuard
  split
  · refine counted_enter h .bypassing hnone rfl rfl rfl ?_ h.saved
    intro role' hne
    cases role' with
    | leader => rfl
    | waiter => rfl
    | bypassing => exact absurd rfl hne
  · exact counted_same h (c := c) (p := .admitted) hnone.symm rfl rfl

theorem counted_step (ho : Owned key s) (h : Counted s) {l : Label ι} (hg : freeGuard l s) :
    Counted (update cfg key l s) := by
  cases l with
  | tick => exact { h with }
  | drop c => exact hg.elim
  | call c => exact counted_call h hg
  | attach c => exact counted_attach ho h hg
  | complete c result =>
    obtain ⟨leader, since, hc, -⟩ := waiting_iff.1 hg
    simp only [update, hc]
    exact { h with }
  | resume c =>
    obtain ⟨leader, since, t, result, hc, hdone⟩ := woken_iff.1 hg
    simp only [update, hc, hdone]
    exact counted_finish h hc
  | bypass c result =>
    have hc : s.phase c = .bypassing := hg
    refine counted_same h (p := .bypassed result) ?_ rfl rfl
    rw [hc]
    rfl
  | remove r => exact { h with }

/-! ## All interleavings -/

omit [DecidableEq ι] in
theorem owned_initial (h : Initial s) : Owned key s where
  entry k leader hk := by
    rw [h.inflight, AList.lookup_empty] at hk
    exact absurd hk.symm (Option.some_ne_none leader)
  leading c since hc := absurd ((h.phase c).symm.trans hc) nofun
  attached c leader since hc := absurd ((h.phase c).symm.trans hc) nofun
  running c leader since hc := absurd ((h.phase c).symm.trans hc) nofun
  completed leader t result hdone :=
    absurd ((h.completed leader).symm.trans hdone).symm (Option.some_ne_none _)
  answered c leader since result hc := absurd ((h.phase c).symm.trans hc) nofun
  removal r hr := by
    rw [h.removals] at hr
    exact absurd hr List.not_mem_nil
  nodup := by
    rw [h.removals]
    exact List.nodup_nil

theorem counted_initial (h : Initial s) (hstats : s.stats = ⟨0, 0, 0, 0⟩) : Counted s where
  role role := by
    refine ⟨∅, ?_, ?_⟩
    · intro c
      rw [h.phase c]
      exact ⟨fun hmem => absurd hmem (Finset.notMem_empty c), nofun⟩
    · rw [hstats]
      cases role with
      | leader => rfl
      | waiter => rfl
      | bypassing => rfl
  saved := by rw [hstats]

theorem owned_counted (hs : (interleavings cfg key).Reachable s) : Owned key s ∧ Counted s := by
  refine Lts.invariant (S := interleavings cfg key) (P := fun s => Owned key s ∧ Counted s) ?_ ?_ s
    hs
  · intro s hinit
    exact ⟨owned_initial hinit.1, counted_initial hinit.1 hinit.2⟩
  · intro s l h hg
    exact ⟨owned_step h.1 (timelessGuard_of_free hg), counted_step h.1 h.2 hg⟩

/-- The entries are their leaders' also if calls are dropped. -/
theorem owned_droppable (hs : (droppable cfg key).Reachable s) : Owned key s :=
  Lts.invariant (S := droppable cfg key) (fun _ h => owned_initial h)
    (fun _ _ h hg => owned_step h hg) s hs

/-- What holds in every state. -/
structure SingleFlight (key : ι → BitVec 64) (s : CoalescerState ι) : Prop where
  /-- At most one leader's producer is running for a key. -/
  one : ∀ c c', key c = key c' → s.Running c → s.Running c' → c = c'
  /-- An answer is what the producer of a leader for the same key produced. -/
  answer : ∀ c leader since result, s.phase c = .answered leader since result →
    key leader = key c ∧ ∃ t, s.completed leader = some (t, result)
  /-- A removal finds the entry of the leader that has scheduled it. -/
  removal : ∀ r ∈ s.removals, s.inflight.lookup r.key = some r.leader
  /-- The statistics count the calls past the entry and the producers started. -/
  counts : ∃ past started : Finset ι,
    (∀ c, c ∈ past ↔ (s.phase c).role c ≠ none) ∧
    (∀ c, c ∈ started ↔
      (s.phase c).role c = some .leader ∨ (s.phase c).role c = some .bypassing) ∧
    s.stats.leaders + s.stats.waiters + s.stats.bypassed = past.card ∧
    started.card = s.stats.leaders + s.stats.bypassed ∧
    s.stats.forwardsSaved = s.stats.waiters

omit [DecidableEq ι] in
theorem Owned.one (h : Owned key s) {c' : ι} (hkey : key c = key c') (hc : s.Running c)
    (hc' : s.Running c') : c = c' := by
  obtain ⟨⟨since, hc⟩, -⟩ := hc
  obtain ⟨⟨since', hc'⟩, -⟩ := hc'
  have hentry := h.leading c since hc
  rw [hkey, h.leading c' since' hc'] at hentry
  exact (Option.some.inj hentry).symm

omit [DecidableEq ι] in
/-- Whoever drives it, one producer runs for a key. -/
theorem Owned.oneDriven (h : Owned key s) {c' : ι} (hkey : key c = key c') (hc : s.Driven c)
    (hc' : s.Driven c') : c = c' := by
  obtain ⟨⟨waiter, since, hwaits⟩, hnone⟩ := hc
  obtain ⟨⟨waiter', since', hwaits'⟩, hnone'⟩ := hc'
  have hentry := h.running waiter c since hwaits hnone
  rw [hkey, h.running waiter' c' since' hwaits' hnone'] at hentry
  exact (Option.some.inj hentry).symm

theorem Counted.counts (h : Counted s) : ∃ past started : Finset ι,
    (∀ c, c ∈ past ↔ (s.phase c).role c ≠ none) ∧
    (∀ c, c ∈ started ↔
      (s.phase c).role c = some .leader ∨ (s.phase c).role c = some .bypassing) ∧
    s.stats.leaders + s.stats.waiters + s.stats.bypassed = past.card ∧
    started.card = s.stats.leaders + s.stats.bypassed ∧
    s.stats.forwardsSaved = s.stats.waiters := by
  obtain ⟨leaders, hleaders, hleadersCard⟩ := h.role .leader
  obtain ⟨waiters, hwaiters, hwaitersCard⟩ := h.role .waiter
  obtain ⟨bypassing, hbypassing, hbypassingCard⟩ := h.role .bypassing
  have hstarted : Disjoint leaders bypassing := by
    rw [Finset.disjoint_left]
    intro c hl hb
    exact absurd (((hleaders c).1 hl).symm.trans ((hbypassing c).1 hb)) nofun
  have hpast : Disjoint (leaders ∪ bypassing) waiters := by
    rw [Finset.disjoint_left]
    intro c hc hw
    rcases Finset.mem_union.1 hc with hl | hb
    · exact absurd (((hleaders c).1 hl).symm.trans ((hwaiters c).1 hw)) nofun
    · exact absurd (((hbypassing c).1 hb).symm.trans ((hwaiters c).1 hw)) nofun
  refine ⟨leaders ∪ bypassing ∪ waiters, leaders ∪ bypassing, ?_, ?_, ?_, ?_, h.saved⟩
  · intro c
    rw [Finset.mem_union, Finset.mem_union, hleaders, hwaiters, hbypassing]
    cases (s.phase c).role c with
    | none => simp
    | some role => cases role <;> simp
  · intro c
    rw [Finset.mem_union, hleaders, hbypassing]
  · rw [Finset.card_union_of_disjoint hpast, Finset.card_union_of_disjoint hstarted, hleadersCard,
      hwaitersCard, hbypassingCard]
    show s.stats.leaders + s.stats.waiters + s.stats.bypassed =
      s.stats.leaders + s.stats.bypassed + s.stats.waiters
    omega
  · rw [Finset.card_union_of_disjoint hstarted, hleadersCard, hbypassingCard]
    rfl

/-- The call waits for a leader, or has been answered with what that leader's producer produced. -/
def ServedBy (c leader : ι) (s : CoalescerState ι) : Prop :=
  (∃ since, s.phase c = .attached leader since) ∨
    ∃ since t result, s.phase c = .answered leader since result ∧
      s.completed leader = some (t, result)

theorem phase_finish {leader : ι} {since : Nat} {result : Produced} :
    (s.finish cfg key c leader since result).phase =
      Function.update s.phase c (.answered leader since result) := by
  unfold finish scheduleCleanup
  dsimp only
  split
  · split
    · rfl
    · rfl
  · rfl

theorem completed_finish {leader : ι} {since : Nat} {result : Produced} :
    (s.finish cfg key c leader since result).completed = s.completed := by
  unfold finish scheduleCleanup
  dsimp only
  split
  · split
    · rfl
    · rfl
  · rfl

/-- A call that has nothing to do with a shared future changes nothing for the others. -/
theorem servedBy_apart {c' leader : ι} (h : ServedBy c leader s) (hc' : (s.phase c').Apart)
    {p : CallPhase ι} {s' : CoalescerState ι} (hphase : s'.phase = Function.update s.phase c' p)
    (hdone : s'.completed = s.completed) : ServedBy c leader s' := by
  have hne : c ≠ c' := by
    rintro rfl
    rcases h with ⟨since, hc⟩ | ⟨since, t, result, hc, -⟩
    · rw [hc] at hc'
      exact hc'
    · rw [hc] at hc'
      exact hc'
  unfold ServedBy
  rw [hphase, hdone, Function.update_of_ne hne]
  exact h

theorem servedBy_step {leader : ι} (h : ServedBy c leader s) {l : Label ι} (hg : freeGuard l s) :
    ServedBy c leader (update cfg key l s) := by
  cases l with
  | tick => exact h
  | remove r => exact h
  | drop c' => exact hg.elim
  | call c' =>
    have hc' : (s.phase c').Apart := by
      have hphase : s.phase c' = .absent := hg
      rw [hphase]
      exact True.intro
    show ServedBy c leader (s.capacityGuard cfg c')
    unfold capacityGuard
    split
    · exact servedBy_apart h hc' rfl rfl
    · exact servedBy_apart h hc' rfl rfl
  | attach c' =>
    have hc' := apart_of_admitted (show s.phase c' = .admitted from hg)
    show ServedBy c leader (s.attach key c')
    unfold attach
    split
    · exact servedBy_apart h hc' rfl rfl
    · exact servedBy_apart h hc' rfl rfl
  | bypass c' result =>
    have hc' : (s.phase c').Apart := by
      have hphase : s.phase c' = .bypassing := hg
      rw [hphase]
      exact True.intro
    exact servedBy_apart h hc' (p := .bypassed result) rfl rfl
  | complete c' result =>
    obtain ⟨leader', since', hc', hrunning⟩ := waiting_iff.1 hg
    simp only [update, hc']
    rcases h with hc | ⟨since, t, result', hc, hdone⟩
    · exact Or.inl hc
    · -- a producer completes once
      have hne : leader ≠ leader' := by
        rintro rfl
        exact Option.some_ne_none _ (hdone.symm.trans hrunning)
      exact Or.inr ⟨since, t, result', hc, (Function.update_of_ne hne _ _).trans hdone⟩
  | resume c' =>
    obtain ⟨leader', since', t', result', hc', hdone'⟩ := woken_iff.1 hg
    simp only [update, hc', hdone']
    unfold ServedBy
    rw [phase_finish, completed_finish]
    by_cases hne : c = c'
    · subst hne
      rw [Function.update_self]
      rcases h with ⟨since, hc⟩ | ⟨since, t, result, hc, -⟩
      · cases hc'.symm.trans hc
        -- the call itself: its leader is the one it waited for
        exact Or.inr ⟨since', t', result', rfl, hdone'⟩
      · cases hc'.symm.trans hc
    · rw [Function.update_of_ne hne]
      exact h

/-- Single flight: what holds in every state of every interleaving; and a call that finds an entry
is answered with what the producer of the leader of that entry produces. -/
theorem single_flight (hs : (interleavings cfg key).Reachable s) :
    SingleFlight key s ∧
      ∀ c leader ls, s.phase c = .admitted → s.inflight.lookup (key c) = some leader →
        (interleavings cfg key).Enabled (update cfg key (.attach c) s) ls →
        ∀ leader' since result,
          ((interleavings cfg key).run (update cfg key (.attach c) s) ls).phase c =
              .answered leader' since result →
            leader' = leader ∧ ∃ t,
              ((interleavings cfg key).run (update cfg key (.attach c) s) ls).completed leader =
                some (t, result) := by
  obtain ⟨ho, hcount⟩ := owned_counted hs
  constructor
  · constructor
    case one =>
      intro c c' hkey hc hc'
      exact ho.one hkey hc hc'
    case answer => exact ho.answered
    case removal =>
      intro r hr
      exact (ho.removal r hr).1
    case counts => exact hcount.counts
  · intro c leader ls hc hentry hls leader' since result hans
    have hattached : (update cfg key (.attach c) s).phase c = .attached leader s.now := by
      show (s.attach key c).phase c = _
      unfold attach
      rw [hentry]
      exact Function.update_self ..
    have hserved := Lts.Enabled.invariant (S := interleavings cfg key) (P := ServedBy c leader)
      (fun s l h hg => servedBy_step h hg) (Or.inl ⟨s.now, hattached⟩) hls
    rcases hserved with ⟨since', hatt⟩ | ⟨since', t, result', hans', hdone⟩
    · exact nomatch hans.symm.trans hatt
    · cases hans.symm.trans hans'
      exact ⟨rfl, t, hdone⟩

/-- The first call leads and schedules its removal; the second hits the cached answer, and after
the removal the third leads. -/
theorem single_flight_threeCalls :
    SingleFlight sameKey ((interleavings CoalescerState.cfg sameKey).run start
      ([.call .first, .attach .first, .complete .first (.error ⟨"e"⟩), .resume .first,
        .call .second, .attach .second, .resume .second] ++ List.replicate 50 .tick ++
        [.remove ⟨7, 50, .first⟩, .call .third, .attach .third])) := by
  have hstart : (interleavings CoalescerState.cfg sameKey).Reachable start :=
    Lts.Reachable.init (S := interleavings CoalescerState.cfg sameKey) ⟨initial_start, rfl⟩
  exact (single_flight (hstart.run (by decide +kernel))).1

end CoalescerState

end HierKvGateway
