import HierKvGateway.Lib.Run
import HierKvGateway.Metadata.RadixTree

/-!
# Metadata.RadixWorker — the worker thread and its handles

A `RadixTree` handle is a sender of a bounded channel; one thread receives the
commands and holds the tree. A caller waits for the reply of its command, or for
the failure of the channel, in which case it gets a fallback: an error from
`apply_event`, an empty answer from the queries.

Cloning, dropping and sending through handles interleave with the worker in any
order (`RadixWorker.system`). Dropping a handle tries to send `Shutdown`,
whichever handle it is; the worker obeys it. `RadixWorker.served_of_harmless` says when
that does no harm.
-/

namespace HierKvGateway

/-- Commands that have a reply. -/
inductive RadixRequest where
  | applyEvent (backend : BackendId) (event : KvCacheEvent)
  | findMatches (hashes : List BlockHash) (backend : BackendId)
  | findAllMatches (hashes : List BlockHash)
  | removeBackend (backend : BackendId)
  | stats
deriving DecidableEq, Repr

/-- Commands handled by the worker thread. -/
inductive RadixCommand where
  | request (r : RadixRequest)
  | shutdown
deriving DecidableEq, Repr

/-- What a caller gets. -/
inductive RadixReply where
  | applied (result : Except String Unit)
  | overlap (n : Nat)
  | overlaps (scores : BackendId → Nat)
  | removed
  | stats (s : TreeState.RadixStats)

namespace RadixRequest

/-- The worker's side of a request. -/
def execute (t : TreeState) : RadixRequest → TreeState × RadixReply
  | .applyEvent backend event => (t.applyEvent backend event, .applied (.ok ()))
  | .findMatches hashes backend => (t, .overlap (t.findMatches hashes backend))
  | .findAllMatches hashes => (t, .overlaps (t.findAllMatches hashes))
  | .removeBackend backend => (t.removeBackend backend, .removed)
  | .stats => (t, .stats t.stats)

/-- What the caller gets when the channel fails it. -/
def fallback (error : String) : RadixRequest → RadixReply
  | .applyEvent _ _ => .applied (.error error)
  | .findMatches _ _ => .overlap 0
  | .findAllMatches _ => .overlaps fun _ => 0
  | .removeBackend _ => .removed
  | .stats => .stats {}

/-- The tree and the replies after executing requests one after the other. -/
def serve (rs : List RadixRequest) : TreeState × List RadixReply :=
  rs.foldl (fun s r => ((r.execute s.1).1, s.2 ++ [(r.execute s.1).2])) (.new, [])

theorem serve_snoc (rs : List RadixRequest) (r : RadixRequest) :
    serve (rs ++ [r]) = ((r.execute (serve rs).1).1, (serve rs).2 ++ [(r.execute (serve rs).1).2]) := by
  rw [serve, List.foldl_append]
  rfl

end RadixRequest

/-- The handles, the channel, the worker thread, and the history of the requests
sent through the channel, executed and failed. -/
structure RadixWorker where
  /-- Live handles. -/
  handles : Nat
  queue : List RadixCommand
  /-- Whether the thread is running and holds the receiver. -/
  alive : Bool
  tree : TreeState
  sent : List RadixRequest
  executed : List RadixRequest
  replies : List RadixReply
  failed : List (RadixRequest × RadixReply)

namespace RadixWorker

/-- Capacity of the command channel. -/
def capacity : Nat := 4096

/-- One handle and a worker with an empty tree. -/
def new : RadixWorker where
  handles := 1
  queue := []
  alive := true
  tree := .new
  sent := []
  executed := []
  replies := []
  failed := []

/-- The channel accepts a command. -/
def Accepts (s : RadixWorker) : Prop := s.alive = true ∧ s.queue.length < capacity

instance (s : RadixWorker) : Decidable s.Accepts := inferInstanceAs (Decidable (_ ∧ _))

/-- `try_send(Shutdown)`: without effect if the channel is full or closed. -/
def trySendShutdown (s : RadixWorker) : RadixWorker :=
  if s.Accepts then { s with queue := s.queue ++ [.shutdown] } else s

/-- Send a request. On a closed channel it fails at once. -/
def sendRequest (r : RadixRequest) (s : RadixWorker) : RadixWorker :=
  if s.alive then { s with queue := s.queue ++ [.request r], sent := s.sent ++ [r] }
  else { s with failed := s.failed ++ [(r, r.fallback "radix tree worker thread terminated")] }

/-- The requests waiting in a channel. -/
def pending (queue : List RadixCommand) : List RadixRequest :=
  queue.filterMap fun
    | .request r => some r
    | .shutdown => none

/-- The thread ends. The commands left in the channel are dropped with their
reply senders. -/
def stop (s : RadixWorker) : RadixWorker :=
  { s with
    alive := false
    queue := []
    failed := s.failed ++
      (pending s.queue).map fun r => (r, r.fallback "radix tree worker dropped response") }

/-- The worker receives one command. -/
def recv (s : RadixWorker) : RadixWorker :=
  match s.queue with
  | [] => s
  | .request r :: q =>
    { s with
      queue := q
      tree := (r.execute s.tree).1
      executed := s.executed ++ [r]
      replies := s.replies ++ [(r.execute s.tree).2] }
  | .shutdown :: q => stop { s with queue := q }

/-- What a handle can do, and the worker. -/
inductive Label where
  | clone
  | drop
  | send (r : RadixRequest)
  | shutdown
  | recv
  /-- The worker finds the channel empty and without senders. -/
  | hangup
deriving DecidableEq, Repr

/-- When a step can happen. A request waits for room in the channel. -/
def guard : Label → RadixWorker → Prop
  | .clone, s => 0 < s.handles
  | .drop, s => 0 < s.handles
  | .send _, s => 0 < s.handles ∧ (s.alive = true → s.queue.length < capacity)
  | .shutdown, s => 0 < s.handles
  | .recv, s => s.alive = true ∧ s.queue ≠ []
  | .hangup, s => s.alive = true ∧ s.queue = [] ∧ s.handles = 0

instance decidableGuard : ∀ l s, Decidable (guard l s)
  | .clone, _ => inferInstanceAs (Decidable (_ < _))
  | .drop, _ => inferInstanceAs (Decidable (_ < _))
  | .send _, _ => inferInstanceAs (Decidable (_ ∧ (_ → _)))
  | .shutdown, _ => inferInstanceAs (Decidable (_ < _))
  | .recv, _ => inferInstanceAs (Decidable (_ ∧ _))
  | .hangup, _ => inferInstanceAs (Decidable (_ ∧ _ ∧ _))

def update : Label → RadixWorker → RadixWorker
  | .clone, s => { s with handles := s.handles + 1 }
  | .drop, s => { s.trySendShutdown with handles := s.handles - 1 }
  | .send r, s => s.sendRequest r
  | .shutdown, s => s.trySendShutdown
  | .recv, s => s.recv
  | .hangup, s => s.stop

/-- All interleavings of handles and worker. -/
def system : Lts RadixWorker Label where
  init s := s = new
  guard := guard
  update := update

/-- `MetadataStore::kv_remove_backend` clones a handle, sends the removal, waits
for the worker and drops the handle. -/
def kvRemoveBackend (backend : BackendId) : List Label :=
  [.clone, .send (.removeBackend backend), .recv, .drop]

/-! ## The service -/

/-- The service a live handle relies on: the worker is there, it has executed what
was sent, in order and on one tree, as far as it has got, no call has failed, and
by itself it executes the rest. -/
structure Served (s : RadixWorker) : Prop where
  alive : 0 < s.handles → s.alive = true
  inOrder : s.sent = s.executed ++ pending s.queue
  replies : RadixRequest.serve s.executed = (s.tree, s.replies)
  noFailure : s.failed = []
  executes : ∃ n, system.Enabled s (List.replicate n .recv) ∧
    (system.run s (List.replicate n .recv)).executed = s.sent

/-- A drop whose `Shutdown` goes nowhere, or that leaves no handle to miss the
worker. -/
def Refused (s : RadixWorker) : Label → Prop
  | .drop => s.handles = 1 ∨ ¬ s.Accepts
  | .clone => True
  | .send _ => True
  | .shutdown => True
  | .recv => True
  | .hangup => True

/-- The steps of the runs considered: no explicit `shutdown()`, and only harmless
drops. -/
def Harmless (s : RadixWorker) (l : Label) : Prop := l ≠ .shutdown ∧ Refused s l

/-- The commands in the channel are requests, except for a last `Shutdown` once
no handle is left. -/
def Clean (s : RadixWorker) (rs : List RadixRequest) : Prop :=
  s.queue = rs.map .request ∨ s.handles = 0 ∧ s.queue = rs.map .request ++ [.shutdown]

/-- The invariant of the runs without harmful drops. -/
structure Inv (s : RadixWorker) : Prop where
  alive : 0 < s.handles → s.alive = true
  clean : ∃ rs, Clean s rs ∧ s.sent = s.executed ++ rs
  replies : RadixRequest.serve s.executed = (s.tree, s.replies)
  noFailure : s.failed = []
  stopped : s.alive = false → s.queue = []

section Inv

variable {s : RadixWorker} {rs : List RadixRequest}

@[simp] theorem pending_requests : pending (rs.map .request) = rs := by
  induction rs with
  | nil => rfl
  | cons r rs ih => exact congrArg (r :: ·) ih

theorem Clean.pending (h : Clean s rs) : pending s.queue = rs := by
  rcases h with h | ⟨_, h⟩
  · rw [h, pending_requests]
  · rw [h, RadixWorker.pending, List.filterMap_append]
    exact (List.append_nil _).trans pending_requests

/-- While there are handles the channel holds requests only. -/
theorem Clean.requests (h : Clean s rs) (hh : 0 < s.handles) : s.queue = rs.map .request := by
  rcases h with h | ⟨h0, _⟩
  · exact h
  · omega

theorem recv_request {r : RadixRequest} {q : List RadixCommand} (h : s.queue = .request r :: q) :
    s.recv = { s with
      queue := q
      tree := (r.execute s.tree).1
      executed := s.executed ++ [r]
      replies := s.replies ++ [(r.execute s.tree).2] } := by
  rw [recv, h]

theorem recv_shutdown {q : List RadixCommand} (h : s.queue = .shutdown :: q) :
    s.recv = stop { s with queue := q } := by
  rw [recv, h]

theorem inv_new : Inv new where
  alive _ := rfl
  clean := ⟨[], Or.inl rfl, rfl⟩
  replies := rfl
  noFailure := rfl
  stopped _ := rfl

theorem Inv.clone (h : Inv s) (hg : 0 < s.handles) : Inv (update .clone s) where
  alive _ := h.alive hg
  clean := by
    obtain ⟨rs, hclean, hsent⟩ := h.clean
    exact ⟨rs, Or.inl (hclean.requests hg), hsent⟩
  replies := h.replies
  noFailure := h.noFailure
  stopped := h.stopped

theorem Inv.drop (h : Inv s) (hg : 0 < s.handles) (hr : s.handles = 1 ∨ ¬ s.Accepts) :
    Inv (update .drop s) := by
  obtain ⟨rs, hclean, hsent⟩ := h.clean
  have hqueue := hclean.requests hg
  have halive := h.alive hg
  by_cases hacc : s.Accepts
  · -- the last handle: nobody is left to miss the worker
    have hone : s.handles = 1 := hr.resolve_right fun hn => hn hacc
    have hupd : update .drop s =
        { s with queue := s.queue ++ [.shutdown], handles := s.handles - 1 } := by
      rw [update, trySendShutdown, if_pos hacc]
    rw [hupd]
    refine ⟨fun hpos => ?_, ⟨rs, Or.inr ⟨?_, ?_⟩, hsent⟩, h.replies, h.noFailure, fun hdead => ?_⟩
    · dsimp only at hpos
      omega
    · dsimp only
      omega
    · dsimp only
      rw [hqueue]
    · dsimp only at hdead
      rw [halive] at hdead
      cases hdead
  · -- the channel is full: no `Shutdown` gets in
    have hupd : update .drop s = { s with handles := s.handles - 1 } := by
      rw [update, trySendShutdown, if_neg hacc]
    rw [hupd]
    exact ⟨fun _ => halive, ⟨rs, Or.inl hqueue, hsent⟩, h.replies, h.noFailure, h.stopped⟩

theorem Inv.send (h : Inv s) (hg : 0 < s.handles) (r : RadixRequest) :
    Inv (update (.send r) s) := by
  obtain ⟨rs, hclean, hsent⟩ := h.clean
  have halive := h.alive hg
  have hupd : update (.send r) s =
      { s with queue := s.queue ++ [.request r], sent := s.sent ++ [r] } := by
    rw [update, sendRequest, if_pos halive]
  rw [hupd]
  refine ⟨fun _ => halive, ⟨rs ++ [r], Or.inl ?_, ?_⟩, h.replies, h.noFailure, fun hdead => ?_⟩
  · dsimp only
    rw [hclean.requests hg, List.map_append]
    rfl
  · dsimp only
    rw [hsent, List.append_assoc]
  · dsimp only at hdead
    rw [halive] at hdead
    cases hdead

theorem Inv.recv (h : Inv s) (hg : s.alive = true ∧ s.queue ≠ []) : Inv (update .recv s) := by
  obtain ⟨rs, hclean, hsent⟩ := h.clean
  rcases rs with _ | ⟨r, rs⟩
  · -- only a `Shutdown` can be left, and only without handles
    rcases hclean with hempty | ⟨hzero, hqueue⟩
    · exact absurd hempty hg.2
    · rw [update, recv_shutdown hqueue]
      refine ⟨fun hpos => ?_, ⟨[], Or.inl rfl, hsent⟩, h.replies, ?_, fun _ => rfl⟩
      · have hpos : 0 < s.handles := hpos
        omega
      · rw [stop]
        exact (List.append_nil _).trans h.noFailure
  · -- the oldest request is executed
    have hhead : ∃ q, s.queue = .request r :: q ∧
        (q = rs.map .request ∨ s.handles = 0 ∧ q = rs.map .request ++ [.shutdown]) := by
      rcases hclean with hqueue | ⟨hzero, hqueue⟩
      · exact ⟨_, hqueue, Or.inl rfl⟩
      · exact ⟨_, hqueue, Or.inr ⟨hzero, rfl⟩⟩
    obtain ⟨q, hqueue, hq⟩ := hhead
    rw [update, recv_request hqueue]
    refine ⟨h.alive, ⟨rs, hq, ?_⟩, ?_, h.noFailure, fun hdead => ?_⟩
    · rw [hsent, List.append_assoc]
      rfl
    · dsimp only
      rw [RadixRequest.serve_snoc, h.replies]
    · dsimp only at hdead
      rw [hg.1] at hdead
      cases hdead

theorem Inv.hangup (h : Inv s) (hg : s.alive = true ∧ s.queue = [] ∧ s.handles = 0) :
    Inv (update .hangup s) := by
  obtain ⟨rs, hclean, hsent⟩ := h.clean
  have hrs : rs = [] := by
    rw [← hclean.pending, hg.2.1]
    rfl
  refine ⟨fun hpos => ?_, ⟨[], Or.inl rfl, ?_⟩, h.replies, ?_, fun _ => rfl⟩
  · have hpos : 0 < s.handles := hpos
    omega
  · rw [update, stop, hsent, hrs]
  · rw [update, stop, hg.2.1]
    exact (List.append_nil _).trans h.noFailure

theorem Inv.step (h : Inv s) (l : Label) (hg : guard l s) (hl : Harmless s l) :
    Inv (update l s) := by
  cases l with
  | clone => exact h.clone hg
  | drop => exact h.drop hg hl.2
  | send r => exact h.send hg.1 r
  | shutdown => exact absurd rfl hl.1
  | recv => exact h.recv hg
  | hangup => exact h.hangup hg

/-- By itself the worker executes the requests at the head of the channel. -/
theorem recv_requests (halive : s.alive = true) {q : List RadixCommand}
    (hqueue : s.queue = rs.map .request ++ q) :
    system.Enabled s (List.replicate rs.length .recv) ∧
      (system.run s (List.replicate rs.length .recv)).executed = s.executed ++ rs ∧
      (system.run s (List.replicate rs.length .recv)).queue = q ∧
      (system.run s (List.replicate rs.length .recv)).alive = true ∧
      (system.run s (List.replicate rs.length .recv)).handles = s.handles := by
  induction rs generalizing s with
  | nil => exact ⟨trivial, (List.append_nil _).symm, hqueue, halive, rfl⟩
  | cons r rs ih =>
    have hguard : guard .recv s := ⟨halive, by rw [hqueue]; exact List.cons_ne_nil _ _⟩
    have hcons : s.queue = .request r :: (rs.map .request ++ q) := hqueue
    have hnext := recv_request hcons
    have hrest := ih (s := s.recv) (by rw [hnext]; exact halive) (by rw [hnext])
    obtain ⟨henabled, hexec, hq, ha, hh⟩ := hrest
    refine ⟨⟨hguard, henabled⟩, hexec.trans ?_, hq, ha, hh.trans ?_⟩
    · rw [hnext, List.append_assoc]
      rfl
    · rw [hnext]

theorem Inv.served (h : Inv s) : Served s := by
  obtain ⟨rs, hclean, hsent⟩ := h.clean
  refine ⟨h.alive, by rw [hclean.pending, hsent], h.replies, h.noFailure, ?_⟩
  -- a worker that has stopped has nothing left to execute; a live one catches up
  cases halive : s.alive with
  | false =>
    refine ⟨0, trivial, ?_⟩
    have hrs : rs = [] := by
      rw [← hclean.pending, h.stopped halive]
      rfl
    rw [hsent, hrs, List.append_nil]
    rfl
  | true =>
    have hqueue : ∃ q, s.queue = rs.map .request ++ q := by
      rcases hclean with hq | ⟨_, hq⟩
      · exact ⟨[], by rw [hq, List.append_nil]⟩
      · exact ⟨_, hq⟩
    obtain ⟨q, hq⟩ := hqueue
    obtain ⟨henabled, hexec, _⟩ := recv_requests halive hq
    exact ⟨rs.length, henabled, hexec.trans hsent.symm⟩

end Inv

/-! ## A `Shutdown` among the commands -/

section Shutdown

variable {s : RadixWorker}

/-- The commands before the first `Shutdown` are requests. -/
theorem split_shutdown {queue : List RadixCommand} (h : .shutdown ∈ queue) :
    ∃ (rs : List RadixRequest) (q : List RadixCommand),
      queue = rs.map .request ++ .shutdown :: q := by
  induction queue with
  | nil => cases h
  | cons cmd queue ih =>
    cases cmd with
    | shutdown => exact ⟨[], queue, rfl⟩
    | request r =>
      have hmem : .shutdown ∈ queue := by
        rcases List.mem_cons.1 h with heq | hmem
        · cases heq
        · exact hmem
      obtain ⟨rs, q, hq⟩ := ih hmem
      exact ⟨r :: rs, q, by rw [hq]; rfl⟩

/-- The worker obeys a `Shutdown` in the channel, whoever still holds a handle. -/
theorem recv_until_stopped (halive : s.alive = true) (h : .shutdown ∈ s.queue) :
    ∃ n, system.Enabled s (List.replicate n .recv) ∧
      (system.run s (List.replicate n .recv)).alive = false ∧
      (system.run s (List.replicate n .recv)).handles = s.handles := by
  obtain ⟨rs, q, hqueue⟩ := split_shutdown h
  obtain ⟨henabled, _, hq, ha, hh⟩ := recv_requests halive hqueue
  have hstop := recv_shutdown hq
  have hrun : system.run s (List.replicate (rs.length + 1) .recv) =
      (system.run s (List.replicate rs.length .recv)).recv := by
    rw [List.replicate_succ', Lts.run_append]
    rfl
  refine ⟨rs.length + 1, ?_, ?_, ?_⟩
  · rw [List.replicate_succ', Lts.enabled_append]
    exact ⟨henabled, ⟨⟨ha, by rw [hq]; exact List.cons_ne_nil _ _⟩, trivial⟩⟩
  · rw [hrun, hstop]
    rfl
  · rw [hrun, hstop]
    exact hh

/-- After a drop that is not refused the worker can leave a live handle behind. -/
theorem not_served_of_drop (hg : guard .drop s) (hr : ¬ Refused s .drop) :
    ∃ n, system.Enabled s (.drop :: List.replicate n .recv) ∧
      ¬ Served (system.run s (.drop :: List.replicate n .recv)) := by
  obtain ⟨hone, hacc⟩ := not_or.1 hr
  have hacc : s.Accepts := not_not.1 hacc
  have hg : 0 < s.handles := hg
  have hupd : update .drop s =
      { s with queue := s.queue ++ [.shutdown], handles := s.handles - 1 } := by
    rw [update, trySendShutdown, if_pos hacc]
  have hmem : .shutdown ∈ (update .drop s).queue := by
    rw [hupd]
    exact List.mem_append_right _ (List.mem_singleton_self _)
  have halive : (update .drop s).alive = true := by
    rw [hupd]
    exact hacc.1
  obtain ⟨n, henabled, hdead, hhandles⟩ := recv_until_stopped halive hmem
  refine ⟨n, ⟨hg, henabled⟩, fun hserved => ?_⟩
  -- a handle is left, and the worker behind it is gone
  have hpos : 0 < (system.run (update .drop s) (List.replicate n .recv)).handles := by
    rw [hhandles, hupd]
    dsimp only
    omega
  have halive : (system.run (update .drop s) (List.replicate n .recv)).alive = true :=
    hserved.alive hpos
  rw [hdead] at halive
  cases halive

end Shutdown

/-- Without explicit `shutdown()` calls, and while every drop of a handle that is
not the last one finds the channel full or closed, every live handle is served in
every reachable state, whatever the order of the steps. After any other drop the
worker can end under a live handle. -/
theorem served_of_harmless (s : RadixWorker) :
    ((system.restrict Harmless).Reachable s → Served s) ∧
    (guard .drop s → ¬ Refused s .drop →
      ∃ n, system.Enabled s (.drop :: List.replicate n .recv) ∧
        ¬ Served (system.run s (.drop :: List.replicate n .recv))) := by
  constructor
  · intro hs
    have hinv : Inv s := by
      refine Lts.invariant (S := system.restrict Harmless) (P := Inv) ?_ ?_ s hs
      · rintro _ rfl
        exact inv_new
      · intro s l h hg
        exact h.step l hg.1 hg.2
    exact hinv.served
  · intro hg hr
    exact not_served_of_drop hg hr

/-! One removal of a backend through the metadata store clones a handle and drops
it. The worker ends although the index still holds its own handle, and the next
event fails. -/

/-- A removal, the worker's next step, and an event. -/
def removeThenStore : List Label :=
  kvRemoveBackend ⟨⟨"r1"⟩, ⟨"i1"⟩⟩ ++
    [.recv, .send (.applyEvent ⟨⟨"r2"⟩, ⟨"i2"⟩⟩ (.stored ⟨1, 0⟩ [1] none []))]

theorem not_served_removeThenStore :
    system.Enabled new removeThenStore ∧ .shutdown ∉ removeThenStore ∧
      ¬ Served (system.run new removeThenStore) := by
  refine ⟨?_, by decide, fun h => ?_⟩
  · unfold Lts.Enabled system
    decide +kernel
  · have hfailed : (system.run new removeThenStore).failed.length = 1 := by decide +kernel
    rw [h.noFailure] at hfailed
    cases hfailed

end RadixWorker

end HierKvGateway
