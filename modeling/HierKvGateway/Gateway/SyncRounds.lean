import HierKvGateway.Gateway.SyncNetwork

/-!
# Gateway.SyncRounds — metadata that is asked for, and metadata that is not

A gateway gets the metadata of another one by asking for it. The digests that the engines exchange
do not make anyone ask, and a local write does not change them.

* `unrequested_local`: while nobody asks, every store is what the gateway's own writes make of it,
  and no digest tells of them;
* `sync_round`: a gateway that asks another one that knows it can have its metadata in three steps.
-/

namespace HierKvGateway

/-- The record of a member is the one that is found. -/
theorem MemberList.find?_allMembers {l : MemberList} {i : InstanceId} {m : ClusterMember}
    (h : l.get i = some m) : l.allMembers.find? (·.instanceId = i) = some m := by
  have hid := instanceId_of_get h
  cases hfind : l.allMembers.find? (·.instanceId = i) with
  | none =>
    have hnone := List.find?_eq_none.1 hfind m (mem_allMembers.2 (hid ▸ h))
    exact absurd (decide_eq_true hid) hnone
  | some m' =>
    have hfound : decide (m'.instanceId = i) = true :=
      List.find?_some (p := fun x : ClusterMember => decide (x.instanceId = i)) hfind
    have hget := mem_allMembers.1 (List.mem_of_find?_eq_some hfind)
    rw [of_decide_eq_true hfound, h] at hget
    exact hget.symm

namespace GossipNetwork

variable {F : Fleet} {t : GossipNetwork}

/-- No digest tells of anything. -/
structure Undigested (t : GossipNetwork) : Prop where
  handler : ∀ i, (t.handler i).currentMetaDigest = .default
  net : ∀ p ∈ t.net, ∀ c, p.msg.contact .default = some c → c.digest = .default
  members : ∀ i X m, (t.members i).get X = some m → m.metaDigest = .default

theorem Undigested.initial (h : Initial t) : Undigested t where
  handler := h.digest
  net p hp := by
    rw [h.net] at hp
    exact nomatch hp
  members i X m hm := by
    rw [h.members i] at hm
    exact nomatch hm

/-- The engines pass on the digests of the handlers and those that they have been told. -/
theorem Undigested.step (h : Undigested t) (l : Label)
    (hhandler : ∀ i, ((update F l t).handler i).currentMetaDigest = .default) :
    Undigested (update F l t) where
  handler := hhandler
  net p hp c hc := by
    rcases packet_step hp with hold | hsent
    · exact h.net p hold c hc
    · cases hsent with
      | meet =>
        rcases hc with ⟨⟩
        rfl
      | syncRequest => exact nomatch hc
      | gossip =>
        rcases hc with ⟨⟩
        exact h.handler _
      | reply _ hreply =>
        cases hreply with
        | pong | ping =>
          rcases hc with ⟨⟩
          exact h.handler _
        | syncResponse => exact nomatch hc
  members i X m hm := by
    rcases record_step hm with ⟨m₀, hm₀, hkept⟩ | ⟨-, hrecorded⟩
    · rw [← hkept.metaDigest]
      exact h.members i X m₀ hm₀
    · cases hrecorded with
      | self => exact h.handler i
      | @heard n now c hc _ =>
        rcases Option.bind_eq_some_iff.1 hc with ⟨p, hp, hcontact⟩
        rw [h.handler i] at hcontact
        exact h.net p (List.mem_of_getElem? hp) c hcontact

end GossipNetwork

namespace SyncNetwork

variable {F : Fleet} {w : Wire} {s : SyncNetwork}

/-! ## While nobody asks -/

/-- Nobody asks for metadata. -/
def Unrequested (_ : SyncNetwork) : Label → Prop
  | .engine (.requestSync _ _ _) => False
  | _ => True

/-- The messages on their way name their senders, and every store is what its own writes make. -/
structure Isolated (s : SyncNetwork) : Prop where
  net : ∀ p ∈ s.gossip.net, p.msg.contactSender ≠ none
  store : ∀ i, s.store i = (s.writes i).foldl GatewayStore.write .new

theorem Isolated.initial (h : Initial w s) : Isolated s where
  net p hp := by
    rw [h.gossip.net] at hp
    exact nomatch hp
  store i := by
    rw [h.store i, h.writes i]
    rfl

/-- Who names himself brings nothing. -/
theorem Isolated.received (h : Isolated s) (i : InstanceId) (n now : Nat) :
    s.received F w i n now = s.store i := by
  have hcalls : s.callsAt F i n now = [] := by
    apply List.eq_nil_iff_forall_not_mem.2
    intro call hcall
    rcases mem_callsAt hcall with ⟨p, hp, hmem⟩
    rw [GossipedState.callsOf_of_contact (h.net p hp)] at hmem
    exact nomatch hmem
  rw [SyncNetwork.received, hcalls]
  rfl

theorem Isolated.step (h : Isolated s) (l : Label) (hl : Unrequested s l) :
    Isolated (update F w l s) where
  net p hp := by
    rcases packet_step hp with hold | ⟨l', hstep, hfresh⟩
    · exact h.net p hold
    · generalize p.msg = msg at hfresh
      cases hfresh with
      | contact hcontact => exact hcontact
      | request i target keys =>
        -- the step would be a request
        cases l with
        | engine l =>
          rcases Option.some.inj hstep with rfl
          exact absurd hl id
        | deliver => exact nomatch hstep
        | write | relist => exact nomatch hstep
      | answer hp' hmsg =>
        have hcontact := h.net _ (List.mem_of_getElem? hp')
        rw [hmsg] at hcontact
        exact absurd rfl hcontact
  store i := by
    cases l with
    | write j op listing =>
      show Function.update s.store j ((s.store j).write op) i =
        (Function.update s.writes j (s.writes j ++ [op]) i).foldl GatewayStore.write .new
      rw [Function.update_apply, Function.update_apply]
      split
      · rw [List.foldl_append, ← h.store j]
        rfl
      · exact h.store i
    | relist j listing =>
      show Function.update s.store j (s.store j) i = _
      rw [Function.update_eq_self]
      exact h.store i
    | engine l => exact h.store i
    | deliver j n now listing =>
      show Function.update s.store j (s.received F w j n now) i = _
      rw [h.received, Function.update_eq_self]
      exact h.store i

/-- Only a write that is counted changes the versions. -/
theorem versions_foldl (ops : List LocalWrite) (hops : ∀ key, LocalWrite.bump key ∉ ops)
    (g : GatewayStore) : (ops.foldl GatewayStore.write g).versions = g.versions := by
  induction ops generalizing g with
  | nil => rfl
  | cons op ops ih =>
    rw [List.foldl_cons, ih fun key hmem => hops key (List.mem_cons_of_mem op hmem)]
    cases op with
    | bump key => exact absurd List.mem_cons_self (hops key)
    | registry op =>
      cases op with
      | register info => rfl
      | unregister backend => rfl
    | loadUpdate | addRegion | updateLatency => rfl

/-- Nobody has counted a local write. -/
def Uncounted (s : SyncNetwork) : Prop := ∀ i key, LocalWrite.bump key ∉ s.writes i

/-- What is not counted is not in the digest. -/
theorem Isolated.digest (h : Isolated s) (hanswers : Answers w s) (huncounted : Uncounted s)
    (i : InstanceId) : (s.gossip.handler i).currentMetaDigest = .default := by
  rcases hanswers i with ⟨listing, -, hhandler⟩
  rw [hhandler]
  show (s.store i).currentMetaDigest = .default
  rw [GatewayStore.currentMetaDigest, h.store i, versions_foldl _ (huncounted i)]
  rfl

theorem undigested_setStore {t : SyncNetwork} (h : t.gossip.Undigested) (i : InstanceId)
    (g : GatewayStore) (listing : Listing)
    (hdigest : ∀ j, ((t.setStore F w i g listing).gossip.handler j).currentMetaDigest = .default) :
    (t.setStore F w i g listing).gossip.Undigested :=
  GossipNetwork.Undigested.step (F := F) h (.store i (g.handler w listing)) hdigest

/-- What holds while nobody asks. -/
structure Silent (w : Wire) (s : SyncNetwork) : Prop extends Isolated s where
  answers : Answers w s
  undigested : Uncounted s → s.gossip.Undigested

theorem Silent.step (h : Silent w s) (l : Label) (hg : guard F w l s) (hl : Unrequested s l) :
    Silent w (update F w l s) where
  toIsolated := h.toIsolated.step l hl
  answers := h.answers.step l hg
  undigested := by
    intro huncounted
    have hbefore : Uncounted s := fun i key hmem => huncounted i key (writes_step hmem l)
    have hold := h.undigested hbefore
    have hdigest := (h.toIsolated.step l hl).digest (h.answers.step l hg) huncounted
    cases l with
    | write i op listing => exact undigested_setStore hold i _ listing hdigest
    | relist i listing => exact undigested_setStore hold i _ listing hdigest
    | engine l => exact hold.step l hdigest
    | deliver i n now listing =>
      refine undigested_setStore (hold.step (.deliver i n now) ?_) i _ listing hdigest
      intro j
      rw [GossipNetwork.handler_update (l := .deliver i n now) nofun]
      exact hold.handler j

/-- While nobody asks for metadata, nothing spreads: every store is what the gateway's own writes
make of it, and unless somebody counts them no digest, on record or on its way, tells of them. -/
theorem unrequested_local (F : Fleet) (w : Wire) (s : SyncNetwork)
    (hs : ((system F w).restrict Unrequested).Reachable s) :
    (∀ i, s.store i = (s.writes i).foldl GatewayStore.write .new) ∧
      (Uncounted s → s.gossip.Undigested) := by
  have hsilent : Silent w s := by
    refine Lts.invariant (P := Silent w) ?_ ?_ s hs
    · intro s h
      have hinit : Initial w s := h
      exact ⟨.initial hinit, .initial hinit, fun _ => .initial hinit.gossip⟩
    · exact fun s l h hg => h.step l hg.1 hg.2
  exact ⟨hsilent.store, hsilent.undigested⟩

/-- Nobody has asked the gateway with the backend. -/
theorem unrequested_local_joined :
    (system₂.run start joined).store ⟨"b"⟩ = .new ∧
      ∀ m, ((system₂.run start joined).gossip.members ⟨"a"⟩).get ⟨"b"⟩ = some m →
        m.metaDigest = .default := by
  have hreach : (system₂.restrict Unrequested).Reachable (system₂.run start joined) := by
    refine .run (.init initial_start) (Lts.enabled_restrict.2 ⟨enabled_joined, ?_⟩)
    exact ⟨trivial, trivial, trivial, trivial, trivial, trivial, trivial⟩
  rcases unrequested_local GossipNetwork.twoRegions oneBackend _ hreach with ⟨hstore, hdigests⟩
  have huncounted : Uncounted (system₂.run start joined) := by
    intro i key hmem
    have hwrites : (system₂.run start joined).writes i =
        if i = ⟨"a"⟩ then [.registry (.register backend),
          .loadUpdate backend.id (GossipedState.metricsAt 1)] else [] := by
      by_cases hi : i = ⟨"a"⟩
      · subst hi
        rfl
      · rw [if_neg hi]
        exact (Function.update_of_ne hi _ _).trans (Function.update_of_ne hi _ _)
    rw [hwrites] at hmem
    split at hmem
    · simp at hmem
    · exact nomatch hmem
  exact ⟨hstore ⟨"b"⟩, (hdigests huncounted).members ⟨"a"⟩ ⟨"b"⟩⟩

/-! ## A gateway asks -/

/-- The known Regions can be listed. -/
theorem exists_listing {g : GatewayStore}
    (h : {r | (g.topology.regions r).isSome = true}.Finite) : ∃ listing, g.Lists listing := by
  refine ⟨⟨g.registry.backends.entries.map Sigma.snd, h.toFinset.toList⟩, List.Perm.refl _, ?_, ?_⟩
  · exact h.toFinset.nodup_toList
  · intro r
    rw [Finset.mem_toList, Set.Finite.mem_toFinset]
    rfl

/-- A store that is listed knows finitely many Regions. -/
theorem finite_of_lists {g : GatewayStore} {listing : Listing} (h : g.Lists listing) :
    {r | (g.topology.regions r).isSome = true}.Finite := by
  refine (List.finite_toSet listing.regions).subset ?_
  intro r hr
  exact (h.regions r).2 hr

/-- A store that takes over what another one tells can be listed. -/
theorem exists_listing_merged {keys : List String} {g r r' : GatewayStore}
    {listing listing' : Listing} (h : GatewayStore.Merged keys g r r') (hg : g.Lists listing)
    (hr : r.Lists listing') : ∃ listing'', r'.Lists listing'' := by
  refine exists_listing (((finite_of_lists hg).union (finite_of_lists hr)).subset ?_)
  intro id hid
  have hid : (r'.topology.regions id).isSome = true := hid
  rw [h.regions id] at hid
  split at hid
  · cases hget : g.topology.regions id with
    | some info =>
      left
      show (g.topology.regions id).isSome = true
      rw [hget]
      rfl
    | none =>
      rw [hget] at hid
      exact .inr hid
  · exact .inr hid

section Round

variable {i j : InstanceId} {p : Packet} {net : List Packet} {m : ClusterMember}

/-- The last message on its way is delivered. -/
theorem deliver_last {t : GossipNetwork} (hnet : t.net = net ++ [p]) (i : InstanceId) (now : Nat) :
    GossipNetwork.update F (.deliver i net.length now) t =
      ({ t with net := net }.setMembers i (t.receive F i now p.msg).members).send
        (t.receive F i now p.msg).sends := by
  have hget : t.net[net.length]? = some p := by
    rw [hnet, List.getElem?_concat_length]
  have herase : t.net.eraseIdx net.length = net := by
    rw [hnet, List.eraseIdx_append_of_length_le le_rfl, Nat.sub_self, List.eraseIdx_cons_zero,
      List.append_nil]
  rw [GossipNetwork.update, GossipNetwork.deliver, hget, herase]

theorem callsAt_last (hnet : s.gossip.net = net ++ [p]) (i : InstanceId) (now : Nat) :
    s.callsAt F i net.length now = GossipedState.callsOf p.msg := by
  have hget : s.gossip.net[net.length]? = some p := by
    rw [hnet, List.getElem?_concat_length]
  rw [callsAt, hget]
  exact GossipedState.receive_calls _ _ _ _ _

/-- A request of a member is answered to the address on record. -/
theorem receive_syncRequest {t : GossipNetwork} (hij : i ≠ j)
    (hm : (t.members j).get i = some m) (keys : List String) (now : Nat) :
    t.receive F j now (.syncRequest i keys) =
      ⟨t.members j, [⟨m.addr, .syncResponse ((t.handler j).handleSyncRequest keys)⟩], []⟩ := by
  have hself : ¬ (GossipMessage.syncRequest i keys).senderIsSelf (F.engine j).selfId = true := by
    rw [F.selfId]
    exact fun h => hij (of_decide_eq_true h)
  rw [GossipNetwork.receive, GossipEngine.receive, if_neg hself]
  simp only [GossipEngine.dispatchMessage, MemberList.find?_allMembers hm]

/-- What the delivery of the last message changes. -/
theorem deliver_last_spec (hnet : s.gossip.net = net ++ [p]) (i : InstanceId) (now : Nat)
    (listing : Listing) :
    (update F w (.deliver i net.length now listing) s).store =
        Function.update s.store i
          ((s.store i).handleAll w.toCodec (now / 1000) (GossipedState.callsOf p.msg)) ∧
      (update F w (.deliver i net.length now listing) s).gossip.net =
        net ++ (s.gossip.receive F i now p.msg).sends ∧
      (update F w (.deliver i net.length now listing) s).gossip.running = s.gossip.running := by
  refine ⟨?_, ?_, ?_⟩
  · show Function.update s.store i (s.received F w i net.length now) = _
    rw [received, callsAt_last hnet]
  · show (GossipNetwork.update F (.deliver i net.length now) s.gossip).net = _
    rw [deliver_last hnet]
    rfl
  · show (GossipNetwork.update F (.deliver i net.length now) s.gossip).running = _
    rw [deliver_last hnet]
    rfl

/-- The last message can be delivered to whom it is sent. -/
theorem guard_deliver_last (hnet : s.gossip.net = net ++ [p]) (now : Nat)
    (hrunning : s.gossip.running i = true) (htarget : p.target = (F.engine i).selfAddr)
    {listing : Listing} (hlists : ((s.store i).handleAll w.toCodec (now / 1000)
      (GossipedState.callsOf p.msg)).Lists listing) :
    ((system F w).restrict ReadableWrites).guard (.deliver i net.length now listing) s := by
  refine ⟨⟨⟨hrunning, ?_⟩, ?_⟩, trivial⟩
  · rw [hnet, List.getElem?_concat_length, Option.map_some, htarget]
  · rw [received, callsAt_last hnet]
    exact hlists

/-- What the store has is read as it is written. -/
structure Legible (w : Wire) (g : GatewayStore) : Prop where
  load : ∀ listing, g.Lists listing →
    w.decodeLoad (w.encodeLoad (wireEntries (g.reports listing.backends))) =
      some (wireEntries (g.reports listing.backends))
  regions : ∀ r info, g.topology.regions r = some info →
    w.decodeRegion (w.encodeRegion info) = some info

/-- From a state whose stores are well kept. -/
theorem WellKept.exists_round (h : WellKept w s) (hij : i ≠ j) (hi : s.gossip.running i = true)
    (hj : s.gossip.running j = true) (hm : (s.gossip.members j).get i = some m)
    (haddr : m.addr = (F.engine i).selfAddr) (hlegible : Legible w (s.store j))
    (keys : List String) (now : Nat) :
    ∃ ls, ls.length = 3 ∧ ((system F w).restrict ReadableWrites).Enabled s ls ∧
      (s.store j).Merged keys (s.store i) (((system F w).run s ls).store i) ∧
      (∀ k, k ≠ i → ((system F w).run s ls).store k = s.store k) ∧
      ((system F w).run s ls).gossip.net = s.gossip.net := by
  rcases h.answers j with ⟨listing, hlists, hhandler⟩
  rcases h.answers i with ⟨listing', hlists', -⟩
  -- the request
  let s₁ := update F w (.engine (.requestSync i (F.engine j).selfAddr keys)) s
  have hnet₁ : s₁.gossip.net =
      s.gossip.net ++ [⟨(F.engine j).selfAddr, .syncRequest i keys⟩] := by
    show s.gossip.net ++ [⟨(F.engine j).selfAddr, .syncRequest (F.engine i).selfId keys⟩] = _
    rw [F.selfId]
  -- the answer
  let s₂ := update F w (.deliver j s.gossip.net.length now listing) s₁
  let entries := (s.store j).handleSyncRequest w listing keys
  rcases deliver_last_spec (F := F) (w := w) hnet₁ j now listing with ⟨hstore₂, hnet₂, hrunning₂⟩
  have hm₁ : (s₁.gossip.members j).get i = some m := hm
  rw [receive_syncRequest hij hm₁ keys now] at hnet₂
  have hanswer : (s₁.gossip.handler j).handleSyncRequest keys = entries := by
    show (s.gossip.handler j).handleSyncRequest keys = entries
    rw [hhandler]
    rfl
  rw [hanswer] at hnet₂
  have hstore₂ : s₂.store = s.store := hstore₂.trans (Function.update_eq_self j s.store)
  -- the answer arrives
  have hmerged : (s.store j).Merged keys (s.store i)
      ((s.store i).handle w.toCodec (now / 1000) (.applySyncResponse entries)) := by
    have hfiled := h.filed j
    have hreads : (s.store j).ReadsBack w listing :=
      ⟨hfiled.idsReadBack hlists, hlegible.load listing hlists, hlegible.regions⟩
    exact GatewayStore.merged_receive hreads hlists hfiled.keyed hfiled.regions _ _
  rcases exists_listing_merged hmerged hlists hlists' with ⟨listing'', hlists''⟩
  rcases deliver_last_spec (F := F) (w := w) hnet₂ i now listing'' with ⟨hstore₃, hnet₃, -⟩
  rw [hstore₂] at hstore₃
  refine ⟨[.engine (.requestSync i (F.engine j).selfAddr keys),
    .deliver j s.gossip.net.length now listing, .deliver i s.gossip.net.length now listing''],
    rfl, ⟨⟨⟨trivial, hi⟩, trivial⟩, ?_, ?_, trivial⟩, ?_, ?_, ?_⟩
  · exact guard_deliver_last hnet₁ now hj rfl hlists
  · refine guard_deliver_last hnet₂ now ?_ haddr ?_
    · rw [hrunning₂]
      exact hi
    · rw [hstore₂]
      exact hlists''
  · refine (congrArg _ (congrFun hstore₃ i)).mpr ?_
    rw [Function.update_self]
    exact hmerged
  · intro k hk
    refine (congrFun hstore₃ k).trans ?_
    exact Function.update_of_ne hk _ _
  · refine hnet₃.trans ?_
    -- an answer is not answered
    exact List.append_nil _

end Round

/-- In every state, a gateway can ask another one that has it on record under its address: three
steps later it has taken over what the other one tells, nothing else has changed in any store, and
nothing more is on its way. -/
theorem sync_round (F : Fleet) (w : Wire) (s : SyncNetwork)
    (hs : ((system F w).restrict ReadableWrites).Reachable s) (i j : InstanceId) (hij : i ≠ j)
    (hi : s.gossip.running i = true) (hj : s.gossip.running j = true) (m : ClusterMember)
    (hm : (s.gossip.members j).get i = some m) (haddr : m.addr = (F.engine i).selfAddr)
    (hlegible : Legible w (s.store j)) (keys : List String) (now : Nat) :
    ∃ ls, ls.length = 3 ∧ ((system F w).restrict ReadableWrites).Enabled s ls ∧
      (s.store j).Merged keys (s.store i) (((system F w).run s ls).store i) ∧
      (∀ k, k ≠ i → ((system F w).run s ls).store k = s.store k) ∧
      ((system F w).run s ls).gossip.net = s.gossip.net :=
  (wellKept_reachable hs).exists_round hij hi hj hm haddr hlegible keys now

theorem legible_measured : Legible oneBackend measured where
  load listing hlists := by
    have hbackends : listing.backends = [backend] := List.perm_singleton.1 hlists.backends
    rw [hbackends]
    decide +kernel
  regions _ _ h := nomatch h

/-- The second gateway asks for the load, and has the metrics of the first one's backend. -/
theorem sync_round_joined :
    ∃ ls, (system₂.restrict ReadableWrites).Enabled (system₂.run start joined) ls ∧
      ((system₂.run (system₂.run start joined) ls).store ⟨"b"⟩).registry.load.get backend.id =
        some (GossipedState.metricsAt 1) := by
  have hstore : (system₂.run start joined).store ⟨"a"⟩ = measured := rfl
  rcases sync_round GossipNetwork.twoRegions oneBackend _ reachable_joined ⟨"b"⟩ ⟨"a"⟩ (by decide)
    (by decide +kernel) (by decide +kernel) _ known_joined rfl
    (by rw [hstore]; exact legible_measured) [MetaKey.loadState.asStr] 0 with
    ⟨ls, -, hls, hmerged, -, -⟩
  refine ⟨ls, hls, ?_⟩
  rw [hmerged.load, hstore, if_pos ⟨List.mem_singleton_self _, by decide +kernel⟩]
  decide +kernel

end SyncNetwork

end HierKvGateway
