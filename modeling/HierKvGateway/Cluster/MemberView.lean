import HierKvGateway.Cluster.GossipNetwork

/-!
# Cluster.MemberView — what the member lists say about the others

Three things a record states about a member other than its owner: the Region, the
address and the metadata digest. Each is right as long as one kind of step does
not happen:

* a gossip tick that pings a member of another Region, since the ping carries
  that member's Region as the sender's (`regions_right`);
* a ping or pong that reaches an engine before it knows the sender, since neither
  carries an address (`addrs_right_iff`);
* a `Meet` that reaches an engine whose own digest the sender never had, since
  that digest is filed for the sender (`digests_right_iff`).
-/

namespace HierKvGateway

namespace GossipNetwork

variable {F : Fleet} {s : GossipNetwork} {l : Label}

/-! ## Regions -/

/-- Every record carries the Region of the instance it is about. -/
def RegionsRight (F : Fleet) (s : GossipNetwork) : Prop :=
  ∀ i X m, (s.members i).get X = some m → m.region = (F.engine X).selfRegion

/-- So does every message on its way. -/
def SignaturesRight (F : Fleet) (s : GossipNetwork) : Prop :=
  ∀ p ∈ s.net, ∀ own c, p.msg.contact own = some c → c.region = (F.engine c.sender).selfRegion

/-- The members a gossip tick pings are recorded with the Region of the engine. -/
def PingsOwnRegion (F : Fleet) (_ : GossipNetwork) : Label → Prop
  | .gossip i chosen _ =>
    ∀ m ∈ chosen.take (F.engine i).fanout, m.region = (F.engine i).selfRegion
  | _ => True

theorem SignaturesRight.contact (h : SignaturesRight F s) {i : InstanceId} {n : Nat} {c : Contact}
    (hc : c ∈ s.contactAt i n) : c.region = (F.engine c.sender).selfRegion := by
  rcases Option.bind_eq_some_iff.1 hc with ⟨p, hp, hcontact⟩
  exact h p (List.mem_of_getElem? hp) _ c hcontact

theorem regionsRight_step (hregions : RegionsRight F s) (hsigned : SignaturesRight F s) :
    RegionsRight F (update F l s) := by
  intro i X m hm
  rcases record_step hm with ⟨m₀, hm₀, hkept⟩ | ⟨hX, hrec⟩
  · rw [← hkept.region]
    exact hregions i X m₀ hm₀
  · subst hX
    cases hrec with
    | self now =>
      show (F.engine i).selfRegion = (F.engine (F.engine i).selfId).selfRegion
      rw [F.selfId]
    | heard hc _ => exact hsigned.contact hc

/-- Pongs, meets and broadcast pings are signed with the engine's own Region; a
gossip ping is if the members pinged share it. -/
theorem signaturesRight_step (hsigned : SignaturesRight F s) (hl : PingsOwnRegion F s l) :
    SignaturesRight F (update F l s) := by
  intro p hp own c hc
  rcases packet_step hp with hp | hsent
  · exact hsigned p hp own c hc
  · cases hsent with
    | meet i target =>
      rcases hc with ⟨⟩
      rfl
    | syncRequest => exact nomatch hc
    | gossip hm =>
      rcases hc with ⟨⟩
      -- the ping bears the Region of the member it goes to
      exact hl _ hm
    | reply _ hreply =>
      cases hreply with
      | pong | ping =>
        rcases hc with ⟨⟩
        show (F.engine _).selfRegion = (F.engine (F.engine _).selfId).selfRegion
        rw [F.selfId]
      | syncResponse => exact nomatch hc

/-- As long as every gossip tick pings only members recorded with the engine's own
Region, every record carries the Region of the instance it is about. -/
theorem regions_right (F : Fleet) :
    ∀ s, ((system F).restrict (PingsOwnRegion F)).Reachable s → RegionsRight F s := by
  intro s hs
  -- records are right if the messages on their way are signed right
  have hinv : RegionsRight F s ∧ SignaturesRight F s := by
    refine Lts.invariant (S := (system F).restrict (PingsOwnRegion F))
      (P := fun s => RegionsRight F s ∧ SignaturesRight F s) ?_ ?_ s hs
    · intro s h
      constructor
      · intro i X m hm
        rw [h.members i] at hm
        exact nomatch hm
      · intro p hp
        rw [h.net] at hp
        exact nomatch hp
    · intro s l h hg
      exact ⟨regionsRight_step h.1 h.2, signaturesRight_step h.2 hg.2⟩
  exact hinv.1

/-- Two engines, in two Regions; no others have an address. -/
def twoRegions : Fleet where
  engine i :=
    { selfId := i
      selfRegion := if i = ⟨"a"⟩ then ⟨"r1"⟩ else ⟨"r2"⟩
      selfAddr :=
        if i = ⟨"a"⟩ then "10.0.0.1:7946" else if i = ⟨"b"⟩ then "10.0.0.2:7946" else ""
      config := ⟨3, 1000, 10⟩ }
  selfId _ := rfl

/-- Two engines start, and the second receives a `Meet` of the first. -/
def join : List Label :=
  [.start ⟨"a"⟩ 0, .start ⟨"b"⟩ 0, .meet ⟨"a"⟩ "10.0.0.2:7946", .deliver ⟨"b"⟩ 0 1]

theorem regions_right_join : RegionsRight twoRegions ((system twoRegions).run new join) := by
  refine regions_right twoRegions _ (.run (.init initial_new) (Lts.enabled_restrict.2 ⟨?_, ?_⟩))
  · decide +kernel
  · exact ⟨trivial, trivial, trivial, trivial, trivial⟩

/-- The second engine pings the first, which files its own Region for it. -/
def joinAndPing : List Label :=
  join ++ [.gossip ⟨"b"⟩ [⟨⟨"a"⟩, ⟨"r1"⟩, "10.0.0.1:7946", 1, .alive, .default⟩] 2,
    .deliver ⟨"a"⟩ 2 3]

theorem not_regionsRight_joinAndPing :
    ¬ ∀ s, (system twoRegions).Reachable s → RegionsRight twoRegions s := by
  intro h
  have hreach : (system twoRegions).Reachable ((system twoRegions).run new joinAndPing) := by
    refine .run (.init initial_new) ?_
    decide +kernel
  have hregion : (((system twoRegions).run new joinAndPing).members ⟨"a"⟩).get ⟨"b"⟩ =
      some ⟨⟨"b"⟩, ⟨"r1"⟩, "", 3, .alive, .default⟩ := by
    decide +kernel
  exact absurd (h _ hreach _ _ _ hregion) (by decide)

/-! ## Addresses -/

/-- Every record about another instance carries the address it advertises, which
is not the empty one. -/
def AddrsRight (F : Fleet) (s : GossipNetwork) : Prop :=
  ∀ i X m, X ≠ i → (s.members i).get X = some m → m.addr = (F.engine X).selfAddr ∧ m.addr ≠ ""

/-- Whoever pings or pongs an engine is known to it. -/
def Introduced (s : GossipNetwork) : Label → Prop
  | .deliver i n _ =>
    ∀ c ∈ s.contactAt i n, c.sender ≠ i → c.addr = none → (s.members i).get c.sender ≠ none
  | _ => True

/-- The addresses in messages are the ones their senders listen at. -/
structure Reachability (F : Fleet) (s : GossipNetwork) : Prop where
  bound : ∀ i, s.running i = true → (F.engine i).selfAddr ≠ ""
  meets : ∀ p ∈ s.net, ∀ own c addr, p.msg.contact own = some c → c.addr = some addr →
    addr = (F.engine c.sender).selfAddr ∧ addr ≠ ""

theorem Reachability.initial (h : Initial s) : Reachability F s where
  bound i hi := by
    rw [h.running i] at hi
    exact nomatch hi
  meets p hp := by
    rw [h.net] at hp
    exact nomatch hp

/-- Only a start changes who is running, and it binds the address. -/
theorem bound_step (h : ∀ i, s.running i = true → (F.engine i).selfAddr ≠ "")
    (hg : guard F l s) : ∀ i, (update F l s).running i = true → (F.engine i).selfAddr ≠ "" := by
  intro i hi
  cases l with
  | start j now =>
    by_cases hj : i = j
    · rw [hj]
      exact hg.2
    · have hkept : (update F (.start j now) s).running i = s.running i :=
        Function.update_of_ne hj _ _
      exact h i (hkept ▸ hi)
  | deliver j n now =>
    rw [update, deliver] at hi
    split at hi
    · exact h i hi
    · exact h i hi
  | store | meet | requestSync | gossip | probe | lose | duplicate => exact h i hi

theorem Reachability.step (h : Reachability F s) (hg : guard F l s) :
    Reachability F (update F l s) where
  bound := bound_step h.bound hg
  meets := by
    intro p hp own c addr hc haddr
    rcases packet_step hp with hp | hsent
    · exact h.meets p hp own c addr hc haddr
    · cases hsent with
      | meet i target =>
        rcases hc with ⟨⟩
        rcases haddr with ⟨⟩
        -- a `Meet` advertises the address its sender has bound
        exact ⟨rfl, h.bound i hg⟩
      | syncRequest => exact nomatch hc
      | gossip hm =>
        rcases hc with ⟨⟩
        exact nomatch haddr
      | reply _ hreply =>
        cases hreply with
        | pong | ping =>
          rcases hc with ⟨⟩
          exact nomatch haddr
        | syncResponse => exact nomatch hc

theorem Reachability.contact (h : Reachability F s) {i : InstanceId} {n : Nat} {c : Contact}
    {addr : String} (hc : c ∈ s.contactAt i n) (haddr : c.addr = some addr) :
    addr = (F.engine c.sender).selfAddr ∧ addr ≠ "" := by
  rcases Option.bind_eq_some_iff.1 hc with ⟨p, hp, hcontact⟩
  exact h.meets p (List.mem_of_getElem? hp) _ c addr hcontact haddr

/-- A step keeps the addresses right exactly when it is not a ping or pong of a
stranger. -/
theorem addrsRight_step_iff (hreach : Reachability F s) (haddrs : AddrsRight F s) :
    AddrsRight F (update F l s) ↔ Introduced s l := by
  constructor
  · intro hright
    cases l with
    | deliver i n now =>
      intro c hc hne haddr hunknown
      -- the new record has the empty address
      have hrecord := hright i c.sender _ hne (get_deliver (F := F) hc hne now)
      have hempty : ((s.members i).heard c now).addr = "" := by
        show c.addr.getD ((s.members i).addrOf c.sender) = ""
        rw [haddr, Option.getD_none, MemberList.addrOf, hunknown]
        rfl
      exact hrecord.2 hempty
    | start | store | meet | requestSync | gossip | probe | lose | duplicate => trivial
  · intro hintro i X m hne hm
    rcases record_step hm with ⟨m₀, hm₀, hkept⟩ | ⟨hX, hrec⟩
    · rw [← hkept.addr]
      exact haddrs i X m₀ hne hm₀
    · subst hX
      cases hrec with
      | self now => exact absurd (F.selfId i) hne
      | @heard n now c hc hsender =>
        show c.addr.getD ((s.members i).addrOf c.sender) = (F.engine c.sender).selfAddr ∧
          c.addr.getD ((s.members i).addrOf c.sender) ≠ ""
        cases haddr : c.addr with
        | some addr => exact hreach.contact hc haddr
        | none =>
          rcases Option.ne_none_iff_exists'.1 (hintro c hc hsender haddr) with ⟨m₀, hm₀⟩
          rw [Option.getD_none, MemberList.addrOf, hm₀]
          exact haddrs i c.sender m₀ hsender hm₀

/-- The addresses of all records are right throughout a run exactly when every
ping or pong reaches an engine that knows its sender. -/
theorem addrs_right_iff (F : Fleet) (s : GossipNetwork) (hs : Initial s) (ls : List Label)
    (hls : (system F).Enabled s ls) :
    Run.All (fun s l => (system F).update l s) (AddrsRight F) s ls ↔
      Run.Each (fun s l => (system F).update l s) Introduced s ls := by
  refine Run.all_iff_each (J := Reachability F) (D := fun s l => (system F).guard l s)
    (fun s l hreach hg => hreach.step hg) (fun s l hreach _ h => addrsRight_step_iff hreach h)
    (.initial hs) ?_ hls
  intro i X m _ hm
  rw [hs.members i] at hm
  exact nomatch hm

instance (s : GossipNetwork) : ∀ l, Decidable (Introduced s l)
  | .deliver i n _ =>
    inferInstanceAs (Decidable (∀ c ∈ s.contactAt i n, c.sender ≠ i → c.addr = none →
      (s.members i).get c.sender ≠ none))
  | .start _ _ | .store _ _ | .meet _ _ | .requestSync _ _ _ | .gossip _ _ _ | .probe _ _
  | .lose _ | .duplicate _ => .isTrue trivial

theorem addrs_right_iff_join :
    Run.All (fun s l => (system twoRegions).update l s) (AddrsRight twoRegions) new join :=
  (addrs_right_iff twoRegions new initial_new join (by decide +kernel)).2 (by decide +kernel)

/-- The pong that answers the `Meet` is the first the newcomer hears of the
other engine. -/
def joinAndPong : List Label := join ++ [.deliver ⟨"a"⟩ 0 2]

theorem not_addrsRight_joinAndPong :
    ¬ ∀ s, (system twoRegions).Reachable s → AddrsRight twoRegions s := by
  intro h
  have hreach : (system twoRegions).Reachable ((system twoRegions).run new joinAndPong) := by
    refine .run (.init initial_new) ?_
    decide +kernel
  have haddr : (((system twoRegions).run new joinAndPong).members ⟨"a"⟩).get ⟨"b"⟩ =
      some ⟨⟨"b"⟩, ⟨"r2"⟩, "", 2, .alive, .default⟩ := by
    decide +kernel
  exact (h _ hreach _ _ _ (by decide) haddr).2 rfl

/-! ## Digests -/

/-- Every record about another instance carries a digest that instance has had. -/
def DigestsRight (s : GossipNetwork) : Prop :=
  ∀ i X m, X ≠ i → (s.members i).get X = some m → m.metaDigest ∈ s.had X

/-- Whoever meets an engine has had the engine's digest itself. -/
def MeetsAtOwnDigest (s : GossipNetwork) : Label → Prop
  | .deliver i n _ =>
    ∀ c ∈ s.contactAt i n, c.sender ≠ i → c.addr ≠ none →
      (s.handler i).currentMetaDigest ∈ s.had c.sender
  | _ => True

/-- A handler's digest is on record, and so is the digest of every ping and pong. -/
structure Provenance (s : GossipNetwork) : Prop where
  current : ∀ i, (s.handler i).currentMetaDigest ∈ s.had i
  net : ∀ p ∈ s.net, ∀ own c, p.msg.contact own = some c → c.addr = none → c.digest ∈ s.had c.sender

theorem Provenance.initial (h : Initial s) : Provenance s where
  current i := by
    rw [h.digest i, h.had i]
    exact List.mem_singleton_self _
  net p hp := by
    rw [h.net] at hp
    exact nomatch hp

/-- What an instance has had it has had for ever. -/
theorem had_step {X : InstanceId} {d : MetaDigest} (h : d ∈ s.had X) :
    d ∈ (update F l s).had X := by
  cases l with
  | store j handler =>
    by_cases hj : X = j
    · subst hj
      -- the new digest comes on top of the old ones
      have hself : (update F (.store X handler) s).had X =
          handler.currentMetaDigest :: s.had X := Function.update_self _ _ _
      rw [hself]
      exact List.mem_cons_of_mem _ h
    · have hkept : (update F (.store j handler) s).had X = s.had X := Function.update_of_ne hj _ _
      rw [hkept]
      exact h
  | deliver j n now =>
    rw [update, deliver]
    split
    · exact h
    · exact h
  | start | meet | requestSync | gossip | probe | lose | duplicate => exact h

theorem current_step (h : ∀ i, (s.handler i).currentMetaDigest ∈ s.had i) (i : InstanceId) :
    ((update F l s).handler i).currentMetaDigest ∈ (update F l s).had i := by
  cases l with
  | store j handler =>
    by_cases hj : i = j
    · subst hj
      have hhandler : (update F (.store i handler) s).handler i = handler :=
        Function.update_self _ _ _
      have hhad : (update F (.store i handler) s).had i =
          handler.currentMetaDigest :: s.had i := Function.update_self _ _ _
      rw [hhandler, hhad]
      exact List.mem_cons_self
    · have hhandler : (update F (.store j handler) s).handler i = s.handler i :=
        Function.update_of_ne hj _ _
      rw [hhandler]
      exact had_step (h i)
  | deliver j n now =>
    rw [update, deliver]
    split
    · exact h i
    · exact h i
  | start | meet | requestSync | gossip | probe | lose | duplicate => exact h i

theorem Provenance.step (h : Provenance s) : Provenance (update F l s) where
  current := current_step h.current
  net := by
    intro p hp own c hc haddr
    rcases packet_step hp with hp | hsent
    · exact had_step (h.net p hp own c hc haddr)
    · -- whatever is sent carries the sender's digest of the moment
      apply had_step
      cases hsent with
      | meet i target =>
        rcases hc with ⟨⟩
        exact nomatch haddr
      | syncRequest => exact nomatch hc
      | gossip hm =>
        rcases hc with ⟨⟩
        exact h.current _
      | reply _ hreply =>
        cases hreply with
        | pong | ping =>
          rcases hc with ⟨⟩
          show _ ∈ s.had (F.engine _).selfId
          rw [F.selfId]
          exact h.current _
        | syncResponse => exact nomatch hc

/-- A `Meet` is read with the receiver's digest. -/
theorem digest_of_addr {own : MetaDigest} {msg : GossipMessage} {c : Contact}
    (hc : msg.contact own = some c) (haddr : c.addr ≠ none) : c.digest = own := by
  cases msg with
  | ping | pong =>
    rcases hc with ⟨⟩
    exact absurd rfl haddr
  | meet =>
    rcases hc with ⟨⟩
    rfl
  | syncRequest | syncResponse | ckf | metricsBroadcast | topologyUpdate
  | sessionAffinityBroadcast => exact nomatch hc

theorem Provenance.contact (h : Provenance s) {i : InstanceId} {n : Nat} {c : Contact}
    (hc : c ∈ s.contactAt i n) :
    (c.addr = none → c.digest ∈ s.had c.sender) ∧
      (c.addr ≠ none → c.digest = (s.handler i).currentMetaDigest) := by
  rcases Option.bind_eq_some_iff.1 hc with ⟨p, hp, hcontact⟩
  exact ⟨h.net p (List.mem_of_getElem? hp) _ c hcontact, digest_of_addr hcontact⟩

/-- A step keeps the digests right exactly when it is not a `Meet` from an
instance that never had the receiver's digest. -/
theorem digestsRight_step_iff (hprov : Provenance s) (hdigests : DigestsRight s) :
    DigestsRight (update F l s) ↔ MeetsAtOwnDigest s l := by
  constructor
  · intro hright
    cases l with
    | deliver i n now =>
      intro c hc hne haddr
      -- the record just written bears the digest in question
      have hrecord := hright i c.sender _ hne (get_deliver (F := F) hc hne now)
      have hhad : (update F (.deliver i n now) s).had = s.had := by
        rw [update, deliver]
        split
        · rfl
        · rfl
      rw [hhad] at hrecord
      rw [← (hprov.contact hc).2 haddr]
      exact hrecord
    | start | store | meet | requestSync | gossip | probe | lose | duplicate => trivial
  · intro hmeets i X m hne hm
    apply had_step
    rcases record_step hm with ⟨m₀, hm₀, hkept⟩ | ⟨hX, hrec⟩
    · rw [← hkept.metaDigest]
      exact hdigests i X m₀ hne hm₀
    · subst hX
      cases hrec with
      | self now => exact absurd (F.selfId i) hne
      | @heard n now c hc hsender =>
        show c.digest ∈ s.had c.sender
        by_cases haddr : c.addr = none
        · exact (hprov.contact hc).1 haddr
        · rw [(hprov.contact hc).2 haddr]
          exact hmeets c hc hsender haddr

/-- Every record carries a digest its instance has had, throughout a run, exactly
when every `Meet` reaches an engine whose digest the sender has had. -/
theorem digests_right_iff (F : Fleet) (s : GossipNetwork) (hs : Initial s) (ls : List Label)
    (hls : (system F).Enabled s ls) :
    Run.All (fun s l => (system F).update l s) DigestsRight s ls ↔
      Run.Each (fun s l => (system F).update l s) MeetsAtOwnDigest s ls := by
  refine Run.all_iff_each (J := Provenance) (D := fun s l => (system F).guard l s)
    (fun s l hprov _ => hprov.step) (fun s l hprov _ h => digestsRight_step_iff hprov h)
    (.initial hs) ?_ hls
  intro i X m _ hm
  rw [hs.members i] at hm
  exact nomatch hm

instance (s : GossipNetwork) : ∀ l, Decidable (MeetsAtOwnDigest s l)
  | .deliver i n _ =>
    inferInstanceAs (Decidable (∀ c ∈ s.contactAt i n, c.sender ≠ i → c.addr ≠ none →
      (s.handler i).currentMetaDigest ∈ s.had c.sender))
  | .start _ _ | .store _ _ | .meet _ _ | .requestSync _ _ _ | .gossip _ _ _ | .probe _ _
  | .lose _ | .duplicate _ => .isTrue trivial

theorem digests_right_iff_join :
    Run.All (fun s l => (system twoRegions).update l s) DigestsRight new join :=
  (digests_right_iff twoRegions new initial_new join (by decide +kernel)).2 (by decide +kernel)

/-- The second engine has metadata when the first, which has none, meets it. -/
def joinLate : List Label :=
  [.start ⟨"a"⟩ 0, .start ⟨"b"⟩ 0, .store ⟨"b"⟩ ⟨⟨5, 0, 2, 0, 0⟩, fun _ => []⟩,
    .meet ⟨"a"⟩ "10.0.0.2:7946", .deliver ⟨"b"⟩ 0 1]

theorem not_digestsRight_joinLate :
    ¬ ∀ s, (system twoRegions).Reachable s → DigestsRight s := by
  intro h
  have hreach : (system twoRegions).Reachable ((system twoRegions).run new joinLate) := by
    refine .run (.init initial_new) ?_
    decide +kernel
  have hdigest : (((system twoRegions).run new joinLate).members ⟨"b"⟩).get ⟨"a"⟩ =
      some ⟨⟨"a"⟩, ⟨"r1"⟩, "10.0.0.1:7946", 1, .alive, ⟨5, 0, 2, 0, 0⟩⟩ := by
    decide +kernel
  have hhad : ((system twoRegions).run new joinLate).had ⟨"a"⟩ = [.default] := by
    decide +kernel
  have hmem := h _ hreach _ _ _ (by decide) hdigest
  rw [hhad] at hmem
  exact absurd hmem (by decide)

end GossipNetwork

end HierKvGateway
