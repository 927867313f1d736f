import HierKvGateway.Cluster.MemberView
import Mathlib.Data.Finset.Prod

/-!
# Cluster.Repair — after a partition

Gossip and broadcast go to members thought to be alive, and only a message from
an instance brings its record back to life. So two engines find each other again
exactly when one of them still lists the other as alive or a message of one is on
its way to the other (`Linked`):

* from a linked pair, a gossip tick and a delivery or two repair the pair, and
  they break no other link (`exists_lists`);
* an unlinked pair stays unlinked whatever ticks and deliveries follow
  (`linked_of_run`).
-/

namespace HierKvGateway

namespace GossipNetwork

variable {F : Fleet} {s : GossipNetwork} {l : Label} {i j X : InstanceId} {m : ClusterMember}

/-- What the engines do by themselves, from the time `t` on: ticks and deliveries. -/
def OwnStep (t : Nat) (_ : GossipNetwork) : Label → Prop
  | .gossip _ _ now => t ≤ now
  | .probe _ now => t ≤ now
  | .deliver _ _ now => t ≤ now
  | _ => False

/-- Own steps that demote nobody. -/
def Quiet (t : Nat) (_ : GossipNetwork) : Label → Prop
  | .gossip _ _ now => t ≤ now
  | .deliver _ _ now => t ≤ now
  | _ => False

theorem Quiet.ownStep {t : Nat} (h : Quiet t s l) : OwnStep t s l := by
  cases l with
  | gossip | deliver => exact h
  | start | store | meet | requestSync | probe | lose | duplicate => exact nomatch h

/-- `i` lists `j` as alive. -/
def Lists (s : GossipNetwork) (i j : InstanceId) : Prop :=
  ∃ m, (s.members i).get j = some m ∧ m.status = .alive

/-- A ping, pong or meet of `i` is on its way to `j`. -/
def Approaching (F : Fleet) (s : GossipNetwork) (i j : InstanceId) : Prop :=
  ∃ p ∈ s.net, p.target = (F.engine j).selfAddr ∧ p.msg.contactSender = some i

/-- Two engines are not lost to each other. -/
structure Linked (F : Fleet) (s : GossipNetwork) (i j : InstanceId) : Prop where
  some_way : Lists s i j ∨ Lists s j i ∨ Approaching F s i j ∨ Approaching F s j i

/-- The engines of `N` run and know each other with correct addresses. -/
structure Acquainted (F : Fleet) (N : Finset InstanceId) (s : GossipNetwork) : Prop where
  running : ∀ i ∈ N, s.running i = true
  known : ∀ i ∈ N, ∀ j ∈ N, i ≠ j →
    ∃ m, (s.members i).get j = some m ∧ m.addr = (F.engine j).selfAddr

/-- Every engine of `N` lists every other one as alive. -/
def AllAlive (N : Finset InstanceId) (s : GossipNetwork) : Prop :=
  ∀ i ∈ N, ∀ j ∈ N, i ≠ j → Lists s i j

/-- Nobody else has the address of an engine of `N`. -/
def DistinctAddrs (F : Fleet) (N : Finset InstanceId) : Prop :=
  ∀ i ∈ N, ∀ X, (F.engine X).selfAddr = (F.engine i).selfAddr → X = i

/-! ## Addresses in every reachable state -/

theorem reachability_of_reachable (hs : (system F).Reachable s) : Reachability F s :=
  Lts.invariant (S := system F) (P := Reachability F) (fun _ h => .initial h)
    (fun _ _ h hg => h.step hg) s hs

/-- A record has the address its instance advertises, or none. -/
def AddrsKnown (F : Fleet) (s : GossipNetwork) : Prop :=
  ∀ i X m, X ≠ i → (s.members i).get X = some m → m.addr = (F.engine X).selfAddr ∨ m.addr = ""

theorem addr_of_heard (hreach : Reachability F s) (haddrs : AddrsKnown F s) {n now : Nat}
    {c : Contact} (hc : c ∈ s.contactAt i n) (hne : c.sender ≠ i) :
    ((s.members i).heard c now).addr = (F.engine c.sender).selfAddr ∨
      ((s.members i).heard c now).addr = "" := by
  show c.addr.getD ((s.members i).addrOf c.sender) = _ ∨
    c.addr.getD ((s.members i).addrOf c.sender) = _
  cases haddr : c.addr with
  | some addr => exact .inl (hreach.contact hc haddr).1
  | none =>
    rw [Option.getD_none, MemberList.addrOf]
    cases hm : (s.members i).get c.sender with
    | none => exact .inr rfl
    | some m => exact haddrs i c.sender m hne hm

theorem addrsKnown_of_reachable (hs : (system F).Reachable s) : AddrsKnown F s := by
  induction hs with
  | init h =>
    intro i X m _ hm
    rw [h.members i] at hm
    exact nomatch hm
  | @step s l hs hg ih =>
    intro i X m hne hm
    rcases record_step hm with ⟨m₀, hm₀, hkept⟩ | ⟨hX, hrec⟩
    · rw [← hkept.addr]
      exact ih i X m₀ hne hm₀
    · subst hX
      cases hrec with
      | self now => exact absurd (F.selfId i) hne
      | heard hc hsender => exact addr_of_heard (reachability_of_reachable hs) ih hc hsender

/-! ## An unlinked pair stays unlinked -/

section Unlinked

variable {N : Finset InstanceId} {t : Nat}

/-- A message that reaches `j`'s address was meant for `j`. -/
theorem eq_of_addr (hN : DistinctAddrs F N) (hreach : Reachability F s) (hj : j ∈ N)
    (hrun : s.running j = true) (haddr : m.addr = (F.engine X).selfAddr ∨ m.addr = "")
    (htarget : m.addr = (F.engine j).selfAddr) : X = j := by
  rcases haddr with haddr | haddr
  · exact hN j hj X (haddr.symm.trans htarget)
  · exact absurd (htarget.symm.trans haddr) (hreach.bound j hrun)

theorem lists_of_step (hown : OwnStep t s l) (hg : guard F l s)
    (h : Lists (update F l s) i j) : Lists s i j ∨ Approaching F s j i := by
  rcases h with ⟨m, hm, halive⟩
  rcases record_step hm with ⟨m₀, hm₀, hkept⟩ | ⟨hX, hrec⟩
  · exact .inl ⟨m₀, hm₀, hkept.alive halive⟩
  · cases hrec with
    | self now => exact nomatch hown
    | @heard n now c hc hsender =>
      -- `j` is alive again because of the message delivered
      rcases Option.bind_eq_some_iff.1 hc with ⟨p, hp, hcontact⟩
      refine .inr ⟨p, List.mem_of_getElem? hp, ?_, ?_⟩
      · have htarget := hg.2
        rw [hp, Option.map_some] at htarget
        exact Option.some.inj htarget
      · rw [GossipMessage.contactSender_of_contact hcontact]
        exact congrArg some hX

/-- Whoever is heard, and found at `j`'s address, is `j`; its message was on its way. -/
theorem approaching_of_heard (hN : DistinctAddrs F N) (hs : (system F).Reachable s) (hj : j ∈ N)
    (hrun : s.running j = true) {k : InstanceId} {n now : Nat} {p : Packet} {c : Contact}
    (hg : guard F (.deliver k n now) s) (hp : s.net[n]? = some p)
    (hc : p.msg.contact (s.handler k).currentMetaDigest = some c) (hne : c.sender ≠ k)
    (haddr : ((s.members k).heard c now).addr = (F.engine j).selfAddr) :
    Approaching F s j k := by
  have hreach := reachability_of_reachable hs
  have hat : c ∈ s.contactAt k n := Option.bind_eq_some_iff.2 ⟨p, hp, hc⟩
  have hcj : c.sender = j :=
    eq_of_addr hN hreach hj hrun (addr_of_heard hreach (addrsKnown_of_reachable hs) hat hne) haddr
  refine ⟨p, List.mem_of_getElem? hp, ?_, ?_⟩
  · have htarget := hg.2
    rw [hp, Option.map_some] at htarget
    exact Option.some.inj htarget
  · rw [GossipMessage.contactSender_of_contact hc, hcj]

/-- A message from `i` to `j`'s address is sent because `i` lists `j` as alive, or in
reply to one from `j`. -/
theorem approaching_of_step (hN : DistinctAddrs F N) (hs : (system F).Reachable s)
    (hrun : s.running j = true) (hown : OwnStep t s l) (hg : guard F l s) (hj : j ∈ N)
    (h : Approaching F (update F l s) i j) :
    Lists s i j ∨ Approaching F s i j ∨ Approaching F s j i := by
  have hreach := reachability_of_reachable hs
  have haddrs := addrsKnown_of_reachable hs
  rcases h with ⟨p, hp, htarget, hsender⟩
  rcases packet_step hp with hp | hsent
  · exact .inr (.inl ⟨p, hp, htarget, hsender⟩)
  · cases hsent with
    | meet => exact nomatch hown
    | syncRequest => exact nomatch hsender
    | @gossip k chosen now m hm =>
      have hk : k = i := Option.some.inj hsender
      subst hk
      have hcand : m ∈ (F.engine k).candidates (s.members k) :=
        hg.2.mem_iff.1 (List.mem_of_mem_take hm)
      rw [GossipEngine.candidates, List.mem_filter, MemberList.mem_aliveMembers, F.selfId,
        decide_eq_true_eq] at hcand
      rcases hcand with ⟨⟨hget, halive⟩, hself⟩
      have hX := eq_of_addr hN hreach hj hrun (haddrs k _ m hself hget) htarget
      exact .inl ⟨m, hX ▸ hget, halive⟩
    | @reply k n now p₀ _ hp₀ hreply =>
      -- a reply goes to whom the delivered message is from, or to a member alive before
      cases hreply with
      | @pong c m hc hself hm =>
        have hk : (F.engine k).selfId = i := Option.some.inj hsender
        rw [F.selfId] at hk hself
        subst hk
        rw [MemberList.get_upsert_heard] at hm
        rcases Option.some.inj hm with rfl
        exact .inr (.inr (approaching_of_heard hN hs hj hrun hg hp₀ hc hself htarget))
      | @ping c m hc hself hm hmself =>
        have hk : (F.engine k).selfId = i := Option.some.inj hsender
        rw [F.selfId] at hk hself hmself
        subst hk
        rw [MemberList.mem_aliveMembers, MemberList.get_upsert] at hm
        rcases hm with ⟨hget, halive⟩
        split at hget
        · rcases Option.some.inj hget with rfl
          exact .inr (.inr (approaching_of_heard hN hs hj hrun hg hp₀ hc hself htarget))
        · have hX := eq_of_addr hN hreach hj hrun (haddrs k _ m hmself hget) htarget
          exact .inl ⟨m, hX ▸ hget, halive⟩
      | syncResponse => exact nomatch hsender

/-- Ticks and deliveries link nobody who was not linked. -/
theorem linked_of_step (hN : DistinctAddrs F N) (hs : (system F).Reachable s)
    (hrun : ∀ i ∈ N, s.running i = true) (hown : OwnStep t s l) (hg : guard F l s)
    (hi : i ∈ N) (hj : j ∈ N) (h : Linked F (update F l s) i j) :
    Linked F s i j := by
  constructor
  rcases h.some_way with h | h | h | h
  · rcases lists_of_step hown hg h with h | h
    · exact .inl h
    · exact .inr (.inr (.inr h))
  · rcases lists_of_step hown hg h with h | h
    · exact .inr (.inl h)
    · exact .inr (.inr (.inl h))
  · rcases approaching_of_step hN hs (hrun j hj) hown hg hj h with h | h | h
    · exact .inl h
    · exact .inr (.inr (.inl h))
    · exact .inr (.inr (.inr h))
  · rcases approaching_of_step hN hs (hrun i hi) hown hg hi h with h | h | h
    · exact .inr (.inl h)
    · exact .inr (.inr (.inr h))
    · exact .inr (.inr (.inl h))

theorem running_step (hrun : ∀ i ∈ N, s.running i = true) (hg : guard F l s) :
    ∀ i ∈ N, (update F l s).running i = true := by
  intro i hi
  cases l with
  | start k now =>
    by_cases hk : i = k
    · subst hk
      exact Function.update_self _ _ _
    · have hkept : (update F (.start k now) s).running i = s.running i :=
        Function.update_of_ne hk _ _
      rw [hkept]
      exact hrun i hi
  | deliver k n now =>
    rw [update, deliver]
    split
    · exact hrun i hi
    · exact hrun i hi
  | store | meet | requestSync | gossip | probe | lose | duplicate => exact hrun i hi

/-- Nor do any number of them. -/
theorem linked_of_run (hN : DistinctAddrs F N) (hs : (system F).Reachable s)
    (hrun : ∀ i ∈ N, s.running i = true) {ls : List Label}
    (hls : ((system F).restrict (OwnStep t)).Enabled s ls) (hi : i ∈ N) (hj : j ∈ N)
    (h : Linked F ((system F).run s ls) i j) : Linked F s i j := by
  by_contra hunlinked
  have hend := Lts.Enabled.invariant (S := (system F).restrict (OwnStep t))
    (P := fun s => (system F).Reachable s ∧ (∀ i ∈ N, s.running i = true) ∧ ¬ Linked F s i j)
    (fun s l hinv hg => ⟨.step l hinv.1 hg.1, running_step hinv.2.1 hg.1,
      fun hl => hinv.2.2 (linked_of_step hN hinv.1 hinv.2.1 hg.2 hg.1 hi hj hl)⟩)
    ⟨hs, hrun, hunlinked⟩ hls
  exact hend.2.2 h

end Unlinked

/-! ## A linked pair can be repaired -/

section Repair

variable {N : Finset InstanceId} {t : Nat}

/-- Nobody is forgotten. -/
theorem get_step_ne_none (h : (s.members i).get X ≠ none) :
    ((update F l s).members i).get X ≠ none := by
  have hupsert : ∀ m', ((s.members i).upsert m').get X ≠ none := by
    intro m'
    rw [MemberList.get_upsert]
    split
    · exact Option.some_ne_none _
    · exact h
  have hstep := list_step F s l i
  generalize (update F l s).members i = list at hstep ⊢
  cases hstep with
  | same => exact h
  | started now => exact hupsert _
  | probed now =>
    rw [GossipEngine.get_probeScan]
    intro hnone
    exact h (Option.map_eq_none_iff.1 hnone)
  | heard hc hne => exact hupsert _

theorem Acquainted.step (hs : (system F).Reachable s) (h : Acquainted F N s) (hg : guard F l s) :
    Acquainted F N (update F l s) where
  running := running_step h.running hg
  known := by
    intro i hi j hj hne
    rcases h.known i hi j hj hne with ⟨m, hm, haddr⟩
    have hsome : ((update F l s).members i).get j ≠ none :=
      get_step_ne_none (by rw [hm]; exact Option.some_ne_none m)
    rcases Option.ne_none_iff_exists'.1 hsome with ⟨m', hm'⟩
    refine ⟨m', hm', ?_⟩
    rcases record_step hm' with ⟨m₀, hm₀, hkept⟩ | ⟨hX, hrec⟩
    · rw [← hkept.addr, ← haddr]
      rw [hm] at hm₀
      exact congrArg _ (Option.some.inj hm₀).symm
    · cases hrec with
      | self now =>
        have hij : i = j := (F.selfId i).symm.trans hX
        exact absurd hij hne
      | @heard n now c hc hsender =>
        -- a `Meet` brings the address, anything else keeps the one on record
        have hcj : c.sender = j := hX
        subst hcj
        show c.addr.getD ((s.members i).addrOf c.sender) = _
        cases hca : c.addr with
        | some addr => exact ((reachability_of_reachable hs).contact hc hca).1
        | none =>
          rw [Option.getD_none, MemberList.addrOf, hm]
          exact haddr

/-- Gossip and deliveries demote nobody. -/
theorem lists_quiet_step (hq : Quiet t s l) (h : Lists s i j) : Lists (update F l s) i j := by
  rcases h with ⟨m, hm, halive⟩
  have hstep := list_step F s l i
  unfold Lists
  generalize (update F l s).members i = list at hstep ⊢
  cases hstep with
  | same => exact ⟨m, hm, halive⟩
  | started now => exact absurd hq id
  | probed now => exact absurd hq id
  | heard hc hne =>
    rw [MemberList.get_upsert]
    split
    · exact ⟨_, rfl, rfl⟩
    · exact ⟨m, hm, halive⟩

/-- A message that arrives brings its sender back to life. -/
theorem lists_of_deliver {p : Packet} {n : Nat} (hp : s.net[n]? = some p)
    (hsender : p.msg.contactSender = some i) (hne : i ≠ j) (now : Nat) :
    Lists (update F (.deliver j n now) s) j i := by
  rcases GossipMessage.exists_contact hsender (s.handler j).currentMetaDigest with ⟨c, hc, rfl⟩
  have hat : c ∈ s.contactAt j n := Option.bind_eq_some_iff.2 ⟨p, hp, hc⟩
  exact ⟨_, get_deliver hat hne now, rfl⟩

/-- A message on its way stays so until it has arrived. -/
theorem approaching_quiet_step (hN : DistinctAddrs F N) (hj : j ∈ N) (hne : i ≠ j)
    (hq : Quiet t s l) (hg : guard F l s) (h : Approaching F s i j) :
    Approaching F (update F l s) i j ∨ Lists (update F l s) j i := by
  rcases h with ⟨p, hp, htarget, hsender⟩
  cases l with
  | gossip => exact .inl ⟨p, List.mem_append_left _ hp, htarget, hsender⟩
  | deliver k n now =>
    rcases List.mem_iff_getElem?.1 hp with ⟨n', hn'⟩
    by_cases hn : n' = n
    · subst hn
      -- this very message is delivered, to the engine it was meant for
      have hk : k = j := by
        refine hN j hj k ?_
        have haddr := hg.2
        rw [hn', Option.map_some] at haddr
        exact (Option.some.inj haddr).symm.trans htarget
      subst hk
      exact .inr (lists_of_deliver hn' hsender hne now)
    · left
      rw [update, deliver]
      split
      · exact ⟨p, hp, htarget, hsender⟩
      · refine ⟨p, List.mem_append_left _ ?_, htarget, hsender⟩
        exact List.mem_eraseIdx_iff_getElem?.2 ⟨n', hn, hn'⟩
  | start | store | meet | requestSync | probe | lose | duplicate => exact absurd hq id

theorem linked_quiet_step (hN : DistinctAddrs F N) (hi : i ∈ N) (hj : j ∈ N) (hne : i ≠ j)
    (hq : Quiet t s l) (hg : guard F l s) (h : Linked F s i j) :
    Linked F (update F l s) i j := by
  constructor
  rcases h.some_way with h | h | h | h
  · exact .inl (lists_quiet_step hq h)
  · exact .inr (.inl (lists_quiet_step hq h))
  · rcases approaching_quiet_step hN hj hne hq hg h with h | h
    · exact .inr (.inr (.inl h))
    · exact .inr (.inl h)
  · rcases approaching_quiet_step hN hi hne.symm hq hg h with h | h
    · exact .inr (.inr (.inr h))
    · exact .inl h

theorem exists_deliver (hrun : s.running j = true) (hne : i ≠ j) (h : Approaching F s i j) :
    ∃ ls, ((system F).restrict (Quiet t)).Enabled s ls ∧ Lists ((system F).run s ls) j i := by
  rcases h with ⟨p, hp, htarget, hsender⟩
  rcases List.mem_iff_getElem?.1 hp with ⟨n, hn⟩
  refine ⟨[.deliver j n t], ⟨⟨⟨hrun, ?_⟩, le_refl t⟩, trivial⟩, lists_of_deliver hn hsender hne t⟩
  rw [hn, Option.map_some, htarget]

/-- An engine that lists another one as alive can ping it. -/
theorem exists_ping (h : Acquainted F N s) (hi : i ∈ N) (hj : j ∈ N) (hne : i ≠ j)
    (hlists : Lists s i j) :
    ∃ ls, ((system F).restrict (Quiet t)).Enabled s ls ∧ Lists ((system F).run s ls) j i := by
  rcases hlists with ⟨m, hm, halive⟩
  rcases h.known i hi j hj hne with ⟨m', hm', haddr⟩
  rw [hm] at hm'
  rcases Option.some.inj hm' with rfl
  have hid : m.instanceId = j := MemberList.instanceId_of_get hm
  have hcand : m ∈ (F.engine i).candidates (s.members i) := by
    rw [GossipEngine.candidates, List.mem_filter, MemberList.mem_aliveMembers, hid, F.selfId]
    exact ⟨⟨hm, halive⟩, decide_eq_true hne.symm⟩
  -- the shuffle may put the member first
  let chosen := m :: ((F.engine i).candidates (s.members i)).erase m
  have hgossip : guard F (.gossip i chosen t) s :=
    ⟨h.running i hi, (List.perm_cons_erase hcand).symm⟩
  have htake : m ∈ chosen.take (F.engine i).fanout := by
    have hpos : (F.engine i).fanout = ((F.engine i).fanout - 1) + 1 := by
      rw [GossipEngine.fanout]
      omega
    rw [hpos, List.take_succ_cons]
    exact List.mem_cons_self
  have happroach : Approaching F (update F (.gossip i chosen t) s) i j := by
    refine ⟨_, List.mem_append_right _ (List.mem_map_of_mem htake), haddr, ?_⟩
    show some (F.engine i).selfId = some i
    rw [F.selfId]
  have hrun : (update F (.gossip i chosen t) s).running j = true := h.running j hj
  rcases exists_deliver (t := t) hrun hne happroach with ⟨ls, hls, hend⟩
  exact ⟨.gossip i chosen t :: ls, ⟨⟨hgossip, le_refl t⟩, hls⟩, hend⟩

/-- From a linked pair, some ticks and deliveries make either list the other. -/
theorem exists_lists (hs : (system F).Reachable s) (h : Acquainted F N s) (hi : i ∈ N)
    (hj : j ∈ N) (hne : i ≠ j) (hlinked : Linked F s i j) :
    ∃ ls, ((system F).restrict (Quiet t)).Enabled s ls ∧ Lists ((system F).run s ls) i j := by
  rcases hlinked.some_way with hl | hl | hl | hl
  · exact ⟨[], trivial, hl⟩
  · exact exists_ping h hj hi hne.symm hl
  · -- first `j` hears of `i`, then it pings `i`
    rcases exists_deliver (t := t) (h.running j hj) hne hl with ⟨ls, hls, hend⟩
    have hmid := Lts.Enabled.invariant (S := (system F).restrict (Quiet t))
      (P := fun s => (system F).Reachable s ∧ Acquainted F N s)
      (fun s l hinv hg => ⟨.step l hinv.1 hg.1, hinv.2.step hinv.1 hg.1⟩) ⟨hs, h⟩ hls
    rcases exists_ping (t := t) hmid.2 hj hi hne.symm hend with ⟨ls', hls', hend'⟩
    refine ⟨ls ++ ls', (Lts.enabled_append _ s ls ls').2 ⟨hls, hls'⟩, ?_⟩
    rw [Lts.run_append]
    exact hend'
  · exact exists_deliver (h.running i hi) hne.symm hl

end Repair

/-- In every reachable state in which the engines of `N` run and know each other
with correct addresses, some continuation of their own ticks and deliveries makes
each list every other one as alive exactly when every two of them are still
linked. -/
theorem repairable_iff (F : Fleet) (N : Finset InstanceId) (hN : DistinctAddrs F N) (t : Nat) :
    ∀ s, (system F).Reachable s → Acquainted F N s →
      ((∃ ls, ((system F).restrict (OwnStep t)).Enabled s ls ∧ AllAlive N ((system F).run s ls)) ↔
        ∀ i ∈ N, ∀ j ∈ N, i ≠ j → Linked F s i j) := by
  intro s hs hacq
  constructor
  · rintro ⟨ls, hls, hall⟩ i hi j hj hne
    exact linked_of_run hN hs hacq.running hls hi hj ⟨.inl (hall i hi j hj hne)⟩
  · intro hlinked
    let Q : GossipNetwork → Prop := fun s => (system F).Reachable s ∧ Acquainted F N s ∧
      ∀ i ∈ N, ∀ j ∈ N, i ≠ j → Linked F s i j
    let G : InstanceId × InstanceId → GossipNetwork → Prop := fun a s =>
      a.1 ∈ N → a.2 ∈ N → a.1 ≠ a.2 → Lists s a.1 a.2
    have hQ : ∀ s l, Q s → ((system F).restrict (Quiet t)).guard l s → Q (update F l s) :=
      fun s l hQ hg => ⟨.step l hQ.1 hg.1, hQ.2.1.step hQ.1 hg.1, fun i hi j hj hne =>
        linked_quiet_step hN hi hj hne hg.2 hg.1 (hQ.2.2 i hi j hj hne)⟩
    have hattain : ∀ a s, Q s →
        ∃ ls, ((system F).restrict (Quiet t)).Enabled s ls ∧ G a ((system F).run s ls) := by
      rintro ⟨i, j⟩ s ⟨hs, hacq, hlinked⟩
      by_cases ha : i ∈ N ∧ j ∈ N ∧ i ≠ j
      · rcases ha with ⟨hi, hj, hne⟩
        rcases exists_lists (t := t) hs hacq hi hj hne (hlinked i hi j hj hne) with ⟨ls, hls, hend⟩
        exact ⟨ls, hls, fun _ _ _ => hend⟩
      · exact ⟨[], trivial, fun hi hj hne => absurd ⟨hi, hj, hne⟩ ha⟩
    -- one ordered pair after the other; no step undoes what is attained
    rcases Lts.exists_run_forall (S := (system F).restrict (Quiet t)) (Q := Q) (G := G) hQ
      (fun a s l _ hG hg hi hj hne => lists_quiet_step hg.2 (hG hi hj hne)) hattain
      (N ×ˢ N).toList ⟨hs, hacq, hlinked⟩ with ⟨ls, hls, hall⟩
    refine ⟨ls, hls.mono fun s l hg => ⟨hg.1, hg.2.ownStep⟩, ?_⟩
    intro i hi j hj hne
    exact hall (i, j) (Finset.mem_toList.2 (Finset.mk_mem_product hi hj)) hi hj hne

/-- The two engines of `twoRegions` meet each other. -/
def meetEachOther : List Label :=
  [.start ⟨"a"⟩ 0, .start ⟨"b"⟩ 0, .meet ⟨"a"⟩ "10.0.0.2:7946", .meet ⟨"b"⟩ "10.0.0.1:7946",
    .deliver ⟨"a"⟩ 1 1, .deliver ⟨"b"⟩ 0 1]

/-- All further messages are lost, until the first engine suspects the second. -/
def halfSilence : List Label := [.lose 0, .lose 0, .lose 0, .lose 0, .probe ⟨"a"⟩ 5000]

/-- And until the second suspects the first. -/
def silence : List Label := halfSilence ++ [.probe ⟨"b"⟩ 5000]

/-- The two engines. -/
def both : Finset InstanceId := {⟨"a"⟩, ⟨"b"⟩}

theorem distinctAddrs_both : DistinctAddrs twoRegions both := by
  intro i hi X hX
  simp only [twoRegions] at hX
  rcases Finset.mem_insert.1 hi with rfl | hi
  · split at hX
    · assumption
    · split at hX
      · exact absurd hX (by decide)
      · exact absurd hX (by decide)
  · rcases Finset.mem_singleton.1 hi with rfl
    split at hX
    · exact absurd hX (by decide)
    · split at hX
      · assumption
      · exact absurd hX (by decide)

/-- Acquaintance of the two, from their two records. -/
theorem acquainted_both {ma mb : ClusterMember} (hruna : s.running ⟨"a"⟩ = true)
    (hrunb : s.running ⟨"b"⟩ = true) (hb : (s.members ⟨"a"⟩).get ⟨"b"⟩ = some mb)
    (ha : (s.members ⟨"b"⟩).get ⟨"a"⟩ = some ma) (haddra : ma.addr = "10.0.0.1:7946")
    (haddrb : mb.addr = "10.0.0.2:7946") : Acquainted twoRegions both s where
  running i hi := by
    rcases Finset.mem_insert.1 hi with rfl | hi
    · exact hruna
    · rcases Finset.mem_singleton.1 hi with rfl
      exact hrunb
  known i hi j hj hne := by
    rcases Finset.mem_insert.1 hi with rfl | hi
    · rcases Finset.mem_insert.1 hj with rfl | hj
      · exact absurd rfl hne
      · rcases Finset.mem_singleton.1 hj with rfl
        exact ⟨mb, hb, haddrb⟩
    · rcases Finset.mem_singleton.1 hi with rfl
      rcases Finset.mem_insert.1 hj with rfl | hj
      · exact ⟨ma, ha, haddra⟩
      · rcases Finset.mem_singleton.1 hj with rfl
        exact absurd rfl hne

/-- Only the first suspects the second, so the two can be repaired. -/
theorem repairable_iff_halfSilence :
    ∃ ls, ((system twoRegions).restrict (OwnStep 5000)).Enabled
        ((system twoRegions).run new (meetEachOther ++ halfSilence)) ls ∧
      AllAlive both ((system twoRegions).run
        ((system twoRegions).run new (meetEachOther ++ halfSilence)) ls) := by
  let s := (system twoRegions).run new (meetEachOther ++ halfSilence)
  have hreach : (system twoRegions).Reachable s := .run (.init initial_new) (by decide +kernel)
  have hb : (s.members ⟨"a"⟩).get ⟨"b"⟩ =
      some ⟨⟨"b"⟩, ⟨"r2"⟩, "10.0.0.2:7946", 1, .suspect, .default⟩ := by
    decide +kernel
  have ha : (s.members ⟨"b"⟩).get ⟨"a"⟩ =
      some ⟨⟨"a"⟩, ⟨"r1"⟩, "10.0.0.1:7946", 1, .alive, .default⟩ := by
    decide +kernel
  have hacq : Acquainted twoRegions both s :=
    acquainted_both (by decide +kernel) (by decide +kernel) hb ha rfl rfl
  have hlists : Lists s ⟨"b"⟩ ⟨"a"⟩ := ⟨_, ha, rfl⟩
  refine (repairable_iff twoRegions both distinctAddrs_both 5000 s hreach hacq).2 ?_
  intro i hi j hj hne
  rcases Finset.mem_insert.1 hi with rfl | hi
  · rcases Finset.mem_insert.1 hj with rfl | hj
    · exact absurd rfl hne
    · rcases Finset.mem_singleton.1 hj with rfl
      exact ⟨.inr (.inl hlists)⟩
  · rcases Finset.mem_singleton.1 hi with rfl
    rcases Finset.mem_insert.1 hj with rfl | hj
    · exact ⟨.inl hlists⟩
    · rcases Finset.mem_singleton.1 hj with rfl
      exact absurd rfl hne

/-- Each suspects the other, and nothing is on its way. -/
theorem not_repairable_silence :
    ¬ ∀ s, (system twoRegions).Reachable s → Acquainted twoRegions both s →
      ∃ ls, ((system twoRegions).restrict (OwnStep 0)).Enabled s ls ∧
        AllAlive both ((system twoRegions).run s ls) := by
  intro h
  let s := (system twoRegions).run new (meetEachOther ++ silence)
  have hreach : (system twoRegions).Reachable s := .run (.init initial_new) (by decide +kernel)
  have hb : (s.members ⟨"a"⟩).get ⟨"b"⟩ =
      some ⟨⟨"b"⟩, ⟨"r2"⟩, "10.0.0.2:7946", 1, .suspect, .default⟩ := by
    decide +kernel
  have ha : (s.members ⟨"b"⟩).get ⟨"a"⟩ =
      some ⟨⟨"a"⟩, ⟨"r1"⟩, "10.0.0.1:7946", 1, .suspect, .default⟩ := by
    decide +kernel
  have hnet : s.net = [] := List.eq_nil_of_length_eq_zero (by decide +kernel)
  have hacq : Acquainted twoRegions both s :=
    acquainted_both (by decide +kernel) (by decide +kernel) hb ha rfl rfl
  rcases h s hreach hacq with ⟨ls, hls, hall⟩
  have hlists := hall ⟨"a"⟩ (by decide) ⟨"b"⟩ (by decide) (by decide)
  -- alive at the end, so linked all along, but there is nothing that links them
  have hlinked := linked_of_run distinctAddrs_both hreach hacq.running hls (i := ⟨"a"⟩)
    (j := ⟨"b"⟩) (by decide) (by decide) ⟨.inl hlists⟩
  rcases hlinked.some_way with ⟨m, hm, halive⟩ | ⟨m, hm, halive⟩ | ⟨p, hp, _⟩ | ⟨p, hp, _⟩
  · rw [hb] at hm
    rcases Option.some.inj hm with rfl
    exact nomatch halive
  · rw [ha] at hm
    rcases Option.some.inj hm with rfl
    exact nomatch halive
  · rw [hnet] at hp
    exact nomatch hp
  · rw [hnet] at hp
    exact nomatch hp

end GossipNetwork

end HierKvGateway
