import HierKvGateway.Core.Error
import HierKvGateway.Lib.Run
import HierKvGateway.Lib.Update
import HierKvGateway.Metadata.Registry

/-!
# Connector.ConnectorRegistry — which connector serves a backend

The registry (`registry.rs`) maps the identifiers of backends to connectors, more than one of them
to the same connector once it has aliases. `discover_and_register_backends` (`main.rs`) takes the
list `all` and asks every connector on it for its backends, each of which becomes an alias.

`all` has one element for each entry of the map. `askedOnce_run_iff` says along which runs every
connector is on it once: no connector may be under a second identifier.
-/

namespace HierKvGateway

/-- The connectors by the backends they serve. A connector is an object of its own: two of the type
`C` are equal if they are the same object. -/
structure ConnectorRegistry (C : Type) where
  connectors : AList fun _ : BackendId => C

/-- A call that changes the registry. -/
inductive ConnectorCall (C : Type) where
  | register (connector : C)
  | registerAlias (id : BackendId) (connector : C)

namespace ConnectorRegistry

variable {C : Type}

def new : ConnectorRegistry C := ⟨∅⟩

/-- Register a connector under its anchor; it takes the place of one that is there. -/
def register (backendId : C → BackendId) (connector : C) (r : ConnectorRegistry C) :
    ConnectorRegistry C :=
  ⟨r.connectors.insert (backendId connector) connector⟩

/-- Attach another identifier to a connector, unless it is in use. -/
def registerAlias (id : BackendId) (connector : C) (r : ConnectorRegistry C) :
    ConnectorRegistry C :=
  match r.connectors.lookup id with
  | some _ => r
  | none => ⟨r.connectors.insert id connector⟩

def get (backend : BackendId) (r : ConnectorRegistry C) : Option C := r.connectors.lookup backend

/-- The connector of every entry. The order is that of the map, which is unspecified. -/
def all (r : ConnectorRegistry C) : List C := r.connectors.entries.map (·.2)

def apply (backendId : C → BackendId) (r : ConnectorRegistry C) :
    ConnectorCall C → ConnectorRegistry C
  | .register connector => r.register backendId connector
  | .registerAlias id connector => r.registerAlias id connector

end ConnectorRegistry

/-! ## Discovery -/

section Discovery

variable {C : Type}

/-- The backends a connector reports; a failure is logged. -/
def reported : Except HierKvGatewayError (List BackendInfo) → List BackendInfo
  | .ok infos => infos
  | .error _ => []

/-- Register one backend that `connector` has reported. -/
def registerReported (connector : C) (s : ConnectorRegistry C × BackendRegistry)
    (info : BackendInfo) : ConnectorRegistry C × BackendRegistry :=
  (s.1.registerAlias info.id connector, s.2.registerBackend info)

/-- One pass over the connectors, of which `all` is the list. -/
def discoverAndRegisterBackends (discover : C → Except HierKvGatewayError (List BackendInfo))
    (all : List C) (s : ConnectorRegistry C × BackendRegistry) :
    ConnectorRegistry C × BackendRegistry :=
  all.foldl (fun s connector =>
    match discover connector with
    | .ok infos => infos.foldl (registerReported connector) s
    | .error _ => s) s

/-- What a pass registers, each backend with the connector that has reported it. -/
def registrations (discover : C → Except HierKvGatewayError (List BackendInfo)) (all : List C) :
    List (C × BackendInfo) :=
  all.flatMap fun connector => (reported (discover connector)).map (connector, ·)

/-- The call a registration makes to the registry of connectors. -/
def aliasCall (x : C × BackendInfo) : ConnectorCall C := .registerAlias x.2.id x.1

variable (discover : C → Except HierKvGatewayError (List BackendInfo)) (all : List C)
  (s : ConnectorRegistry C × BackendRegistry)

theorem discover_eq : discoverAndRegisterBackends discover all s =
    (registrations discover all).foldl (fun s x => registerReported x.1 s x.2) s := by
  induction all generalizing s with
  | nil => rfl
  | cons connector all ih =>
    unfold discoverAndRegisterBackends registrations at ih ⊢
    rw [List.foldl_cons, List.flatMap_cons, List.foldl_append, List.foldl_map, ih]
    congr 1
    cases discover connector with
    | ok infos => rfl
    | error e => rfl

/-- To the registry of connectors a pass is a run of aliases. -/
theorem discover_connectors (backendId : C → BackendId) :
    (discoverAndRegisterBackends discover all s).1 =
      ((registrations discover all).map aliasCall).foldl (ConnectorRegistry.apply backendId)
        s.1 := by
  rw [discover_eq, List.foldl_map]
  exact Run.foldl_proj Prod.fst (fun _ _ => rfl) s _

theorem discover_backends :
    (discoverAndRegisterBackends discover all s).2 =
      ((registrations discover all).map Prod.snd).foldl
        (fun backends info => backends.registerBackend info) s.2 := by
  rw [discover_eq, List.foldl_map]
  exact Run.foldl_proj Prod.snd (fun _ _ => rfl) s _

/-- What the connectors of a list register, counted. -/
theorem count_registrations [DecidableEq C] (connector : C) (info : BackendInfo) :
    (registrations discover all).count (connector, info) =
      all.count connector * (reported (discover connector)).count info := by
  induction all with
  | nil => rw [List.count_nil, Nat.zero_mul]; rfl
  | cons c all ih =>
    unfold registrations at ih ⊢
    rw [List.flatMap_cons, List.count_append, ih, List.count_cons, Nat.add_mul, Nat.add_comm]
    congr 1
    by_cases hc : c = connector
    · subst hc
      have hinj : Function.Injective fun info : BackendInfo => (c, info) :=
        fun _ _ heq => (Prod.mk.inj heq).2
      rw [beq_self_eq_true, if_pos rfl, Nat.one_mul]
      exact List.count_map_of_injective _ _ hinj info
    · rw [if_neg (mt beq_iff_eq.1 hc), Nat.zero_mul, List.count_eq_zero, List.mem_map]
      rintro ⟨_, -, heq⟩
      exact hc (Prod.mk.inj heq).1

end Discovery

/-! ## Each connector once -/

namespace ConnectorRegistry

variable {C : Type} {r : ConnectorRegistry C} {backendId : C → BackendId}

/-- The connector serves some backend. -/
def Target (c : C) (r : ConnectorRegistry C) : Prop := ∃ id, r.get id = some c

theorem mem_all {c : C} : c ∈ r.all ↔ Target c r := by
  unfold all Target get
  rw [List.mem_map]
  constructor
  · rintro ⟨⟨id, c⟩, hmem, rfl⟩
    exact ⟨id, AList.mem_lookup_iff.2 hmem⟩
  · rintro ⟨id, hid⟩
    exact ⟨⟨id, c⟩, AList.mem_lookup_iff.1 hid, rfl⟩

theorem nodup_all_iff :
    r.all.Nodup ↔ ∀ id id' c, r.get id = some c → r.get id' = some c → id = id' := by
  have hentries : r.connectors.entries.Nodup := r.connectors.nodupKeys.nodup
  unfold all get
  rw [List.nodup_map_iff_inj_on hentries]
  constructor
  · intro hinj id id' c hid hid'
    have heq := hinj _ (AList.mem_lookup_iff.1 hid) _ (AList.mem_lookup_iff.1 hid') rfl
    exact congrArg Sigma.fst heq
  · rintro hkeys ⟨id, c⟩ hmem ⟨id', c'⟩ hmem' heq
    obtain rfl : c = c' := heq
    obtain rfl := hkeys id id' c (AList.mem_lookup_iff.2 hmem) (AList.mem_lookup_iff.2 hmem')
    rfl

theorem get_insert (other id : BackendId) (c : C) :
    (⟨r.connectors.insert other c⟩ : ConnectorRegistry C).get id =
      if id = other then some c else r.get id := by
  unfold get
  split
  · rename_i hid
    rw [hid]
    exact AList.lookup_insert _
  · rename_i hid
    exact AList.lookup_insert_ne hid

theorem registerAlias_of_some {other : BackendId} {c' : C} (h : r.get other = some c') (c : C) :
    r.registerAlias other c = r := by
  unfold get at h
  rw [registerAlias, h]

theorem registerAlias_of_none {other : BackendId} (h : r.get other = none) (c : C) :
    r.registerAlias other c = ⟨r.connectors.insert other c⟩ := by
  unfold get at h
  rw [registerAlias, h]

/-- Writing an entry keeps the connectors different exactly if the one written is under no other
identifier. -/
theorem nodup_insert_iff (hr : r.all.Nodup) (other : BackendId) (c : C) :
    (⟨r.connectors.insert other c⟩ : ConnectorRegistry C).all.Nodup ↔
      ∀ id, r.get id = some c → id = other := by
  rw [nodup_all_iff] at hr
  simp only [nodup_all_iff, get_insert]
  constructor
  · intro hnew id hid
    by_contra hne
    have heq := hnew id other c (by rw [if_neg hne, hid]) (if_pos rfl)
    exact hne heq
  · intro hkeep id id' c' hid hid'
    -- two identifiers of one connector: both old, or one of them the new entry
    split at hid <;> split at hid'
    · rename_i h h'
      rw [h, h']
    · rename_i h h'
      obtain rfl := Option.some.inj hid
      exact absurd (hkeep id' hid') h'
    · rename_i h h'
      obtain rfl := Option.some.inj hid'
      exact absurd (hkeep id hid) h
    · exact hr id id' c' hid hid'

/-- The connector a call is about serves no other backend than the call says, or the call changes
nothing. -/
def Unaliased (backendId : C → BackendId) (r : ConnectorRegistry C) : ConnectorCall C → Prop
  | .register c => ∀ id, r.get id = some c → id = backendId c
  | .registerAlias other c => r.get other ≠ none ∨ ∀ id, r.get id ≠ some c

theorem nodup_registerAlias_iff (hr : r.all.Nodup) (other : BackendId) (c : C) :
    (r.registerAlias other c).all.Nodup ↔ r.get other ≠ none ∨ ∀ id, r.get id ≠ some c := by
  cases hother : r.get other with
  | some c' =>
    rw [registerAlias_of_some hother]
    exact iff_of_true hr (Or.inl (Option.some_ne_none c'))
  | none =>
    rw [registerAlias_of_none hother, nodup_insert_iff hr]
    constructor
    · intro hkeep
      refine Or.inr fun id hid => ?_
      -- the identifier is free, so no connector is found under it
      rw [hkeep id hid, hother] at hid
      exact Option.some_ne_none c hid.symm
    · rintro (hsome | hfresh) id hid
      · exact absurd rfl hsome
      · exact absurd hid (hfresh id)

theorem nodup_apply_iff (hr : r.all.Nodup) (call : ConnectorCall C) :
    (r.apply backendId call).all.Nodup ↔ Unaliased backendId r call := by
  cases call with
  | register c => exact nodup_insert_iff hr (backendId c) c
  | registerAlias other c => exact nodup_registerAlias_iff hr other c

/-- Aliases of connectors that serve a backend already. -/
theorem each_aliasCall_iff {xs : List (C × BackendInfo)} (hxs : ∀ x ∈ xs, Target x.1 r) :
    Run.Each (apply backendId) (Unaliased backendId) r (xs.map aliasCall) ↔
      ∀ x ∈ xs, r.get x.2.id ≠ none := by
  induction xs with
  | nil => exact iff_of_true trivial (List.forall_mem_nil _)
  | cons x xs ih =>
    rcases List.forall_mem_cons.1 hxs with ⟨⟨id, hid⟩, hrest⟩
    -- an identifier in use is not given away again
    have hkept (hx : r.get x.2.id ≠ none) : r.apply backendId (aliasCall x) = r := by
      rcases Option.ne_none_iff_exists'.1 hx with ⟨c', hc'⟩
      exact registerAlias_of_some hc' x.1
    rw [List.map_cons, Run.each_cons, List.forall_mem_cons]
    constructor
    · rintro ⟨hfirst, hafter⟩
      have hx : r.get x.2.id ≠ none := hfirst.resolve_right fun hfresh => hfresh id hid
      rw [hkept hx] at hafter
      exact ⟨hx, (ih hrest).1 hafter⟩
    · rintro ⟨hx, hafter⟩
      rw [hkept hx]
      exact ⟨Or.inl hx, (ih hrest).2 hafter⟩

/-- Every connector that serves a backend is listed once, and every pass asks it once and registers
each backend it reports as often as it reports it. -/
structure AskedOnce [DecidableEq C] (r : ConnectorRegistry C) : Prop where
  listed : ∀ c, Target c r → r.all.count c = 1
  asked : ∀ (discover : C → Except HierKvGatewayError (List BackendInfo)) (order : List C),
    order.Perm r.all → ∀ c, Target c r → order.count c = 1 ∧
      ∀ info, (registrations discover order).count (c, info) = (reported (discover c)).count info

variable [DecidableEq C]

theorem askedOnce_iff : r.AskedOnce ↔ r.all.Nodup := by
  constructor
  · intro h
    rw [List.nodup_iff_count_eq_one]
    intro c hc
    exact h.listed c (mem_all.1 hc)
  · intro h
    have honce : ∀ c, Target c r → r.all.count c = 1 :=
      fun c hc => List.count_eq_one_of_mem h (mem_all.2 hc)
    refine ⟨honce, fun discover order horder c hc => ?_⟩
    have hcount : order.count c = 1 := (horder.count_eq c).trans (honce c hc)
    refine ⟨hcount, fun info => ?_⟩
    rw [count_registrations, hcount, Nat.one_mul]

theorem askedOnce_new : (new : ConnectorRegistry C).AskedOnce := askedOnce_iff.2 List.nodup_nil

theorem all_askedOnce_iff (hr : r.AskedOnce) (calls : List (ConnectorCall C)) :
    Run.All (apply backendId) AskedOnce r calls ↔
      Run.Each (apply backendId) (Unaliased backendId) r calls := by
  refine Run.all_iff_each (J := fun _ => True) (D := fun _ _ => True)
    (fun _ _ _ _ => trivial) (fun r call _ _ hr => ?_) trivial hr
    (Run.each_of_forall (fun _ _ => trivial) _ _)
  rw [askedOnce_iff] at hr ⊢
  exact nodup_apply_iff hr call

/-- During a discovery pass every connector stays on the list once exactly if the identifiers the
connectors report are in use already. -/
theorem pass_askedOnce_iff (hr : r.AskedOnce)
    (discover : C → Except HierKvGatewayError (List BackendInfo)) {order : List C}
    (horder : order.Perm r.all) :
    Run.All (apply backendId) AskedOnce r ((registrations discover order).map aliasCall) ↔
      ∀ c, Target c r → ∀ info ∈ reported (discover c), r.get info.id ≠ none := by
  have hmem {x : C × BackendInfo} : x ∈ registrations discover order ↔
      Target x.1 r ∧ x.2 ∈ reported (discover x.1) := by
    unfold registrations
    rw [List.mem_flatMap]
    constructor
    · rintro ⟨c, hc, hx⟩
      rcases List.mem_map.1 hx with ⟨info, hinfo, rfl⟩
      exact ⟨mem_all.1 (horder.mem_iff.1 hc), hinfo⟩
    · rintro ⟨htarget, hinfo⟩
      exact ⟨x.1, horder.mem_iff.2 (mem_all.2 htarget), List.mem_map.2 ⟨x.2, hinfo, rfl⟩⟩
  rw [all_askedOnce_iff hr, each_aliasCall_iff fun x hx => (hmem.1 hx).1]
  constructor
  · intro h c hc info hinfo
    exact h (c, info) (hmem.2 ⟨hc, hinfo⟩)
  · intro h x hx
    exact h x.1 (hmem.1 hx).1 x.2 (hmem.1 hx).2

/-- Along every run of calls; those of a discovery pass are among them. -/
theorem askedOnce_run_iff (backendId : C → BackendId) :
    (∀ calls, Run.All (apply backendId) AskedOnce new calls ↔
      Run.Each (apply backendId) (Unaliased backendId) new calls) ∧
    ∀ (discover : C → Except HierKvGatewayError (List BackendInfo)) (order : List C)
      (s : ConnectorRegistry C × BackendRegistry),
      (discoverAndRegisterBackends discover order s).1 =
        ((registrations discover order).map aliasCall).foldl (apply backendId) s.1 ∧
      (discoverAndRegisterBackends discover order s).2 =
        ((registrations discover order).map Prod.snd).foldl
          (fun backends info => backends.registerBackend info) s.2 := by
  constructor
  · intro calls
    exact all_askedOnce_iff askedOnce_new calls
  · intro discover order s
    exact ⟨discover_connectors discover order s backendId, discover_backends discover order s⟩

/-- Registered, and then discovered under a second identifier: the connector is listed twice. -/
theorem askedOnce_aliased :
    ¬ ∀ calls : List (ConnectorCall BackendId), Run.All (apply id) AskedOnce new calls := by
  intro h
  let front : BackendId := ⟨⟨"eu"⟩, ⟨"front"⟩⟩
  let worker : BackendId := ⟨⟨"eu"⟩, ⟨"worker"⟩⟩
  have hlast := (h [.register front, .registerAlias worker front]).2.2
  have honce := hlast.listed front ⟨front, by decide⟩
  exact absurd honce (by decide)

end ConnectorRegistry

end HierKvGateway
