import Mathlib.Data.Prod.Lex
import Wiretally.Lib.Interleave
import Wiretally.Lib.Run
import Wiretally.Registry

/-!
Counters shared by tasks.

Any number of tasks look hosts up and add through the handles they were given, in any
interleaving. Every handle for a host is one for the same block, and no addition is lost, so a
row of the snapshot holds what the programs of the tasks add up to, whatever the interleaving
and the order the map lists its hosts in.
-/

namespace Wiretally.SharedRows

open Wiretally.Lib Wiretally.Lib.Run Wiretally.Lib.Interleave Wiretally.Net Wiretally.Stats
open Wiretally.Stats.EndpointStats Wiretally.Registry

variable {T : Type}

/-- A handle is named by the task it was given to and how many that task was given before. -/
inductive Op (T : Type)
  | endpoint (host : Text)
  | fetchAdd (owner : T) (i : ℕ) (n : UInt64) (c : Counter)
  | observeIp (owner : T) (i : ℕ) (addr : IpAddr)

namespace Op

def host : Op T → Option Text
  | .endpoint host => some host
  | _ => none

/-- What an operation adds to a counter of `host`, where the handles are for the hosts named. -/
def amount (names : T → List Text) (host : Text) (c : Counter) : Op T → UInt64
  | .fetchAdd owner i n d => if (names owner)[i]? = some host ∧ c = d then n else 0
  | _ => 0

def observed (names : T → List Text) (host : Text) : Op T → Option IpAddr
  | .observeIp owner i addr => if (names owner)[i]? = some host then some addr else none
  | _ => none

/-- What an operation does to the block of `host`. -/
def effect (names : T → List Text) (host : Text) (s : EndpointStats) : Op T → EndpointStats
  | .endpoint _ => s
  | .fetchAdd owner i n c => if (names owner)[i]? = some host then s.fetchAdd n c else s
  | .observeIp owner i addr => if (names owner)[i]? = some host then s.observeIp addr else s

/-- Whether the handle an operation goes through is one of those named. -/
def Given (names : T → List Text) : Op T → Prop
  | .endpoint _ => True
  | .fetchAdd owner i _ _ => i < (names owner).length
  | .observeIp owner i _ => i < (names owner).length

end Op

/-! ### Blocks -/

section Blocks

variable (names : T → List Text) (host : Text)

/-- The block of `host` after some operations. -/
def block (ops : List (Op T)) : EndpointStats := ops.foldl (Op.effect names host) fresh

lemma block_snoc (ops : List (Op T)) (op : Op T) :
    block names host (ops ++ [op]) = op.effect names host (block names host ops) := by
  simp [block, List.foldl_append]

lemma count_effect (s : EndpointStats) (op : Op T) (c : Counter) :
    (op.effect names host s).count c = s.count c + op.amount names host c := by
  cases op with
  | endpoint => simp [Op.effect, Op.amount]
  | fetchAdd owner i n d =>
    simp only [Op.effect, Op.amount]
    by_cases h : (names owner)[i]? = some host
    · rw [if_pos h, count_fetchAdd]
      simp [h]
    · simp [h]
  | observeIp owner i addr =>
    simp only [Op.effect, Op.amount]
    by_cases h : (names owner)[i]? = some host <;> simp [h]

lemma ip_effect (s : EndpointStats) (op : Op T) :
    (op.effect names host s).ip = s.ip.or (op.observed names host) := by
  cases op with
  | endpoint => simp [Op.effect, Op.observed]
  | fetchAdd owner i n d =>
    simp only [Op.effect, Op.observed]
    by_cases h : (names owner)[i]? = some host <;> simp [h]
  | observeIp owner i addr =>
    simp only [Op.effect, Op.observed]
    by_cases h : (names owner)[i]? = some host
    · rw [if_pos h, if_pos h]
      cases hip : s.ip <;> simp [observeIp, hip]
    · simp [h]

/-- **The counters of a block are sums.** -/
theorem count_block (ops : List (Op T)) (c : Counter) :
    (block names host ops).count c = (ops.map (Op.amount names host c)).sum := by
  induction ops using List.reverseRecOn with
  | nil => exact count_fresh c
  | append_singleton ops op ih =>
    rw [block_snoc, count_effect, ih]
    simp

lemma ip_block (ops : List (Op T)) :
    (block names host ops).ip = ops.findSome? (Op.observed names host) := by
  induction ops using List.reverseRecOn with
  | nil => rfl
  | append_singleton ops op ih =>
    rw [block_snoc, ip_effect, ih, List.findSome?_append]
    congr 1
    cases h : op.observed names host <;> simp [h]

variable {names}

lemma given_mono {more : T → List Text} (hmore : ∀ t, names t <+: more t) {op : Op T}
    (h : op.Given names) : op.Given more := by
  cases op with
  | endpoint => trivial
  | fetchAdd owner i n c => exact lt_of_lt_of_le h (hmore owner).length_le
  | observeIp owner i addr => exact lt_of_lt_of_le h (hmore owner).length_le

/-- A handle given keeps its host when more are given. -/
lemma effect_mono {more : T → List Text} (hmore : ∀ t, names t <+: more t) {op : Op T}
    (h : op.Given names) (s : EndpointStats) : op.effect more host s = op.effect names host s := by
  have hget : ∀ {owner i}, i < (names owner).length → (more owner)[i]? = (names owner)[i]? := by
    intro owner i hi
    obtain ⟨rest, hrest⟩ := hmore owner
    rw [← hrest, List.getElem?_append_left hi]
  cases op with
  | endpoint => rfl
  | fetchAdd owner i n c => simp only [Op.effect, hget h]
  | observeIp owner i addr => simp only [Op.effect, hget h]

lemma block_mono {more : T → List Text} (hmore : ∀ t, names t <+: more t) {ops : List (Op T)}
    (h : ∀ op ∈ ops, op.Given names) : block more host ops = block names host ops := by
  induction ops using List.reverseRecOn with
  | nil => rfl
  | append_singleton ops op ih =>
    rw [block_snoc, block_snoc, ih fun op hop => h op (List.mem_append_left _ hop),
      effect_mono host hmore (h op (by simp))]

lemma block_of_not_named (h : ∀ t, host ∉ names t) (ops : List (Op T)) :
    block names host ops = fresh := by
  have hnot : ∀ {owner : T} {i : ℕ}, (names owner)[i]? ≠ some host := fun hi =>
    h _ (List.mem_of_getElem? hi)
  induction ops using List.reverseRecOn with
  | nil => rfl
  | append_singleton ops op ih =>
    rw [block_snoc, ih]
    cases op with
    | endpoint => rfl
    | fetchAdd owner i n c => exact if_neg hnot
    | observeIp owner i addr => exact if_neg hnot

end Blocks

/-! ### Tasks -/

def lookedUp (acts : List (T × Op T)) : List Text := acts.filterMap fun e => e.2.host

lemma mem_lookedUp_iff {acts : List (T × Op T)} {host : Text} :
    host ∈ lookedUp acts ↔ ∃ t, (t, Op.endpoint host) ∈ acts := by
  unfold lookedUp
  rw [List.mem_filterMap]
  constructor
  · rintro ⟨⟨t, op⟩, he, hhost⟩
    cases op with
    | endpoint => cases hhost; exact ⟨t, he⟩
    | fetchAdd => cases hhost
    | observeIp => cases hhost
  · rintro ⟨t, he⟩
    exact ⟨_, he, rfl⟩

variable [DecidableEq T]

/-- The registry, and the handles each task was given, in order. -/
structure World (T : Type) where
  registry : Registry
  held : T → List Arc

def World.start : World T := ⟨Registry.new, fun _ => []⟩

/-- A task takes a step: the map is locked for a lookup, an addition is one atomic access. -/
def step (w : World T) : T × Op T → Option (World T)
  | (t, .endpoint host) =>
    let (stats, registry) := w.registry.endpoint host
    some ⟨registry, Function.update w.held t (w.held t ++ [stats])⟩
  | (_, .fetchAdd owner i n c) =>
    (w.held owner)[i]?.map fun a => { w with registry := w.registry.update a (·.fetchAdd n c) }
  | (_, .observeIp owner i addr) =>
    (w.held owner)[i]?.map fun a => { w with registry := w.registry.update a (·.observeIp addr) }

/-- The hosts a task looks up, in order: those its handles are for. -/
def hostsOf (acts : List (T × Op T)) (t : T) : List Text := (program t acts).filterMap Op.host

/-- The sum of all amounts added through any handle for `host`. -/
def added (acts : List (T × Op T)) (host : Text) (c : Counter) : UInt64 :=
  (acts.map fun e => e.2.amount (hostsOf acts) host c).sum

/-- The first address observed through any handle for `host`. -/
def firstSeen (acts : List (T × Op T)) (host : Text) : Option IpAddr :=
  acts.findSome? fun e => e.2.observed (hostsOf acts) host

lemma hostsOf_snoc (acts : List (T × Op T)) (e : T × Op T) (t : T) :
    hostsOf (acts ++ [e]) t = hostsOf acts t ++ if e.1 = t then e.2.host.toList else [] := by
  unfold hostsOf
  rw [program_append, List.filterMap_append, program_cons]
  split_ifs
  · cases h : e.2.host <;> simp [h]
  · simp

/-- The handles are for the hosts they were looked up for, every operation went through a handle
given before, and the rows hold what the operations did. -/
structure Accounts (acts : List (T × Op T)) (w : World T) : Prop where
  held : ∀ t, (hostsOf acts t).map w.registry.endpoints.lookup = (w.held t).map some
  given : ∀ op ∈ acts.map Prod.snd, op.Given (hostsOf acts)
  row : ∀ host, w.registry.row host =
    if host ∈ lookedUp acts then some (block (hostsOf acts) host (acts.map Prod.snd)) else none

lemma mem_lookedUp {acts : List (T × Op T)} {t : T} {host : Text} (h : host ∈ hostsOf acts t) :
    host ∈ lookedUp acts := by
  obtain ⟨op, hop, hhost⟩ := List.mem_filterMap.mp h
  obtain ⟨e, he, ht⟩ := List.mem_filterMap.mp hop
  split_ifs at ht
  cases ht
  exact List.mem_filterMap.mpr ⟨e, he, hhost⟩

lemma hostsOf_mono (acts : List (T × Op T)) (e : T × Op T) (t : T) :
    hostsOf acts t <+: hostsOf (acts ++ [e]) t := by
  rw [hostsOf_snoc]
  exact List.prefix_append _ _

lemma accounts_start : Accounts ([] : List (T × Op T)) World.start where
  held t := rfl
  given op h := by cases h
  row host := rfl

lemma accounts_endpoint {acts : List (T × Op T)} {w w' : World T} (h : Accounts acts w) {t : T}
    {host : Text} (hstep : step w (t, .endpoint host) = some w') :
    Accounts (acts ++ [(t, .endpoint host)]) w' := by
  have hw' : w' = ⟨(w.registry.endpoint host).2,
      Function.update w.held t (w.held t ++ [(w.registry.endpoint host).1])⟩ :=
    (Option.some.inj hstep).symm
  subst hw'
  have hmore := hostsOf_mono acts (t, .endpoint host)
  have hlooked : lookedUp (acts ++ [(t, .endpoint host)]) = lookedUp acts ++ [host] := by
    simp [lookedUp, Op.host]
  -- the handles given before are for the blocks they were for
  have hkept : ∀ u, (hostsOf acts u).map (w.registry.endpoint host).2.endpoints.lookup =
      (w.held u).map some := by
    intro u
    rw [← h.held u]
    refine List.map_congr_left fun k hk => ?_
    have hmem : w.registry.endpoints.lookup k ∈ (w.held u).map some := by
      rw [← h.held u]
      exact List.mem_map_of_mem hk
    obtain ⟨a, -, ha⟩ := List.mem_map.mp hmem
    rw [← ha]
    exact lookup_endpoint_of_some w.registry host ha.symm
  refine ⟨fun u => ?_, fun op hop => ?_, fun k => ?_⟩
  · rw [hostsOf_snoc, List.map_append]
    by_cases hu : t = u
    · subst hu
      have hnew := lookup_endpoint w.registry host host
      rw [if_pos rfl] at hnew
      simp [Op.host, hkept, hnew]
    · have hne : u ≠ t := fun he => hu he.symm
      simp [hu, hne, hkept]
  · rw [List.map_append] at hop
    rcases List.mem_append.mp hop with hop | hop
    · exact given_mono hmore (h.given op hop)
    · cases List.mem_singleton.mp hop
      trivial
  · rw [row_endpoint, List.map_append, List.map_singleton, block_snoc, block_mono k hmore h.given,
      hlooked, h.row, h.row]
    change _ = if k ∈ lookedUp acts ++ [host] then
      some (block (hostsOf acts) k (acts.map Prod.snd)) else none
    by_cases hk : k = host
    · subst hk
      by_cases hold : k ∈ lookedUp acts
      · simp [hold]
      · have hfresh : block (hostsOf acts) k (acts.map Prod.snd) = fresh :=
          block_of_not_named k (fun u hu => hold (mem_lookedUp hu)) _
        simp [hold, hfresh]
    · simp [hk]

lemma accounts_use {acts : List (T × Op T)} {w : World T} (h : Accounts acts w) {t owner : T}
    {i : ℕ} {a : Arc} {op : Op T} {f : EndpointStats → EndpointStats} (ha : (w.held owner)[i]? = some a)
    (hhost : op.host = none) (hgiven : ∀ names, i < (names owner).length → op.Given names)
    (heffect : ∀ names k s, op.effect names k s = if (names owner)[i]? = some k then f s else s) :
    Accounts (acts ++ [(t, op)]) { w with registry := w.registry.update a f } := by
  have hsame : hostsOf (acts ++ [(t, op)]) = hostsOf acts := by
    funext u
    rw [hostsOf_snoc, hhost]
    simp
  have hlooked : lookedUp (acts ++ [(t, op)]) = lookedUp acts := by
    simp [lookedUp, hhost]
  have hget : ((hostsOf acts owner)[i]?).map w.registry.endpoints.lookup = some (some a) := by
    rw [← List.getElem?_map, h.held owner, List.getElem?_map, ha]
    rfl
  obtain ⟨host, hi, hlist⟩ := Option.map_eq_some_iff.mp hget
  refine ⟨fun u => ?_, fun op' hop => ?_, fun k => ?_⟩
  · rw [hsame]
    exact h.held u
  · rw [List.map_append] at hop
    rw [hsame]
    rcases List.mem_append.mp hop with hop | hop
    · exact h.given op' hop
    · cases List.mem_singleton.mp hop
      exact hgiven _ (List.getElem?_eq_some_iff.mp hi).1
  · rw [row_update w.registry hlist, hsame, hlooked, List.map_append, List.map_singleton, block_snoc,
      heffect, hi]
    have hrow := h.row host
    rw [row_of_lookup w.registry hlist] at hrow
    by_cases hk : k = host
    · subst hk
      split_ifs at hrow with hmem
      rw [if_pos rfl, if_pos hmem, if_pos rfl, Option.some.inj hrow]
    · have hne : ¬ host = k := fun he => hk he.symm
      rw [if_neg hk, h.row]
      simp [hne]

lemma accounts_step {acts : List (T × Op T)} {w w' : World T} (h : Accounts acts w) {e : T × Op T}
    (hstep : step w e = some w') : Accounts (acts ++ [e]) w' := by
  obtain ⟨t, op⟩ := e
  cases op with
  | endpoint host => exact accounts_endpoint h hstep
  | fetchAdd owner i n c =>
    obtain ⟨a, ha, rfl⟩ := Option.map_eq_some_iff.mp hstep
    exact accounts_use h ha rfl (fun _ hi => hi) fun _ _ _ => rfl
  | observeIp owner i addr =>
    obtain ⟨a, ha, rfl⟩ := Option.map_eq_some_iff.mp hstep
    exact accounts_use h ha rfl (fun _ hi => hi) fun _ _ _ => rfl

/-- **What the rows hold after any interleaving.** -/
theorem accounts_run {acts : List (T × Op T)} {w : World T}
    (h : run step World.start acts = some w) : Accounts acts w :=
  run_induction accounts_start (fun _ _ _ _ _ hv hst => accounts_step hv hst) h

/-! ### Snapshots -/

/-- The order of a snapshot: by ingress, the largest first, then by egress, the largest first,
then by name. -/
def Before (a b : Endpoint) : Prop :=
  b.ingressBytes < a.ingressBytes ∨ b.ingressBytes = a.ingressBytes ∧
    (b.egressBytes < a.egressBytes ∨ b.egressBytes = a.egressBytes ∧ a.domain < b.domain)

lemma before_of_key_lt {a b : Endpoint} (h : a.key < b.key) : Before a b := by
  have heq : ∀ {m n : UInt64}, OrderDual.toDual m.toNat = OrderDual.toDual n.toNat → n = m :=
    fun hmn => (UInt64.toNat_inj.mp hmn).symm
  rcases Prod.Lex.lt_iff.mp h with hin | ⟨hin, hrest⟩
  · exact .inl hin
  · refine .inr ⟨heq hin, ?_⟩
    rcases Prod.Lex.lt_iff.mp hrest with hout | ⟨hout, hname⟩
    · exact .inl hout
    · exact .inr ⟨heq hout, hname⟩

def withoutIp (e : Endpoint) : Endpoint := { e with ipAddress := none }

def clearIps (r : Registry) : Registry := { r with heap := fun a => { r.heap a with ip := none } }

lemma snapshotOf_clearIps (r : Registry) (filter : Option Text) (listing : List (Text × Arc)) :
    (clearIps r).snapshotOf filter listing = (r.snapshotOf filter listing).map withoutIp := by
  have hmap := List.map_insertionSort (fun a b : Endpoint => a.key ≤ b.key)
    (fun a b : Endpoint => a.key ≤ b.key) withoutIp
    (listing.map fun e => Endpoint.of filter e.1 (r.heap e.2)) fun _ _ _ _ => Iff.rfl
  unfold Registry.snapshotOf
  rw [hmap, List.map_map]
  rfl

lemma row_clearIps (r : Registry) (host : Text) :
    (clearIps r).row host = (r.row host).map fun s => { s with ip := none } := by
  unfold Registry.row
  rw [Option.map_map]
  rfl

section Interleavings

variable {acts acts' : List (T × Op T)}

lemma hostsOf_congr (h : ∀ t, program t acts = program t acts') : hostsOf acts = hostsOf acts' := by
  funext t
  unfold hostsOf
  rw [h]

lemma added_congr (h : ∀ t, program t acts = program t acts') (host : Text) (c : Counter) :
    added acts host c = added acts' host c := by
  unfold added
  rw [hostsOf_congr h]
  exact ((perm_of_program h).map _).sum_eq

lemma lookedUp_congr (h : ∀ t, program t acts = program t acts') (host : Text) :
    host ∈ lookedUp acts ↔ host ∈ lookedUp acts' :=
  ((perm_of_program h).filterMap _).mem_iff

lemma row_isSome_iff {w : World T} (h : Accounts acts w) {host : Text} :
    (w.registry.row host).isSome = true ↔ host ∈ lookedUp acts := by
  rw [h.row]
  split_ifs with hmem <;> simp [hmem]

lemma count_block_added (host : Text) (c : Counter) :
    (block (hostsOf acts) host (acts.map Prod.snd)).count c = added acts host c := by
  rw [count_block, List.map_map]
  rfl

lemma row_clearIps_congr {w w' : World T} (h : Accounts acts w) (h' : Accounts acts' w')
    (hsame : ∀ t, program t acts = program t acts') :
    (clearIps w.registry).row = (clearIps w'.registry).row := by
  funext host
  rw [row_clearIps, row_clearIps, h.row, h'.row]
  by_cases hmem : host ∈ lookedUp acts
  · rw [if_pos hmem, if_pos ((lookedUp_congr hsame host).mp hmem)]
    refine congrArg some (ext_count (fun c => ?_) rfl)
    have hcount : ∀ s : EndpointStats, EndpointStats.count { s with ip := none } c = s.count c := by
      intro s
      cases c <;> rfl
    rw [hcount, hcount, count_block_added, count_block_added, added_congr hsame]
  · rw [if_neg hmem, if_neg fun hmem' => hmem ((lookedUp_congr hsame host).mpr hmem')]

/-- **Shared counters.** After any interleaving the snapshot has one row for each host ever
looked up, with the sums of what was added through any handle for it, the address first observed
and the verdict of the filter, in strictly increasing order. Any other interleaving of the same
programs, with the hosts listed in any other order, leaves the same rows but for the addresses. -/
theorem snapshot_of_interleaving {w : World T} (h : run step World.start acts = some w)
    (filter : Option Text) {listing : List (Text × Arc)}
    (hl : HashMap.Lists w.registry.endpoints listing) :
    ((w.registry.snapshotOf filter listing).map (·.domain)).Nodup ∧
    (∀ host, host ∈ (w.registry.snapshotOf filter listing).map (·.domain) ↔
      ∃ t, (t, .endpoint host) ∈ acts) ∧
    (∀ e ∈ w.registry.snapshotOf filter listing,
      e.ingressBytes = added acts e.domain .ingress ∧ e.egressBytes = added acts e.domain .egress ∧
      e.connections = added acts e.domain .connections ∧
      e.ipAddress = firstSeen acts e.domain ∧ e.matchesFilter = matchesDomain e.domain filter) ∧
    (w.registry.snapshotOf filter listing).Pairwise Before ∧
    ∀ acts' w' listing', (∀ t, program t acts = program t acts') →
      run step World.start acts' = some w' → HashMap.Lists w'.registry.endpoints listing' →
      (w'.registry.snapshotOf filter listing').map withoutIp =
        (w.registry.snapshotOf filter listing).map withoutIp := by
  have haccounts := accounts_run h
  have hmem := mem_snapshotOf w.registry filter hl
  refine ⟨nodup_domains w.registry filter hl, fun host => ?_, fun e he => ?_, ?_, ?_⟩
  · rw [← mem_lookedUp_iff, ← row_isSome_iff haccounts, List.mem_map]
    constructor
    · rintro ⟨e, he, rfl⟩
      obtain ⟨s, hs, -⟩ := (hmem e).mp he
      exact Option.isSome_of_mem hs
    · intro hsome
      obtain ⟨s, hs⟩ := Option.isSome_iff_exists.mp hsome
      exact ⟨.of filter host s, (hmem _).mpr ⟨s, hs, rfl⟩, rfl⟩
  · obtain ⟨s, hs, heq⟩ := (hmem e).mp he
    rw [haccounts.row] at hs
    split_ifs at hs
    cases hs
    have hcount : ∀ c, e.count c = added acts e.domain c := fun c =>
      (congrArg (fun x => Endpoint.count x c) heq).trans
        ((Endpoint.count_of _ _ _ c).trans (count_block_added e.domain c))
    have hip : e.ipAddress = firstSeen acts e.domain := by
      refine (congrArg Endpoint.ipAddress heq).trans ((ip_block _ _ _).trans ?_)
      rw [List.findSome?_map]
      rfl
    exact ⟨hcount .ingress, hcount .egress, hcount .connections, hip,
      congrArg Endpoint.matchesFilter heq⟩
  · exact (snapshotOf_strict w.registry filter hl).imp before_of_key_lt
  · intro acts' w' listing' hsame h' hl'
    have hrow := row_clearIps_congr haccounts (accounts_run h') hsame
    have hiff : (clearIps w'.registry).snapshotOf filter listing' =
        (clearIps w.registry).snapshotOf filter listing ↔ _ := snapshotOf_eq_iff filter hl' hl
    rw [← snapshotOf_clearIps, ← snapshotOf_clearIps]
    exact hiff.mpr hrow.symm

end Interleavings

/-- Two tasks count for the same host, and one of them for another. -/
def twoTasks : List (Bool × Op Bool) :=
  [(true, .endpoint "a".toList), (false, .endpoint "b".toList), (false, .endpoint "a".toList),
    (true, .fetchAdd true 0 5 .ingress), (false, .fetchAdd false 1 7 .ingress),
    (false, .observeIp false 1 localhost), (false, .fetchAdd false 0 1 .connections)]

theorem snapshot_of_interleaving_twoTasks :
    ∃ w, run step World.start twoTasks = some w ∧
      (w.registry.snapshot none).map (·.domain) = ["a".toList, "b".toList] ∧
      ∀ e ∈ w.registry.snapshot none, e.ingressBytes = added twoTasks e.domain .ingress := by
  have hdomains : (run step World.start twoTasks).map
      (fun w => (w.registry.snapshot none).map (·.domain)) = some ["a".toList, "b".toList] := by
    decide +kernel
  obtain ⟨w, hw, hrows⟩ := Option.map_eq_some_iff.mp hdomains
  obtain ⟨-, -, hcounts, -⟩ :=
    snapshot_of_interleaving hw none (HashMap.lists_toList w.registry.endpoints)
  exact ⟨w, hw, hrows, fun e he => (hcounts e he).1⟩

end Wiretally.SharedRows
