import Wiretally.Lib.Reading
import Wiretally.Registry

/-!
A snapshot of counters that are moving.

When the drain runs into its time limit, connections go on counting while the snapshot is taken.
It lists the hosts under the map lock, and then loads each address and each counter by itself;
so no moment need have had all of its numbers. But each of them was right at a moment while it
was taken, and lies between what was there at the start and what is there at the end; and where
nothing moves it is the snapshot of the registry.
-/

namespace Wiretally.LateSnapshot

open Wiretally.Lib Wiretally.Lib.Run Wiretally.Lib.Reading Wiretally.Net Wiretally.Stats
open Wiretally.Stats.EndpointStats Wiretally.Registry

/-! ### The snapshot, load by load -/

def entry (filter : Option Text) (domain : Text) (stats : Arc) : Task Registry Endpoint :=
  .load fun r₁ => .load fun r₂ => .load fun r₃ => .load fun r₄ => .done
    { matchesFilter := matchesDomain domain filter
      ipAddress := (r₁.heap stats).ip
      ingressBytes := (r₂.heap stats).ingress
      egressBytes := (r₃.heap stats).egress
      connections := (r₄.heap stats).connections
      domain := domain }

def entries (filter : Option Text) : List (Text × Arc) → Task Registry (List Endpoint)
  | [] => .done []
  | host :: hosts => (entry filter host.1 host.2).bind fun e =>
      (entries filter hosts).bind fun out => .done (e :: out)

/-- `snapshot`, once the hosts have been listed as `hosts`. -/
def snapshot (filter : Option Text) (hosts : List (Text × Arc)) : Task Registry (List Endpoint) :=
  (entries filter hosts).bind fun out => .done (out.insertionSort fun a b => a.key ≤ b.key)

/-- What another task does to the registry. -/
inductive Counting
  | endpoint (host : Text)
  | fetchAdd (a : Arc) (n : UInt64) (c : Counter)
  | observeIp (a : Arc) (addr : IpAddr)

/-- A handle is used only if it was handed out. -/
def share (r : Registry) : Counting → Option Registry
  | .endpoint host => some (r.endpoint host).2
  | .fetchAdd a n c => if a < r.next then some (r.update a (·.fetchAdd n c)) else none
  | .observeIp a addr => if a < r.next then some (r.update a (·.observeIp addr)) else none

/-! ### What the loads see -/

lemma takes_entries (filter : Option Text) (hosts : List (Text × Arc)) :
    (entries filter hosts).Takes (4 * hosts.length) := by
  induction hosts with
  | nil => trivial
  | cons host hosts ih =>
    have hentry : (entry filter host.1 host.2).Takes 4 := fun _ _ _ _ => trivial
    have hrest : ∀ e : Endpoint, ((entries filter hosts).bind fun out =>
        Task.done (e :: out)).Takes (4 * hosts.length + 0) :=
      fun e => Task.takes_bind ih fun out => Task.takes_done (e :: out)
    have hlen : 4 * (host :: hosts).length = 4 + (4 * hosts.length + 0) := by
      rw [List.length_cons]
      omega
    rw [hlen]
    exact Task.takes_bind hentry hrest

lemma takes_snapshot (filter : Option Text) (hosts : List (Text × Arc)) :
    (snapshot filter hosts).Takes (4 * hosts.length) :=
  Task.takes_bind (takes_entries filter hosts) fun _ => Task.takes_done _

/-- A row of the snapshot, from the states its four loads saw. -/
def Seen (filter : Option Text) (rs : List Registry) (host : Text × Arc) (e : Endpoint) : Prop :=
  ∃ r₁ r₂ r₃ r₄, [r₁, r₂, r₃, r₄].Sublist rs ∧
    e = { matchesFilter := matchesDomain host.1 filter
          ipAddress := (r₁.heap host.2).ip
          ingressBytes := (r₂.heap host.2).ingress
          egressBytes := (r₃.heap host.2).egress
          connections := (r₄.heap host.2).connections
          domain := host.1 }

lemma seen_entry {filter : Option Text} {host : Text × Arc} {rs : List Registry} {e : Endpoint}
    (h : (entry filter host.1 host.2).feed rs = .done e) : Seen filter rs host e := by
  match rs with
  | [] => cases h
  | [_] => cases h
  | [_, _] => cases h
  | [_, _, _] => cases h
  | r₁ :: r₂ :: r₃ :: r₄ :: rest =>
    refine ⟨r₁, r₂, r₃, r₄, List.sublist_append_left [r₁, r₂, r₃, r₄] rest, ?_⟩
    cases rest <;> exact (Task.done.inj h).symm

lemma Seen.mono {filter : Option Text} {host : Text × Arc} {rs rs' : List Registry} {e : Endpoint}
    (h : Seen filter rs host e) (hsub : rs.Sublist rs') : Seen filter rs' host e := by
  obtain ⟨r₁, r₂, r₃, r₄, hr, he⟩ := h
  exact ⟨r₁, r₂, r₃, r₄, hr.trans hsub, he⟩

/-- **Each row is loaded for its host**, and there is one for each. -/
lemma seen_entries {filter : Option Text} {hosts : List (Text × Arc)} {rs : List Registry}
    {out : List Endpoint} (h : (entries filter hosts).feed rs = .done out) :
    List.Forall₂ (Seen filter rs) hosts out := by
  induction hosts generalizing rs out with
  | nil =>
    obtain rfl := Task.done_of_feed h
    exact .nil
  | cons host hosts ih =>
    obtain ⟨rs₁, rs', e, rfl, hentry, hrest⟩ := Task.feed_bind h
    obtain ⟨rs₂, rs₃, rest, rfl, hentries, hdone⟩ := Task.feed_bind hrest
    obtain rfl := Task.done_of_feed hdone
    refine .cons ((seen_entry hentry).mono (List.sublist_append_left _ _)) ?_
    refine (ih hentries).imp fun _ _ hs => hs.mono ?_
    exact (List.sublist_append_left rs₂ rs₃).trans (List.sublist_append_right rs₁ _)

lemma domains_of_seen {filter : Option Text} {rs : List Registry} {hosts : List (Text × Arc)}
    {rows : List Endpoint} (h : List.Forall₂ (Seen filter rs) hosts rows) :
    rows.map (·.domain) = hosts.map Prod.fst := by
  induction h with
  | nil => rfl
  | cons hseen _ ih =>
    obtain ⟨_, _, _, _, -, rfl⟩ := hseen
    rw [List.map_cons, List.map_cons, ih]

lemma host_of_row {filter : Option Text} {rs : List Registry} {hosts : List (Text × Arc)}
    {rows : List Endpoint} (h : List.Forall₂ (Seen filter rs) hosts rows) {e : Endpoint}
    (he : e ∈ rows) : ∃ host ∈ hosts, Seen filter rs host e := by
  induction h with
  | nil => exact (List.not_mem_nil he).elim
  | cons hseen _ ih =>
    rcases List.mem_cons.mp he with rfl | he
    · exact ⟨_, List.mem_cons_self, hseen⟩
    · obtain ⟨host, hmem, hs⟩ := ih he
      exact ⟨host, List.mem_cons_of_mem _ hmem, hs⟩

lemma map_of_seen {filter : Option Text} {rs : List Registry} {hosts : List (Text × Arc)}
    {rows : List Endpoint} {row : Text × Arc → Endpoint}
    (hrow : ∀ host e, host ∈ hosts → Seen filter rs host e → row host = e)
    (h : List.Forall₂ (Seen filter rs) hosts rows) : hosts.map row = rows := by
  induction h with
  | nil => rfl
  | cons hseen _ ih =>
    rw [List.map_cons, hrow _ _ List.mem_cons_self hseen,
      ih fun host e hmem => hrow host e (List.mem_cons_of_mem _ hmem)]

/-- Where every load saw the same blocks, a row is that of the block. -/
lemma row_of_same {filter : Option Text} {rs : List Registry} {host : Text × Arc} {e : Endpoint}
    {s : EndpointStats} (h : Seen filter rs host e) (hsame : ∀ r ∈ rs, r.heap host.2 = s) :
    e = Endpoint.of filter host.1 s := by
  obtain ⟨r₁, r₂, r₃, r₄, hsub, rfl⟩ := h
  have hmem : ∀ r ∈ [r₁, r₂, r₃, r₄], r.heap host.2 = s := fun r hr => hsame r (hsub.subset hr)
  simp only [List.forall_mem_cons] at hmem
  obtain ⟨h₁, h₂, h₃, h₄, -⟩ := hmem
  rw [h₁, h₂, h₃, h₄]
  rfl

lemma seen_snapshot {filter : Option Text} {hosts : List (Text × Arc)} {rs : List Registry}
    {out : List Endpoint} (h : (snapshot filter hosts).feed rs = .done out) :
    ∃ rows, List.Forall₂ (Seen filter rs) hosts rows ∧
      out = rows.insertionSort fun a b => a.key ≤ b.key := by
  obtain ⟨rs₁, rs₂, rows, rfl, hrows, hdone⟩ := Task.feed_bind h
  refine ⟨rows, ?_, (Task.done_of_feed hdone).symm⟩
  exact (seen_entries hrows).imp fun _ _ hs => hs.mono (List.sublist_append_left _ _)

/-! ### What others do meanwhile -/

section Share

variable {r r' : Registry} {act : Counting}

/-- What another task adds to a counter of `host`. -/
def amount (host : Text) (c : Counter) (r : Registry) : Counting → UInt64
  | .fetchAdd a n d => if r.endpoints.lookup host = some a ∧ c = d then n else 0
  | _ => 0

/-- An addition does not wrap around. -/
def Fits (r : Registry) : Act Counting → Prop
  | .other (.fetchAdd a n c) => ((r.heap a).count c).toNat + n.toNat < 2 ^ 64
  | _ => True

instance (r : Registry) : (act : Act Counting) → Decidable (Fits r act)
  | .other (.fetchAdd a n c) =>
    inferInstanceAs (Decidable (((r.heap a).count c).toNat + n.toNat < 2 ^ 64))
  | .other (.endpoint _) | .other (.observeIp _ _) | .load => isTrue trivial

def Counting.isLookup : Counting → Bool
  | .endpoint _ => true
  | _ => false

lemma heap_endpoint (r : Registry) (host : Text) {a : Arc} (ha : a < r.next) :
    (r.endpoint host).2.heap a = r.heap a := by
  cases hl : r.endpoints.lookup host with
  | some b => rw [endpoint_of_some r hl]
  | none =>
    obtain ⟨_, _, hnew⟩ := endpoint_of_none r hl
    rw [hnew]
    exact alloc_heap_of_lt r ha

lemma next_le_share (h : share r act = some r') : r.next ≤ r'.next := by
  cases act with
  | endpoint k =>
    cases h
    exact next_endpoint_le r k
  | fetchAdd b n c =>
    simp only [share] at h
    split_ifs at h
    cases h
    exact le_rfl
  | observeIp b addr =>
    simp only [share] at h
    split_ifs at h
    cases h
    exact le_rfl

lemma listed_share (h : share r act = some r') {host : Text} {a : Arc}
    (hl : r.endpoints.lookup host = some a) : r'.endpoints.lookup host = some a := by
  cases act with
  | endpoint k =>
    cases h
    exact lookup_endpoint_of_some r k hl
  | fetchAdd b n c =>
    simp only [share] at h
    split_ifs at h
    cases h
    exact hl
  | observeIp b addr =>
    simp only [share] at h
    split_ifs at h
    cases h
    exact hl

lemma value_share (h : share r act = some r') (host : Text) (c : Counter) :
    value r' host c = value r host c + amount host c r act := by
  cases act with
  | endpoint k =>
    cases h
    exact (value_endpoint r k host c).trans (UInt64.add_zero _).symm
  | fetchAdd b n d =>
    simp only [share] at h
    split_ifs at h
    cases h
    exact value_fetchAdd r b n d host c
  | observeIp b addr =>
    simp only [share] at h
    split_ifs at h
    cases h
    exact (value_observeIp r b addr host c).trans (UInt64.add_zero _).symm

def known (r : Registry) (host : Text) : Option IpAddr := (r.row host).bind (·.ip)

lemma known_of_lookup {host : Text} {a : Arc} (h : r.endpoints.lookup host = some a) :
    known r host = (r.heap a).ip := by
  rw [known, row_of_lookup r h, Option.bind_some]

lemma ip_share (h : share r act = some r') {a : Arc} (ha : a < r.next) {addr : IpAddr}
    (hip : (r.heap a).ip = some addr) : (r'.heap a).ip = some addr := by
  cases act with
  | endpoint k =>
    cases h
    rwa [heap_endpoint r k ha]
  | fetchAdd b n d =>
    simp only [share] at h
    split_ifs at h
    cases h
    by_cases hab : a = b
    · subst hab
      rw [update_heap_self, ip_fetchAdd]
      exact hip
    · rwa [update_heap_ne r _ hab]
  | observeIp b addr' =>
    simp only [share] at h
    split_ifs at h
    cases h
    by_cases hab : a = b
    · subst hab
      rw [update_heap_self, observeIp, hip]
      rfl
    · rwa [update_heap_ne r _ hab]

lemma value_le_of_fits (h : share r act = some r') (hfits : Fits r (.other act)) (host : Text)
    (c : Counter) : value r host c ≤ value r' host c := by
  have hle : (value r host c).toNat + (amount host c r act).toNat < 2 ^ 64 := by
    have hlt := (value r host c).toNat_lt
    cases act with
    | fetchAdd a n d =>
      simp only [amount]
      split_ifs with hd
      · obtain ⟨hl, rfl⟩ := hd
        rw [value_of_lookup r hl]
        exact hfits
      · exact hlt
    | endpoint => exact hlt
    | observeIp => exact hlt
  rw [value_share h, UInt64.le_iff_toNat_le, UInt64.toNat_add, Nat.mod_eq_of_lt hle]
  exact Nat.le_add_right _ _

end Share

/-! ### Whole runs -/

/-- The snapshot has listed the hosts, and loaded nothing yet. -/
def begun (reg : Registry) (filter : Option Text) (hosts : List (Text × Arc)) :
    World Registry (List Endpoint) :=
  ⟨reg, snapshot filter hosts⟩

section Runs

variable {reg : Registry} {filter : Option Text} {hosts : List (Text × Arc)}
  {acts : List (Act Counting)} {w : World Registry (List Endpoint)}

/-- What others leave as it is, or let only grow, of the blocks listed at the start. -/
def Later (r r' : Registry) : Prop :=
  r.next ≤ r'.next ∧
  (∀ host a, r.endpoints.lookup host = some a → r'.endpoints.lookup host = some a) ∧
  ∀ a < r.next, ∀ addr, (r.heap a).ip = some addr → (r'.heap a).ip = some addr

lemma later_refl (r : Registry) : Later r r := ⟨le_rfl, fun _ _ h => h, fun _ _ _ h => h⟩

lemma later_trans {r s t : Registry} (h : Later r s) (h' : Later s t) : Later r t :=
  ⟨h.1.trans h'.1, fun host a hl => h'.2.1 host a (h.2.1 host a hl),
    fun a ha addr hip => h'.2.2 a (ha.trans_le h.1) addr (h.2.2 a ha addr hip)⟩

lemma later_share {r r' : Registry} {act : Counting} (h : share r act = some r') : Later r r' :=
  ⟨next_le_share h, fun _ _ hl => listed_share h hl, fun _ ha _ hip => ip_share h ha hip⟩

lemma known_later {r r' : Registry} (h : Later r r') {host : Text} {addr : IpAddr}
    (hip : known r host = some addr) : known r' host = some addr := by
  cases hl : r.endpoints.lookup host with
  | none =>
    have hnone : known r host = none := by
      rw [known, (row_eq_none r).mpr hl, Option.bind_none]
    rw [hnone] at hip
    cases hip
  | some a =>
    rw [known_of_lookup hl] at hip
    rw [known_of_lookup (h.2.1 host a hl)]
    exact h.2.2 a (r.allocated host a hl) addr hip

lemma later_run (h : run (step share) (begun reg filter hosts) acts = some w) :
    Later reg w.shared ∧
      ∀ r ∈ seen share (begun reg filter hosts) acts, Later reg r ∧ Later r w.shared :=
  seen_between later_refl (fun _ _ _ => later_trans) h fun _ _ _ _ hs => later_share hs

/-- A row of a snapshot under way, from registries in which its host is listed. -/
lemma loaded_of_seen (h : run (step share) (begun reg filter hosts) acts = some w)
    {host : Text × Arc} (hhost : reg.endpoints.lookup host.1 = some host.2) {e : Endpoint}
    (he : Seen filter (seen share (begun reg filter hosts) acts) host e) :
    e.domain = host.1 ∧ e.matchesFilter = matchesDomain e.domain filter ∧ ∃ r₁ r₂ r₃ r₄,
      [r₁, r₂, r₃, r₄].Sublist (seen share (begun reg filter hosts) acts) ∧
      e.ipAddress = known r₁ e.domain ∧ e.ingressBytes = value r₂ e.domain .ingress ∧
      e.egressBytes = value r₃ e.domain .egress ∧
      e.connections = value r₄ e.domain .connections := by
  obtain ⟨r₁, r₂, r₃, r₄, hsub, rfl⟩ := he
  have hlist : ∀ r ∈ [r₁, r₂, r₃, r₄], r.endpoints.lookup host.1 = some host.2 := fun r hr =>
    ((later_run h).2 r (hsub.subset hr)).1.2.1 _ _ hhost
  simp only [List.forall_mem_cons] at hlist
  obtain ⟨h₁, h₂, h₃, h₄, -⟩ := hlist
  refine ⟨rfl, rfl, r₁, r₂, r₃, r₄, hsub, (known_of_lookup h₁).symm, ?_, ?_, ?_⟩
  · exact (value_of_lookup r₂ h₂ .ingress).symm
  · exact (value_of_lookup r₃ h₃ .egress).symm
  · exact (value_of_lookup r₄ h₄ .connections).symm

/-- No counter is seen below the start or above the end, while none wraps around. -/
lemma value_between (h : run (step share) (begun reg filter hosts) acts = some w)
    (hfits : ∀ t ∈ trace (step share) (begun reg filter hosts) acts, Fits t.1.shared t.2)
    {r : Registry} (hr : r ∈ seen share (begun reg filter hosts) acts)
    (host : Text) (c : Counter) : value reg host c ≤ value r host c ∧
      value r host c ≤ value w.shared host c :=
  (seen_between (R := fun r r' : Registry => value r host c ≤ value r' host c)
    (fun _ => UInt64.le_refl _) (fun _ _ _ => UInt64.le_trans) h
    fun _ _ _ hmem hs => value_le_of_fits hs (hfits _ hmem) host c).2 r hr

/-- While others only look hosts up, the blocks stay as they were. -/
lemma heap_of_lookups (h : run (step share) (begun reg filter hosts) acts = some w)
    (hlookups : ∀ act, Act.other act ∈ acts → act.isLookup = true) {r : Registry}
    (hr : r ∈ seen share (begun reg filter hosts) acts) {a : Arc} (ha : a < reg.next) :
    r.heap a = reg.heap a := by
  have hsame := seen_between
    (R := fun r r' : Registry => r.next ≤ r'.next ∧ ∀ a < r.next, r'.heap a = r.heap a)
    (fun _ => ⟨le_rfl, fun _ _ => rfl⟩)
    (fun _ _ _ h h' => ⟨h.1.trans h'.1, fun a ha =>
      (h'.2 a (ha.trans_le h.1)).trans (h.2 a ha)⟩) h ?_
  · exact (hsame.2 r hr).1.2 a ha
  · intro v act r' hmem hs
    have hact : Act.other act ∈ acts := by
      rw [← trace_actions h]
      exact List.mem_map_of_mem hmem
    refine ⟨next_le_share hs, fun b hb => ?_⟩
    cases act with
    | endpoint host =>
      cases hs
      exact heap_endpoint v.shared host hb
    | fetchAdd => cases hlookups _ hact
    | observeIp => cases hlookups _ hact

/-- **A snapshot of moving counters.** Nothing holds it up: it takes four loads for each host, and can
always go on until it has. Its rows are those of the hosts listed when it began, in order; each
number of a row was right when it was loaded, and they were loaded one after the other. While
additions do not wrap around, no number is below what was there at the start, or above what is
there at the end; an address known at the start is shown. And where others only look hosts up, it
is the snapshot of the registry it began with. -/
theorem snapshot_between (hl : HashMap.Lists reg.endpoints hosts)
    (h : run (step share) (begun reg filter hosts) acts = some w) :
    (acts.countP Act.isLoad < 4 * hosts.length ↔ (step share w .load).isSome) ∧
    (acts.countP Act.isLoad = 4 * hosts.length ↔ ∃ out, w.task = .done out) ∧
    ∀ out, w.task = .done out →
      (out.map (·.domain)).Perm (hosts.map Prod.fst) ∧
      (out.Pairwise fun a b => a.key ≤ b.key) ∧
      (∀ e ∈ out, e.matchesFilter = matchesDomain e.domain filter ∧ ∃ r₁ r₂ r₃ r₄,
        [r₁, r₂, r₃, r₄].Sublist (seen share (begun reg filter hosts) acts) ∧
        e.ipAddress = known r₁ e.domain ∧ e.ingressBytes = value r₂ e.domain .ingress ∧
        e.egressBytes = value r₃ e.domain .egress ∧
        e.connections = value r₄ e.domain .connections) ∧
      ((∀ t ∈ trace (step share) (begun reg filter hosts) acts, Fits t.1.shared t.2) →
        ∀ e ∈ out, ∀ c, value reg e.domain c ≤ e.count c ∧
          e.count c ≤ value w.shared e.domain c) ∧
      (∀ e ∈ out, ∀ addr, (known reg e.domain = some addr → e.ipAddress = some addr) ∧
        (e.ipAddress = some addr → known w.shared e.domain = some addr)) ∧
      ((∀ act, Act.other act ∈ acts → act.isLookup = true) →
        out = reg.snapshotOf filter hosts) := by
  obtain ⟨-, hgoes, hends⟩ := loads_run (takes_snapshot filter hosts) h
  refine ⟨hgoes, hends, fun out hout => ?_⟩
  obtain ⟨rows, hrows, rfl⟩ := seen_snapshot ((task_run h).symm.trans hout)
  have hperm : (rows.insertionSort fun a b => a.key ≤ b.key).Perm rows :=
    List.perm_insertionSort _ _
  have hlisted : ∀ host ∈ hosts, reg.endpoints.lookup host.1 = some host.2 := fun _ hhost =>
    (HashMap.mem_lists hl).mp hhost
  have hloaded : ∀ e ∈ rows.insertionSort fun a b => a.key ≤ b.key, ∃ host ∈ hosts,
      Seen filter (seen share (begun reg filter hosts) acts) host e := fun e he =>
    host_of_row hrows (hperm.mem_iff.mp he)
  refine ⟨?_, List.pairwise_insertionSort _ _, fun e he => ?_, fun hfits e he c => ?_,
    fun e he addr => ?_, fun hlookups => ?_⟩
  · rw [← domains_of_seen hrows]
    exact hperm.map _
  · obtain ⟨host, hhost, hseen⟩ := hloaded e he
    exact (loaded_of_seen h (hlisted host hhost) hseen).2
  · obtain ⟨host, hhost, hseen⟩ := hloaded e he
    obtain ⟨-, -, r₁, r₂, r₃, r₄, hsub, -, hin, heg, hconn⟩ :=
      loaded_of_seen h (hlisted host hhost) hseen
    have hbetween : ∀ r ∈ [r₁, r₂, r₃, r₄], value reg e.domain c ≤ value r e.domain c ∧
        value r e.domain c ≤ value w.shared e.domain c := fun r hr =>
      value_between h hfits (hsub.subset hr) e.domain c
    simp only [List.forall_mem_cons] at hbetween
    obtain ⟨-, h₂, h₃, h₄, -⟩ := hbetween
    cases c with
    | ingress =>
      have hcount : e.count .ingress = value r₂ e.domain .ingress := hin
      rwa [hcount]
    | egress =>
      have hcount : e.count .egress = value r₃ e.domain .egress := heg
      rwa [hcount]
    | connections =>
      have hcount : e.count .connections = value r₄ e.domain .connections := hconn
      rwa [hcount]
  · obtain ⟨host, hhost, hseen⟩ := hloaded e he
    obtain ⟨-, -, r₁, r₂, r₃, r₄, hsub, hip, -⟩ := loaded_of_seen h (hlisted host hhost) hseen
    obtain ⟨hbefore, hafter⟩ := (later_run h).2 r₁ (hsub.subset List.mem_cons_self)
    rw [hip]
    exact ⟨known_later hbefore, known_later hafter⟩
  · have hrow : ∀ host e, host ∈ hosts →
        Seen filter (seen share (begun reg filter hosts) acts) host e →
          Endpoint.of filter host.1 (reg.heap host.2) = e := fun host e hhost hseen =>
      (row_of_same hseen fun r hr =>
        heap_of_lookups h hlookups hr (reg.allocated _ _ (hlisted host hhost))).symm
    rw [Registry.snapshotOf, map_of_seen hrow hrows]

end Runs

/-! ### A snapshot no moment had -/

def twoRows : Registry := ((Registry.new.endpoint "a".toList).2.endpoint "b".toList).2

/-- Bytes for `a` and then for `b`, in between the loads of their rows. -/
def torn : List (Act Counting) :=
  [.load, .load, .load, .load, .other (.fetchAdd 0 5 .ingress), .other (.fetchAdd 1 3 .ingress),
    .other (.endpoint "c".toList), .load, .load, .load, .load]

theorem snapshot_between_torn :
    ∃ w out, run (step share) (begun twoRows none [("a".toList, 0), ("b".toList, 1)]) torn = some w ∧
      w.task = .done out ∧ ∀ e ∈ out, ∀ c, value twoRows e.domain c ≤ e.count c ∧
        e.count c ≤ value w.shared e.domain c := by
  have hl : HashMap.Lists twoRows.endpoints [("a".toList, 0), ("b".toList, 1)] := by
    unfold HashMap.Lists
    decide +kernel
  have hfits : ∀ t ∈ trace (step share)
      (begun twoRows none [("a".toList, 0), ("b".toList, 1)]) torn, Fits t.1.shared t.2 := by
    decide +kernel
  have hruns : (run (step share)
      (begun twoRows none [("a".toList, 0), ("b".toList, 1)]) torn).isSome = true := by
    decide +kernel
  obtain ⟨w, hw⟩ := Option.isSome_iff_exists.mp hruns
  obtain ⟨-, hends, hout⟩ := snapshot_between hl hw
  obtain ⟨out, hdone⟩ := hends.mp (by decide +kernel)
  exact ⟨w, out, hw, hdone, (hout out hdone).2.2.2.1 hfits⟩

end Wiretally.LateSnapshot
