import Mathlib.Data.UInt
import Wiretally.Lib.Rekey
import Wiretally.Stats

/-!
What each registry operation does, said once: to the rows, to the blocks on the heap, and to
the sum of a counter over the listed blocks.
-/

namespace Wiretally.Registry

open Wiretally.Lib Wiretally.Stats Wiretally.Stats.Registry Wiretally.Stats.EndpointStats

variable (r : Registry)

/-- The sum of a counter over the blocks the map lists. -/
def total (c : Counter) : UInt64 := HashMap.sum (fun a => (r.heap a).count c) r.endpoints

/-- Whether the map lists the block. -/
def listed (a : Arc) : Bool := r.endpoints.entries.any fun e => e.2 == a

lemma listed_iff {a : Arc} : listed r a = true ↔ ∃ host, r.endpoints.lookup host = some a := by
  unfold listed
  rw [List.any_eq_true]
  constructor
  · rintro ⟨⟨host, b⟩, hm, hb⟩
    obtain rfl : b = a := by simpa using hb
    exact ⟨host, AList.mem_lookup_iff.mpr hm⟩
  · rintro ⟨host, hl⟩
    exact ⟨⟨host, a⟩, AList.mem_lookup_iff.mp hl, by simp⟩

lemma listed_eq_false {a : Arc} :
    listed r a = false ↔ ∀ host, r.endpoints.lookup host ≠ some a := by
  rw [← Bool.not_eq_true, listed_iff, not_exists]

@[simp] lemma listed_update (a b : Arc) (f : EndpointStats → EndpointStats) :
    listed (r.update a f) b = listed r b := rfl

@[simp] lemma update_heap_self (a : Arc) (f : EndpointStats → EndpointStats) :
    (r.update a f).heap a = f (r.heap a) := by
  simp [update]

lemma update_heap_ne {a b : Arc} (f : EndpointStats → EndpointStats) (h : b ≠ a) :
    (r.update a f).heap b = r.heap b := by
  simp [update, h]

@[simp] lemma update_next (a : Arc) (f : EndpointStats → EndpointStats) :
    (r.update a f).next = r.next := rfl

@[simp] lemma update_endpoints (a : Arc) (f : EndpointStats → EndpointStats) :
    (r.update a f).endpoints = r.endpoints := rfl

/-! ### Totals -/

lemma total_remove {host : Text} {a : Arc} (h : r.endpoints.lookup host = some a) (c : Counter) :
    total r c = (r.heap a).count c + total (r.remove host) c :=
  HashMap.sum_erase _ h

lemma total_list {host : Text} {a : Arc} (ha : a < r.next)
    (hn : ∀ h, r.endpoints.lookup h ≠ some a) (h : r.endpoints.lookup host = none) (c : Counter) :
    total (r.list host a ha hn) c = (r.heap a).count c + total r c :=
  HashMap.sum_insert_new _ a h

lemma total_update_unlisted {a : Arc} (h : listed r a = false)
    (f : EndpointStats → EndpointStats) (c : Counter) : total (r.update a f) c = total r c := by
  refine HashMap.sum_congr fun host b hb => ?_
  have hne : b ≠ a := by
    rintro rfl
    exact (listed_eq_false r).mp h host hb
  rw [update_heap_ne r f hne]

lemma total_update_listed {a : Arc} (h : listed r a = true)
    {f : EndpointStats → EndpointStats} {n : UInt64} {c : Counter}
    (hf : (f (r.heap a)).count c = (r.heap a).count c + n) :
    total (r.update a f) c = total r c + n := by
  obtain ⟨host, hl⟩ := (listed_iff r).mp h
  have hrest : total ((r.update a f).remove host) c = total (r.remove host) c :=
    total_update_unlisted (r.remove host) ((listed_eq_false _).mpr (r.not_listed_remove hl)) f c
  rw [total_remove (r.update a f) hl c, hrest, total_remove r hl c, update_heap_self, hf]
  exact add_right_comm _ _ _

lemma total_fetchAdd (a : Arc) (n : UInt64) (c d : Counter) :
    total (r.update a (·.fetchAdd n d)) c =
      total r c + if listed r a = true ∧ c = d then n else 0 := by
  by_cases h : listed r a = true
  · rw [total_update_listed r h (count_fetchAdd (r.heap a) n c d)]
    simp [h]
  · rw [total_update_unlisted r (Bool.not_eq_true _ ▸ h)]
    simp [h]

lemma total_observeIp (a : Arc) (addr : Net.IpAddr) (c : Counter) :
    total (r.update a (·.observeIp addr)) c = total r c := by
  by_cases h : listed r a = true
  · rw [total_update_listed r h (n := 0) (by simp), add_zero]
  · rw [total_update_unlisted r (Bool.not_eq_true _ ▸ h)]

/-! ### Looking up a host -/

lemma endpoint_of_some {host : Text} {a : Arc} (h : r.endpoints.lookup host = some a) :
    r.endpoint host = (a, r) := by
  simp [endpoint, h]

lemma endpoint_of_none {host : Text} (h : r.endpoints.lookup host = none) :
    ∃ ha hn, r.endpoint host = (r.next, r.alloc.list host r.next ha hn) := by
  refine ⟨Nat.lt_succ_self _, fun k hk => Nat.lt_irrefl _ (r.allocated k _ hk), ?_⟩
  simp [endpoint, h]

lemma alloc_heap_of_lt {a : Arc} (h : a < r.next) : r.alloc.heap a = r.heap a := by
  simp [alloc, Nat.ne_of_lt h]

@[simp] lemma alloc_heap_next : r.alloc.heap r.next = EndpointStats.fresh := by simp [alloc]

lemma next_endpoint_le (host : Text) : r.next ≤ (r.endpoint host).2.next := by
  cases hl : r.endpoints.lookup host with
  | some b => rw [endpoint_of_some r hl]
  | none =>
    obtain ⟨ha, hn, he⟩ := endpoint_of_none r hl
    rw [he]
    exact Nat.le_succ _

lemma endpoint_lt_next (host : Text) : (r.endpoint host).1 < (r.endpoint host).2.next := by
  cases hl : r.endpoints.lookup host with
  | some b =>
    rw [endpoint_of_some r hl]
    exact r.allocated _ _ hl
  | none =>
    obtain ⟨ha, hn, he⟩ := endpoint_of_none r hl
    rw [he]
    exact Nat.lt_succ_self _

lemma total_endpoint (host : Text) (c : Counter) : total (r.endpoint host).2 c = total r c := by
  cases h : r.endpoints.lookup host with
  | some a => rw [endpoint_of_some r h]
  | none =>
    obtain ⟨ha, hn, he⟩ := endpoint_of_none r h
    have halloc : total r.alloc c = total r c :=
      HashMap.sum_congr fun k b hb => by rw [alloc_heap_of_lt r (r.allocated k b hb)]
    rw [he, total_list r.alloc ha hn h c, halloc, alloc_heap_next, count_fresh, zero_add]

lemma listed_endpoint {a : Arc} (host : Text) (h : listed r a = true) :
    listed (r.endpoint host).2 a = true := by
  cases hl : r.endpoints.lookup host with
  | some b => rwa [endpoint_of_some r hl]
  | none =>
    obtain ⟨ha, hn, he⟩ := endpoint_of_none r hl
    obtain ⟨k, hk⟩ := (listed_iff r).mp h
    have hne : k ≠ host := by
      rintro rfl
      rw [hl] at hk
      cases hk
    rw [he, listed_iff]
    exact ⟨k, (HashMap.lookup_insert_eq_ite _ _ _ _).trans (by rw [if_neg hne]; exact hk)⟩

/-! ### Taking a host out -/

/-- What the map section of a rename can do. -/
inductive TakesOut (src dst : Text) : Registry × Option (Arc × Arc) → Prop
  | absent (h : src = dst ∨ r.endpoints.lookup src = none) : TakesOut src dst (r, none)
  | moved {stats : Arc} (ne : src ≠ dst) (hs : r.endpoints.lookup src = some stats)
      (hd : r.endpoints.lookup dst = none) (ha hn) :
      TakesOut src dst ((r.remove src).list dst stats ha hn, none)
  | merged {stats existing : Arc} (ne : src ≠ dst) (hs : r.endpoints.lookup src = some stats)
      (hd : r.endpoints.lookup dst = some existing) :
      TakesOut src dst (r.remove src, some (stats, existing))

lemma takeOut_cases (src dst : Text) : TakesOut r src dst (r.takeOut src dst) := by
  unfold takeOut
  split_ifs with hne
  · exact .absent (.inl hne)
  · have hd : (r.remove src).endpoints.lookup dst = r.endpoints.lookup dst :=
      AList.lookup_erase_ne (Ne.symm hne)
    split
    · next hs => exact .absent (.inr hs)
    · next stats hs =>
      split
      · next existing he => exact .merged hne hs (hd.symm.trans he)
      · next he => exact .moved hne hs (hd.symm.trans he) _ _

/-- The blocks of a merge are two. -/
lemma ne_of_lookup {src dst : Text} {stats existing : Arc} (ne : src ≠ dst)
    (hs : r.endpoints.lookup src = some stats) (hd : r.endpoints.lookup dst = some existing) :
    stats ≠ existing := by
  rintro rfl
  exact ne (r.distinct _ _ _ hs hd)

lemma listed_remove {src dst : Text} {existing : Arc} (ne : src ≠ dst)
    (hd : r.endpoints.lookup dst = some existing) : listed (r.remove src) existing = true :=
  (listed_iff _).mpr ⟨dst, (AList.lookup_erase_ne (Ne.symm ne)).trans hd⟩

/-! ### Rows -/

lemma row_of_lookup {host : Text} {a : Arc} (h : r.endpoints.lookup host = some a) :
    r.row host = some (r.heap a) := by
  simp [row, h]

lemma row_eq_none {host : Text} : r.row host = none ↔ r.endpoints.lookup host = none := by
  simp [row]

lemma row_isSome {host : Text} : (r.row host).isSome = true ↔ host ∈ r.endpoints := by
  simp [row, AList.lookup_isSome]

lemma row_remove (host k : Text) : (r.remove host).row k = if k = host then none else r.row k := by
  simp only [row, remove, HashMap.lookup_erase_eq_ite]
  split_ifs <;> rfl

lemma row_list {host : Text} {a : Arc} (ha hn) (k : Text) :
    (r.list host a ha hn).row k = if k = host then some (r.heap a) else r.row k := by
  simp only [row, list, HashMap.lookup_insert_eq_ite]
  split_ifs <;> rfl

lemma row_update {host : Text} {a : Arc} (h : r.endpoints.lookup host = some a)
    (f : EndpointStats → EndpointStats) (k : Text) :
    (r.update a f).row k = if k = host then some (f (r.heap a)) else r.row k := by
  by_cases hk : k = host
  · subst hk
    rw [if_pos rfl, row_of_lookup (r.update a f) h, update_heap_self]
  · rw [if_neg hk]
    cases hl : r.endpoints.lookup k with
    | none => rw [(row_eq_none r).mpr hl, (row_eq_none (r.update a f)).mpr hl]
    | some b =>
      have hne : b ≠ a := by
        rintro rfl
        exact hk (r.distinct _ _ _ hl h)
      rw [row_of_lookup r hl, row_of_lookup (r.update a f) hl, update_heap_ne r f hne]

/-! ### The counters of one host -/

/-- A counter of the block listed for `host`, zero if there is none. -/
def value (host : Text) (c : Counter) : UInt64 := (r.row host).elim 0 (·.count c)

lemma value_of_lookup {host : Text} {a : Arc} (h : r.endpoints.lookup host = some a) (c : Counter) :
    value r host c = (r.heap a).count c := by
  rw [value, row_of_lookup r h, Option.elim_some]

lemma value_of_none {host : Text} (h : r.endpoints.lookup host = none) (c : Counter) :
    value r host c = 0 := by
  rw [value, (row_eq_none r).mpr h, Option.elim_none]

/-- An addition through a handle reaches the host whose block it is. -/
lemma value_fetchAdd (a : Arc) (n : UInt64) (d : Counter) (host : Text) (c : Counter) :
    value (r.update a (·.fetchAdd n d)) host c =
      value r host c + if r.endpoints.lookup host = some a ∧ c = d then n else 0 := by
  cases hl : r.endpoints.lookup host with
  | none => simp [value_of_none r hl, value_of_none (r.update a _) hl]
  | some b =>
    rw [value_of_lookup r hl, value_of_lookup (r.update a _) hl]
    by_cases hb : b = a
    · subst hb
      rw [update_heap_self, count_fetchAdd]
      simp
    · rw [update_heap_ne r _ hb]
      simp [hb]

lemma value_observeIp (a : Arc) (addr : Net.IpAddr) (host : Text) (c : Counter) :
    value (r.update a (·.observeIp addr)) host c = value r host c := by
  cases hl : r.endpoints.lookup host with
  | none => rw [value_of_none r hl, value_of_none (r.update a _) hl]
  | some b =>
    rw [value_of_lookup r hl, value_of_lookup (r.update a _) hl]
    by_cases hb : b = a
    · subst hb
      rw [update_heap_self, count_observeIp]
    · rw [update_heap_ne r _ hb]

lemma lookup_endpoint (host k : Text) : (r.endpoint host).2.endpoints.lookup k =
    if k = host then some (r.endpoint host).1 else r.endpoints.lookup k := by
  cases hl : r.endpoints.lookup host with
  | some a =>
    rw [endpoint_of_some r hl]
    split_ifs with hk
    · rw [hk, hl]
    · rfl
  | none =>
    obtain ⟨ha, hn, he⟩ := endpoint_of_none r hl
    rw [he]
    exact HashMap.lookup_insert_eq_ite _ _ _ _

lemma lookup_endpoint_of_some {k : Text} {a : Arc} (host : Text)
    (h : r.endpoints.lookup k = some a) : (r.endpoint host).2.endpoints.lookup k = some a := by
  rw [lookup_endpoint]
  split_ifs with hk
  · rw [hk] at h
    rw [endpoint_of_some r h]
  · exact h

lemma value_endpoint (host k : Text) (c : Counter) :
    value (r.endpoint host).2 k c = value r k c := by
  cases hl : r.endpoints.lookup host with
  | some a => rw [endpoint_of_some r hl]
  | none =>
    have hlist := lookup_endpoint r host k
    obtain ⟨ha, hn, he⟩ := endpoint_of_none r hl
    rw [he] at hlist ⊢
    by_cases hk : k = host
    · rw [if_pos hk] at hlist
      rw [value_of_lookup _ hlist, hk, value_of_none r hl]
      exact (congrArg (·.count c) (alloc_heap_next r)).trans (count_fresh c)
    · rw [if_neg hk] at hlist
      cases hkl : r.endpoints.lookup k with
      | none => rw [value_of_none r hkl, value_of_none _ (hlist.trans hkl)]
      | some b =>
        rw [value_of_lookup r hkl, value_of_lookup _ (hlist.trans hkl)]
        exact congrArg (·.count c) (alloc_heap_of_lt r (r.allocated k b hkl))

lemma row_endpoint (host k : Text) :
    (r.endpoint host).2.row k = if k = host then some ((r.row host).getD fresh) else r.row k := by
  cases hl : r.endpoints.lookup host with
  | some a =>
    rw [endpoint_of_some r hl, row_of_lookup r hl]
    split_ifs with hk
    · rw [hk, row_of_lookup r hl, Option.getD_some]
    · rfl
  | none =>
    obtain ⟨ha, hn, he⟩ := endpoint_of_none r hl
    rw [he, row_list r.alloc ha hn, alloc_heap_next, (row_eq_none r).mpr hl, Option.getD_none]
    split_ifs with hk
    · rfl
    · refine Option.map_congr fun a ha => ?_
      exact alloc_heap_of_lt r (r.allocated k a ha)

/-! ### Merging -/

/-- A block after another was merged into it. -/
def absorbStats (e s : EndpointStats) : EndpointStats where
  ingress := e.ingress + s.ingress
  egress := e.egress + s.egress
  connections := e.connections + s.connections
  ip := e.ip.or s.ip

lemma count_absorbStats (e s : EndpointStats) (c : Counter) :
    (absorbStats e s).count c = e.count c + s.count c := by
  cases c <;> rfl

lemma update_update (a : Arc) (f g : EndpointStats → EndpointStats) :
    (r.update a f).update a g = r.update a (g ∘ f) := by
  simp [update]

lemma iterate_update (a : Arc) (f : EndpointStats → EndpointStats) (n : ℕ) :
    (fun r : Registry => r.update a f)^[n] r = r.update a f^[n] := by
  induction n generalizing r with
  | zero => simp [update]
  | succ n ih => rw [Function.iterate_succ_apply, ih, update_update, ← Function.iterate_succ]

lemma iterate_addConnection (s : EndpointStats) (n : ℕ) :
    addConnection^[n] s = { s with connections := s.connections + UInt64.ofNat n } := by
  induction n generalizing s with
  | zero => simp
  | succ n ih =>
    have hn : UInt64.ofNat (n + 1) = 1 + UInt64.ofNat n := by
      rw [UInt64.ofNat_add]
      exact add_comm _ _
    rw [Function.iterate_succ_apply, ih, hn]
    simp [addConnection, fetchAdd, add_assoc]

/-- **A merge is one access to the block it merges into.** -/
theorem merge_eq {stats existing : Arc} (h : stats ≠ existing) :
    r.merge stats existing = r.update existing (absorbStats · (r.heap stats)) := by
  have hs : ∀ f, (r.update existing f).heap stats = r.heap stats := fun f =>
    update_heap_ne r f h
  simp only [merge, update_update, iterate_update, hs]
  rcases r.heap stats with ⟨i, e, n, ip⟩
  have hcore : ∀ s : EndpointStats,
      (addConnection^[n.toNat] ∘ (·.addEgress e) ∘ (·.addIngress i)) s =
        { s with ingress := s.ingress + i, egress := s.egress + e,
                 connections := s.connections + n } := by
    intro s
    simp [iterate_addConnection, addEgress, addIngress, fetchAdd]
  cases ip with
  | none =>
    refine congrArg (r.update existing) (funext fun s => ?_)
    exact (hcore s).trans (by simp [absorbStats])
  | some ip =>
    refine congrArg (r.update existing) (funext fun s => ?_)
    rw [Function.comp_apply, hcore s]
    cases hip : s.ip <;> simp [absorbStats, observeIp, hip]

/-- **A rename moves a row.** -/
theorem row_rename (src dst : Text) : (r.rename src dst).row = Rekey.move absorbStats r.row src dst := by
  have hcases := takeOut_cases r src dst
  unfold rename
  generalize r.takeOut src dst = out at hcases
  cases hcases with
  | absent h =>
    by_cases hne : src = dst
    · simp [Rekey.move, hne]
    · have hsrc := (row_eq_none r).mpr (h.resolve_left hne)
      funext k
      simp only [Rekey.move, if_neg hne, hsrc, Rekey.absorb_none_right]
      split_ifs with hk hd
      · rw [hk, hsrc]
      · rw [hd]
      · rfl
  | moved ne hs hd ha hn =>
    funext k
    simp only [row_list, row_remove, Rekey.move, if_neg ne, (row_eq_none r).mpr hd,
      row_of_lookup r hs, Rekey.absorb_none_left]
    split_ifs with hk hk' hk'
    · exact absurd (hk'.symm.trans hk) ne
    · rfl
    · rfl
    · rfl
  | @merged stats existing ne hs hd =>
    have hd' : (r.remove src).endpoints.lookup dst = some existing :=
      (AList.lookup_erase_ne (Ne.symm ne)).trans hd
    funext k
    simp only [merge_eq (r.remove src) (ne_of_lookup r ne hs hd), row_update _ hd', row_remove,
      Rekey.move, if_neg ne, row_of_lookup r hs, row_of_lookup r hd, Rekey.absorb]
    split_ifs with hk hk' hk'
    · exact absurd (hk'.symm.trans hk) ne
    · rfl
    · rfl
    · rfl

lemma total_rename (src dst : Text) (c : Counter) : total (r.rename src dst) c = total r c := by
  have hcases := takeOut_cases r src dst
  unfold rename
  generalize r.takeOut src dst = out at hcases
  cases hcases with
  | absent h => rfl
  | moved ne hs hd ha hn =>
    have hd' := (AList.lookup_erase_ne (Ne.symm ne)).trans hd
    rw [total_remove r hs]
    exact total_list (r.remove src) ha hn hd' c
  | @merged stats existing ne hs hd =>
    have hlisted := listed_remove r ne hd
    have hmerge := merge_eq (r.remove src) (ne_of_lookup r ne hs hd)
    calc total ((r.remove src).merge stats existing) c
        = total ((r.remove src).update existing (absorbStats · (r.heap stats))) c := by rw [hmerge]; rfl
      _ = total (r.remove src) c + (r.heap stats).count c :=
          total_update_listed _ hlisted (count_absorbStats _ _ c)
      _ = total r c := by rw [total_remove r hs, add_comm]

/-! ### Snapshots -/

lemma mem_snapshotOf (filter : Option Text) {listing : List (Text × Arc)}
    (h : HashMap.Lists r.endpoints listing) (e : Endpoint) :
    e ∈ r.snapshotOf filter listing ↔
      ∃ s, r.row e.domain = some s ∧ e = Endpoint.of filter e.domain s := by
  rw [snapshotOf, List.mem_insertionSort, List.mem_map]
  constructor
  · rintro ⟨⟨host, a⟩, hm, rfl⟩
    exact ⟨r.heap a, row_of_lookup r ((HashMap.mem_lists h).mp hm), rfl⟩
  · rintro ⟨s, hs, he⟩
    obtain ⟨a, ha, rfl⟩ := Option.map_eq_some_iff.mp hs
    exact ⟨(e.domain, a), (HashMap.mem_lists h).mpr ha, he.symm⟩

lemma nodup_domains (filter : Option Text) {listing : List (Text × Arc)}
    (h : HashMap.Lists r.endpoints listing) :
    ((r.snapshotOf filter listing).map (·.domain)).Nodup := by
  have hp := List.perm_insertionSort (fun a b : Endpoint => a.key ≤ b.key)
    (listing.map fun e => Endpoint.of filter e.1 (r.heap e.2))
  rw [snapshotOf, (hp.map _).nodup_iff, List.map_map]
  exact HashMap.nodup_lists h

/-- No two rows of a snapshot tie. -/
lemma snapshotOf_strict (filter : Option Text) {listing : List (Text × Arc)}
    (h : HashMap.Lists r.endpoints listing) :
    (r.snapshotOf filter listing).Pairwise fun a b => a.key < b.key := by
  have hle : (r.snapshotOf filter listing).Pairwise fun a b => a.key ≤ b.key :=
    List.pairwise_insertionSort _ _
  have hne := List.pairwise_map.mp (nodup_domains r filter h)
  refine (hle.and hne).imp fun ⟨hab, hdom⟩ => lt_of_le_of_ne hab fun hkey => hdom ?_
  exact congrArg (fun k => (ofLex (ofLex k).2).2) hkey

/-- **A snapshot shows the rows and nothing else**: not the blocks they live in, and not the
order the map lists them in. -/
theorem snapshotOf_eq_iff {r r' : Registry} (filter : Option Text)
    {listing listing' : List (Text × Arc)} (h : HashMap.Lists r.endpoints listing)
    (h' : HashMap.Lists r'.endpoints listing') :
    r.snapshotOf filter listing = r'.snapshotOf filter listing' ↔ r.row = r'.row := by
  have hmem := mem_snapshotOf r filter h
  have hmem' := mem_snapshotOf r' filter h'
  constructor
  · intro heq
    rw [heq] at hmem
    funext host
    have hiff : ∀ s, r.row host = some s ↔ r'.row host = some s := by
      intro s
      have hof : ∀ t, Endpoint.of filter host s = Endpoint.of filter host t → s = t := by
        intro t ht
        have hip : s.ip = t.ip := congrArg Endpoint.ipAddress ht
        exact ext_count (fun c => by
          rw [← Endpoint.count_of filter host s, ht, Endpoint.count_of]) hip
      constructor
      · intro hs
        obtain ⟨t, ht, he⟩ := (hmem' (.of filter host s)).mp ((hmem _).mpr ⟨s, hs, rfl⟩)
        rwa [hof t he]
      · intro hs
        obtain ⟨t, ht, he⟩ := (hmem (.of filter host s)).mp ((hmem' _).mpr ⟨s, hs, rfl⟩)
        rwa [hof t he]
    exact Option.ext hiff
  · intro hrow
    have hsame : ∀ e, e ∈ r.snapshotOf filter listing ↔ e ∈ r'.snapshotOf filter listing' := by
      intro e
      rw [hmem, hmem', hrow]
    have hperm := (List.perm_ext_iff_of_nodup (nodup_domains r filter h).of_map
      (nodup_domains r' filter h').of_map).mpr hsame
    -- two rows the order cannot tell apart have one name, hence are one row
    have hanti : ∀ a b : Endpoint, a ∈ r.snapshotOf filter listing →
        b ∈ r'.snapshotOf filter listing' → a.key ≤ b.key → b.key ≤ a.key → a = b := by
      intro a b ha hb hab hba
      obtain ⟨s, hs, hea⟩ := (hmem a).mp ha
      obtain ⟨t, ht, heb⟩ := (hmem' b).mp hb
      have hkey : a.key = b.key := le_antisymm hab hba
      have hdom : a.domain = b.domain := congrArg (fun k => (ofLex (ofLex k).2).2) hkey
      rw [hrow, hdom, ht] at hs
      rw [hea, heb, hdom, Option.some.inj hs]
    exact List.Perm.eq_of_pairwise hanti (List.pairwise_insertionSort _ _)
      (List.pairwise_insertionSort _ _) hperm

/-- **The rows of a snapshot hold the total.** -/
theorem sum_snapshotOf (filter : Option Text) {listing : List (Text × Arc)}
    (h : HashMap.Lists r.endpoints listing) (c : Counter) :
    ((r.snapshotOf filter listing).map (·.count c)).sum = total r c := by
  have hp := List.perm_insertionSort (fun a b : Endpoint => a.key ≤ b.key)
    (listing.map fun e => Endpoint.of filter e.1 (r.heap e.2))
  have hs := HashMap.sum_lists (fun a => (r.heap a).count c) h
  rw [snapshotOf, (hp.map _).sum_eq, List.map_map, total, ← hs]
  simp [Function.comp_def]

end Wiretally.Registry
