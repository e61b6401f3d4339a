import Wiretally.Registry

/-!
Replacing endpoint keys that are bare addresses with their reverse names.

The hosts are listed once, in whatever order the map iterates in; those that parse as an
address are looked up, and each that has a name is renamed to it. On the rows this is a
sequence of moves. Where no name is an address itself, each row ends up holding what was
counted under the keys it stands for. In general, the report does not depend on the order of
the listing exactly when no renamed key receives another one and the addresses observed for
one name agree.
-/

namespace Wiretally.Resolve

open Wiretally.Lib Wiretally.Net Wiretally.Stats Wiretally.Registry

/-- The listed hosts that are bare addresses. -/
def ipHosts (listing : List (Text × Arc)) : List (Text × IpAddr) :=
  listing.filterMap fun e => (IpAddr.parse e.1).map fun ip => (e.1, ip)

/-- The renames to issue, where `ptr` is what the reverse resolver answers. -/
def renames (ptr : IpAddr → Option Text) (listing : List (Text × Arc)) : List (Text × Text) :=
  (ipHosts listing).filterMap fun e => (ptr e.2).map fun name => (e.1, name)

/-- `resolve_ip_only_endpoints` while no handle is written. -/
def resolveIpOnlyEndpoints (ptr : IpAddr → Option Text) (listing : List (Text × Arc))
    (r : Registry) : Registry :=
  (renames ptr listing).foldl (fun r e => r.rename e.1 e.2) r

/-! ### The renames as moves of rows -/

variable (ptr : IpAddr → Option Text)

/-- The name a key is replaced with, if any. -/
def reverseName (host : Text) : Option Text := (IpAddr.parse host).bind ptr

/-- The key the entry of `host` is reported under. -/
def canon (host : Text) : Text :=
  match IpAddr.parse host with
  | some ip => (ptr ip).getD host
  | none => host

lemma canon_eq_dest (host : Text) : canon ptr host = Rekey.dest (reverseName ptr) host := by
  unfold canon Rekey.dest reverseName
  cases IpAddr.parse host <;> rfl

/-- The new name of a key that gets one. -/
def renamed (host : Text) : Option Text := (reverseName ptr host).filter fun name => name ≠ host

lemma renamed_ne (host : Text) : renamed ptr host ≠ some host := by
  simp [renamed, Option.filter_eq_some_iff]

lemma renames_eq_movesOf (listing : List (Text × Arc)) :
    renames ptr listing = Rekey.movesOf (reverseName ptr) (listing.map Prod.fst) := by
  induction listing with
  | nil => rfl
  | cons e listing ih =>
    unfold renames ipHosts Rekey.movesOf at ih ⊢
    cases hp : IpAddr.parse e.1 with
    | none => simpa [reverseName, hp] using ih
    | some ip => cases hn : ptr ip <;> simpa [reverseName, hp, hn] using ih

lemma filter_movesOf (keys : List Text) :
    ((Rekey.movesOf (reverseName ptr) keys).filter fun m => m.1 ≠ m.2) =
      Rekey.movesOf (renamed ptr) keys := by
  induction keys with
  | nil => rfl
  | cons k keys ih =>
    unfold Rekey.movesOf at ih ⊢
    cases hn : reverseName ptr k with
    | none => simpa [renamed, hn] using ih
    | some name =>
      by_cases hk : name = k
      · simpa [renamed, hn, hk] using ih
      · simpa [renamed, hn, hk, Ne.symm hk] using ih

lemma row_foldl_rename (l : List (Text × Text)) (r : Registry) :
    (l.foldl (fun r e => r.rename e.1 e.2) r).row = Rekey.moveAll absorbStats r.row l := by
  induction l generalizing r with
  | nil => rfl
  | cons e l ih =>
    rw [List.foldl_cons, ih, row_rename]
    rfl

/-- **Resolving moves the rows.** -/
theorem row_resolve (listing : List (Text × Arc)) (r : Registry) :
    (resolveIpOnlyEndpoints ptr listing r).row =
      Rekey.moveAll absorbStats r.row (Rekey.movesOf (renamed ptr) (listing.map Prod.fst)) := by
  rw [resolveIpOnlyEndpoints, row_foldl_rename, renames_eq_movesOf, ← Rekey.moveAll_filter,
    filter_movesOf]

lemma total_resolve (listing : List (Text × Arc)) (r : Registry) (c : Counter) :
    total (resolveIpOnlyEndpoints ptr listing r) c = total r c := by
  unfold resolveIpOnlyEndpoints
  induction renames ptr listing generalizing r with
  | nil => rfl
  | cons e l ih => rw [List.foldl_cons, ih, total_rename]

lemma mem_keys_of_row {r : Registry} {listing : List (Text × Arc)}
    (hl : HashMap.Lists r.endpoints listing) (host : Text) :
    (r.row host).isSome = true ↔ host ∈ listing.map Prod.fst := by
  rw [row_isSome, ← AList.lookup_isSome, Option.isSome_iff_exists]
  constructor
  · rintro ⟨a, ha⟩
    exact List.mem_map.mpr ⟨(host, a), (HashMap.mem_lists hl).mpr ha, rfl⟩
  · intro h
    obtain ⟨⟨_, a⟩, hm, rfl⟩ := List.mem_map.mp h
    exact ⟨a, (HashMap.mem_lists hl).mp hm⟩

/-! ### Names that are no addresses -/

/-- The rows of `r'` are those of `r`, each key replaced by the one it stands for. -/
structure Resolved (r r' : Registry) : Prop where
  keys : ∀ n, n ∈ r'.endpoints ↔ ∃ host ∈ r.endpoints, canon ptr host = n
  sums : ∀ n s c, r'.row n = some s →
    s.count c = ((r.hosts.filter fun e => canon ptr e.1 = n).map fun e => (r.heap e.2).count c).sum
  untouched : ∀ n, IpAddr.parse n = none →
    (∀ host ∈ r.endpoints, ∀ ip, IpAddr.parse host = some ip → ptr ip ≠ some n) →
    r'.row n = r.row n
  totals : ∀ c, total r' c = total r c

section NoAddresses

variable {ptr} (hptr : ∀ ip name, ptr ip = some name → IpAddr.parse name = none)

include hptr

lemma renamed_name {host name : Text} (h : reverseName ptr host = some name) :
    renamed ptr name = none := by
  obtain ⟨ip, -, hip⟩ := Option.bind_eq_some_iff.mp h
  simp [renamed, reverseName, hptr ip name hip]

lemma renamed_eq_reverseName : renamed ptr = reverseName ptr := by
  funext host
  cases h : reverseName ptr host with
  | none => simp [renamed, h]
  | some name =>
    have hne : name ≠ host := by
      rintro rfl
      have hname := renamed_name hptr h
      obtain ⟨ip, hp, hip⟩ := Option.bind_eq_some_iff.mp h
      rw [hptr ip name hip] at hp
      cases hp
    simp [renamed, h, hne]

lemma unchained_renamed (keys : List Text) : Rekey.Unchained (renamed ptr) keys := by
  intro k _ d _ h
  rw [renamed_eq_reverseName hptr] at h
  exact renamed_name hptr h

end NoAddresses

/-- **Resolving, whatever the order.** Where no reverse name is an address, each row holds in
the end what was counted under the keys it stands for. -/
theorem resolved_resolveIpOnlyEndpoints {ptr : IpAddr → Option Text}
    (hptr : ∀ ip name, ptr ip = some name → IpAddr.parse name = none) (r : Registry)
    {listing : List (Text × Arc)} (hl : HashMap.Lists r.endpoints listing) :
    Resolved ptr r (resolveIpOnlyEndpoints ptr listing r) := by
  have hn := HashMap.nodup_lists hl
  have hu := unchained_renamed hptr (listing.map Prod.fst)
  have hk : ∀ k, (r.row k).isSome = true → k ∈ listing.map Prod.fst := fun k =>
    (mem_keys_of_row hl k).mp
  have hcanon : ∀ k, canon ptr k = Rekey.dest (renamed ptr) k := fun k => by
    rw [canon_eq_dest, renamed_eq_reverseName hptr]
  refine ⟨fun n => ?_, fun n s c hs => ?_, fun n hp hname => ?_, total_resolve ptr listing r⟩
  · rw [← row_isSome, row_resolve, Rekey.moveAll_isSome_iff hn hu hk]
    simp only [row_isSome, hcanon]
  · have hw : Rekey.weight (·.count c) ((resolveIpOnlyEndpoints ptr listing r).row n) =
        s.count c := by
      rw [hs]
      rfl
    have hlisted : ((listing.map Prod.fst).filter fun k => canon ptr k = n).map
        (fun k => Rekey.weight (·.count c) (r.row k)) =
        (listing.filter fun e => canon ptr e.1 = n).map fun e => (r.heap e.2).count c := by
      rw [List.filter_map, List.map_map]
      refine List.map_congr_left fun e he => ?_
      have hm := (HashMap.mem_lists hl).mp (List.mem_filter.mp he).1
      simp only [Function.comp_apply, row_of_lookup r hm]
      rfl
    rw [← hw, row_resolve, Rekey.weight_moveAll (fun e s => count_absorbStats e s c) hn hu hk]
    simp only [← hcanon]
    rw [hlisted]
    exact ((hl.filter _).map _).sum_eq
  · have hnone : renamed ptr n = none := by simp [renamed, reverseName, hp]
    have hno : ((listing.map Prod.fst).filter fun k => renamed ptr k = some n) = [] := by
      rw [List.filter_eq_nil_iff]
      intro k hkm hkn
      have hkn : renamed ptr k = some n := of_decide_eq_true hkn
      rw [renamed_eq_reverseName hptr] at hkn
      obtain ⟨ip, hip, hname'⟩ := Option.bind_eq_some_iff.mp hkn
      exact hname k ((row_isSome r).mp ((mem_keys_of_row hl k).mpr hkm)) ip hip hname'
    rw [row_resolve, Rekey.moveAll_movesOf hn hu, hnone, hno]
    simp

/-- Two addresses recorded under their own text, one of them with its counters moved. -/
def twoAddresses : Registry :=
  let r := (Registry.new.endpoint "10.0.0.1".toList).2
  let r := (r.endpoint "10.0.0.2".toList).2
  let r := (r.update 0 (·.addIngress 7)).update 0 (·.observeIp (.v4 ⟨[10, 0, 0, 1], rfl⟩))
  r.update 1 (·.observeIp (.v4 ⟨[10, 0, 0, 2], rfl⟩))

/-- A resolver that knows one name for every address. -/
def oneName (_ : IpAddr) : Option Text := some "host.example".toList

theorem resolved_resolveIpOnlyEndpoints_twoAddresses :
    Resolved oneName twoAddresses (resolveIpOnlyEndpoints oneName twoAddresses.hosts twoAddresses) :=
  resolved_resolveIpOnlyEndpoints
    (by
      rintro ip name ⟨⟩
      decide +kernel)
    twoAddresses (HashMap.lists_toList _)

end Wiretally.Resolve
