import Wiretally.Resolve

/-!
What the order of the listing can change.

Renames that meet add their counters, which no order can be told from, but the entry that is
there first keeps its address; and an entry moved to a key that is moved later moves on with
it. The report is the same for all orders exactly when neither can happen.
-/

namespace Wiretally.ResolveOrder

open Wiretally.Lib Wiretally.Net Wiretally.Stats Wiretally.Registry Wiretally.Resolve

def observed (r : Registry) (host : Text) : Option IpAddr := (r.row host).bind (·.ip)

/-- No key is renamed to a recorded key that is renamed itself. -/
def NoChain (ptr : IpAddr → Option Text) (r : Registry) : Prop :=
  ∀ host ∈ r.endpoints, ∀ name ∈ r.endpoints,
    renamed ptr host = some name → renamed ptr name = none

/-- No two keys with different addresses are renamed to one name that has none. -/
def OneAddress (ptr : IpAddr → Option Text) (r : Registry) : Prop :=
  ∀ name, observed r name = none → ∀ host ∈ r.endpoints, ∀ host' ∈ r.endpoints,
    renamed ptr host = some name → renamed ptr host' = some name →
    ∀ addr addr', observed r host = some addr → observed r host' = some addr' → addr = addr'

/-- The report is the same whatever order the hosts are listed in, before and after. -/
def OrderFree (ptr : IpAddr → Option Text) (filter : Option Text) (r : Registry) : Prop :=
  ∀ l₁ l₂, HashMap.Lists r.endpoints l₁ → HashMap.Lists r.endpoints l₂ →
    ∀ out₁ out₂, HashMap.Lists (resolveIpOnlyEndpoints ptr l₁ r).endpoints out₁ →
      HashMap.Lists (resolveIpOnlyEndpoints ptr l₂ r).endpoints out₂ →
      (resolveIpOnlyEndpoints ptr l₁ r).snapshotOf filter out₁ =
        (resolveIpOnlyEndpoints ptr l₂ r).snapshotOf filter out₂

lemma exists_listing {r : Registry} {keys : List Text}
    (h : keys.Perm (r.hosts.map Prod.fst)) :
    ∃ l, HashMap.Lists r.endpoints l ∧ l.map Prod.fst = keys := by
  obtain ⟨l, hl, hp⟩ := (congrFun (congrFun (List.eq_map_comp_perm Prod.fst) keys) r.hosts).mpr h
  exact ⟨l, hp, hl.symm⟩

/-- Reports differ only where the moves do. -/
lemma orderFree_iff_moves (ptr : IpAddr → Option Text) (filter : Option Text) (r : Registry) :
    OrderFree ptr filter r ↔
      ∀ keys keys', keys.Perm (r.hosts.map Prod.fst) → keys'.Perm (r.hosts.map Prod.fst) →
        Rekey.moveAll absorbStats r.row (Rekey.movesOf (renamed ptr) keys) =
          Rekey.moveAll absorbStats r.row (Rekey.movesOf (renamed ptr) keys') := by
  constructor
  · intro h keys keys' hk hk'
    obtain ⟨l, hl, rfl⟩ := exists_listing hk
    obtain ⟨l', hl', rfl⟩ := exists_listing hk'
    rw [← row_resolve, ← row_resolve]
    exact (snapshotOf_eq_iff filter (HashMap.lists_toList _) (HashMap.lists_toList _)).mp
      (h l l' hl hl' _ _ (HashMap.lists_toList _) (HashMap.lists_toList _))
  · intro h l l' hl hl' out out' ho ho'
    refine (snapshotOf_eq_iff filter ho ho').mpr ?_
    rw [row_resolve, row_resolve]
    exact h _ _ (hl.map _) (hl'.map _)

/-- **When the order of the listing is immaterial.** -/
theorem orderFree_iff (ptr : IpAddr → Option Text) (filter : Option Text) (r : Registry) :
    OrderFree ptr filter r ↔ NoChain ptr r ∧ OneAddress ptr r := by
  have hl := HashMap.lists_toList r.endpoints
  have hkeys : ∀ host, host ∈ r.hosts.map Prod.fst ↔ host ∈ r.endpoints := fun host =>
    (mem_keys_of_row hl host).symm.trans (row_isSome r)
  have hext : ∀ s t : EndpointStats, s.count = t.count → s.ip = t.ip → s = t :=
    fun s t hc => EndpointStats.ext_count (congrFun hc)
  have horder := Rekey.moveAll_order_iff (f := EndpointStats.count) (g := EndpointStats.ip)
    (fun e s => funext (count_absorbStats e s)) (fun _ _ => rfl) hext (renamed_ne ptr)
    (HashMap.nodup_lists hl) (mem_keys_of_row hl)
  have hcond : Rekey.Unchained (renamed ptr) (r.hosts.map Prod.fst) ∧
      Rekey.Agreeing EndpointStats.ip (renamed ptr) r.row (r.hosts.map Prod.fst) ↔
      NoChain ptr r ∧ OneAddress ptr r := by
    simp only [Rekey.Unchained, Rekey.Agreeing, NoChain, OneAddress, observed, hkeys]
  exact (orderFree_iff_moves ptr filter r).trans (horder.trans hcond)

/-- Two addresses with one name: the one listed first is reported. -/
theorem oneName_not_orderFree : ¬ OrderFree oneName none twoAddresses := by
  intro h
  have hr := h twoAddresses.hosts twoAddresses.hosts.reverse (HashMap.lists_toList _)
    (List.reverse_perm _) _ _ (HashMap.lists_toList _) (HashMap.lists_toList _)
  revert hr
  decide +kernel

end Wiretally.ResolveOrder
