import Mathlib.Algebra.BigOperators.Group.List.Basic
import Mathlib.Data.List.AList

/-!
Hash maps, as Mathlib's association lists without duplicate keys.

The order of the entries is one order an iteration may take; a listing is any other. What
does not depend on the order is said of the listing: the sum of a measure over the values,
and how inserting and removing a key change it.
-/

namespace Wiretally.Lib

/-- A map with at most one value for a key. -/
abbrev HashMap (K V : Type) := AList fun _ : K => V

namespace HashMap

variable {K V : Type}

/-- The entries in some order a traversal of the map may take. -/
def Lists (m : HashMap K V) (l : List (K × V)) : Prop :=
  l.Perm (m.entries.map fun e => (e.1, e.2))

def toList (m : HashMap K V) : List (K × V) := m.entries.map fun e => (e.1, e.2)

lemma lists_toList (m : HashMap K V) : Lists m (toList m) := List.Perm.refl _

def sum {M : Type} [AddCommMonoid M] (f : V → M) (m : HashMap K V) : M :=
  (m.entries.map fun e => f e.2).sum

lemma sum_lists {M : Type} [AddCommMonoid M] (f : V → M) {m : HashMap K V} {l : List (K × V)}
    (h : Lists m l) : (l.map fun e => f e.2).sum = sum f m := by
  rw [(h.map fun e => f e.2).sum_eq, List.map_map]
  rfl

lemma nodup_lists {m : HashMap K V} {l : List (K × V)} (h : Lists m l) :
    (l.map Prod.fst).Nodup := by
  rw [(h.map Prod.fst).nodup_iff]
  have := m.nodupKeys
  simpa [List.NodupKeys, List.keys, Function.comp_def] using this

variable [DecidableEq K]

lemma mem_lists {m : HashMap K V} {l : List (K × V)} (h : Lists m l) {k : K} {v : V} :
    (k, v) ∈ l ↔ m.lookup k = some v := by
  rw [h.mem_iff, ← Option.mem_def, AList.mem_lookup_iff]
  constructor
  · intro hm
    obtain ⟨e, he, heq⟩ := List.mem_map.mp hm
    cases heq
    exact he
  · intro he
    exact List.mem_map.mpr ⟨⟨k, v⟩, he, rfl⟩

lemma lookup_insert_eq_ite (m : HashMap K V) (k j : K) (v : V) :
    (m.insert k v).lookup j = if j = k then some v else m.lookup j := by
  split_ifs with h
  · subst h; exact AList.lookup_insert m
  · exact AList.lookup_insert_ne h

lemma lookup_erase_eq_ite (m : HashMap K V) (k j : K) :
    (m.erase k).lookup j = if j = k then none else m.lookup j := by
  split_ifs with h
  · subst h; exact AList.lookup_erase j m
  · exact AList.lookup_erase_ne h

section Sum

variable {M : Type} [AddCommMonoid M]

lemma sum_insert_new (f : V → M) {m : HashMap K V} {k : K} (v : V) (h : m.lookup k = none) :
    sum f (m.insert k v) = f v + sum f m := by
  simp [sum, List.kerase_of_notMem_keys (AList.lookup_eq_none.mp h)]

lemma sum_erase (f : V → M) {m : HashMap K V} {k : K} {v : V} (h : m.lookup k = some v) :
    sum f m = f v + sum f (m.erase k) := by
  have hk : k ∈ m.entries.keys := AList.lookup_isSome.mp (by rw [h]; rfl)
  obtain ⟨w, l₁, l₂, -, hl, he⟩ := List.exists_of_kerase hk
  have hw : w = v := by
    have hm : w ∈ m.lookup k := AList.mem_lookup_iff.mpr (by rw [hl]; simp)
    exact Option.some.inj (hm.symm.trans h)
  have hr : (m.erase k).entries = l₁ ++ l₂ := he
  rw [sum, sum, hl, hr, hw]
  simp only [List.map_append, List.map_cons, List.sum_append, List.sum_cons]
  exact add_left_comm _ _ _

lemma sum_congr {f g : V → M} {m : HashMap K V}
    (h : ∀ k v, m.lookup k = some v → f v = g v) : sum f m = sum g m := by
  refine congrArg List.sum (List.map_congr_left fun e he => ?_)
  exact h e.1 e.2 (AList.mem_lookup_iff.mpr he)

end Sum

end HashMap

end Wiretally.Lib
