import Mathlib.Algebra.BigOperators.Group.List.Basic
import Mathlib.Data.UInt

/-!
A shared count of guards.

Each holder keeps some number of guards. Whoever takes one raises the count and whoever drops
one lowers it, so the count is the number of guards held, as long as that fits it; reading zero
then means that nobody holds one.
-/

namespace Wiretally.Lib.Guards

variable {C : Type*} (guards : C → ℕ)

/-- The guards held by all holders. -/
def held (cs : List C) : ℕ := (cs.map guards).sum

/-- The count is the number of guards held. -/
def Counts (n : UInt64) (cs : List C) : Prop := n.toNat = held guards cs

variable {guards} {cs : List C} {i : ℕ} {c c' : C} {n : UInt64}

@[simp] lemma held_nil : held guards ([] : List C) = 0 := rfl

@[simp] lemma held_cons (c : C) (cs : List C) : held guards (c :: cs) = guards c + held guards cs := by
  simp [held]

@[simp] lemma held_append (as bs : List C) :
    held guards (as ++ bs) = held guards as + held guards bs := by
  simp [held]

lemma held_set (h : cs[i]? = some c) :
    held guards (cs.set i c') + guards c = held guards cs + guards c' := by
  induction cs generalizing i with
  | nil => simp at h
  | cons d ds ih =>
    cases i with
    | zero =>
      obtain rfl : d = c := by simpa using h
      rw [List.set_cons_zero, held_cons, held_cons]
      omega
    | succ i =>
      have hrest := ih (by simpa using h)
      rw [List.set_cons_succ, held_cons, held_cons]
      omega

lemma held_eq_zero : held guards cs = 0 ↔ ∀ c ∈ cs, guards c = 0 := by
  rw [held, List.sum_eq_zero_iff_forall_eq_nat, List.forall_mem_map]

namespace Counts

/-- **Zero means none.** -/
lemma eq_zero_iff (hn : Counts guards n cs) : n = 0 ↔ ∀ c ∈ cs, guards c = 0 := by
  rw [← held_eq_zero, ← hn, ← UInt64.toNat_inj]
  rfl

lemma keep (hn : Counts guards n cs) (h : cs[i]? = some c) (hg : guards c' = guards c) :
    Counts guards n (cs.set i c') := by
  have hset : held guards (cs.set i c') + guards c = held guards cs + guards c' := held_set h
  unfold Counts at *
  omega

lemma take (hn : Counts guards n cs) (h : cs[i]? = some c) (hg : guards c' = guards c + 1)
    (hroom : held guards cs + 1 < 2 ^ 64) : Counts guards (n + 1) (cs.set i c') := by
  have hset : held guards (cs.set i c') + guards c = held guards cs + guards c' := held_set h
  unfold Counts at *
  have hadd : (n + 1).toNat = (n.toNat + 1) % 2 ^ 64 := UInt64.toNat_add n 1
  rw [Nat.mod_eq_of_lt (by omega)] at hadd
  omega

lemma drop (hn : Counts guards n cs) (h : cs[i]? = some c) (hg : guards c' + 1 = guards c) :
    Counts guards (n - 1) (cs.set i c') := by
  have hset : held guards (cs.set i c') + guards c = held guards cs + guards c' := held_set h
  unfold Counts at *
  have hsub : (n - 1).toNat = n.toNat - 1 := by
    refine UInt64.toNat_sub_of_le n 1 ?_
    rw [UInt64.le_iff_toNat_le]
    have hone : (1 : UInt64).toNat = 1 := rfl
    omega
  omega

lemma append (hn : Counts guards n cs) (hg : guards c = 0) : Counts guards n (cs ++ [c]) := by
  unfold Counts at *
  rw [held_append, held_cons, held_nil]
  omega

end Counts

end Wiretally.Lib.Guards
