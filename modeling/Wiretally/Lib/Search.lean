import Mathlib.Data.List.Infix

/-!
The first occurrence of a pattern in a list.

An occurrence that ends inside a list is found there whatever is appended, and one found in a
longer list is found in every part that contains it from the front. So a search that is
repeated while the list grows finds what a single search of the whole finds.
-/

namespace Wiretally.Lib.Search

variable {α : Type*} [DecidableEq α]

/-- Where the pattern first occurs. -/
def position (pat : List α) : List α → Option ℕ
  | [] => none
  | a :: as => if pat <+: a :: as then some 0 else (position pat as).map (· + 1)

variable {pat : List α}

lemma occurs_of_position {as : List α} {i : ℕ} (h : position pat as = some i) :
    pat <+: as.drop i := by
  induction as generalizing i with
  | nil => cases h
  | cons a as ih =>
    unfold position at h
    split_ifs at h with hp
    · cases h
      exact hp
    · obtain ⟨j, hj, rfl⟩ := Option.map_eq_some_iff.mp h
      exact ih hj

lemma position_le {as : List α} {i : ℕ} (h : position pat as = some i) :
    i + pat.length ≤ as.length := by
  induction as generalizing i with
  | nil => cases h
  | cons a as ih =>
    unfold position at h
    split_ifs at h with hp
    · cases h
      rw [Nat.zero_add]
      exact hp.length_le
    · obtain ⟨j, hj, rfl⟩ := Option.map_eq_some_iff.mp h
      have := ih hj
      rw [List.length_cons]
      omega

lemma position_isSome {as : List α} (hne : pat ≠ []) {i : ℕ} (h : pat <+: as.drop i) :
    (position pat as).isSome = true := by
  induction as generalizing i with
  | nil =>
    rw [List.drop_nil, List.prefix_nil] at h
    exact absurd h hne
  | cons a as ih =>
    unfold position
    split_ifs with hp
    · rfl
    · cases i with
      | zero => exact absurd h hp
      | succ i => rw [Option.isSome_map, ih h]

/-- **What is found stays found** when the list grows. -/
theorem position_append {xs : List α} {i : ℕ} (h : position pat xs = some i) (ys : List α) :
    position pat (xs ++ ys) = some i := by
  induction xs generalizing i with
  | nil => cases h
  | cons a xs ih =>
    unfold position at h
    rw [List.cons_append]
    unfold position
    split_ifs at h with hp
    · cases h
      have hp' : pat <+: a :: (xs ++ ys) := hp.trans (List.prefix_append (a :: xs) ys)
      rw [if_pos hp']
    · obtain ⟨j, hj, rfl⟩ := Option.map_eq_some_iff.mp h
      have hlen := position_le hj
      -- an occurrence at the front would end before the one that was found
      have hp' : ¬ pat <+: a :: (xs ++ ys) := by
        intro hpre
        refine hp (List.prefix_of_prefix_length_le hpre (List.prefix_append (a :: xs) ys) ?_)
        rw [List.length_cons]
        omega
      rw [if_neg hp', ih hj]
      rfl

theorem position_of_append (hne : pat ≠ []) {xs ys : List α} {i : ℕ}
    (h : position pat (xs ++ ys) = some i) (hle : i + pat.length ≤ xs.length) :
    position pat xs = some i := by
  have hocc : pat <+: xs.drop i := by
    refine List.prefix_of_prefix_length_le (occurs_of_position h) ?_ ?_
    · rw [List.drop_append_of_le_length (by omega)]
      exact List.prefix_append _ _
    · rw [List.length_drop]
      omega
  obtain ⟨j, hj⟩ := Option.isSome_iff_exists.mp (position_isSome hne hocc)
  rw [position_append hj] at h
  rw [hj, h]

lemma position_append_of_not_mem {p : α} {xs : List α} (h : p ∉ xs) (rest : List α) :
    position (p :: pat) (xs ++ (p :: pat) ++ rest) = some xs.length := by
  induction xs with
  | nil =>
    have hpre : p :: pat <+: p :: (pat ++ rest) := List.prefix_append (p :: pat) rest
    rw [List.nil_append, List.cons_append]
    unfold position
    rw [if_pos hpre]
    rfl
  | cons a xs ih =>
    have hne : ¬ p :: pat <+: a :: (xs ++ (p :: pat) ++ rest) := fun hpre =>
      h (List.mem_cons.mpr (.inl (List.cons_prefix_cons.mp hpre).1))
    rw [List.cons_append, List.cons_append]
    unfold position
    rw [if_neg hne, ih fun hmem => h (List.mem_cons_of_mem a hmem)]
    rfl

end Wiretally.Lib.Search
