import Mathlib.Data.List.Basic
import Mathlib.Data.List.Infix

/-!
Lists as their fields between separators.

A list is recovered from its fields, so a list ends with another behind a separator, or is that
other, exactly if its fields end with the fields of the other.

Where a separator ends each of its records, a list has the records that were written to it if
none of them holds a separator, and more than were written otherwise.
-/

namespace Wiretally.Lib.Split

variable {α : Type*} {sep : α}

lemma intercalate_append {xs ys : List (List α)} (hx : xs ≠ []) (hy : ys ≠ []) :
    [sep].intercalate (xs ++ ys) = [sep].intercalate xs ++ sep :: [sep].intercalate ys := by
  induction xs with
  | nil => exact absurd rfl hx
  | cons x xs ih =>
    by_cases hxs : xs = []
    · subst hxs
      simp [List.intercalate_cons_of_ne_nil hy]
    · have hne : xs ++ ys ≠ [] := List.append_ne_nil_of_left_ne_nil hxs ys
      rw [List.cons_append, List.intercalate_cons_of_ne_nil hne, ih hxs,
        List.intercalate_cons_of_ne_nil hxs]
      simp

lemma splitOn_append_cons [BEq α] [LawfulBEq α] (xs ys : List α) :
    (xs ++ sep :: ys).splitOn sep = xs.splitOn sep ++ ys.splitOn sep :=
  List.splitOnP_append_cons xs ys (beq_self_eq_true sep)

/-- **Suffixes at a separator** are suffixes of the fields. -/
theorem suffix_iff_splitOn [DecidableEq α] (f d : List α) :
    (d = f ∨ sep :: f <:+ d) ↔ f.splitOn sep <:+ d.splitOn sep := by
  constructor
  · rintro (rfl | ⟨front, rfl⟩)
    · exact List.suffix_rfl
    · rw [splitOn_append_cons]
      exact List.suffix_append _ _
  · rintro ⟨fields, h⟩
    have hd : [sep].intercalate (fields ++ f.splitOn sep) = d := by
      rw [h, List.intercalate_splitOn]
    by_cases hne : fields = []
    · left
      rw [hne, List.nil_append, List.intercalate_splitOn] at hd
      exact hd.symm
    · right
      rw [intercalate_append hne (List.splitOn_ne_nil sep f), List.intercalate_splitOn] at hd
      rw [← hd]
      exact List.suffix_append _ _

/-! ### Fields -/

section Fields

variable [BEq α]

lemma length_splitOn (xs : List α) : (xs.splitOn sep).length = xs.count sep + 1 := by
  induction xs with
  | nil => rfl
  | cons x xs ih =>
    rw [List.splitOn_cons_eq_if_modifyHead, List.count_cons]
    split_ifs with hx
    · rw [List.length_cons, ih]
    · rw [List.length_modifyHead, ih, Nat.add_zero]

lemma length_le_flatMap_splitOn (rs : List (List α)) :
    rs.length ≤ (rs.flatMap (·.splitOn sep)).length := by
  induction rs with
  | nil => exact Nat.zero_le _
  | cons r rs ih =>
    rw [List.flatMap_cons, List.length_append, length_splitOn, List.length_cons]
    omega

lemma length_le_of_mem_splitOn {xs field : List α} (h : field ∈ xs.splitOn sep) :
    field.length ≤ xs.length := by
  induction xs generalizing field with
  | nil =>
    rw [List.mem_singleton.mp h]
    rfl
  | cons x xs ih =>
    rw [List.splitOn_cons_eq_if_modifyHead] at h
    split_ifs at h with hx
    · rcases List.mem_cons.mp h with rfl | h
      · exact Nat.zero_le _
      · exact Nat.le_succ_of_le (ih h)
    · obtain ⟨head, tail, hsplit⟩ := List.exists_cons_of_ne_nil (List.splitOn_ne_nil sep xs)
      rw [hsplit] at h ih
      rcases List.mem_cons.mp h with rfl | h
      · exact Nat.succ_le_succ (ih List.mem_cons_self)
      · exact Nat.le_succ_of_le (ih (List.mem_cons_of_mem head h))

variable [LawfulBEq α]

lemma splitOn_of_not_mem {xs : List α} (h : sep ∉ xs) : xs.splitOn sep = [xs] :=
  List.splitOnP_eq_singleton fun _ hx => beq_eq_false_iff_ne.mpr fun he => h (he ▸ hx)

lemma getLastD_dropLast_splitOn (front : List α) {xs back : List α} (hxs : sep ∉ xs)
    (hback : sep ∉ back) :
    ((front ++ sep :: (xs ++ sep :: back)).splitOn sep).dropLast.getLastD [] = xs := by
  rw [splitOn_append_cons, splitOn_append_cons, splitOn_of_not_mem hxs, splitOn_of_not_mem hback]
  simp

end Fields

/-! ### Records -/

section Records

variable [BEq α] [LawfulBEq α]

/-- The records of a list, each with a separator behind it. What is behind the last is none. -/
def records (sep : α) (xs : List α) : List (List α) := (xs.splitOn sep).dropLast

lemma records_append_cons (xs ys : List α) :
    records sep (xs ++ sep :: ys) = xs.splitOn sep ++ records sep ys := by
  unfold records
  rw [splitOn_append_cons, List.dropLast_append_of_ne_nil (List.splitOn_ne_nil sep ys)]

/-- What is written as a record is read back as its fields. -/
lemma records_flatMap (rs : List (List α)) :
    records sep (rs.flatMap (· ++ [sep])) = rs.flatMap (·.splitOn sep) := by
  induction rs with
  | nil => rfl
  | cons r rs ih =>
    rw [List.flatMap_cons, List.flatMap_cons, List.append_assoc, List.singleton_append,
      records_append_cons, ih]

lemma flatMap_splitOn_of_not_mem {rs : List (List α)} (h : ∀ r ∈ rs, sep ∉ r) :
    rs.flatMap (·.splitOn sep) = rs := by
  induction rs with
  | nil => rfl
  | cons r rs ih =>
    rw [List.flatMap_cons, splitOn_of_not_mem (h r List.mem_cons_self),
      ih fun x hx => h x (List.mem_cons_of_mem r hx)]
    rfl

/-- **Records and separators.** As many records are read as were written exactly if none of them
holds a separator. -/
theorem length_flatMap_splitOn_iff (rs : List (List α)) :
    (rs.flatMap (·.splitOn sep)).length = rs.length ↔ ∀ r ∈ rs, sep ∉ r := by
  constructor
  · intro hlen
    induction rs with
    | nil => exact fun r hr => (List.not_mem_nil hr).elim
    | cons r rs ih =>
      rw [List.flatMap_cons, List.length_append, length_splitOn, List.length_cons] at hlen
      have hle : rs.length ≤ (rs.flatMap (·.splitOn sep)).length := length_le_flatMap_splitOn rs
      have hnone : r.count sep = 0 := by omega
      intro x hx
      rcases List.mem_cons.mp hx with rfl | hx
      · exact List.count_eq_zero.mp hnone
      · exact ih (by omega) x hx
  · intro h
    rw [flatMap_splitOn_of_not_mem h]

end Records

end Wiretally.Lib.Split
