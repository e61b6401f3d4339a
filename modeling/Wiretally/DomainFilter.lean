import Wiretally.Lib.Split
import Wiretally.Stats

/-!
Which domains fall under a filter.

A filter is compared in a normal form, a domain in its canonical one. A filter in normal form is
canonical, so filters can be compared with each other as domains are. The comparison is one of
texts, and comes to the same as one of labels.
-/

namespace Wiretally.DomainFilter

open Wiretally.Lib Wiretally.Text Wiretally.Stats

def normalise (filter : Text) : Text :=
  canonical ((trimStartStarDot filter).dropWhile (· == '.'))

/-- A name is another, or is a name under it. -/
def Under (domain filter : Text) : Prop := domain = filter ∨ '.' :: filter <:+ domain

lemma matchesDomain_iff (domain filter : Text) : matchesDomain domain (some filter) = true ↔
    normalise filter = [] ∨ Under (canonical domain) (normalise filter) := by
  have hunfold : matchesDomain domain (some filter) = ((normalise filter).isEmpty ||
      canonical domain == normalise filter ||
      ('.' :: normalise filter).isSuffixOf (canonical domain)) := rfl
  rw [hunfold, Bool.or_eq_true, Bool.or_eq_true, List.isEmpty_iff, beq_iff_eq,
    List.isSuffixOf_iff_suffix, or_assoc]
  rfl

@[simp] lemma canonical_normalise (filter : Text) : canonical (normalise filter) = normalise filter :=
  canonical_idem _

lemma Under.trans {a b c : Text} (hab : Under a b) (hbc : Under b c) : Under a c := by
  rcases hab with rfl | hab
  · exact hbc
  · rcases hbc with rfl | hbc
    · exact .inr hab
    · exact .inr (hbc.trans ((List.suffix_cons '.' b).trans hab))

/-- **A filter under a filter.** What falls under a filter falls under whatever the filter
itself, not empty in its normal form, falls under. -/
theorem matchesDomain_trans {domain g : Text} {f : Option Text} (hne : normalise g ≠ [])
    (hg : matchesDomain (normalise g) f = true) (hd : matchesDomain domain (some g) = true) :
    matchesDomain domain f = true := by
  cases f with
  | none => rfl
  | some f =>
    rw [matchesDomain_iff] at hg hd ⊢
    rw [canonical_normalise] at hg
    rcases hg with hempty | hg
    · exact .inl hempty
    · exact .inr ((hd.resolve_left hne).trans hg)

/-- A filter that is absent, or empty in its normal form, holds nothing back. -/
lemma matchesDomain_of_empty {f : Option Text} (h : ∀ text, f = some text → normalise text = [])
    (domain : Text) : matchesDomain domain f = true := by
  cases f with
  | none => rfl
  | some f => exact (matchesDomain_iff domain f).mpr (.inl (h f rfl))

/-! ### Labels -/

def labels (name : Text) : List Text := name.splitOn '.'

lemma under_iff_labels (domain filter : Text) :
    Under domain filter ↔ labels filter <:+ labels domain :=
  Split.suffix_iff_splitOn filter domain

/-! ### Spellings -/

lemma canonical_concat_dot (s : Text) : canonical (s ++ ['.']) = canonical s := by
  unfold canonical trimEndMatches
  rw [List.rdropWhile_concat_pos _ _ _ (by decide)]

lemma canonical_append_dots (s : Text) (n : ℕ) : canonical (s ++ List.replicate n '.') = canonical s := by
  induction n with
  | zero => rw [List.replicate_zero, List.append_nil]
  | succ n ih => rw [List.replicate_succ', ← List.append_assoc, canonical_concat_dot, ih]

lemma canonical_toAsciiLowercase (s : Text) : canonical (toAsciiLowercase s) = canonical s := by
  unfold canonical
  rw [trimEndMatches_toAsciiLowercase, toAsciiLowercase_idem]

lemma trimStartStarDot_of_head {s : Text} (h : s.head? ≠ some '*') : trimStartStarDot s = s := by
  unfold trimStartStarDot
  split
  next rest => exact absurd rfl h
  next => rfl

lemma trimStartStarDot_toAsciiLowercase (s : Text) :
    trimStartStarDot (toAsciiLowercase s) = toAsciiLowercase (trimStartStarDot s) := by
  fun_induction trimStartStarDot s with
  | case1 rest ih => exact ih
  | case2 s hs =>
    refine trimStartStarDot.eq_2 _ fun rest h => ?_
    obtain ⟨c, s, rfl, hc, h⟩ := List.map_eq_cons_iff.mp h
    obtain ⟨d, s, rfl, hd, -⟩ := List.map_eq_cons_iff.mp h
    rw [toLower_eq_iff (by decide)] at hc hd
    subst hc hd
    exact hs s rfl

lemma dropWhile_dot_toAsciiLowercase (s : Text) :
    (toAsciiLowercase s).dropWhile (· == '.') = toAsciiLowercase (s.dropWhile (· == '.')) := by
  unfold toAsciiLowercase
  rw [List.dropWhile_map, isDot_comp_toLower]

lemma normalise_toAsciiLowercase (filter : Text) :
    normalise (toAsciiLowercase filter) = normalise filter := by
  unfold normalise
  rw [trimStartStarDot_toAsciiLowercase, dropWhile_dot_toAsciiLowercase, canonical_toAsciiLowercase]

lemma normalise_starDot (filter : Text) : normalise ('*' :: '.' :: filter) = normalise filter := rfl

lemma normalise_cons_dot {filter : Text} (h : filter.head? ≠ some '*') :
    normalise ('.' :: filter) = normalise filter := by
  unfold normalise
  rw [trimStartStarDot_of_head h, trimStartStarDot_of_head (by simp)]
  rfl

lemma normalise_concat_dot {filter : Text} (h : filter.head? ≠ some '*') :
    normalise (filter ++ ['.']) = normalise filter := by
  have hhead : (filter ++ ['.']).head? ≠ some '*' := by
    cases filter with
    | nil => decide
    | cons c filter => exact h
  unfold normalise
  rw [trimStartStarDot_of_head h, trimStartStarDot_of_head hhead, List.dropWhile_append]
  split_ifs with hdots
  · rw [List.isEmpty_iff.mp hdots]
    rfl
  · exact canonical_concat_dot _

/-- The comparison looks at canonical domains and at filters in normal form only. -/
lemma matchesDomain_congr {domain domain' filter filter' : Text}
    (hd : canonical domain = canonical domain') (hf : normalise filter = normalise filter') :
    matchesDomain domain (some filter) = matchesDomain domain' (some filter') := by
  rw [Bool.eq_iff_iff, matchesDomain_iff, matchesDomain_iff, hd, hf]

/-- **What falls under a filter**: the domains whose labels end with the labels of the filter in
its normal form. Case does not matter, nor do dots behind the domain, nor how a filter that does
not start with a wildcard is set off by dots; and filters can be chained. -/
theorem matchesDomain_spec :
    (∀ domain filter, matchesDomain domain (some filter) = true ↔
      normalise filter = [] ∨ labels (normalise filter) <:+ labels (canonical domain)) ∧
    (∀ domain domain' filter filter', toAsciiLowercase domain = toAsciiLowercase domain' →
      toAsciiLowercase filter = toAsciiLowercase filter' →
      matchesDomain domain (some filter) = matchesDomain domain' (some filter')) ∧
    (∀ domain filter n,
      matchesDomain (domain ++ List.replicate n '.') filter = matchesDomain domain filter) ∧
    (∀ domain f : Text, f.head? ≠ some '*' →
      ∀ filter ∈ ['.' :: f, f ++ ['.'], '*' :: '.' :: f],
        matchesDomain domain (some filter) = matchesDomain domain (some f)) ∧
    ∀ d g f, normalise g ≠ [] → matchesDomain d (some g) = true →
      matchesDomain (normalise g) (some f) = true → matchesDomain d (some f) = true := by
  refine ⟨fun domain filter => ?_, fun d d' f f' hd hf => ?_, fun domain filter n => ?_,
    fun domain f hf filter hmem => ?_, fun d g f hne hd hg => matchesDomain_trans hne hg hd⟩
  · rw [matchesDomain_iff, under_iff_labels]
  · refine matchesDomain_congr ?_ ?_
    · rw [← canonical_toAsciiLowercase d, hd, canonical_toAsciiLowercase]
    · rw [← normalise_toAsciiLowercase f, hf, normalise_toAsciiLowercase]
  · cases filter with
    | none => rfl
    | some filter => exact matchesDomain_congr (canonical_append_dots domain n) rfl
  · refine matchesDomain_congr rfl ?_
    simp only [List.mem_cons, List.not_mem_nil, or_false] at hmem
    rcases hmem with rfl | rfl | rfl
    · exact normalise_cons_dot hf
    · exact normalise_concat_dot hf
    · exact normalise_starDot f

end Wiretally.DomainFilter
