import Mathlib.Data.List.Induction

/-!
A ledger: entries under keys, posted one after the other.

An entry names a key and says what is done to its line; a key without a line gets a fresh one. A
line is what the entries under its key come to, in their order and whatever is posted between
them.
-/

namespace Wiretally.Lib.Ledger

variable {κ ν ε : Type*} [DecidableEq κ]

structure Entry (κ ε : Type*) where
  key : κ
  effect : ε

section

variable (fresh : ν) (act : ε → ν → ν)

/-- The lines after an entry. -/
def post (lines : κ → Option ν) (entry : Entry κ ε) : κ → Option ν := fun k =>
  if k = entry.key then some (act entry.effect ((lines k).getD fresh)) else lines k

def postAll (lines : κ → Option ν) (entries : List (Entry κ ε)) : κ → Option ν :=
  entries.foldl (post fresh act) lines

def lines (entries : List (Entry κ ε)) : κ → Option ν := postAll fresh act (fun _ => none) entries

/-- What the entries under a key do to a line. -/
def amend (k : κ) (entries : List (Entry κ ε)) (line : ν) : ν :=
  entries.foldl (fun line e => if e.key = k then act e.effect line else line) line

end

variable {fresh : ν} {act : ε → ν → ν}

lemma postAll_append (start : κ → Option ν) (es es' : List (Entry κ ε)) :
    postAll fresh act start (es ++ es') = postAll fresh act (postAll fresh act start es) es' :=
  List.foldl_append

lemma lines_append (es es' : List (Entry κ ε)) :
    lines fresh act (es ++ es') = postAll fresh act (lines fresh act es) es' :=
  postAll_append _ es es'

lemma amend_concat (k : κ) (es : List (Entry κ ε)) (e : Entry κ ε) (line : ν) :
    amend act k (es ++ [e]) line =
      if e.key = k then act e.effect (amend act k es line) else amend act k es line := by
  unfold amend
  rw [List.foldl_append]
  rfl

lemma amend_of_not_mem {k : κ} {es : List (Entry κ ε)} (h : ∀ e ∈ es, e.key ≠ k) (line : ν) :
    amend act k es line = line := by
  induction es generalizing line with
  | nil => rfl
  | cons e es ih =>
    have hrest := ih (fun e' he' => h e' (List.mem_cons_of_mem e he')) line
    calc amend act k (e :: es) line
        = amend act k es (if e.key = k then act e.effect line else line) := rfl
      _ = amend act k es line := by rw [if_neg (h e List.mem_cons_self)]
      _ = line := hrest

/-- **A line is what the entries under its key come to**, and a key with no entry has none. -/
theorem lines_eq (es : List (Entry κ ε)) (k : κ) :
    lines fresh act es k =
      if ∃ e ∈ es, e.key = k then some (amend act k es fresh) else none := by
  induction es using List.reverseRecOn with
  | nil => simp [lines, postAll]
  | append_singleton es e ih =>
    have hpost : lines fresh act (es ++ [e]) k = post fresh act (lines fresh act es) e k :=
      congrFun (lines_append es [e]) k
    rw [hpost, post, ih, amend_concat]
    by_cases he : k = e.key
    · have hmem : ∃ e' ∈ es ++ [e], e'.key = k :=
        ⟨e, List.mem_append_right es List.mem_cons_self, he.symm⟩
      rw [if_pos he, if_pos hmem, if_pos he.symm]
      by_cases hold : ∃ e' ∈ es, e'.key = k
      · rw [if_pos hold, Option.getD_some]
      · rw [if_neg hold, Option.getD_none,
          amend_of_not_mem fun e' he' heq => hold ⟨e', he', heq⟩]
    · have hsame : (∃ e' ∈ es ++ [e], e'.key = k) ↔ ∃ e' ∈ es, e'.key = k := by
        simp [Ne.symm he]
      rw [if_neg he, if_neg (Ne.symm he)]
      simp only [hsame]

end Wiretally.Lib.Ledger
