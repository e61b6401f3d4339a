import Mathlib.Data.List.Count
import Mathlib.Data.List.Perm.Basic

/-!
Interleavings of the programs of any number of tasks.

An interleaving is a list of actions, each with the task that takes it. What a task does in it
is its program; interleavings of the same programs are permutations of each other.
-/

namespace Wiretally.Lib.Interleave

variable {T A : Type*} [DecidableEq T]

/-- What a task does in an interleaving, in order. -/
def program (t : T) (acts : List (T × A)) : List A :=
  acts.filterMap fun e => if e.1 = t then some e.2 else none

@[simp] lemma program_nil (t : T) : program t ([] : List (T × A)) = [] := rfl

lemma program_append (t : T) (as bs : List (T × A)) :
    program t (as ++ bs) = program t as ++ program t bs := List.filterMap_append

lemma program_cons (t : T) (e : T × A) (acts : List (T × A)) :
    program t (e :: acts) = (if e.1 = t then [e.2] else []) ++ program t acts := by
  unfold program
  rw [List.filterMap_cons]
  split_ifs <;> rfl

lemma count_program [DecidableEq A] (t : T) (a : A) (acts : List (T × A)) :
    (program t acts).count a = acts.count (t, a) := by
  induction acts with
  | nil => rfl
  | cons e acts ih =>
    obtain ⟨u, b⟩ := e
    rw [program_cons, List.count_append, ih, List.count_cons, Nat.add_comm]
    congr 1
    by_cases hu : u = t
    · subst hu
      simp [List.count_singleton]
    · simp [hu]

/-- **Interleavings of the same programs take the same actions.** -/
theorem perm_of_program {acts acts' : List (T × A)}
    (h : ∀ t, program t acts = program t acts') : acts.Perm acts' := by
  classical
  rw [List.perm_iff_count]
  rintro ⟨t, a⟩
  rw [← count_program, ← count_program, h]

end Wiretally.Lib.Interleave
