import Wiretally.Lib.Run

/-!
A task that loads from shared state, one access at a time, while others change it.

What comes of it is determined by the states its loads have seen. Each of them lies between the
state at the start and the one at the end, in any order the others' steps go along; and a task
that takes a known number of loads is done after as many, whatever the others do.
-/

namespace Wiretally.Lib.Reading

open Wiretally.Lib.Run

variable {S A α β : Type}

/-- What a task has still to do: it has its result, or goes on with what it loads next. -/
inductive Task (S α : Type)
  | done (a : α)
  | load (next : S → Task S α)

namespace Task

def bind : Task S α → (α → Task S β) → Task S β
  | .done a, k => k a
  | .load next, k => .load fun s => (next s).bind k

/-- Where a task stands after its loads have seen some states. -/
def feed : Task S α → List S → Task S α
  | p, [] => p
  | .done a, _ :: _ => .done a
  | .load next, s :: ss => (next s).feed ss

/-- Whether a task takes `n` loads, whatever it sees. -/
def Takes : ℕ → Task S α → Prop
  | 0, .done _ => True
  | n + 1, .load next => ∀ s, Takes n (next s)
  | _, _ => False

@[simp] lemma feed_nil (p : Task S α) : p.feed [] = p := by cases p <;> rfl

lemma feed_append (p : Task S α) (ss ts : List S) : p.feed (ss ++ ts) = (p.feed ss).feed ts := by
  induction ss generalizing p with
  | nil => rw [List.nil_append, feed_nil]
  | cons s ss ih =>
    cases p with
    | done a => cases ts <;> rfl
    | load next => exact ih (next s)

lemma feed_bind {p : Task S α} {k : α → Task S β} {ss : List S} {b : β}
    (h : (p.bind k).feed ss = .done b) :
    ∃ ss₁ ss₂ a, ss = ss₁ ++ ss₂ ∧ p.feed ss₁ = .done a ∧ (k a).feed ss₂ = .done b := by
  induction p generalizing ss with
  | done a => exact ⟨[], ss, a, rfl, rfl, h⟩
  | load next ih =>
    cases ss with
    | nil => cases h
    | cons s ss =>
      obtain ⟨ss₁, ss₂, a, rfl, hp, hk⟩ := ih s h
      exact ⟨s :: ss₁, ss₂, a, rfl, hp, hk⟩

lemma takes_done (a : α) : (Task.done a : Task S α).Takes 0 := trivial

lemma done_of_feed {a b : α} {ss : List S} (h : (Task.done a : Task S α).feed ss = .done b) :
    a = b := by
  cases ss <;> exact Task.done.inj h

lemma takes_bind {p : Task S α} {k : α → Task S β} {m n : ℕ} (hp : p.Takes m)
    (hk : ∀ a, (k a).Takes n) : (p.bind k).Takes (m + n) := by
  induction p generalizing m with
  | done a =>
    cases m with
    | zero => rw [Nat.zero_add]; exact hk a
    | succ m => exact hp.elim
  | load next ih =>
    cases m with
    | zero => exact hp.elim
    | succ m =>
      rw [Nat.succ_add]
      exact fun s => ih s (hp s)

end Task

/-- The task among the others. -/
structure World (S α : Type) where
  shared : S
  task : Task S α

inductive Act (A : Type)
  | other (a : A)
  | load

def Act.isLoad : Act A → Bool
  | .other _ => false
  | .load => true

variable (other : S → A → Option S)

def step (w : World S α) : Act A → Option (World S α)
  | .other a => (other w.shared a).map fun s => { w with shared := s }
  | .load =>
    match w.task with
    | .done _ => none
    | .load next => some { w with task := next w.shared }

/-- The state a step loads from. -/
def loaded (t : World S α × Act A) : Option S := if t.2.isLoad then some t.1.shared else none

def seen (w : World S α) (acts : List (Act A)) : List S :=
  (trace (step other) w acts).filterMap loaded

variable {other} {w w' : World S α} {acts : List (Act A)}

lemma seen_snoc (act : Act A) (h : run (step other) w acts = some w') :
    seen other w (acts ++ [act]) = seen other w acts ++ (loaded (w', act)).toList := by
  unfold seen
  rw [trace_snoc act h, List.filterMap_append]
  cases hl : loaded (w', act) <;> simp [hl]

/-- **What becomes of the task** is determined by what its loads have seen. -/
theorem task_run (h : run (step other) w acts = some w') :
    w'.task = w.task.feed (seen other w acts) := by
  refine run_induction (P := fun acts w' => w'.task = w.task.feed (seen other w acts)) ?_ ?_ h
  · exact (Task.feed_nil w.task).symm
  · intro acts v act v' hrun hv hst
    rw [seen_snoc act hrun, Task.feed_append, ← hv]
    cases act with
    | other a =>
      obtain ⟨s, -, rfl⟩ := Option.map_eq_some_iff.mp hst
      exact (Task.feed_nil v.task).symm
    | load =>
      simp only [step] at hst
      split at hst
      next => cases hst
      next next hload =>
        cases hst
        rw [hload]
        exact (Task.feed_nil (next v.shared)).symm

/-- **A task is done after its loads**, and can always go on until then. -/
theorem loads_run {n : ℕ} (hn : w.task.Takes n) (h : run (step other) w acts = some w') :
    acts.countP Act.isLoad ≤ n ∧ (acts.countP Act.isLoad < n ↔ (step other w' .load).isSome) ∧
      (acts.countP Act.isLoad = n ↔ ∃ a, w'.task = .done a) := by
  have key : acts.countP Act.isLoad ≤ n ∧ w'.task.Takes (n - acts.countP Act.isLoad) := by
    refine run_induction (P := fun acts w' =>
      acts.countP Act.isLoad ≤ n ∧ w'.task.Takes (n - acts.countP Act.isLoad))
      ⟨Nat.zero_le _, hn⟩ ?_ h
    intro acts v act v' hrun ⟨hle, hv⟩ hst
    rw [List.countP_append]
    cases act with
    | other a =>
      obtain ⟨s, -, rfl⟩ := Option.map_eq_some_iff.mp hst
      exact ⟨hle, hv⟩
    | load =>
      have hone : [Act.load (A := A)].countP Act.isLoad = 1 := rfl
      simp only [step] at hst
      split at hst
      next => cases hst
      next next hload =>
        cases hst
        rw [hload] at hv
        obtain ⟨m, hm⟩ : ∃ m, n - acts.countP Act.isLoad = m + 1 := by
          cases hm : n - acts.countP Act.isLoad with
          | zero => rw [hm] at hv; exact hv.elim
          | succ m => exact ⟨m, rfl⟩
        rw [hm] at hv
        rw [hone]
        refine ⟨by omega, ?_⟩
        have hleft : n - (acts.countP Act.isLoad + 1) = m := by omega
        rw [hleft]
        exact hv v.shared
  obtain ⟨hle, htakes⟩ := key
  refine ⟨hle, ?_⟩
  cases htask : w'.task with
  | done a =>
    rw [htask] at htakes
    have heq : acts.countP Act.isLoad = n := by
      cases hm : n - acts.countP Act.isLoad with
      | zero => omega
      | succ m => rw [hm] at htakes; exact htakes.elim
    simp [step, htask, heq]
  | load next =>
    rw [htask] at htakes
    have hlt : acts.countP Act.isLoad < n := by
      cases hm : n - acts.countP Act.isLoad with
      | zero => rw [hm] at htakes; exact htakes.elim
      | succ m => omega
    simp [step, htask, hlt, Nat.ne_of_lt hlt]

/-- **What is seen lies between the start and the end**, in an order every step of the others goes
along. -/
theorem seen_between {R : S → S → Prop} (hrefl : ∀ s, R s s)
    (htrans : ∀ s t u, R s t → R t u → R s u) (h : run (step other) w acts = some w')
    (hother : ∀ v a s, (v, Act.other a) ∈ trace (step other) w acts → other v.shared a = some s →
      R v.shared s) :
    R w.shared w'.shared ∧ ∀ s ∈ seen other w acts, R w.shared s ∧ R s w'.shared := by
  revert hother
  refine run_induction (P := fun acts w' =>
    (∀ v a s, (v, Act.other a) ∈ trace (step other) w acts → other v.shared a = some s →
      R v.shared s) →
    R w.shared w'.shared ∧ ∀ s ∈ seen other w acts, R w.shared s ∧ R s w'.shared) ?_ ?_ h
  · exact fun _ => ⟨hrefl _, fun s hs => (List.not_mem_nil hs).elim⟩
  · intro acts v act v' hrun hv hst hother
    obtain ⟨hall, hseen⟩ := hv fun u a s hu => hother u a s ((mem_trace_snoc hrun).mpr (.inl hu))
    have hmove : R v.shared v'.shared := by
      cases act with
      | other a =>
        obtain ⟨s, hs, rfl⟩ := Option.map_eq_some_iff.mp hst
        exact hother v a s ((mem_trace_snoc hrun).mpr (.inr rfl)) hs
      | load =>
        simp only [step] at hst
        split at hst
        next => cases hst
        next => cases hst; exact hrefl _
    refine ⟨htrans _ _ _ hall hmove, fun s hs => ?_⟩
    rw [seen_snoc act hrun, List.mem_append] at hs
    rcases hs with hs | hs
    · exact ⟨(hseen s hs).1, htrans _ _ _ (hseen s hs).2 hmove⟩
    · cases act with
      | other a => exact (List.not_mem_nil hs).elim
      | load =>
        obtain rfl : s = v.shared := List.mem_singleton.mp hs
        exact ⟨hall, hmove⟩

end Wiretally.Lib.Reading
