import Mathlib.Algebra.BigOperators.Group.List.Basic
import Mathlib.Data.List.Induction

/-!
Runs of a partial step function: the states they go through, the invariants they keep, and
the amounts their steps add up to.

An action that is not enabled in a state has no next state, and a run that tries one has no
result. The steps of a run are listed with the state each is taken in, so that a statement
about every step, or a sum over all of them, is one about a list.
-/

namespace Wiretally.Lib.Run

variable {S A M B : Type*} (step : S → A → Option S)

/-- The state a list of actions leads to. -/
def run : S → List A → Option S
  | s, [] => some s
  | s, a :: as => (step s a).bind fun t => run t as

/-- The steps of a run: each action with the state it is taken in. -/
def trace : S → List A → List (S × A)
  | _, [] => []
  | s, a :: as => (s, a) :: ((step s a).elim [] fun t => trace t as)

/-- What the steps of a run contribute, each seen from the state it is taken in. -/
def tally [AddMonoid M] (d : S → A → M) (s : S) (as : List A) : M :=
  ((trace step s as).map fun t => d t.1 t.2).sum

@[simp] lemma run_nil (s : S) : run step s [] = some s := rfl

lemma run_cons (s : S) (a : A) (as : List A) :
    run step s (a :: as) = (step s a).bind fun t => run step t as := rfl

@[simp] lemma trace_nil (s : S) : trace step s [] = [] := rfl

lemma run_append (s : S) (as bs : List A) :
    run step s (as ++ bs) = (run step s as).bind fun t => run step t bs := by
  induction as generalizing s with
  | nil => rfl
  | cons a as ih =>
    rw [List.cons_append, run_cons, run_cons]
    cases step s a with
    | none => rfl
    | some t => simpa using ih t

lemma run_snoc {s u : S} {as : List A} {a : A} :
    run step s (as ++ [a]) = some u ↔ ∃ t, run step s as = some t ∧ step t a = some u := by
  rw [run_append]
  cases run step s as with
  | none => simp
  | some t => cases h : step t a <;> simp [run_cons, h]

variable {step}

lemma trace_append {s t : S} {as : List A} (bs : List A) (h : run step s as = some t) :
    trace step s (as ++ bs) = trace step s as ++ trace step t bs := by
  induction as generalizing s with
  | nil =>
    cases h
    rfl
  | cons a as ih =>
    rw [run_cons] at h
    obtain ⟨u, hu, hr⟩ := Option.bind_eq_some_iff.mp h
    simp [trace, hu, ih hr]

lemma trace_snoc {s t : S} {as : List A} (a : A) (h : run step s as = some t) :
    trace step s (as ++ [a]) = trace step s as ++ [(t, a)] := by
  rw [trace_append [a] h]
  cases hs : step t a <;> simp [trace, hs]

lemma mem_trace_snoc {s t : S} {as : List A} {a : A} {x : S × A} (h : run step s as = some t) :
    x ∈ trace step s (as ++ [a]) ↔ x ∈ trace step s as ∨ x = (t, a) := by
  rw [trace_snoc a h, List.mem_append, List.mem_singleton]

lemma trace_actions {s t : S} {as : List A} (h : run step s as = some t) :
    (trace step s as).map Prod.snd = as := by
  induction as generalizing s with
  | nil => rfl
  | cons a as ih =>
    rw [run_cons] at h
    obtain ⟨u, hu, hr⟩ := Option.bind_eq_some_iff.mp h
    simp [trace, hu, ih hr]

/-- **Induction on a run**, the last step taken last. -/
theorem run_induction {s₀ : S} {P : List A → S → Prop} (init : P [] s₀)
    (next : ∀ as s a t, run step s₀ as = some s → P as s → step s a = some t → P (as ++ [a]) t)
    {as : List A} {s : S} (h : run step s₀ as = some s) : P as s := by
  induction as using List.reverseRecOn generalizing s with
  | nil => cases h; exact init
  | append_singleton as a ih =>
    obtain ⟨t, ht, hs⟩ := (run_snoc step).mp h
    exact next as t a s ht (ih ht) hs

/-- **The invariant rule.** What every step keeps holds in every state a run reaches. -/
theorem run_inv {I : S → Prop} (keep : ∀ s a t, I s → step s a = some t → I t)
    {s₀ s : S} {as : List A} (h₀ : I s₀) (h : run step s₀ as = some s) : I s :=
  run_induction (P := fun _ s => I s) h₀ (fun _ s a t _ hs hst => keep s a t hs hst) h

/-- **The rule for steps.** What holds of every step from a kept invariant holds of every step of
a run. -/
theorem run_steps {I : S → Prop} {Q : S × A → Prop}
    (keep : ∀ s a t, I s → step s a = some t → I t ∧ Q (s, a)) {s₀ s : S} {as : List A}
    (h₀ : I s₀) (h : run step s₀ as = some s) : I s ∧ ∀ x ∈ trace step s₀ as, Q x := by
  refine run_induction (P := fun as s => I s ∧ ∀ x ∈ trace step s₀ as, Q x)
    ⟨h₀, fun _ hx => (List.not_mem_nil hx).elim⟩ (fun as s a t hr ⟨hi, hq⟩ hst => ?_) h
  obtain ⟨ht, hstep⟩ := keep s a t hi hst
  refine ⟨ht, fun x hx => ?_⟩
  rcases (mem_trace_snoc hr).mp hx with hx | rfl
  · exact hq x hx
  · exact hstep

/-! ### Sums over the steps of a run -/

section Tally

variable [AddMonoid M]

@[simp] lemma tally_nil (d : S → A → M) (s : S) : tally step d s [] = 0 := rfl

lemma tally_snoc (d : S → A → M) {s t : S} {as : List A} (a : A)
    (h : run step s as = some t) :
    tally step d s (as ++ [a]) = tally step d s as + d t a := by
  simp [tally, trace_snoc a h]

/-- **The accounting rule.** Where every step of a kept invariant changes a measure by a
known amount, a run changes it by the sum of those amounts. -/
theorem run_tally {I : S → Prop} {f : S → M} {d : S → A → M}
    (keep : ∀ s a t, I s → step s a = some t → I t)
    (acct : ∀ s a t, I s → step s a = some t → f t = f s + d s a)
    {s₀ s : S} {as : List A} (h₀ : I s₀) (h : run step s₀ as = some s) :
    f s = f s₀ + tally step d s₀ as := by
  have key : I s ∧ f s = f s₀ + tally step d s₀ as := by
    refine run_induction (P := fun as s => I s ∧ f s = f s₀ + tally step d s₀ as)
      ⟨h₀, by simp⟩ (fun as s a t hr ⟨hi, hf⟩ hst => ⟨keep s a t hi hst, ?_⟩) h
    rw [acct s a t hi hst, hf, tally_snoc d a hr, add_assoc]
  exact key.2

lemma tally_actions (g : A → M) {s t : S} {as : List A} (h : run step s as = some t) :
    tally step (fun _ a => g a) s as = (as.map g).sum := by
  conv_rhs => rw [← trace_actions h]
  rw [List.map_map]
  rfl

lemma tally_eq_zero {d : S → A → M} {s : S} {as : List A}
    (h : ∀ t ∈ trace step s as, d t.1 t.2 = 0) : tally step d s as = 0 := by
  refine List.sum_eq_zero fun x hx => ?_
  obtain ⟨t, ht, rfl⟩ := List.mem_map.mp hx
  exact h t ht

end Tally

lemma tally_add [AddCommMonoid M] (d e : S → A → M) (s : S) (as : List A) :
    tally step (fun s a => d s a + e s a) s as = tally step d s as + tally step e s as := by
  simp [tally, List.sum_map_add]

end Wiretally.Lib.Run
