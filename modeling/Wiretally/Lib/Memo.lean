import Wiretally.Lib.HashMap
import Wiretally.Lib.Run

/-!
A cache shared by tasks.

Each task wants the value of one key. It looks in the cache; if the key is not there it asks,
without holding the cache, and stores what it is told. Two tasks may so ask for one key, and
the later answer replaces the earlier one. What is told of a key in a run is all that a task
can end up with, and the tasks end after three steps each.
-/

namespace Wiretally.Lib.Memo

open Wiretally.Lib Wiretally.Lib.Run

/-- Where a task stands. -/
inductive Stage (V : Type)
  | starting
  | asking
  | storing (v : V)
  | done (v : V)
  | aborted
  deriving DecidableEq

namespace Stage

variable {V : Type}

/-- What a task has been told or has found. -/
def value : Stage V → Option V
  | .storing v => some v
  | .done v => some v
  | _ => none

/-- How many steps a task can still take. -/
def rank : Stage V → ℕ
  | .starting => 3
  | .asking => 2
  | .storing _ => 1
  | .done _ => 0
  | .aborted => 0

end Stage

structure State (K V : Type) where
  cache : HashMap K V
  tasks : List (K × Stage V)

inductive Act (V : Type)
  | look (i : ℕ)
  | answer (i : ℕ) (v : V)
  | store (i : ℕ)
  | abort (i : ℕ)

variable {K V : Type}

def start (keys : List K) : State K V := ⟨∅, keys.map fun k => (k, .starting)⟩

def State.move (s : State K V) (i : ℕ) (k : K) (stage : Stage V) : State K V :=
  { s with tasks := s.tasks.set i (k, stage) }

/-- What was told of the keys. -/
def answered (keys : List K) (acts : List (Act V)) : List (K × V) :=
  acts.filterMap fun
    | .answer i v => keys[i]?.map fun k => (k, v)
    | _ => none

def left : List (K × Stage V) → ℕ
  | [] => 0
  | e :: tasks => e.2.rank + left tasks

lemma left_set {tasks : List (K × Stage V)} {i : ℕ} {k : K} {old : Stage V}
    (hi : tasks[i]? = some (k, old)) (new : Stage V) :
    left (tasks.set i (k, new)) + old.rank = left tasks + new.rank := by
  induction tasks generalizing i with
  | nil => cases hi
  | cons e tasks ih =>
    cases i with
    | zero =>
      cases hi
      simp only [List.set_cons_zero, left]
      omega
    | succ i =>
      have htail := ih hi
      simp only [List.set_cons_succ, left]
      omega

lemma left_start (keys : List K) :
    left (start (V := V) keys).tasks = 3 * keys.length := by
  induction keys with
  | nil => rfl
  | cons k keys ih =>
    have htail : left (keys.map fun k => (k, (Stage.starting : Stage V))) = 3 * keys.length := ih
    change 3 + left (keys.map fun k => (k, (Stage.starting : Stage V))) = _
    rw [htail, List.length_cons]
    omega

lemma set_keys {tasks : List (K × Stage V)} {i : ℕ} {k : K} {old : Stage V}
    (hi : tasks[i]? = some (k, old)) (new : Stage V) :
    (tasks.set i (k, new)).map Prod.fst = tasks.map Prod.fst := by
  have hlt : i < (tasks.map Prod.fst).length := by
    rw [List.length_map]
    exact (List.getElem?_eq_some_iff.mp hi).1
  have hk : (tasks.map Prod.fst)[i] = k := by
    rw [List.getElem_map, (List.getElem?_eq_some_iff.mp hi).2]
  rw [List.map_set, ← hk, List.set_getElem_self]

/-! ### Steps -/

variable [DecidableEq K]

def step (s : State K V) : Act V → Option (State K V)
  | .look i =>
    match s.tasks[i]? with
    | some (k, .starting) =>
      match s.cache.lookup k with
      | some v => some (s.move i k (.done v))
      | none => some (s.move i k .asking)
    | _ => none
  | .answer i v =>
    match s.tasks[i]? with
    | some (k, .asking) => some (s.move i k (.storing v))
    | _ => none
  | .store i =>
    match s.tasks[i]? with
    | some (k, .storing v) => some { s.move i k (.done v) with cache := s.cache.insert k v }
    | _ => none
  | .abort i =>
    match s.tasks[i]? with
    | some (k, stage) => if stage.rank = 0 then none else some (s.move i k .aborted)
    | none => none

/-- What a step can do. -/
inductive Moves (s : State K V) : Act V → State K V → Prop
  | hit {i k v} (hi : s.tasks[i]? = some (k, .starting)) (hc : s.cache.lookup k = some v) :
    Moves s (.look i) (s.move i k (.done v))
  | miss {i k} (hi : s.tasks[i]? = some (k, .starting)) (hc : s.cache.lookup k = none) :
    Moves s (.look i) (s.move i k .asking)
  | answer {i k v} (hi : s.tasks[i]? = some (k, .asking)) :
    Moves s (.answer i v) (s.move i k (.storing v))
  | store {i k v} (hi : s.tasks[i]? = some (k, .storing v)) :
    Moves s (.store i) { s.move i k (.done v) with cache := s.cache.insert k v }
  | abort {i k stage} (hi : s.tasks[i]? = some (k, stage)) (hr : stage.rank ≠ 0) :
    Moves s (.abort i) (s.move i k .aborted)

lemma step_moves {s t : State K V} {act : Act V} (h : step s act = some t) : Moves s act t := by
  cases act with
  | look i =>
    simp only [step] at h
    split at h
    · next k hi =>
      split at h
      · next v hc =>
        cases h
        exact .hit hi hc
      · next hc =>
        cases h
        exact .miss hi hc
    · cases h
  | answer i v =>
    simp only [step] at h
    split at h
    · next k hi =>
      cases h
      exact .answer hi
    · cases h
  | store i =>
    simp only [step] at h
    split at h
    · next k v hi =>
      cases h
      exact .store hi
    · cases h
  | abort i =>
    simp only [step] at h
    split at h
    · next k stage hi =>
      split_ifs at h with hr
      cases h
      exact .abort hi hr
    · cases h

lemma exists_step {s : State K V} {i : ℕ} {k : K} {stage : Stage V}
    (hi : s.tasks[i]? = some (k, stage)) (hr : stage.rank ≠ 0) (v : V) :
    ∃ act t, step s act = some t ∧ (act = .look i ∨ act = .answer i v ∨ act = .store i) := by
  cases stage with
  | starting =>
    cases hc : s.cache.lookup k with
    | some v => exact ⟨.look i, s.move i k (.done v), by simp [step, hi, hc], .inl rfl⟩
    | none => exact ⟨.look i, s.move i k .asking, by simp [step, hi, hc], .inl rfl⟩
  | asking => exact ⟨.answer i v, _, by simp only [step, hi]; rfl, .inr (.inl rfl)⟩
  | storing v => exact ⟨.store i, _, by simp only [step, hi]; rfl, .inr (.inr rfl)⟩
  | done v => exact absurd rfl hr
  | aborted => exact absurd rfl hr

/-! ### Keys and steps left -/

lemma Moves.tasks {s t : State K V} {act : Act V} (h : Moves s act t) :
    ∃ i k old new, s.tasks[i]? = some (k, old) ∧ t.tasks = s.tasks.set i (k, new) ∧
      new.rank < old.rank := by
  cases h with
  | @hit i k v hi hc => exact ⟨i, k, _, _, hi, rfl, Nat.zero_lt_succ 2⟩
  | @miss i k hi hc => exact ⟨i, k, _, _, hi, rfl, Nat.lt_succ_self 2⟩
  | @answer i k v hi => exact ⟨i, k, _, _, hi, rfl, Nat.lt_succ_self 1⟩
  | @store i k v hi => exact ⟨i, k, _, _, hi, rfl, Nat.zero_lt_one⟩
  | @abort i k stage hi hr => exact ⟨i, k, _, _, hi, rfl, Nat.pos_of_ne_zero hr⟩

lemma keys_step {s t : State K V} {act : Act V} (h : step s act = some t) :
    t.tasks.map Prod.fst = s.tasks.map Prod.fst := by
  obtain ⟨i, k, old, new, hi, ht, -⟩ := (step_moves h).tasks
  rw [ht, set_keys hi]

lemma done_step {s t : State K V} {act : Act V} (h : step s act = some t) {j : ℕ} {k : K}
    {stage : Stage V} (hj : s.tasks[j]? = some (k, stage)) (hr : stage.rank = 0) :
    t.tasks[j]? = some (k, stage) := by
  obtain ⟨i, k', old, new, hi, ht, hlt⟩ := (step_moves h).tasks
  rw [ht, List.getElem?_set_ne, hj]
  rintro rfl
  rw [hj] at hi
  cases hi
  omega

/-- **Every step is one step less to take.** -/
lemma left_step {s t : State K V} {act : Act V} (h : step s act = some t) :
    left t.tasks < left s.tasks := by
  obtain ⟨i, k, old, new, hi, ht, hlt⟩ := (step_moves h).tasks
  have hset := left_set hi new
  rw [ht]
  omega

/-! ### What a task can end up with -/

/-- What is cached and what the tasks hold are all of a kind. -/
structure Sound (P : K → V → Prop) (s : State K V) : Prop where
  cache : ∀ k v, s.cache.lookup k = some v → P k v
  tasks : ∀ (i : ℕ) k (stage : Stage V) v, s.tasks[i]? = some (k, stage) → stage.value = some v → P k v

lemma sound_start (P : K → V → Prop) (keys : List K) : Sound P (start keys) := by
  refine ⟨fun k v h => (by cases h), fun i k stage v hi hv => ?_⟩
  obtain ⟨k', -, he⟩ := List.mem_map.mp (List.mem_of_getElem? hi)
  cases he
  cases hv

/-- Soundness is kept by a move of one task to a stage of that kind. -/
lemma Sound.move {P : K → V → Prop} {s : State K V} (h : Sound P s) (i : ℕ) (k : K)
    {stage : Stage V} (hstage : ∀ v, Stage.value stage = some v → P k v) :
    Sound P (s.move i k stage) := by
  refine ⟨h.cache, fun j k' stage' v hj hv => ?_⟩
  change (s.tasks.set i (k, stage))[j]? = _ at hj
  rw [List.getElem?_set] at hj
  split_ifs at hj with hij hlt
  · cases hj
    exact hstage v hv
  · exact h.tasks j k' stage' v hj hv

lemma sound_step {P : K → V → Prop} {s t : State K V} {act : Act V} (hs : Sound P s)
    (h : step s act = some t)
    (hact : ∀ i v k stage, act = .answer i v → s.tasks[i]? = some (k, stage) → P k v) :
    Sound P t := by
  cases step_moves h with
  | @hit i k v hi hc =>
    refine hs.move i k fun v' hv => ?_
    cases hv
    exact hs.cache k v hc
  | @miss i k hi hc => exact hs.move i k nofun
  | @answer i k v hi =>
    refine hs.move i k fun v' hv => ?_
    cases hv
    exact hact i v k _ rfl hi
  | @store i k v hi =>
    have hv : P k v := hs.tasks i k _ v hi rfl
    have hmoved : Sound P (s.move i k (.done v)) := hs.move i k fun v' hv' => by
      cases hv'
      exact hv
    refine ⟨fun k' v' hk' => ?_, hmoved.tasks⟩
    change (s.cache.insert k v).lookup k' = some v' at hk'
    rw [HashMap.lookup_insert_eq_ite] at hk'
    split_ifs at hk' with heq
    · cases hk'
      exact heq ▸ hv
    · exact hs.cache k' v' hk'
  | @abort i k stage hi hr => exact hs.move i k nofun

lemma keys_run {keys : List K} {acts : List (Act V)} {s : State K V}
    (h : run step (start keys) acts = some s) : s.tasks.map Prod.fst = keys := by
  refine run_inv (I := fun s : State K V => s.tasks.map Prod.fst = keys)
    (fun s a t hs hst => (keys_step hst).trans hs) ?_ h
  change (keys.map fun k => (k, (Stage.starting : Stage V))).map Prod.fst = keys
  rw [List.map_map]
  exact List.map_id keys

/-- **What a task ends up with was told of its key**, by whichever task asked. -/
theorem sound_run {P : K → V → Prop} {keys : List K} {acts : List (Act V)} {s : State K V}
    (hP : ∀ e ∈ answered keys acts, P e.1 e.2) (h : run step (start keys) acts = some s) :
    Sound P s := by
  have key : (∀ e ∈ answered keys acts, P e.1 e.2) → Sound P s := by
    refine run_induction
      (P := fun acts s => (∀ e ∈ answered keys acts, P e.1 e.2) → Sound P s)
      (fun _ => sound_start P keys) (fun as s act t hr ih hst hall => ?_) h
    have hbefore : Sound P s := ih fun e he => hall e (by
      rw [answered, List.filterMap_append]
      exact List.mem_append_left _ he)
    refine sound_step hbefore hst fun i v k stage hact hi => ?_
    have hkey : keys[i]? = some k := by
      rw [← keys_run hr, List.getElem?_map, hi]
      rfl
    refine hall (k, v) ?_
    rw [answered, List.filterMap_append, hact]
    refine List.mem_append_right _ ?_
    simp [hkey]
  exact key hP

/-- **The tasks end.** -/
theorem length_run {keys : List K} {acts : List (Act V)} {s : State K V}
    (h : run step (start keys) acts = some s) : acts.length + left s.tasks ≤ 3 * keys.length := by
  refine run_induction (P := fun acts s => acts.length + left s.tasks ≤ 3 * keys.length) ?_
    (fun as s a t _ hs hst => ?_) h
  · rw [left_start]
    exact (Nat.zero_add _).le
  · have hlt := left_step hst
    rw [List.length_append, List.length_singleton]
    omega

end Wiretally.Lib.Memo
