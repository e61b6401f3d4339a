import Mathlib.Algebra.BigOperators.Group.List.Basic
import Mathlib.Data.List.Nodup

/-!
Tables whose entries are moved from key to key, entries that meet being merged.

A table is a partial function; an entry that arrives at a key absorbs nothing and is absorbed
by what is there. While no destination is also a source, where an entry ends up does not
depend on the order of the moves, and what a key holds in the end is its own entry absorbing
the arrivals in that order. A weight that adds up over merges then depends on the order no
more.
-/

namespace Wiretally.Lib.Rekey

variable {K V M : Type*} (op : V → V → V)

/-- An entry, if any, absorbing another, if any. -/
def absorb : Option V → Option V → Option V
  | some e, some s => some (op e s)
  | none, s => s
  | e, none => e

@[simp] lemma absorb_none_left (s : Option V) : absorb op none s = s := by cases s <;> rfl

@[simp] lemma absorb_none_right (e : Option V) : absorb op e none = e := by cases e <;> rfl

lemma absorb_isSome (e s : Option V) : (absorb op e s).isSome = (e.isSome || s.isSome) := by
  cases e <;> cases s <;> rfl

lemma foldl_absorb_isSome (l : List (Option V)) (e : Option V) :
    (l.foldl (absorb op) e).isSome = (e.isSome || l.any Option.isSome) := by
  induction l generalizing e with
  | nil => simp
  | cons s l ih => rw [List.foldl_cons, ih, absorb_isSome, List.any_cons, Bool.or_assoc]

/-- The weight of an entry that may be missing. -/
def weight [Zero M] (f : V → M) (o : Option V) : M := o.elim 0 f

lemma weight_absorb [AddMonoid M] {f : V → M} (hf : ∀ e s, f (op e s) = f e + f s)
    (e s : Option V) : weight f (absorb op e s) = weight f e + weight f s := by
  cases e <;> cases s <;> simp [absorb, weight, hf]

lemma weight_foldl_absorb [AddMonoid M] {f : V → M} (hf : ∀ e s, f (op e s) = f e + f s)
    (l : List (Option V)) (e : Option V) :
    weight f (l.foldl (absorb op) e) = weight f e + (l.map (weight f)).sum := by
  induction l generalizing e with
  | nil => simp
  | cons s l ih => rw [List.foldl_cons, ih, weight_absorb op hf, List.map_cons, List.sum_cons, add_assoc]

variable [DecidableEq K]

/-- Moves the entry at `src` to `dst`; onto itself it stays as it is. -/
def move (rows : K → Option V) (src dst : K) : K → Option V :=
  if src = dst then rows
  else fun k => if k = src then none else if k = dst then absorb op (rows dst) (rows src) else rows k

def moveAll (rows : K → Option V) (moves : List (K × K)) : K → Option V :=
  moves.foldl (fun rows m => move op rows m.1 m.2) rows

lemma moveAll_append (rows : K → Option V) (l l' : List (K × K)) :
    moveAll op rows (l ++ l') = moveAll op (moveAll op rows l) l' := by
  simp [moveAll, List.foldl_append]

variable {op}

lemma move_src {rows : K → Option V} {src dst : K} (h : src ≠ dst) :
    move op rows src dst src = none := by
  simp [move, h]

lemma move_dst {rows : K → Option V} {src dst : K} (h : src ≠ dst) :
    move op rows src dst dst = absorb op (rows dst) (rows src) := by
  simp [move, h, h.symm]

lemma move_other {rows : K → Option V} {src dst k : K} (hs : k ≠ src) (hd : k ≠ dst) :
    move op rows src dst k = rows k := by
  unfold move
  split_ifs <;> simp [hs, hd]

lemma move_isSome {rows : K → Option V} {src dst k : K} (hk : k ≠ src)
    (h : (rows k).isSome = true) : (move op rows src dst k).isSome = true := by
  unfold move
  split_ifs with hsd
  · exact h
  · by_cases hd : k = dst
    · subst hd; simp [hk, absorb_isSome, h]
    · simp [hk, hd, h]

lemma moveAll_isSome {rows : K → Option V} {moves : List (K × K)} {k : K}
    (hk : ∀ m ∈ moves, m.1 ≠ k) (h : (rows k).isSome = true) :
    (moveAll op rows moves k).isSome = true := by
  induction moves generalizing rows with
  | nil => exact h
  | cons m moves ih =>
    refine ih (fun m' hm' => hk m' (List.mem_cons_of_mem _ hm')) ?_
    exact move_isSome (hk m List.mem_cons_self).symm h

lemma moveAll_filter (rows : K → Option V) (moves : List (K × K)) :
    moveAll op rows (moves.filter fun m => m.1 ≠ m.2) = moveAll op rows moves := by
  induction moves generalizing rows with
  | nil => rfl
  | cons m moves ih =>
    by_cases h : m.1 = m.2
    · have hm : move op rows m.1 m.2 = rows := by simp [move, h]
      rw [List.filter_cons_of_neg (by simpa using h), ih]
      simp [moveAll, hm]
    · rw [List.filter_cons_of_pos (by simpa using h)]
      exact ih _

/-- The moves of a list leave their sources for good: each moves one key, none twice, and none
to a key that is moved. -/
structure Settled (moves : List (K × K)) : Prop where
  nodup : (moves.map Prod.fst).Nodup
  leaves : ∀ m ∈ moves, ∀ m' ∈ moves, m.2 ≠ m'.1

omit [DecidableEq K] in
lemma Settled.tail {m : K × K} {moves : List (K × K)} (h : Settled (m :: moves)) :
    Settled moves where
  nodup := (List.nodup_cons.mp h.nodup).2
  leaves a ha b hb := h.leaves a (List.mem_cons_of_mem _ ha) b (List.mem_cons_of_mem _ hb)

/-- What arrives at a key, in the order of the moves. -/
def arrivals (rows : K → Option V) (moves : List (K × K)) (k : K) : List (Option V) :=
  (moves.filter fun m => m.2 = k).map fun m => rows m.1

/-- **Where the entries end up.** -/
theorem moveAll_apply {rows : K → Option V} {moves : List (K × K)} (h : Settled moves) (k : K) :
    moveAll op rows moves k =
      if k ∈ moves.map Prod.fst then none
      else (arrivals rows moves k).foldl (absorb op) (rows k) := by
  induction moves generalizing rows with
  | nil => simp [moveAll, arrivals]
  | cons m moves ih =>
    obtain ⟨src, dst⟩ := m
    have hne : src ≠ dst := fun e => h.leaves _ List.mem_cons_self _ List.mem_cons_self e.symm
    have hsrc : src ∉ moves.map Prod.fst := (List.nodup_cons.mp h.nodup).1
    have hdst : ∀ m ∈ moves, m.1 ≠ dst := fun m hm e =>
      h.leaves _ List.mem_cons_self m (List.mem_cons_of_mem _ hm) e.symm
    have hback : ∀ m ∈ moves, m.2 ≠ src := fun m hm =>
      h.leaves m (List.mem_cons_of_mem _ hm) _ List.mem_cons_self
    -- the later moves find their sources untouched
    have harr : arrivals (move op rows src dst) moves k = arrivals rows moves k := by
      refine List.map_congr_left fun m hm => ?_
      have hm' := (List.mem_filter.mp hm).1
      have hms : m.1 ≠ src := fun e => hsrc (e ▸ List.mem_map_of_mem hm')
      exact move_other hms (hdst m hm')
    have hstep : moveAll op rows ((src, dst) :: moves) k =
        moveAll op (move op rows src dst) moves k := rfl
    rw [hstep, ih h.tail, harr]
    by_cases hk : k ∈ moves.map Prod.fst
    · simp [hk]
    · by_cases hks : k = src
      · subst hks
        have hnone : arrivals rows moves k = [] := by
          simp only [arrivals, List.map_eq_nil_iff, List.filter_eq_nil_iff]
          intro m hm
          simpa using hback m hm
        simp [hsrc, hnone, move_src hne]
      · by_cases hkd : k = dst
        · subst hkd
          simp [hk, hks, arrivals, move_dst hne]
        · have hkd' : dst ≠ k := fun e => hkd e.symm
          simp [hk, hks, arrivals, hkd', move_other hks hkd]

/-! ### Moves asked for by a partial map -/

variable (target : K → Option K)

/-- The moves a partial map of keys asks for, in the order the keys are listed. -/
def movesOf (keys : List K) : List (K × K) :=
  keys.filterMap fun k => (target k).map fun d => (k, d)

/-- Where the entry of a key is to end up. -/
def dest (k : K) : K := (target k).getD k

/-- No listed key is moved to a listed key that is moved itself. -/
def Unchained (keys : List K) : Prop :=
  ∀ k ∈ keys, ∀ d ∈ keys, target k = some d → target d = none

variable {target}

omit [DecidableEq K] in
lemma mem_movesOf {keys : List K} {m : K × K} :
    m ∈ movesOf target keys ↔ m.1 ∈ keys ∧ target m.1 = some m.2 := by
  obtain ⟨k, d⟩ := m
  simp only [movesOf, List.mem_filterMap, Option.map_eq_some_iff, Prod.mk.injEq]
  constructor
  · rintro ⟨_, hk, _, ht, rfl, rfl⟩
    exact ⟨hk, ht⟩
  · rintro ⟨hk, ht⟩
    exact ⟨k, hk, d, ht, rfl, rfl⟩

omit [DecidableEq K] in
lemma mem_sources {keys : List K} {k : K} :
    k ∈ (movesOf target keys).map Prod.fst ↔ k ∈ keys ∧ (target k).isSome = true := by
  rw [List.mem_map]
  constructor
  · rintro ⟨m, hm, rfl⟩
    obtain ⟨hk, ht⟩ := mem_movesOf.mp hm
    exact ⟨hk, by rw [ht]; rfl⟩
  · rintro ⟨hk, ht⟩
    obtain ⟨d, hd⟩ := Option.isSome_iff_exists.mp ht
    exact ⟨(k, d), mem_movesOf.mpr ⟨hk, hd⟩, rfl⟩

omit [DecidableEq K] in
lemma sources_sublist (keys : List K) : ((movesOf target keys).map Prod.fst).Sublist keys := by
  induction keys with
  | nil => exact List.Sublist.refl _
  | cons k keys ih =>
    cases h : target k with
    | none => simpa [movesOf, h] using ih.cons k
    | some d => simpa [movesOf, h] using ih.cons_cons k

omit [DecidableEq K] in
lemma settled_movesOf {keys : List K} (hn : keys.Nodup) (hu : Unchained target keys) :
    Settled (movesOf target keys) where
  nodup := hn.sublist (sources_sublist keys)
  leaves m hm m' hm' he := by
    obtain ⟨hk, ht⟩ := mem_movesOf.mp hm
    obtain ⟨hk', ht'⟩ := mem_movesOf.mp hm'
    rw [← he] at hk' ht'
    rw [hu _ hk _ hk' ht] at ht'
    cases ht'

lemma arrivals_movesOf (rows : K → Option V) (keys : List K) (n : K) :
    arrivals rows (movesOf target keys) n =
      (keys.filter fun k => target k = some n).map rows := by
  induction keys with
  | nil => rfl
  | cons k keys ih =>
    cases h : target k with
    | none => simpa [movesOf, arrivals, h] using ih
    | some d => by_cases hd : d = n <;> simpa [movesOf, arrivals, h, hd] using ih

variable {rows : K → Option V} {keys : List K}

/-- A key is left empty when it is moved; otherwise its entry has absorbed the arrivals. -/
lemma moveAll_movesOf (hn : keys.Nodup) (hu : Unchained target keys) (n : K) :
    moveAll op rows (movesOf target keys) n =
      if n ∈ keys ∧ (target n).isSome = true then none
      else ((keys.filter fun k => target k = some n).map rows).foldl (absorb op) (rows n) := by
  simp only [moveAll_apply (settled_movesOf hn hu), mem_sources, arrivals_movesOf]

omit [DecidableEq K] in
lemma Unchained.ne (hu : Unchained target keys) {k d : K} (hk : k ∈ keys)
    (ht : target k = some d) : k ≠ d := by
  rintro rfl
  rw [hu k hk k hk ht] at ht
  cases ht

/-- A key with a destination of its own receives nothing. -/
lemma Unchained.filter_dest (hu : Unchained target keys) {n : K}
    (h : n ∈ keys ∧ (target n).isSome = true) : (keys.filter fun k => dest target k = n) = [] := by
  rw [List.filter_eq_nil_iff]
  intro k hk hd
  obtain ⟨hn, ht⟩ := h
  have hd : (target k).getD k = n := of_decide_eq_true hd
  cases hk' : target k with
  | none =>
    obtain rfl : k = n := by simpa [hk'] using hd
    rw [hk'] at ht
    cases ht
  | some d =>
    obtain rfl : d = n := by simpa [hk'] using hd
    rw [hu k hk d hn hk'] at ht
    cases ht

/-- **The keys in use afterwards** are the destinations of those in use before. -/
theorem moveAll_isSome_iff (hn : keys.Nodup) (hu : Unchained target keys)
    (hk : ∀ k, (rows k).isSome = true → k ∈ keys) (n : K) :
    (moveAll op rows (movesOf target keys) n).isSome = true ↔
      ∃ k, (rows k).isSome = true ∧ dest target k = n := by
  rw [moveAll_movesOf hn hu]
  split_ifs with hs
  · constructor
    · simp
    · rintro ⟨k, hr, hd⟩
      have hm : k ∈ keys.filter fun k => dest target k = n :=
        List.mem_filter.mpr ⟨hk k hr, by simpa using hd⟩
      rw [hu.filter_dest hs] at hm
      cases hm
  · rw [foldl_absorb_isSome, Bool.or_eq_true, List.any_map, List.any_eq_true]
    constructor
    · rintro (hr | ⟨k, hm, hr⟩)
      · have ht : target n = none := by
          simpa [hk n hr] using hs
        exact ⟨n, hr, by simp [dest, ht]⟩
      · have ht : target k = some n := by simpa using (List.mem_filter.mp hm).2
        exact ⟨k, hr, by simp [dest, ht]⟩
    · rintro ⟨k, hr, hd⟩
      cases ht : target k with
      | none =>
        obtain rfl : k = n := by simpa [dest, ht] using hd
        exact .inl hr
      | some d =>
        obtain rfl : d = n := by simpa [dest, ht] using hd
        exact .inr ⟨k, List.mem_filter.mpr ⟨hk k hr, by simpa using ht⟩, hr⟩

section Weight

variable [AddCommMonoid M] {f : V → M}

lemma sum_filter_eq {w : K → M} (hn : keys.Nodup) {n : K} (hw : n ∉ keys → w n = 0) :
    ((keys.filter fun k => k = n).map w).sum = w n := by
  rw [List.filter_eq n]
  by_cases h : n ∈ keys
  · simp [List.count_eq_one_of_mem hn h]
  · simp [List.count_eq_zero_of_not_mem h, hw h]

/-- **What a key weighs afterwards** is what the keys bound for it weighed before. -/
theorem weight_moveAll (hf : ∀ e s, f (op e s) = f e + f s) (hn : keys.Nodup)
    (hu : Unchained target keys) (hk : ∀ k, (rows k).isSome = true → k ∈ keys) (n : K) :
    weight f (moveAll op rows (movesOf target keys) n) =
      ((keys.filter fun k => dest target k = n).map fun k => weight f (rows k)).sum := by
  rw [moveAll_movesOf hn hu]
  split_ifs with hs
  · rw [hu.filter_dest hs]
    rfl
  · have hzero : n ∉ keys → weight f (rows n) = 0 := by
      intro hnk
      have hr : rows n = none := by
        by_contra h
        exact hnk (hk n (Option.isSome_iff_ne_none.mpr h))
      rw [hr]
      rfl
    have hself : ((keys.filter fun k => dest target k = n).filter fun k => k = n) =
        keys.filter fun k => k = n := by
      rw [List.filter_filter]
      refine List.filter_congr fun k hkm => ?_
      by_cases hkn : k = n
      · subst hkn
        have ht : target k = none := by simpa [hkm] using hs
        simp [dest, ht]
      · simp [hkn]
    have hothers : ((keys.filter fun k => dest target k = n).filter fun k => ¬ k = n) =
        keys.filter fun k => target k = some n := by
      rw [List.filter_filter]
      refine List.filter_congr fun k hkm => ?_
      cases ht : target k with
      | none => simp [dest, ht]
      | some d =>
        have hne := hu.ne hkm ht
        by_cases hd : d = n
        · subst hd; simp [dest, ht, hne]
        · simp [dest, ht, hd]
    have hsplit := List.sum_map_filter_add_sum_map_filter_not (fun k => k = n)
      (fun k => weight f (rows k)) (keys.filter fun k => dest target k = n)
    rw [hself, hothers, sum_filter_eq hn hzero] at hsplit
    rw [weight_foldl_absorb op hf, List.map_map]
    exact hsplit

section Fibers

variable {D : Type*} [DecidableEq D]

omit [DecidableEq K] in
lemma sum_ite_eq {ds : List D} (hn : ds.Nodup) (b : D) (x : M) :
    (ds.map fun d => if b = d then x else 0).sum = if b ∈ ds then x else 0 := by
  induction ds with
  | nil => rfl
  | cons d ds ih =>
    obtain ⟨hd, hn⟩ := List.nodup_cons.mp hn
    rw [List.map_cons, List.sum_cons, ih hn]
    by_cases hb : b = d
    · subst hb
      simp [hd]
    · simp [hb]

omit [DecidableEq K] in
/-- **Sums by destination.** Over all destinations there are, each key counts once. -/
lemma sum_fibers {bound : K → D} {ds : List D} (hn : ds.Nodup) (hd : ∀ k ∈ keys, bound k ∈ ds)
    (p : D → Bool) (w : K → M) :
    ((ds.filter p).map fun d => ((keys.filter fun k => bound k = d).map w).sum).sum =
      ((keys.filter fun k => p (bound k)).map w).sum := by
  induction keys with
  | nil => simp
  | cons k keys ih =>
    have hrest := ih fun k' hk' => hd k' (List.mem_cons_of_mem k hk')
    have hone : ((ds.filter p).map fun d => if bound k = d then w k else 0).sum =
        if p (bound k) = true then w k else 0 := by
      rw [sum_ite_eq (hn.filter p)]
      simp [hd k List.mem_cons_self]
    have hcons : ∀ d, (((k :: keys).filter fun k => bound k = d).map w).sum =
        (if bound k = d then w k else 0) + ((keys.filter fun k => bound k = d).map w).sum := by
      intro d
      by_cases hb : bound k = d <;> simp [hb]
    simp only [hcons, List.sum_map_add, hrest, hone]
    by_cases hp : p (bound k) = true <;> simp [hp]

end Fibers

end Weight

/-! ### Orders of the moves -/

section Pick

variable {I : Type*} {g : V → Option I}

omit [DecidableEq K] in
/-- A merge that keeps what the absorbing entry has keeps the first of several. -/
lemma pick_foldl_absorb (hg : ∀ e s, g (op e s) = (g e).or (g s)) (l : List (Option V))
    (e : Option V) :
    (l.foldl (absorb op) e).bind g = (e :: l).findSome? fun o => o.bind g := by
  induction l generalizing e with
  | nil => cases h : e.bind g <;> simp [h]
  | cons s l ih =>
    have hbind : (absorb op e s).bind g = (e.bind g).or (s.bind g) := by
      cases e <;> cases s <;> simp [absorb, hg]
    rw [List.foldl_cons, ih]
    simp only [List.findSome?_cons, hbind]
    cases e.bind g <;> rfl

lemma findSome?_perm {A B : Type*} {F : A → Option B} {l l' : List A} (hp : l.Perm l')
    (agree : ∀ x ∈ l, ∀ y ∈ l, ∀ a b, F x = some a → F y = some b → a = b) :
    l.findSome? F = l'.findSome? F := by
  cases h : l.findSome? F with
  | none =>
    have hnone : ∀ x ∈ l', F x = none := fun x hx =>
      List.findSome?_eq_none_iff.mp h x (hp.mem_iff.mpr hx)
    exact (List.findSome?_eq_none_iff.mpr hnone).symm
  | some a =>
    obtain ⟨x, hx, hfx⟩ := List.exists_of_findSome?_eq_some h
    have hsome : (l'.findSome? F).isSome = true :=
      List.findSome?_isSome_iff.mpr ⟨x, hp.mem_iff.mp hx, by rw [hfx]; rfl⟩
    obtain ⟨b, hb⟩ := Option.isSome_iff_exists.mp hsome
    obtain ⟨y, hy, hfy⟩ := List.exists_of_findSome?_eq_some hb
    rw [hb, agree x hx y (hp.mem_iff.mpr hy) a b hfx hfy]

/-- Of the keys bound for one key that has no pick of its own, no two differ in theirs. -/
def Agreeing (g : V → Option I) (target : K → Option K) (rows : K → Option V)
    (keys : List K) : Prop :=
  ∀ n, (rows n).bind g = none → ∀ k ∈ keys, ∀ k' ∈ keys, target k = some n → target k' = some n →
    ∀ i i', (rows k).bind g = some i → (rows k').bind g = some i' → i = i'

omit [DecidableEq K] in
lemma Unchained.perm {keys' : List K} (h : Unchained target keys) (hp : keys.Perm keys') :
    Unchained target keys' := fun k hk d hd =>
  h k (hp.mem_iff.mpr hk) d (hp.mem_iff.mpr hd)

/-- What a key picks in the end is the first pick among its own entry and the arrivals. -/
lemma pick_moveAll (hg : ∀ e s, g (op e s) = (g e).or (g s)) (hn : keys.Nodup)
    (hu : Unchained target keys) {n : K} (h : ¬ (n ∈ keys ∧ (target n).isSome = true)) :
    (moveAll op rows (movesOf target keys) n).bind g =
      (n :: keys.filter fun k => target k = some n).findSome? fun k => (rows k).bind g := by
  rw [moveAll_movesOf hn hu, if_neg h, pick_foldl_absorb hg, ← List.map_cons, List.findSome?_map]
  rfl

/-- Two chained moves at the end of a list leave the key between them empty in one order and
in use in the other. -/
lemma moveAll_chain {moves : List (K × K)} {a b c : K} (hab : a ≠ b) (hbc : b ≠ c)
    (ha : (rows a).isSome = true) (hm : ∀ m ∈ moves, m.1 ≠ a) :
    moveAll op rows (moves ++ [(a, b), (b, c)]) b ≠ moveAll op rows (moves ++ [(b, c), (a, b)]) b := by
  have hrest : (moveAll op rows moves a).isSome = true := moveAll_isSome hm ha
  have h1 : moveAll op rows (moves ++ [(a, b), (b, c)]) b = none := by
    rw [moveAll_append]
    exact move_src hbc
  have h2 : (moveAll op rows (moves ++ [(b, c), (a, b)]) b).isSome = true := by
    rw [moveAll_append]
    have hmove : (move op (move op (moveAll op rows moves) b c) a b b).isSome = true := by
      rw [move_dst hab, absorb_isSome, move_isSome hab hrest, Bool.or_true]
    exact hmove
  intro he
  rw [← he, h1] at h2
  cases h2

variable [AddCommMonoid M] {f : V → M}

/-- Without chains and disagreements every order of the moves leads to one table. -/
lemma moveAll_perm (hf : ∀ e s, f (op e s) = f e + f s) (hg : ∀ e s, g (op e s) = (g e).or (g s))
    (hext : ∀ v w, f v = f w → g v = g w → v = w) (hn : keys.Nodup)
    (hk : ∀ k, (rows k).isSome = true → k ∈ keys) (hu : Unchained target keys)
    (ha : Agreeing g target rows keys) {keys' : List K} (hp : keys.Perm keys') :
    moveAll op rows (movesOf target keys) = moveAll op rows (movesOf target keys') := by
  have hn' := hp.nodup_iff.mp hn
  have hu' := hu.perm hp
  have hk' : ∀ k, (rows k).isSome = true → k ∈ keys' := fun k h => hp.mem_iff.mp (hk k h)
  funext n
  have hsome : (moveAll op rows (movesOf target keys) n).isSome =
      (moveAll op rows (movesOf target keys') n).isSome := by
    rw [Bool.eq_iff_iff, moveAll_isSome_iff hn hu hk, moveAll_isSome_iff hn' hu' hk']
  have hweight : weight f (moveAll op rows (movesOf target keys) n) =
      weight f (moveAll op rows (movesOf target keys') n) := by
    rw [weight_moveAll hf hn hu hk, weight_moveAll hf hn' hu' hk']
    exact ((hp.filter _).map _).sum_eq
  have hpick : (moveAll op rows (movesOf target keys) n).bind g =
      (moveAll op rows (movesOf target keys') n).bind g := by
    by_cases hs : n ∈ keys ∧ (target n).isSome = true
    · have hs' : n ∈ keys' ∧ (target n).isSome = true := ⟨hp.mem_iff.mp hs.1, hs.2⟩
      rw [moveAll_movesOf hn hu, moveAll_movesOf hn' hu', if_pos hs, if_pos hs']
    · have hs' : ¬ (n ∈ keys' ∧ (target n).isSome = true) := fun h =>
        hs ⟨hp.mem_iff.mpr h.1, h.2⟩
      rw [pick_moveAll hg hn hu hs, pick_moveAll hg hn' hu' hs']
      cases hown : (rows n).bind g with
      | some i => simp [hown]
      | none =>
        simp only [List.findSome?_cons, hown]
        refine findSome?_perm (hp.filter _) fun x hx y hy i i' hi hi' => ?_
        rw [List.mem_filter, decide_eq_true_iff] at hx hy
        exact ha n hown x hx.1 y hy.1 hx.2 hy.2 i i' hi hi'
  cases h : moveAll op rows (movesOf target keys) n with
  | none =>
    rw [h] at hsome
    exact (Option.isNone_iff_eq_none.mp (by simpa using hsome.symm)).symm
  | some v =>
    rw [h] at hsome
    obtain ⟨w, hw⟩ := Option.isSome_iff_exists.mp hsome.symm
    rw [h, hw] at hweight hpick
    rw [hw, hext v w hweight hpick]

omit [DecidableEq K] in
lemma movesOf_append (l l' : List K) :
    movesOf target (l ++ l') = movesOf target l ++ movesOf target l' := by
  simp [movesOf, List.filterMap_append]

lemma perm_cons_cons_erase {a b : K} (hab : a ≠ b) (ha : a ∈ keys) (hb : b ∈ keys) :
    keys.Perm (a :: b :: (keys.erase a).erase b) := by
  have hba : b ∈ keys.erase a := (List.mem_erase_of_ne hab.symm).mpr hb
  exact (List.perm_cons_erase ha).trans ((List.perm_cons_erase hba).cons a)

/-- Chained moves tell two orders apart. -/
lemma unchained_of_moveAll (hself : ∀ k, target k ≠ some k) (hn : keys.Nodup)
    (hk : ∀ k, (rows k).isSome = true ↔ k ∈ keys)
    (h : ∀ l l', l.Perm keys → l'.Perm keys →
      moveAll op rows (movesOf target l) = moveAll op rows (movesOf target l')) :
    Unchained target keys := by
  intro a ha b hb hab
  by_contra hb'
  obtain ⟨c, hbc⟩ := Option.ne_none_iff_exists'.mp hb'
  have hne : a ≠ b := by
    rintro rfl
    exact hself a hab
  have hne' : b ≠ c := by
    rintro rfl
    exact hself b hbc
  -- the two keys come last, in either order
  have hperm : keys.Perm (((keys.erase a).erase b) ++ [a, b]) :=
    (perm_cons_cons_erase hne ha hb).trans (List.perm_append_comm : ([a, b] ++ _).Perm _)
  have hswap : (((keys.erase a).erase b) ++ [b, a]).Perm keys :=
    ((List.Perm.swap a b []).append_left _).trans hperm.symm
  have heq := congrFun (h _ _ hperm.symm hswap) b
  have hrest : ∀ m ∈ movesOf target ((keys.erase a).erase b), m.1 ≠ a := by
    rintro m hm rfl
    exact hn.not_mem_erase (List.mem_of_mem_erase (mem_movesOf.mp hm).1)
  rw [movesOf_append, movesOf_append] at heq
  have h1 : movesOf target [a, b] = [(a, b), (b, c)] := by simp [movesOf, hab, hbc]
  have h2 : movesOf target [b, a] = [(b, c), (a, b)] := by simp [movesOf, hab, hbc]
  rw [h1, h2] at heq
  exact moveAll_chain hne hne' ((hk a).mpr ha) hrest heq

/-- **When the order of the moves is immaterial.** Exactly when nothing is moved to a key that
is moved itself, and the entries bound for a key without a pick agree on theirs. -/
theorem moveAll_order_iff (hf : ∀ e s, f (op e s) = f e + f s)
    (hg : ∀ e s, g (op e s) = (g e).or (g s)) (hext : ∀ v w, f v = f w → g v = g w → v = w)
    (hself : ∀ k, target k ≠ some k) (hn : keys.Nodup)
    (hk : ∀ k, (rows k).isSome = true ↔ k ∈ keys) :
    (∀ l l', l.Perm keys → l'.Perm keys →
      moveAll op rows (movesOf target l) = moveAll op rows (movesOf target l')) ↔
    Unchained target keys ∧ Agreeing g target rows keys := by
  constructor
  · intro h
    have hu := unchained_of_moveAll hself hn hk h
    refine ⟨hu, ?_⟩
    intro n hown a ha b hb hta htb i j hi hj
    by_contra hij
    have hab : a ≠ b := by
      rintro rfl
      rw [hi] at hj
      exact hij (Option.some.inj hj)
    have hperm := perm_cons_cons_erase hab ha hb
    have hswap : keys.Perm (b :: a :: (keys.erase a).erase b) := hperm.trans (.swap b a _)
    have hs : ∀ l, keys.Perm l → ¬ (n ∈ l ∧ (target n).isSome = true) := by
      rintro l hl ⟨hnl, hsome⟩
      rw [hu a ha n (hl.mem_iff.mpr hnl) hta] at hsome
      cases hsome
    have heq := congrArg (fun o => o.bind g) (congrFun (h _ _ hperm.symm hswap.symm) n)
    simp only [pick_moveAll hg (hperm.nodup_iff.mp hn) (hu.perm hperm) (hs _ hperm),
      pick_moveAll hg (hswap.nodup_iff.mp hn) (hu.perm hswap) (hs _ hswap)] at heq
    simp [hown, hta, htb, hi, hj] at heq
    exact hij heq
  · rintro ⟨hu, ha⟩ l l' hl hl'
    have hsome : ∀ k, (rows k).isSome = true → k ∈ keys := fun k => (hk k).mp
    rw [← moveAll_perm hf hg hext hn hsome hu ha hl.symm,
      ← moveAll_perm hf hg hext hn hsome hu ha hl'.symm]

end Pick

end Wiretally.Lib.Rekey
