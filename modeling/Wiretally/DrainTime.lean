import Wiretally.Drain

/-!
How long the drain takes.

Connections in flight may never end, so the drain waits for them by the clock. It sleeps between
two looks at their number; the clock goes on while it is awake, and it may wake late. What is
said of its length is said of every run, with the time by which it was late.
-/

namespace Wiretally.DrainTime

open Wiretally.Lib Wiretally.Lib.Run Wiretally.Drain

/-! ### What a run of the program spends -/

def isMain : Act → Bool
  | .main => true
  | _ => false

def mains (acts : List Act) : ℕ := acts.countP isMain

def fallsAsleep (w : World) (act : Act) : Bool :=
  match w.main with
  | .checksClock deadline => isMain act && decide (w.now < deadline)
  | _ => false

def sleeps (acts : List Act) : ℕ :=
  (trace step World.start acts).countP fun t => fallsAsleep t.1 t.2

/-- The time that passes in a step while the drain is awake, or should be. -/
def late (w : World) : Act → ℕ
  | .elapses ms =>
    match w.main with
    | .looks _ | .checksClock _ => ms
    | .sleeps _ wake => w.now + ms - max w.now wake
    | _ => 0
  | _ => 0

/-- How much time has passed so. -/
def lateness (acts : List Act) : ℕ :=
  (trace step World.start acts).foldl (fun l t => l + late t.1 t.2) 0

/-- Where `run` stands after `k` steps and `n` sleeps, when the drain has been `l` milliseconds
late. A sleep is counted when it begins and paid for when it ends. -/
def Spent (k n l now : ℕ) : Main → Prop
  | .childRuns => k = 0 ∧ n = 0
  | .dropsProxy => k = 1 ∧ n = 0
  | .drains => k = 2 ∧ n = 0
  | .looks deadline => k = 3 * n + 3 ∧ deadline + n * drainPoll ≤ now + drainTimeout ∧
      now < deadline + drainPoll + l
  | .checksClock deadline => k = 3 * n + 4 ∧ deadline + n * drainPoll ≤ now + drainTimeout ∧
      now < deadline + drainPoll + l
  | .sleeps deadline wake => k = 3 * n + 2 ∧ deadline + n * drainPoll ≤ wake + drainTimeout ∧
      wake < deadline + drainPoll ∧ wake ≤ now + drainPoll ∧ now < deadline + drainPoll + l
  | .drained deadline returned => k ≤ 3 * n + 5 ∧ returned < deadline + drainPoll + l
  | .reports _ => k ≤ 3 * n + 6

structure Kept (acts : List Act) (w : World) : Prop where
  sleeps : sleeps acts * drainPoll ≤ drainTimeout
  main : Spent (mains acts) (DrainTime.sleeps acts) (lateness acts) w.now w.main

/-! ### What a step spends -/

section Steps

variable {acts : List Act} {act : Act} {w w' : World}

lemma mains_snoc (acts : List Act) (act : Act) :
    mains (acts ++ [act]) = mains acts + if isMain act then 1 else 0 := by
  rw [mains, List.countP_append, List.countP_singleton]
  rfl

lemma sleeps_snoc (h : run step World.start acts = some w) (act : Act) :
    sleeps (acts ++ [act]) = sleeps acts + if fallsAsleep w act then 1 else 0 := by
  rw [sleeps, trace_snoc act h, List.countP_append, List.countP_singleton]
  rfl

lemma lateness_snoc (h : run step World.start acts = some w) (act : Act) :
    lateness (acts ++ [act]) = lateness acts + late w act := by
  rw [lateness, trace_snoc act h, List.foldl_append]
  rfl

lemma shared_now {v : World} {op : Op} (h : w.shared op = some v) : v.now = w.now := by
  cases op with
  | polls | connected =>
    simp only [World.shared, World.trackOpen] at h
    split_ifs at h
    cases h
    rfl
  | fetchAdd | observeIp =>
    simp only [World.shared] at h
    split_ifs at h
    cases h
    rfl
  | _ =>
    cases h
    rfl

/-- Only time and `run` itself move `run`. -/
lemma elapses_or_main (h : step w act = some w') :
    (∃ ms, act = .elapses ms ∧ w' = { w with now := w.now + ms }) ∨
      (act = .main ∧ stepMain w = some w') ∨
      (isMain act = false ∧ fallsAsleep w act = false ∧ late w act = 0 ∧
        w'.now = w.now ∧ w'.main = w.main) := by
  have hmain : isMain act = false → fallsAsleep w act = false := by
    intro hact
    unfold fallsAsleep
    rw [hact]
    cases w.main <;> rfl
  cases act with
  | elapses ms =>
    cases h
    exact .inl ⟨ms, rfl, rfl⟩
  | main => exact .inr (.inl ⟨rfl, h⟩)
  | conn i op =>
    refine .inr (.inr ⟨rfl, hmain rfl, rfl, ?_⟩)
    cases step_moves h with
    | @conn _ _ _ _ v _ _ hv =>
      have hnow : v.now = w.now := shared_now hv
      exact ⟨hnow, (shared_frame hv).2.2.2⟩
  | _ =>
    refine .inr (.inr ⟨rfl, hmain rfl, rfl, ?_⟩)
    cases step_moves h
    exact ⟨rfl, rfl⟩

/-- While time passes, the drain is late or it sleeps. -/
lemma spent_elapses {k n l ms : ℕ} (h : Spent k n l w.now w.main) :
    Spent k n (l + late w (.elapses ms)) (w.now + ms) w.main := by
  unfold late
  cases hm : w.main with
  | looks deadline | checksClock deadline =>
    rw [hm] at h
    obtain ⟨hk, hn, hlt⟩ := h
    exact ⟨hk, by omega, by simp only; omega⟩
  | sleeps deadline wake =>
    rw [hm] at h
    obtain ⟨hk, hn, hwake, hsoon, hlt⟩ := h
    refine ⟨hk, hn, hwake, by omega, ?_⟩
    simp only
    omega
  | _ =>
    rw [hm] at h
    exact h

/-- A step of `run`: it sleeps only before the deadline, and before that it has slept no longer
than the drain has gone on. -/
lemma spent_main (h : stepMain w = some w') {k n l : ℕ} (hn : n * drainPoll ≤ drainTimeout)
    (hw : Spent k n l w.now w.main) :
    (n + if fallsAsleep w .main then 1 else 0) * drainPoll ≤ drainTimeout ∧
      Spent (k + 1) (n + if fallsAsleep w .main then 1 else 0) l w'.now w'.main := by
  unfold stepMain at h
  unfold fallsAsleep
  cases hm : w.main with
  | checksClock deadline =>
    rw [hm] at h hw
    obtain ⟨hk, hspent, hlt⟩ := hw
    simp only at h
    split_ifs at h with hclock
    · cases h
      simp only [isMain, Bool.true_and, hclock, decide_true, if_true, Spent]
      simp only [drainTimeout, drainPoll] at *
      exact ⟨by omega, by omega, by omega, by omega, by omega, by omega⟩
    · cases h
      simp only [isMain, Bool.true_and, hclock, decide_false, Bool.false_eq_true, if_false,
        Nat.add_zero]
      exact ⟨hn, by omega, hlt⟩
  | childRuns | dropsProxy =>
    rw [hm] at h hw
    cases h
    exact ⟨hn, congrArg (· + 1) hw.1, hw.2⟩
  | drains =>
    rw [hm] at h hw
    cases h
    obtain ⟨rfl, rfl⟩ := hw
    have hpoll : drainPoll = 10 := rfl
    exact ⟨hn, rfl, by simp, by simp only; omega⟩
  | looks deadline =>
    rw [hm] at h hw
    obtain ⟨hk, hspent, hlt⟩ := hw
    simp only [Bool.false_eq_true, if_false, Nat.add_zero] at h ⊢
    split_ifs at h
    · cases h
      exact ⟨hn, by omega, hspent, hlt⟩
    · cases h
      exact ⟨hn, by omega, hlt⟩
  | sleeps deadline wake =>
    rw [hm] at h hw
    obtain ⟨hk, hspent, hwake, hsoon, hlt⟩ := hw
    simp only [Bool.false_eq_true, if_false, Nat.add_zero] at h ⊢
    split_ifs at h with hwoken
    cases h
    exact ⟨hn, by omega, hspent.trans (Nat.add_le_add_right hwoken _), hlt⟩
  | drained deadline returned =>
    rw [hm] at h hw
    cases h
    exact ⟨hn, Nat.succ_le_succ hw.1⟩
  | reports snapshot =>
    rw [hm] at h
    cases h

end Steps

/-! ### When it ends -/

section Runs

variable {acts : List Act} {w : World} {deadline now : ℕ}

lemma kept_run (h : run step World.start acts = some w) : Kept acts w := by
  have hstart : Kept [] World.start := ⟨by decide, rfl, rfl⟩
  refine run_induction (P := Kept) hstart (fun as v act w' hr ⟨hn, hm⟩ hst => ?_) h
  rcases elapses_or_main hst with ⟨ms, rfl, rfl⟩ | ⟨rfl, hmain⟩ | ⟨hact, hawake, hlate, hnow, hsame⟩
  · have hsleeps : sleeps (as ++ [.elapses ms]) = sleeps as := by
      rw [sleeps_snoc hr, fallsAsleep]
      cases v.main <;> rfl
    have hmains : mains (as ++ [.elapses ms]) = mains as := mains_snoc as (.elapses ms)
    refine ⟨hsleeps ▸ hn, ?_⟩
    rw [hsleeps, hmains, lateness_snoc hr]
    exact spent_elapses hm
  · obtain ⟨hn', hm'⟩ := spent_main hmain hn hm
    refine ⟨(sleeps_snoc hr .main).symm ▸ hn', ?_⟩
    rw [sleeps_snoc hr, lateness_snoc hr, mains_snoc]
    exact hm'
  · have hsleeps : sleeps (as ++ [act]) = sleeps as := by
      rw [sleeps_snoc hr, hawake]
      rfl
    refine ⟨hsleeps ▸ hn, ?_⟩
    rw [hsleeps, lateness_snoc hr, hlate, mains_snoc, hact, hnow, hsame]
    exact hm

def setDeadline : Main → Option ℕ
  | .looks deadline | .checksClock deadline | .sleeps deadline _ | .drained deadline _ =>
    some deadline
  | _ => none

/-- A moment of a run at which `run` takes a step. -/
def StepsAt (acts : List Act) (P : World → Prop) : Prop :=
  ∃ as bs v, acts = as ++ .main :: bs ∧ run step World.start as = some v ∧ P v

lemma StepsAt.snoc {P : World → Prop} (h : StepsAt acts P) (act : Act) :
    StepsAt (acts ++ [act]) P := by
  obtain ⟨as, bs, v, rfl, hr, hv⟩ := h
  exact ⟨as, bs ++ [act], v, by simp, hr, hv⟩

lemma began_run (h : run step World.start acts = some w) (hd : setDeadline w.main = some deadline) :
    StepsAt acts fun v => v.main = .drains ∧ deadline = v.now + drainTimeout := by
  refine run_induction (P := fun as v => setDeadline v.main = some deadline →
    StepsAt as fun v => v.main = .drains ∧ deadline = v.now + drainTimeout) (fun hnew => by cases hnew)
    (fun as v act w' hr ih hst hd => ?_) h hd
  have hsame : setDeadline w'.main = setDeadline v.main ∨
      act = .main ∧ v.main = .drains ∧ w'.main = .looks (v.now + drainTimeout) := by
    cases step_moves hst with
    | conn _ _ hv => exact .inl (congrArg setDeadline (shared_frame hv).2.2.2)
    | drains hm => exact .inr ⟨rfl, hm, rfl⟩
    | snapshots hm => cases hd
    | dropsProxy hm => cases hd
    | childExits hm | inFlight hm | noneInFlight hm | early hm | late hm | slept hm =>
      exact .inl (by rw [hm]; rfl)
    | _ => exact .inl rfl
  rcases hsame with hsame | ⟨rfl, hm, hlooks⟩
  · exact (ih (hsame ▸ hd)).snoc act
  · rw [hlooks] at hd
    cases hd
    exact ⟨as, [], v, rfl, hr, hm, rfl⟩

lemma returned_run (h : run step World.start acts = some w) (hm : w.main = .drained deadline now)
    (hearly : now < deadline) :
    StepsAt acts fun v => v.now = now ∧ ∀ c ∈ v.conns, c.stage ≠ .opened ∧ c.streams = 0 := by
  refine run_induction (P := fun as v => v.main = .drained deadline now →
    StepsAt as fun v => v.now = now ∧ ∀ c ∈ v.conns, c.stage ≠ .opened ∧ c.streams = 0)
    (fun hnew => by cases hnew)
    (fun as v act w' hr ih hst hm => ?_) h hm
  have hsame : w'.main = v.main ∨ act = .main ∧ v.now = now ∧ v.openConnections = 0 := by
    cases step_moves hst with
    | conn _ _ hv => exact .inl (shared_frame hv).2.2.2
    | noneInFlight _ hzero =>
      cases hm
      exact .inr ⟨rfl, rfl, hzero⟩
    | late _ hlate =>
      cases hm
      exact absurd hearly hlate
    | childExits | dropsProxy | drains | inFlight | early | slept | snapshots => cases hm
    | _ => exact .inl rfl
  rcases hsame with hsame | ⟨rfl, hnow, hzero⟩
  · exact (ih (hsame ▸ hm)).snoc act
  · refine ⟨as, [], v, rfl, hr, hnow, fun c hc => ?_⟩
    have hguards : c.guards = 0 := (inv_run hr).guards.eq_zero_iff.mp hzero c hc
    unfold Conn.guards at hguards
    refine ⟨fun hopened => ?_, by omega⟩
    rw [if_pos hopened] at hguards
    omega

lemma goes_on (h : run step World.start acts = some w) (hm : ∀ snapshot, w.main ≠ .reports snapshot) :
    ∃ w', run step w [.elapses drainPoll, .main] = some w' := by
  suffices hsome : ∃ w', stepMain { w with now := w.now + drainPoll } = some w' by
    obtain ⟨w', hw'⟩ := hsome
    exact ⟨w', by rw [run_cons]; simpa [step, run_cons] using hw'⟩
  have hspent := (kept_run h).main
  unfold stepMain
  cases hmain : w.main with
  | reports snapshot => exact absurd hmain (hm snapshot)
  | looks | checksClock =>
    simp only
    split_ifs
    · exact ⟨_, rfl⟩
    · exact ⟨_, rfl⟩
  | sleeps deadline wake =>
    rw [hmain] at hspent
    exact ⟨_, if_pos hspent.2.2.2.1⟩
  | _ => exact ⟨_, rfl⟩

/-- **The drain ends.** Whatever the connections do and however late it wakes, `run` sleeps at
most so often as its time allows and takes a bounded number of steps, and until it has its
snapshot it can take one after the time of a sleep. When the drain returns, no more than its time, one
sleep and what it was late by have passed since it began; and if that is before its deadline, no
connection that had been polled was in flight. -/
theorem drain_ends (h : run step World.start acts = some w) :
    sleeps acts ≤ drainTimeout / drainPoll ∧
    mains acts ≤ 3 * (drainTimeout / drainPoll) + 6 ∧
    ((∀ snapshot, w.main ≠ .reports snapshot) →
      ∃ w', run step w [.elapses drainPoll, .main] = some w') ∧
    ∀ deadline now, w.main = .drained deadline now →
      (StepsAt acts fun v => v.main = .drains ∧ deadline = v.now + drainTimeout) ∧
      now < deadline + drainPoll + lateness acts ∧
      (now < deadline →
        StepsAt acts fun v => v.now = now ∧ ∀ c ∈ v.conns, c.stage ≠ .opened ∧ c.streams = 0) := by
  obtain ⟨hsleeps, hspent⟩ := kept_run h
  have hle : sleeps acts ≤ drainTimeout / drainPoll := (Nat.le_div_iff_mul_le (by decide)).mpr hsleeps
  refine ⟨hle, ?_, goes_on h, fun deadline now hm => ⟨?_, ?_, returned_run h hm⟩⟩
  · cases hm : w.main <;> rw [hm] at hspent <;> simp only [Spent] at hspent <;> omega
  · exact began_run h (by rw [hm]; rfl)
  · rw [hm] at hspent
    exact hspent.2

end Runs

/-! ### A connection that ends while it is waited for -/

def returned : Main → Option (ℕ × ℕ)
  | .drained deadline now => some (deadline, now)
  | _ => none

/-- One connection in flight ends during the first sleep, from which the drain wakes late. -/
def endsMeanwhile : List Act :=
  acceptOne ++ [.conn 0 .polls] ++ exits ++
    [.main, .main, .elapses 4, .conn 0 (.ends 0), .elapses 9, .main, .main]

lemma run_endsMeanwhile : ∃ w, run step World.start endsMeanwhile = some w ∧
    w.main = .drained 2000 13 := by
  have hreturned : (run step World.start endsMeanwhile).bind (fun w => returned w.main) =
      some (2000, 13) := by
    decide +kernel
  obtain ⟨w, hw, hm⟩ := Option.bind_eq_some_iff.mp hreturned
  refine ⟨w, hw, ?_⟩
  cases hmain : w.main <;> rw [hmain] at hm <;> cases hm
  rfl

theorem drain_ends_endsMeanwhile : ∃ w, run step World.start endsMeanwhile = some w ∧
    w.main = .drained 2000 13 ∧ 13 < 2000 + drainPoll + lateness endsMeanwhile ∧
    StepsAt endsMeanwhile fun v => v.now = 13 ∧ ∀ c ∈ v.conns, c.stage ≠ .opened ∧ c.streams = 0 := by
  obtain ⟨w, hrun, hm⟩ := run_endsMeanwhile
  obtain ⟨-, hlate, hearly⟩ := (drain_ends hrun).2.2.2 2000 13 hm
  exact ⟨w, hrun, hm, hlate, hearly (by omega)⟩

end Wiretally.DrainTime
