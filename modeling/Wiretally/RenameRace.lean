import Wiretally.Lib.Run
import Wiretally.Resolve

/-!
Renaming while connections are still counting.

Connection tasks look hosts up and add through the handles they hold; one task lists the
hosts and issues the renames of `resolve_ip_only_endpoints`. A step is one access to a
counter or one section under the map lock. A rename that merges holds the lock from the
moment it takes the old block out of the map until it has added the last of it, so no host
is looked up meanwhile, but the counters of both blocks go on moving.

What is counted at any moment is the total over the listed blocks and, during a merge, what
the old block still has to hand over: the counters not read yet and the amounts read and not
added yet. An addition reaches it exactly when its block is listed or is being merged with
that counter unread. Everything else strays, and is missing from the report.
-/

namespace Wiretally.RenameRace

open Wiretally.Lib Wiretally.Lib.Run Wiretally.Net Wiretally.Stats
open Wiretally.Stats.EndpointStats Wiretally.Registry Wiretally.Resolve

/-- Where a merge stands: about to read a counter, or about to add what it read. -/
inductive Pc
  | loadIngress
  | addIngress (v : UInt64)
  | loadEgress
  | addEgress (v : UInt64)
  | loadConnections
  | addConnections (left : ℕ)
  | loadIp
  | observeIp (ip : IpAddr)
  deriving DecidableEq

/-- A rename between its two blocks, under the map lock. -/
structure Merge where
  stats : Arc
  existing : Arc
  pc : Pc
  deriving DecidableEq

/-- The registry, the renames still to issue, and the merge in progress. -/
structure World where
  reg : Registry
  pending : List (Text × Text)
  merging : Option Merge

def World.new : World := ⟨Registry.new, [], none⟩

inductive Act
  /-- Some task looks a host up. -/
  | endpoint (host : Text)
  /-- Some task uses a handle it holds; every block allocated was handed out. -/
  | addIngress (a : Arc) (n : UInt64)
  | addEgress (a : Arc) (n : UInt64)
  | addConnection (a : Arc)
  | observeIp (a : Arc) (addr : IpAddr)
  /-- The hosts are listed and the reverse names looked up. -/
  | resolve (ptr : IpAddr → Option Text) (listing : List (Text × Arc))
  /-- The next rename takes the lock. -/
  | rename
  /-- The merge in progress makes one access. -/
  | merge

/-- The access a merge makes next, and where it stands afterwards. -/
def mergeStep (r : Registry) (m : Merge) : Registry × Option Merge :=
  match m.pc with
  | .loadIngress => (r, some { m with pc := .addIngress (r.heap m.stats).ingress })
  | .addIngress v => (r.update m.existing (·.addIngress v), some { m with pc := .loadEgress })
  | .loadEgress => (r, some { m with pc := .addEgress (r.heap m.stats).egress })
  | .addEgress v => (r.update m.existing (·.addEgress v), some { m with pc := .loadConnections })
  | .loadConnections =>
    (r, some { m with pc := .addConnections (r.heap m.stats).connections.toNat })
  | .addConnections 0 => (r, some { m with pc := .loadIp })
  | .addConnections (left + 1) =>
    (r.update m.existing addConnection, some { m with pc := .addConnections left })
  | .loadIp => (r, (r.heap m.stats).ip.map fun ip => { m with pc := .observeIp ip })
  | .observeIp ip => (r.update m.existing (·.observeIp ip), none)

/-- A handle is used only if it was handed out. -/
def useHandle (w : World) (a : Arc) (f : EndpointStats → EndpointStats) : Option World :=
  if a < w.reg.next then some { w with reg := w.reg.update a f } else none

instance (m : HashMap Text Arc) (l : List (Text × Arc)) : Decidable (HashMap.Lists m l) :=
  inferInstanceAs (Decidable (List.Perm _ _))

def step (w : World) : Act → Option World
  | .endpoint host =>
    match w.merging with
    | none => some { w with reg := (w.reg.endpoint host).2 }
    | some _ => none
  | .addIngress a n => useHandle w a (·.addIngress n)
  | .addEgress a n => useHandle w a (·.addEgress n)
  | .addConnection a => useHandle w a addConnection
  | .observeIp a addr => useHandle w a (·.observeIp addr)
  | .resolve ptr listing =>
    match w.merging, w.pending with
    | none, [] =>
      if HashMap.Lists w.reg.endpoints listing then some { w with pending := renames ptr listing }
      else none
    | _, _ => none
  | .rename =>
    match w.merging, w.pending with
    | none, (src, dst) :: rest =>
      let (reg, blocks) := w.reg.takeOut src dst
      some ⟨reg, rest, blocks.map fun b => ⟨b.1, b.2, .loadIngress⟩⟩
    | _, _ => none
  | .merge =>
    match w.merging with
    | none => none
    | some m =>
      let (reg, merging) := mergeStep w.reg m
      some { w with reg := reg, merging := merging }

/-! ### What is counted -/

/-- What an action adds to a counter, and through which handle. -/
def amount (c : Counter) : Act → Option (Arc × UInt64)
  | .addIngress a n => if c = .ingress then some (a, n) else none
  | .addEgress a n => if c = .egress then some (a, n) else none
  | .addConnection a => if c = .connections then some (a, 1) else none
  | _ => none

/-- Everything added to a counter so far, through any handle. -/
def added (c : Counter) (acts : List Act) : UInt64 :=
  (acts.map fun act => (amount c act).elim 0 Prod.snd).sum

/-- Whether a merge that stands here has still to read the counter. -/
def Pc.unread : Pc → Counter → Bool
  | .loadIngress, _ => true
  | .addIngress _, c => c != .ingress
  | .loadEgress, c => c != .ingress
  | .addEgress _, c => c == .connections
  | .loadConnections, c => c == .connections
  | .addConnections _, _ => false
  | .loadIp, _ => false
  | .observeIp _, _ => false

/-- What a merge that stands here has read of the counter and not added. -/
def Pc.held : Pc → Counter → UInt64
  | .addIngress v, .ingress => v
  | .addEgress v, .egress => v
  | .addConnections left, .connections => UInt64.ofNat left
  | _, _ => 0

/-- Whether an addition to the counter through the handle will be reported: its block is
listed, or is being merged with the counter still unread. -/
def live (w : World) (c : Counter) (a : Arc) : Bool :=
  listed w.reg a || w.merging.any fun m => m.stats == a && m.pc.unread c

/-- What an action adds to a counter of a block no report will reach. -/
def stray (c : Counter) (w : World) (act : Act) : UInt64 :=
  (amount c act).elim 0 fun e => if live w c e.1 then 0 else e.2

/-- All that strayed in a run. -/
def strayed (c : Counter) (acts : List Act) : UInt64 := tally step (stray c) World.new acts

/-! ### One step -/

/-- What the merge in progress still has to hand over. -/
def inflight (w : World) (c : Counter) : UInt64 :=
  w.merging.elim 0 fun m =>
    (if m.pc.unread c then (w.reg.heap m.stats).count c else 0) + m.pc.held c

/-- What has been counted and will be reported. -/
def counted (w : World) (c : Counter) : UInt64 := total w.reg c + inflight w c

/-- A merge runs from a block the map does not list any more into one that it does. -/
def Inv (w : World) : Prop :=
  ∀ m, w.merging = some m → listed w.reg m.stats = false ∧ listed w.reg m.existing = true

lemma Inv.ne {w : World} {m : Merge} (h : Inv w) (hm : w.merging = some m) :
    m.stats ≠ m.existing := by
  obtain ⟨hs, he⟩ := h m hm
  intro heq
  rw [heq, he] at hs
  cases hs

/-- The part of an action that reaches the report. -/
def kept (c : Counter) (w : World) (act : Act) : UInt64 :=
  (amount c act).elim 0 fun e => if live w c e.1 then e.2 else 0

lemma kept_add_stray (c : Counter) (w : World) (act : Act) :
    kept c w act + stray c w act = (amount c act).elim 0 Prod.snd := by
  unfold kept stray
  cases amount c act with
  | none => simp
  | some e => cases hl : live w c e.1 <;> simp [hl]

/-- A handle adds to what is counted exactly when it is live. -/
lemma counted_fetchAdd {w : World} (hi : Inv w) (a : Arc) (n : UInt64) (c d : Counter) :
    counted { w with reg := w.reg.update a (·.fetchAdd n d) } c =
      counted w c + if c = d ∧ live w c a = true then n else 0 := by
  obtain ⟨reg, pending, merging⟩ := w
  unfold counted live
  rw [total_fetchAdd]
  cases merging with
  | none => by_cases hl : listed reg a = true <;> by_cases hc : c = d <;> simp [inflight, hl, hc]
  | some m =>
    obtain ⟨hs, -⟩ := hi m rfl
    simp only [inflight, Option.elim_some]
    by_cases hm : m.stats = a
    · subst hm
      simp only [update_heap_self, count_fetchAdd, hs]
      by_cases hc : c = d
      · subst hc
        by_cases hu : m.pc.unread c = true <;> simp [hu]
        grind
      · simp [hc]
    · rw [update_heap_ne reg _ hm]
      by_cases hl : listed reg a = true <;> by_cases hc : c = d <;> simp [hl, hc, hm]
      grind

lemma inv_update {w : World} (hi : Inv w) (a : Arc) (f : EndpointStats → EndpointStats) :
    Inv { w with reg := w.reg.update a f } := fun m hm => hi m hm

lemma counted_observeIp (w : World) (a : Arc) (addr : IpAddr) (c : Counter) :
    counted { w with reg := w.reg.update a (·.observeIp addr) } c = counted w c := by
  obtain ⟨reg, pending, merging⟩ := w
  unfold counted
  rw [total_observeIp]
  cases merging with
  | none => rfl
  | some m =>
    by_cases hm : m.stats = a
    · subst hm; simp [inflight]
    · simp [inflight, update_heap_ne reg _ hm]

/-! ### The merge -/

/-- Each access of a merge moves an amount along without changing what is counted. -/
lemma counted_mergeStep {w : World} {m : Merge} (hi : Inv w) (hm : w.merging = some m)
    (c : Counter) :
    counted { w with reg := (mergeStep w.reg m).1, merging := (mergeStep w.reg m).2 } c =
      counted w c := by
  have hne := hi.ne hm
  obtain ⟨-, he⟩ := hi m hm
  obtain ⟨reg, pending, merging⟩ := w
  obtain ⟨stats, existing, pc⟩ := m
  obtain rfl : merging = _ := hm
  simp only at he hne
  -- what reaches the listed block, and what stays with the old one
  have hadd : ∀ n d, total (reg.update existing (·.fetchAdd n d)) c =
      total reg c + if c = d then n else 0 := fun n d => by
    rw [total_fetchAdd]; simp [he]
  have hold : ∀ f, ((reg.update existing f).heap stats) = reg.heap stats :=
    fun f => update_heap_ne reg f hne
  cases pc with
  | loadIngress =>
    cases c <;> simp [counted, inflight, mergeStep, Pc.unread, Pc.held, count]
  | addIngress v =>
    simp only [counted, inflight, mergeStep, Option.elim_some, addIngress, hadd, hold]
    cases c <;> simp [Pc.unread, Pc.held]
  | loadEgress =>
    cases c <;> simp [counted, inflight, mergeStep, Pc.unread, Pc.held, count]
  | addEgress v =>
    simp only [counted, inflight, mergeStep, Option.elim_some, addEgress, hadd, hold]
    cases c <;> simp [Pc.unread, Pc.held]
  | loadConnections =>
    cases c <;> simp [counted, inflight, mergeStep, Pc.unread, Pc.held, count]
  | addConnections left =>
    cases left with
    | zero => cases c <;> simp [counted, inflight, mergeStep, Pc.unread, Pc.held]
    | succ left =>
      have hone : total (reg.update existing addConnection) c =
        total reg c + if c = .connections then 1 else 0 := hadd 1 .connections
      simp only [counted, inflight, mergeStep, Option.elim_some, hone, hold]
      cases c <;> simp [Pc.unread, Pc.held]
      grind
  | loadIp =>
    cases hip : (reg.heap stats).ip <;>
      cases c <;> simp [counted, inflight, mergeStep, hip, Pc.unread, Pc.held]
  | observeIp ip =>
    simp only [counted, inflight, mergeStep, Option.elim_some, Option.elim_none,
      total_observeIp]
    cases c <;> simp [Pc.unread, Pc.held]

/-- A merge keeps its two blocks, and neither is listed or taken out by its accesses. -/
lemma inv_mergeStep {w : World} {m : Merge} (hi : Inv w) (hm : w.merging = some m) :
    Inv { w with reg := (mergeStep w.reg m).1, merging := (mergeStep w.reg m).2 } := by
  obtain ⟨hs, he⟩ := hi m hm
  obtain ⟨stats, existing, pc⟩ := m
  have same : ∀ f, listed (w.reg.update existing f) stats = false ∧
      listed (w.reg.update existing f) existing = true := fun f => ⟨hs, he⟩
  intro m' hm'
  rcases pc with _ | v | _ | v | _ | left | _ | ip
  · cases hm'; exact ⟨hs, he⟩
  · cases hm'; exact same _
  · cases hm'; exact ⟨hs, he⟩
  · cases hm'; exact same _
  · cases hm'; exact ⟨hs, he⟩
  · cases left with
    | zero => cases hm'; exact ⟨hs, he⟩
    | succ left => cases hm'; exact same _
  · obtain ⟨ip, -, rfl⟩ := Option.map_eq_some_iff.mp hm'
    exact ⟨hs, he⟩
  · cases hm'

lemma takeOut_spec (reg : Registry) (rest : List (Text × Text)) (src dst : Text) :
    let w : World := ⟨(reg.takeOut src dst).1, rest,
      (reg.takeOut src dst).2.map fun b => ⟨b.1, b.2, .loadIngress⟩⟩
    Inv w ∧ ∀ c, counted w c = total reg c := by
  have hcase := takeOut_cases reg src dst
  generalize reg.takeOut src dst = out at hcase
  cases hcase with
  | absent => exact ⟨fun m hm => by simp at hm, fun c => by simp [counted, inflight]⟩
  | @moved stats ne hs hd ha hn =>
    refine ⟨fun m hm => by simp at hm, fun c => ?_⟩
    have hd' : (reg.remove src).endpoints.lookup dst = none :=
      (AList.lookup_erase_ne (Ne.symm ne)).trans hd
    have hl := total_list (reg.remove src) ha hn hd' c
    simp only [counted, inflight, Option.map_none, Option.elim_none, add_zero, hl]
    exact (total_remove reg hs c).symm
  | @merged stats existing ne hs hd =>
    refine ⟨fun m hm => ?_, fun c => ?_⟩
    · cases hm
      exact ⟨(listed_eq_false _).mpr (reg.not_listed_remove hs), listed_remove reg ne hd⟩
    · simp only [counted, inflight, Option.map_some, Option.elim_some, Pc.unread, Pc.held,
        if_true, add_zero]
      rw [total_remove reg hs c, add_comm]
      rfl

/-! ### Runs -/

lemma useHandle_spec {w w' : World} (hi : Inv w) {a : Arc} {n : UInt64} {d : Counter}
    (h : useHandle w a (·.fetchAdd n d) = some w') :
    Inv w' ∧ ∀ c, counted w' c = counted w c + if c = d ∧ live w c a = true then n else 0 := by
  unfold useHandle at h
  split_ifs at h
  cases h
  exact ⟨inv_update hi a _, fun c => counted_fetchAdd hi a n c d⟩

/-- **One step**: what is counted grows by what the step adds through a live handle. -/
lemma step_spec {w w' : World} {act : Act} (hi : Inv w) (h : step w act = some w') :
    Inv w' ∧ ∀ c, counted w' c = counted w c + kept c w act := by
  cases act with
  | endpoint host =>
    cases hm : w.merging with
    | some m => simp [step, hm] at h
    | none =>
      simp only [step, hm, Option.some.injEq] at h
      subst h
      refine ⟨fun m hm' => by simp at hm', fun c => ?_⟩
      simp [counted, inflight, hm, kept, amount, total_endpoint]
  | addIngress a n =>
    obtain ⟨hi', hc⟩ := useHandle_spec (d := .ingress) hi h
    refine ⟨hi', fun c => ?_⟩
    rw [hc c]
    cases c <;> simp [kept, amount]
  | addEgress a n =>
    obtain ⟨hi', hc⟩ := useHandle_spec (d := .egress) hi h
    refine ⟨hi', fun c => ?_⟩
    rw [hc c]
    cases c <;> simp [kept, amount]
  | addConnection a =>
    obtain ⟨hi', hc⟩ := useHandle_spec (n := 1) (d := .connections) hi h
    refine ⟨hi', fun c => ?_⟩
    rw [hc c]
    cases c <;> simp [kept, amount]
  | observeIp a addr =>
    simp only [step, useHandle] at h
    split_ifs at h
    cases h
    exact ⟨inv_update hi a _, fun c => by simp [counted_observeIp, kept, amount]⟩
  | resolve ptr listing =>
    simp only [step] at h
    split at h
    · split_ifs at h
      cases h
      exact ⟨hi, fun c => by simp [counted, inflight, kept, amount]⟩
    · cases h
  | rename =>
    simp only [step] at h
    split at h
    · next src dst rest hm hp =>
      cases h
      obtain ⟨hi', hc⟩ := takeOut_spec w.reg rest src dst
      refine ⟨hi', fun c => ?_⟩
      have hw : counted w c = total w.reg c := by simp [counted, inflight, hm]
      simpa [hw, kept, amount] using hc c
    · cases h
  | merge =>
    cases hm : w.merging with
    | none => simp [step, hm] at h
    | some m =>
      simp only [step, hm, Option.some.injEq] at h
      subst h
      exact ⟨inv_mergeStep hi hm,
        fun c => by rw [counted_mergeStep hi hm c]; simp [kept, amount]⟩

lemma inv_new : Inv World.new := fun m hm => by cases hm

/-- **A run**: what is counted and what strayed add up to everything that was added. -/
theorem counted_add_strayed {acts : List Act} {w : World}
    (h : run step World.new acts = some w) (c : Counter) :
    counted w c + strayed c acts = added c acts := by
  have hk : counted w c = counted World.new c + tally step (kept c) World.new acts :=
    run_tally (fun w act w' hi hs => (step_spec hi hs).1)
      (fun w act w' hi hs => (step_spec hi hs).2 c) inv_new h
  have h0 : counted World.new c = 0 := rfl
  have hsum : tally step (fun w act => kept c w act + stray c w act) World.new acts =
      tally step (kept c) World.new acts + strayed c acts := tally_add _ _ _ _
  simp only [kept_add_stray] at hsum
  rw [tally_actions (fun act => (amount c act).elim 0 Prod.snd) h] at hsum
  rw [hk, h0, zero_add]
  exact hsum.symm

/-- **While no rename runs, the report holds everything that was added exactly when what
strayed sums to nothing.** -/
theorem snapshot_sum_iff_strayed {acts : List Act} {w : World}
    (h : run step World.new acts = some w) (quiet : w.merging = none)
    {listing : List (Text × Arc)} (hl : HashMap.Lists w.reg.endpoints listing) (c : Counter) :
    ((w.reg.snapshotOf none listing).map (·.count c)).sum = added c acts ↔
      strayed c acts = 0 := by
  have hrun := counted_add_strayed h c
  have hq : counted w c = total w.reg c := by simp [counted, inflight, quiet]
  rw [sum_snapshotOf w.reg none hl c, ← hrun, hq]
  constructor
  · intro heq
    simpa using heq.symm
  · intro h0
    rw [h0, add_zero]

/-- A download from `1.2.3.4` outlives the drain: its last five bytes arrive after its row
was merged into that of `host.example`, through the handle the connection still holds. -/
def lateBytes : List Act :=
  [.endpoint "1.2.3.4".toList, .endpoint "host.example".toList, .addIngress 0 100,
    .resolve (fun _ => some "host.example".toList)
      [("1.2.3.4".toList, 0), ("host.example".toList, 1)],
    .rename, .merge, .merge, .merge, .merge, .merge, .merge, .merge, .addIngress 0 5]

lemma lateBytes_runs : (run step World.new lateBytes).isSome = true := by decide +kernel

theorem lateBytes_lost :
    ¬ ∀ (acts : List Act) (w : World) (listing : List (Text × Arc)) (c : Counter),
      run step World.new acts = some w → w.merging = none →
      HashMap.Lists w.reg.endpoints listing →
      ((w.reg.snapshotOf none listing).map (·.count c)).sum = added c acts := by
  intro h
  have hrun := Option.some_get lateBytes_runs
  have := h lateBytes _ [("host.example".toList, 1)] .ingress hrun.symm
    (by decide +kernel) (by decide +kernel)
  revert this
  decide +kernel

theorem snapshot_sum_iff_strayed_lateBytes :
    (((Option.get _ lateBytes_runs).reg.snapshotOf none [("host.example".toList, 1)]).map
      (·.count .egress)).sum = added .egress lateBytes ↔ strayed .egress lateBytes = 0 :=
  snapshot_sum_iff_strayed (Option.some_get lateBytes_runs).symm (by decide +kernel)
    (by decide +kernel) .egress

theorem strayed_eq_zero {acts : List Act} {c : Counter}
    (h : ∀ t ∈ trace step World.new acts, ∀ e, amount c t.2 = some e → live t.1 c e.1 = true) :
    strayed c acts = 0 := by
  refine tally_eq_zero fun t ht => ?_
  unfold stray
  cases ha : amount c t.2 with
  | none => rfl
  | some e => simp [h t ht e ha]

/-! ### A rename that nothing interrupts -/

lemma run_addConnections (r : Registry) (rest : List (Text × Text)) (s e : Arc) (left : ℕ) :
    run step ⟨r, rest, some ⟨s, e, .addConnections left⟩⟩ (List.replicate (left + 1) .merge) =
      some ⟨(fun r : Registry => r.update e addConnection)^[left] r, rest,
        some ⟨s, e, .loadIp⟩⟩ := by
  induction left generalizing r with
  | zero => rfl
  | succ left ih =>
    rw [List.replicate_succ, run_cons, Function.iterate_succ_apply]
    exact ih (r.update e addConnection)

lemma run_loadIp (r : Registry) (rest : List (Text × Text)) (s e : Arc) :
    ∃ k, run step ⟨r, rest, some ⟨s, e, .loadIp⟩⟩ (List.replicate k .merge) =
      some ⟨match (r.heap s).ip with
        | some ip => r.update e (·.observeIp ip)
        | none => r, rest, none⟩ := by
  cases hip : (r.heap s).ip with
  | none => exact ⟨1, by simp [run_cons, step, mergeStep, hip]⟩
  | some ip => exact ⟨2, by simp [run_cons, List.replicate_succ, step, mergeStep, hip]⟩

/-- **Alone, the accesses of a rename are `rename`.** -/
theorem run_rename (w : World) (src dst : Text) (rest : List (Text × Text))
    (hm : w.merging = none) (hp : w.pending = (src, dst) :: rest) :
    ∃ k, run step w (.rename :: List.replicate k .merge) =
      some ⟨w.reg.rename src dst, rest, none⟩ := by
  have hcase := takeOut_cases w.reg src dst
  simp only [run_cons, step, hm, hp, Option.bind_some, Registry.rename]
  generalize w.reg.takeOut src dst = out at hcase
  cases hcase with
  | absent => exact ⟨0, rfl⟩
  | moved => exact ⟨0, rfl⟩
  | @merged s e ne hs hd =>
    set r := w.reg.remove src
    -- the two byte counters take four accesses, the read of the connections a fifth
    let r2 := (r.update e (·.addIngress (r.heap s).ingress)).update e
      (·.addEgress ((r.update e (·.addIngress (r.heap s).ingress)).heap s).egress)
    obtain ⟨k, hk⟩ := run_loadIp
      ((fun r : Registry => r.update e addConnection)^[(r2.heap s).connections.toNat] r2) rest s e
    refine ⟨5 + ((r2.heap s).connections.toNat + 1) + k, ?_⟩
    rw [List.replicate_add, List.replicate_add, run_append, run_append]
    have hhead : run step ⟨r, rest, some ⟨s, e, .loadIngress⟩⟩ (List.replicate 5 .merge) =
        some ⟨r2, rest, some ⟨s, e, .addConnections (r2.heap s).connections.toNat⟩⟩ := rfl
    simp only [Option.map_some]
    rw [hhead, Option.bind_some, run_addConnections, Option.bind_some, hk]
    rfl

end Wiretally.RenameRace
