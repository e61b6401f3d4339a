import Wiretally.Lib.Guards
import Wiretally.Lib.Run
import Wiretally.Registry

/-!
The end of a run: the child exits, the proxy is dropped, connections in flight are waited for,
and the snapshot is taken.

The accept loop, the task of each connection, the relay it may start, its upstream sockets and
the task of `run` make progress on several threads at once. An aborted task goes no further
than its next suspension, but a poll that has begun is not cut short. What a connection does
with its bytes makes no difference here: while it may count, it may count anything.
-/

namespace Wiretally.Drain

open Wiretally.Lib Wiretally.Lib.Run Wiretally.Stats Wiretally.Net

/-! ### Tasks -/

/-- A task that can be aborted, between two polls or in one. -/
inductive Task
  | suspended
  | polled (aborted : Bool)
  | over
  deriving DecidableEq

inductive Poll | wakes | suspends | returns
  deriving DecidableEq

namespace Task

def poll : Task → Poll → Option Task
  | .suspended, .wakes => some (.polled false)
  | .polled false, .suspends => some .suspended
  | .polled true, .suspends => some .over
  | .polled _, .returns => some .over
  | _, _ => none

def abort : Task → Task
  | .suspended => .over
  | .polled _ => .polled true
  | .over => .over

def isPolled : Task → Bool
  | .polled _ => true
  | _ => false

end Task

/-! ### Connections -/

/-- How far the task of a connection is: the stream is accepted, the task is spawned, it has
been polled for the first time, it has come to its end. -/
inductive Stage | accepted | spawned | opened | ended
  deriving DecidableEq

/-- A connection with all that works for it: its task, its relay for datagrams, the calls of
its connector that are under way and the upstream sockets these have opened. -/
structure Conn where
  stage : Stage
  relay : Option Task
  calls : ℕ
  streams : ℕ
  deriving DecidableEq

inductive Op
  /-- The first poll of its task, which begins with `track_open`. -/
  | polls
  | lookUp (host : Text)
  | fetchAdd (a : Arc) (n : UInt64) (k : Counter)
  | observeIp (a : Arc) (addr : IpAddr)
  /-- The connector is called; the call gives a socket with a guard of its own, or fails. -/
  | call
  | connected
  | callFails
  /-- An upstream socket is dropped. -/
  | closes
  | spawnsRelay
  | relay (p : Poll)
  /-- Its task aborts the relay, drops its guard and ends. The client it had may leave calls
  to the executor. -/
  | ends (calls : ℕ)

namespace Conn

def new : Conn := ⟨.accepted, none, 0, 0⟩

/-- The guards of a connection: one for its task and one for each upstream socket. -/
def guards (c : Conn) : ℕ := (if c.stage = .opened then 1 else 0) + c.streams

/-- Whether payload may be moved. -/
def carries (c : Conn) : Bool :=
  c.stage = .opened || c.relay.any Task.isPolled || 0 < c.streams

/-- Whether counters may be used. -/
def works (c : Conn) : Bool := c.carries || 0 < c.calls

def step (c : Conn) : Op → Option Conn
  | .polls => if c.stage = .spawned then some { c with stage := .opened } else none
  | .lookUp _ | .observeIp _ _ | .fetchAdd _ _ .connections => if c.works then some c else none
  | .fetchAdd _ _ .ingress | .fetchAdd _ _ .egress => if c.carries then some c else none
  | .call => if c.stage = .opened then some { c with calls := c.calls + 1 } else none
  | .connected =>
    if 0 < c.calls then some { c with calls := c.calls - 1, streams := c.streams + 1 } else none
  | .callFails => if 0 < c.calls then some { c with calls := c.calls - 1 } else none
  | .closes => if 0 < c.streams then some { c with streams := c.streams - 1 } else none
  | .spawnsRelay =>
    if c.stage = .opened ∧ c.relay = none then some { c with relay := some .suspended } else none
  | .relay p => (c.relay.bind (·.poll p)).map fun t => { c with relay := some t }
  | .ends calls =>
    if c.stage = .opened ∧ calls ≤ c.calls then
      some { c with stage := .ended, relay := c.relay.map Task.abort, calls := calls }
    else none

end Conn

/-! ### The task of `run` -/

/-- How long to wait for connections in flight, and how long between two looks, in milliseconds. -/
def drainTimeout : ℕ := 2000

def drainPoll : ℕ := 10

/-- What `run` does next: wait for the child, drop the proxy, drain, which is to look at the
count, to look at the clock or to sleep, take the snapshot, or print the report. -/
inductive Main
  | childRuns
  | dropsProxy
  | drains
  | looks (deadline : ℕ)
  | checksClock (deadline : ℕ)
  | sleeps (deadline wake : ℕ)
  | drained (deadline now : ℕ)
  | reports (snapshot : Registry)

structure World where
  registry : Registry
  openConnections : UInt64
  now : ℕ
  acceptLoop : Task
  /-- The connection accepted last, until its task is spawned. -/
  spawning : Option ℕ
  conns : List Conn
  main : Main

namespace World

def start : World where
  registry := Registry.new
  openConnections := 0
  now := 0
  acceptLoop := .suspended
  spawning := none
  conns := []
  main := .childRuns

/-- Marks a connection as in flight. A guard holds a pointer, so there is never room for more
of them than the count can hold. -/
def trackOpen (w : World) : Option World :=
  if Guards.held Conn.guards w.conns + 1 < 2 ^ 64 then
    some { w with openConnections := w.openConnections + 1 }
  else none

def dropGuard (w : World) : World := { w with openConnections := w.openConnections - 1 }

/-- What a step of a connection does to what it shares with the others. -/
def shared (w : World) : Op → Option World
  | .polls | .connected => w.trackOpen
  | .closes | .ends _ => some w.dropGuard
  | .lookUp host => some { w with registry := (w.registry.endpoint host).2 }
  | .fetchAdd a n k =>
    if a < w.registry.next then some { w with registry := w.registry.update a (·.fetchAdd n k) }
    else none
  | .observeIp a addr =>
    if a < w.registry.next then some { w with registry := w.registry.update a (·.observeIp addr) }
    else none
  | .call | .callFails | .spawnsRelay | .relay _ => some w

def dropProxy (w : World) : World := { w with acceptLoop := w.acceptLoop.abort, main := .drains }

end World

inductive Act
  | elapses (ms : ℕ)
  /-- The accept loop is polled, suspends, accepts a stream or fails to, or spawns its task. -/
  | acceptWakes
  | acceptSuspends
  | accepts
  | acceptFails
  | spawns
  | conn (i : ℕ) (op : Op)
  /-- `run` goes on. -/
  | main
  /-- `run` renames a host on its way from the drain to the snapshot. -/
  | renames (src dst : Text)

/-- `run` from one suspension or shared access to the next. -/
def stepMain (w : World) : Option World :=
  match w.main with
  | .childRuns => some { w with main := .dropsProxy }
  | .dropsProxy => some w.dropProxy
  | .drains => some { w with main := .looks (w.now + drainTimeout) }
  | .looks deadline =>
    if w.openConnections > 0 then some { w with main := .checksClock deadline }
    else some { w with main := .drained deadline w.now }
  | .checksClock deadline =>
    if w.now < deadline then some { w with main := .sleeps deadline (w.now + drainPoll) }
    else some { w with main := .drained deadline w.now }
  | .sleeps deadline wake => if wake ≤ w.now then some { w with main := .looks deadline } else none
  | .drained _ _ => some { w with main := .reports w.registry }
  | .reports _ => none

def step (w : World) : Act → Option World
  | .elapses ms => some { w with now := w.now + ms }
  | .acceptWakes => (w.acceptLoop.poll .wakes).map fun t => { w with acceptLoop := t }
  | .acceptSuspends =>
    if w.spawning = none then
      (w.acceptLoop.poll .suspends).map fun t => { w with acceptLoop := t }
    else none
  | .accepts =>
    if w.acceptLoop.isPolled ∧ w.spawning = none then
      some { w with conns := w.conns ++ [Conn.new], spawning := some w.conns.length }
    else none
  | .acceptFails => if w.acceptLoop.isPolled ∧ w.spawning = none then some w else none
  | .spawns =>
    w.spawning.bind fun i => (w.conns[i]?).map fun c =>
      { w with conns := w.conns.set i { c with stage := .spawned }, spawning := none }
  | .conn i op =>
    (w.conns[i]?).bind fun c => (c.step op).bind fun c' => (w.shared op).map fun w =>
      { w with conns := w.conns.set i c' }
  | .main => stepMain w
  | .renames src dst =>
    match w.main with
    | .drained _ _ => some { w with registry := w.registry.rename src dst }
    | _ => none

/-! ### What is at work when the drain returns -/

/-- Nothing works for the connection any more, nor will. -/
def Conn.Over (c : Conn) : Prop :=
  c.stage = .ended ∧ (∀ t ∈ c.relay, t = .over) ∧ c.calls = 0 ∧ c.streams = 0

inductive CountsBytes : Act → Prop
  | ingress (i : ℕ) (a : Arc) (n : UInt64) : CountsBytes (.conn i (.fetchAdd a n .ingress))
  | egress (i : ℕ) (a : Arc) (n : UInt64) : CountsBytes (.conn i (.fetchAdd a n .egress))

/-- Every connection accepted so far has been handled to its end, and however things go on, no
byte is counted once the snapshot is taken. -/
def Handled (w : World) : Prop :=
  (∀ c ∈ w.conns, c.Over) ∧
    ∀ acts w', run step w acts = some w' → ∀ t ∈ trace step w acts,
      (∃ snapshot, t.1.main = .reports snapshot) → ¬ CountsBytes t.2

/-- The accept loop is over, every connection it accepted has been polled, and one whose task
has ended has left nothing at work. -/
def Quiet (w : World) : Prop :=
  w.acceptLoop = .over ∧
    ∀ c ∈ w.conns, c.stage ≠ .accepted ∧ c.stage ≠ .spawned ∧
      (c.stage = .ended → (∀ t ∈ c.relay, t = .over) ∧ c.calls = 0)

/-! ### What a step of a connection can do -/

lemma shared_frame {w v : World} {op : Op} (h : w.shared op = some v) :
    v.conns = w.conns ∧ v.acceptLoop = w.acceptLoop ∧ v.spawning = w.spawning ∧
      v.main = w.main := by
  cases op with
  | polls | connected =>
    simp only [World.shared, World.trackOpen] at h
    split_ifs at h
    cases h
    exact ⟨rfl, rfl, rfl, rfl⟩
  | fetchAdd | observeIp =>
    simp only [World.shared] at h
    split_ifs at h
    cases h
    exact ⟨rfl, rfl, rfl, rfl⟩
  | _ =>
    cases h
    exact ⟨rfl, rfl, rfl, rfl⟩

/-- The steps of the accept loop, of the connections and of `run`. -/
inductive Moves (w : World) : Act → World → Prop
  | elapses (ms : ℕ) : Moves w (.elapses ms) { w with now := w.now + ms }
  | acceptWakes {t} (ht : w.acceptLoop.poll .wakes = some t) :
      Moves w .acceptWakes { w with acceptLoop := t }
  | acceptSuspends {t} (ht : w.acceptLoop.poll .suspends = some t) :
      Moves w .acceptSuspends { w with acceptLoop := t }
  | accepts (hpolled : w.acceptLoop.isPolled = true) :
      Moves w .accepts { w with conns := w.conns ++ [Conn.new], spawning := some w.conns.length }
  | acceptFails (hpolled : w.acceptLoop.isPolled = true) : Moves w .acceptFails w
  | spawns {i c} (hi : w.spawning = some i) (hc : w.conns[i]? = some c) :
      Moves w .spawns
        { w with conns := w.conns.set i { c with stage := .spawned }, spawning := none }
  | conn {i op c c' v} (hc : w.conns[i]? = some c) (hop : c.step op = some c')
      (hv : w.shared op = some v) : Moves w (.conn i op) { v with conns := w.conns.set i c' }
  | childExits (hm : w.main = .childRuns) : Moves w .main { w with main := .dropsProxy }
  | dropsProxy (hm : w.main = .dropsProxy) : Moves w .main w.dropProxy
  | drains (hm : w.main = .drains) :
      Moves w .main { w with main := .looks (w.now + drainTimeout) }
  | inFlight {deadline} (hm : w.main = .looks deadline) :
      Moves w .main { w with main := .checksClock deadline }
  | noneInFlight {deadline} (hm : w.main = .looks deadline) (hzero : w.openConnections = 0) :
      Moves w .main { w with main := .drained deadline w.now }
  | early {deadline} (hm : w.main = .checksClock deadline) :
      Moves w .main { w with main := .sleeps deadline (w.now + drainPoll) }
  | late {deadline} (hm : w.main = .checksClock deadline) (hlate : ¬ w.now < deadline) :
      Moves w .main { w with main := .drained deadline w.now }
  | slept {deadline wake} (hm : w.main = .sleeps deadline wake) :
      Moves w .main { w with main := .looks deadline }
  | snapshots {deadline now} (hm : w.main = .drained deadline now) :
      Moves w .main { w with main := .reports w.registry }
  | renames {deadline now} (src dst : Text) (hm : w.main = .drained deadline now) :
      Moves w (.renames src dst) { w with registry := w.registry.rename src dst }

lemma moves_main {w w' : World} (h : stepMain w = some w') : Moves w .main w' := by
  unfold stepMain at h
  cases hm : w.main with
  | childRuns => rw [hm] at h; cases h; exact .childExits hm
  | dropsProxy => rw [hm] at h; cases h; exact .dropsProxy hm
  | drains => rw [hm] at h; cases h; exact .drains hm
  | looks deadline =>
    rw [hm] at h
    simp only at h
    split_ifs at h with hzero
    · cases h
      exact .inFlight hm
    · cases h
      exact .noneInFlight hm (UInt64.le_zero_iff.mp (UInt64.not_lt.mp hzero))
  | checksClock deadline =>
    rw [hm] at h
    simp only at h
    split_ifs at h with hclock
    · cases h
      exact .early hm
    · cases h
      exact .late hm hclock
  | sleeps deadline wake =>
    rw [hm] at h
    simp only at h
    split_ifs at h
    cases h
    exact .slept hm
  | drained deadline now => rw [hm] at h; cases h; exact .snapshots hm
  | reports snapshot => rw [hm] at h; cases h

/-- **Every step is one of these.** -/
theorem step_moves {w w' : World} {act : Act} (h : step w act = some w') : Moves w act w' := by
  cases act with
  | elapses ms =>
    cases h
    exact .elapses ms
  | acceptWakes =>
    obtain ⟨t, ht, rfl⟩ := Option.map_eq_some_iff.mp h
    exact .acceptWakes ht
  | acceptSuspends =>
    simp only [step] at h
    split_ifs at h
    obtain ⟨t, ht, rfl⟩ := Option.map_eq_some_iff.mp h
    exact .acceptSuspends ht
  | accepts =>
    simp only [step] at h
    split_ifs at h with hs
    cases h
    exact .accepts hs.1
  | acceptFails =>
    simp only [step] at h
    split_ifs at h with hs
    cases h
    exact .acceptFails hs.1
  | spawns =>
    obtain ⟨i, hi, h⟩ := Option.bind_eq_some_iff.mp h
    obtain ⟨c, hc, rfl⟩ := Option.map_eq_some_iff.mp h
    exact .spawns hi hc
  | conn i op =>
    obtain ⟨c, hc, h⟩ := Option.bind_eq_some_iff.mp h
    obtain ⟨c', hop, h⟩ := Option.bind_eq_some_iff.mp h
    obtain ⟨v, hv, rfl⟩ := Option.map_eq_some_iff.mp h
    rw [(shared_frame hv).1]
    exact .conn hc hop hv
  | main => exact moves_main h
  | renames src dst =>
    simp only [step] at h
    cases hm : w.main with
    | drained deadline now =>
      rw [hm] at h
      cases h
      rw [← hm]
      exact .renames src dst hm
    | _ => rw [hm] at h; cases h

lemma guards_step {w v : World} {i : ℕ} {op : Op} {c c' : Conn}
    (hw : Guards.Counts Conn.guards w.openConnections w.conns) (hc : w.conns[i]? = some c)
    (hstep : c.step op = some c') (hv : w.shared op = some v) :
    Guards.Counts Conn.guards v.openConnections (w.conns.set i c') := by
  cases op with
  | polls =>
    simp only [World.shared, World.trackOpen] at hv
    simp only [Conn.step] at hstep
    split_ifs at hv hstep with hroom hstage
    cases hv
    cases hstep
    exact hw.take hc (by simp [Conn.guards, hstage]; omega) hroom
  | connected =>
    simp only [World.shared, World.trackOpen] at hv
    simp only [Conn.step] at hstep
    split_ifs at hv hstep with hroom hcalls
    cases hv
    cases hstep
    exact hw.take hc (by simp [Conn.guards]; omega) hroom
  | closes =>
    cases hv
    simp only [Conn.step] at hstep
    split_ifs at hstep with hstreams
    cases hstep
    exact hw.drop hc (by simp [Conn.guards]; omega)
  | ends calls =>
    cases hv
    simp only [Conn.step] at hstep
    split_ifs at hstep with hstage
    cases hstep
    exact hw.drop hc (by simp [Conn.guards, hstage.1]; omega)
  | lookUp | call | callFails | spawnsRelay =>
    cases hv
    simp only [Conn.step] at hstep
    split_ifs at hstep
    cases hstep
    exact hw.keep hc rfl
  | relay p =>
    cases hv
    obtain ⟨t, -, rfl⟩ := Option.map_eq_some_iff.mp hstep
    exact hw.keep hc rfl
  | observeIp a addr =>
    simp only [World.shared] at hv
    simp only [Conn.step] at hstep
    split_ifs at hv hstep
    cases hv
    cases hstep
    exact hw.keep hc rfl
  | fetchAdd a n k =>
    simp only [World.shared] at hv
    cases k <;>
    · simp only [Conn.step] at hstep
      split_ifs at hv hstep
      cases hv
      cases hstep
      exact hw.keep hc rfl

lemma stage_step {c c' : Conn} {op : Op} (h : c.step op = some c') (hc : c.stage = .accepted) :
    c'.stage = .accepted := by
  cases op with
  | relay p =>
    obtain ⟨t, -, rfl⟩ := Option.map_eq_some_iff.mp h
    exact hc
  | fetchAdd a n k =>
    cases k <;>
    · simp only [Conn.step] at h
      split_ifs at h
      cases h
      exact hc
  | polls | ends => simp [Conn.step, hc] at h
  | _ =>
    simp only [Conn.step] at h
    split_ifs at h
    cases h
    exact hc

lemma Conn.Over.step {c : Conn} (h : c.Over) (op : Op) : c.step op = none := by
  obtain ⟨hstage, hrelay, hcalls, hstreams⟩ := h
  have hcarries : c.carries = false := by
    cases hr : c.relay with
    | none => simp [Conn.carries, hstage, hr, hstreams]
    | some t =>
      obtain rfl := hrelay t hr
      simp [Conn.carries, hstage, hr, hstreams, Task.isPolled]
  have hworks : c.works = false := by
    simp [Conn.works, hcarries, hcalls]
  cases op with
  | relay p =>
    cases hr : c.relay with
    | none => simp [Conn.step, hr]
    | some t =>
      obtain rfl := hrelay t hr
      simp [Conn.step, hr, Task.poll]
  | fetchAdd a n k => cases k <;> simp [Conn.step, hcarries, hworks]
  | _ => simp [Conn.step, hstage, hcalls, hstreams, hworks]

/-! ### What holds in every state -/

def Main.dropped : Main → Bool
  | .childRuns | .dropsProxy => false
  | _ => true

structure Inv (w : World) : Prop where
  guards : Guards.Counts Conn.guards w.openConnections w.conns
  spawning : ∀ i, w.spawning = some i → ∃ c, w.conns[i]? = some c ∧ c.stage = .accepted
  aborted : w.main.dropped = true → w.acceptLoop = .polled true ∨ w.acceptLoop = .over

lemma inv_start : Inv World.start where
  guards := rfl
  spawning _ h := by cases h
  aborted h := by cases h

lemma Inv.conn {w v : World} {i : ℕ} {op : Op} {c c' : Conn} (hw : Inv w)
    (hc : w.conns[i]? = some c) (hop : c.step op = some c') (hv : w.shared op = some v) :
    Inv { v with conns := w.conns.set i c' } := by
  obtain ⟨-, hloop, hspawning, hmain⟩ := shared_frame hv
  have hguards := guards_step hw.guards hc hop hv
  refine ⟨hguards, fun j hj => ?_, fun hd => ?_⟩
  · obtain ⟨d, hd, hstage⟩ := hw.spawning j (hspawning ▸ hj)
    by_cases hij : i = j
    · subst hij
      rw [hc] at hd
      cases hd
      have hlt := (List.getElem?_eq_some_iff.mp hc).1
      exact ⟨c', List.getElem?_set_self hlt, stage_step hop hstage⟩
    · exact ⟨d, (List.getElem?_set_ne hij).trans hd, hstage⟩
  · rw [hloop]
    exact hw.aborted (hmain ▸ hd)

lemma Inv.main {w : World} (hw : Inv w) (hdropped : w.main.dropped = true) (m : Main) :
    Inv { w with main := m } :=
  ⟨hw.guards, hw.spawning, fun _ => hw.aborted hdropped⟩

lemma inv_step {w w' : World} {act : Act} (hw : Inv w) (h : step w act = some w') : Inv w' := by
  cases step_moves h with
  | elapses ms => exact ⟨hw.guards, hw.spawning, hw.aborted⟩
  | acceptWakes ht =>
    refine ⟨hw.guards, hw.spawning, fun hd => ?_⟩
    rcases hw.aborted hd with hl | hl <;> rw [hl] at ht <;> cases ht
  | acceptSuspends ht =>
    refine ⟨hw.guards, hw.spawning, fun hd => ?_⟩
    rcases hw.aborted hd with hl | hl <;> rw [hl] at ht <;> cases ht
    exact .inr rfl
  | accepts =>
    refine ⟨hw.guards.append rfl, fun i hi => ?_, hw.aborted⟩
    cases hi
    exact ⟨Conn.new, by simp, rfl⟩
  | acceptFails => exact hw
  | spawns hi hc =>
    obtain ⟨d, hd, hstage⟩ := hw.spawning _ hi
    rw [hc] at hd
    cases hd
    refine ⟨hw.guards.keep hc ?_, fun _ hj => ?_, hw.aborted⟩
    · simp [Conn.guards, hstage]
    · cases hj
  | conn hc hop hv => exact hw.conn hc hop hv
  | childExits => exact ⟨hw.guards, hw.spawning, nofun⟩
  | dropsProxy =>
    refine ⟨hw.guards, hw.spawning, fun _ => ?_⟩
    simp only [World.dropProxy]
    cases w.acceptLoop <;> simp [Task.abort]
  | drains hm => exact hw.main (by rw [hm]; rfl) _
  | inFlight hm => exact hw.main (by rw [hm]; rfl) _
  | noneInFlight hm => exact hw.main (by rw [hm]; rfl) _
  | early hm => exact hw.main (by rw [hm]; rfl) _
  | late hm => exact hw.main (by rw [hm]; rfl) _
  | slept hm => exact hw.main (by rw [hm]; rfl) _
  | snapshots hm => exact hw.main (by rw [hm]; rfl) _
  | renames => exact ⟨hw.guards, hw.spawning, hw.aborted⟩

lemma inv_run {acts : List Act} {w : World} (h : run step World.start acts = some w) : Inv w :=
  run_inv (fun _ _ _ => inv_step) inv_start h

/-- Where no connection is merely accepted, none waits to be spawned. -/
lemma Inv.spawning_eq_none {w : World} (hw : Inv w) (h : ∀ c ∈ w.conns, c.stage ≠ .accepted) :
    w.spawning = none := by
  rw [Option.eq_none_iff_forall_ne_some]
  intro i hi
  obtain ⟨c, hc, hstage⟩ := hw.spawning i hi
  exact h c (List.mem_of_getElem? hc) hstage

/-! ### When the drain returns early -/

def Main.draining : Main → Bool
  | .looks _ | .checksClock _ | .sleeps _ _ => true
  | _ => false

lemma dropped_of_draining {m : Main} (h : m.draining = true) : m.dropped = true := by
  cases m with
  | childRuns | dropsProxy => cases h
  | _ => rfl

lemma looks_zero {w : World} {deadline : ℕ} (hm : w.main = .looks deadline)
    (hzero : w.openConnections = 0) :
    step w .main = some { w with main := .drained deadline w.now } := by
  simp only [step, stepMain, hm, hzero]
  rfl

lemma returns_early {w w' : World} {act : Act} {deadline now : ℕ} (hdrain : w.main.draining = true)
    (h : step w act = some w') (hret : w'.main = .drained deadline now) (hearly : now < deadline) :
    w.openConnections = 0 ∧ w' = { w with main := .drained deadline now } := by
  have hsame : w.main ≠ .drained deadline now := by
    intro hm
    rw [hm] at hdrain
    cases hdrain
  cases step_moves h with
  | conn hc hop hv => exact absurd ((shared_frame hv).2.2.2.symm.trans hret) hsame
  | noneInFlight hm hzero =>
    cases hret
    exact ⟨hzero, rfl⟩
  | late hm hlate =>
    cases hret
    exact absurd hearly hlate
  | childExits | dropsProxy | drains | inFlight | early | slept | snapshots => cases hret
  | _ => exact absurd hret hsame

/-! ### What is counted after it -/

/-- Everything is over but `run`, which is past the drain; what it has reported, it has reported
in full. -/
structure Still (w : World) : Prop where
  acceptLoop : w.acceptLoop = .over
  spawning : w.spawning = none
  conns : ∀ c ∈ w.conns, c.Over
  main : (∃ deadline now, w.main = .drained deadline now) ∨ w.main = .reports w.registry

lemma still_step {w w' : World} {act : Act} (hw : Still w) (h : step w act = some w') :
    Still w' ∧ ¬ CountsBytes act := by
  obtain ⟨hloop, hspawning, hconns, hmain⟩ := hw
  have hpast : ∀ m, w.main = m → m = .reports w.registry ∨ ∃ d n, m = .drained d n := by
    rintro m rfl
    exact hmain.symm
  cases step_moves h with
  | elapses ms => exact ⟨⟨hloop, hspawning, hconns, hmain⟩, nofun⟩
  | acceptWakes ht => rw [hloop] at ht; cases ht
  | acceptSuspends ht => rw [hloop] at ht; cases ht
  | accepts hpolled => rw [hloop] at hpolled; cases hpolled
  | acceptFails hpolled => rw [hloop] at hpolled; cases hpolled
  | spawns hi => rw [hspawning] at hi; cases hi
  | conn hc hop =>
    rw [(hconns _ (List.mem_of_getElem? hc)).step] at hop
    cases hop
  | snapshots hm => exact ⟨⟨hloop, hspawning, hconns, .inr rfl⟩, nofun⟩
  | renames src dst hm => exact ⟨⟨hloop, hspawning, hconns, .inl ⟨_, _, hm⟩⟩, nofun⟩
  | childExits hm | dropsProxy hm | drains hm | inFlight hm | noneInFlight hm | early hm | late hm
  | slept hm => rcases hpast _ hm with hm | ⟨d, n, hm⟩ <;> cases hm

lemma still_run {w w' : World} {acts : List Act} (hw : Still w) (h : run step w acts = some w') :
    Still w' ∧ ∀ t ∈ trace step w acts, ¬ CountsBytes t.2 :=
  run_steps (Q := fun t => ¬ CountsBytes t.2) (fun _ _ _ => still_step) hw h

lemma step_last {w v : World} {cs : List Conn} {c c' : Conn} {op : Op} (hw : w.conns = cs ++ [c])
    (hc : c.step op = some c') (hv : w.shared op = some v) :
    step w (.conn cs.length op) = some { v with conns := cs ++ [c'] } := by
  simp [step, hw, hc, hv, (shared_frame hv).1]

/-- In the middle of a poll the accept loop can accept one more connection and have it polled,
and `run` can have taken the snapshot before. -/
lemma exists_opened {w : World} {deadline now : ℕ} (hloop : w.acceptLoop.isPolled = true)
    (hspawning : w.spawning = none) (hroom : Guards.held Conn.guards w.conns + 1 < 2 ^ 64)
    (hmain : w.main = .drained deadline now) :
    ∃ acts v, run step w acts = some v ∧ v.main = .reports w.registry ∧
      v.conns = w.conns ++ [⟨.opened, none, 0, 0⟩] := by
  let w₁ : World := { w with main := .reports w.registry }
  let w₂ : World :=
    { w₁ with conns := w.conns ++ [Conn.new], spawning := some w.conns.length }
  let w₃ : World := { w₂ with conns := w.conns ++ [⟨.spawned, none, 0, 0⟩], spawning := none }
  have h₁ : step w .main = some w₁ := by
    simp only [step, stepMain, hmain]
    rfl
  have h₂ : step w₁ .accepts = some w₂ := if_pos ⟨hloop, hspawning⟩
  have h₃ : step w₂ .spawns = some w₃ := by
    simp [step, w₂, w₃, Conn.new]
  let w₄ : World :=
    { w₃ with
      openConnections := w.openConnections + 1
      conns := w.conns ++ [⟨.opened, none, 0, 0⟩] }
  have hopen : w₃.shared .polls = some { w₃ with openConnections := w.openConnections + 1 } := by
    have hheld : Guards.held Conn.guards w₃.conns + 1 < 2 ^ 64 := by
      simpa [w₃, Conn.guards] using hroom
    rw [World.shared, World.trackOpen, if_pos hheld]
  have h₄ : step w₃ (.conn w.conns.length .polls) = some w₄ := step_last rfl rfl hopen
  refine ⟨[.main, .accepts, .spawns, .conn w.conns.length .polls], w₄, ?_, rfl, rfl⟩
  rw [run_cons, h₁, Option.bind_some, run_cons, h₂, Option.bind_some, run_cons, h₃,
    Option.bind_some, run_cons, h₄]
  rfl

/-- An open connection can count, whether or not the snapshot has been taken. -/
lemma not_handled_of_opened {w v : World} {acts : List Act} {snapshot : Registry} {cs : List Conn}
    (h : run step w acts = some v) (hmain : v.main = .reports snapshot)
    (hconns : v.conns = cs ++ [⟨.opened, none, 0, 0⟩]) : ¬ Handled w := by
  rintro ⟨-, hnone⟩
  let c : Conn := ⟨.opened, none, 0, 0⟩
  let a := (v.registry.endpoint []).1
  let u : World := { v with registry := (v.registry.endpoint []).2, conns := cs ++ [c] }
  have hwork : ∀ k, c.step (.fetchAdd a 1 k) = some c := fun k => by cases k <;> rfl
  have hlook : step v (.conn cs.length (.lookUp [])) = some u :=
    step_last (v := { v with registry := u.registry }) hconns (show c.step _ = some c from rfl) rfl
  have halloc : a < u.registry.next :=
    u.registry.allocated [] a (by rw [Registry.lookup_endpoint, if_pos rfl])
  have hadd : u.shared (.fetchAdd a 1 .ingress) =
      some { u with registry := u.registry.update a (·.fetchAdd 1 .ingress) } := if_pos halloc
  have hcount := step_last rfl (hwork .ingress) hadd
  have hrun : run step w (acts ++ [.conn cs.length (.lookUp [])]) = some u :=
    (run_snoc step).mpr ⟨v, h, hlook⟩
  have hmem : (u, Act.conn cs.length (.fetchAdd a 1 .ingress)) ∈ trace step w
      ((acts ++ [.conn cs.length (.lookUp [])]) ++ [.conn cs.length (.fetchAdd a 1 .ingress)]) :=
    (mem_trace_snoc hrun).mpr (.inr rfl)
  exact hnone _ _ ((run_snoc step).mpr ⟨u, hrun, hcount⟩) _ hmem ⟨snapshot, hmain⟩ (.ingress _ _ _)

/-- A quiet world in which no guard is held is still once `run` is past the drain. -/
lemma still_of_quiet {w : World} (hw : Inv w) (hzero : w.openConnections = 0) (h : Quiet w)
    (deadline now : ℕ) : Still { w with main := .drained deadline now } := by
  obtain ⟨hloop, hconns⟩ := h
  have hspawning := hw.spawning_eq_none fun c hc => (hconns c hc).1
  refine ⟨hloop, hspawning, fun c hc => ?_, .inl ⟨deadline, now, rfl⟩⟩
  have hguards := hw.guards.eq_zero_iff.mp hzero c hc
  obtain ⟨haccepted, hspawned, hended⟩ := hconns c hc
  have hstage : c.stage = .ended := by
    cases hs : c.stage with
    | accepted => exact absurd hs haccepted
    | spawned => exact absurd hs hspawned
    | opened => simp [Conn.guards, hs] at hguards
    | ended => rfl
  have hstreams : c.streams = 0 := by
    unfold Conn.guards at hguards
    omega
  exact ⟨hstage, (hended hstage).1, (hended hstage).2, hstreams⟩

/-- A drain that has handled everything has read zero in a quiet world: an accept loop that is
not over could still accept. -/
lemma quiet_of_handled {w : World} (hw : Inv w) (hzero : w.openConnections = 0)
    (hdropped : w.main.dropped = true) {deadline now : ℕ}
    (h : Handled { w with main := .drained deadline now }) : Quiet w := by
  have hover : ∀ c ∈ w.conns, c.Over := h.1
  refine ⟨?_, fun c hc => ?_⟩
  · by_contra hloop
    have haborted := (hw.aborted hdropped).resolve_right hloop
    have hspawning := hw.spawning_eq_none fun c hc hstage => by
      rw [(hover c hc).1] at hstage
      cases hstage
    have hroom : Guards.held Conn.guards w.conns + 1 < 2 ^ 64 := by
      rw [Guards.held_eq_zero.mpr (hw.guards.eq_zero_iff.mp hzero)]
      omega
    have hpolled : w.acceptLoop.isPolled = true := by
      rw [haborted]
      rfl
    obtain ⟨late, v, hrun, hmain, hconns⟩ :=
      exists_opened (w := { w with main := .drained deadline now }) hpolled hspawning hroom rfl
    exact not_handled_of_opened hrun hmain hconns h
  · obtain ⟨hstage, hrelay, hcalls, -⟩ := hover c hc
    exact ⟨by simp [hstage], by simp [hstage], fun _ => ⟨hrelay, hcalls⟩⟩

section Returns

variable {acts : List Act} {act : Act} {w w' : World} {deadline now : ℕ}

/-- **When a drain is complete.** In every run, if the drain returns before its deadline, then
every connection accepted has been handled to its end and nothing is counted after the snapshot
exactly if, when it read zero, the accept loop was over, every connection accepted had been
polled, and those whose task had ended had left nothing at work. -/
theorem handled_iff_quiet (h : run step World.start acts = some w) (hstep : step w act = some w')
    (hdrain : w.main.draining = true) (hret : w'.main = .drained deadline now)
    (hearly : now < deadline) : Handled w' ↔ Quiet w := by
  have hinv := inv_run h
  obtain ⟨hzero, rfl⟩ := returns_early hdrain hstep hret hearly
  refine ⟨quiet_of_handled hinv hzero (dropped_of_draining hdrain), fun hquiet => ?_⟩
  have hstill := still_of_quiet hinv hzero hquiet deadline now
  exact ⟨hstill.conns, fun as v hrun t ht _ => (still_run hstill hrun).2 t ht⟩

/-- **The report of a complete drain is complete**: the registry stays what it was when the
snapshot was taken. -/
theorem snapshot_complete (h : run step World.start acts = some w) (hstep : step w act = some w')
    (hdrain : w.main.draining = true) (hret : w'.main = .drained deadline now)
    (hearly : now < deadline) (hquiet : Quiet w) {later : List Act} {v : World}
    {snapshot : Registry} (hrun : run step w' later = some v) (hv : v.main = .reports snapshot) :
    v.registry = snapshot := by
  obtain ⟨hzero, rfl⟩ := returns_early hdrain hstep hret hearly
  have hstill := (still_run (still_of_quiet (inv_run h) hzero hquiet deadline now) hrun).1
  rcases hstill.main with ⟨d, n, hm⟩ | hm
  · rw [hv] at hm
    cases hm
  · rw [hv] at hm
    cases hm
    rfl

end Returns

/-! ### A task that is polled too late -/

/-- A connection is accepted, its task spawned, and the accept loop suspends. -/
def acceptOne : List Act := [.acceptWakes, .accepts, .spawns, .acceptSuspends]

/-- The child exits, the proxy is dropped, and the drain begins. -/
def exits : List Act := [.main, .main, .main]

/-- The connection is polled and ends before the child exits. -/
def endedOne : List Act := acceptOne ++ [.conn 0 .polls, .conn 0 (.ends 0)] ++ exits

theorem handled_iff_quiet_endedOne : ∃ w w', run step World.start endedOne = some w ∧
    step w .main = some w' ∧ (Handled w' ↔ Quiet w) :=
  ⟨_, _, rfl, looks_zero rfl rfl,
    handled_iff_quiet (show run step World.start endedOne = some _ from rfl) (looks_zero rfl rfl) rfl
      rfl (by decide)⟩

/-- After the snapshot the task is polled for the first time, and counts. -/
def countsLate : List Act :=
  [.main, .conn 0 .polls, .conn 0 (.lookUp "a".toList), .conn 0 (.fetchAdd 0 5 .ingress)]

/-- The drain reads zero before the task is polled for the first time, and five bytes it counts
are missing from the report. -/
theorem unpolled_not_handled : ∃ w w', run step World.start (acceptOne ++ exits) = some w ∧
    w.main.draining = true ∧ step w .main = some w' ∧ w'.main = .drained 2000 0 ∧
    ¬ Handled w' ∧
    ∃ v snapshot, run step w' countsLate = some v ∧ v.main = .reports snapshot ∧
      Registry.total snapshot .ingress = 0 ∧ Registry.total v.registry .ingress = 5 := by
  refine ⟨_, _, rfl, rfl, rfl, rfl, fun h => ?_, _, _, rfl, rfl, ?_, ?_⟩
  · exact absurd (h.1 _ List.mem_cons_self).1 (by decide)
  · decide +kernel
  · decide +kernel

end Wiretally.Drain
