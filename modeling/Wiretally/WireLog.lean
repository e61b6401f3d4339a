import Wiretally.Attempts

/-!
The wire log of a connection.

A connection logs a line when it has been opened, one for every read and write that moved bytes,
and one with its totals when it is closed. Two things write the last: the code behind the copy of
a tunnel, and a value that a pooled stream drops when it is shut down or dropped itself. The
totals are those of the counters of the host, which all connections to it share.

Connections take their steps between each other's. A byte is counted first and logged after, and
the two totals are read one after the other.
-/

namespace Wiretally.WireLog

open Wiretally.Lib Wiretally.Lib.AsyncIo Wiretally.Lib.Run Wiretally.Net Wiretally.Stats
open Wiretally.Stats.EndpointStats Wiretally.Registry Wiretally.Io Wiretally.Proxy
open Wiretally.Attempts

/-! ### Lines -/

/-- A direction, seen from the child process. -/
inductive Way | tx | rx
  deriving DecidableEq

def Way.counter : Way → Counter
  | .tx => .egress
  | .rx => .ingress

/-- What a connection logs. -/
inductive Event
  | opened (ip : IpAddr)
  | moved (way : Way) (n : UInt64)
  | closed (rx tx : UInt64)
  deriving DecidableEq

def Event.write (log : ConnLog) : Event → ConnLog
  | .opened ip =>
    log.event ("OPEN  -> ".toList ++ log.target ++ " (".toList ++ ip.toText ++ ")".toList)
  | .moved .tx n => log.tx n.toNat
  | .moved .rx n => log.rx n.toNat
  | .closed rx tx =>
    log.event ("CLOSE -> Total Rx: ".toList ++ Nat.toDigits 10 rx.toNat ++
      " bytes | Total Tx: ".toList ++ Nat.toDigits 10 tx.toNat ++ " bytes".toList)

def Event.opens : Event → Bool
  | .opened _ => true
  | _ => false

def bytes (way : Way) (events : List Event) : ℕ :=
  (events.map fun
    | .moved way' n => if way' = way then n.toNat else 0
    | _ => 0).sum

/-! ### Connections -/

/-- What a connection does next. Behind its totals it is `gone`, or its stream goes on. -/
inductive Stage
  | connecting
  /-- The client of a tunnel is told that it is open. -/
  | answering
  | live
  /-- Bytes have been counted and not been logged. -/
  | counted (way : Way) (n : UInt64)
  | closing (gone : Bool)
  | readRx (gone : Bool) (rx : UInt64)
  | readTx (gone : Bool) (rx tx : UInt64)
  | ended
  deriving DecidableEq

/-- An upstream connection in verbose mode: of a tunnel, or of a call of the connector, whose
stream has its `close_log` for as long as it has not been dropped. -/
structure Conn where
  id : UInt64
  asker : Asker
  host : Text
  port : UInt16
  stats : Arc
  stage : Stage
  closeLog : Bool
  events : List Event

inductive Op
  | connects (result : Except IoError Upstream)
  /-- The HTTP client drops a call that is not connected. -/
  | givesUp
  /-- The client of a tunnel has been told that it is open, or could not be. -/
  | answers (result : Except IoError Unit)
  /-- A poll of the counted stream has moved bytes. -/
  | counts (way : Way) (n : UInt64)
  | logs
  /-- The stream of a call is shut down. -/
  | shuts
  /-- The copy of a tunnel ends, with an error or without, or the stream of a call is dropped. -/
  | ends
  | readsRx
  | readsTx
  | logsClose

namespace Conn

def target (c : Conn) : Text := c.host ++ ':' :: Nat.toDigits 10 c.port.toNat

def log (c : Conn) : ConnLog := c.events.foldl Event.write (ConnLog.new c.id c.target)

def isOpened (c : Conn) : Bool := c.events.any Event.opens

def opened (c : Conn) (peer : Except IoError IpAddr) : Conn :=
  { c with
    stage := match c.asker with
      | .tunnel => .answering
      | .call => .live
    closeLog := c.asker = .call
    events := match peer with
      | .ok ip => c.events ++ [.opened ip]
      | .error _ => c.events }

/-- One step of a connection, on the registry it shares. -/
def step (r : Registry) (c : Conn) : Op → Option (Conn × Registry)
  | .connects result =>
    match c.stage, result with
    | .connecting, .error _ => some ({ c with stage := .ended }, r)
    | .connecting, .ok upstream =>
      match setUp r c.stats upstream with
      | (.error _, r) => some ({ c with stage := .ended }, r)
      | (.ok (), r) => some (c.opened upstream.peer, r)
    | _, _ => none
  | .givesUp =>
    match c.stage, c.asker with
    | .connecting, .call => some ({ c with stage := .ended }, r)
    | _, _ => none
  | .answers result =>
    match c.stage, result with
    | .answering, .ok () => some ({ c with stage := .live }, r)
    | .answering, .error _ => some ({ c with stage := .ended }, r)
    | _, _ => none
  | .counts way n =>
    match c.stage with
    | .live =>
      if n = 0 then none
      else some ({ c with stage := .counted way n }, r.update c.stats (·.fetchAdd n way.counter))
    | _ => none
  | .logs =>
    match c.stage with
    | .counted way n => some ({ c with stage := .live, events := c.events ++ [.moved way n] }, r)
    | _ => none
  | .shuts =>
    match c.stage, c.asker with
    | .live, .call =>
      if c.closeLog then some ({ c with stage := .closing false, closeLog := false }, r)
      else some (c, r)
    | _, _ => none
  | .ends =>
    match c.stage, c.asker with
    | .live, .tunnel => some ({ c with stage := .closing true }, r)
    | .live, .call =>
      if c.closeLog then some ({ c with stage := .closing true, closeLog := false }, r)
      else some ({ c with stage := .ended }, r)
    | _, _ => none
  | .readsRx =>
    match c.stage with
    | .closing gone => some ({ c with stage := .readRx gone ((r.heap c.stats).count .ingress) }, r)
    | _ => none
  | .readsTx =>
    match c.stage with
    | .readRx gone rx =>
      some ({ c with stage := .readTx gone rx ((r.heap c.stats).count .egress) }, r)
    | _ => none
  | .logsClose =>
    match c.stage with
    | .readTx gone rx tx =>
      some ({ c with
        stage := if gone then .ended else .live
        events := c.events ++ [.closed rx tx] }, r)
    | _ => none

end Conn

/-! ### The proxy -/

/-- The connections in the order they began, and what they share with other tasks. -/
structure World where
  registry : Registry
  nextConnId : UInt64
  conns : List Conn

def World.start : World := ⟨Registry.new, 0, []⟩

inductive Act
  /-- A tunnel is asked for. -/
  | connect (host : Text) (port : UInt16)
  /-- The HTTP client calls the connector. -/
  | call (uri : Uri)
  | conn (i : ℕ) (op : Op)
  /-- An association takes a connection id, looks a host up, or counts. -/
  | takesId
  | endpoint (host : Text)
  | fetchAdd (a : Arc) (n : UInt64) (c : Counter)

/-- The host is looked up and the connect begins. -/
def World.begin (w : World) (asker : Asker) (host : Text) (port : UInt16) : World :=
  let (stats, registry) := w.registry.endpoint host
  let id := w.nextConnId + 1
  { registry := registry
    nextConnId := id
    conns := w.conns ++ [⟨id, asker, host, port, stats, .connecting, false, []⟩] }

def step (w : World) : Act → Option World
  | .connect host port => some (w.begin .tunnel host port)
  | .call uri =>
    match callTarget uri with
    | .error _ => some w
    | .ok (host, port) => some (w.begin .call host port)
  | .conn i op =>
    (w.conns[i]?).bind fun c =>
      (c.step w.registry op).map fun r =>
        { w with registry := r.2, conns := w.conns.set i r.1 }
  | .takesId => some { w with nextConnId := w.nextConnId + 1 }
  | .endpoint host => some { w with registry := (w.registry.endpoint host).2 }
  | .fetchAdd a n c =>
    if a < w.registry.next then some { w with registry := w.registry.update a (·.fetchAdd n c) }
    else none

/-! ### What the log should be -/

def Carried (e : Event) : Prop := ∃ way n, e = .moved way n

/-- An OPEN line, and a line for every read and write. -/
def Going (events : List Event) : Prop :=
  ∃ ip body, events = .opened ip :: body ∧ ∀ e ∈ body, Carried e

/-- And a last one with the sums of what these lines say. -/
def Complete (events : List Event) : Prop :=
  ∃ front rx tx, events = front ++ [.closed rx tx] ∧ Going front ∧
    rx.toNat = bytes .rx front ∧ tx.toNat = bytes .tx front

/-- The log of a connection with an OPEN line is complete, or complete so far and the connection
has not ended. -/
def Orderly (c : Conn) : Prop :=
  c.isOpened = true → Complete c.events ∨ Going c.events ∧ c.stage ≠ .ended

/-- What a step adds to a counter of the block at `a`, in bytes. -/
def amount (a : Arc) (way : Way) (w : World) : Act → UInt64
  | .conn i (.counts way' n) =>
    ((w.conns[i]?).map fun c => if c.stats = a ∧ way' = way then n else 0).getD 0
  | .fetchAdd b n c => if b = a ∧ c = way.counter then n else 0
  | _ => 0

/-- Whether it is the `i`-th connection that takes the step. -/
def own (i : ℕ) : Act → Bool
  | .conn j _ => j = i
  | _ => false

/-- What all but the `i`-th connection have added to a counter of the block at `a`. -/
def foreign (acts : List Act) (i : ℕ) (a : Arc) (way : Way) : UInt64 :=
  tally step (fun w act => if own i act then 0 else amount a way w act) World.start acts

/-- A step of a connection with an OPEN line that leaves its log in order: the client of a tunnel
can be told that it is open; nothing crosses a stream that has been shut down; and when the totals
are read nobody else has counted anything in the same block, and its own sums fit 64 bits. -/
def Conn.Fine (c : Conn) (others : Way → UInt64) : Op → Prop
  | .answers (.error _) => False
  | .counts _ _ => c.asker = .call → c.closeLog = true
  | .readsRx => others .rx = 0 ∧ bytes .rx c.events < 2 ^ 64
  | .readsTx => others .tx = 0 ∧ bytes .tx c.events < 2 ^ 64
  | _ => True

instance (c : Conn) (others : Way → UInt64) : (op : Op) → Decidable (c.Fine others op)
  | .answers (.error _) => .isFalse id
  | .counts _ _ => inferInstanceAs (Decidable (_ → _))
  | .readsRx => inferInstanceAs (Decidable (_ ∧ _))
  | .readsTx => inferInstanceAs (Decidable (_ ∧ _))
  | .connects _ | .givesUp | .answers (.ok _) | .logs | .shuts | .ends | .logsClose =>
    .isTrue trivial

def Fine (acts : List Act) (w : World) : Act → Prop
  | .conn i op => ∀ c ∈ w.conns[i]?, c.isOpened = true → c.Fine (foreign acts i c.stats) op
  | _ => True

instance (acts : List Act) (w : World) : (act : Act) → Decidable (Fine acts w act)
  | .conn i _ => inferInstanceAs (Decidable (∀ c ∈ w.conns[i]?, _ → _))
  | .connect _ _ | .call _ | .takesId | .endpoint _ | .fetchAdd _ _ _ => .isTrue trivial

/-- Every step of a run is fine. -/
def StepsFine (acts : List Act) : Prop :=
  ∀ k < acts.length, ∀ w ∈ run step World.start (acts.take k), ∀ act ∈ acts[k]?,
    Fine (acts.take k) w act

instance (acts : List Act) : Decidable (StepsFine acts) :=
  inferInstanceAs (Decidable (∀ k < acts.length, _))

/-- In every state of a run all logs are in order. -/
def KeepsLogs (acts : List Act) : Prop :=
  ∀ as, as <+: acts → ∀ w, run step World.start as = some w → ∀ c ∈ w.conns, Orderly c

/-! ### What a step can do -/

inductive Moves (r : Registry) (c : Conn) : Op → Conn → Registry → Prop
  | failed {result} (hs : c.stage = .connecting) :
      Moves r c (.connects result) { c with stage := .ended } r
  | opened {upstream r'} (hs : c.stage = .connecting)
      (hup : setUp r c.stats upstream = (.ok (), r')) :
      Moves r c (.connects (.ok upstream)) (c.opened upstream.peer) r'
  | givenUp (hs : c.stage = .connecting) : Moves r c .givesUp { c with stage := .ended } r
  | answered (hs : c.stage = .answering) : Moves r c (.answers (.ok ())) { c with stage := .live } r
  | unanswered {err} (hs : c.stage = .answering) :
      Moves r c (.answers (.error err)) { c with stage := .ended } r
  | counts {way n} (hs : c.stage = .live) :
      Moves r c (.counts way n) { c with stage := .counted way n }
        (r.update c.stats (·.fetchAdd n way.counter))
  | logs {way n} (hs : c.stage = .counted way n) :
      Moves r c .logs { c with stage := .live, events := c.events ++ [.moved way n] } r
  | shut (hs : c.stage = .live) (ha : c.asker = .call) (hl : c.closeLog = true) :
      Moves r c .shuts { c with stage := .closing false, closeLog := false } r
  | shutAgain (hs : c.stage = .live) : Moves r c .shuts c r
  | finished (hs : c.stage = .live) (ha : c.asker = .tunnel) :
      Moves r c .ends { c with stage := .closing true } r
  | dropped (hs : c.stage = .live) (hl : c.closeLog = true) :
      Moves r c .ends { c with stage := .closing true, closeLog := false } r
  | droppedShut (hs : c.stage = .live) (ha : c.asker = .call) (hl : c.closeLog = false) :
      Moves r c .ends { c with stage := .ended } r
  | readsRx {gone} (hs : c.stage = .closing gone) :
      Moves r c .readsRx { c with stage := .readRx gone ((r.heap c.stats).count .ingress) } r
  | readsTx {gone rx} (hs : c.stage = .readRx gone rx) :
      Moves r c .readsTx { c with stage := .readTx gone rx ((r.heap c.stats).count .egress) } r
  | logsClose {gone rx tx} (hs : c.stage = .readTx gone rx tx) :
      Moves r c .logsClose { c with
        stage := if gone then .ended else .live
        events := c.events ++ [.closed rx tx] } r

lemma moves_connects {r r' : Registry} {c c' : Conn} {result : Except IoError Upstream}
    (h : c.step r (.connects result) = some (c', r')) : Moves r c (.connects result) c' r' := by
  simp only [Conn.step] at h
  split at h
  next hs =>
    cases h
    exact .failed hs
  next upstream hs =>
    split at h
    next err r₁ hup =>
      obtain rfl := setUp_error hup
      cases h
      exact .failed hs
    next r₁ hup =>
      cases h
      exact .opened hs hup
  next => cases h

/-- **Every step of a connection is one of these.** -/
theorem conn_moves {r r' : Registry} {c c' : Conn} {op : Op} (h : c.step r op = some (c', r')) :
    Moves r c op c' r' := by
  cases op with
  | connects result => exact moves_connects h
  | givesUp =>
    simp only [Conn.step] at h
    split at h
    next hs ha => cases h; exact .givenUp hs
    next => cases h
  | answers result =>
    simp only [Conn.step] at h
    split at h
    next hs => cases h; exact .answered hs
    next hs => cases h; exact .unanswered hs
    next => cases h
  | counts way n =>
    simp only [Conn.step] at h
    split at h
    next hs =>
      split_ifs at h
      cases h
      exact .counts hs
    next => cases h
  | logs =>
    simp only [Conn.step] at h
    split at h
    next hs => cases h; exact .logs hs
    next => cases h
  | shuts =>
    simp only [Conn.step] at h
    split at h
    next hs ha =>
      split_ifs at h with hl
      · cases h; exact .shut hs ha hl
      · cases h; exact .shutAgain hs
    next => cases h
  | ends =>
    simp only [Conn.step] at h
    split at h
    next hs ha => cases h; exact .finished hs ha
    next hs ha =>
      split_ifs at h with hl
      · cases h; exact .dropped hs hl
      · cases h; exact .droppedShut hs ha (Bool.eq_false_iff.mpr hl)
    next => cases h
  | readsRx =>
    simp only [Conn.step] at h
    split at h
    next hs => cases h; exact .readsRx hs
    next => cases h
  | readsTx =>
    simp only [Conn.step] at h
    split at h
    next hs => cases h; exact .readsTx hs
    next => cases h
  | logsClose =>
    simp only [Conn.step] at h
    split at h
    next hs => cases h; exact .logsClose hs
    next => cases h

/-- A step of a connection logs one line behind the others, or none. -/
theorem log_moves {r r' : Registry} {c c' : Conn} {op : Op} (h : Moves r c op c' r') :
    c'.log = c.log ∨ ∃ e, c'.events = c.events ++ [e] ∧ c'.log = e.write c.log := by
  have hline : ∀ e : Event, (c.events ++ [e]).foldl Event.write (ConnLog.new c.id c.target) =
      e.write c.log := by
    intro e
    rw [List.foldl_append]
    rfl
  cases h with
  | @opened upstream _ hs _ =>
    unfold Conn.opened
    cases upstream.peer with
    | error e => exact .inl rfl
    | ok ip => exact .inr ⟨.opened ip, rfl, hline _⟩
  | @logs way n => exact .inr ⟨.moved way n, rfl, hline _⟩
  | @logsClose gone rx tx => exact .inr ⟨.closed rx tx, rfl, hline _⟩
  | _ => exact .inl rfl

/-- A step of the proxy begins a connection, is one of a connection, or leaves them all alone. -/
inductive Steps (w : World) : Act → World → Prop
  | connect (host : Text) (port : UInt16) : Steps w (.connect host port) (w.begin .tunnel host port)
  | call {uri host port} : Steps w (.call uri) (w.begin .call host port)
  | noAuthority {uri} : Steps w (.call uri) w
  | conn {i op c c' r'} (hi : w.conns[i]? = some c) (hc : Moves w.registry c op c' r') :
      Steps w (.conn i op) { w with registry := r', conns := w.conns.set i c' }
  | takesId : Steps w .takesId { w with nextConnId := w.nextConnId + 1 }
  | endpoint (host : Text) : Steps w (.endpoint host) { w with registry := (w.registry.endpoint host).2 }
  | fetchAdd {a : Arc} (n : UInt64) (c : Counter) (ha : a < w.registry.next) :
      Steps w (.fetchAdd a n c) { w with registry := w.registry.update a (·.fetchAdd n c) }

theorem step_steps {w w' : World} {act : Act} (h : step w act = some w') : Steps w act w' := by
  cases act with
  | connect host port =>
    cases h
    exact .connect host port
  | call uri =>
    simp only [step] at h
    split at h
    next => cases h; exact .noAuthority
    next => cases h; exact .call
  | conn i op =>
    simp only [step] at h
    obtain ⟨c, hi, h⟩ := Option.bind_eq_some_iff.mp h
    obtain ⟨⟨c', r'⟩, hc, h⟩ := Option.map_eq_some_iff.mp h
    cases h
    exact .conn hi (conn_moves hc)
  | takesId =>
    cases h
    exact .takesId
  | endpoint host =>
    cases h
    exact .endpoint host
  | fetchAdd a n c =>
    simp only [step] at h
    split_ifs at h with ha
    cases h
    exact .fetchAdd n c ha

/-! ### The counters of a block -/

/-- A counter of a block, which is zero before the block is allocated. -/
def held (a : Arc) (c : Counter) (r : Registry) : UInt64 :=
  if a < r.next then (r.heap a).count c else 0

lemma held_endpoint (a : Arc) (c : Counter) (r : Registry) (host : Text) :
    held a c (r.endpoint host).2 = held a c r := by
  cases hl : r.endpoints.lookup host with
  | some b => rw [endpoint_of_some r hl]
  | none =>
    obtain ⟨ha, hn, he⟩ := endpoint_of_none r hl
    rw [he]
    change (if a < r.next + 1 then (r.alloc.heap a).count c else 0) = _
    unfold held
    rcases Nat.lt_trichotomy a r.next with hlt | rfl | hgt
    · rw [if_pos (Nat.lt_succ_of_lt hlt), if_pos hlt, alloc_heap_of_lt r hlt]
    · rw [if_pos (Nat.lt_succ_self _), if_neg (Nat.lt_irrefl _), alloc_heap_next, count_fresh]
    · have hnew : ¬ a < r.next + 1 := Nat.not_lt_of_le hgt
      rw [if_neg hnew, if_neg (Nat.lt_asymm hgt)]

lemma held_update {r : Registry} {b : Arc} (hb : b < r.next) (a : Arc) (c : Counter)
    {f : EndpointStats → EndpointStats} {n : UInt64}
    (hf : ∀ s : EndpointStats, (f s).count c = s.count c + n) :
    held a c (r.update b f) = held a c r + if b = a then n else 0 := by
  unfold held
  rw [update_next]
  by_cases ha : b = a
  · subst ha
    rw [if_pos hb, if_pos hb, if_pos rfl, update_heap_self, hf]
  · rw [if_neg ha, update_heap_ne r f (Ne.symm ha), add_zero]

lemma held_setUp {r r' : Registry} {stats : Arc} (hb : stats < r.next) {upstream : Upstream}
    (h : setUp r stats upstream = (.ok (), r')) (a : Arc) (way : Way) :
    held a way.counter r' = held a way.counter r := by
  have hconn : ∀ s : EndpointStats, (s.addConnection).count way.counter = s.count way.counter + 0 := by
    intro s
    unfold addConnection
    rw [count_fetchAdd]
    cases way <;> rfl
  unfold setUp at h
  cases hn : upstream.nodelay with
  | error e =>
    rw [hn] at h
    cases h
  | ok u =>
    rw [hn] at h
    cases hp : upstream.peer with
    | error e =>
      rw [hp] at h
      cases h
      rw [held_update hb a _ hconn, ite_self, add_zero]
    | ok ip =>
      rw [hp] at h
      cases h
      have hip : ∀ s : EndpointStats, (s.observeIp ip).count way.counter = s.count way.counter + 0 :=
        fun s => by rw [count_observeIp, add_zero]
      rw [held_update (r := r.update stats (·.observeIp ip)) hb a _ hconn, held_update hb a _ hip,
        ite_self, add_zero, add_zero]

/-! ### Accounting -/

/-- What has been counted and not been logged. -/
def pending (way : Way) : Stage → UInt64
  | .counted way' n => if way' = way then n else 0
  | _ => 0

/-- What a step of a connection counts. -/
def moved (way : Way) : Op → UInt64
  | .counts way' n => if way' = way then n else 0
  | _ => 0

def Conn.counted (c : Conn) (way : Way) : UInt64 := .ofNat (bytes way c.events) + pending way c.stage

@[simp] lemma bytes_nil (way : Way) : bytes way [] = 0 := rfl

lemma bytes_append (way : Way) (xs ys : List Event) :
    bytes way (xs ++ ys) = bytes way xs + bytes way ys := by
  unfold bytes
  rw [List.map_append, List.sum_append]

lemma bytes_moved (way way' : Way) (n : UInt64) :
    bytes way [.moved way' n] = if way' = way then n.toNat else 0 := rfl

lemma moves_stats {r r' : Registry} {c c' : Conn} {op : Op} (h : Moves r c op c' r') :
    c'.stats = c.stats := by
  cases h <;> rfl

lemma moves_next {r r' : Registry} {c c' : Conn} {op : Op} (h : Moves r c op c' r') :
    r'.next = r.next := by
  cases h with
  | @opened upstream _ hs hup =>
    have hnext := setUp_next r c.stats upstream
    rwa [hup] at hnext
  | _ => rfl

/-- Nothing has been counted or logged between two states in which nothing waits to be logged. -/
lemma counted_idle {c c' : Conn} {way : Way} (hc : pending way c.stage = 0)
    (hc' : pending way c'.stage = 0) (hbytes : bytes way c'.events = bytes way c.events) :
    c'.counted way = c.counted way + 0 := by
  unfold Conn.counted
  rw [hc, hc', hbytes]
  exact (add_zero _).symm

lemma pending_opened (c : Conn) (peer : Except IoError IpAddr) (way : Way) :
    pending way (c.opened peer).stage = 0 := by
  unfold Conn.opened
  cases c.asker <;> rfl

lemma bytes_opened (c : Conn) (peer : Except IoError IpAddr) (way : Way) :
    bytes way (c.opened peer).events = bytes way c.events := by
  unfold Conn.opened
  cases peer with
  | error => rfl
  | ok ip => exact bytes_append way c.events [.opened ip]

/-- What a connection counts it has logged, or will log next. -/
lemma counted_moves {r r' : Registry} {c c' : Conn} {op : Op} (h : Moves r c op c' r') (way : Way) :
    c'.counted way = c.counted way + moved way op := by
  cases h with
  | failed hs => exact counted_idle (by rw [hs]; rfl) rfl rfl
  | @opened upstream _ hs _ =>
    exact counted_idle (by rw [hs]; rfl) (pending_opened c upstream.peer way)
      (bytes_opened c upstream.peer way)
  | givenUp hs => exact counted_idle (by rw [hs]; rfl) rfl rfl
  | answered hs => exact counted_idle (by rw [hs]; rfl) rfl rfl
  | unanswered hs => exact counted_idle (by rw [hs]; rfl) rfl rfl
  | counts hs =>
    unfold Conn.counted
    rw [hs]
    exact congrArg (· + _) (add_zero _).symm
  | @logs way' n hs =>
    unfold Conn.counted
    rw [hs, bytes_append, bytes_moved, UInt64.ofNat_add, add_assoc, add_assoc]
    refine congrArg _ ?_
    change _ + 0 = (if way' = way then n else 0) + 0
    rw [add_zero, add_zero]
    split_ifs
    · exact UInt64.ofNat_toNat
    · rfl
  | shut hs => exact counted_idle (by rw [hs]; rfl) rfl rfl
  | shutAgain => exact (add_zero _).symm
  | finished hs => exact counted_idle (by rw [hs]; rfl) rfl rfl
  | dropped hs => exact counted_idle (by rw [hs]; rfl) rfl rfl
  | droppedShut hs => exact counted_idle (by rw [hs]; rfl) rfl rfl
  | readsRx hs => exact counted_idle (by rw [hs]; rfl) rfl rfl
  | readsTx hs => exact counted_idle (by rw [hs]; rfl) rfl rfl
  | @logsClose gone rx tx hs =>
    have hidle : pending way (if gone then Stage.ended else .live) = 0 := by
      cases gone <;> rfl
    exact counted_idle (by rw [hs]; rfl) hidle (bytes_append way c.events [.closed rx tx])

lemma held_moves {r r' : Registry} {c c' : Conn} {op : Op} (hb : c.stats < r.next)
    (h : Moves r c op c' r') (a : Arc) (way : Way) :
    held a way.counter r' = held a way.counter r + if c.stats = a then moved way op else 0 := by
  cases h with
  | opened hs hup =>
    rw [held_setUp hb hup]
    exact (add_zero _).symm.trans (congrArg _ (ite_self _).symm)
  | @counts way' n hs =>
    refine held_update hb a _ fun s => ?_
    rw [count_fetchAdd]
    refine congrArg _ ?_
    cases way <;> cases way' <;> rfl
  | _ => exact (add_zero _).symm.trans (congrArg _ (ite_self _).symm)

/-- Every block a connection counts in is allocated. -/
def Allocated (w : World) : Prop := ∀ c ∈ w.conns, c.stats < w.registry.next

lemma allocated_begin {w : World} (h : Allocated w) (asker : Asker) (host : Text) (port : UInt16) :
    Allocated (w.begin asker host port) := by
  intro c hc
  rcases List.mem_append.mp hc with hold | hnew
  · exact lt_of_lt_of_le (h c hold) (next_endpoint_le w.registry host)
  · rw [List.mem_singleton.mp hnew]
    exact endpoint_lt_next w.registry host

lemma allocated_step {w w' : World} {act : Act} (h : Allocated w) (hstep : step w act = some w') :
    Allocated w' := by
  cases step_steps hstep with
  | connect host port => exact allocated_begin h _ host port
  | call => exact allocated_begin h _ _ _
  | noAuthority => exact h
  | @conn i op c c' r' hi hc =>
    intro x hx
    change x.stats < r'.next
    rw [moves_next hc]
    rcases List.mem_or_eq_of_mem_set hx with hold | rfl
    · exact h x hold
    · rw [moves_stats hc]
      exact h c (List.mem_of_getElem? hi)
  | takesId => exact h
  | endpoint host => exact fun c hc => lt_of_lt_of_le (h c hc) (next_endpoint_le w.registry host)
  | fetchAdd => exact h

lemma amount_conn {w : World} {i : ℕ} {c : Conn} (hi : w.conns[i]? = some c) (op : Op) (a : Arc)
    (way : Way) : amount a way w (.conn i op) = if c.stats = a then moved way op else 0 := by
  cases op with
  | counts way' n =>
    unfold amount moved
    simp only [hi, Option.map_some, Option.getD_some]
    exact ite_and _ _ _ _
  | _ => exact (ite_self _).symm

lemma held_step {w w' : World} {act : Act} (h : Allocated w) (hstep : step w act = some w')
    (a : Arc) (way : Way) :
    held a way.counter w'.registry = held a way.counter w.registry + amount a way w act := by
  cases step_steps hstep with
  | connect host port => exact (held_endpoint a _ w.registry host).trans (add_zero _).symm
  | @call uri host port => exact (held_endpoint a _ w.registry host).trans (add_zero _).symm
  | noAuthority => exact (add_zero _).symm
  | @conn i op c c' r' hi hc =>
    rw [amount_conn hi]
    exact held_moves (h c (List.mem_of_getElem? hi)) hc a way
  | takesId => exact (add_zero _).symm
  | endpoint host => exact (held_endpoint a _ w.registry host).trans (add_zero _).symm
  | @fetchAdd b n c hb =>
    have hadd : ∀ s : EndpointStats, (s.fetchAdd n c).count way.counter =
        s.count way.counter + if c = way.counter then n else 0 := by
      intro s
      rw [count_fetchAdd]
      exact congrArg _ (if_congr eq_comm rfl rfl)
    exact (held_update hb a _ hadd).trans (congrArg _ (ite_and _ _ _ _).symm)

/-- What the `i`-th connection has counted in the block at `a`. -/
def countedIn (i : ℕ) (a : Arc) (way : Way) (w : World) : UInt64 :=
  match w.conns[i]? with
  | some c => if c.stats = a then c.counted way else 0
  | none => 0

lemma countedIn_begin (w : World) (asker : Asker) (host : Text) (port : UInt16) (i : ℕ) (a : Arc)
    (way : Way) : countedIn i a way (w.begin asker host port) = countedIn i a way w := by
  unfold countedIn World.begin
  simp only
  rcases Nat.lt_trichotomy i w.conns.length with hlt | rfl | hgt
  · rw [List.getElem?_append_left hlt]
  · rw [List.getElem?_append_right (Nat.le_refl _), Nat.sub_self, List.getElem?_cons_zero,
      List.getElem?_eq_none (Nat.le_refl _)]
    exact ite_self _
  · rw [List.getElem?_eq_none (Nat.le_of_lt hgt), List.getElem?_eq_none]
    rw [List.length_append]
    exact hgt

lemma countedIn_step {w w' : World} {act : Act} (hstep : step w act = some w') (i : ℕ) (a : Arc)
    (way : Way) :
    countedIn i a way w' = countedIn i a way w + if own i act then amount a way w act else 0 := by
  cases step_steps hstep with
  | connect host port => exact (countedIn_begin w _ host port i a way).trans (add_zero _).symm
  | call => exact (countedIn_begin w _ _ _ i a way).trans (add_zero _).symm
  | noAuthority => exact (add_zero _).symm
  | @conn j op c c' r' hj hc =>
    by_cases hij : j = i
    · subst hij
      have hlen := (List.getElem?_eq_some_iff.mp hj).1
      have hown : own j (.conn j op) = true := decide_eq_true rfl
      rw [if_pos hown, amount_conn hj]
      unfold countedIn
      simp only [List.getElem?_set_self hlen, hj, moves_stats hc, counted_moves hc]
      split_ifs
      · rfl
      · exact (add_zero _).symm
    · rw [if_neg (by simpa [own] using hij), add_zero]
      unfold countedIn
      simp only [List.getElem?_set_ne hij]
  | takesId => exact (add_zero _).symm
  | endpoint host => exact (add_zero _).symm
  | fetchAdd => exact (add_zero _).symm

lemma held_start (a : Arc) (c : Counter) : held a c World.start.registry = 0 :=
  if_neg (Nat.not_lt_zero a)

lemma countedIn_start (i : ℕ) (a : Arc) (way : Way) : countedIn i a way World.start = 0 := rfl

section Runs

variable {acts : List Act} {w : World}

lemma allocated_run (h : run step World.start acts = some w) : Allocated w :=
  run_inv (fun _ _ _ hs hst => allocated_step hs hst) (fun _ hc => (List.not_mem_nil hc).elim) h

/-- **What a connection finds in a counter of its block** is what it has counted itself, and what
all others have added. -/
theorem count_run (h : run step World.start acts = some w) {i : ℕ} {c : Conn}
    (hi : w.conns[i]? = some c) (way : Way) :
    (w.registry.heap c.stats).count way.counter =
      c.counted way + foreign acts i c.stats way := by
  have hlt : c.stats < w.registry.next := allocated_run h c (List.mem_of_getElem? hi)
  have hheld : held c.stats way.counter w.registry =
      held c.stats way.counter World.start.registry +
        tally step (amount c.stats way) World.start acts :=
    run_tally (I := Allocated) (f := fun w => held c.stats way.counter w.registry)
      (fun _ _ _ hs hst => allocated_step hs hst) (fun _ _ _ hs hst => held_step hs hst _ way)
      (fun _ hc => (List.not_mem_nil hc).elim) h
  have hcounted : countedIn i c.stats way w = countedIn i c.stats way World.start +
      tally step (fun w act => if own i act then amount c.stats way w act else 0)
        World.start acts :=
    run_tally (I := fun _ => True) (f := countedIn i c.stats way) (fun _ _ _ _ _ => trivial)
      (fun _ _ _ _ hst => countedIn_step hst i _ way) trivial h
  have hsplit : amount c.stats way = fun w act =>
      (if own i act then amount c.stats way w act else 0) +
        if own i act then 0 else amount c.stats way w act := by
    funext w act
    cases own i act
    · exact (zero_add _).symm
    · exact (add_zero _).symm
  rw [held_start, held, if_pos hlt, hsplit, tally_add, zero_add] at hheld
  rw [countedIn_start, countedIn, hi, zero_add] at hcounted
  simp only [if_true] at hcounted
  rw [hheld, hcounted]
  rfl

end Runs

/-! ### Logs in order -/

lemma going_snoc {events : List Event} (h : Going events) (way : Way) (n : UInt64) :
    Going (events ++ [.moved way n]) := by
  obtain ⟨ip, body, rfl, hbody⟩ := h
  refine ⟨ip, body ++ [.moved way n], rfl, fun e he => ?_⟩
  rcases List.mem_append.mp he with hold | hnew
  · exact hbody e hold
  · exact ⟨way, n, List.mem_singleton.mp hnew⟩

/-- The stream of a call that has been shut down. -/
def Conn.Shut (c : Conn) : Prop := c.asker = .call ∧ c.closeLog = false

lemma not_shut_of_tunnel {c : Conn} (ha : c.asker = .tunnel) : ¬ c.Shut := fun hshut => by
  cases ha.symm.trans hshut.1

lemma not_shut_of_closeLog {c : Conn} (hl : c.closeLog = true) : ¬ c.Shut := fun hshut => by
  cases hl.symm.trans hshut.2

lemma going_of_live {c : Conn} (h : c.Shut ∧ Complete c.events ∨ ¬ c.Shut ∧ Going c.events)
    (hopen : ¬ c.Shut) : Going c.events :=
  (h.resolve_left fun hc => hopen hc.1).2

/-- What the log of a connection with an OPEN line looks like in each stage. -/
def Phase (c : Conn) : Prop :=
  match c.stage with
  | .connecting => False
  | .answering => Going c.events ∧ c.asker = .tunnel
  | .live => c.Shut ∧ Complete c.events ∨ ¬ c.Shut ∧ Going c.events
  | .counted _ _ => ¬ c.Shut ∧ Going c.events
  | .closing gone => Going c.events ∧ (gone = false → c.Shut)
  | .readRx gone rx => Going c.events ∧ (gone = false → c.Shut) ∧ rx.toNat = bytes .rx c.events
  | .readTx gone rx tx => Going c.events ∧ (gone = false → c.Shut) ∧
      rx.toNat = bytes .rx c.events ∧ tx.toNat = bytes .tx c.events
  | .ended => Complete c.events

structure Kept (c : Conn) : Prop where
  fresh : c.stage = .connecting → c.events = []
  phase : c.isOpened = true → Phase c

lemma orderly_of_kept {c : Conn} (h : Kept c) : Orderly c := by
  intro hopened
  have hphase := h.phase hopened
  unfold Phase at hphase
  cases hs : c.stage with
  | connecting =>
    rw [hs] at hphase
    exact hphase.elim
  | answering =>
    rw [hs] at hphase
    exact .inr ⟨hphase.1, nofun⟩
  | live =>
    rw [hs] at hphase
    exact hphase.imp And.right fun hgoing => ⟨hgoing.2, nofun⟩
  | counted =>
    rw [hs] at hphase
    exact .inr ⟨hphase.2, nofun⟩
  | closing =>
    rw [hs] at hphase
    exact .inr ⟨hphase.1, nofun⟩
  | readRx =>
    rw [hs] at hphase
    exact .inr ⟨hphase.1, nofun⟩
  | readTx =>
    rw [hs] at hphase
    exact .inr ⟨hphase.1, nofun⟩
  | ended =>
    rw [hs] at hphase
    exact .inl hphase

lemma not_opened_of_connecting {c : Conn} (h : Kept c) (hs : c.stage = .connecting) :
    c.isOpened = false := by
  unfold Conn.isOpened
  rw [h.fresh hs]
  rfl

lemma isOpened_snoc {c : Conn} {e : Event} (he : e.opens = false)
    (h : (c.events ++ [e]).any Event.opens = true) : c.isOpened = true := by
  rw [List.any_append, Bool.or_eq_true] at h
  refine h.resolve_right ?_
  simp [he]

/-- A total that is read where nobody else has counted is the sum of what was logged. -/
lemma toNat_total {r : Registry} {c : Conn} {others : Way → UInt64} {way : Way}
    (hcount : (r.heap c.stats).count way.counter = c.counted way + others way)
    (hidle : pending way c.stage = 0) (hothers : others way = 0)
    (hfits : bytes way c.events < 2 ^ 64) :
    ((r.heap c.stats).count way.counter).toNat = bytes way c.events := by
  rw [hcount, hothers, Conn.counted, hidle, add_zero, add_zero]
  exact UInt64.toNat_ofNat_of_lt' hfits

/-- **A fine step keeps the log in order.** -/
theorem kept_moves {r r' : Registry} {c c' : Conn} {op : Op} {others : Way → UInt64}
    (h : Moves r c op c' r') (hk : Kept c) (hfine : c.isOpened = true → c.Fine others op)
    (hcount : ∀ way : Way, (r.heap c.stats).count way.counter = c.counted way + others way) :
    Kept c' := by
  have hphase := hk.phase
  unfold Phase at hphase
  cases h with
  | failed hs =>
    refine ⟨nofun, fun ho => ?_⟩
    cases (not_opened_of_connecting hk hs).symm.trans ho
  | @opened upstream _ hs _ =>
    unfold Conn.opened
    rw [hk.fresh hs]
    cases upstream.peer with
    | error e => exact ⟨fun _ => rfl, fun ho => by cases ho⟩
    | ok ip =>
      have hgoing : Going ([] ++ [.opened ip]) := ⟨ip, [], rfl, fun e he => (List.not_mem_nil he).elim⟩
      cases ha : c.asker with
      | tunnel => exact ⟨nofun, fun _ => ⟨hgoing, rfl⟩⟩
      | call => exact ⟨nofun, fun _ => .inr ⟨not_shut_of_closeLog rfl, hgoing⟩⟩
  | givenUp hs =>
    refine ⟨nofun, fun ho => ?_⟩
    cases (not_opened_of_connecting hk hs).symm.trans ho
  | answered hs =>
    refine ⟨nofun, fun ho => ?_⟩
    rw [hs] at hphase
    obtain ⟨hgoing, ha⟩ := hphase ho
    exact .inr ⟨not_shut_of_tunnel ha, hgoing⟩
  | unanswered hs => exact ⟨nofun, fun ho => (hfine ho).elim⟩
  | counts hs =>
    refine ⟨nofun, fun ho => ?_⟩
    rw [hs] at hphase
    have hopen : ¬ c.Shut := fun hshut => not_shut_of_closeLog (hfine ho hshut.1) hshut
    exact ⟨hopen, going_of_live (hphase ho) hopen⟩
  | @logs way n hs =>
    refine ⟨nofun, fun ho => ?_⟩
    rw [hs] at hphase
    obtain ⟨hopen, hgoing⟩ := hphase (isOpened_snoc rfl ho)
    exact .inr ⟨hopen, going_snoc hgoing way n⟩
  | shut hs ha hl =>
    refine ⟨nofun, fun ho => ?_⟩
    rw [hs] at hphase
    have hgoing : Going c.events := going_of_live (hphase ho) (not_shut_of_closeLog hl)
    exact ⟨hgoing, fun _ => ⟨ha, rfl⟩⟩
  | shutAgain => exact hk
  | finished hs ha =>
    refine ⟨nofun, fun ho => ?_⟩
    rw [hs] at hphase
    have hgoing : Going c.events := going_of_live (hphase ho) (not_shut_of_tunnel ha)
    exact ⟨hgoing, nofun⟩
  | dropped hs hl =>
    refine ⟨nofun, fun ho => ?_⟩
    rw [hs] at hphase
    have hgoing : Going c.events := going_of_live (hphase ho) (not_shut_of_closeLog hl)
    exact ⟨hgoing, nofun⟩
  | droppedShut hs ha hl =>
    refine ⟨nofun, fun ho => ?_⟩
    rw [hs] at hphase
    exact ((hphase ho).resolve_right fun hc => hc.1 ⟨ha, hl⟩).2
  | readsRx hs =>
    refine ⟨nofun, fun ho => ?_⟩
    rw [hs] at hphase
    obtain ⟨hgoing, hshut⟩ := hphase ho
    obtain ⟨hothers, hfits⟩ := hfine ho
    exact ⟨hgoing, hshut, toNat_total (hcount .rx) (by rw [hs]; rfl) hothers hfits⟩
  | readsTx hs =>
    refine ⟨nofun, fun ho => ?_⟩
    rw [hs] at hphase
    obtain ⟨hgoing, hshut, hrx⟩ := hphase ho
    obtain ⟨hothers, hfits⟩ := hfine ho
    exact ⟨hgoing, hshut, hrx, toNat_total (hcount .tx) (by rw [hs]; rfl) hothers hfits⟩
  | @logsClose gone rx tx hs =>
    rw [hs] at hphase
    have hcomplete : c.isOpened = true →
        Complete (c.events ++ [.closed rx tx]) ∧ (gone = false → c.Shut) := by
      intro ho
      obtain ⟨hgoing, hshut, hrx, htx⟩ := hphase ho
      exact ⟨⟨c.events, rx, tx, rfl, hgoing, hrx, htx⟩, hshut⟩
    cases gone with
    | true => exact ⟨nofun, fun ho => (hcomplete (isOpened_snoc rfl ho)).1⟩
    | false =>
      refine ⟨nofun, fun ho => ?_⟩
      obtain ⟨hc, hshut⟩ := hcomplete (isOpened_snoc rfl ho)
      exact .inl ⟨hshut rfl, hc⟩

/-! ### Runs whose steps are fine -/

section Runs

variable {acts : List Act} {w : World}

lemma stepsFine_of_longer {as : List Act} (hpre : as <+: acts) (h : StepsFine acts) : StepsFine as := by
  obtain ⟨rest, rfl⟩ := hpre
  intro k hk v hv act hact
  have hlt : k < (as ++ rest).length := by
    rw [List.length_append]
    omega
  have htake : (as ++ rest).take k = as.take k := List.take_append_of_le_length (Nat.le_of_lt hk)
  have hfine := h k hlt v (by rw [htake]; exact hv) act
    (by rw [List.getElem?_append_left hk]; exact hact)
  rwa [htake] at hfine

lemma fine_of_snoc {act : Act} (h : StepsFine (acts ++ [act]))
    (hrun : run step World.start acts = some w) : Fine acts w act := by
  have htake : (acts ++ [act]).take acts.length = acts := List.take_left
  have hfine := h acts.length (by simp) w (by rw [htake]; exact hrun) act (by simp)
  rwa [htake] at hfine

lemma kept_begin {w : World} (h : ∀ c ∈ w.conns, Kept c) (asker : Asker) (host : Text)
    (port : UInt16) : ∀ c ∈ (w.begin asker host port).conns, Kept c := by
  intro c hc
  rcases List.mem_append.mp hc with hold | hnew
  · exact h c hold
  · rw [List.mem_singleton.mp hnew]
    exact ⟨fun _ => rfl, fun ho => by cases ho⟩

lemma kept_run (hfine : StepsFine acts) (h : run step World.start acts = some w) :
    ∀ c ∈ w.conns, Kept c := by
  have hall : StepsFine acts → ∀ c ∈ w.conns, Kept c := by
    refine run_induction (P := fun acts w => StepsFine acts → ∀ c ∈ w.conns, Kept c) ?_ ?_ h
    · exact fun _ c hc => (List.not_mem_nil hc).elim
    · intro acts v act v' hrun hv hst hfine
      have hold := hv (stepsFine_of_longer (List.prefix_append acts [act]) hfine)
      have hstep := fine_of_snoc hfine hrun
      cases step_steps hst with
      | connect host port => exact kept_begin hold _ host port
      | call => exact kept_begin hold _ _ _
      | @conn i op c c' r' hi hc =>
        intro x hx
        rcases List.mem_or_eq_of_mem_set hx with hx | rfl
        · exact hold x hx
        · exact kept_moves hc (hold c (List.mem_of_getElem? hi)) (hstep c hi) (count_run hrun hi)
      | _ => exact hold
  exact hall hfine

/-- **The log of a connection.** In every run whose steps are fine, in every state reached: a
connection with an OPEN line has logged its reads and writes behind it and nothing else, or these
and one CLOSE line last, with the sums of what they say; and if it has ended, the latter. -/
theorem keepsLogs_of_stepsFine (h : StepsFine acts) : KeepsLogs acts := by
  intro as hpre w hrun c hc
  exact orderly_of_kept (kept_run (stepsFine_of_longer hpre h) hrun c hc)

end Runs

/-! ### Logs out of order -/

def reached : Op := .connects (.ok ⟨.ok (), .ok localhost⟩)

def closes (i : ℕ) : List Act :=
  [.conn i .ends, .conn i .readsRx, .conn i .readsTx, .conn i .logsClose]

/-- A tunnel to port 443 of `a` that sends some bytes, as the `i`-th connection. -/
def sends (i : ℕ) (n : UInt64) : List Act :=
  [.connect "a".toList 443, .conn i reached, .conn i (.answers (.ok ())),
    .conn i (.counts .tx n), .conn i .logs] ++ closes i

theorem keepsLogs_of_stepsFine_sends : KeepsLogs (sends 0 5) :=
  keepsLogs_of_stepsFine (by decide +kernel)

def logged (i : ℕ) (acts : List Act) : Option (List Event) :=
  (run step World.start acts).bind fun w =>
    (w.conns[i]?).bind fun c => if c.stage = .ended then some c.events else none

lemma complete_snoc {front : List Event} {e : Event} (h : Complete (front ++ [e])) :
    ∃ rx tx, e = .closed rx tx ∧ rx.toNat = bytes .rx front ∧ tx.toNat = bytes .tx front := by
  obtain ⟨front', rx, tx, heq, -, hrx, htx⟩ := h
  obtain ⟨rfl, he⟩ := List.append_inj' heq rfl
  exact ⟨rx, tx, List.head_eq_of_cons_eq he, hrx, htx⟩

lemma not_keepsLogs {acts : List Act} {i : ℕ} {front : List Event} {e : Event}
    (h : logged i acts = some (front ++ [e])) (hopened : (front ++ [e]).any Event.opens = true)
    (hnot : ∀ rx tx, e = .closed rx tx → tx.toNat ≠ bytes .tx front) : ¬ KeepsLogs acts := by
  intro hkeeps
  obtain ⟨w, hw, hc⟩ := Option.bind_eq_some_iff.mp h
  obtain ⟨c, hi, hsame⟩ := Option.bind_eq_some_iff.mp hc
  split at hsame
  next hended =>
    have hevents : c.events = front ++ [e] := Option.some.inj hsame
    have hord := hkeeps acts List.prefix_rfl w hw c (List.mem_of_getElem? hi)
    rcases hord (by rw [Conn.isOpened, hevents]; exact hopened) with hcomplete | ⟨-, hgoes⟩
    · rw [hevents] at hcomplete
      obtain ⟨rx, tx, he, -, htx⟩ := complete_snoc hcomplete
      exact hnot rx tx he htx
    · exact hgoes hended
  next => cases hsame

/-- A tunnel whose client has gone away when it is to be told that the tunnel is open. -/
def notAnswered : List Act :=
  [.connect "a".toList 443, .conn 0 reached, .conn 0 (.answers (.error ⟨.connectionReset, ""⟩))]

/-- The stream of a call that is shut down, and read from behind that. -/
def readWhenShut : List Act :=
  [.call ⟨some "http".toList, some "a".toList⟩, .conn 0 reached, .conn 0 .shuts, .conn 0 .readsRx,
    .conn 0 .readsTx, .conn 0 .logsClose, .conn 0 (.counts .rx 7), .conn 0 .logs, .conn 0 .ends]

/-- Two tunnels to one host, one after the other, the first of which sends 5 bytes and the second
3: the CLOSE line of the second says 8. A tunnel that has been opened and whose client cannot be
told so has no CLOSE line. A stream that has been shut down and is read from has an RX line behind
its CLOSE line. -/
theorem logs_out_of_order :
    (logged 1 (sends 0 5 ++ sends 1 3) = some [.opened localhost, .moved .tx 3, .closed 0 8] ∧
      ¬ KeepsLogs (sends 0 5 ++ sends 1 3)) ∧
    (logged 0 notAnswered = some [.opened localhost] ∧ ¬ KeepsLogs notAnswered) ∧
    logged 0 readWhenShut = some [.opened localhost, .closed 0 0, .moved .rx 7] ∧
      ¬ KeepsLogs readWhenShut := by
  have hsums : logged 1 (sends 0 5 ++ sends 1 3) =
      some ([.opened localhost, .moved .tx 3] ++ [.closed 0 8]) := by decide +kernel
  have hopen : logged 0 notAnswered = some ([] ++ [.opened localhost]) := by decide +kernel
  have hlate : logged 0 readWhenShut =
      some ([.opened localhost, .closed 0 0] ++ [.moved .rx 7]) := by decide +kernel
  refine ⟨⟨hsums, not_keepsLogs hsums rfl ?_⟩, ⟨hopen, not_keepsLogs hopen rfl nofun⟩, hlate,
    not_keepsLogs hlate rfl nofun⟩
  intro rx tx he
  cases he
  decide

end Wiretally.WireLog
