import Mathlib.Tactic.Abel
import Wiretally.Attempts
import Wiretally.Splice

/-!
What a row holds, over a whole run of the proxy.

Tunnels, connections of the HTTP client and UDP associations run side by side and share the
registry. A tunnel's copy takes its steps one poll at a time, an upstream connection of the
HTTP client is polled in any way, and between any two polls all others may take theirs. What a
stream counts goes to the block it was given when its host was looked up. A tunnel counts what is
read from its client and written to it, the HTTP client what crosses its socket to the host, and
an association what it has sent on. In every state that can be reached, a row holds what was
counted so for its host: no byte is lost, counted twice or credited to another host.
-/

namespace Wiretally.Traffic

open Wiretally.Lib Wiretally.Lib.AsyncIo Wiretally.Lib.Run Wiretally.Lib.Tcp Wiretally.Net
open Wiretally.Stats Wiretally.Stats.EndpointStats Wiretally.Registry Wiretally.Io
open Wiretally.Proxy Wiretally.Attempts Wiretally.Splice

/-! ### Connections -/

/-- Who asked for an upstream connection: a client whose tunnel is to start with these bytes, or
the HTTP client. -/
inductive Asker
  | tunnel (leftover : List UInt8) (client : TcpStream)
  | call

/-- An upstream connection, from the lookup of its host on. A stream keeps what it has counted
itself, as if its block had been fresh when the connection was opened. -/
inductive Flow (cap : UInt64)
  | connecting (asker : Asker) (host : Text) (stats : Arc)
  | failed
  /-- The client has not been told yet. -/
  | opened (host : Text) (stats : Arc) (leftover : List UInt8) (client upstream : TcpStream)
  /-- The client could not be told. -/
  | untold (host : Text) (stats : Arc)
  | tunnel (host : Text) (stats : Arc) (copy : Tunnel cap TcpStream TcpStream)
  | upstream (host : Text) (stats : Arc) (stream : Counting (Probe TcpStream))

namespace Flow

variable {cap : UInt64}

def target : Flow cap → Option (Text × Arc)
  | .connecting _ host stats => some (host, stats)
  | .failed => none
  | .opened host stats _ _ _ => some (host, stats)
  | .untold host stats => some (host, stats)
  | .tunnel host stats _ => some (host, stats)
  | .upstream host stats _ => some (host, stats)

/-- What a connection has counted. -/
def counted : Flow cap → EndpointStats
  | .connecting _ _ _ => fresh
  | .failed => fresh
  | .opened _ _ _ _ _ => fresh.addConnection
  | .untold _ _ => fresh.addConnection
  | .tunnel _ _ copy => counters copy
  | .upstream _ _ stream => stream.stats

/-- What has been read from the client of a tunnel, or written to the socket of a connection of
the HTTP client. -/
def sent : Flow cap → List UInt8
  | .tunnel _ _ copy => copy.a.delivered
  | .upstream _ _ stream => stream.inner.accepted
  | _ => []

/-- What has been written to the client of a tunnel, or read from the socket of a connection of
the HTTP client. -/
def got : Flow cap → List UInt8
  | .tunnel _ _ copy => copy.a.source.accepted
  | .upstream _ _ stream => stream.inner.produced
  | _ => []

def isOpen : Flow cap → Bool
  | .connecting _ _ _ => false
  | .failed => false
  | _ => true

end Flow

/-! ### The proxy -/

/-- The registry in an association is that of the world whenever the association takes a step. -/
structure World (cap : UInt64) where
  registry : Registry
  flows : List (Flow cap)
  relays : List Udp.World

inductive Act
  /-- A tunnel is asked for, behind the request of its client. -/
  | connect (host : Text) (leftover : List UInt8) (client : TcpStream)
  /-- The HTTP client calls the connector. -/
  | call (uri : Uri)
  | connects (i : ℕ) (result : Except IoError (Upstream × TcpStream)) (log : Option ConnLog)
  | givesUp (i : ℕ)
  /-- The client of a tunnel has been told that it is open, or cannot be told. -/
  | tells (i : ℕ) (result : Except IoError TcpStream) (log : Option ConnLog)
  | copies (i : ℕ) (act : Lib.Copy.Act)
  | polls (i : ℕ) (c : Call)
  | associate
  | relay (i : ℕ) (act : Udp.Act)
  /-- The control connection of an association ends. -/
  | abort (i : ℕ)

variable {cap : UInt64}

namespace World

def start : World cap := ⟨Registry.new, [], []⟩

def begin (w : World cap) (asker : Asker) (host : Text) : World cap :=
  let (stats, registry) := w.registry.endpoint host
  { w with registry := registry, flows := w.flows ++ [.connecting asker host stats] }

def finish (w : World cap) (i : ℕ) (asker : Asker) (host : Text) (stats : Arc)
    (log : Option ConnLog) : Except IoError (Upstream × TcpStream) → World cap
  | .error _ => { w with flows := w.flows.set i .failed }
  | .ok (upstream, socket) =>
    match setUp w.registry stats upstream with
    | (.error _, registry) => { w with registry := registry, flows := w.flows.set i .failed }
    | (.ok (), registry) =>
      let flow := match asker with
        | .tunnel leftover client => .opened host stats leftover client socket
        | .call =>
          .upstream host stats (Counting.new (Probe.new socket) fresh.addConnection .upstream log)
      { w with registry := registry, flows := w.flows.set i flow }

/-- A block after a stream that shares it has gone on counting. -/
def grow (before after : EndpointStats) (block : EndpointStats) : EndpointStats :=
  (block.fetchAdd (after.egress - before.egress) .egress).fetchAdd
    (after.ingress - before.ingress) .ingress

/-- A stream takes a step, and its block gets what it counts. -/
def advance (w : World cap) (i : ℕ) (stats : Arc) (old new : Flow cap) : World cap :=
  { w with
    registry := w.registry.update stats (grow old.counted new.counted)
    flows := w.flows.set i new }

end World

def step (w : World cap) : Act → Option (World cap)
  | .connect host leftover client => some (w.begin (.tunnel leftover client) host)
  | .call uri =>
    match callTarget uri with
    | .error _ => some w
    | .ok (host, _) => some (w.begin .call host)
  | .connects i result log =>
    match w.flows[i]? with
    | some (.connecting asker host stats) => some (w.finish i asker host stats log result)
    | _ => none
  | .givesUp i =>
    match w.flows[i]? with
    | some (.connecting .call _ _) => some { w with flows := w.flows.set i .failed }
    | _ => none
  | .tells i result log =>
    match w.flows[i]? with
    | some (.opened host stats leftover _ upstream) =>
      match result with
      | .error _ => some { w with flows := w.flows.set i (.untold host stats) }
      | .ok client =>
        let copy := start cap leftover client upstream fresh.addConnection log
        some { w with flows := w.flows.set i (.tunnel host stats copy) }
    | _ => none
  | .copies i act =>
    match w.flows[i]? with
    | some (.tunnel host stats copy) => (Lib.Copy.step copy act).map fun next =>
        w.advance i stats (.tunnel host stats copy) (.tunnel host stats next)
    | _ => none
  | .polls i c =>
    match w.flows[i]? with
    | some (.upstream host stats stream) =>
      some (w.advance i stats (.upstream host stats stream)
        (.upstream host stats (perform stream c)))
    | _ => none
  | .associate => some { w with relays := w.relays ++ [Udp.World.bind w.registry] }
  | .relay i act =>
    (w.relays[i]?).bind fun u =>
      if own act then
        (Udp.step { u with registry := w.registry } act).map fun u =>
          { w with registry := u.registry, relays := w.relays.set i u }
      else none
  | .abort i =>
    (w.relays[i]?).map fun u => { w with relays := w.relays.set i { u with pc := .returned } }

/-! ### Upstream connections of the HTTP client -/

section Tallied

variable {S : Type} [AsyncRead S] [AsyncWrite S] {stats : EndpointStats} {s : Counting (Probe S)}

/-- A stream facing upstream has counted what was read from it and what was written to it. -/
structure Tallied (stats : EndpointStats) (s : Counting (Probe S)) : Prop where
  onSide : s.side = .upstream
  counted : s.stats = (stats.fetchAdd (.ofNat s.inner.produced.length) .ingress).fetchAdd
    (.ofNat s.inner.accepted.length) .egress

omit [AsyncRead S] [AsyncWrite S] in
lemma tallied_new (stats : EndpointStats) (inner : S) (log : Option ConnLog) :
    Tallied stats (Counting.new (Probe.new inner) stats .upstream log) :=
  ⟨rfl, by simp [Counting.new]⟩

omit [AsyncRead S] [AsyncWrite S] in
/-- A poll that gets some bytes and has some taken, and counts both. -/
lemma Tallied.more (h : Tallied stats s) {t : Counting (Probe S)} (got taken : List UInt8)
    (hside : t.side = s.side) (hprod : t.inner.produced = s.inner.produced ++ got)
    (hacc : t.inner.accepted = s.inner.accepted ++ taken)
    (hstats : t.stats =
      (s.stats.fetchAdd (.ofNat got.length) .ingress).fetchAdd (.ofNat taken.length) .egress) :
    Tallied stats t := by
  refine ⟨hside.trans h.onSide, ?_⟩
  rw [hstats, h.counted, hprod, hacc, fetchAdd_comm _ _ _ .egress .ingress, fetchAdd_append,
    fetchAdd_append]

omit [AsyncWrite S] in
lemma tallied_read (h : Tallied stats s) (buf : ReadBuf) :
    Tallied stats (pollRead s buf).2.2 := by
  obtain ⟨-, -, hinner, hside, hstats⟩ := Counting.pollRead_spec s buf
  refine h.more (readBytes s.inner buf) [] hside ?_ ?_ ?_
  · rw [hinner]
    exact produced_pollRead s.inner buf
  · rw [hinner, List.append_nil]
    rfl
  · rw [hstats, h.onSide]
    exact (fetchAdd_zero _ _).symm

omit [AsyncRead S] [AsyncWrite S] in
/-- A poll of a write, whichever of the two. -/
lemma Tallied.taken (h : Tallied stats s) {t : Counting (Probe S)} (taken : List UInt8)
    (hside : t.side = s.side) (hprod : t.inner.produced = s.inner.produced)
    (hacc : t.inner.accepted = s.inner.accepted ++ taken)
    (hstats : t.stats = s.stats.fetchAdd (.ofNat taken.length) s.side.writeCounter) :
    Tallied stats t := by
  refine h.more [] taken hside (by rw [hprod, List.append_nil]) hacc ?_
  have hzero : s.stats.fetchAdd (.ofNat ([] : List UInt8).length) .ingress = s.stats :=
    fetchAdd_zero _ _
  rw [hstats, h.onSide, hzero]
  rfl

/-- **Every poll is counted.** -/
theorem tallied_perform (h : Tallied stats s) (c : Call) : Tallied stats (perform s c) := by
  cases c with
  | read buf => exact tallied_read h buf
  | write bs =>
    obtain ⟨-, hinner, hside, hstats⟩ := Counting.pollWrite_spec s bs
    refine h.taken (bs.take (accepted (pollWrite s.inner bs).1)) hside ?_ ?_ ?_
    · exact (congrArg Probe.produced hinner).trans rfl
    · exact (congrArg Probe.accepted hinner).trans (accepted_pollWrite s.inner bs)
    · rw [List.length_take, Nat.min_eq_left (accepted_pollWrite_le s.inner bs)]
      exact hstats
  | writeVectored bufs =>
    obtain ⟨-, hinner, hside, hstats⟩ := Counting.pollWriteVectored_spec s bufs
    refine h.taken (bufs.flatten.take (accepted (pollWriteVectored s.inner bufs).1)) hside ?_ ?_ ?_
    · exact (congrArg Probe.produced hinner).trans rfl
    · exact (congrArg Probe.accepted hinner).trans (accepted_pollWriteVectored s.inner bufs)
    · rw [List.length_take, Nat.min_eq_left (accepted_pollWriteVectored_le s.inner bufs)]
      exact hstats
  | flush => exact ⟨h.onSide, h.counted⟩
  | shutdown => exact ⟨h.onSide, h.counted⟩

end Tallied

/-! ### What a step can do -/

/-- What holds of a connection at any time. -/
def Kept : Flow cap → Prop
  | .tunnel _ _ copy => Lib.Copy.Relayed copy ∧
    ∃ leftover, Carries leftover fresh.addConnection .client copy.a
  | .upstream _ _ stream => Tallied fresh.addConnection stream
  | _ => True

/-- What a connection has counted is what has crossed the socket it counts at. -/
lemma counted_of_kept {f : Flow cap} (h : Kept f) :
    f.counted.count .egress = .ofNat f.sent.length ∧
      f.counted.count .ingress = .ofNat f.got.length ∧
      f.counted.count .connections = if f.isOpen = true then 1 else 0 := by
  cases f with
  | tunnel host stats copy =>
    obtain ⟨-, leftover, hcar⟩ := h
    have hstats : (Flow.tunnel host stats copy).counted = _ := hcar.counted
    rw [hstats]
    simp [count_fetchAdd, Side.readCounter, Side.writeCounter, addConnection, Flow.sent, Flow.got,
      Flow.isOpen]
  | upstream host stats stream =>
    have hstats : (Flow.upstream host stats stream : Flow cap).counted = _ := h.counted
    rw [hstats]
    simp [count_fetchAdd, addConnection, Flow.sent, Flow.got, Flow.isOpen]
  | connecting => exact ⟨rfl, rfl, rfl⟩
  | failed => exact ⟨rfl, rfl, rfl⟩
  | opened => exact ⟨rfl, rfl, rfl⟩
  | untold => exact ⟨rfl, rfl, rfl⟩

def Act.isRelay : Act → Bool
  | .relay _ _ => true
  | _ => false

inductive Moves (w : World cap) : Act → World cap → Prop
  | idle {act} (ha : act.isRelay = false) : Moves w act w
  | begins {act} (asker : Asker) (host : Text) (ha : act.isRelay = false) :
    Moves w act (w.begin asker host)
  /-- A connection changes, but not what it has counted. -/
  | turns {act i old new} (ha : act.isRelay = false) (hi : w.flows[i]? = some old)
    (ht : new.target = old.target ∨ new.target = none) (hc : new.counted = old.counted)
    (hnone : new.target = none → new.counted = fresh) (hk : Kept new) :
    Moves w act { w with flows := w.flows.set i new }
  | opens {act i asker host stats registry upstream new} (ha : act.isRelay = false)
    (hi : w.flows[i]? = some (.connecting asker host stats))
    (hs : setUp w.registry stats upstream = (.ok (), registry))
    (ht : new.target = some (host, stats)) (hc : new.counted = fresh.addConnection) (hk : Kept new) :
    Moves w act { w with registry := registry, flows := w.flows.set i new }
  | advances {act i host stats old new} (ha : act.isRelay = false) (hi : w.flows[i]? = some old)
    (ho : old.target = some (host, stats)) (ht : new.target = some (host, stats))
    (hb : old.isOpen = true ∧ new.isOpen = true) (hk : Kept old → Kept new) :
    Moves w act (w.advance i stats old new)
  | associate : Moves w .associate { w with relays := w.relays ++ [Udp.World.bind w.registry] }
  | relay {i u u' act} (hi : w.relays[i]? = some u) (hown : own act = true)
    (hu : Udp.step { u with registry := w.registry } act = some u') :
    Moves w (.relay i act) { w with registry := u'.registry, relays := w.relays.set i u' }
  | abort {i u} (hi : w.relays[i]? = some u) :
    Moves w (.abort i) { w with relays := w.relays.set i { u with pc := .returned } }

lemma moves_finish {w : World cap} {i : ℕ} {asker : Asker} {host : Text} {stats : Arc}
    (hi : w.flows[i]? = some (.connecting asker host stats))
    (result : Except IoError (Upstream × TcpStream)) (log : Option ConnLog) :
    Moves w (.connects i result log) (w.finish i asker host stats log result) := by
  have hfailed : Moves w (.connects i result log) { w with flows := w.flows.set i .failed } :=
    .turns rfl hi (.inr rfl) rfl (fun _ => rfl) trivial
  cases result with
  | error err => exact hfailed
  | ok opened =>
    obtain ⟨⟨nodelay, peer⟩, socket⟩ := opened
    cases nodelay with
    | error err => exact hfailed
    | ok u =>
      have hset : setUp w.registry stats ⟨.ok (), peer⟩ = (.ok (), _) := rfl
      cases asker with
      | tunnel leftover client => exact .opens rfl hi hset rfl rfl trivial
      | call =>
        exact .opens rfl hi hset rfl rfl (tallied_new fresh.addConnection socket log)

theorem step_moves {w w' : World cap} {act : Act} (h : step w act = some w') : Moves w act w' := by
  cases act with
  | connect host leftover client =>
    cases h
    exact .begins _ host rfl
  | call uri =>
    simp only [step] at h
    split at h
    next => cases h; exact .idle rfl
    next => cases h; exact .begins _ _ rfl
  | connects i result log =>
    simp only [step] at h
    split at h
    next hi =>
      cases h
      exact moves_finish hi result log
    next => cases h
  | givesUp i =>
    simp only [step] at h
    split at h
    next hi =>
      cases h
      exact .turns rfl hi (.inr rfl) rfl (fun _ => rfl) trivial
    next => cases h
  | tells i result log =>
    simp only [step] at h
    split at h
    next host stats leftover client' upstream hi =>
      cases result with
      | error err =>
        cases h
        exact .turns rfl hi (.inl rfl) rfl (fun hn => by cases hn) trivial
      | ok client =>
        cases h
        exact .turns rfl hi (.inl rfl) rfl (fun hn => by cases hn)
          ⟨Lib.Copy.relayed_new _ _, leftover, carries_start _ _ _ _ _⟩
    next => cases h
  | copies i act =>
    simp only [step] at h
    split at h
    next host stats copy hi =>
      obtain ⟨next, hnext, rfl⟩ := Option.map_eq_some_iff.mp h
      refine .advances rfl hi rfl rfl ⟨rfl, rfl⟩ ?_
      rintro ⟨hrel, leftover, hcar⟩
      exact ⟨Lib.Copy.relayed_step hrel hnext, leftover,
        Lib.Copy.kept_step (P := Carries leftover fresh.addConnection .client)
          (fun _ c hs => carries_perform hs c) hcar hnext⟩
    next => cases h
  | polls i c =>
    simp only [step] at h
    split at h
    next host stats stream hi =>
      cases h
      exact .advances rfl hi rfl rfl ⟨rfl, rfl⟩ fun hk => tallied_perform hk c
    next => cases h
  | associate =>
    cases h
    exact .associate
  | relay i act =>
    obtain ⟨u, hi, h⟩ := Option.bind_eq_some_iff.mp h
    split_ifs at h with hown
    obtain ⟨u', hu, rfl⟩ := Option.map_eq_some_iff.mp h
    exact .relay hi hown hu
  | abort i =>
    obtain ⟨u, hi, rfl⟩ := Option.map_eq_some_iff.mp h
    exact .abort hi

/-! ### The invariant -/

/-- Every connection counts into the block listed for its host, and so does every association. -/
structure Sound (w : World cap) : Prop where
  listed : ∀ (i : ℕ) f host stats, w.flows[i]? = some f → f.target = some (host, stats) →
    w.registry.endpoints.lookup host = some stats
  kept : ∀ (i : ℕ) f, w.flows[i]? = some f → Kept f
  unborn : ∀ (i : ℕ) f, w.flows[i]? = some f → f.target = none → f.counted = fresh
  coherent : ∀ (i : ℕ) u, w.relays[i]? = some u → UdpCounts.Coherent { u with registry := w.registry }

lemma sound_start : Sound (World.start : World cap) :=
  ⟨fun _ _ _ _ h => (by cases h), fun _ _ h => (by cases h), fun _ _ h => (by cases h),
    fun _ _ h => (by cases h)⟩

lemma listed_relay {u u' : Udp.World} {act : Udp.Act} (h : Udp.step u act = some u') {k : Text}
    {a : Arc} (hk : u.registry.endpoints.lookup k = some a) :
    u'.registry.endpoints.lookup k = some a := by
  cases Udp.step_moves h with
  | known => exact UdpCounts.listed_endpoint (u.heard _ _) _ hk
  | @resolved datagram addr => exact UdpCounts.listed_endpoint (u.learned datagram addr) _ hk
  | @reply packet => exact UdpCounts.listed_endpoint (u.answered packet) _ hk
  | endpoint host => exact lookup_endpoint_of_some u.registry host hk
  | _ => exact hk

lemma setUp_endpoints {r r' : Registry} {stats : Arc} {upstream : Upstream}
    {result : Except IoError Unit} (h : setUp r stats upstream = (result, r')) :
    r'.endpoints = r.endpoints := by
  obtain ⟨nodelay, peer⟩ := upstream
  cases nodelay with
  | error err =>
    cases h
    rfl
  | ok u =>
    cases peer <;> cases h <;> rfl

lemma getElem?_concat_cases {α : Type} {xs : List α} {x a : α} {i : ℕ}
    (h : (xs ++ [x])[i]? = some a) : xs[i]? = some a ∨ a = x := by
  rcases Nat.lt_or_ge i xs.length with hlt | hge
  · rw [List.getElem?_append_left hlt] at h
    exact .inl h
  · rw [List.getElem?_append_right hge] at h
    have hmem := List.mem_of_getElem? h
    exact .inr (List.mem_singleton.mp hmem)

lemma getElem?_set_cases {α : Type} {xs : List α} {x a : α} {i j : ℕ}
    (h : (xs.set i x)[j]? = some a) : xs[j]? = some a ∨ a = x := by
  rw [List.getElem?_set] at h
  split_ifs at h
  · cases h
    exact .inr rfl
  · exact .inl h

/-- The invariant is kept by a step that keeps what is listed and leaves one connection changed. -/
lemma Sound.set {w : World cap} (hw : Sound w) (registry : Registry)
    (hgrows : ∀ k a, w.registry.endpoints.lookup k = some a →
      registry.endpoints.lookup k = some a) {flows : List (Flow cap)} (new : Flow cap)
    (hflows : ∀ (j : ℕ) f, flows[j]? = some f → w.flows[j]? = some f ∨ f = new)
    (hlisted : ∀ host stats, new.target = some (host, stats) →
      registry.endpoints.lookup host = some stats)
    (hunborn : new.target = none → new.counted = fresh) (hk : Kept new) :
    Sound { w with registry := registry, flows := flows } where
  listed j f host stats hj ht := by
    rcases hflows j f hj with hj | rfl
    · exact hgrows _ _ (hw.listed j f host stats hj ht)
    · exact hlisted host stats ht
  kept j f hj := by
    rcases hflows j f hj with hj | rfl
    · exact hw.kept j f hj
    · exact hk
  unborn j f hj hn := by
    rcases hflows j f hj with hj | rfl
    · exact hw.unborn j f hj hn
    · exact hunborn hn
  coherent j u hj := (hw.coherent j u hj).other hgrows

theorem sound_step {w w' : World cap} {act : Act} (hw : Sound w) (h : step w act = some w') :
    Sound w' := by
  cases step_moves h with
  | idle => exact hw
  | begins asker host =>
    refine hw.set _ (fun k a hk => lookup_endpoint_of_some w.registry host hk)
      (.connecting asker host (w.registry.endpoint host).1)
      (fun j f hj => getElem?_concat_cases hj) ?_ (fun _ => rfl) trivial
    intro host' stats ht
    cases ht
    exact (lookup_endpoint w.registry host host).trans (if_pos rfl)
  | @turns act i old new ha hi ht hc hnone hk =>
    refine hw.set _ (fun k a hk => hk) new (fun j f hj => getElem?_set_cases hj) ?_ hnone hk
    intro host stats htarget
    rcases ht with ht | ht
    · exact hw.listed i old host stats hi (ht ▸ htarget)
    · rw [ht] at htarget
      cases htarget
  | @opens act i asker host stats registry upstream new ha hi hs ht hc hk =>
    have hsame := setUp_endpoints hs
    refine hw.set _ (fun k a hk => by rw [hsame]; exact hk) new
      (fun j f hj => getElem?_set_cases hj) ?_ (fun hn => by rw [hn] at ht; cases ht) hk
    intro host' stats' ht'
    rw [ht] at ht'
    cases ht'
    rw [hsame]
    exact hw.listed i _ host stats hi rfl
  | @advances act i host stats old new ha hi ho ht hb hk =>
    refine hw.set (w.registry.update stats (World.grow old.counted new.counted))
      (fun k a hk => hk) new (fun j f hj => getElem?_set_cases hj) ?_
      (fun hn => by rw [hn] at ht; cases ht) (hk (hw.kept i old hi))
    intro host' stats' ht'
    rw [ht] at ht'
    cases ht'
    exact hw.listed i old host stats hi ho
  | associate =>
    refine ⟨hw.listed, hw.kept, hw.unborn, fun j u hj => ?_⟩
    rcases getElem?_concat_cases hj with hj | rfl
    · exact hw.coherent j u hj
    · exact UdpCounts.coherent_bind w.registry
  | @relay i u u' act hi hown hu =>
    have hgrows : ∀ k a, w.registry.endpoints.lookup k = some a →
        u'.registry.endpoints.lookup k = some a := fun k a hk => listed_relay hu hk
    refine ⟨fun j f host stats hj ht => hgrows _ _ (hw.listed j f host stats hj ht), hw.kept,
      hw.unborn, fun j v hj => ?_⟩
    rcases getElem?_set_cases hj with hj | rfl
    · exact (hw.coherent j v hj).other hgrows
    · exact UdpCounts.coherent_step (hw.coherent i u hi) hu
  | @abort i u hi =>
    refine ⟨hw.listed, hw.kept, hw.unborn, fun j v hj => ?_⟩
    rcases getElem?_set_cases hj with hj | rfl
    · exact hw.coherent j v hj
    · exact (hw.coherent i u hi).rest (fun _ _ hl => hl) rfl (.inr rfl)

/-! ### What a row holds -/

/-- What a connection has counted for a host. -/
def share (host : Text) (c : Counter) (f : Flow cap) : UInt64 :=
  if f.target.map Prod.fst = some host then f.counted.count c else 0

def shares (host : Text) (c : Counter) (w : World cap) : UInt64 := (w.flows.map (share host c)).sum

/-- What a step of an association counts for a host. -/
def relayed (host : Text) (c : Counter) (w : World cap) : Act → UInt64
  | .relay i act => (w.relays[i]?).elim 0 fun u =>
      UdpCounts.relays host c { u with registry := w.registry } act
  | _ => 0

lemma relayed_of_not_relay {act : Act} (h : act.isRelay = false) (host : Text) (c : Counter)
    (w : World cap) : relayed host c w act = 0 := by
  cases act with
  | relay => cases h
  | _ => rfl

lemma sum_map_set {α : Type} (f : α → UInt64) {xs : List α} {i : ℕ} {old : α}
    (hi : xs[i]? = some old) (new : α) :
    ((xs.set i new).map f).sum = (xs.map f).sum + (f new - f old) := by
  induction xs generalizing i with
  | nil => cases hi
  | cons x xs ih =>
    cases i with
    | zero =>
      cases hi
      simp only [List.set_cons_zero, List.map_cons, List.sum_cons]
      abel
    | succ i =>
      simp only [List.set_cons_succ, List.map_cons, List.sum_cons, ih hi]
      abel

lemma value_update (r : Registry) (a : Arc) {f : EndpointStats → EndpointStats} {n : UInt64}
    {c : Counter} (hf : ∀ s, (f s).count c = s.count c + n) (host : Text) :
    value (r.update a f) host c =
      value r host c + if r.endpoints.lookup host = some a then n else 0 := by
  cases hl : r.endpoints.lookup host with
  | none => simp [value_of_none r hl, value_of_none (r.update a f) hl]
  | some b =>
    rw [value_of_lookup r hl, value_of_lookup (r.update a f) hl]
    by_cases hb : b = a
    · subst hb
      rw [update_heap_self, hf, if_pos rfl]
    · rw [update_heap_ne r f hb, if_neg (fun he => hb (Option.some.inj he)), add_zero]

lemma value_setUp {r r' : Registry} {stats : Arc} {upstream : Upstream}
    (h : setUp r stats upstream = (.ok (), r')) (host : Text) (c : Counter) :
    value r' host c =
      value r host c + if r.endpoints.lookup host = some stats ∧ c = .connections then 1 else 0 := by
  obtain ⟨nodelay, peer⟩ := upstream
  cases nodelay with
  | error err => cases h
  | ok u =>
    cases peer with
    | error err =>
      cases h
      exact value_fetchAdd r stats 1 .connections host c
    | ok ip =>
      cases h
      refine (value_fetchAdd (r.update stats (·.observeIp ip)) stats 1 .connections host c).trans ?_
      rw [value_observeIp, update_endpoints]

lemma count_grow (before after block : EndpointStats)
    (hconn : after.connections = before.connections) (c : Counter) :
    (World.grow before after block).count c =
      block.count c + (after.count c - before.count c) := by
  unfold World.grow
  rw [count_fetchAdd, count_fetchAdd]
  cases c with
  | connections => simp [count, hconn]
  | ingress => simp [count]
  | egress => simp [count]

lemma connections_of_kept {f : Flow cap} (hk : Kept f) (ho : f.isOpen = true) :
    f.counted.connections = 1 := by
  have h := (counted_of_kept hk).2.2
  rwa [if_pos ho] at h

lemma share_of_target {f : Flow cap} {host : Text} {stats : Arc}
    (h : f.target = some (host, stats)) (k : Text) (c : Counter) :
    share k c f = if host = k then f.counted.count c else 0 := by
  unfold share
  rw [h, Option.map_some]
  simp only [Option.some.injEq]

/-- **What one step adds to a row** is what the connections for its host count, or what an
association's own step does. -/
theorem value_step {w w' : World cap} {act : Act} (hw : Sound w) (h : step w act = some w')
    (host : Text) (c : Counter) :
    value w'.registry host c - shares host c w' =
      value w.registry host c - shares host c w + relayed host c w act := by
  have hblock : ∀ {i : ℕ} {f : Flow cap} {host' stats}, w.flows[i]? = some f →
      f.target = some (host', stats) →
      (w.registry.endpoints.lookup host = some stats ↔ host' = host) := by
    intro i f host' stats hi ht
    have hlist := hw.listed i f host' stats hi ht
    exact ⟨fun hl => w.registry.distinct _ _ _ hlist hl, fun he => he ▸ hlist⟩
  cases step_moves h with
  | idle ha => rw [relayed_of_not_relay ha, add_zero]
  | begins asker host' ha =>
    have hvalue : value (w.begin asker host').registry host c = value w.registry host c :=
      value_endpoint w.registry host' host c
    have hshares : shares host c (w.begin asker host') = shares host c w := by
      have hzero : share host c
          (.connecting asker host' (w.registry.endpoint host').1 : Flow cap) = 0 := by
        simp [share, Flow.counted]
      change ((w.flows ++ [Flow.connecting asker host' (w.registry.endpoint host').1]).map
        (share host c)).sum = _
      rw [List.map_append, List.sum_append, List.map_cons, List.map_nil, hzero]
      simp [shares]
    rw [hvalue, hshares, relayed_of_not_relay ha, add_zero]
  | @turns act i old new ha hi ht hc hnone hk =>
    have hsame : share host c new = share host c old := by
      rcases ht with ht | ht
      · unfold share
        rw [ht, hc]
      · have hfresh := hnone ht
        unfold share
        rw [← hc, hfresh, count_fresh, ite_self, ite_self]
    have hshares : shares host c { w with flows := w.flows.set i new } = shares host c w := by
      change ((w.flows.set i new).map (share host c)).sum = _
      rw [sum_map_set _ hi, hsame, sub_self, add_zero]
      rfl
    rw [hshares, relayed_of_not_relay ha, add_zero]
  | @opens act i asker host' stats registry upstream new ha hi hs ht hc hk =>
    have hvalue := value_setUp hs host c
    simp only [hblock hi rfl] at hvalue
    have hone : fresh.addConnection.count c = if c = .connections then 1 else 0 := by
      rw [addConnection, count_fetchAdd, count_fresh, zero_add]
    have hshares : shares host c { w with registry := registry, flows := w.flows.set i new } =
        shares host c w + if host' = host ∧ c = .connections then 1 else 0 := by
      change ((w.flows.set i new).map (share host c)).sum = _
      rw [sum_map_set _ hi, share_of_target ht, hc, hone,
        share_of_target (show (Flow.connecting asker host' stats : Flow cap).target = _ from rfl)]
      have hzero : (Flow.connecting asker host' stats : Flow cap).counted.count c = 0 :=
        count_fresh c
      rw [hzero, ite_self, sub_zero, ← ite_and]
      rfl
    rw [hshares, relayed_of_not_relay ha]
    change value registry host c - _ = _
    rw [hvalue]
    abel
  | @advances act i host' stats old new ha hi ho ht hb hk =>
    have hconn : new.counted.connections = old.counted.connections := by
      have hold := hw.kept i old hi
      rw [connections_of_kept hold hb.1, connections_of_kept (hk hold) hb.2]
    have hvalue : value (w.advance i stats old new).registry host c = value w.registry host c +
        if host' = host then new.counted.count c - old.counted.count c else 0 := by
      have hupdate := value_update w.registry stats
        (fun s => count_grow old.counted new.counted s hconn c) host
      simp only [hblock hi ho] at hupdate
      exact hupdate
    have hshares : shares host c (w.advance i stats old new) = shares host c w +
        if host' = host then new.counted.count c - old.counted.count c else 0 := by
      change ((w.flows.set i new).map (share host c)).sum = _
      rw [sum_map_set _ hi, share_of_target ht, share_of_target ho]
      split_ifs
      · rfl
      · rw [sub_self]
        rfl
    rw [hvalue, hshares, relayed_of_not_relay ha]
    abel
  | associate => exact (add_zero _).symm
  | @relay i u u' act hi hown hu =>
    have hvalue := UdpCounts.value_step (hw.coherent i u hi) hu host c
    have hothers : UdpCounts.others host c { u with registry := w.registry } act = 0 := by
      cases act with
      | fetchAdd => cases hown
      | _ => rfl
    have hrelayed : relayed host c w (.relay i act) =
        UdpCounts.relays host c { u with registry := w.registry } act := by
      rw [relayed, hi, Option.elim_some]
    have hshares : shares host c { w with registry := u'.registry, relays := w.relays.set i u' } =
        shares host c w := rfl
    rw [hothers, zero_add] at hvalue
    rw [hrelayed, hshares]
    change value u'.registry host c - _ = _
    rw [hvalue]
    abel
  | abort => exact (add_zero _).symm

/-! ### Whole runs -/

section Runs

variable {acts : List Act} {w : World cap}

lemma sound_run (h : run step (World.start : World cap) acts = some w) : Sound w :=
  run_inv (fun _ _ _ hs hst => sound_step hs hst) sound_start h

def relays (cap : UInt64) (host : Text) (c : Counter) (acts : List Act) : UInt64 :=
  tally step (relayed host c) (World.start : World cap) acts

/-- **What a counter of a row holds** is what the connections and the associations for its host
have counted. -/
theorem value_run (h : run step (World.start : World cap) acts = some w) (host : Text)
    (c : Counter) : value w.registry host c = shares host c w + relays cap host c acts := by
  have hrun := run_tally (I := Sound)
    (f := fun w : World cap => value w.registry host c - shares host c w)
    (d := relayed host c) (fun _ _ _ hs hst => sound_step hs hst)
    (fun _ _ _ hs hst => value_step hs hst host c) sound_start h
  have hstart : value (World.start : World cap).registry host c -
      shares host c (World.start : World cap) = 0 := by
    have hnone : value (World.start : World cap).registry host c = 0 := value_of_none _ rfl c
    have hzero : shares host c (World.start : World cap) = 0 := rfl
    rw [hnone, hzero, sub_zero]
  have htally : tally step (relayed host c) (World.start : World cap) acts =
      relays cap host c acts := rfl
  rw [hstart, zero_add, htally] at hrun
  rw [← hrun]
  abel

def World.flowsTo (w : World cap) (host : Text) : List (Flow cap) :=
  w.flows.filter fun f => f.target.map Prod.fst = some host

lemma shares_eq (host : Text) (c : Counter) (w : World cap) :
    shares host c w = ((w.flowsTo host).map fun f => f.counted.count c).sum := by
  unfold shares World.flowsTo share
  induction w.flows with
  | nil => rfl
  | cons f flows ih =>
    rw [List.map_cons, List.sum_cons, ih, List.filter_cons]
    by_cases h : f.target.map Prod.fst = some host
    · simp [h]
    · simp [h]

lemma sum_ones {α : Type} (p : α → Bool) (xs : List α) :
    (xs.map fun x => if p x = true then (1 : UInt64) else 0).sum = .ofNat (xs.countP p) := by
  induction xs with
  | nil => rfl
  | cons x xs ih =>
    rw [List.map_cons, List.sum_cons, ih, List.countP_cons]
    split_ifs
    · rw [UInt64.ofNat_add, add_comm]
      rfl
    · rw [zero_add, Nat.add_zero]

lemma sum_counted {w : World cap} (hw : Sound w) (host : Text) :
    shares host .egress w = ((w.flowsTo host).map fun f => UInt64.ofNat f.sent.length).sum ∧
      shares host .ingress w = ((w.flowsTo host).map fun f => UInt64.ofNat f.got.length).sum ∧
      shares host .connections w = UInt64.ofNat ((w.flowsTo host).countP Flow.isOpen) := by
  have hkept : ∀ f ∈ w.flowsTo host, Kept f := by
    intro f hf
    obtain ⟨i, hi⟩ := List.mem_iff_getElem?.mp (List.mem_filter.mp hf).1
    exact hw.kept i f hi
  refine ⟨?_, ?_, ?_⟩
  · rw [shares_eq]
    exact congrArg List.sum (List.map_congr_left fun f hf => (counted_of_kept (hkept f hf)).1)
  · rw [shares_eq]
    exact congrArg List.sum (List.map_congr_left fun f hf => (counted_of_kept (hkept f hf)).2.1)
  · rw [shares_eq, ← sum_ones]
    exact congrArg List.sum (List.map_congr_left fun f hf => (counted_of_kept (hkept f hf)).2.2)

lemma flowsTo_of_none {w : World cap} (hw : Sound w) {host : Text}
    (h : w.registry.endpoints.lookup host = none) : w.flowsTo host = [] := by
  refine List.filter_eq_nil_iff.mpr fun f hf hhost => ?_
  obtain ⟨i, hi⟩ := List.mem_iff_getElem?.mp hf
  obtain ⟨⟨host', stats⟩, ht, rfl⟩ := Option.map_eq_some_iff.mp (of_decide_eq_true hhost)
  rw [hw.listed i f host' stats hi ht] at h
  cases h

lemma count_of_mem {r : Registry} {filter : Option Text} {listing : List (Text × Arc)}
    (hl : HashMap.Lists r.endpoints listing) {e : Endpoint} (he : e ∈ r.snapshotOf filter listing)
    (c : Counter) : e.count c = value r e.domain c := by
  obtain ⟨s, hs, hof⟩ := (mem_snapshotOf r filter hl e).mp he
  rw [value, hs, Option.elim_some, hof]
  exact Endpoint.count_of filter e.domain s c

/-- **What the rows of a snapshot hold.** In every state that can be reached, however connections
and associations interleave, each row holds exactly, both ways, what was read from and written to
the clients of the tunnels to its host, what crossed the sockets of the HTTP client to it and what
the associations relayed, and how often a connection to it was opened; and what has no row had no
traffic. -/
theorem snapshot_is_traffic (h : run step (World.start : World cap) acts = some w)
    (filter : Option Text) {listing : List (Text × Arc)}
    (hl : HashMap.Lists w.registry.endpoints listing) :
    (∀ e ∈ w.registry.snapshotOf filter listing,
      e.egressBytes = ((w.flowsTo e.domain).map fun f => UInt64.ofNat f.sent.length).sum +
        relays cap e.domain .egress acts ∧
      e.ingressBytes = ((w.flowsTo e.domain).map fun f => UInt64.ofNat f.got.length).sum +
        relays cap e.domain .ingress acts ∧
      e.connections = UInt64.ofNat ((w.flowsTo e.domain).countP Flow.isOpen) +
        relays cap e.domain .connections acts) ∧
    ∀ host, (∀ e ∈ w.registry.snapshotOf filter listing, e.domain ≠ host) →
      w.flowsTo host = [] ∧ ∀ c, relays cap host c acts = 0 := by
  have hw := sound_run h
  constructor
  · intro e he
    have hvalue : ∀ c, e.count c = value w.registry e.domain c := count_of_mem hl he
    obtain ⟨hegress, hingress, hconnections⟩ := sum_counted hw e.domain
    refine ⟨?_, ?_, ?_⟩
    · rw [← hegress, ← value_run h]
      exact hvalue .egress
    · rw [← hingress, ← value_run h]
      exact hvalue .ingress
    · rw [← hconnections, ← value_run h]
      exact hvalue .connections
  · intro host hnone
    have hrow : w.registry.row host = none := by
      by_contra hsome
      obtain ⟨s, hs⟩ := Option.ne_none_iff_exists'.mp hsome
      exact hnone (Endpoint.of filter host s)
        ((mem_snapshotOf w.registry filter hl _).mpr ⟨s, hs, rfl⟩) rfl
    have hflows := flowsTo_of_none hw ((row_eq_none w.registry).mp hrow)
    refine ⟨hflows, fun c => ?_⟩
    have hvalue := value_run h host c
    rw [shares_eq, hflows, value, hrow] at hvalue
    exact (hvalue.trans (zero_add _)).symm

end Runs

/-! ### A tunnel and an association to one host -/

/-- A client that sends two bytes behind the one that came with its request. -/
def uploader : TcpStream := ⟨[2, 3], fun _ => 2, .eof, [], none⟩

/-- Its server, which answers with one byte. -/
def responder : TcpStream := ⟨[9], fun _ => 1, .eof, [], none⟩

/-- An upload through a tunnel, cut by a query to the same host before it is answered. -/
def mixed : List Act :=
  [.connect "a".toList [1] uploader,
    .associate,
    .connects 0 (.ok (⟨.ok (), .ok localhost⟩, responder)) none,
    .relay 0 (.recvClient ⟨[0, 0, 0, 3, 1, 0x61, 0, 53, 4, 5, 6], by decide⟩ ⟨localhost, 4000⟩),
    .tells 0 (.ok uploader) none,
    .copies 0 (.aToB (.fill 16)),
    .relay 0 (.resolves (.ok [⟨localhost, 53⟩])),
    .copies 0 (.aToB .drain),
    .copies 0 (.aToB (.fill 16)),
    .relay 0 (.sends (.ok ())),
    .copies 0 (.bToA (.fill 16)),
    .copies 0 (.bToA .drain)]

theorem snapshot_is_traffic_mixed : ∃ w : World 16, run step World.start mixed = some w ∧
    (∀ e ∈ w.registry.snapshot none,
      e.egressBytes = ((w.flowsTo e.domain).map fun f => UInt64.ofNat f.sent.length).sum +
        relays 16 e.domain .egress mixed ∧
      e.ingressBytes = ((w.flowsTo e.domain).map fun f => UInt64.ofNat f.got.length).sum +
        relays 16 e.domain .ingress mixed ∧
      e.connections = UInt64.ofNat ((w.flowsTo e.domain).countP Flow.isOpen) +
        relays 16 e.domain .connections mixed) ∧
    w.registry.snapshot none = [⟨"a".toList, some localhost, 1, 6, 2, true⟩] := by
  have hrows : (run step (World.start : World 16) mixed).map (fun w => w.registry.snapshot none) =
      some [⟨"a".toList, some localhost, 1, 6, 2, true⟩] := by
    decide +kernel
  obtain ⟨w, hw, hsnapshot⟩ := Option.map_eq_some_iff.mp hrows
  exact ⟨w, hw, (snapshot_is_traffic hw none (HashMap.lists_toList _)).1, hsnapshot⟩

end Wiretally.Traffic
