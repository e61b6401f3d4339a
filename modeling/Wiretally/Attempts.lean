import Wiretally.Proxy
import Wiretally.UdpCounts

/-!
What an attempt to reach a host leaves behind when it fails.

Tunnels, calls of the connector and UDP associations share one registry. Each looks its host up
before it knows whether the host can be reached: a tunnel and a call before they connect, an
association before it sends. Between any two steps of one attempt all the others may take
theirs; what lies outside the proxy decides which of them fail.
-/

namespace Wiretally.Attempts

open Wiretally.Lib Wiretally.Lib.AsyncIo Wiretally.Lib.Run Wiretally.Net Wiretally.Stats
open Wiretally.Stats.EndpointStats Wiretally.Registry Wiretally.Proxy

/-! ### Upstream connections -/

/-- A request URI, as far as the connector reads it. -/
structure Uri where
  scheme : Option Text
  authority : Option Text

/-- The host and port a call of the connector is for. -/
def callTarget (uri : Uri) : Except IoError (Text × UInt16) :=
  match uri.authority with
  | none => .error ⟨.invalidInput, "missing authority"⟩
  | some authority =>
    let defaultPort := if uri.scheme = some "https".toList then 443 else 80
    .ok (splitAuthority authority defaultPort)

/-- Who asked for an upstream connection: the client of a tunnel, or the HTTP client, which may
give its request up. -/
inductive Asker | tunnel | call
  deriving DecidableEq

inductive Upstreaming
  | connecting (asker : Asker) (host : Text) (port : UInt16) (stats : Arc)
  | opened (host : Text) (stats : Arc)
  | over

/-- What follows a connect that succeeds; `set_nodelay` may still fail. -/
def setUp (registry : Registry) (stats : Arc) (upstream : Upstream) : Except IoError Unit × Registry :=
  match upstream.nodelay with
  | .error err => (.error err, registry)
  | .ok () =>
    let registry := match upstream.peer with
      | .ok ip => registry.update stats (·.observeIp ip)
      | .error _ => registry
    (.ok (), registry.update stats addConnection)

/-! ### The proxy -/

/-- All that reaches out. The registry in an association is that of the world whenever the
association takes a step. -/
structure World where
  registry : Registry
  tcp : List Upstreaming
  relays : List Udp.World

def World.start : World := ⟨Registry.new, [], []⟩

inductive Act
  /-- A tunnel is asked for. -/
  | connect (host : Text) (port : UInt16)
  /-- The HTTP client calls the connector. -/
  | call (uri : Uri)
  | connects (i : ℕ) (result : Except IoError Upstream)
  | givesUp (i : ℕ)
  /-- An open connection carries bytes. -/
  | counts (i : ℕ) (n : UInt64) (c : Counter)
  | closes (i : ℕ)
  | associate
  | relay (i : ℕ) (act : Udp.Act)
  /-- The control connection of an association ends. -/
  | abort (i : ℕ)

namespace World

def begin (w : World) (asker : Asker) (host : Text) (port : UInt16) : World :=
  let (stats, registry) := w.registry.endpoint host
  { w with registry := registry, tcp := w.tcp ++ [.connecting asker host port stats] }

def finish (w : World) (i : ℕ) (host : Text) (stats : Arc) : Except IoError Upstream → World
  | .error _ => { w with tcp := w.tcp.set i .over }
  | .ok upstream =>
    match setUp w.registry stats upstream with
    | (.ok (), registry) => { w with registry := registry, tcp := w.tcp.set i (.opened host stats) }
    | (.error _, registry) => { w with registry := registry, tcp := w.tcp.set i .over }

end World

def own : Udp.Act → Bool
  | .recvClient _ _ | .recvUpstream _ _ | .recvFails _ | .resolves _ | .sends _ => true
  | .endpoint _ | .fetchAdd _ _ _ | .observeIp _ _ => false

def step (w : World) : Act → Option World
  | .connect host port => some (w.begin .tunnel host port)
  | .call uri =>
    match callTarget uri with
    | .error _ => some w
    | .ok (host, port) => some (w.begin .call host port)
  | .connects i result =>
    match w.tcp[i]? with
    | some (.connecting _ host _ stats) => some (w.finish i host stats result)
    | _ => none
  | .givesUp i =>
    match w.tcp[i]? with
    | some (.connecting .call _ _ _) => some { w with tcp := w.tcp.set i .over }
    | _ => none
  | .counts i n c =>
    match w.tcp[i]? with
    | some (.opened _ stats) =>
      if c = .connections then none
      else some { w with registry := w.registry.update stats (·.fetchAdd n c) }
    | _ => none
  | .closes i =>
    match w.tcp[i]? with
    | some (.opened _ _) => some { w with tcp := w.tcp.set i .over }
    | _ => none
  | .associate => some { w with relays := w.relays ++ [Udp.World.bind w.registry] }
  | .relay i act =>
    (w.relays[i]?).bind fun u =>
      if own act then
        (Udp.step { u with registry := w.registry } act).map fun u =>
          { w with registry := u.registry, relays := w.relays.set i u }
      else none
  | .abort i =>
    (w.relays[i]?).map fun u => { w with relays := w.relays.set i { u with pc := .returned } }

/-! ### Attempts -/

/-- Where attempts are made, one after the other. -/
inductive Slot
  | tcp (i : ℕ)
  | relay (i : ℕ)
  deriving DecidableEq

/-- The host an association tries to reach, or a reply to be handed over comes from. -/
def seeks : Udp.Pc → Option Text
  | .lookupHost datagram | .sendOut datagram _ _ => some datagram.host
  | .sendBack _ _ _ host _ => some host
  | .select | .returned => none

def connectsTo : Upstreaming → Option Text
  | .connecting _ host _ _ => some host
  | .opened _ _ | .over => none

/-- The host of the attempt in progress. -/
def attempting (w : World) : Slot → Option Text
  | .tcp i => (w.tcp[i]?).bind connectsTo
  | .relay i => (w.relays[i]?).bind fun u => seeks u.pc

/-- Whose attempt a step belongs to. -/
def actor (w : World) : Act → Option Slot
  | .connect _ _ | .call _ => some (.tcp w.tcp.length)
  | .connects i _ | .givesUp i | .counts i _ _ | .closes i => some (.tcp i)
  | .relay i _ | .abort i => some (.relay i)
  | .associate => none

/-- The host to which a step has opened a connection, sent a datagram or relayed one back. -/
def reached (w : World) : Act → Option Text
  | .connects i (.ok _) => attempting w (.tcp i)
  | .relay i (.sends (.ok ())) => attempting w (.relay i)
  | _ => none

/-- The host whose counters a step looks up. -/
def looksUp (w : World) : Act → Option Text
  | .connect host _ => some host
  | .call uri =>
    match callTarget uri with
    | .ok (host, _) => some host
    | .error _ => none
  | .relay i act =>
    (w.relays[i]?).bind fun u => UdpCounts.looksUp { u with registry := w.registry } act
  | _ => none

/-- Whether the host needs no new row and no new connection to be looked up there. -/
def Known (w : World) (host : Text) : Slot → Prop
  | .tcp _ => (w.registry.row host).isSome = true
  | .relay i => ∃ u, w.relays[i]? = some u ∧ (u.relay.endpoints.lookup host).isSome = true

/-- A step that ends an attempt without having reached its host. -/
structure Fails (w : World) (act : Act) (s : Slot) : Prop where
  actor : actor w act = some s
  before : attempting w s ≠ none
  after : ∀ w', step w act = some w' → attempting w' s = none
  reached : reached w act = none

/-- The steps of its own that the attempt in progress in a slot has taken. -/
def ownSteps (s : Slot) (acts : List Act) : List (World × Act) :=
  (trace step World.start acts).foldl (fun steps t =>
    if (step t.1 t.2).bind (attempting · s) = none then []
    else if actor t.1 t.2 = some s then steps ++ [t] else steps) []

/-- Every attempt that fails has left all rows, with all they hold, as they were. -/
def LeavesNoTrace (acts : List Act) : Prop :=
  ∀ as act w s, as ++ [act] <+: acts → run step World.start as = some w → Fails w act s →
    ∀ t ∈ ownSteps s as ++ [(w, act)], ∀ w', step t.1 t.2 = some w' →
      w'.registry.row = t.1.registry.row

/-- In every state with no attempt in progress, each row of the snapshot is that of a host to
which a connection was opened or a datagram sent, or from which one was relayed back. -/
def RowsReached (acts : List Act) : Prop :=
  ∀ as w, as <+: acts → run step World.start as = some w → (∀ s, attempting w s = none) →
    ∀ listing, HashMap.Lists w.registry.endpoints listing →
      ∀ e ∈ w.registry.snapshotOf none listing,
        ∃ t ∈ trace step World.start as, reached t.1 t.2 = some e.domain

/-- Every attempt that fails was for a host known where it was looked up. -/
def FailsKnown (acts : List Act) : Prop :=
  ∀ as act w s, as ++ [act] <+: acts → run step World.start as = some w → Fails w act s →
    ∀ t ∈ ownSteps s as, ∀ host, looksUp t.1 t.2 = some host → Known t.1 host s

/-! ### What a lookup does to the rows -/

lemma row_endpoint_iff (r : Registry) (host : Text) :
    (r.endpoint host).2.row = r.row ↔ (r.row host).isSome = true := by
  constructor
  · intro h
    rw [← h, row_endpoint, if_pos rfl]
    rfl
  · intro h
    obtain ⟨block, hblock⟩ := Option.isSome_iff_exists.mp h
    funext k
    rw [row_endpoint]
    split_ifs with hk
    · rw [hk, hblock, Option.getD_some]
    · rfl

lemma value_congr {r r' : Registry} (h : r.row = r'.row) (host : Text) (c : Counter) :
    value r host c = value r' host c := by
  unfold value
  rw [h]

/-- An association changes no row when it looks a host up exactly if it has cached it. -/
lemma row_cached_iff (u : Udp.World) (host : Text) :
    (u.endpoint host).2.registry.row = u.registry.row ↔
      (u.relay.endpoints.lookup host).isSome = true := by
  cases h : u.relay.endpoints.lookup host with
  | some stats =>
    rw [UdpCounts.endpoint_of_cached u host h]
    simp
  | none =>
    have hvalue := UdpCounts.value_endpoint u host host .connections
    rw [if_pos ⟨rfl, rfl, h⟩] at hvalue
    constructor
    · intro hrow
      rw [value_congr hrow] at hvalue
      exact absurd (add_eq_left.mp hvalue.symm) (by decide)
    · intro hsome
      cases hsome

lemma registry_of_looksUp_none {u u' : Udp.World} {act : Udp.Act} (hown : own act = true)
    (h : Udp.step u act = some u') (hnone : UdpCounts.looksUp u act = none)
    (hsend : act ≠ .sends (.ok ())) : u'.registry = u.registry := by
  rw [UdpCounts.looksUp_eq h] at hnone
  cases Udp.step_moves h with
  | known hpc =>
    rw [hpc] at hnone
    cases hnone
  | resolved hpc =>
    rw [hpc] at hnone
    cases hnone
  | reply hpc =>
    rw [hpc] at hnone
    cases hnone
  | sentOut => exact absurd rfl hsend
  | sentBack => exact absurd rfl hsend
  | endpoint => cases hown
  | fetchAdd => cases hown
  | observeIp => cases hown
  | _ => rfl

lemma row_relay_iff {u u' : Udp.World} {act : Udp.Act} (hown : own act = true)
    (h : Udp.step u act = some u') (hsend : act ≠ .sends (.ok ())) :
    u'.registry.row = u.registry.row ↔ ∀ host, UdpCounts.looksUp u act = some host →
      (u.relay.endpoints.lookup host).isSome = true := by
  cases hl : UdpCounts.looksUp u act with
  | none => simp [registry_of_looksUp_none hown h hl hsend]
  | some host =>
    obtain ⟨v, hreg, hcache, hreg', -, -⟩ := UdpCounts.looksUp_some h hl
    have hiff := row_cached_iff v host
    rw [← hreg', hreg, hcache] at hiff
    rw [hiff]
    constructor
    · rintro hsome host' ⟨⟩
      exact hsome
    · exact fun hall => hall host rfl

/-! ### What a step can do -/

inductive Moves (w : World) : Act → World → Prop
  | connect (host : Text) (port : UInt16) :
      Moves w (.connect host port) (w.begin .tunnel host port)
  | noAuthority {uri err} (huri : callTarget uri = .error err) : Moves w (.call uri) w
  | call {uri host port} (huri : callTarget uri = .ok (host, port)) :
      Moves w (.call uri) (w.begin .call host port)
  | refused {i asker host port stats err}
      (hi : w.tcp[i]? = some (.connecting asker host port stats)) :
      Moves w (.connects i (.error err)) { w with tcp := w.tcp.set i .over }
  | opened {i asker host port stats upstream}
      (hi : w.tcp[i]? = some (.connecting asker host port stats)) :
      Moves w (.connects i (.ok upstream)) (w.finish i host stats (.ok upstream))
  | givenUp {i host port stats} (hi : w.tcp[i]? = some (.connecting .call host port stats)) :
      Moves w (.givesUp i) { w with tcp := w.tcp.set i .over }
  | counts {i host stats} (n : UInt64) (c : Counter) (hi : w.tcp[i]? = some (.opened host stats)) :
      Moves w (.counts i n c) { w with registry := w.registry.update stats (·.fetchAdd n c) }
  | closes {i host stats} (hi : w.tcp[i]? = some (.opened host stats)) :
      Moves w (.closes i) { w with tcp := w.tcp.set i .over }
  | associate :
      Moves w .associate { w with relays := w.relays ++ [Udp.World.bind w.registry] }
  | relay {i u u' act} (hi : w.relays[i]? = some u) (hown : own act = true)
      (hu : Udp.step { u with registry := w.registry } act = some u') :
      Moves w (.relay i act) { w with registry := u'.registry, relays := w.relays.set i u' }
  | abort {i u} (hi : w.relays[i]? = some u) :
      Moves w (.abort i) { w with relays := w.relays.set i { u with pc := .returned } }

theorem step_moves {w w' : World} {act : Act} (h : step w act = some w') : Moves w act w' := by
  cases act with
  | connect host port =>
    cases h
    exact .connect host port
  | call uri =>
    simp only [step] at h
    cases huri : callTarget uri with
    | error err =>
      rw [huri] at h
      cases h
      exact .noAuthority huri
    | ok target =>
      rw [huri] at h
      cases h
      exact .call huri
  | connects i result =>
    simp only [step] at h
    split at h
    next asker host port stats hi =>
      cases h
      cases result with
      | error err => exact .refused hi
      | ok upstream => exact .opened hi
    next => cases h
  | givesUp i =>
    simp only [step] at h
    split at h
    next hi => cases h; exact .givenUp hi
    next => cases h
  | counts i n c =>
    simp only [step] at h
    split at h
    next hi =>
      split_ifs at h
      cases h
      exact .counts n c hi
    next => cases h
  | closes i =>
    simp only [step] at h
    split at h
    next hi => cases h; exact .closes hi
    next => cases h
  | associate =>
    cases h
    exact .associate
  | relay i act =>
    obtain ⟨u, hi, h⟩ := Option.bind_eq_some_iff.mp h
    split_ifs at h with hown
    obtain ⟨u', hu, rfl⟩ := Option.map_eq_some_iff.mp h
    exact .relay hi hown hu
  | abort i =>
    obtain ⟨u, hi, rfl⟩ := Option.map_eq_some_iff.mp h
    exact .abort hi

section Slots

variable {α β : Type} {xs : List α} {i j : ℕ} {a b : α} (f : α → Option β)

lemma bind_set_self (h : xs[i]? = some a) : ((xs.set i b)[i]?).bind f = f b := by
  rw [List.getElem?_set_self (List.getElem?_eq_some_iff.mp h).1, Option.bind_some]

lemma bind_set_ne (h : i ≠ j) : ((xs.set i b)[j]?).bind f = (xs[j]?).bind f := by
  rw [List.getElem?_set_ne h]

lemma bind_append_self : ((xs ++ [b])[xs.length]?).bind f = f b := by
  rw [List.getElem?_concat_length, Option.bind_some]

lemma bind_append_ne (h : xs.length ≠ j) : ((xs ++ [b])[j]?).bind f = (xs[j]?).bind f := by
  rcases Nat.lt_or_gt_of_ne h with hlt | hgt
  · rw [List.getElem?_eq_none (by rw [List.length_append, List.length_singleton]; omega),
      List.getElem?_eq_none (by omega)]
  · rw [List.getElem?_append_left hgt]

end Slots

/-- What a connect that returned leaves in its slot. -/
lemma finish_spec (w : World) (i : ℕ) (host : Text) (stats : Arc) (upstream : Upstream) :
    ∃ registry x, w.finish i host stats (.ok upstream) =
      { w with registry := registry, tcp := w.tcp.set i x } ∧ connectsTo x = none := by
  rcases hset : setUp w.registry stats upstream with ⟨_ | _, registry⟩
  · exact ⟨registry, .over, by simp only [World.finish, hset], rfl⟩
  · exact ⟨registry, .opened host stats, by simp only [World.finish, hset], rfl⟩

lemma attempting_other {w w' : World} {act : Act} {s : Slot} (h : step w act = some w')
    (hs : actor w act ≠ some s) : attempting w' s = attempting w s := by
  cases s with
  | tcp j =>
    cases step_moves h with
    | connect host port => exact bind_append_ne _ fun hj => hs (by rw [actor, hj])
    | call => exact bind_append_ne _ fun hj => hs (by rw [actor, hj])
    | noAuthority => rfl
    | @opened i asker host port stats upstream hi =>
      obtain ⟨registry, x, hx, -⟩ := finish_spec w i host stats upstream
      rw [hx]
      exact bind_set_ne _ fun hj => hs (by rw [actor, hj])
    | refused => exact bind_set_ne _ fun hj => hs (by rw [actor, hj])
    | givenUp => exact bind_set_ne _ fun hj => hs (by rw [actor, hj])
    | closes => exact bind_set_ne _ fun hj => hs (by rw [actor, hj])
    | _ => rfl
  | relay j =>
    cases step_moves h with
    | associate =>
      by_cases hj : w.relays.length = j
      · subst hj
        rw [attempting, attempting, bind_append_self, List.getElem?_eq_none (le_refl _)]
        rfl
      · exact bind_append_ne _ hj
    | relay => exact bind_set_ne _ fun hj => hs (by rw [actor, hj])
    | abort => exact bind_set_ne _ fun hj => hs (by rw [actor, hj])
    | @opened i asker host port stats upstream hi =>
      obtain ⟨registry, x, hx, -⟩ := finish_spec w i host stats upstream
      rw [hx]
      rfl
    | _ => rfl

/-- A step of an association that is on its way to a host leaves it on its way there, or at rest. -/
lemma seeks_step {u u' : Udp.World} {act : Udp.Act} {host : Text} (hown : own act = true)
    (h : Udp.step u act = some u') (hu : seeks u.pc = some host) :
    seeks u'.pc = none ∨ seeks u'.pc = some host := by
  cases Udp.step_moves h with
  | unknown hpc => rw [hpc] at hu; cases hu
  | known hpc => rw [hpc] at hu; cases hu
  | reply hpc => rw [hpc] at hu; cases hu
  | resolved hpc =>
    rw [hpc] at hu
    exact .inr hu
  | endpoint => cases hown
  | fetchAdd => cases hown
  | observeIp => cases hown
  | _ => exact .inl rfl

/-- An attempt goes on for the same host, or ends. -/
lemma attempting_step {w w' : World} {act : Act} {s : Slot} {host : Text}
    (h : step w act = some w') (hw : attempting w s = some host) :
    attempting w' s = none ∨ attempting w' s = some host := by
  by_cases hs : actor w act = some s
  · cases step_moves h with
    | connect | call =>
      cases hs
      simp [attempting] at hw
    | noAuthority => exact .inr hw
    | refused hi =>
      cases hs
      exact .inl (bind_set_self _ hi)
    | givenUp hi =>
      cases hs
      exact .inl (bind_set_self _ hi)
    | closes hi =>
      cases hs
      exact .inl (bind_set_self _ hi)
    | counts => exact .inr hw
    | @opened i asker host' port stats upstream hi =>
      cases hs
      obtain ⟨registry, x, hx, hnone⟩ := finish_spec w i host' stats upstream
      rw [hx]
      exact .inl ((bind_set_self _ hi).trans hnone)
    | associate => cases hs
    | abort hi =>
      cases hs
      exact .inl (bind_set_self _ hi)
    | @relay i u u' act hi hown hu =>
      cases hs
      rw [attempting, hi, Option.bind_some] at hw
      rw [attempting, bind_set_self _ hi]
      exact seeks_step hown hu hw
  · rw [attempting_other h hs]
    exact .inr hw

lemma reached_spec {w w' : World} {act : Act} {host : Text} (h : step w act = some w')
    (hr : reached w act = some host) :
    ∃ s, actor w act = some s ∧ attempting w s = some host ∧ attempting w' s = none := by
  cases step_moves h with
  | @opened i asker host' port stats upstream hi =>
    obtain ⟨registry, x, hx, hnone⟩ := finish_spec w i host' stats upstream
    refine ⟨.tcp i, rfl, hr, ?_⟩
    rw [hx]
    exact (bind_set_self _ hi).trans hnone
  | @relay i u u' act hi hown hu =>
    unfold reached at hr
    split at hr
    next heq => cases heq
    next heq =>
      cases heq
      refine ⟨.relay i, rfl, hr, ?_⟩
      refine (bind_set_self _ hi).trans ?_
      cases Udp.step_moves hu <;> rfl
    next => cases hr
  | _ => cases hr

lemma known_relay_iff {w : World} {i : ℕ} {u : Udp.World} {host : Text}
    (hi : w.relays[i]? = some u) :
    Known w host (.relay i) ↔ (u.relay.endpoints.lookup host).isSome = true := by
  constructor
  · rintro ⟨v, hv, hsome⟩
    rw [hi] at hv
    cases hv
    exact hsome
  · exact fun hsome => ⟨u, hi, hsome⟩

lemma looksUp_relay {w : World} {i : ℕ} {u : Udp.World} (hi : w.relays[i]? = some u)
    (act : Udp.Act) :
    looksUp w (.relay i act) = UdpCounts.looksUp { u with registry := w.registry } act := by
  rw [looksUp, hi, Option.bind_some]

/-- **A step of an attempt changes no row exactly if the host it looks up, if any, is known**,
unless it reaches its host. -/
theorem row_step_iff {w w' : World} {act : Act} {s : Slot} (h : step w act = some w')
    (hs : actor w act = some s) (hs' : attempting w s ≠ none ∨ attempting w' s ≠ none)
    (hr : reached w act = none) :
    w'.registry.row = w.registry.row ↔ ∀ host, looksUp w act = some host → Known w host s := by
  cases step_moves h with
  | connect host port =>
    cases hs
    refine (row_endpoint_iff w.registry host).trans ?_
    simp [looksUp, Known]
  | @call uri host port huri =>
    cases hs
    refine (row_endpoint_iff w.registry host).trans ?_
    simp [looksUp, huri, Known]
  | noAuthority huri => simp [looksUp, huri]
  | refused hi => simp [looksUp]
  | givenUp hi => simp [looksUp]
  | @opened i asker host port stats upstream hi =>
    rw [reached, attempting, hi] at hr
    cases hr
  | counts n c hi =>
    cases hs
    simp [attempting, hi, connectsTo] at hs'
  | closes hi => simp [looksUp]
  | associate => cases hs
  | abort hi => simp [looksUp]
  | @relay i u u' act hi hown hu =>
    cases hs
    have hsend : act ≠ .sends (.ok ()) := by
      rintro rfl
      -- an association with nothing to send is not at a send
      rcases hs' with hs' | hs'
      · exact hs' hr
      · refine hs' ((bind_set_self _ hi).trans ?_)
        cases Udp.step_moves hu <;> rfl
    rw [looksUp_relay hi]
    simp only [known_relay_iff hi]
    exact row_relay_iff hown hu hsend

lemma looksUp_of_fails {w w' : World} {act : Act} {s : Slot} (h : step w act = some w')
    (hf : Fails w act s) : looksUp w act = none := by
  have hafter := hf.after w' h
  have hs := hf.actor
  have hbefore := hf.before
  cases step_moves h with
  | connect | call =>
    cases hs
    simp [attempting] at hbefore
  | noAuthority huri => simp [looksUp, huri]
  | @relay i u u' act hi hown hu =>
    cases hs
    rw [looksUp_relay hi]
    have hpc : seeks u'.pc = none := (bind_set_self _ hi).symm.trans hafter
    rw [UdpCounts.looksUp_eq hu]
    split_ifs
    · cases hpc' : u'.pc with
      | sendOut => rw [hpc'] at hpc; cases hpc
      | sendBack => rw [hpc'] at hpc; cases hpc
      | _ => rfl
    · rfl
  | _ => rfl

lemma isSome_row_congr {r r' : Registry} (h : r'.endpoints = r.endpoints) (host : Text) :
    (r'.row host).isSome = true ↔ (r.row host).isSome = true := by
  rw [row_isSome, row_isSome, h]

lemma setUp_endpoints (r : Registry) (stats : Arc) (upstream : Upstream) :
    (setUp r stats upstream).2.endpoints = r.endpoints := by
  unfold setUp
  cases upstream.nodelay with
  | error err => rfl
  | ok _ => cases upstream.peer <;> rfl

lemma setUp_next (r : Registry) (stats : Arc) (upstream : Upstream) :
    (setUp r stats upstream).2.next = r.next := by
  unfold setUp
  cases upstream.nodelay with
  | error err => rfl
  | ok _ => cases upstream.peer <;> rfl

lemma setUp_error {r r' : Registry} {stats : Arc} {upstream : Upstream} {err : IoError}
    (h : setUp r stats upstream = (.error err, r')) : r' = r := by
  unfold setUp at h
  cases hn : upstream.nodelay with
  | error e =>
    rw [hn] at h
    cases h
    rfl
  | ok u =>
    rw [hn] at h
    cases h

lemma finish_endpoints (w : World) (i : ℕ) (host : Text) (stats : Arc) (upstream : Upstream) :
    (w.finish i host stats (.ok upstream)).registry.endpoints = w.registry.endpoints := by
  have hset := setUp_endpoints w.registry stats upstream
  rcases hs : setUp w.registry stats upstream with ⟨_ | _, registry⟩ <;>
  · rw [hs] at hset
    simp only [World.finish, hs]
    exact hset

lemma endpoints_of_looksUp_none {u u' : Udp.World} {act : Udp.Act} (hown : own act = true)
    (h : Udp.step u act = some u') (hnone : UdpCounts.looksUp u act = none) :
    u'.registry.endpoints = u.registry.endpoints := by
  by_cases hsend : act = .sends (.ok ())
  · subst hsend
    cases Udp.step_moves h <;> rfl
  · rw [registry_of_looksUp_none hown h hnone hsend]

/-- Where a lookup of an association lists a host, it is the one looked up, and was not cached. -/
lemma new_row_relay {u u' : Udp.World} {act : Udp.Act} {host host' : Text}
    (h : Udp.step u act = some u') (hl : UdpCounts.looksUp u act = some host')
    (hnone : u.registry.row host = none) (hsome : (u'.registry.row host).isSome = true) :
    host = host' ∧ u.relay.endpoints.lookup host' = none := by
  obtain ⟨v, hreg, hcache, hreg', -, -⟩ := UdpCounts.looksUp_some h hl
  rw [hreg'] at hsome
  rw [← hreg] at hnone
  rw [← hcache]
  cases hv : v.relay.endpoints.lookup host' with
  | some stats =>
    rw [UdpCounts.endpoint_of_cached v host' hv, hnone] at hsome
    cases hsome
  | none =>
    rw [UdpCounts.endpoint_of_new v host' hv, isSome_row_congr (update_endpoints _ _ _),
      row_endpoint] at hsome
    refine ⟨?_, rfl⟩
    by_contra hne
    rw [if_neg hne, hnone] at hsome
    cases hsome

lemma seeks_of_looksUp {u u' : Udp.World} {act : Udp.Act} {host : Text}
    (h : Udp.step u act = some u') (hl : UdpCounts.looksUp u act = some host) :
    seeks u'.pc = some host := by
  rw [UdpCounts.looksUp_eq h] at hl
  split_ifs at hl
  cases hpc : u'.pc with
  | sendOut | sendBack =>
    rw [hpc] at hl
    exact hl
  | _ =>
    rw [hpc] at hl
    cases hl

/-- A row is new only where an attempt has looked up a host that was not known. -/
lemma new_row {w w' : World} {act : Act} {host : Text} (h : step w act = some w')
    (hnone : w.registry.row host = none) (hsome : (w'.registry.row host).isSome = true) :
    ∃ s, actor w act = some s ∧ looksUp w act = some host ∧ attempting w' s = some host ∧
      ¬ Known w host s := by
  have hunknown : ∀ i, ¬ Known w host (.tcp i) := by
    intro i hknown
    rw [Known, hnone] at hknown
    cases hknown
  have hbegin : ∀ host', ((w.registry.endpoint host').2.row host).isSome = true → host = host' := by
    intro host' hrow
    rw [row_endpoint] at hrow
    by_contra hne
    rw [if_neg hne, hnone] at hrow
    cases hrow
  have hsame : w'.registry.endpoints = w.registry.endpoints → False := by
    intro heq
    rw [isSome_row_congr heq, hnone] at hsome
    cases hsome
  cases step_moves h with
  | connect host' port =>
    obtain rfl := hbegin host' hsome
    exact ⟨.tcp w.tcp.length, rfl, rfl, bind_append_self _, hunknown _⟩
  | @call uri host' port huri =>
    obtain rfl := hbegin host' hsome
    refine ⟨.tcp w.tcp.length, rfl, ?_, bind_append_self _, hunknown _⟩
    simp [looksUp, huri]
  | @opened i asker host' port stats upstream hi =>
    exact absurd (finish_endpoints w i host' stats upstream) hsame
  | @relay i u u' act hi hown hu =>
    refine ⟨.relay i, rfl, ?_⟩
    rw [looksUp_relay hi, known_relay_iff hi]
    cases hl : UdpCounts.looksUp { u with registry := w.registry } act with
    | none => exact absurd (endpoints_of_looksUp_none hown hu hl) hsame
    | some host' =>
      obtain ⟨rfl, hcache⟩ := new_row_relay hu hl hnone hsome
      refine ⟨rfl, (bind_set_self _ hi).trans (seeks_of_looksUp hu hl), ?_⟩
      exact Option.not_isSome_iff_eq_none.mpr hcache
  | _ => exact absurd rfl hsame

/-! ### Whole runs -/

section Runs

variable {acts as : List Act} {act : Act} {w w' : World} {s : Slot}

lemma ownSteps_snoc (hrun : run step World.start as = some w) (h : step w act = some w') :
    ownSteps s (as ++ [act]) =
      if attempting w' s = none then []
      else if actor w act = some s then ownSteps s as ++ [(w, act)] else ownSteps s as := by
  unfold ownSteps
  rw [trace_snoc act hrun, List.foldl_append, List.foldl_cons, List.foldl_nil, h, Option.bind_some]

lemma ownSteps_spec (hrun : run step World.start as = some w) :
    ∀ t ∈ ownSteps s as, ∃ v, step t.1 t.2 = some v ∧ actor t.1 t.2 = some s ∧
      attempting v s ≠ none ∧ reached t.1 t.2 = none := by
  refine run_induction (P := fun as _ => ∀ t ∈ ownSteps s as, ∃ v, step t.1 t.2 = some v ∧
    actor t.1 t.2 = some s ∧ attempting v s ≠ none ∧ reached t.1 t.2 = none)
    (fun _ ht => (List.not_mem_nil ht).elim) ?_ hrun
  intro as w act w' hrun ih h t ht
  rw [ownSteps_snoc hrun h] at ht
  split_ifs at ht with hnone hactor
  · cases ht
  · rcases List.mem_append.mp ht with ht | ht
    · exact ih t ht
    · obtain rfl := List.mem_singleton.mp ht
      refine ⟨w', h, hactor, hnone, ?_⟩
      cases hr : reached w act with
      | none => rfl
      | some host =>
        obtain ⟨s', hs', -, hend⟩ := reached_spec h hr
        rw [hactor] at hs'
        cases hs'
        exact absurd hend hnone
  · exact ih t ht

/-- Failing attempts leave no trace exactly if they are for known hosts. -/
lemma leavesNoTrace_iff : LeavesNoTrace acts ↔ FailsKnown acts := by
  constructor
  · intro hleaves as act w s hpre hrun hf t ht
    obtain ⟨v, hv, hactor, hgoes, hr⟩ := ownSteps_spec hrun t ht
    have hrow := hleaves as act w s hpre hrun hf t (List.mem_append_left _ ht) v hv
    exact (row_step_iff hv hactor (.inr hgoes) hr).mp hrow
  · intro hknown as act w s hpre hrun hf t ht w' hw'
    rcases List.mem_append.mp ht with ht | ht
    · obtain ⟨v, hv, hactor, hgoes, hr⟩ := ownSteps_spec hrun t ht
      rw [hv] at hw'
      cases hw'
      exact (row_step_iff hv hactor (.inr hgoes) hr).mpr (hknown as act w s hpre hrun hf t ht)
    · obtain rfl := List.mem_singleton.mp ht
      refine (row_step_iff hw' hf.actor (.inl hf.before) hf.reached).mpr fun host hl => ?_
      rw [looksUp_of_fails hw' hf] at hl
      cases hl

/-- Whether the host has been reached in a run. -/
def ReachedIn (as : List Act) (host : Text) : Prop :=
  ∃ t ∈ trace step World.start as, reached t.1 t.2 = some host

lemma ReachedIn.snoc {host : Text} (hrun : run step World.start as = some w)
    (h : ReachedIn as host) (act : Act) : ReachedIn (as ++ [act]) host := by
  obtain ⟨t, ht, hr⟩ := h
  exact ⟨t, (mem_trace_snoc hrun).mpr (.inl ht), hr⟩

lemma reached_or_fails {host : Text} (h : step w act = some w') (hgoes : attempting w s = some host)
    (hend : attempting w' s = none) : reached w act = some host ∨ Fails w act s := by
  have hactor : actor w act = some s := by
    by_contra hother
    rw [attempting_other h hother, hgoes] at hend
    cases hend
  cases hr : reached w act with
  | some host' =>
    obtain ⟨s', hs', hgoes', -⟩ := reached_spec h hr
    rw [hactor] at hs'
    cases hs'
    rw [hgoes] at hgoes'
    exact .inl hgoes'.symm
  | none =>
    refine .inr ⟨hactor, by rw [hgoes]; exact Option.some_ne_none _, fun v hv => ?_, hr⟩
    rw [h] at hv
    cases hv
    exact hend

/-- Every row is that of a host reached, or of one that an attempt in progress has looked up
although it was not known. -/
def Accounted (as : List Act) (w : World) : Prop :=
  ∀ host, (w.registry.row host).isSome = true → ReachedIn as host ∨
    ∃ s, attempting w s = some host ∧
      ∃ t ∈ ownSteps s as, looksUp t.1 t.2 = some host ∧ ¬ Known t.1 host s

/-- Rows stay accounted for in a step in which no attempt fails but one for known hosts. -/
lemma accounted_step (hrun : run step World.start as = some w) (h : step w act = some w')
    (hw : Accounted as w) (hknown : ∀ s, Fails w act s → ∀ t ∈ ownSteps s as, ∀ host,
      looksUp t.1 t.2 = some host → Known t.1 host s) : Accounted (as ++ [act]) w' := by
  intro host hrow
  have hsnoc : ∀ s, attempting w' s = some host → ownSteps s (as ++ [act]) =
      if actor w act = some s then ownSteps s as ++ [(w, act)] else ownSteps s as := by
    intro s hs
    rw [ownSteps_snoc hrun h, if_neg (by rw [hs]; exact Option.some_ne_none _)]
  cases hold : w.registry.row host with
  | none =>
    obtain ⟨s, hactor, hlook, hgoes, hunknown⟩ := new_row h hold hrow
    refine .inr ⟨s, hgoes, (w, act), ?_, hlook, hunknown⟩
    rw [hsnoc s hgoes, if_pos hactor]
    exact List.mem_append_right _ List.mem_cons_self
  | some block =>
    rcases hw host (by rw [hold]; rfl) with hreached | ⟨s, hgoes, t, ht, hlook, hunknown⟩
    · exact .inl (hreached.snoc hrun act)
    · rcases attempting_step h hgoes with hend | hgoes'
      · rcases reached_or_fails h hgoes hend with hr | hf
        · exact .inl ⟨(w, act), (mem_trace_snoc hrun).mpr (.inr rfl), hr⟩
        · exact absurd (hknown s hf t ht host hlook) hunknown
      · refine .inr ⟨s, hgoes', t, ?_, hlook, hunknown⟩
        rw [hsnoc s hgoes']
        split_ifs
        · exact List.mem_append_left _ ht
        · exact ht

lemma accounted_run (hknown : FailsKnown acts) (hpre : as <+: acts)
    (hrun : run step World.start as = some w) : Accounted as w := by
  have hinv : as <+: acts → Accounted as w := by
    refine run_induction (P := fun as w => as <+: acts → Accounted as w) ?_ ?_ hrun
    · intro _ host hrow
      cases hrow
    · intro as w act w' hrun ih h hpre
      refine accounted_step hrun h (ih ((List.prefix_append as [act]).trans hpre)) fun s hf => ?_
      exact hknown as act w s hpre hrun hf
  exact hinv hpre

/-- **What failing attempts leave behind.** In every run, failing attempts leave all rows as they
were and every row of a snapshot at rest is that of a host reached, exactly if every attempt that
fails was for a host known where it was looked up. -/
theorem rows_iff_failsKnown (acts : List Act) :
    (LeavesNoTrace acts ∧ RowsReached acts) ↔ FailsKnown acts := by
  refine ⟨fun h => leavesNoTrace_iff.mp h.1, fun hknown => ⟨leavesNoTrace_iff.mpr hknown, ?_⟩⟩
  intro as w hpre hrun hrest listing hl e he
  obtain ⟨block, hblock, -⟩ := (mem_snapshotOf w.registry none hl e).mp he
  have hrow : (w.registry.row e.domain).isSome = true := by
    rw [hblock]
    rfl
  rcases accounted_run hknown hpre hrun e.domain hrow with hreached | ⟨s, hgoes, -⟩
  · exact hreached
  · rw [hrest s] at hgoes
    cases hgoes

end Runs

/-! ### A tunnel on its own -/

section Tunnel

variable {out : Outside} {host : Text} {port : UInt16}

lemma registry_answer (x : Lib.Tcp.TcpTask IoError Unit) (served : Served) (conn : Conn) :
    ((do (onClient x).mapErr Failure.io; pure served : Lib.Tcp.Task Conn Failure Served)
      conn).2.registry = conn.registry := by
  rw [Lib.Tcp.Task.bind_apply, Lib.Tcp.Task.mapErr, onClient_apply]
  cases (x conn.client).1 <;> rfl

lemma registry_refuse (x : Lib.Tcp.TcpTask IoError Unit) (err : Failure) (conn : Conn) :
    ((do let _ ← Lib.Tcp.Task.result (onClient x); .fail err : Lib.Tcp.Task Conn Failure Served)
      conn).2.registry = conn.registry := by
  rw [Lib.Tcp.Task.bind_apply, result_onClient]
  cases (x conn.client).1 <;> rfl

lemma registry_opened {upstream : Upstream} (h : out.connect host port = .ok upstream)
    (leftover : List UInt8) (handshake : Handshake) (conn : Conn) :
    (connectAndSplice out host port leftover handshake conn).2.registry =
      (setUp (conn.registry.endpoint host).2 (conn.registry.endpoint host).1 upstream).2 := by
  obtain ⟨nodelay, peer⟩ := upstream
  unfold connectAndSplice
  rw [h]
  cases nodelay with
  | error err => rfl
  | ok _ => cases peer <;> exact registry_answer handshake.accept _ _

lemma registry_refused {err : IoError} (h : out.connect host port = .err err)
    (leftover : List UInt8) (handshake : Handshake) (conn : Conn) :
    (connectAndSplice out host port leftover handshake conn).2.registry =
      (conn.registry.endpoint host).2 := by
  rw [connectAndSplice_of_err h]
  exact registry_refuse handshake.refuse _ _

/-- **The steps of a tunnel are those of its task**: with no other step between them they leave
the registry as it does. -/
theorem tunnel_steps {w : World} {conn : Conn} (hreg : w.registry = conn.registry)
    {result : Except IoError Upstream}
    (h : (out.connect host port).settled (δ := Failure) = .ok result)
    (leftover : List UInt8) (handshake : Handshake) :
    (run step w [.connect host port, .connects w.tcp.length result]).map World.registry =
      some (connectAndSplice out host port leftover handshake conn).2.registry := by
  have hslot : (w.begin .tunnel host port).tcp[w.tcp.length]? =
      some (.connecting .tunnel host port (w.registry.endpoint host).1) :=
    List.getElem?_concat_length
  have hrun : run step w [.connect host port, .connects w.tcp.length result] =
      some ((w.begin .tunnel host port).finish w.tcp.length host (w.registry.endpoint host).1
        result) := by
    rw [run_cons, step, Option.bind_some, run_cons, step, hslot]
    rfl
  rw [hrun, Option.map_some]
  cases hc : out.connect host port with
  | blocked =>
    rw [hc] at h
    cases h
  | err err =>
    rw [hc] at h
    cases h
    rw [registry_refused hc, ← hreg]
    rfl
  | ok upstream =>
    rw [hc] at h
    cases h
    rw [registry_opened hc, ← hreg]
    rcases hs : setUp (w.registry.endpoint host).2 (w.registry.endpoint host).1 upstream with
      ⟨_ | _, registry⟩ <;>
    simp only [World.finish, World.begin, hs]

end Tunnel

/-! ### A connect that is refused -/

def refusal : IoError := ⟨.connectionRefused, "Connection refused"⟩

/-- A tunnel is asked for, and its host refuses the connection. -/
def refusedTunnel : List Act := [.connect "a".toList 443, .connects 0 (.error refusal)]

/-- The host is left with a row although it was never reached. -/
theorem refusedTunnel_row : ∃ w, run step World.start refusedTunnel = some w ∧
    (∀ s, attempting w s = none) ∧
    w.registry.snapshot none = [⟨"a".toList, none, 0, 0, 0, true⟩] ∧
    ¬ LeavesNoTrace refusedTunnel ∧ ¬ RowsReached refusedTunnel := by
  obtain ⟨w, hw⟩ : ∃ w, run step World.start refusedTunnel = some w := ⟨_, rfl⟩
  have hrest : ∀ s, attempting w s = none := by
    cases hw
    rintro ((_ | i) | i) <;> rfl
  have hrows : w.registry.snapshot none = [⟨"a".toList, none, 0, 0, 0, true⟩] := by
    have hmap : (run step World.start refusedTunnel).map (fun w => w.registry.snapshot none) =
        some [⟨"a".toList, none, 0, 0, 0, true⟩] := by
      decide +kernel
    rw [hw] at hmap
    exact Option.some.inj hmap
  refine ⟨w, hw, hrest, hrows, fun hleaves => ?_, fun hreached => ?_⟩
  · have hf : Fails (World.start.begin .tunnel "a".toList 443) (.connects 0 (.error refusal)) (.tcp 0) :=
      ⟨rfl, nofun, fun _ h => by cases h; rfl, rfl⟩
    have hknown := leavesNoTrace_iff.mp hleaves [.connect "a".toList 443] _ _ _ List.prefix_rfl rfl hf
      (World.start, .connect "a".toList 443) List.mem_cons_self "a".toList rfl
    cases hknown
  · have hmem : ⟨"a".toList, none, 0, 0, 0, true⟩ ∈ w.registry.snapshot none := by
      rw [hrows]
      exact List.mem_cons_self
    obtain ⟨t, ht, hr⟩ := hreached _ w List.prefix_rfl hw hrest _
      (HashMap.lists_toList w.registry.endpoints) _ hmem
    have hnone : ∀ t ∈ trace step World.start refusedTunnel, reached t.1 t.2 = none := by
      intro t ht
      rcases List.mem_cons.mp ht with rfl | ht
      · rfl
      · obtain rfl := List.mem_singleton.mp ht
        rfl
    rw [hnone t ht] at hr
    cases hr

end Wiretally.Attempts
