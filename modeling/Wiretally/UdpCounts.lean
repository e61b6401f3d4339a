import Wiretally.SocksDatagram
import Wiretally.Udp

/-!
What a UDP association relays and counts, whenever it is cut off.

Its private cache of counters agrees with the registry other tasks change under it, as long as
no host is renamed: a host cached is listed with the same block, and a send under way holds the
block of its host. So what the relay adds reaches the row of the host it is meant for, and each
row holds what it held at the start, what others added to it and what the relay did.
-/

namespace Wiretally.UdpCounts

open Wiretally.Lib Wiretally.Lib.AsyncIo Wiretally.Lib.Run Wiretally.Net Wiretally.Stats
open Wiretally.Stats.EndpointStats Wiretally.Registry Wiretally.Socks Wiretally.Udp
open Wiretally.SocksDatagram

/-! ### Looking a host up -/

section Endpoint

variable (w : World) (host : Text)

lemma endpoint_of_cached {stats : Arc} (h : w.relay.endpoints.lookup host = some stats) :
    w.endpoint host = (stats, w) := by
  unfold World.endpoint
  rw [h]

lemma endpoint_of_new (h : w.relay.endpoints.lookup host = none) :
    w.endpoint host = ((w.registry.endpoint host).1, { w with
      registry := (w.registry.endpoint host).2.update (w.registry.endpoint host).1 addConnection
      relay := { w.relay with
        endpoints := w.relay.endpoints.insert host (w.registry.endpoint host).1 } }) := by
  unfold World.endpoint
  rw [h]

@[simp] lemma endpoint_resolved : (w.endpoint host).2.relay.resolved = w.relay.resolved := by
  unfold World.endpoint
  cases w.relay.endpoints.lookup host <;> rfl

@[simp] lemma endpoint_names : (w.endpoint host).2.relay.names = w.relay.names := by
  unfold World.endpoint
  cases w.relay.endpoints.lookup host <;> rfl

@[simp] lemma endpoint_clientAddr : (w.endpoint host).2.relay.clientAddr = w.relay.clientAddr := by
  unfold World.endpoint
  cases w.relay.endpoints.lookup host <;> rfl

lemma cached_endpoint (k : Text) : (w.endpoint host).2.relay.endpoints.lookup k =
    if k = host then some (w.endpoint host).1 else w.relay.endpoints.lookup k := by
  cases h : w.relay.endpoints.lookup host with
  | some stats =>
    rw [endpoint_of_cached w host h]
    split_ifs with hk
    · rw [hk, h]
    · rfl
  | none =>
    rw [endpoint_of_new w host h]
    exact HashMap.lookup_insert_eq_ite _ _ _ _

lemma listed_endpoint {k : Text} {a : Arc} (hk : w.registry.endpoints.lookup k = some a) :
    (w.endpoint host).2.registry.endpoints.lookup k = some a := by
  cases h : w.relay.endpoints.lookup host with
  | some stats => rwa [endpoint_of_cached w host h]
  | none =>
    rw [endpoint_of_new w host h, update_endpoints]
    exact lookup_endpoint_of_some w.registry host hk

lemma value_endpoint (k : Text) (c : Counter) :
    value (w.endpoint host).2.registry k c = value w.registry k c +
      if k = host ∧ c = .connections ∧ w.relay.endpoints.lookup host = none then 1 else 0 := by
  cases h : w.relay.endpoints.lookup host with
  | some stats =>
    rw [endpoint_of_cached w host h]
    simp
  | none =>
    have hlist := lookup_endpoint w.registry host host
    rw [if_pos rfl] at hlist
    have hblock : (w.registry.endpoint host).2.endpoints.lookup k =
        some (w.registry.endpoint host).1 ↔ k = host :=
      ⟨fun hk => (w.registry.endpoint host).2.distinct _ _ _ hk hlist, fun hk => hk ▸ hlist⟩
    rw [endpoint_of_new w host h]
    change value ((w.registry.endpoint host).2.update _ (·.fetchAdd 1 .connections)) k c = _
    rw [value_fetchAdd, Registry.value_endpoint]
    simp [hblock]

end Endpoint

/-! ### The caches -/

/-- The host and the block a send under way is for. -/
def Pc.holds : Pc → Option (Text × Arc)
  | .sendOut datagram _ stats => some (datagram.host, stats)
  | .sendBack _ _ _ host stats => some (host, stats)
  | _ => none

/-- The caches agree with the registry and with what the task is suspended on. -/
structure Coherent (w : World) : Prop where
  cached : ∀ host a, w.relay.endpoints.lookup host = some a →
    w.registry.endpoints.lookup host = some a
  held : ∀ host a, Pc.holds w.pc = some (host, a) → w.relay.endpoints.lookup host = some a
  target : ∀ datagram target stats, w.pc = .sendOut datagram target stats →
    w.relay.resolved.lookup (datagram.host, datagram.port) = some target
  pending : ∀ datagram, w.pc = .lookupHost datagram →
    w.relay.resolved.lookup (datagram.host, datagram.port) = none

lemma coherent_bind (reg : Registry) : Coherent (World.bind reg) where
  cached host a h := by simp [World.bind, Relay.new] at h
  held host a h := by cases h
  target datagram target stats h := by cases h
  pending datagram h := by cases h

/-- A step that leaves the caches alone and ends in no wait for an answer. -/
lemma Coherent.rest {w w' : World} (h : Coherent w)
    (hreg : ∀ host a, w.registry.endpoints.lookup host = some a →
      w'.registry.endpoints.lookup host = some a)
    (hcache : w'.relay.endpoints = w.relay.endpoints)
    (hpc : w'.pc = .select ∨ w'.pc = .returned) : Coherent w' where
  cached host a hl := hreg host a (h.cached host a (hcache ▸ hl))
  held host a hh := by rcases hpc with hpc | hpc <;> rw [hpc] at hh <;> cases hh
  target datagram target stats hs := by rcases hpc with hpc | hpc <;> rw [hpc] at hs <;> cases hs
  pending datagram hs := by rcases hpc with hpc | hpc <;> rw [hpc] at hs <;> cases hs

/-- A step of another task. -/
lemma Coherent.other {w : World} (h : Coherent w) {reg : Registry}
    (hreg : ∀ host a, w.registry.endpoints.lookup host = some a →
      reg.endpoints.lookup host = some a) : Coherent { w with registry := reg } where
  cached host a hl := hreg host a (h.cached host a hl)
  held := h.held
  target := h.target
  pending := h.pending

lemma cached_of_endpoint {w : World} (host : Text)
    (h : ∀ host a, w.relay.endpoints.lookup host = some a →
      w.registry.endpoints.lookup host = some a) (k : Text) (a : Arc)
    (hk : (w.endpoint host).2.relay.endpoints.lookup k = some a) :
    (w.endpoint host).2.registry.endpoints.lookup k = some a := by
  rw [cached_endpoint] at hk
  split_ifs at hk with hkh
  · subst hkh
    cases hl : w.relay.endpoints.lookup k with
    | some stats =>
      rw [endpoint_of_cached w k hl] at hk ⊢
      cases hk
      exact h k _ hl
    | none =>
      rw [endpoint_of_new w k hl] at hk ⊢
      rw [update_endpoints, lookup_endpoint, if_pos rfl]
      exact hk
  · exact listed_endpoint w host (h k a hk)

lemma coherent_sendTo {w : World} {datagram : Datagram} {target : SocketAddr}
    (h : ∀ host a, w.relay.endpoints.lookup host = some a →
      w.registry.endpoints.lookup host = some a)
    (htarget : w.relay.resolved.lookup (datagram.host, datagram.port) = some target) :
    Coherent (w.sendTo datagram target) where
  cached := cached_of_endpoint datagram.host h
  held host a hh := by
    cases hh
    exact (cached_endpoint w datagram.host datagram.host).trans (if_pos rfl)
  target d t stats hs := by
    cases hs
    exact (congrArg _ (endpoint_resolved w datagram.host)).trans htarget
  pending d hs := by cases hs

lemma coherent_reply {w : World} (h : Coherent w) (source : SocketAddr) (payload : List UInt8)
    (clientAddr : SocketAddr) : Coherent (w.reply source payload clientAddr) where
  cached := cached_of_endpoint (w.replyHost source.ip) h.cached
  held host a hh := by
    cases hh
    exact (cached_endpoint w _ _).trans (if_pos rfl)
  target d t stats hs := by cases hs
  pending d hs := by cases hs

/-- **Every step keeps the caches coherent.** -/
theorem coherent_step {w w' : World} {act : Act} (h : Coherent w) (hstep : step w act = some w') :
    Coherent w' := by
  cases step_moves hstep with
  | malformed => exact h.rest (fun _ _ hl => hl) rfl (.inl rfl)
  | unknown hpc hparse hcache =>
    refine ⟨h.cached, ?_, ?_, ?_⟩
    · intro host a hh
      cases hh
    · intro d target stats hs
      cases hs
    · intro d hs
      cases hs
      exact hcache
  | known hpc hparse hcache => exact coherent_sendTo h.cached hcache
  | resolved hpc =>
    exact coherent_sendTo h.cached (AList.lookup_insert _)
  | unresolved => exact h.rest (fun _ _ hl => hl) rfl (.inl rfl)
  | sentOut => exact h.rest (fun _ _ hl => hl) rfl (.inl rfl)
  | refused => exact h.rest (fun _ _ hl => hl) rfl (.inl rfl)
  | orphan => exact h.rest (fun _ _ hl => hl) rfl (.inl rfl)
  | @reply packet addr clientAddr hpc hclient =>
    exact coherent_reply (w := w.answered packet) ⟨h.cached, h.held, h.target, h.pending⟩ _ _ _
  | sentBack => exact h.rest (fun _ _ hl => hl) rfl (.inl rfl)
  | returned => exact h.rest (fun _ _ hl => hl) rfl (.inr rfl)
  | endpoint host => exact h.other fun k a hk => lookup_endpoint_of_some w.registry host hk
  | fetchAdd => exact h.other fun _ _ hl => hl
  | observeIp => exact h.other fun _ _ hl => hl

theorem coherent_run {w w' : World} {acts : List Act} (h : Coherent w)
    (hrun : run step w acts = some w') : Coherent w' :=
  run_inv (fun _ _ _ hs hst => coherent_step hs hst) h hrun

/-! ### One destination, one address -/

/-- A destination keeps the address it was resolved to. -/
lemma resolved_step {w w' : World} {act : Act} {key : Text × UInt16} {addr : SocketAddr}
    (h : Coherent w) (hstep : step w act = some w')
    (hkey : w.relay.resolved.lookup key = some addr) :
    w'.relay.resolved.lookup key = some addr := by
  cases step_moves hstep with
  | known => exact (congrArg _ (endpoint_resolved _ _)).trans hkey
  | @resolved datagram target rest hpc =>
    have hne : key ≠ (datagram.host, datagram.port) := by
      rintro rfl
      rw [h.pending datagram hpc] at hkey
      cases hkey
    refine (congrArg _ (endpoint_resolved _ _)).trans ?_
    exact (AList.lookup_insert_ne hne).trans hkey
  | reply => exact (congrArg _ (endpoint_resolved _ _)).trans hkey
  | _ => exact hkey

theorem same_target {w w' : World} {acts : List Act} (h : Coherent w)
    (hrun : run step w acts = some w') {datagram datagram' : Datagram} {target target' : SocketAddr}
    {stats stats' : Arc} (hpc : w.pc = .sendOut datagram target stats)
    (hpc' : w'.pc = .sendOut datagram' target' stats') (hhost : datagram'.host = datagram.host)
    (hport : datagram'.port = datagram.port) : target' = target := by
  have hkeep : Coherent w' ∧
      w'.relay.resolved.lookup (datagram.host, datagram.port) = some target := by
    refine run_inv (I := fun v : World => Coherent v ∧
      v.relay.resolved.lookup (datagram.host, datagram.port) = some target) ?_
      ⟨h, h.target _ _ _ hpc⟩ hrun
    rintro v act v' ⟨hv, hl⟩ hst
    exact ⟨coherent_step hv hst, resolved_step hv hst hl⟩
  have htarget := hkeep.1.target _ _ _ hpc'
  rw [hhost, hport, hkeep.2] at htarget
  exact (Option.some.inj htarget).symm

/-! ### What is handed to the sockets -/

inductive Received
  | client (packet : Packet)
  | upstream (packet : Packet) (source : SocketAddr)

def received : Act → Option Received
  | .recvClient packet _ => some (.client packet)
  | .recvUpstream packet source => some (.upstream packet source)
  | _ => none

/-- The datagram received last. -/
def lastReceived (acts : List Act) : Option Received :=
  acts.foldl (fun last act => (received act).or last) none

lemma lastReceived_snoc (acts : List Act) (act : Act) :
    lastReceived (acts ++ [act]) = (received act).or (lastReceived acts) := by
  simp [lastReceived, List.foldl_append]

/-- What a wait is about comes from the datagram received last. -/
def Origin (last : Option Received) (w : World) : Prop :=
  match w.pc with
  | .lookupHost datagram | .sendOut datagram _ _ =>
    ∃ packet, last = some (.client packet) ∧ parseDatagram packet.bytes = .ok datagram
  | .sendBack source payload _ _ _ =>
    ∃ packet, last = some (.upstream packet source) ∧ payload = packet.bytes ∧
      w.scratch = encodeDatagram source packet.bytes []
  | .select | .returned => True

lemma origin_step {last : Option Received} {w w' : World} {act : Act} (h : Origin last w)
    (hstep : step w act = some w') : Origin ((received act).or last) w' := by
  cases step_moves hstep with
  | unknown hpc hparse => exact ⟨_, rfl, hparse⟩
  | known hpc hparse => exact ⟨_, rfl, hparse⟩
  | resolved hpc =>
    unfold Origin at h
    rw [hpc] at h
    exact h
  | reply => exact ⟨_, rfl, rfl, rfl⟩
  | endpoint => exact h
  | fetchAdd => exact h
  | observeIp => exact h
  | _ => trivial

lemma origin_run {reg : Registry} {acts : List Act} {w : World}
    (h : run step (World.bind reg) acts = some w) : Origin (lastReceived acts) w := by
  have hinit : Origin (lastReceived []) (World.bind reg) := trivial
  refine run_induction (P := fun acts w => Origin (lastReceived acts) w) hinit ?_ h
  intro acts v act v' hrun hv hst
  rw [lastReceived_snoc]
  exact origin_step hv hst

/-- What the upstream socket has been handed, and where to send it. -/
def handedOut (w : World) : Option (List UInt8 × SocketAddr) :=
  match w.pc with
  | .sendOut datagram target _ => some (datagram.payload, target)
  | _ => none

/-- What the socket facing the client has been handed, and where to send it. -/
def handedBack (w : World) : Option (List UInt8 × SocketAddr) :=
  match w.pc with
  | .sendBack _ _ clientAddr _ _ => some (w.scratch, clientAddr)
  | _ => none

lemma handedOut_of_origin {last : Option Received} {w : World} (h : Origin last w)
    {bytes : List UInt8} {target : SocketAddr} (hw : handedOut w = some (bytes, target)) :
    ∃ packet header datagram, last = some (.client packet) ∧
      parseDatagram packet.bytes = .ok datagram ∧
      DatagramBytes packet.bytes header datagram ∧ bytes = packet.bytes.drop header := by
  unfold handedOut at hw
  unfold Origin at h
  cases hpc : w.pc with
  | sendOut datagram target' stats =>
    rw [hpc] at hw h
    cases hw
    obtain ⟨packet, hlast, hparse⟩ := h
    obtain ⟨header, hbytes⟩ := (parseDatagram_ok_iff packet.bytes datagram).mp hparse
    exact ⟨packet, header, datagram, hlast, hparse, hbytes, hbytes.split.2⟩
  | _ =>
    rw [hpc] at hw
    cases hw

lemma handedBack_of_origin {last : Option Received} {w : World} (h : Origin last w)
    {bytes : List UInt8} {addr : SocketAddr} (hw : handedBack w = some (bytes, addr)) :
    ∃ packet source, last = some (.upstream packet source) ∧
      bytes = [0, 0, 0] ++ block source ++ packet.bytes ∧
      parseDatagram bytes = .ok ⟨source.ip.toText, source.port, packet.bytes⟩ := by
  unfold handedBack at hw
  unfold Origin at h
  cases hpc : w.pc with
  | sendBack source payload clientAddr host stats =>
    rw [hpc] at hw h
    cases hw
    obtain ⟨packet, hlast, -, hscratch⟩ := h
    have hbytes := hscratch.trans (encodeDatagram_eq source packet.bytes [])
    refine ⟨packet, source, hlast, hbytes, ?_⟩
    rw [hbytes]
    exact parseDatagram_of_bytes (datagramBytes_block source packet.bytes)
  | _ =>
    rw [hpc] at hw
    cases hw

/-! ### What is counted -/

/-- What another task's step adds to a counter of `host`. -/
def others (host : Text) (c : Counter) (w : World) : Act → UInt64
  | .fetchAdd a n d => if w.registry.endpoints.lookup host = some a ∧ c = d then n else 0
  | _ => 0

/-- The size of a datagram for `host` that the upstream socket has taken. -/
def outward (host : Text) (w : World) (act : Act) : UInt64 :=
  match w.pc, act with
  | .sendOut datagram _ _, .sends (.ok ()) =>
    if datagram.host = host then .ofNat datagram.payload.length else 0
  | _, _ => 0

/-- The length of a reply credited to `host` that the client's socket has taken. -/
def backward (host : Text) (w : World) (act : Act) : UInt64 :=
  match w.pc, act with
  | .sendBack _ payload _ host' _, .sends (.ok ()) =>
    if host' = host then .ofNat payload.length else 0
  | _, _ => 0

/-- The host whose counters a step looks up: it does so right before it sends. -/
def looksUp (w : World) (act : Act) : Option Text :=
  (step w act).bind fun w' =>
    if Pc.holds w.pc = none then (Pc.holds w'.pc).map Prod.fst else none

/-- A connection for a host looked up for the first time. -/
def connects (host : Text) (w : World) (act : Act) : UInt64 :=
  if looksUp w act = some host ∧ w.relay.endpoints.lookup host = none then 1 else 0

/-- What the relay's own step adds to a counter of `host`. -/
def relays (host : Text) : Counter → World → Act → UInt64
  | .egress => outward host
  | .ingress => backward host
  | .connections => connects host

/-- What the steps of an association add up to. -/
def total (d : World → Act → UInt64) (reg : Registry) (acts : List Act) : UInt64 :=
  tally step d (World.bind reg) acts

def lookedUp (host : Text) (reg : Registry) (acts : List Act) : Bool :=
  (trace step (World.bind reg) acts).any fun t => looksUp t.1 t.2 == some host

lemma looksUp_eq {w w' : World} {act : Act} (h : step w act = some w') :
    looksUp w act = if Pc.holds w.pc = none then (Pc.holds w'.pc).map Prod.fst else none := by
  unfold looksUp
  rw [h, Option.bind_some]

lemma looksUp_some {w w' : World} {act : Act} {host : Text} (hstep : step w act = some w')
    (h : looksUp w act = some host) :
    ∃ v : World, v.registry = w.registry ∧ v.relay.endpoints = w.relay.endpoints ∧
      w'.registry = (v.endpoint host).2.registry ∧
      w'.relay.endpoints = (v.endpoint host).2.relay.endpoints ∧
      ∀ k c, others k c w act = 0 := by
  rw [looksUp_eq hstep] at h
  split_ifs at h with hnone
  cases step_moves hstep with
  | @known packet addr datagram target hpc hparse hcache =>
    cases h
    exact ⟨w.heard packet addr, rfl, rfl, rfl, rfl, fun _ _ => rfl⟩
  | @resolved datagram addr rest hpc =>
    cases h
    exact ⟨w.learned datagram addr, rfl, rfl, rfl, rfl, fun _ _ => rfl⟩
  | @reply packet addr clientAddr hpc hclient =>
    cases h
    exact ⟨w.answered packet, rfl, rfl, rfl, rfl, fun _ _ => rfl⟩
  | endpoint =>
    rw [hnone] at h
    cases h
  | fetchAdd =>
    rw [hnone] at h
    cases h
  | observeIp =>
    rw [hnone] at h
    cases h
  | _ => cases h

lemma looksUp_none {w w' : World} {act : Act} (hstep : step w act = some w')
    (h : looksUp w act = none) : w'.relay.endpoints = w.relay.endpoints := by
  rw [looksUp_eq hstep] at h
  cases step_moves hstep with
  | known hpc =>
    rw [hpc] at h
    cases h
  | resolved hpc =>
    rw [hpc] at h
    cases h
  | reply hpc =>
    rw [hpc] at h
    cases h
  | _ => rfl

lemma idle_of_looksUp {w w' : World} {act : Act} {host : Text} (hstep : step w act = some w')
    (h : looksUp w act = some host) : Pc.holds w.pc = none := by
  rw [looksUp_eq hstep] at h
  split_ifs at h with hnone
  exact hnone

lemma credits_of_idle {w : World} (h : Pc.holds w.pc = none) (host : Text) (act : Act) :
    outward host w act = 0 ∧ backward host w act = 0 := by
  unfold outward backward
  cases hpc : w.pc with
  | sendOut => rw [hpc] at h; cases h
  | sendBack => rw [hpc] at h; cases h
  | _ => exact ⟨rfl, rfl⟩

lemma credits_of_not_sent {act : Act} (h : act ≠ .sends (.ok ())) (w : World) (host : Text) :
    outward host w act = 0 ∧ backward host w act = 0 := by
  unfold outward backward
  constructor
  · split
    next => exact absurd rfl h
    next => rfl
  · split
    next => exact absurd rfl h
    next => rfl

lemma relays_of_credits {host : Text} {w : World} {act : Act}
    (h : outward host w act = 0 ∧ backward host w act = 0) (c : Counter) :
    relays host c w act = if c = .connections then connects host w act else 0 := by
  cases c with
  | ingress => exact h.2
  | egress => exact h.1
  | connections => rfl

/-- The block a send holds is the one listed for its host. -/
lemma Coherent.block {w : World} (h : Coherent w) {host : Text} {stats : Arc}
    (hh : Pc.holds w.pc = some (host, stats)) (k : Text) :
    w.registry.endpoints.lookup k = some stats ↔ host = k := by
  have hlist := h.cached _ _ (h.held _ _ hh)
  constructor
  · exact fun hk => w.registry.distinct _ _ _ hlist hk
  · rintro rfl
    exact hlist

lemma value_of_looksUp {w w' : World} {act : Act} {k : Text} (hstep : step w act = some w')
    (h : looksUp w act = some k) (host : Text) (c : Counter) :
    value w'.registry host c =
      value w.registry host c + (others host c w act + relays host c w act) := by
  obtain ⟨v, hreg, hcache, hreg', -, hothers⟩ := looksUp_some hstep h
  rw [hreg', value_endpoint, hreg, hcache, hothers,
    relays_of_credits (credits_of_idle (idle_of_looksUp hstep h) host act)]
  unfold connects
  rw [h]
  by_cases hk : k = host
  · subst hk
    by_cases hc : c = .connections <;> simp [hc]
  · have hk' : ¬ host = k := fun he => hk he.symm
    simp [hk, hk']

/-- **What one step adds to a row**: what another task adds through the block listed, or what
the relay's own step does. -/
theorem value_step {w w' : World} {act : Act} (h : Coherent w) (hstep : step w act = some w')
    (host : Text) (c : Counter) :
    value w'.registry host c =
      value w.registry host c + (others host c w act + relays host c w act) := by
  cases hl : looksUp w act with
  | some k => exact value_of_looksUp hstep hl host c
  | none =>
    have hconnects : connects host w act = 0 := by
      unfold connects
      rw [hl]
      simp
    have hquiet : act ≠ .sends (.ok ()) → relays host c w act = 0 := by
      intro hact
      rw [relays_of_credits (credits_of_not_sent hact w host), hconnects, ite_self]
    cases step_moves hstep with
    | malformed => simp [others, hquiet, World.heard]
    | unknown => simp [others, hquiet, World.heard]
    | unresolved => simp [others, hquiet]
    | refused => simp [others, hquiet]
    | orphan => simp [others, hquiet, World.answered]
    | returned => simp [others, hquiet]
    | endpoint => simp [others, hquiet, Registry.value_endpoint]
    | observeIp => simp [others, hquiet, value_observeIp]
    | fetchAdd n d ha => simp [others, hquiet, value_fetchAdd]
    | @sentOut datagram target stats hpc =>
      have hblock := h.block (show Pc.holds w.pc = some (datagram.host, stats) by rw [hpc]; rfl) host
      simp only [World.sentOut, value_observeIp, addEgress, value_fetchAdd, hblock]
      cases c <;> simp [others, relays, outward, backward, hpc, hconnects]
    | @sentBack source payload clientAddr host' stats hpc =>
      have hblock := h.block (show Pc.holds w.pc = some (host', stats) by rw [hpc]; rfl) host
      simp only [World.sentBack, addIngress, value_fetchAdd, hblock]
      cases c <;> simp [others, relays, outward, backward, hpc, hconnects]
    | known hpc =>
      rw [looksUp_eq hstep, hpc] at hl
      cases hl
    | resolved hpc =>
      rw [looksUp_eq hstep, hpc] at hl
      cases hl
    | reply hpc =>
      rw [looksUp_eq hstep, hpc] at hl
      cases hl

/-! ### Whole runs -/

section Runs

variable {reg : Registry} {acts : List Act} {w : World}

lemma total_snoc (d : World → Act → UInt64) (h : run step (World.bind reg) acts = some w)
    (act : Act) : total d reg (acts ++ [act]) = total d reg acts + d w act :=
  tally_snoc d act h

lemma lookedUp_snoc (host : Text) (h : run step (World.bind reg) acts = some w) (act : Act) :
    lookedUp host reg (acts ++ [act]) = (lookedUp host reg acts || looksUp w act == some host) := by
  simp [lookedUp, trace_snoc act h]

/-- **What a row holds.** -/
theorem value_run (h : run step (World.bind reg) acts = some w) (host : Text) (c : Counter) :
    value w.registry host c =
      value reg host c + (total (others host c) reg acts + total (relays host c) reg acts) := by
  have hrun := run_tally (I := Coherent) (f := fun w => value w.registry host c)
    (d := fun w act => others host c w act + relays host c w act)
    (fun _ _ _ hs hst => coherent_step hs hst) (fun _ _ _ hs hst => value_step hs hst host c)
    (coherent_bind reg) h
  rw [hrun, tally_add]
  rfl

theorem connects_run (h : run step (World.bind reg) acts = some w) (host : Text) :
    ((w.relay.endpoints.lookup host).isSome = lookedUp host reg acts) ∧
      total (connects host) reg acts = if lookedUp host reg acts = true then 1 else 0 := by
  refine run_induction (P := fun acts w =>
    ((w.relay.endpoints.lookup host).isSome = lookedUp host reg acts) ∧
      total (connects host) reg acts = if lookedUp host reg acts = true then 1 else 0) ?_ ?_ h
  · exact ⟨rfl, rfl⟩
  · intro acts v act v' hrun ⟨hcached, htotal⟩ hst
    rw [total_snoc _ hrun, lookedUp_snoc _ hrun, ← hcached, htotal, ← hcached]
    unfold connects
    cases hl : looksUp v act with
    | none =>
      rw [looksUp_none hst hl]
      simp
    | some k =>
      obtain ⟨u, -, hcache, -, hcache', -⟩ := looksUp_some hst hl
      rw [hcache', cached_endpoint, hcache]
      by_cases hk : k = host
      · subst hk
        cases hv : v.relay.endpoints.lookup k <;> simp
      · have hk' : ¬ host = k := fun he => hk he.symm
        simp [hk, hk']

/-- **What an association relays and counts.** Wherever it is cut off: the upstream socket was
handed what follows the header of the client's last datagram, and the client's socket the
header that names the source of the last reply and then that reply; what it added to the row
of a host is what the sockets took for that host, and one connection if the host was ever
looked up; and a destination has one address from then on. -/
theorem association_spec (h : run step (World.bind reg) acts = some w) :
    (∀ bytes target, handedOut w = some (bytes, target) → ∃ packet header datagram,
      lastReceived acts = some (.client packet) ∧ parseDatagram packet.bytes = .ok datagram ∧
        DatagramBytes packet.bytes header datagram ∧ bytes = packet.bytes.drop header) ∧
    (∀ bytes addr, handedBack w = some (bytes, addr) → ∃ packet source,
      lastReceived acts = some (.upstream packet source) ∧
        bytes = [0, 0, 0] ++ block source ++ packet.bytes ∧
        parseDatagram bytes = .ok ⟨source.ip.toText, source.port, packet.bytes⟩) ∧
    (∀ host, value w.registry host .egress =
      value reg host .egress + (total (others host .egress) reg acts + total (outward host) reg acts)) ∧
    (∀ host, value w.registry host .ingress =
      value reg host .ingress + (total (others host .ingress) reg acts + total (backward host) reg acts)) ∧
    (∀ host, value w.registry host .connections =
      value reg host .connections + (total (others host .connections) reg acts +
        if lookedUp host reg acts = true then 1 else 0)) ∧
    ∀ more w' datagram datagram' target target' stats stats', run step w more = some w' →
      w.pc = .sendOut datagram target stats → w'.pc = .sendOut datagram' target' stats' →
      datagram'.host = datagram.host → datagram'.port = datagram.port → target' = target := by
  have horigin := origin_run h
  refine ⟨fun _ _ => handedOut_of_origin horigin, fun _ _ => handedBack_of_origin horigin,
    fun host => value_run h host .egress, fun host => value_run h host .ingress,
    fun host => ?_, ?_⟩
  · rw [value_run h host .connections, ← (connects_run h host).2]
    rfl
  · intro more w' _ _ _ _ _ _ hmore hpc hpc' hhost hport
    exact same_target (coherent_run (coherent_bind reg) h) hmore hpc hpc' hhost hport

end Runs

def server (port : UInt16) : SocketAddr := ⟨.v4 ⟨[192, 0, 2, 1], rfl⟩, port⟩

/-- A query of three bytes for the port 53 of `a`, and a reply of one. -/
def query : List Act :=
  [.recvClient ⟨[0, 0, 0, 3, 1, 0x61, 0, 53, 7, 8, 9], by decide⟩ ⟨localhost, 4000⟩,
    .resolves (.ok [server 53]),
    .sends (.ok ()),
    .recvUpstream ⟨[7], by decide⟩ (server 53),
    .sends (.ok ())]

theorem association_spec_query :
    (∃ w bytes addr, run step (World.bind Registry.new) (query.take 4) = some w ∧
      handedBack w = some (bytes, addr) ∧
      parseDatagram bytes = .ok ⟨(server 53).ip.toText, 53, [7]⟩) ∧
    ∃ w, run step (World.bind Registry.new) query = some w ∧
      value w.registry "a".toList .egress = 3 ∧ value w.registry "a".toList .ingress = 1 ∧
      value w.registry "a".toList .connections = 1 := by
  have hreply : ((run step (World.bind Registry.new) (query.take 4)).bind handedBack).isSome =
      true := by decide +kernel
  have hsome : (run step (World.bind Registry.new) query).isSome = true := by decide +kernel
  obtain ⟨⟨bytes, addr⟩, hb⟩ := Option.isSome_iff_exists.mp hreply
  obtain ⟨v, hv, hback⟩ := Option.bind_eq_some_iff.mp hb
  obtain ⟨w, hw⟩ := Option.isSome_iff_exists.mp hsome
  obtain ⟨-, hreplied, -⟩ := association_spec hv
  obtain ⟨packet, source, hlast, -, hparse⟩ := hreplied bytes addr hback
  obtain ⟨-, -, hegress, hingress, hconnections, -⟩ := association_spec hw
  cases hlast
  refine ⟨⟨v, bytes, addr, hv, hback, hparse⟩, w, hw, ?_, ?_, ?_⟩
  · rw [hegress]
    decide +kernel
  · rw [hingress]
    decide +kernel
  · rw [hconnections]
    decide +kernel

end Wiretally.UdpCounts
