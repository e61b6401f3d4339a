import Wiretally.Lib.Run
import Wiretally.Registry
import Wiretally.Socks

/-!
The UDP relay of an association.

The relay is one task between two sockets. It runs from one suspension to the next in one
step: until it has to wait for a datagram, for the resolver or for a socket to take what it
sends. Between its steps other tasks look hosts up in the registry it shares with them and
count through the handles they hold. It can be aborted wherever it is suspended, so whatever
holds in every state it can be suspended in also holds of what an abort leaves behind.
-/

namespace Wiretally.Udp

open Wiretally.Lib Wiretally.Lib.AsyncIo Wiretally.Lib.Run Wiretally.Net Wiretally.Stats
open Wiretally.Stats.EndpointStats Wiretally.Registry Wiretally.Socks

/-! ### Sockets -/

def maxDatagram : ℕ := 65535

/-- A datagram off the network, whose length fits the field for it with eight bytes of header. -/
structure Packet where
  bytes : List UInt8
  fits : bytes.length + 8 ≤ 65535

abbrev Buffer := List.Vector UInt8 maxDatagram

/-- What is in a buffer after a datagram has been received into it. -/
def Buffer.recvFrom (buf : Buffer) (packet : Packet) : Buffer :=
  ⟨packet.bytes ++ buf.toList.drop packet.bytes.length, by
    have hfits := packet.fits
    have hlen := buf.toList_length
    rw [List.length_append, List.length_drop]
    unfold maxDatagram at *
    omega⟩

/-- The part of a buffer a datagram was received into. -/
def Buffer.received (buf : Buffer) (len : ℕ) : List UInt8 := buf.toList.take len

@[simp] lemma received_recvFrom (buf : Buffer) (packet : Packet) :
    (buf.recvFrom packet).received packet.bytes.length = packet.bytes :=
  List.take_left

/-! ### The relay -/

/-- What an association remembers. -/
structure Relay where
  /-- Counters per destination host, so that the registry is asked for each host once. -/
  endpoints : HashMap Text Arc
  /-- Resolved destinations, so that each is resolved once. -/
  resolved : HashMap (Text × UInt16) SocketAddr
  /-- The host a reply's source address is counted under. -/
  names : HashMap IpAddr Text
  clientAddr : Option SocketAddr

def Relay.new : Relay := ⟨∅, ∅, ∅, none⟩

/-- What the task is suspended on. -/
inductive Pc
  | select
  | lookupHost (datagram : Datagram)
  | sendOut (datagram : Datagram) (target : SocketAddr) (stats : Arc)
  | sendBack (source : SocketAddr) (payload : List UInt8) (clientAddr : SocketAddr) (host : Text)
    (stats : Arc)
  | returned

/-- The task of an association with its buffers, and the registry it shares. -/
structure World where
  registry : Registry
  relay : Relay
  fromClient : Buffer
  fromUpstream : Buffer
  scratch : List UInt8
  pc : Pc

namespace World

def bind (registry : Registry) : World where
  registry := registry
  relay := Relay.new
  fromClient := .replicate maxDatagram 0
  fromUpstream := .replicate maxDatagram 0
  scratch := []
  pc := .select

/-- Cached counters for `host`; a new destination counts as a new connection. -/
def endpoint (w : World) (host : Text) : Arc × World :=
  match w.relay.endpoints.lookup host with
  | some stats => (stats, w)
  | none =>
    let (stats, registry) := w.registry.endpoint host
    let registry := registry.update stats addConnection
    let relay := { w.relay with endpoints := w.relay.endpoints.insert host stats }
    (stats, { w with registry := registry, relay := relay })

/-- `forward_out` from its destination to the send. -/
def sendTo (w : World) (datagram : Datagram) (target : SocketAddr) : World :=
  let (stats, w) := w.endpoint datagram.host
  { w with pc := .sendOut datagram target stats }

/-- Unwraps a client datagram; its destination is resolved if it is not cached. -/
def forwardOut (w : World) (raw : List UInt8) : World :=
  match parseDatagram raw with
  | .error _ => { w with pc := .select }
  | .ok datagram =>
    match w.relay.resolved.lookup (datagram.host, datagram.port) with
    | some target => w.sendTo datagram target
    | none => { w with pc := .lookupHost datagram }

/-- Goes on with the first address the resolver gives. -/
def resolve (w : World) (datagram : Datagram) (answer : Except IoError (List SocketAddr)) : World :=
  match answer with
  | .ok (addr :: _) =>
    let resolved := w.relay.resolved.insert (datagram.host, datagram.port) addr
    { w with relay := { w.relay with resolved := resolved } }.sendTo datagram addr
  | _ => { w with pc := .select }

/-- `forward_out` behind its send; a socket takes a datagram whole. -/
def sentOut (w : World) (datagram : Datagram) (target : SocketAddr) (stats : Arc) : World :=
  let registry := w.registry.update stats (·.addEgress (.ofNat datagram.payload.length))
  let registry := registry.update stats (·.observeIp target.ip)
  let names := w.relay.names.insert target.ip datagram.host
  { w with registry := registry, relay := { w.relay with names := names }, pc := .select }

def replyHost (w : World) (ip : IpAddr) : Text := (w.relay.names.lookup ip).getD ip.toText

/-- Wraps a reply and hands it to the client, once it is known where the client is. -/
def forwardBack (w : World) (source : SocketAddr) (payload : List UInt8) : World :=
  match w.relay.clientAddr with
  | none => { w with pc := .select }
  | some clientAddr =>
    let host := w.replyHost source.ip
    let (stats, w) := w.endpoint host
    { w with
      scratch := encodeDatagram source payload w.scratch
      pc := .sendBack source payload clientAddr host stats }

def sentBack (w : World) (payload : List UInt8) (stats : Arc) : World :=
  { w with
    registry := w.registry.update stats (·.addIngress (.ofNat payload.length))
    pc := .select }

end World

inductive Act
  /-- A datagram arrives on either socket. -/
  | recvClient (packet : Packet) (addr : SocketAddr)
  | recvUpstream (packet : Packet) (addr : SocketAddr)
  /-- Receiving fails on either socket. -/
  | recvFails (err : IoError)
  /-- The resolver answers. -/
  | resolves (answer : Except IoError (List SocketAddr))
  /-- The socket has taken what was handed to it, or has refused it. -/
  | sends (result : Except IoError Unit)
  /-- Another task looks a host up. -/
  | endpoint (host : Text)
  /-- Another task uses a handle it holds; every block allocated was handed out. -/
  | fetchAdd (a : Arc) (n : UInt64) (c : Counter)
  | observeIp (a : Arc) (addr : IpAddr)

def step (w : World) : Act → Option World
  | .recvClient packet addr =>
    match w.pc with
    | .select =>
      let fromClient := w.fromClient.recvFrom packet
      let relay := { w.relay with clientAddr := some addr }
      let raw := fromClient.received packet.bytes.length
      some ({ w with fromClient := fromClient, relay := relay }.forwardOut raw)
    | _ => none
  | .recvUpstream packet addr =>
    match w.pc with
    | .select =>
      let fromUpstream := w.fromUpstream.recvFrom packet
      let payload := fromUpstream.received packet.bytes.length
      some ({ w with fromUpstream := fromUpstream }.forwardBack addr payload)
    | _ => none
  | .recvFails _ =>
    match w.pc with
    | .select => some { w with pc := .returned }
    | _ => none
  | .resolves answer =>
    match w.pc with
    | .lookupHost datagram => some (w.resolve datagram answer)
    | _ => none
  | .sends result =>
    match w.pc, result with
    | .sendOut datagram target stats, .ok () => some (w.sentOut datagram target stats)
    | .sendBack _ payload _ _ stats, .ok () => some (w.sentBack payload stats)
    | .sendOut .., .error _ | .sendBack .., .error _ => some { w with pc := .select }
    | _, _ => none
  | .endpoint host => some { w with registry := (w.registry.endpoint host).2 }
  | .fetchAdd a n c =>
    if a < w.registry.next then some { w with registry := w.registry.update a (·.fetchAdd n c) }
    else none
  | .observeIp a addr =>
    if a < w.registry.next then some { w with registry := w.registry.update a (·.observeIp addr) }
    else none

/-! ### What a step can do -/

def World.heard (w : World) (packet : Packet) (addr : SocketAddr) : World :=
  { w with
    fromClient := w.fromClient.recvFrom packet
    relay := { w.relay with clientAddr := some addr } }

def World.learned (w : World) (datagram : Datagram) (addr : SocketAddr) : World :=
  { w with
    relay := { w.relay with
      resolved := w.relay.resolved.insert (datagram.host, datagram.port) addr } }

def World.answered (w : World) (packet : Packet) : World :=
  { w with fromUpstream := w.fromUpstream.recvFrom packet }

def World.reply (w : World) (source : SocketAddr) (payload : List UInt8) (clientAddr : SocketAddr) :
    World :=
  let fetched := w.endpoint (w.replyHost source.ip)
  { fetched.2 with
    scratch := encodeDatagram source payload []
    pc := .sendBack source payload clientAddr (w.replyHost source.ip) fetched.1 }

/-- The steps of the relay and of the tasks it shares the registry with. -/
inductive Moves (w : World) : Act → World → Prop
  | malformed {packet addr err} (hpc : w.pc = .select)
      (hparse : parseDatagram packet.bytes = .error err) :
      Moves w (.recvClient packet addr) { w.heard packet addr with pc := .select }
  | unknown {packet addr datagram} (hpc : w.pc = .select)
      (hparse : parseDatagram packet.bytes = .ok datagram)
      (hcache : w.relay.resolved.lookup (datagram.host, datagram.port) = none) :
      Moves w (.recvClient packet addr) { w.heard packet addr with pc := .lookupHost datagram }
  | known {packet addr datagram target} (hpc : w.pc = .select)
      (hparse : parseDatagram packet.bytes = .ok datagram)
      (hcache : w.relay.resolved.lookup (datagram.host, datagram.port) = some target) :
      Moves w (.recvClient packet addr) ((w.heard packet addr).sendTo datagram target)
  | resolved {datagram addr rest} (hpc : w.pc = .lookupHost datagram) :
      Moves w (.resolves (.ok (addr :: rest))) ((w.learned datagram addr).sendTo datagram addr)
  | unresolved {datagram answer} (hpc : w.pc = .lookupHost datagram)
      (hanswer : ∀ addr rest, answer ≠ .ok (addr :: rest)) :
      Moves w (.resolves answer) { w with pc := .select }
  | sentOut {datagram target stats} (hpc : w.pc = .sendOut datagram target stats) :
      Moves w (.sends (.ok ())) (w.sentOut datagram target stats)
  | refused {err} (hpc : (∃ datagram target stats, w.pc = .sendOut datagram target stats) ∨
      ∃ source payload clientAddr host stats, w.pc = .sendBack source payload clientAddr host stats) :
      Moves w (.sends (.error err)) { w with pc := .select }
  | orphan {packet addr} (hpc : w.pc = .select) (hclient : w.relay.clientAddr = none) :
      Moves w (.recvUpstream packet addr) { w.answered packet with pc := .select }
  | reply {packet addr clientAddr} (hpc : w.pc = .select)
      (hclient : w.relay.clientAddr = some clientAddr) :
      Moves w (.recvUpstream packet addr) ((w.answered packet).reply addr packet.bytes clientAddr)
  | sentBack {source payload clientAddr host stats}
      (hpc : w.pc = .sendBack source payload clientAddr host stats) :
      Moves w (.sends (.ok ())) (w.sentBack payload stats)
  | returned {err} (hpc : w.pc = .select) : Moves w (.recvFails err) { w with pc := .returned }
  | endpoint (host : Text) :
      Moves w (.endpoint host) { w with registry := (w.registry.endpoint host).2 }
  | fetchAdd {a : Arc} (n : UInt64) (c : Counter) (ha : a < w.registry.next) :
      Moves w (.fetchAdd a n c) { w with registry := w.registry.update a (·.fetchAdd n c) }
  | observeIp {a : Arc} (addr : IpAddr) (ha : a < w.registry.next) :
      Moves w (.observeIp a addr) { w with registry := w.registry.update a (·.observeIp addr) }

/-- What the buffer for replies held makes no difference. -/
lemma encodeDatagram_scratch (source : SocketAddr) (payload scratch : List UInt8) :
    encodeDatagram source payload scratch = encodeDatagram source payload [] := by
  unfold encodeDatagram
  rw [List.take_zero, List.take_zero]

lemma forwardBack_some {w : World} {clientAddr : SocketAddr}
    (h : w.relay.clientAddr = some clientAddr) (source : SocketAddr) (payload : List UInt8) :
    w.forwardBack source payload = w.reply source payload clientAddr := by
  unfold World.forwardBack World.reply
  rw [h]
  simp only [encodeDatagram_scratch]

lemma forwardBack_none {w : World} (h : w.relay.clientAddr = none) (source : SocketAddr)
    (payload : List UInt8) : w.forwardBack source payload = { w with pc := .select } := by
  unfold World.forwardBack
  rw [h]

lemma forwardOut_error {w : World} {raw : List UInt8} {err : DatagramError}
    (h : parseDatagram raw = .error err) : w.forwardOut raw = { w with pc := .select } := by
  unfold World.forwardOut
  rw [h]

lemma forwardOut_ok {w : World} {raw : List UInt8} {datagram : Datagram}
    (h : parseDatagram raw = .ok datagram) :
    w.forwardOut raw =
      match w.relay.resolved.lookup (datagram.host, datagram.port) with
      | some target => w.sendTo datagram target
      | none => { w with pc := .lookupHost datagram } := by
  unfold World.forwardOut
  rw [h]

lemma moves_forwardOut {w : World} {packet : Packet} {addr : SocketAddr} (hpc : w.pc = .select) :
    Moves w (.recvClient packet addr) ((w.heard packet addr).forwardOut packet.bytes) := by
  cases hparse : parseDatagram packet.bytes with
  | error err =>
    rw [forwardOut_error hparse]
    exact .malformed hpc hparse
  | ok datagram =>
    have hsame : (w.heard packet addr).relay.resolved = w.relay.resolved := rfl
    rw [forwardOut_ok hparse, hsame]
    cases hcache : w.relay.resolved.lookup (datagram.host, datagram.port) with
    | none => exact .unknown hpc hparse hcache
    | some target => exact .known hpc hparse hcache

lemma moves_forwardBack {w : World} {packet : Packet} {addr : SocketAddr} (hpc : w.pc = .select) :
    Moves w (.recvUpstream packet addr) ((w.answered packet).forwardBack addr packet.bytes) := by
  have hsame : (w.answered packet).relay.clientAddr = w.relay.clientAddr := rfl
  cases hclient : w.relay.clientAddr with
  | none =>
    rw [forwardBack_none (hsame.trans hclient)]
    exact .orphan hpc hclient
  | some clientAddr =>
    rw [forwardBack_some (hsame.trans hclient)]
    exact .reply hpc hclient

lemma moves_resolve {w : World} {datagram : Datagram} (hpc : w.pc = .lookupHost datagram)
    (answer : Except IoError (List SocketAddr)) :
    Moves w (.resolves answer) (w.resolve datagram answer) := by
  unfold World.resolve
  split
  next addr rest => exact .resolved hpc
  next hanswer => exact .unresolved hpc fun addr rest he => hanswer addr rest he

/-- **Every step is one of these.** -/
theorem step_moves {w w' : World} {act : Act} (h : step w act = some w') : Moves w act w' := by
  cases act with
  | recvClient packet addr =>
    simp only [step, received_recvFrom] at h
    split at h
    next hpc =>
      cases h
      exact moves_forwardOut hpc
    next => cases h
  | recvUpstream packet addr =>
    simp only [step, received_recvFrom] at h
    split at h
    next hpc =>
      cases h
      exact moves_forwardBack hpc
    next => cases h
  | recvFails err =>
    simp only [step] at h
    split at h
    next hpc =>
      cases h
      exact .returned hpc
    next => cases h
  | resolves answer =>
    simp only [step] at h
    split at h
    next datagram hpc =>
      cases h
      exact moves_resolve hpc answer
    next => cases h
  | sends result =>
    simp only [step] at h
    split at h
    next hpc => cases h; exact .sentOut hpc
    next hpc => cases h; exact .sentBack hpc
    next hpc => cases h; exact .refused (.inl ⟨_, _, _, hpc⟩)
    next hpc => cases h; exact .refused (.inr ⟨_, _, _, _, _, hpc⟩)
    next => cases h
  | endpoint host =>
    cases h
    exact .endpoint host
  | fetchAdd a n c =>
    simp only [step] at h
    split_ifs at h with ha
    cases h
    exact .fetchAdd n c ha
  | observeIp a addr =>
    simp only [step] at h
    split_ifs at h with ha
    cases h
    exact .observeIp addr ha

end Wiretally.Udp
