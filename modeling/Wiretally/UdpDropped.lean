import Wiretally.UdpCounts

/-!
What a UDP association makes of the datagrams it drops.

A client datagram is dropped if it cannot be parsed, or if its destination cannot be resolved.
All it leaves behind is the address it came from, as the one of the client, and bytes in a
buffer nothing reads again. So a run with dropped datagrams in it sends and counts what the run
without them does, provided each came from where the client already was.
-/

namespace Wiretally.UdpDropped

open Wiretally.Lib Wiretally.Lib.AsyncIo Wiretally.Lib.Run Wiretally.Net Wiretally.Stats
open Wiretally.Socks Wiretally.Udp Wiretally.UdpCounts

inductive Other : Act → Prop
  | endpoint (host : Text) : Other (.endpoint host)
  | fetchAdd (a : Arc) (n : UInt64) (c : Counter) : Other (.fetchAdd a n c)
  | observeIp (a : Arc) (addr : IpAddr) : Other (.observeIp a addr)

inductive Unresolved : Except IoError (List SocketAddr) → Prop
  | error (err : IoError) : Unresolved (.error err)
  | empty : Unresolved (.ok [])

/-- The steps from the arrival of a datagram that is dropped to the next wait for one, and what
other tasks did meanwhile. -/
inductive Dropped (w : World) (addr : SocketAddr) : List Act → List Act → World → Prop
  | malformed {packet err w'} (hparse : parseDatagram packet.bytes = .error err)
      (hstep : step w (.recvClient packet addr) = some w') :
      Dropped w addr [.recvClient packet addr] [] w'
  | unresolved {packet datagram others answer w'}
      (hparse : parseDatagram packet.bytes = .ok datagram) (hothers : ∀ act ∈ others, Other act)
      (hanswer : Unresolved answer)
      (hrun : run step w (.recvClient packet addr :: (others ++ [.resolves answer])) = some w') :
      Dropped w addr (.recvClient packet addr :: (others ++ [.resolves answer])) others w'

/-- The first run is the second with dropped datagrams inserted, each arriving in a state and
from an address as told. -/
inductive Inserted (P : World → SocketAddr → Prop) : World → List Act → List Act → Prop
  | nil (w : World) : Inserted P w [] []
  | keep {w w' act as bs} (hstep : step w act = some w') (h : Inserted P w' as bs) :
      Inserted P w (act :: as) (act :: bs)
  | drop {w addr acts others w' as bs} (hdropped : Dropped w addr acts others w') (hp : P w addr)
      (h : Inserted P w' as bs) : Inserted P w (acts ++ as) (others ++ bs)

/-- The datagram comes from where the client already is. -/
def FromClient (w : World) (addr : SocketAddr) : Prop := w.relay.clientAddr = some addr

/-- What a step hands to the upstream socket or to the one facing the client. -/
def hands (w : World) (act : Act) : Option (List UInt8 × SocketAddr ⊕ List UInt8 × SocketAddr) :=
  if Pc.holds w.pc = none then
    (step w act).bind fun w' => ((handedOut w').map .inl).or ((handedBack w').map .inr)
  else none

/-- What the sockets are handed in a run, in order. -/
def sends (w : World) (acts : List Act) : List (List UInt8 × SocketAddr ⊕ List UInt8 × SocketAddr) :=
  (trace step w acts).filterMap fun t => hands t.1 t.2

lemma sends_append {w w' : World} {as : List Act} (bs : List Act) (h : run step w as = some w') :
    sends w (as ++ bs) = sends w as ++ sends w' bs := by
  unfold sends
  rw [trace_append bs h, List.filterMap_append]

lemma sends_cons {w w' : World} {act : Act} (acts : List Act) (h : step w act = some w') :
    sends w (act :: acts) = (hands w act).toList ++ sends w' acts := by
  have hrun : run step w [act] = some w' := by rw [run_cons, h]; rfl
  have happend := sends_append acts hrun
  rw [List.singleton_append] at happend
  rw [happend]
  congr 1
  cases hh : hands w act <;> simp [sends, trace, h, hh]

lemma hands_of_idle {w w' : World} {act : Act} (h : step w act = some w')
    (hidle : Pc.holds w.pc = none → Pc.holds w'.pc = none) : hands w act = none := by
  unfold hands
  split_ifs with hw
  · rw [h, Option.bind_some]
    have hw' := hidle hw
    unfold handedOut handedBack
    cases hpc : w'.pc with
    | sendOut => rw [hpc] at hw'; cases hw'
    | sendBack => rw [hpc] at hw'; cases hw'
    | _ => rfl
  · rfl

/-! ### Other tasks see and change the registry only -/

lemma step_other {w v w' : World} {act : Act} (hact : Other act) (h : step w act = some w')
    (hreg : v.registry = w.registry) :
    w' = { w with registry := w'.registry } ∧
      step v act = some { v with registry := w'.registry } := by
  cases hact with
  | endpoint host =>
    cases h
    simp only [step, hreg, and_self]
  | fetchAdd a n c =>
    simp only [step] at h
    split_ifs at h with ha
    cases h
    simp only [step, hreg, if_pos ha, and_self]
  | observeIp a addr =>
    simp only [step] at h
    split_ifs at h with ha
    cases h
    simp only [step, hreg, if_pos ha, and_self]

lemma run_other {w v w' : World} {acts : List Act} (hacts : ∀ act ∈ acts, Other act)
    (h : run step w acts = some w') (hreg : v.registry = w.registry) :
    w' = { w with registry := w'.registry } ∧
      run step v acts = some { v with registry := w'.registry } ∧ sends w acts = [] := by
  induction acts generalizing w v with
  | nil =>
    cases h
    rw [← hreg]
    exact ⟨by rw [hreg], rfl, rfl⟩
  | cons act acts ih =>
    rw [run_cons] at h
    obtain ⟨u, hu, hrun⟩ := Option.bind_eq_some_iff.mp h
    obtain ⟨hsame, hstep⟩ := step_other (hacts act List.mem_cons_self) hu hreg
    obtain ⟨hsame', hrun', hnone⟩ := ih (v := { v with registry := u.registry })
      (fun a ha => hacts a (List.mem_cons_of_mem _ ha)) hrun rfl
    have hpc : u.pc = w.pc := by rw [hsame]
    refine ⟨?_, ?_, ?_⟩
    · rw [hsame] at hsame'
      exact hsame'
    · rw [run_cons, hstep]
      exact hrun'
    · rw [sends_cons acts hu, hands_of_idle hu (fun hw => by rw [hpc]; exact hw), hnone]
      rfl

/-! ### The buffer for client datagrams is never read again -/

/-- The same state with other bytes left in the buffer for client datagrams. -/
def rebuffer (w : World) (buf : Buffer) : World := { w with fromClient := buf }

lemma endpoint_rebuffer (w : World) (buf : Buffer) (host : Text) :
    (rebuffer w buf).endpoint host = ((w.endpoint host).1, rebuffer (w.endpoint host).2 buf) := by
  unfold World.endpoint rebuffer
  cases w.relay.endpoints.lookup host <;> rfl

lemma sendTo_rebuffer (w : World) (buf : Buffer) (datagram : Datagram) (target : SocketAddr) :
    (rebuffer w buf).sendTo datagram target = rebuffer (w.sendTo datagram target) buf := by
  unfold World.sendTo
  rw [endpoint_rebuffer]
  rfl

lemma forwardOut_rebuffer (w : World) (buf : Buffer) (raw : List UInt8) :
    (rebuffer w buf).forwardOut raw = rebuffer (w.forwardOut raw) buf := by
  cases hparse : parseDatagram raw with
  | error err =>
    rw [forwardOut_error hparse, forwardOut_error hparse]
    rfl
  | ok datagram =>
    have hsame : (rebuffer w buf).relay.resolved = w.relay.resolved := rfl
    rw [forwardOut_ok hparse, forwardOut_ok hparse, hsame]
    cases w.relay.resolved.lookup (datagram.host, datagram.port) with
    | none => rfl
    | some target => exact sendTo_rebuffer w buf datagram target

lemma resolve_rebuffer (w : World) (buf : Buffer) (datagram : Datagram)
    (answer : Except IoError (List SocketAddr)) :
    (rebuffer w buf).resolve datagram answer = rebuffer (w.resolve datagram answer) buf := by
  unfold World.resolve
  split
  next addr rest => exact sendTo_rebuffer (w.learned datagram addr) buf datagram addr
  next => rfl

lemma forwardBack_rebuffer (w : World) (buf : Buffer) (source : SocketAddr)
    (payload : List UInt8) :
    (rebuffer w buf).forwardBack source payload = rebuffer (w.forwardBack source payload) buf := by
  have hsame : (rebuffer w buf).relay.clientAddr = w.relay.clientAddr := rfl
  cases hclient : w.relay.clientAddr with
  | none =>
    rw [forwardBack_none hclient, forwardBack_none (hsame.trans hclient)]
    rfl
  | some clientAddr =>
    have hhost : (rebuffer w buf).replyHost source.ip = w.replyHost source.ip := rfl
    rw [forwardBack_some hclient, forwardBack_some (hsame.trans hclient)]
    unfold World.reply
    rw [hhost, endpoint_rebuffer]
    rfl

lemma step_other_rebuffer {w w' : World} {act : Act} (hact : Other act)
    (h : step w act = some w') (buf : Buffer) :
    step (rebuffer w buf) act = some (rebuffer w' buf) := by
  have hsame : (rebuffer w buf).registry = w.registry := rfl
  obtain ⟨hw', hstep⟩ := step_other hact h hsame
  rw [hstep, hw']
  rfl

lemma step_rebuffer {w w' : World} {act : Act} (h : step w act = some w') (buf : Buffer) :
    ∃ buf', step (rebuffer w buf) act = some (rebuffer w' buf') := by
  have hpc : (rebuffer w buf).pc = w.pc := rfl
  cases act with
  | recvClient packet addr =>
    simp only [step, received_recvFrom] at h
    split at h
    next hselect =>
      cases h
      refine ⟨buf.recvFrom packet, ?_⟩
      simp only [step, received_recvFrom, hpc, hselect]
      exact congrArg some (forwardOut_rebuffer
        (World.heard { w with pc := .select } packet addr) _ _)
    next => cases h
  | recvUpstream packet addr =>
    simp only [step, received_recvFrom] at h
    split at h
    next hselect =>
      cases h
      refine ⟨buf, ?_⟩
      simp only [step, received_recvFrom, hpc, hselect]
      exact congrArg some (forwardBack_rebuffer
        (World.answered { w with pc := .select } packet) buf _ _)
    next => cases h
  | resolves answer =>
    simp only [step] at h
    split at h
    next datagram hlookup =>
      cases h
      refine ⟨buf, ?_⟩
      simp only [step, hpc, hlookup]
      exact congrArg some (resolve_rebuffer w buf datagram answer)
    next => cases h
  | recvFails err =>
    refine ⟨buf, ?_⟩
    simp only [step, hpc] at h ⊢
    split at h
    next => cases h; rfl
    next => cases h
  | sends result =>
    refine ⟨buf, ?_⟩
    simp only [step, hpc] at h ⊢
    split at h
    next => cases h; rfl
    next => cases h; rfl
    next => cases h; rfl
    next => cases h; rfl
    next => cases h
  | endpoint host => exact ⟨buf, step_other_rebuffer (.endpoint host) h buf⟩
  | fetchAdd a n c => exact ⟨buf, step_other_rebuffer (.fetchAdd a n c) h buf⟩
  | observeIp a addr => exact ⟨buf, step_other_rebuffer (.observeIp a addr) h buf⟩

lemma hands_rebuffer {w w' : World} {act : Act} (h : step w act = some w') (buf : Buffer) :
    hands (rebuffer w buf) act = hands w act := by
  obtain ⟨buf', hstep⟩ := step_rebuffer h buf
  unfold hands
  rw [hstep, h]
  rfl

/-! ### What a dropped datagram leaves behind -/

/-- Only a datagram whose destination is looked up can be dropped for want of an address. -/
lemma looksUp_of_unresolved {w v w' : World} {packet : Packet} {addr : SocketAddr}
    {datagram : Datagram} {others : List Act} {answer : Except IoError (List SocketAddr)}
    (hparse : parseDatagram packet.bytes = .ok datagram) (hothers : ∀ act ∈ others, Other act)
    (hstep : step w (.recvClient packet addr) = some v)
    (hrun : run step v (others ++ [.resolves answer]) = some w') :
    w.pc = .select ∧ v = { w.heard packet addr with pc := .lookupHost datagram } := by
  cases step_moves hstep with
  | malformed hpc herr => cases hparse.symm.trans herr
  | @unknown _ _ d hpc hok hcache =>
    cases hparse.symm.trans hok
    exact ⟨hpc, rfl⟩
  | @known _ _ d target hpc hok hcache =>
    -- a send is under way, and no answer is waited for
    obtain ⟨u, hu, hlast⟩ := (run_snoc step).mp hrun
    have hpc' := congrArg World.pc (run_other hothers hu rfl).1
    cases step_moves hlast with
    | resolved hlookup => cases hpc'.symm.trans hlookup
    | unresolved hlookup => cases hpc'.symm.trans hlookup

/-- **What a dropped datagram leaves behind**: where it came from, bytes in a buffer, and what
other tasks did meanwhile. -/
theorem Dropped.spec {w w' : World} {addr : SocketAddr} {acts others : List Act}
    (h : Dropped w addr acts others w') :
    w.pc = .select ∧ run step w acts = some w' ∧
      run step w others = some { w with registry := w'.registry } ∧
      w' = { w with
        registry := w'.registry
        relay := { w.relay with clientAddr := some addr }
        fromClient := w'.fromClient } ∧
      sends w acts = [] ∧ (∀ act ∈ others, Other act) := by
  cases h with
  | @malformed packet err _ hparse hstep =>
    have hrun : run step w [.recvClient packet addr] = some w' := by
      rw [run_cons, hstep]
      rfl
    cases step_moves hstep with
    | malformed hpc =>
      refine ⟨hpc, hrun, rfl, ?_, ?_, ?_⟩
      · rw [← hpc]
        rfl
      · rw [sends_cons [] hstep, hands_of_idle hstep fun _ => rfl]
        rfl
      · intro act hact
        cases hact
    | unknown hpc hok => cases hparse.symm.trans hok
    | known hpc hok => cases hparse.symm.trans hok
  | @unresolved packet datagram _ answer _ hparse hothers hanswer hrun =>
    have hall := hrun
    rw [run_cons] at hrun
    obtain ⟨v, hv, hrest⟩ := Option.bind_eq_some_iff.mp hrun
    obtain ⟨hpc, rfl⟩ := looksUp_of_unresolved hparse hothers hv hrest
    obtain ⟨u, hu, hlast⟩ := (run_snoc step).mp hrest
    obtain ⟨hsame, hw, hnone⟩ := run_other (v := w) hothers hu rfl
    have hreply : w' = { u with pc := .select } := by
      cases step_moves hlast with
      | resolved => cases hanswer
      | unresolved => rfl
    subst hreply
    refine ⟨hpc, hall, hw, ?_, ?_, hothers⟩
    · rw [hsame, ← hpc]
      rfl
    · rw [sends_cons _ hv, sends_append _ hu, hnone, sends_cons [] hlast,
        hands_of_idle hv fun _ => rfl, hands_of_idle hlast fun _ => rfl]
      rfl

lemma relay_unchanged_iff (relay : Relay) (addr : SocketAddr) :
    { relay with clientAddr := some addr } = relay ↔ relay.clientAddr = some addr := by
  obtain ⟨endpoints, resolved, names, clientAddr⟩ := relay
  simp [eq_comm]

/-- Runs with and without the dropped datagrams go through the same states up to a buffer. -/
lemma Inserted.lockstep {w w' : World} {as bs : List Act} (h : Inserted FromClient w as bs)
    (hrun : run step w as = some w') (buf : Buffer) :
    ∃ buf', run step (rebuffer w buf) bs = some (rebuffer w' buf') ∧
      sends (rebuffer w buf) bs = sends w as := by
  induction h generalizing w' buf with
  | nil w =>
    cases hrun
    exact ⟨buf, rfl, rfl⟩
  | @keep w v act as bs hstep h ih =>
    rw [run_cons, hstep] at hrun
    obtain ⟨buf', hstep'⟩ := step_rebuffer hstep buf
    obtain ⟨buf'', hrun'', hsends⟩ := ih hrun buf'
    refine ⟨buf'', ?_, ?_⟩
    · rw [run_cons, hstep']
      exact hrun''
    · rw [sends_cons bs hstep', sends_cons as hstep, hands_rebuffer hstep, hsends]
  | @drop w addr acts others v as bs hdropped hp h ih =>
    obtain ⟨-, hacts, hothers, hv, hnone, hother⟩ := hdropped.spec
    rw [run_append, hacts] at hrun
    obtain ⟨buf', hrun', hsends⟩ := ih hrun buf
    -- the address learned is the one that was known
    rw [(relay_unchanged_iff w.relay addr).mpr hp] at hv
    obtain ⟨-, hrebuf, -⟩ := run_other (v := rebuffer w buf) hother hothers rfl
    have hmid : run step (rebuffer w buf) others = some (rebuffer v buf) := by
      rw [hrebuf, hv]
      rfl
    obtain ⟨-, -, hquiet⟩ := run_other (v := rebuffer w buf) hother hmid rfl
    refine ⟨buf', ?_, ?_⟩
    · rw [run_append, hmid]
      exact hrun'
    · rw [sends_append bs hmid, sends_append as hacts, hnone, hquiet, hsends]

/-- **Dropping a datagram.** The state that governs what the association does next is as before
the datagram arrived, but for what other tasks did to the registry meanwhile, exactly if it came
from where the client already was. Datagrams like that, inserted anywhere into a run, change
neither what is sent nor what is counted. -/
theorem dropped_spec (w : World) :
    (∀ w' addr acts others, Dropped w addr acts others w' →
      (w'.relay = w.relay ↔ FromClient w addr) ∧ w'.pc = w.pc ∧
        run step w others = some { w with registry := w'.registry }) ∧
    ∀ w' as bs, Inserted FromClient w as bs → run step w as = some w' →
      ∃ w'', run step w bs = some w'' ∧ w''.relay = w'.relay ∧ w''.registry = w'.registry ∧
        w''.pc = w'.pc ∧ sends w bs = sends w as := by
  refine ⟨fun w' addr acts others h => ?_, fun w' as bs h hrun => ?_⟩
  · obtain ⟨-, -, hothers, hw', -, -⟩ := h.spec
    have hrelay : w'.relay = { w.relay with clientAddr := some addr } := by rw [hw']
    have hpc : w'.pc = w.pc := by rw [hw']
    refine ⟨?_, hpc, hothers⟩
    rw [hrelay]
    exact relay_unchanged_iff w.relay addr
  · obtain ⟨buf, hbs, hsends⟩ := h.lockstep hrun w.fromClient
    exact ⟨_, hbs, rfl, rfl, rfl, hsends⟩

/-! ### A datagram from somewhere else -/

lemma inserted_append {P : World → SocketAddr → Prop} {w v : World} {acts as bs : List Act}
    (hrun : run step w acts = some v) (h : Inserted P v as bs) :
    Inserted P w (acts ++ as) (acts ++ bs) := by
  induction acts generalizing w with
  | nil =>
    cases hrun
    exact h
  | cons act acts ih =>
    rw [run_cons] at hrun
    obtain ⟨u, hu, hrest⟩ := Option.bind_eq_some_iff.mp hrun
    exact .keep hu (ih hrest)

def asked : List Act :=
  [.recvClient ⟨[0, 0, 0, 3, 1, 0x61, 0, 53, 1, 2, 3, 4], by decide⟩ ⟨localhost, 4000⟩,
    .resolves (.ok [server 53]),
    .sends (.ok ())]

def fragment (port : UInt16) : Act := .recvClient ⟨[0, 0, 1, 3], by decide⟩ ⟨localhost, port⟩

def answer : Act := .recvUpstream ⟨[4, 3], by decide⟩ (server 53)

/-- A fragment comes in between the question and the answer. -/
lemma inserted_fragment {P : World → SocketAddr → Prop} {port : UInt16}
    (hp : ∀ w, run step (World.bind Registry.new) asked = some w → P w ⟨localhost, port⟩)
    (hsome : (run step (World.bind Registry.new) (asked ++ [fragment port, answer])).isSome = true) :
    Inserted P (World.bind Registry.new) (asked ++ [fragment port, answer]) (asked ++ [answer]) := by
  obtain ⟨w, hw⟩ := Option.isSome_iff_exists.mp hsome
  rw [run_append] at hw
  obtain ⟨v, hv, hrest⟩ := Option.bind_eq_some_iff.mp hw
  rw [run_cons] at hrest
  obtain ⟨u, hu, hlast⟩ := Option.bind_eq_some_iff.mp hrest
  have hdropped : Dropped v ⟨localhost, port⟩ [fragment port] [] u :=
    .malformed (show parseDatagram [0, 0, 1, 3] = .error (.fragmented 1) by decide +kernel) hu
  have htail : Inserted P u [answer] [answer] := inserted_append hlast (.nil w)
  exact inserted_append hv (.drop hdropped (hp v hv) htail)

theorem dropped_spec_fragment :
    sends (World.bind Registry.new) (asked ++ [answer]) =
      sends (World.bind Registry.new) (asked ++ [fragment 4000, answer]) := by
  have hsome : (run step (World.bind Registry.new) (asked ++ [fragment 4000, answer])).isSome =
      true := by decide +kernel
  obtain ⟨w, hw⟩ := Option.isSome_iff_exists.mp hsome
  have hfrom : ∀ w, run step (World.bind Registry.new) asked = some w →
      FromClient w ⟨localhost, 4000⟩ := by
    intro w hw
    have hclient : (run step (World.bind Registry.new) asked).bind (·.relay.clientAddr) =
        some ⟨localhost, 4000⟩ := by decide +kernel
    rw [hw] at hclient
    exact hclient
  obtain ⟨-, -, -, -, -, hsends⟩ := (dropped_spec _).2 _ _ _ (inserted_fragment hfrom hsome) hw
  exact hsends

/-- A fragment from port 5000 redirects the answer to the client at port 4000. -/
theorem fragment_redirects :
    Inserted (fun _ _ => True) (World.bind Registry.new) (asked ++ [fragment 5000, answer])
      (asked ++ [answer]) ∧
    sends (World.bind Registry.new) (asked ++ [answer]) =
      [.inl ([1, 2, 3, 4], server 53),
        .inr (encodeDatagram (server 53) [4, 3] [], ⟨localhost, 4000⟩)] ∧
    sends (World.bind Registry.new) (asked ++ [fragment 5000, answer]) =
      [.inl ([1, 2, 3, 4], server 53),
        .inr (encodeDatagram (server 53) [4, 3] [], ⟨localhost, 5000⟩)] :=
  ⟨inserted_fragment (fun _ _ => trivial) (by decide +kernel), by decide +kernel,
    by decide +kernel⟩

end Wiretally.UdpDropped
