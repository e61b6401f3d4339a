import Wiretally.UdpCounts

/-!
Which of the addresses of a destination the relay sends to.

The first address of an answer is taken, and kept for the rest of the association. The upstream
socket is bound to an IPv4 address, so a destination that was answered with an address the
socket can send to is reached exactly if such an address came first.
-/

namespace Wiretally.UdpFamily

open Wiretally.Lib Wiretally.Lib.AsyncIo Wiretally.Lib.Run Wiretally.Net Wiretally.Stats
open Wiretally.Socks Wiretally.Udp Wiretally.UdpCounts

/-- What a datagram's destination is cached under. -/
def key (datagram : Datagram) : Text × UInt16 := (datagram.host, datagram.port)

/-- The upstream socket, which is bound to `0.0.0.0`, can send to the address. -/
def Sendable (addr : SocketAddr) : Prop := ∃ octets, addr.ip = .v4 octets

instance (addr : SocketAddr) : Decidable (Sendable addr) :=
  match h : addr.ip with
  | .v4 octets => .isTrue ⟨octets, h⟩
  | .v6 _ => .isFalse fun ⟨_, h'⟩ => by rw [h] at h'; cases h'

/-- The answer of the resolver a step brings, with the destination it is for. -/
def answer (w : World) (act : Act) : Option ((Text × UInt16) × List SocketAddr) :=
  match w.pc, act with
  | .lookupHost datagram, .resolves (.ok addrs) => some (key datagram, addrs)
  | _, _ => none

def answers (reg : Registry) (acts : List Act) : List ((Text × UInt16) × List SocketAddr) :=
  (trace step (World.bind reg) acts).filterMap fun t => answer t.1 t.2

/-- The destination was answered with an address the upstream socket can send to. -/
def Offered (answers : List ((Text × UInt16) × List SocketAddr)) (dest : Text × UInt16) : Prop :=
  ∃ a ∈ answers, a.1 = dest ∧ ∃ addr ∈ a.2, Sendable addr

/-- A destination that was offered a sendable address is cached with one, and what is on its way
there is on its way to one. -/
structure Reaches (answers : List ((Text × UInt16) × List SocketAddr)) (w : World) : Prop where
  cached : ∀ dest addr, w.relay.resolved.lookup dest = some addr → Offered answers dest →
    Sendable addr
  sending : ∀ datagram target stats, w.pc = .sendOut datagram target stats →
    Offered answers (key datagram) →
    Sendable target ∧ ∃ a ∈ answers, a.1 = key datagram ∧ target ∈ a.2

/-- Whether this holds in every state of a run. -/
def KeepsReachable (reg : Registry) (acts : List Act) : Prop :=
  ∀ as, as <+: acts → ∀ w, run step (World.bind reg) as = some w → Reaches (answers reg as) w

/-- Every answer with a sendable address has one first. -/
def SendableFirst (reg : Registry) (acts : List Act) : Prop :=
  ∀ a ∈ answers reg acts, ∀ first rest, a.2 = first :: rest →
    (∃ addr ∈ a.2, Sendable addr) → Sendable first

/-- The step finds the destination of the datagram in the cache, or in an answer. -/
inductive Finds (w : World) (datagram : Datagram) : Act → Prop
  | cache {packet addr target} (hpc : w.pc = .select)
    (hparse : parseDatagram packet.bytes = .ok datagram)
    (hcache : w.relay.resolved.lookup (key datagram) = some target) :
    Finds w datagram (.recvClient packet addr)
  | answer {addrs} (hpc : w.pc = .lookupHost datagram) (hne : addrs ≠ []) :
    Finds w datagram (.resolves (.ok addrs))

lemma sending_of_finds {w w' : World} {datagram : Datagram} {act : Act}
    (h : Finds w datagram act) (hstep : step w act = some w') :
    ∃ target stats, w'.pc = .sendOut datagram target stats := by
  cases h with
  | @cache packet addr target hpc hparse hcache =>
    cases step_moves hstep with
    | malformed _ hbad => cases hparse.symm.trans hbad
    | unknown _ hparse' hnone =>
      cases hparse.symm.trans hparse'
      cases hcache.symm.trans hnone
    | known _ hparse' _ =>
      cases hparse.symm.trans hparse'
      exact ⟨_, _, rfl⟩
  | @answer addrs hpc hne =>
    cases step_moves hstep with
    | resolved hpc' =>
      cases hpc.symm.trans hpc'
      exact ⟨_, _, rfl⟩
    | unresolved _ hnone =>
      cases addrs with
      | nil => exact absurd rfl hne
      | cons addr rest => exact absurd rfl (hnone addr rest)

/-! ### What is cached -/

/-- What a step caches is the first address of its answer. -/
lemma lookup_step {w w' : World} {act : Act} {dest : Text × UInt16} {addr : SocketAddr}
    (hstep : step w act = some w') (h : w'.relay.resolved.lookup dest = some addr) :
    w.relay.resolved.lookup dest = some addr ∨ ∃ rest, answer w act = some (dest, addr :: rest) := by
  cases step_moves hstep with
  | @known packet source datagram =>
    exact .inl ((congrArg (AList.lookup dest)
      (endpoint_resolved (w.heard packet source) datagram.host)).symm.trans h)
  | @resolved datagram first rest hpc =>
    have hins := (congrArg (AList.lookup dest) (endpoint_resolved _ _)).symm.trans h
    have hlookup := HashMap.lookup_insert_eq_ite w.relay.resolved (key datagram) dest first
    rw [show AList.lookup dest (w.relay.resolved.insert (key datagram) first) = some addr from hins]
      at hlookup
    split_ifs at hlookup with hdest
    · cases hlookup
      refine .inr ⟨rest, ?_⟩
      unfold answer
      rw [hpc, hdest]
    · exact .inl hlookup.symm
  | @reply packet =>
    exact .inl ((congrArg (AList.lookup dest)
      (endpoint_resolved (w.answered packet) _)).symm.trans h)
  | _ => exact .inl h

lemma lookup_of_answer {w w' : World} {act : Act} {dest : Text × UInt16} {first : SocketAddr}
    {rest : List SocketAddr} (hstep : step w act = some w')
    (h : answer w act = some (dest, first :: rest)) :
    w'.relay.resolved.lookup dest = some first := by
  unfold answer at h
  split at h
  next datagram addrs hpc =>
    cases h
    cases step_moves hstep with
    | resolved hpc' =>
      cases hpc.symm.trans hpc'
      exact (congrArg _ (endpoint_resolved _ _)).trans (AList.lookup_insert _)
    | unresolved _ hnone => exact absurd rfl (hnone first rest)
  next => cases h

section Runs

variable {reg : Registry} {acts : List Act} {w : World}

lemma answers_snoc (h : run step (World.bind reg) acts = some w) (act : Act) :
    answers reg (acts ++ [act]) = answers reg acts ++ (answer w act).toList := by
  unfold answers
  rw [trace_snoc act h, List.filterMap_append]
  cases hs : answer w act <;> simp [hs]

lemma mem_answers_of_earlier {as : List Act} (hpre : as <+: acts)
    (h : run step (World.bind reg) as = some w) :
    ∀ a ∈ answers reg as, a ∈ answers reg acts := by
  obtain ⟨rest, rfl⟩ := hpre
  intro a ha
  unfold answers at ha ⊢
  rw [trace_append rest h, List.filterMap_append]
  exact List.mem_append_left _ ha

/-- **The cache holds the first address of every answer**, from then on. -/
lemma lookup_of_mem_answers (h : run step (World.bind reg) acts = some w) :
    ∀ dest first rest, (dest, first :: rest) ∈ answers reg acts →
      w.relay.resolved.lookup dest = some first := by
  refine run_induction (P := fun acts w => ∀ dest first rest,
    (dest, first :: rest) ∈ answers reg acts → w.relay.resolved.lookup dest = some first) ?_ ?_ h
  · intro dest first rest hmem
    cases hmem
  · intro acts v act v' hrun hv hst dest first rest hmem
    rw [answers_snoc hrun] at hmem
    rcases List.mem_append.mp hmem with hold | hnew
    · exact resolved_step (coherent_run (coherent_bind reg) hrun) hst (hv dest first rest hold)
    · exact lookup_of_answer hst (Option.mem_toList.mp hnew)

lemma mem_answers_of_lookup (h : run step (World.bind reg) acts = some w) :
    ∀ dest addr, w.relay.resolved.lookup dest = some addr →
      ∃ rest, (dest, addr :: rest) ∈ answers reg acts := by
  refine run_induction (P := fun acts w => ∀ dest addr,
    w.relay.resolved.lookup dest = some addr → ∃ rest, (dest, addr :: rest) ∈ answers reg acts)
    ?_ ?_ h
  · intro dest addr hl
    cases hl
  · intro acts v act v' hrun hv hst dest addr hl
    rw [answers_snoc hrun]
    rcases lookup_step hst hl with hold | ⟨rest, hnew⟩
    · obtain ⟨rest, hmem⟩ := hv dest addr hold
      exact ⟨rest, List.mem_append_left _ hmem⟩
    · exact ⟨rest, List.mem_append_right _ (Option.mem_toList.mpr hnew)⟩

lemma reaches_of_sendableFirst (h : run step (World.bind reg) acts = some w)
    (hfirst : SendableFirst reg acts) : Reaches (answers reg acts) w := by
  have hcached : ∀ dest addr, w.relay.resolved.lookup dest = some addr →
      Offered (answers reg acts) dest → Sendable addr := by
    rintro dest addr hl ⟨⟨dest', addrs⟩, hmem, rfl, addr', haddr', hsend⟩
    cases addrs with
    | nil => cases haddr'
    | cons first rest =>
      have hsame := lookup_of_mem_answers h dest' first rest hmem
      cases hsame.symm.trans hl
      exact hfirst _ hmem addr rest rfl ⟨addr', haddr', hsend⟩
  refine ⟨hcached, fun datagram target stats hpc hoff => ?_⟩
  have hl := (coherent_run (coherent_bind reg) h).target datagram target stats hpc
  obtain ⟨rest, hmem⟩ := mem_answers_of_lookup h _ _ hl
  exact ⟨hcached _ _ hl hoff, _, hmem, rfl, List.mem_cons_self⟩

/-- **Which address is sent to.** In every run a datagram whose destination is known, or is
answered with some address, is handed to the upstream socket; and what was offered an address
the socket can send to is sent to such an address, in every state of the run, exactly if every
answer with such an address has one first. -/
theorem keepsReachable_iff (h : run step (World.bind reg) acts = some w) :
    (∀ datagram act w', Finds w datagram act → step w act = some w' →
      ∃ target stats, w'.pc = .sendOut datagram target stats) ∧
    (KeepsReachable reg acts ↔ SendableFirst reg acts) := by
  refine ⟨fun datagram act w' => sending_of_finds, fun hkeeps => ?_, fun hfirst => ?_⟩
  · rintro ⟨dest, addrs⟩ hmem first rest rfl hoff
    have hl := lookup_of_mem_answers h dest first rest hmem
    exact (hkeeps acts List.prefix_rfl w h).cached dest first hl ⟨_, hmem, rfl, hoff⟩
  · intro as hpre v hv
    exact reaches_of_sendableFirst hv fun a ha => hfirst a (mem_answers_of_earlier hpre hv a ha)

end Runs

/-! ### A name with an address of each family -/

def server6 (port : UInt16) : SocketAddr :=
  ⟨.v6 ⟨[0x20, 1, 0xD, 0xB8, 0, 0, 0, 0, 0, 0, 0, 0, 0, 0, 0, 1], rfl⟩, port⟩

def question : Act :=
  .recvClient ⟨[0, 0, 0, 3, 1, 0x61, 0, 53, 5], by decide⟩ ⟨localhost, 4000⟩

/-- Two datagrams for a name whose IPv6 address comes first; the first cannot be sent. -/
def dualStack : List Act :=
  [question, .resolves (.ok [server6 53, server 53]),
    .sends (.error ⟨.other, "Address family not supported"⟩), question]

def sendingTo (w : World) : Option SocketAddr :=
  match w.pc with
  | .sendOut _ target _ => some target
  | _ => none

lemma run_dualStack : ∃ w, run step (World.bind Registry.new) dualStack = some w ∧
    sendingTo w = some (server6 53) := by
  have hsome : (run step (World.bind Registry.new) dualStack).bind sendingTo =
      some (server6 53) := by
    decide +kernel
  exact Option.bind_eq_some_iff.mp hsome

theorem keepsReachable_iff_dualStack :
    KeepsReachable Registry.new dualStack ↔ SendableFirst Registry.new dualStack := by
  obtain ⟨w, hw, -⟩ := run_dualStack
  exact (keepsReachable_iff hw).2

/-- The second datagram goes to the IPv6 address as well. -/
theorem dualStack_not_reached :
    (∃ w, run step (World.bind Registry.new) dualStack = some w ∧
      sendingTo w = some (server6 53)) ∧
    answers Registry.new dualStack = [(("a".toList, 53), [server6 53, server 53])] ∧
    ¬ Sendable (server6 53) ∧ Sendable (server 53) ∧ ¬ KeepsReachable Registry.new dualStack := by
  have hanswers : answers Registry.new dualStack =
      [(("a".toList, 53), [server6 53, server 53])] := by
    decide +kernel
  refine ⟨run_dualStack, hanswers, by decide, by decide, fun hkeeps => ?_⟩
  obtain ⟨w, hw, -⟩ := run_dualStack
  have hmem : (("a".toList, 53), [server6 53, server 53]) ∈ answers Registry.new dualStack := by
    rw [hanswers]
    exact List.mem_singleton_self _
  have hl := lookup_of_mem_answers hw _ _ _ hmem
  have hoff : Offered (answers Registry.new dualStack) ("a".toList, 53) :=
    ⟨_, hmem, rfl, server 53, by decide, by decide⟩
  exact absurd ((hkeeps _ List.prefix_rfl w hw).cached _ _ hl hoff) (by decide)

end Wiretally.UdpFamily
