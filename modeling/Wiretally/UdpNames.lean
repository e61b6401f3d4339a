import Wiretally.UdpCounts

/-!
Under which host a UDP reply is counted.

The relay remembers one host for each IP address: the one of the last datagram it sent there,
whatever the port. So a reply from an address the client did address under a name is counted
under such a name exactly if the last datagram to its IP address names one; where hosts share
an IP address, the last one used takes the replies of all.
-/

namespace Wiretally.UdpNames

open Wiretally.Lib Wiretally.Lib.AsyncIo Wiretally.Lib.Run Wiretally.Net Wiretally.Stats
open Wiretally.Registry Wiretally.Socks Wiretally.Udp Wiretally.UdpCounts

/-- The host named by a datagram the upstream socket has taken, and the address it went to. -/
def sent (w : World) (act : Act) : Option (Text × SocketAddr) :=
  match w.pc, act with
  | .sendOut datagram target _, .sends (.ok ()) => some (datagram.host, target)
  | _, _ => none

/-- What the association has sent, in order. -/
def history (reg : Registry) (acts : List Act) : List (Text × SocketAddr) :=
  (trace step (World.bind reg) acts).filterMap fun t => sent t.1 t.2

/-- The host named by the last datagram sent to an IP address. -/
def lastTo (ip : IpAddr) (history : List (Text × SocketAddr)) : Option Text :=
  history.foldl (fun last e => if e.2.ip = ip then some e.1 else last) none

/-- The reply on its way to the client: its source, its payload, and the host it is for. -/
def crediting (w : World) : Option (SocketAddr × List UInt8 × Text) :=
  match w.pc with
  | .sendBack source payload _ host _ => some (source, payload, host)
  | _ => none

/-- A reply is credited to a host under which its source was addressed, if it was; and to its
own IP address if nothing was ever sent there. -/
def Credited (history : List (Text × SocketAddr)) (source : SocketAddr) (host : Text) : Prop :=
  ((∃ h, (h, source) ∈ history) → (host, source) ∈ history) ∧
    ((∀ e ∈ history, e.2.ip ≠ source.ip) → host = source.ip.toText)

/-- The last datagram to the IP address of `source` names a host under which `source` itself
was addressed, if it was. -/
def LastFits (history : List (Text × SocketAddr)) (source : SocketAddr) : Prop :=
  (∃ h, (h, source) ∈ history) →
    ∃ h, lastTo source.ip history = some h ∧ (h, source) ∈ history

/-! ### The last datagram to an IP address -/

lemma lastTo_snoc (ip : IpAddr) (history : List (Text × SocketAddr)) (e : Text × SocketAddr) :
    lastTo ip (history ++ [e]) = if e.2.ip = ip then some e.1 else lastTo ip history := by
  simp [lastTo, List.foldl_append]

lemma lastTo_eq_none {ip : IpAddr} {history : List (Text × SocketAddr)} :
    lastTo ip history = none ↔ ∀ e ∈ history, e.2.ip ≠ ip := by
  induction history using List.reverseRecOn with
  | nil => simp [lastTo]
  | append_singleton history e ih =>
    rw [lastTo_snoc]
    by_cases he : e.2.ip = ip
    · rw [if_pos he]
      refine iff_of_false nofun fun h => ?_
      exact h e (List.mem_append_right _ (List.mem_singleton_self e)) he
    · rw [if_neg he, ih]
      constructor
      · intro h e' he'
        rcases List.mem_append.mp he' with hm | hm
        · exact h e' hm
        · rw [List.mem_singleton.mp hm]
          exact he
      · exact fun h e' he' => h e' (List.mem_append_left _ he')

/-! ### What the relay remembers -/

lemma sent_of_ne {act : Act} (h : act ≠ .sends (.ok ())) (w : World) : sent w act = none := by
  unfold sent
  split
  next => exact absurd rfl h
  next => rfl

lemma names_step {w w' : World} {act : Act} (hstep : step w act = some w') :
    w'.relay.names = (sent w act).elim w.relay.names fun e => w.relay.names.insert e.2.ip e.1 := by
  by_cases hact : act = .sends (.ok ())
  · subst hact
    unfold sent
    cases step_moves hstep with
    | sentOut hpc =>
      rw [hpc]
      rfl
    | sentBack hpc =>
      rw [hpc]
      rfl
  · rw [sent_of_ne hact w, Option.elim_none]
    cases step_moves hstep with
    | sentOut => exact absurd rfl hact
    | known => exact endpoint_names _ _
    | resolved => exact endpoint_names _ _
    | reply => exact endpoint_names _ _
    | _ => rfl

section Runs

variable {reg : Registry} {acts : List Act} {w : World}

lemma history_snoc (h : run step (World.bind reg) acts = some w) (act : Act) :
    history reg (acts ++ [act]) = history reg acts ++ (sent w act).toList := by
  unfold history
  rw [trace_snoc act h, List.filterMap_append]
  cases hs : sent w act <;> simp [hs]

/-- **The relay remembers the last name used for an IP address.** -/
theorem names_run (h : run step (World.bind reg) acts = some w) (ip : IpAddr) :
    w.relay.names.lookup ip = lastTo ip (history reg acts) := by
  refine run_induction
    (P := fun acts w => w.relay.names.lookup ip = lastTo ip (history reg acts)) ?_ ?_ h
  · rfl
  · intro acts v act v' hrun hv hst
    rw [names_step hst, history_snoc hrun]
    cases sent v act with
    | none => simpa using hv
    | some e =>
      rw [Option.elim_some, Option.toList_some, lastTo_snoc, HashMap.lookup_insert_eq_ite, ← hv]
      exact if_congr eq_comm rfl rfl

lemma host_of_crediting (h : run step (World.bind reg) acts = some w) {source : SocketAddr}
    {payload : List UInt8} {host : Text} (hw : crediting w = some (source, payload, host)) :
    host = w.replyHost source.ip := by
  have hkept : ∀ source payload host, crediting w = some (source, payload, host) →
      host = w.replyHost source.ip := by
    refine run_inv (I := fun w => ∀ source payload host,
      crediting w = some (source, payload, host) → host = w.replyHost source.ip) ?_ ?_ h
    · intro v act v' hv hst source payload host hcredit
      cases step_moves hst with
      | reply =>
        cases hcredit
        unfold World.replyHost
        exact congrArg (fun names => (AList.lookup _ names).getD _) (endpoint_names _ _).symm
      | endpoint => exact hv source payload host hcredit
      | fetchAdd => exact hv source payload host hcredit
      | observeIp => exact hv source payload host hcredit
      | _ => cases hcredit
    · intro source payload host hcredit
      cases hcredit
  exact hkept source payload host hw

lemma no_client_of_step {w' : World} {act : Act} (hstep : step w act = some w')
    (hnone : w'.relay.clientAddr = none) : w.relay.clientAddr = none := by
  cases step_moves hstep with
  | malformed => cases hnone
  | unknown => cases hnone
  | @known packet addr datagram target =>
    cases (endpoint_clientAddr (w.heard packet addr) datagram.host).symm.trans hnone
  | @resolved datagram addr =>
    exact (endpoint_clientAddr (w.learned datagram addr) datagram.host).symm.trans hnone
  | @reply packet addr =>
    exact (endpoint_clientAddr (w.answered packet) _).symm.trans hnone
  | _ => exact hnone

/-- Until then the relay waits for a datagram, or has returned. -/
lemma idle_of_no_client {w' : World} {act : Act} (hstep : step w act = some w')
    (hidle : w.pc = .select ∨ w.pc = .returned) (hnone : w'.relay.clientAddr = none) :
    w'.pc = .select ∨ w'.pc = .returned := by
  have hclient := no_client_of_step hstep hnone
  cases step_moves hstep with
  | unknown => cases hnone
  | @known packet addr datagram target =>
    cases (endpoint_clientAddr (w.heard packet addr) datagram.host).symm.trans hnone
  | resolved hpc =>
    rw [hpc] at hidle
    rcases hidle with h | h <;> cases h
  | reply hpc hsome => cases hsome.symm.trans hclient
  | returned => exact .inr rfl
  | endpoint => exact hidle
  | fetchAdd => exact hidle
  | observeIp => exact hidle
  | _ => exact .inl rfl

lemma sent_of_idle (h : w.pc = .select ∨ w.pc = .returned) (act : Act) : sent w act = none := by
  unfold sent
  rcases h with h | h <;> rw [h]

lemma history_of_no_client (h : run step (World.bind reg) acts = some w)
    (hnone : w.relay.clientAddr = none) : history reg acts = [] := by
  have hinv : w.relay.clientAddr = none →
      history reg acts = [] ∧ (w.pc = .select ∨ w.pc = .returned) := by
    refine run_induction (P := fun acts w => w.relay.clientAddr = none →
      history reg acts = [] ∧ (w.pc = .select ∨ w.pc = .returned)) ?_ ?_ h
    · exact fun _ => ⟨rfl, .inl rfl⟩
    · intro acts v act v' hrun hv hst hnone'
      obtain ⟨hempty, hidle⟩ := hv (no_client_of_step hst hnone')
      rw [history_snoc hrun, sent_of_idle hidle, hempty]
      exact ⟨rfl, idle_of_no_client hst hidle hnone'⟩
  exact (hinv hnone).1

lemma crediting_of_sent (h : run step (World.bind reg) acts = some w)
    (hsent : history reg acts ≠ []) {packet : Packet} {source : SocketAddr} {w' : World}
    (hstep : step w (.recvUpstream packet source) = some w') :
    ∃ host, crediting w' = some (source, packet.bytes, host) := by
  cases step_moves hstep with
  | orphan hpc hclient => exact absurd (history_of_no_client h hclient) hsent
  | reply => exact ⟨_, rfl⟩

/-- The payload of a reply goes to the row of one host once the socket has taken it. -/
lemma value_of_crediting (h : run step (World.bind reg) acts = some w) {source : SocketAddr}
    {payload : List UInt8} {host : Text} (hw : crediting w = some (source, payload, host)) :
    ∃ w', step w (.sends (.ok ())) = some w' ∧ ∀ k, value w'.registry k .ingress =
      value w.registry k .ingress + if host = k then .ofNat payload.length else 0 := by
  have hcoherent := coherent_run (coherent_bind reg) h
  unfold crediting at hw
  cases hpc : w.pc with
  | sendBack source' payload' clientAddr host' stats =>
    rw [hpc] at hw
    cases hw
    have hstep : step w (.sends (.ok ())) = some (w.sentBack payload stats) := by
      simp only [step, hpc]
    refine ⟨_, hstep, fun k => ?_⟩
    rw [value_step hcoherent hstep]
    simp [others, relays, backward, hpc]
  | _ =>
    rw [hpc] at hw
    cases hw

/-- The host remembered for a source is one its replies may be credited to exactly if the last
datagram to its IP address fits. -/
lemma credited_lastTo_iff (history : List (Text × SocketAddr)) (source : SocketAddr) :
    Credited history source ((lastTo source.ip history).getD source.ip.toText) ↔
      LastFits history source := by
  cases hlast : lastTo source.ip history with
  | none =>
    have hnone := lastTo_eq_none.mp hlast
    have hnever : ¬ ∃ h, (h, source) ∈ history := fun ⟨h, hm⟩ => hnone _ hm rfl
    rw [Option.getD_none]
    exact iff_of_true ⟨fun hs => absurd hs hnever, fun _ => rfl⟩ (fun hs => absurd hs hnever)
  | some name =>
    have hsome : ¬ ∀ e ∈ history, e.2.ip ≠ source.ip := by
      intro hnone
      rw [lastTo_eq_none.mpr hnone] at hlast
      cases hlast
    rw [Option.getD_some]
    constructor
    · intro hc hs
      exact ⟨name, hlast, hc.1 hs⟩
    · intro hf
      refine ⟨fun hs => ?_, fun hnone => absurd hnone hsome⟩
      obtain ⟨k, hk, hm⟩ := hf hs
      rw [hlast] at hk
      cases hk
      exact hm

/-- **Under which host a reply is counted.** In every run: a reply that arrives once something
has been sent is handed to the client; its payload is added to the row of one host when the
socket takes it; and that is a host it may be credited to exactly if the last datagram to its
IP address fits. -/
theorem credited_iff_lastFits (h : run step (World.bind reg) acts = some w) :
    (∀ packet source w', history reg acts ≠ [] → step w (.recvUpstream packet source) = some w' →
      ∃ host, crediting w' = some (source, packet.bytes, host)) ∧
    ∀ source payload host, crediting w = some (source, payload, host) →
      (∃ w', step w (.sends (.ok ())) = some w' ∧ ∀ k, value w'.registry k .ingress =
        value w.registry k .ingress + if host = k then .ofNat payload.length else 0) ∧
      (Credited (history reg acts) source host ↔ LastFits (history reg acts) source) := by
  refine ⟨fun _ _ _ hsent => crediting_of_sent h hsent, fun source payload host hw =>
    ⟨value_of_crediting h hw, ?_⟩⟩
  have hhost := host_of_crediting h hw
  unfold World.replyHost at hhost
  rw [hhost, names_run h]
  exact credited_lastTo_iff _ _

end Runs

/-! ### Two hosts on one address -/

/-- A datagram for port 1000 of `a`, one for port 2000 of `b`, and a reply from the former. -/
def coHosted : List Act :=
  [.recvClient ⟨[0, 0, 0, 3, 1, 0x61, 3, 232, 7], by decide⟩ ⟨localhost, 4000⟩,
    .resolves (.ok [server 1000]),
    .sends (.ok ()),
    .recvClient ⟨[0, 0, 0, 3, 1, 0x62, 7, 208, 7], by decide⟩ ⟨localhost, 4000⟩,
    .resolves (.ok [server 2000]),
    .sends (.ok ()),
    .recvUpstream ⟨[9], by decide⟩ (server 1000)]

lemma run_coHosted : ∃ w, run step (World.bind Registry.new) coHosted = some w ∧
    crediting w = some (server 1000, [9], "b".toList) := by
  have hsome : (run step (World.bind Registry.new) coHosted).bind crediting =
      some (server 1000, [9], "b".toList) := by
    decide +kernel
  exact Option.bind_eq_some_iff.mp hsome

theorem credited_iff_lastFits_coHosted :
    Credited (history Registry.new coHosted) (server 1000) "b".toList ↔
      LastFits (history Registry.new coHosted) (server 1000) := by
  obtain ⟨w, hw, hcredit⟩ := run_coHosted
  exact ((credited_iff_lastFits hw).2 _ _ _ hcredit).2

/-- The reply from the port of `a` is counted under `b`, which was never used for it. -/
theorem coHosted_not_credited :
    ∃ w, run step (World.bind Registry.new) coHosted = some w ∧
      crediting w = some (server 1000, [9], "b".toList) ∧
      history Registry.new coHosted = [("a".toList, server 1000), ("b".toList, server 2000)] ∧
      ¬ Credited (history Registry.new coHosted) (server 1000) "b".toList := by
  obtain ⟨w, hw, hcredit⟩ := run_coHosted
  have hhistory : history Registry.new coHosted =
      [("a".toList, server 1000), ("b".toList, server 2000)] := by
    decide +kernel
  refine ⟨w, hw, hcredit, hhistory, ?_⟩
  rw [hhistory]
  rintro ⟨hused, -⟩
  have hmem := hused ⟨_, List.mem_cons_self⟩
  exact absurd hmem (by decide +kernel)

end Wiretally.UdpNames
