import Wiretally.UdpCounts

/-!
Where a UDP association sends its replies.

The address of the client is taken from every datagram the socket facing it receives, so a
reply goes to whoever sent there last. That is the sender of the first datagram exactly as long
as there is no other sender.
-/

namespace Wiretally.UdpClient

open Wiretally.Lib Wiretally.Lib.AsyncIo Wiretally.Lib.Run Wiretally.Net Wiretally.Stats
open Wiretally.Socks Wiretally.Udp Wiretally.UdpCounts

def sender : Act → Option SocketAddr
  | .recvClient _ addr => some addr
  | _ => none

/-- Where the datagrams for the socket facing the client came from, in order. -/
def senders (acts : List Act) : List SocketAddr := acts.filterMap sender

/-- Whether in every state of a run the client is where the first datagram came from, and every
reply is handed over for there. -/
def KeepsClient (reg : Registry) (acts : List Act) : Prop :=
  ∀ as, as <+: acts → ∀ w, run step (World.bind reg) as = some w →
    w.relay.clientAddr = (senders as).head? ∧
      ∀ bytes addr, handedBack w = some (bytes, addr) → (senders as).head? = some addr

/-- Whether all datagrams for the socket facing the client came from one address. -/
def OneSender (acts : List Act) : Prop := ∀ a ∈ senders acts, ∀ b ∈ senders acts, a = b

lemma senders_append (as bs : List Act) : senders (as ++ bs) = senders as ++ senders bs :=
  List.filterMap_append

lemma OneSender.of_prefix {as acts : List Act} (h : OneSender acts) (hpre : as <+: acts) :
    OneSender as := by
  obtain ⟨rest, rfl⟩ := hpre
  intro a ha b hb
  rw [OneSender, senders_append] at h
  exact h a (List.mem_append_left _ ha) b (List.mem_append_left _ hb)

lemma OneSender.head_eq_last {acts : List Act} (h : OneSender acts) :
    (senders acts).head? = (senders acts).getLast? := by
  cases hs : (senders acts).getLast? with
  | none => rw [List.getLast?_eq_none_iff.mp hs, List.head?_nil]
  | some last =>
    have hlast := List.mem_of_getLast? hs
    obtain ⟨first, hfirst⟩ := Option.isSome_iff_exists.mp
      (List.isSome_head?.mpr (List.ne_nil_of_mem hlast))
    rw [hfirst, h first (List.mem_of_head? hfirst) last hlast]

/-! ### Where the client is -/

lemma clientAddr_step {w w' : World} {act : Act} (h : step w act = some w') :
    w'.relay.clientAddr = (sender act).or w.relay.clientAddr := by
  cases step_moves h with
  | known => exact endpoint_clientAddr _ _
  | resolved => exact endpoint_clientAddr _ _
  | reply => exact endpoint_clientAddr _ _
  | _ => rfl

section Runs

variable {reg : Registry} {acts : List Act} {w : World}

lemma clientAddr_run (h : run step (World.bind reg) acts = some w) :
    w.relay.clientAddr = (senders acts).getLast? := by
  refine run_induction (P := fun acts w => w.relay.clientAddr = (senders acts).getLast?) rfl ?_ h
  intro acts v act v' hrun hv hst
  rw [clientAddr_step hst, hv, senders_append, List.getLast?_append]
  congr 1
  cases act <;> rfl

lemma clientAddr_of_handedBack (h : run step (World.bind reg) acts = some w) {bytes : List UInt8}
    {addr : SocketAddr} (hw : handedBack w = some (bytes, addr)) :
    w.relay.clientAddr = some addr := by
  have hinv : ∀ bytes addr, handedBack w = some (bytes, addr) →
      w.relay.clientAddr = some addr := by
    refine run_inv (I := fun w => ∀ bytes addr, handedBack w = some (bytes, addr) →
      w.relay.clientAddr = some addr) ?_ ?_ h
    · intro v act v' hv hst bytes addr hback
      cases step_moves hst with
      | @reply packet source clientAddr hpc hclient =>
        cases hback
        exact (endpoint_clientAddr _ _).trans hclient
      | endpoint => exact hv bytes addr hback
      | fetchAdd => exact hv bytes addr hback
      | observeIp => exact hv bytes addr hback
      | _ => cases hback
    · intro bytes addr hback
      cases hback
  exact hinv bytes addr hw

lemma keepsClient_of_oneSender (h : OneSender acts) : KeepsClient reg acts := by
  intro as hpre w hrun
  have hlast := clientAddr_run hrun
  rw [← (h.of_prefix hpre).head_eq_last] at hlast
  refine ⟨hlast, fun bytes addr hback => ?_⟩
  rw [← hlast]
  exact clientAddr_of_handedBack hrun hback

lemma oneSender_of_keepsClient (hrun : run step (World.bind reg) acts = some w)
    (h : KeepsClient reg acts) : OneSender acts := by
  induction acts using List.reverseRecOn generalizing w with
  | nil =>
    intro a ha
    cases ha
  | append_singleton acts act ih =>
    obtain ⟨v, hv, hst⟩ := (run_snoc step).mp hrun
    have hone : OneSender acts := ih hv fun as hpre =>
      h as (hpre.trans (List.prefix_append acts [act]))
    cases hact : sender act with
    | none =>
      have hsame : senders (acts ++ [act]) = senders acts := by
        simp [senders, hact]
      rw [OneSender, hsame]
      exact hone
    | some addr =>
      have hsnoc : senders (acts ++ [act]) = senders acts ++ [addr] := by
        simp [senders, hact]
      -- the client is now where the last datagram came from, so that is where the first did
      have hhead := (h _ List.prefix_rfl w hrun).1
      rw [clientAddr_run hrun, hsnoc, List.getLast?_append, List.head?_append] at hhead
      have hall : ∀ a ∈ senders acts, a = addr := by
        intro a ha
        obtain ⟨first, hfirst⟩ := Option.isSome_iff_exists.mp
          (List.isSome_head?.mpr (List.ne_nil_of_mem ha))
        rw [hfirst] at hhead
        cases hhead
        exact hone a ha _ (List.mem_of_head? hfirst)
      rw [OneSender, hsnoc]
      intro a ha b hb
      have hmem : ∀ c ∈ senders acts ++ [addr], c = addr := by
        intro c hc
        rcases List.mem_append.mp hc with hc | hc
        · exact hall c hc
        · exact List.mem_singleton.mp hc
      rw [hmem a ha, hmem b hb]

/-- **Where replies go.** In every run a reply is handed over for the sender of the last
datagram on the socket facing the client; the client stays where the first came from, and every
reply goes there, exactly if all came from one address. -/
theorem keepsClient_iff_oneSender (h : run step (World.bind reg) acts = some w) :
    (KeepsClient reg acts ↔ OneSender acts) ∧
      ∀ bytes addr, handedBack w = some (bytes, addr) → (senders acts).getLast? = some addr := by
  refine ⟨⟨oneSender_of_keepsClient h, keepsClient_of_oneSender⟩, fun bytes addr hback => ?_⟩
  rw [← clientAddr_run h]
  exact clientAddr_of_handedBack h hback

end Runs

/-! ### A second sender -/

/-- The client asks a question, somebody else sends two bytes, and the answer arrives. -/
def redirected : List Act :=
  [.recvClient ⟨[0, 0, 0, 3, 1, 0x61, 0, 53, 7], by decide⟩ ⟨localhost, 4000⟩,
    .resolves (.ok [server 53]),
    .sends (.ok ()),
    .recvClient ⟨[6, 6], by decide⟩ ⟨localhost, 5000⟩,
    .recvUpstream ⟨[9, 9, 9], by decide⟩ (server 53)]

lemma run_redirected : ∃ w, run step (World.bind Registry.new) redirected = some w ∧
    handedBack w = some (encodeDatagram (server 53) [9, 9, 9] [], ⟨localhost, 5000⟩) := by
  have hsome : (run step (World.bind Registry.new) redirected).bind handedBack =
      some (encodeDatagram (server 53) [9, 9, 9] [], ⟨localhost, 5000⟩) := by
    decide +kernel
  exact Option.bind_eq_some_iff.mp hsome

theorem keepsClient_iff_oneSender_redirected :
    (KeepsClient Registry.new redirected ↔ OneSender redirected) ∧
      (senders redirected).getLast? = some ⟨localhost, 5000⟩ := by
  obtain ⟨w, hw, hback⟩ := run_redirected
  obtain ⟨hiff, hlast⟩ := keepsClient_iff_oneSender hw
  exact ⟨hiff, hlast _ _ hback⟩

/-- The answer to the client at port 4000 is sent to port 5000. -/
theorem redirected_not_keepsClient :
    (∃ w, run step (World.bind Registry.new) redirected = some w ∧
      handedBack w = some (encodeDatagram (server 53) [9, 9, 9] [], ⟨localhost, 5000⟩)) ∧
    (senders redirected).head? = some ⟨localhost, 4000⟩ ∧
    ¬ KeepsClient Registry.new redirected := by
  refine ⟨run_redirected, rfl, fun hkeeps => ?_⟩
  obtain ⟨w, hw, hback⟩ := run_redirected
  have hfirst := (hkeeps _ List.prefix_rfl w hw).2 _ _ hback
  exact absurd hfirst (by decide)

end Wiretally.UdpClient
