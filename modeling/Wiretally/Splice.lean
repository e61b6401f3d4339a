import Wiretally.Io
import Wiretally.Lib.Copy

/-!
Splicing a tunnel.

The client's side is the counted, rewound stream; the upstream socket is used as it is. What
is counted is what is read from the client and what is written to it, so a byte that waits in
a buffer of the copy has been counted on its way up and has not been on its way down. When
the copy ends, the counters agree with the upstream socket exactly if no byte is waiting.
-/

namespace Wiretally.Splice

open Wiretally.Lib.AsyncIo Wiretally.Lib.Run Wiretally.Lib.Copy Wiretally.Stats Wiretally.Io
open Wiretally.Stats.EndpointStats

variable {C U : Type}

/-- The copy between the client's side and upstream; a buffer holds at most `cap` bytes. -/
abbrev Tunnel (cap : UInt64) (C U : Type) :=
  Duplex cap.toNat (Session C) (Probe U)

/-- The tunnel as `connect_and_splice` starts it, behind the handshake. -/
def start (cap : UInt64) (leftover : List UInt8) (client : C) (upstream : U)
    (stats : EndpointStats) (log : Option ConnLog) : Tunnel cap C U :=
  Duplex.new cap.toNat (Session.start leftover client stats .client log) (Probe.new upstream)

variable {cap : UInt64}

def counters (t : Tunnel cap C U) : EndpointStats := t.a.stream.stats

def written (t : Tunnel cap C U) : List UInt8 := t.b.accepted

def received (t : Tunnel cap C U) : List UInt8 := t.b.produced

/-- The counters have grown by what the upstream socket took and gave. -/
def Exact (stats : EndpointStats) (t : Tunnel cap C U) : Prop :=
  (counters t).egress = stats.egress + .ofNat (written t).length ∧
    (counters t).ingress = stats.ingress + .ofNat (received t).length

/-- Nothing waits in either buffer. -/
def Flushed (t : Tunnel cap C U) : Prop := t.aToB.buffer = [] ∧ t.bToA.buffer = []

section Runs

variable [AsyncRead C] [AsyncWrite C] [AsyncRead U] [AsyncWrite U]
variable {leftover : List UInt8} {client : C} {upstream : U} {stats : EndpointStats}
variable {log : Option ConnLog}

lemma run_relayed {acts : List Act} {t : Tunnel cap C U}
    (h : run step (start cap leftover client upstream stats log) acts = some t) : Relayed t :=
  run_inv (fun _ _ _ hs hst => relayed_step hs hst) (relayed_new _ upstream) h

lemma run_carries {acts : List Act} {t : Tunnel cap C U}
    (h : run step (start cap leftover client upstream stats log) acts = some t) :
    Carries leftover stats .client t.a := by
  have hkeep : ∀ (s : Tunnel cap C U) a t, Carries leftover stats .client s.a →
      step s a = some t → Carries leftover stats .client t.a := fun s a t hs hst =>
    kept_step (P := Carries leftover stats .client) (fun _ c hs => carries_perform hs c) hs hst
  exact run_inv (I := fun t : Tunnel cap C U => Carries leftover stats .client t.a) hkeep
    (carries_start leftover client stats .client log) h

lemma ofNat_length_eq_zero (d : Relay cap.toNat) :
    UInt64.ofNat d.buffer.length = 0 ↔ d.buffer = [] := by
  have hcap : cap.toNat < 2 ^ 64 := cap.toNat_lt
  have hfits := d.fits
  constructor
  · intro h
    have hnat := congrArg UInt64.toNat h
    rw [UInt64.toNat_ofNat_of_lt' (lt_of_le_of_lt hfits hcap)] at hnat
    exact List.length_eq_zero_iff.mp hnat
  · intro h
    rw [h]
    rfl

/-- **What the counters hold at any time**: what went upstream and what waits to, and what
came from upstream without what waits to go on. -/
theorem run_counts {acts : List Act} {t : Tunnel cap C U}
    (h : run step (start cap leftover client upstream stats log) acts = some t) :
    (counters t).egress = stats.egress + .ofNat (written t).length + .ofNat t.aToB.buffer.length ∧
      (counters t).ingress + .ofNat t.bToA.buffer.length = stats.ingress + .ofNat (received t).length := by
  have hrel := run_relayed h
  have hcar := run_carries h
  have hup : t.a.produced.length = (written t).length + t.aToB.buffer.length := by
    rw [hrel.up, List.length_append]
    rfl
  have hdown : (received t).length = t.a.source.accepted.length + t.bToA.buffer.length := by
    rw [← hcar.passed, ← List.length_append, ← hrel.down]
    rfl
  have hstats : counters t = _ := hcar.counted
  constructor
  · rw [hstats, Session.delivered, hup, UInt64.ofNat_add, UInt64.add_assoc]
    rfl
  · rw [hstats, hdown, UInt64.ofNat_add, ← UInt64.add_assoc]
    rfl

/-- **When a tunnel's counters are exact.** Whenever the copy ends, the counters agree with
the upstream socket if and only if its last step found both buffers empty. -/
theorem exact_iff_flushed {acts : List Act} {s t : Tunnel cap C U} {act : Act}
    (h : run step (start cap leftover client upstream stats log) acts = some s)
    (hstep : step s act = some t) (hend : t.result.isSome = true) :
    Exact stats t ↔ Flushed s := by
  obtain ⟨hegress, hingress⟩ := run_counts ((run_snoc step).mpr ⟨s, h, hstep⟩)
  obtain ⟨hup, hdown⟩ := buffers_of_ending_step hstep hend
  have hup' : (counters t).egress = stats.egress + .ofNat (written t).length ↔ t.aToB.buffer = [] := by
    rw [hegress, ← ofNat_length_eq_zero]
    exact add_eq_left
  have hdown' : (counters t).ingress = stats.ingress + .ofNat (received t).length ↔
      t.bToA.buffer = [] := by
    rw [← hingress, ← ofNat_length_eq_zero]
    exact left_eq_add
  rw [Exact, Flushed, hup', hdown', hup, hdown]

theorem exact_of_clean {acts : List Act} {t : Tunnel cap C U}
    (h : run step (start cap leftover client upstream stats log) acts = some t)
    (hok : t.result = some (.ok ())) : Exact stats t := by
  obtain ⟨hegress, hingress⟩ := run_counts h
  obtain ⟨hup, hdown⟩ := (run_relayed h).clean hok
  constructor
  · rw [hegress, hup]
    exact UInt64.add_zero _
  · rw [← hingress, hdown]
    exact (UInt64.add_zero _).symm

end Runs

/-! ### An upload cut short -/

/-- The client sends three bytes; the upstream socket is gone when they are passed on. -/
def lostUpload : Tunnel 16 Script Script :=
  start 16 [] ⟨[.data [1, 2, 3]], []⟩ ⟨[], [.error ⟨.connectionReset, "reset"⟩]⟩ .fresh none

theorem exact_iff_flushed_lostUpload :
    ∃ s t : Tunnel 16 Script Script, run step lostUpload [.aToB (.fill 16)] = some s ∧
      step s (.aToB .drain) = some t ∧ (Exact .fresh t ↔ Flushed s) := by
  have hs : run step lostUpload [.aToB (.fill 16)] = some _ := rfl
  refine ⟨_, _, hs, rfl, exact_iff_flushed hs (?_ : step _ (.aToB .drain) = some _) ?_⟩
  · rfl
  · rfl

theorem lostUpload_not_exact :
    ∃ t : Tunnel 16 Script Script, run step lostUpload [.aToB (.fill 16), .aToB .drain] = some t ∧
      t.result.isSome = true ∧ (counters t).egress = 3 ∧ written t = [] :=
  ⟨_, rfl, rfl, rfl, rfl⟩

end Wiretally.Splice
