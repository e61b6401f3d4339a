import Wiretally.Traffic

/-!
How far the report is from the wire.

A tunnel is counted on its client's side, so what waits in a buffer of its copy has been counted
on its way up and not yet on its way down. A buffer holds at most `cap` bytes and is empty once
its copy has ended well, and a connection of the HTTP client is counted at its socket. So a row
is off by no more than one buffer for each tunnel that has not ended well, too much for egress and
too little for ingress.
-/

namespace Wiretally.Accuracy

open Wiretally.Lib Wiretally.Lib.Run Wiretally.Stats Wiretally.Stats.EndpointStats
open Wiretally.Registry Wiretally.Io Wiretally.Splice Wiretally.Traffic

variable {cap : UInt64}

def wrote : Flow cap → List UInt8
  | .tunnel _ _ copy => written copy
  | .upstream _ _ stream => stream.inner.accepted
  | _ => []

def read : Flow cap → List UInt8
  | .tunnel _ _ copy => received copy
  | .upstream _ _ stream => stream.inner.produced
  | _ => []

def unfinished : Flow cap → Bool
  | .tunnel _ _ copy =>
    match copy.result with
    | some (.ok ()) => false
    | _ => true
  | _ => false

/-- What has been counted and not written, or read and not counted, fits in a buffer. -/
lemma buffered {f : Flow cap} (h : Kept f) :
    (∃ n ≤ if unfinished f = true then cap.toNat else 0, f.sent.length = (wrote f).length + n) ∧
      ∃ n ≤ if unfinished f = true then cap.toNat else 0, (read f).length = f.got.length + n := by
  cases f with
  | tunnel host stats copy =>
    obtain ⟨hrel, leftover, hcar⟩ := h
    have hup : copy.a.delivered.length = (written copy).length + copy.aToB.buffer.length := by
      rw [Session.delivered, hrel.up, List.length_append]
      rfl
    have hdown : (received copy).length =
        copy.a.source.accepted.length + copy.bToA.buffer.length := by
      rw [← hcar.passed, ← List.length_append, ← hrel.down]
      rfl
    -- a copy that has ended well has nothing left in its buffers
    have hempty : unfinished (.tunnel host stats copy) = false →
        copy.aToB.buffer = [] ∧ copy.bToA.buffer = [] := by
      intro hf
      refine hrel.clean ?_
      rcases hr : copy.result with _ | _ | ⟨⟨⟩⟩
      · simp only [unfinished, hr] at hf
        cases hf
      · simp only [unfinished, hr] at hf
        cases hf
      · rfl
    refine ⟨⟨_, ?_, hup⟩, ⟨_, ?_, hdown⟩⟩
    · split_ifs with hf
      · exact copy.aToB.fits
      · rw [(hempty (Bool.eq_false_iff.mpr hf)).1]
        exact Nat.le_refl 0
    · split_ifs with hf
      · exact copy.bToA.fits
      · rw [(hempty (Bool.eq_false_iff.mpr hf)).2]
        exact Nat.le_refl 0
  | _ => exact ⟨⟨0, Nat.zero_le _, rfl⟩, ⟨0, Nat.zero_le _, rfl⟩⟩

/-- Sums whose terms are no further apart than a bound, and only where it says. -/
lemma sum_apart {α : Type} {g g' : α → ℕ} {p : α → Bool} {bound : ℕ} {xs : List α}
    (h : ∀ x ∈ xs, ∃ n ≤ if p x = true then bound else 0, g x = g' x + n) :
    ∃ n ≤ xs.countP p * bound, (xs.map fun x => UInt64.ofNat (g x)).sum =
      (xs.map fun x => UInt64.ofNat (g' x)).sum + .ofNat n := by
  induction xs with
  | nil => exact ⟨0, Nat.zero_le _, rfl⟩
  | cons x xs ih =>
    obtain ⟨n, hn, hsum⟩ := ih fun y hy => h y (List.mem_cons_of_mem x hy)
    obtain ⟨m, hm, hx⟩ := h x List.mem_cons_self
    refine ⟨m + n, ?_, ?_⟩
    · rw [List.countP_cons, Nat.add_mul]
      split_ifs at hm ⊢ <;> omega
    · rw [List.map_cons, List.map_cons, List.sum_cons, List.sum_cons, hsum, hx, UInt64.ofNat_add,
        UInt64.ofNat_add]
      abel

/-- **How exact a row is.** In every state that can be reached, the egress shown for a host is
what was written to its sockets and no more than a buffer for each tunnel to it that has not
ended well, and its ingress falls short of what was read from them by no more than that. -/
theorem snapshot_within_buffers {acts : List Act} {w : World cap}
    (h : run step (World.start : World cap) acts = some w) (filter : Option Text)
    {listing : List (Text × Arc)} (hl : HashMap.Lists w.registry.endpoints listing) :
    ∀ e ∈ w.registry.snapshotOf filter listing,
      (∃ excess ≤ (w.flowsTo e.domain).countP unfinished * cap.toNat,
        e.egressBytes = ((w.flowsTo e.domain).map fun f => UInt64.ofNat (wrote f).length).sum +
          relays cap e.domain .egress acts + .ofNat excess) ∧
      ∃ deficit ≤ (w.flowsTo e.domain).countP unfinished * cap.toNat,
        e.ingressBytes + .ofNat deficit =
          ((w.flowsTo e.domain).map fun f => UInt64.ofNat (read f).length).sum +
            relays cap e.domain .ingress acts := by
  intro e he
  have hw := sound_run h
  have hkept : ∀ f ∈ w.flowsTo e.domain, Kept f := by
    intro f hf
    obtain ⟨i, hi⟩ := List.mem_iff_getElem?.mp (List.mem_filter.mp hf).1
    exact hw.kept i f hi
  have hvalue : ∀ c, e.count c = shares e.domain c w + relays cap e.domain c acts := fun c =>
    (count_of_mem hl he c).trans (value_run h e.domain c)
  obtain ⟨hegress, hingress, -⟩ := sum_counted hw e.domain
  obtain ⟨excess, hexcess, hsent⟩ := sum_apart fun f hf => (buffered (hkept f hf)).1
  obtain ⟨deficit, hdeficit, hread⟩ := sum_apart fun f hf => (buffered (hkept f hf)).2
  refine ⟨⟨excess, hexcess, ?_⟩, ⟨deficit, hdeficit, ?_⟩⟩
  · have hcount : e.egressBytes = _ := hvalue .egress
    rw [hcount, hegress, hsent]
    abel
  · have hcount : e.ingressBytes = _ := hvalue .ingress
    rw [hcount, hingress, hread]
    abel

theorem snapshot_within_buffers_mixed : ∃ w : World 16, run step World.start mixed = some w ∧
    ∀ e ∈ w.registry.snapshot none,
      (∃ excess ≤ (w.flowsTo e.domain).countP unfinished * 16,
        e.egressBytes = ((w.flowsTo e.domain).map fun f => UInt64.ofNat (wrote f).length).sum +
          relays 16 e.domain .egress mixed + .ofNat excess) ∧
      ∃ deficit ≤ (w.flowsTo e.domain).countP unfinished * 16,
        e.ingressBytes + .ofNat deficit =
          ((w.flowsTo e.domain).map fun f => UInt64.ofNat (read f).length).sum +
            relays 16 e.domain .ingress mixed := by
  have hruns : (run step (World.start : World 16) mixed).isSome = true := by decide +kernel
  obtain ⟨w, hw⟩ := Option.isSome_iff_exists.mp hruns
  exact ⟨w, hw, snapshot_within_buffers hw none (HashMap.lists_toList _)⟩

end Wiretally.Accuracy
