import Wiretally.TunnelBytes

/-!
That a tunnel ends.

Neither direction waits for the other: each reads, writes and is shut down by itself, so a
client that closes its side early still gets the rest of the answer. Between peers that close
after what they send and take what they are sent, a tunnel ends after a number of polls that
depends only on the bytes to carry, and by then all of them have been carried and counted.
-/

namespace Wiretally.TunnelEnds

open Wiretally.Lib.AsyncIo Wiretally.Lib.Tcp Wiretally.Lib.Tcp.TcpStream Wiretally.Lib.Run
open Wiretally.Lib.Copy Wiretally.Stats Wiretally.Io Wiretally.Io.Counting Wiretally.Io.Rewind
open Wiretally.Proxy Wiretally.Splice Wiretally.TunnelBytes

variable {cap : UInt64} {leftover : List UInt8} {client upstream : TcpStream}
variable {stats : EndpointStats} {log : Option ConnLog} {acts : List Act}
variable {t : Tunnel cap TcpStream TcpStream}

lemma run_closes {bytes bytes' : List UInt8} (hclient : Closes client bytes)
    (hupstream : Closes upstream bytes')
    (h : run step (start cap leftover client upstream stats log) acts = some t) :
    acts.countP Act.moves ≤ 2 * ((leftover ++ bytes).length + bytes'.length) + 5 ∧
      ∀ r, t.result = some r → r = .ok () ∧ written t = leftover ++ bytes ∧ t.a.accepted = bytes' :=
  run_orderly (orderly_inner (orderly_left (orderly_probe orderly_closes bytes))) orderly_closes
    ⟨bytes, by simp [Counting.new], rfl, by simpa [Counting.new] using hclient⟩ hupstream h

/-- **A tunnel ends.** Between a client that closes its side and an upstream that does, whatever
the order of the polls and the cuts of the reads, there is always a next step of either
direction, there are no more than the bytes to carry allow, and none fails; and once it has
ended, upstream has been written the client's payload, the client what upstream sent, and the
counters have grown by the lengths of the two. -/
theorem tunnel_ends {out : Outside} {s : TcpStream} {reg : Registry} {block : Arc} {conn : Conn}
    {answered : List UInt8}
    (hopen : handleConnection out ⟨s, reg⟩ = (.ok (.tunnel block leftover), conn))
    (hclient : s.fate = .eof) (hupstream : Closes upstream answered) (hcap : 0 < cap)
    (hrun : run step (start cap leftover conn.client upstream stats log) acts = some t) :
    ∃ request host port answer payload, Asked s request (host, port) answer ∧
      block = (reg.endpoint host).1 ∧ s.unread = request ++ payload ∧
      acts.countP Act.moves ≤ 2 * (payload.length + answered.length) + 5 ∧
      (t.result = none → GoesOn t) ∧
      ∀ r, t.result = some r → r = .ok () ∧ written t = payload ∧
        t.a.source.inner.written = s.written ++ answer ++ answered ∧
        (counters t).egress = stats.egress + .ofNat payload.length ∧
        (counters t).ingress = stats.ingress + .ofNat answered.length := by
  obtain ⟨⟨request, host, port, answer, hasked, hunread, hanswer, hblock, -⟩, hfate, hsound⟩ :=
    opened_of_handleConnection hopen
  have hcloses : Closes conn.client conn.client.unread := ⟨rfl, hfate.trans hclient, hsound⟩
  obtain ⟨hmoves, hends⟩ := run_closes hcloses hupstream hrun
  refine ⟨request, host, port, answer, _, hasked, hblock, hunread, hmoves, ?_, ?_⟩
  · exact goesOn (UInt64.lt_iff_toNat_lt.mp hcap)
  · intro r hr
    obtain ⟨rfl, hwritten, haccepted⟩ := hends r hr
    have hcar := run_carries hrun
    obtain ⟨hegress, hingress⟩ := exact_of_clean hrun hr
    have hreceived : received t = answered := by
      have hrel := run_relayed hrun
      have hdown := hrel.down
      rw [(hrel.clean hr).2, List.append_nil, haccepted] at hdown
      exact hdown
    refine ⟨rfl, hwritten, ?_, ?_, ?_⟩
    · rw [(run_socket hrun).written, hanswer, ← hcar.passed, haccepted]
    · rw [hegress, hwritten]
    · rw [hingress, hreceived]

def answering : TcpStream := ⟨[9, 8, 7], fun _ => 2, .eof, [], none⟩

/-- The client's direction has reached its end before the first byte of the answer is read. -/
def halfClosed : List Act :=
  [.aToB (.fill 16), .aToB .drain, .aToB (.fill 16), .aToB .drain, .aToB (.fill 16), .aToB .shutdown,
    .bToA (.fill 16), .bToA (.fill 8), .bToA .flush, .bToA .drain, .bToA (.fill 16), .bToA .flush,
    .bToA .shutdown, .finish]

theorem tunnel_ends_eager :
    ∃ block leftover conn, ∃ t : Tunnel 16 TcpStream TcpStream,
      handleConnection reached ⟨eager, Registry.new⟩ = (.ok (.tunnel block leftover), conn) ∧
      run step (start 16 leftover conn.client answering .fresh none) halfClosed = some t ∧
      t.result = some (.ok ()) ∧
      ∃ request host port answer payload, Asked eager request (host, port) answer ∧
        block = (Registry.new.endpoint host).1 ∧ eager.unread = request ++ payload ∧
        halfClosed.countP Act.moves ≤ 2 * (payload.length + answering.unread.length) + 5 ∧
        (t.result = none → GoesOn t) ∧
        ∀ r, t.result = some r → r = .ok () ∧ written t = payload ∧
          t.a.source.inner.written = eager.written ++ answer ++ answering.unread ∧
          (counters t).egress = EndpointStats.fresh.egress + .ofNat payload.length ∧
          (counters t).ingress = EndpointStats.fresh.ingress + .ofNat answering.unread.length := by
  have hopen : handleConnection reached ⟨eager, Registry.new⟩ =
      (.ok (.tunnel 0 [1, 2, 3]), (handleConnection reached ⟨eager, Registry.new⟩).2) := by
    refine Prod.ext ?_ rfl
    rfl
  have hrun : run step (start 16 [1, 2, 3]
      (handleConnection reached ⟨eager, Registry.new⟩).2.client answering .fresh none) halfClosed =
        some _ := rfl
  exact ⟨_, _, _, _, hopen, hrun, rfl, tunnel_ends hopen rfl ⟨rfl, rfl, rfl⟩ (by decide) hrun⟩

end Wiretally.TunnelEnds
