import Wiretally.Splice
import Wiretally.Truncated

/-!
What a tunnel carries.

A client asks for a tunnel with a SOCKS handshake or with a request head, and everything it
sends behind that is payload, also what arrived in one read with the head. Whatever is polled
when, the bytes that have gone upstream are the beginning of the payload, and those that have
gone back to the client follow the answer to its request and are the beginning of what came
from upstream. A tunnel that ends without an error has carried everything.
-/

namespace Wiretally.TunnelBytes

open Wiretally.Lib.AsyncIo Wiretally.Lib.Tcp Wiretally.Lib.Tcp.TcpStream Wiretally.Lib.Run
open Wiretally.Lib.Search
open Wiretally.Stats Wiretally.Registry Wiretally.Io Wiretally.Io.Rewind Wiretally.Head
open Wiretally.Proxy
open Wiretally.Socks Wiretally.SocksAccept Wiretally.Transcript Wiretally.Truncated

/-! ### Asking for a tunnel -/

/-- What tells a client that its tunnel is open. -/
def openBytes : Handshake → List UInt8
  | .http => ascii "HTTP/1.1 200 Connection Established\r\n\r\n"
  | .socks => replyBytes repSuccess

lemma accept_eq (handshake : Handshake) : handshake.accept = writeAll (openBytes handshake) := by
  cases handshake <;> rfl

def AsksLine (head : List UInt8) (endpoint : Text × UInt16) : Prop :=
  ∃ method target, requestLine head = some (method, target) ∧
    Text.eqIgnoreAsciiCase method "CONNECT".toList = true ∧ splitAuthority target 443 = endpoint

/-- The bytes with which a client asks for a tunnel to an endpoint, and the answer to them. A
head that is cut short by the end of the stream is taken as it is. -/
inductive Asked (s : TcpStream) : List UInt8 → Text × UInt16 → List UInt8 → Prop
  | socks {request dest} (h : HandshakeBytes request (.connect dest)) :
    Asked s request (dest.host, dest.port) ([version, methodNone] ++ openBytes .socks)
  | http {request endpoint} (h : findHeadEnd request = some request.length)
    (hline : AsksLine request endpoint) : Asked s request endpoint (openBytes .http)
  | cut {endpoint} (hn : findHeadEnd s.unread = none) (hf : s.fate = .eof)
    (hline : AsksLine s.unread endpoint) : Asked s s.unread endpoint (openBytes .http)

lemma accept_ok {handshake : Handshake} {s t : TcpStream}
    (h : handshake.accept s = (.ok (), t)) :
    s.broken = none ∧ t = s.put (openBytes handshake) := by
  rw [accept_eq] at h
  exact writeAll_ok h

lemma relayUdp_ok {out : Outside} {conn conn' : Conn} {served : Served}
    (h : relayUdp out conn = (.ok served, conn')) : ∃ bound, served = .relay bound := by
  cases hbind : out.bindRelay with
  | blocked =>
    have hout : (relayUdp out conn).1 = .blocked := by
      unfold relayUdp
      rw [hbind]
      rfl
    rw [h] at hout
    cases hout
  | err e =>
    have heq : relayUdp out conn = (do
        let _ ← Task.result (onClient (reply repGeneralFailure))
        Task.fail (Failure.io e)) conn := by
      unfold relayUdp
      rw [hbind]
      rfl
    obtain ⟨r, hr⟩ := result_reply_eq conn repGeneralFailure
    rw [heq, Task.bind_ok hr] at h
    cases h
  | ok u =>
    cases haddr : out.relayAddr with
    | error e =>
      have hout : (relayUdp out conn).1 = .err (.io e) := by
        unfold relayUdp
        rw [hbind, haddr]
        rfl
      rw [h] at hout
      cases hout
    | ok bound =>
      have heq : relayUdp out conn = (do
          (onClient (replyBound repSuccess bound)).mapErr Failure.io
          pure (Served.relay bound)) conn := by
        unfold relayUdp
        rw [hbind, haddr]
        rfl
      rw [heq, Task.bind_apply] at h
      rcases hsend : ((onClient (replyBound repSuccess bound)).mapErr Failure.io) conn with
        ⟨a | e | _, t⟩
      · rw [hsend] at h
        cases h
        exact ⟨bound, rfl⟩
      · rw [hsend] at h
        cases h
      · rw [hsend] at h
        cases h

lemma requestLine_take {head : List UInt8} {stop : ℕ} (h : findHeadEnd head = some stop) :
    findHeadEnd (head.take stop) = some stop ∧ requestLine (head.take stop) = requestLine head := by
  have hle := findHeadEnd_le h
  have hend : findHeadEnd (head.take stop) = some stop := by
    have hwhole : findHeadEnd (head.take stop ++ head.drop stop) = some stop := by
      rwa [List.take_append_drop]
    exact findHeadEnd_of_append hwhole (List.length_take_of_le hle).ge
  obtain ⟨lineEnd, hline⟩ := exists_line hend
  have hwhole : position crlf head = some lineEnd := by
    have happ := position_append hline (head.drop stop)
    rwa [List.take_append_drop] at happ
  refine ⟨hend, (requestLine_append hline (head.drop stop)).trans ?_⟩
  rw [List.take_append_drop, requestLine, hwhole]

/-- How a connection stands once it has become a tunnel: its client was sent the answer and
nothing else, and the host it asked for is the one with this block, a connection more. -/
structure Opened (s : TcpStream) (reg : Registry) (stats : Arc) (leftover : List UInt8)
    (conn : Conn) : Prop where
  asked : ∃ request host port answer, Asked s request (host, port) answer ∧
    s.unread = request ++ (leftover ++ conn.client.unread) ∧
    conn.client.written = s.written ++ answer ∧ stats = (reg.endpoint host).1 ∧
    conn.registry.endpoints.lookup host = some stats ∧
    ∀ k c, value conn.registry k c = value reg k c + if k = host ∧ c = .connections then 1 else 0
  fate : conn.client.fate = s.fate
  sound : conn.client.broken = none

section Opened

variable {out : Outside} {s : TcpStream} {reg : Registry} {stats : Arc} {leftover : List UInt8}
variable {conn : Conn}

/-- From the last bytes of its request on, a client that asked for a tunnel is told and nothing
else. -/
lemma opened_of_connect {start : TcpStream} {request sent behind : List UInt8}
    {endpoint : Text × UInt16} {handshake : Handshake}
    (hasked : Asked s request endpoint (sent ++ openBytes handshake))
    (hunread : s.unread = request ++ (behind ++ start.unread))
    (hsent : start.written = s.written ++ sent) (hfate : start.fate = s.fate)
    (h : connectAndSplice out endpoint.1 endpoint.2 behind handshake ⟨start, reg⟩ =
      (.ok (.tunnel stats leftover), conn)) : Opened s reg stats leftover conn := by
  obtain ⟨hserved, haccept, hlisted, hvalue⟩ := connectAndSplice_ok h
  cases hserved
  obtain ⟨hsound, hclient⟩ := accept_ok haccept
  have hblock : conn.registry.endpoints.lookup endpoint.1 = some (reg.endpoint endpoint.1).1 := by
    rw [hlisted, lookup_endpoint, if_pos rfl]
  refine ⟨⟨request, endpoint.1, endpoint.2, _, hasked, ?_, ?_, rfl, hblock, hvalue⟩, ?_, ?_⟩
  · rw [hclient]
    exact hunread
  · rw [hclient, ← List.append_assoc, ← hsent]
    rfl
  · rw [hclient]
    exact hfate
  · rw [hclient]
    exact hsound

lemma opened_of_socks (h : serveSocks out ⟨s, reg⟩ = (.ok (.tunnel stats leftover), conn)) :
    Opened s reg stats leftover conn := by
  by_cases hopen : s.broken = none
  · obtain ⟨result, k, w, hv⟩ := verdict_total s.fate s.unread
    have haccept := accept_of_verdict hopen hv
    cases result with
    | err err =>
      rw [serveSocks_err haccept] at h
      cases h
    | blocked =>
      rw [serveSocks_blocked haccept] at h
      cases h
    | ok cmd =>
      -- what was consumed is the handshake
      obtain ⟨r, ⟨rest, hrest⟩, hr⟩ := verdict_ok hv
      have hwhole := verdict_of_handshake s.fate rest hr
      rw [hrest] at hwhole
      rw [serveSocks_ok (accept_of_verdict hopen hwhole)] at h
      cases cmd with
      | udpAssociate dest =>
        obtain ⟨bound, hserved⟩ := relayUdp_ok h
        cases hserved
      | connect dest =>
        refine opened_of_connect (.socks hr) ?_ ?_ ?_ h
        · change s.unread = r ++ s.unread.drop r.length
          rw [← hrest, List.drop_left]
        · rfl
        · rfl
  · rcases haccept : accept s with ⟨cmd | err | _, t⟩
    · exact absurd (by rw [haccept]) (fails_accept s hopen cmd)
    · rw [serveSocks_err haccept] at h
      cases h
    · rw [serveSocks_blocked haccept] at h
      cases h

lemma opened_of_head {head rest : List UInt8} (hrest : s.unread = head ++ rest)
    (hend : (∃ stop, findHeadEnd head = some stop) ∨
      findHeadEnd s.unread = none ∧ s.fate = .eof ∧ rest = [])
    (h : serveHead out head ⟨{ s with unread := rest }, reg⟩ =
      (.ok (.tunnel stats leftover), conn)) : Opened s reg stats leftover conn := by
  cases hline : requestLine head with
  | none =>
    rw [serveHead_of_malformed hline] at h
    cases h
  | some request =>
    obtain ⟨method, target⟩ := request
    by_cases hconnect : Text.eqIgnoreAsciiCase method "CONNECT".toList = true
    · rw [serveHead_of_connect hline hconnect] at h
      rcases hend with ⟨stop, hstop⟩ | ⟨hn, heof, rfl⟩
      · obtain ⟨hend, hsame⟩ := requestLine_take hstop
        have hlen : (head.take stop).length = stop := List.length_take_of_le (findHeadEnd_le hstop)
        have hasked : Asked s (head.take stop) (splitAuthority target 443) ([] ++ openBytes .http) :=
          .http (by rw [hend, hlen]) ⟨method, target, hsame.trans hline, hconnect, rfl⟩
        refine opened_of_connect hasked ?_ ?_ ?_ h
        · rw [headBody_of_some hstop, ← List.append_assoc, List.take_append_drop]
          exact hrest
        · exact (List.append_nil _).symm
        · rfl
      · rw [List.append_nil] at hrest
        subst hrest
        have hasked : Asked s s.unread (splitAuthority target 443) ([] ++ openBytes .http) :=
          .cut hn heof ⟨method, target, hline, hconnect, rfl⟩
        refine opened_of_connect hasked ?_ ?_ ?_ h
        · rw [headBody_of_none hn, List.nil_append]
          exact (List.append_nil _).symm
        · exact (List.append_nil _).symm
        · rfl
    · rw [serveHead_of_other hline hconnect] at h
      cases h

/-- **How a tunnel comes about.** A connection becomes a tunnel only if its client asked for one;
what is handed over is what followed the request, the client was sent the answer and nothing
else, and the counters are those of the host it asked for. -/
theorem opened_of_handleConnection
    (h : handleConnection out ⟨s, reg⟩ = (.ok (.tunnel stats leftover), conn)) :
    Opened s reg stats leftover conn := by
  cases hn : out.nodelay with
  | error e =>
    rw [handleConnection_of_error hn] at h
    cases h
  | ok u =>
    rw [handleConnection_of_ok hn] at h
    cases hfirst : s.unread with
    | nil =>
      have hpeek : peek 1 s = ((read 1 s).1, s) := rfl
      rw [read_of_nil hfirst] at hpeek
      unfold dispatch at h
      rw [Task.bind_apply, Task.mapErr, onClient_apply, hpeek] at h
      cases hf : s.fate <;> rw [hf] at h <;> cases h
    | cons first tail =>
      rw [dispatch_of_first hfirst] at h
      by_cases hsocks : first = greetingByte
      · rw [if_pos hsocks] at h
        exact opened_of_socks h
      · rw [if_neg hsocks, Task.bind_apply, Task.mapErr, onClient_apply] at h
        obtain ⟨r, hv, hstream⟩ := readHead_verdict s
        rw [hstream] at h
        generalize (readHead s).1 = result at hv h
        cases hv with
        | complete hb he => exact opened_of_head hb (.inl ⟨_, he⟩) h
        | cutShort hnone _ hf =>
          rw [if_neg (by rw [hfirst]; exact List.cons_ne_nil _ _)] at h
          exact opened_of_head (List.append_nil _).symm (.inr ⟨hnone, hf, rfl⟩) h
        | tooLarge => cases h
        | reset => cases h
        | silent => cases h

end Opened

/-! ### The client's socket under a tunnel -/

/-- What a poll of a session does to the stream inside, if it reaches it at all, is a poll. -/
lemma source_perform {S : Type} [AsyncRead S] [AsyncWrite S] (s : Session S) (c : Call) :
    (perform s c).source = s.source ∨ ∃ c', (perform s c).source = perform s.source c' := by
  cases c with
  | read buf =>
    have hsource : (perform s (.read buf)).source = (pollRead s.stream.inner buf).2.2.inner :=
      congrArg Rewind.inner (Counting.pollRead_spec s.stream buf).2.2.1
    by_cases hl : s.stream.inner.left = []
    · right
      refine ⟨.read buf, hsource.trans ?_⟩
      rw [pollRead_done hl buf]
      rfl
    · left
      exact hsource.trans (pollRead_left hl buf).2.2.2
  | write bs =>
    exact .inr ⟨.write bs, congrArg Rewind.inner (Counting.pollWrite_spec s.stream bs).2.1⟩
  | writeVectored bufs =>
    exact .inr ⟨.writeVectored bufs,
      congrArg Rewind.inner (Counting.pollWriteVectored_spec s.stream bufs).2.1⟩
  | flush => exact .inr ⟨.flush, rfl⟩
  | shutdown => exact .inr ⟨.shutdown, rfl⟩

/-- A session whose replayed bytes and whose socket are at their end. -/
structure AtEnd (s : Session TcpStream) : Prop where
  left : s.stream.inner.left = []
  unread : s.source.inner.unread = []
  fate : s.source.inner.fate = .eof

/-- Only at the end does a read with room succeed without a byte. -/
lemma atEnd_of_read (s : Session TcpStream) (buf : ReadBuf) (hroom : 0 < buf.remaining)
    (hok : (pollRead s buf).1 = .ready (.ok ())) (hnone : readBytes s buf = []) : AtEnd s := by
  obtain ⟨hready, hempty⟩ := pollRead_eof s buf hroom hok hnone
  have hunread : s.source.inner.unread = [] := by
    by_contra hne
    exact (presents s.source.inner).progress hne buf hroom hempty
  refine ⟨?_, hunread, ?_⟩
  · by_contra hl
    have hbytes : readBytes s buf = s.stream.inner.left.take buf.remaining :=
      (Counting.readBytes_eq s.stream buf).trans (pollRead_left hl buf).2.1
    rw [hnone] at hbytes
    rcases List.take_eq_nil_iff.mp hbytes.symm with hzero | hnil
    · omega
    · exact hl hnil
  · replace hready : (TcpStream.pollReady s.source.inner buf).1 = .ready (.ok ()) := hready
    unfold TcpStream.pollReady at hready
    rw [if_pos hunread] at hready
    cases hf : s.source.inner.fate with
    | eof => rfl
    | reset e =>
      rw [hf] at hready
      cases hready
    | silent =>
      rw [hf] at hready
      cases hready

lemma atEnd_perform (s : Session TcpStream) (c : Call) (h : AtEnd s) : AtEnd (perform s c) := by
  have hsocket : (perform s c).source.inner.unread = [] ∧ (perform s c).source.inner.fate = .eof := by
    rcases source_perform s c with he | ⟨c', he⟩
    · rw [he]
      exact ⟨h.unread, h.fate⟩
    · have hkept := socket_perform (socket_new s.source.inner) c'
      have hnil := hkept.unread
      rw [h.unread] at hnil
      have hinner : (perform s c).source.inner =
          (perform (Probe.new s.source.inner) c').inner := by
        rw [he]
        cases c' <;> rfl
      rw [hinner]
      exact ⟨(List.append_eq_nil_iff.mp hnil.symm).2, hkept.fate.trans h.fate⟩
  refine ⟨?_, hsocket.1, hsocket.2⟩
  cases c with
  | read buf =>
    have hleft : (perform s (.read buf)).stream.inner.left =
        (pollRead s.stream.inner buf).2.2.left :=
      congrArg Rewind.left (Counting.pollRead_spec s.stream buf).2.2.1
    rw [hleft, pollRead_done h.left buf]
    exact h.left
  | write bs =>
    exact (congrArg Rewind.left (Counting.pollWrite_spec s.stream bs).2.1).trans h.left
  | writeVectored bufs =>
    exact (congrArg Rewind.left (Counting.pollWriteVectored_spec s.stream bufs).2.1).trans h.left
  | flush => exact h.left
  | shutdown => exact h.left

/-! ### Runs of a tunnel -/

section Tunnel

open Wiretally.Splice

variable {U : Type} [AsyncRead U] [AsyncWrite U] {cap : UInt64} {leftover : List UInt8}
variable {client : TcpStream} {upstream : U} {stats : EndpointStats} {log : Option ConnLog}
variable {acts : List Lib.Copy.Act} {t : Tunnel cap TcpStream U}

lemma run_socket
    (h : run Lib.Copy.step (start cap leftover client upstream stats log) acts = some t) :
    Socket client t.a.source := by
  refine run_inv (I := fun t : Tunnel cap TcpStream U => Socket client t.a.source) ?_
    (socket_new client) h
  intro t a t' hs hstep
  refine Lib.Copy.kept_step (P := fun s : Session TcpStream => Socket client s.source) ?_ hs hstep
  intro s c hs
  rcases source_perform s c with he | ⟨c', he⟩
  · exact he ▸ hs
  · exact he ▸ socket_perform hs c'

lemma run_atEnd
    (h : run Lib.Copy.step (start cap leftover client upstream stats log) acts = some t)
    (hok : t.result = some (.ok ())) : AtEnd t.a := by
  have hread : t.aToB.readDone = true → AtEnd t.a := by
    refine run_inv (I := fun t : Tunnel cap TcpStream U => t.aToB.readDone = true → AtEnd t.a) ?_
      (fun hnew => by cases hnew) h
    intro t a t' hs hstep
    exact Lib.Copy.readDone_step atEnd_of_read atEnd_perform hs hstep
  have hfinished : t.aToB.finished = true ∧ t.bToA.finished = true := by
    refine run_inv (I := fun t : Tunnel cap TcpStream U => t.result = some (.ok ()) →
      t.aToB.finished = true ∧ t.bToA.finished = true) ?_ (fun hnew => by cases hnew) h hok
    intro t a t' _ hstep
    exact Lib.Copy.finished_of_ok hstep
  exact hread (t.aToB.ended hfinished.1).1

/-- What bytes carried both ways add to the counters of their host. -/
def carried (uploaded delivered : List UInt8) : Counter → UInt64
  | .egress => .ofNat uploaded.length
  | .ingress => .ofNat delivered.length
  | .connections => 0

/-- What a tunnel has made of its block shows in the row of its host and in no other. -/
lemma value_of_carries {s : Session TcpStream} (h : Carries leftover stats .client s)
    {r : Registry} {host : Text} {block : Arc} (hlisted : r.endpoints.lookup host = some block)
    (hblock : r.heap block = stats) (k : Text) (c : Counter) :
    value (r.update block fun _ => s.stream.stats) k c =
      value r k c + if k = host then carried s.delivered s.source.accepted c else 0 := by
  by_cases hk : k = host
  · subst hk
    rw [if_pos rfl, value_of_lookup r hlisted, value_of_lookup (r.update block _) hlisted,
      update_heap_self, hblock, h.counted, EndpointStats.count_fetchAdd,
      EndpointStats.count_fetchAdd]
    cases c <;> simp [carried, Side.readCounter, Side.writeCounter]
  · rw [if_neg hk, UInt64.add_zero, value, value, row_update r hlisted, if_neg hk]

/-- **A tunnel carries bytes as they are**, from the first one behind the request of its client
on. At any time what has been read of the client's payload, and of that what has gone upstream,
is its beginning, and what has gone back to the client behind the answer is the beginning of
what came from upstream; when the tunnel ends without an error, both are complete and the client
has closed its side. The host asked for is listed with the tunnel's block and has a connection
more, and what the tunnel makes of that block adds what was read from the client and what was
written to it to the row of that host, and nothing to another. -/
theorem carries_payload {out : Outside} {s : TcpStream} {reg : Registry} {block : Arc} {conn : Conn}
    (hopen : handleConnection out ⟨s, reg⟩ = (.ok (.tunnel block leftover), conn))
    (hrun : run Lib.Copy.step (start cap leftover conn.client upstream stats log) acts = some t) :
    ∃ request host port answer payload uploaded delivered, Asked s request (host, port) answer ∧
      block = (reg.endpoint host).1 ∧ s.unread = request ++ payload ∧
      t.a.source.inner.written = s.written ++ answer ++ delivered ∧
      written t <+: uploaded ∧ uploaded <+: payload ∧ delivered <+: received t ∧
      (t.result = some (.ok ()) →
        written t = payload ∧ delivered = received t ∧ s.fate = .eof) ∧
      conn.registry.endpoints.lookup host = some block ∧
      (∀ k c, value conn.registry k c =
        value reg k c + if k = host ∧ c = .connections then 1 else 0) ∧
      ∀ r : Registry, r.endpoints.lookup host = some block → r.heap block = stats → ∀ k c,
        value (r.update block fun _ => counters t) k c =
          value r k c + if k = host then carried uploaded delivered c else 0 := by
  obtain ⟨⟨request, host, port, answer, hasked, hunread, hanswer, hblock, hlisted, hvalue⟩, hfate,
    -⟩ := opened_of_handleConnection hopen
  have hrel := run_relayed hrun
  have hcar := run_carries hrun
  have hsocket := run_socket hrun
  -- what the copy has taken from its client is the beginning of the payload
  have hpayload : leftover ++ conn.client.unread =
      t.a.produced ++ (t.a.stream.inner.left ++ t.a.source.inner.unread) := by
    rw [hsocket.unread, ← List.append_assoc, ← hcar.bytes, List.append_assoc]
  refine ⟨request, host, port, answer, _, t.a.produced, t.a.source.accepted, hasked, hblock, hunread,
    ?_, ?_, ⟨_, hpayload.symm⟩, ?_, fun hok => ?_, hlisted, hvalue, fun r hr hheap k c =>
      value_of_carries hcar hr hheap k c⟩
  · rw [hsocket.written, hanswer]
  · rw [hrel.up]
    exact List.prefix_append _ _
  · rw [← hcar.passed]
    exact ⟨_, hrel.down.symm⟩
  · have hend := run_atEnd hrun hok
    obtain ⟨hup, hdown⟩ := hrel.clean hok
    refine ⟨?_, ?_, ?_⟩
    · rw [hpayload, hend.left, hend.unread, hrel.up, hup, List.append_nil, List.append_nil,
        List.append_nil]
      rfl
    · rw [← hcar.passed, received, hrel.down, hdown, List.append_nil]
    · rw [← hfate, ← hsocket.fate]
      exact hend.fate

end Tunnel

/-! ### A tunnel whose first bytes come with its request -/

/-- Asks for a tunnel, and sends three bytes at once with the request and a fourth behind. -/
def eager : TcpStream where
  unread := ascii "CONNECT a:1 HTTP/1.1\r\n\r\n" ++ [1, 2, 3, 4]
  segment n := n - 1
  fate := .eof
  written := []
  broken := none

def reached : Outside := ready fun _ _ => .ok ⟨.ok (), .ok Net.localhost⟩

def oneByte : Script := ⟨[.data [9], .eof], [.accept 3, .accept 1]⟩

def exchange : List Lib.Copy.Act :=
  [.aToB (.fill 16), .aToB .drain, .aToB (.fill 16), .bToA (.fill 16), .bToA .drain, .aToB .drain,
    .bToA (.fill 16), .bToA .shutdown, .aToB (.fill 16), .aToB .shutdown, .finish]

theorem carries_payload_eager :
    ∃ block leftover conn, ∃ t : Splice.Tunnel 16 TcpStream Script,
      handleConnection reached ⟨eager, Registry.new⟩ = (.ok (.tunnel block leftover), conn) ∧
      run Lib.Copy.step (Splice.start 16 leftover conn.client oneByte (conn.registry.heap block) none)
        exchange = some t ∧
      t.result = some (.ok ()) ∧
      ∃ request host port answer payload uploaded delivered,
        Asked eager request (host, port) answer ∧
        block = (Registry.new.endpoint host).1 ∧ eager.unread = request ++ payload ∧
        t.a.source.inner.written = eager.written ++ answer ++ delivered ∧
        Splice.written t <+: uploaded ∧ uploaded <+: payload ∧ delivered <+: Splice.received t ∧
        (t.result = some (.ok ()) →
          Splice.written t = payload ∧ delivered = Splice.received t ∧ eager.fate = .eof) ∧
        ∀ k c, value (conn.registry.update block fun _ => Splice.counters t) k c =
          value conn.registry k c + if k = host then carried uploaded delivered c else 0 := by
  have hopen : handleConnection reached ⟨eager, Registry.new⟩ =
      (.ok (.tunnel 0 [1, 2, 3]), (handleConnection reached ⟨eager, Registry.new⟩).2) := by
    refine Prod.ext ?_ rfl
    rfl
  have hrun : run Lib.Copy.step (Splice.start 16 [1, 2, 3]
      (handleConnection reached ⟨eager, Registry.new⟩).2.client oneByte
      ((handleConnection reached ⟨eager, Registry.new⟩).2.registry.heap 0) none) exchange =
        some _ := rfl
  obtain ⟨request, host, port, answer, payload, uploaded, delivered, hasked, hblock, hunread,
    hwritten, hup, hpayload, hdown, hend, hlisted, -, hvalue⟩ := carries_payload hopen hrun
  exact ⟨_, _, _, _, hopen, hrun, rfl, request, host, port, answer, payload, uploaded, delivered,
    hasked, hblock, hunread, hwritten, hup, hpayload, hdown, hend, hvalue _ hlisted rfl⟩

end Wiretally.TunnelBytes
