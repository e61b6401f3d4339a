import Wiretally.Head
import Wiretally.Io
import Wiretally.Socks

/-!
A connection, from its first byte to the point where payload starts to flow.

The task of a connection owns the client's socket and shares the registry. What lies outside
the proxy, such as whether the upstream host can be reached, is a parameter. The paths end by
naming what takes over: the splice of a tunnel, a relay for datagrams, or the HTTP server.
-/

namespace Wiretally.Proxy

open Wiretally.Lib.AsyncIo Wiretally.Lib.Tcp Wiretally.Lib.Tcp.TcpStream Wiretally.Lib.Search
open Wiretally.Net Wiretally.Stats Wiretally.Registry Wiretally.Io Wiretally.Io.Rewind
open Wiretally.Head

/-! ### Authorities -/

/-- `str::split_once`. -/
def splitOnce (c : Char) (s : Text) : Option (Text × Text) :=
  match s.span (· ≠ c) with
  | (front, _ :: back) => some (front, back)
  | (_, []) => none

/-- `str::rsplit_once`. -/
def rsplitOnce (c : Char) (s : Text) : Option (Text × Text) :=
  (splitOnce c s.reverse).map fun p => (p.2.reverse, p.1.reverse)

/-- `str::parse::<u16>`: decimal digits, with a plus sign or without. -/
def parseU16 (s : Text) : Option UInt16 :=
  let digits := match s with
    | '+' :: rest => rest
    | _ => s
  let push (n : ℕ) (c : Char) : Option ℕ :=
    (toDigit 10 c).bind fun d => if n * 10 + d < 65536 then some (n * 10 + d) else none
  if digits = [] then none else (digits.foldlM push 0).map UInt16.ofNat

/-- Splits an authority into a host and a port, defaulting the port and unwrapping the
brackets of an IPv6 literal. -/
def splitAuthority (authority : Text) (defaultPort : UInt16) : Text × UInt16 :=
  match authority with
  | '[' :: rest =>
    let (host, tail) := (splitOnce ']' rest).getD (rest, [])
    let port := match tail with
      | ':' :: p => (parseU16 p).getD defaultPort
      | _ => defaultPort
    (Text.toAsciiLowercase host, port)
  | _ =>
    match rsplitOnce ':' authority with
    | some (host, port) =>
      match parseU16 port with
      | some port => (Text.toAsciiLowercase host, port)
      | none => (Text.toAsciiLowercase authority, defaultPort)
    | none => (Text.toAsciiLowercase authority, defaultPort)

/-! ### The outside -/

/-- A connected upstream socket, as far as its setup goes. -/
structure Upstream where
  nodelay : Except IoError Unit
  peer : Except IoError IpAddr

/-- What happens outside the proxy while it handles a connection. -/
structure Outside where
  nodelay : Except IoError Unit
  connect : Text → UInt16 → Outcome IoError Upstream
  bindRelay : Outcome IoError Unit
  relayAddr : Except IoError SocketAddr

/-- What the task of a connection works on. -/
structure Conn where
  client : TcpStream
  registry : Registry

inductive Failure
  | io (err : IoError)
  | socks (err : Socks.Error)
  | malformedHead
  deriving DecidableEq

/-- What takes over when a connection has been set up. -/
inductive Served
  | closed
  | tunnel (stats : Arc) (leftover : List UInt8)
  | relay (bound : SocketAddr)
  | http (stream : Rewind TcpStream)

def onClient {ε α : Type} (x : TcpTask ε α) : Task Conn ε α :=
  Task.zoom Conn.client (fun c client => { c with client := client }) x

/-- The `?` of a call that does not wait. -/
def check {σ α : Type} (r : Except IoError α) : Task σ Failure α :=
  Task.await (match r with
    | .ok a => .ok a
    | .error e => .err (.io e))

/-! ### The paths -/

def ascii (s : String) : List UInt8 := s.toList.map fun c => .ofNat c.toNat

/-- Which protocol's replies to send to the client. -/
inductive Handshake | http | socks
  deriving DecidableEq

namespace Handshake

/-- Tells the client the tunnel is open. -/
def accept : Handshake → TcpTask IoError Unit
  | .http => writeAll (ascii "HTTP/1.1 200 Connection Established\r\n\r\n")
  | .socks => Socks.reply Socks.repSuccess

/-- Tells the client the upstream connection failed. -/
def refuse : Handshake → TcpTask IoError Unit
  | .http => writeAll (ascii "HTTP/1.1 502 Bad Gateway\r\nContent-Length: 0\r\n\r\n")
  | .socks => Socks.reply Socks.repConnectionRefused

end Handshake

/-- Opens the upstream connection and answers the client's handshake. -/
def connectAndSplice (out : Outside) (host : Text) (port : UInt16) (leftover : List UInt8)
    (handshake : Handshake) : Task Conn Failure Served := fun conn =>
  let stats := (conn.registry.endpoint host).1
  let conn := { conn with registry := (conn.registry.endpoint host).2 }
  let update (f : EndpointStats → EndpointStats) (conn : Conn) : Conn :=
    { conn with registry := conn.registry.update stats f }
  (show Task Conn Failure Served from do
    match ← Task.result (Task.await (out.connect host port)) with
    | .error err => do
      -- whether the refusal could be sent makes no difference
      let _ ← Task.result (onClient handshake.refuse)
      .fail (.io err)
    | .ok upstream => do
      check upstream.nodelay
      match upstream.peer with
      | .ok ip => Task.modify (update (·.observeIp ip))
      | .error _ => pure ()
      Task.modify (update EndpointStats.addConnection)
      (onClient handshake.accept).mapErr .io
      pure (.tunnel stats leftover)) conn

/-- Binds a relay and tells the client where it is. -/
def relayUdp (out : Outside) : Task Conn Failure Served := do
  match ← Task.result (Task.await out.bindRelay) with
  | .error err => do
    let _ ← Task.result (onClient (Socks.reply Socks.repGeneralFailure))
    .fail (.io err)
  | .ok () => do
    let bound ← check out.relayAddr
    (onClient (Socks.replyBound Socks.repSuccess bound)).mapErr .io
    pure (.relay bound)

/-- Completes a SOCKS5 handshake, then either opens a tunnel or starts a relay. -/
def serveSocks (out : Outside) : Task Conn Failure Served := do
  match ← Task.result (onClient Socks.accept) with
  | .error err => do
    let _ ← Task.result (onClient (Socks.reply err.replyCode))
    .fail (.socks err)
  | .ok (.connect request) => connectAndSplice out request.host request.port [] .socks
  | .ok (.udpAssociate _) => relayUdp out

/-- Handles a request behind its head. -/
def serveHead (out : Outside) (head : List UInt8) : Task Conn Failure Served := fun conn =>
  match requestLine head with
  | none => (.err .malformedHead, conn)
  | some (method, target) =>
    if Text.eqIgnoreAsciiCase method "CONNECT".toList = true then
      let leftover := headBody head
      let (host, port) := splitAuthority target 443
      connectAndSplice out host port leftover .http conn
    else (.ok (.http (Rewind.new head conn.client)), conn)

/-- Sniffs the first byte and goes on with the protocol it belongs to. -/
def dispatch (out : Outside) : Task Conn Failure Served := do
  match ← (onClient (peek 1)).mapErr .io with
  | [] => pure .closed
  | first :: _ =>
    if first = Socks.greetingByte then serveSocks out
    else do
      let head ← (onClient readHead).mapErr .io
      serveHead out head

def handleConnection (out : Outside) : Task Conn Failure Served := do
  check out.nodelay
  dispatch out

/-! ### Where the bytes of a request go -/

lemma onClient_apply {ε α : Type} (x : TcpTask ε α) (conn : Conn) :
    onClient x conn = ((x conn.client).1, { conn with client := (x conn.client).2 }) := rfl

lemma result_onClient {ε α : Type} (x : TcpTask ε α) (conn : Conn) :
    Task.result (δ := Failure) (onClient x) conn =
      ((x conn.client).1.settled, { conn with client := (x conn.client).2 }) := rfl

lemma mapErr_ok {σ ε δ α : Type} {f : ε → δ} {x : Task σ ε α} {s t : σ} {a : α}
    (h : x s = (.ok a, t)) : x.mapErr f s = (.ok a, t) := by
  unfold Task.mapErr
  rw [h]

lemma peek_cons {s : TcpStream} {first : UInt8} {rest : List UInt8}
    (h : s.unread = first :: rest) : peek 1 s = (.ok [first], s) := by
  have hne : s.unread ≠ [] := by
    rw [h]
    exact List.cons_ne_nil _ _
  have hsize : s.readSize 1 = 1 := by
    unfold readSize
    omega
  unfold peek
  rw [read_of_ne_nil hne, hsize, h]
  rfl

lemma dispatch_of_first {s : TcpStream} {first : UInt8} {tail : List UInt8}
    (hfirst : s.unread = first :: tail) (out : Outside) (reg : Registry) :
    dispatch out ⟨s, reg⟩ = (if first = Socks.greetingByte then serveSocks out else do
      let head ← (onClient readHead).mapErr .io
      serveHead out head : Task Conn Failure Served) ⟨s, reg⟩ := by
  have hpeek : ((onClient (peek 1)).mapErr Failure.io) ⟨s, reg⟩ = (.ok [first], ⟨s, reg⟩) := by
    refine mapErr_ok ?_
    rw [onClient_apply, peek_cons hfirst]
  unfold dispatch
  exact Task.bind_ok hpeek

lemma dispatch_of_head {s t : TcpStream} {first : UInt8} {tail head : List UInt8}
    (hfirst : s.unread = first :: tail) (hsocks : first ≠ Socks.greetingByte)
    (hread : readHead s = (.ok head, t)) (out : Outside) (reg : Registry) :
    dispatch out ⟨s, reg⟩ = serveHead out head ⟨t, reg⟩ := by
  have hhead : ((onClient readHead).mapErr Failure.io) ⟨s, reg⟩ = (.ok head, ⟨t, reg⟩) := by
    refine mapErr_ok ?_
    rw [onClient_apply, hread]
  rw [dispatch_of_first hfirst, if_neg hsocks]
  exact Task.bind_ok hhead

/-! ### What the connect of a tunnel comes to -/

section Connect

variable {out : Outside} {host : Text} {port : UInt16} {upstream : Upstream} {e : IoError}

lemma connectAndSplice_of_blocked (hconnect : out.connect host port = .blocked)
    (leftover : List UInt8) (handshake : Handshake) (conn : Conn) :
    connectAndSplice out host port leftover handshake conn =
      (.blocked, { conn with registry := (conn.registry.endpoint host).2 }) := by
  unfold connectAndSplice
  rw [hconnect]
  rfl

lemma connectAndSplice_of_err (hconnect : out.connect host port = .err e)
    (leftover : List UInt8) (handshake : Handshake) (conn : Conn) :
    connectAndSplice out host port leftover handshake conn = (do
      let _ ← Task.result (onClient handshake.refuse)
      Task.fail (Failure.io e)) { conn with registry := (conn.registry.endpoint host).2 } := by
  unfold connectAndSplice
  rw [hconnect]
  rfl

lemma connectAndSplice_of_delayed (hconnect : out.connect host port = .ok upstream)
    (hnodelay : upstream.nodelay = .error e) (leftover : List UInt8) (handshake : Handshake)
    (conn : Conn) : connectAndSplice out host port leftover handshake conn =
      (.err (.io e), { conn with registry := (conn.registry.endpoint host).2 }) := by
  obtain ⟨nodelay, peer⟩ := upstream
  cases hnodelay
  unfold connectAndSplice
  rw [hconnect]
  rfl

/-- A host that was reached is listed with its block, and has one more connection, by the time
the client is told; that its address is noted, if there is one, no counter shows. -/
lemma connectAndSplice_of_ok (hconnect : out.connect host port = .ok upstream)
    (hnodelay : upstream.nodelay = .ok ()) (leftover : List UInt8) (handshake : Handshake)
    (conn : Conn) : ∃ reg : Registry,
      reg.endpoints = (conn.registry.endpoint host).2.endpoints ∧
      (∀ k c, value reg k c =
        value conn.registry k c + if k = host ∧ c = .connections then 1 else 0) ∧
      connectAndSplice out host port leftover handshake conn = (do
        (onClient handshake.accept).mapErr Failure.io
        pure (Served.tunnel (conn.registry.endpoint host).1 leftover))
          { conn with registry := reg } := by
  let stats := (conn.registry.endpoint host).1
  obtain ⟨nodelay, peer⟩ := upstream
  cases hnodelay
  obtain ⟨seen, hlisted, hvalue, heq⟩ : ∃ seen : Registry,
      seen.endpoints = (conn.registry.endpoint host).2.endpoints ∧
      (∀ k c, value seen k c = value conn.registry k c) ∧
      connectAndSplice out host port leftover handshake conn = (do
        (onClient handshake.accept).mapErr Failure.io
        pure (Served.tunnel stats leftover))
          { conn with registry := seen.update stats EndpointStats.addConnection } := by
    unfold connectAndSplice
    rw [hconnect]
    cases peer with
    | error e => exact ⟨_, rfl, fun k c => value_endpoint _ host k c, rfl⟩
    | ok ip =>
      refine ⟨_, update_endpoints _ stats (·.observeIp ip), fun k c => ?_, rfl⟩
      rw [value_observeIp, value_endpoint]
  refine ⟨seen.update stats EndpointStats.addConnection, hlisted, fun k c => ?_, heq⟩
  have hmine : seen.endpoints.lookup k = some stats ↔ k = host := by
    have hhost : seen.endpoints.lookup host = some stats := by
      rw [hlisted, lookup_endpoint, if_pos rfl]
    exact ⟨fun hk => seen.distinct _ _ _ hk hhost, fun hk => hk ▸ hhost⟩
  unfold EndpointStats.addConnection
  rw [value_fetchAdd, hvalue]
  simp only [hmine]

/-- A tunnel is set up only to a host that was looked up and reached, with one more connection
of it counted, and only once the client has been told. -/
lemma connectAndSplice_ok {leftover : List UInt8} {handshake : Handshake} {conn conn' : Conn}
    {served : Served}
    (h : connectAndSplice out host port leftover handshake conn = (.ok served, conn')) :
    served = .tunnel (conn.registry.endpoint host).1 leftover ∧
      handshake.accept conn.client = (.ok (), conn'.client) ∧
      conn'.registry.endpoints = (conn.registry.endpoint host).2.endpoints ∧
      ∀ k c, value conn'.registry k c =
        value conn.registry k c + if k = host ∧ c = .connections then 1 else 0 := by
  cases hconnect : out.connect host port with
  | blocked =>
    rw [connectAndSplice_of_blocked hconnect] at h
    cases h
  | err e =>
    rw [connectAndSplice_of_err hconnect, Task.bind_apply, result_onClient] at h
    cases hr : (handshake.refuse conn.client).1 <;> simp only [hr, Outcome.settled] at h <;> cases h
  | ok upstream =>
    cases hnodelay : upstream.nodelay with
    | error e =>
      rw [connectAndSplice_of_delayed hconnect hnodelay] at h
      cases h
    | ok u =>
      obtain ⟨reg, hlisted, hcount, heq⟩ :=
        connectAndSplice_of_ok hconnect hnodelay leftover handshake conn
      rw [heq, Task.bind_apply, Task.mapErr, onClient_apply] at h
      rcases haccept : handshake.accept conn.client with ⟨u | e | _, client⟩ <;> rw [haccept] at h <;>
        cases h
      exact ⟨rfl, rfl, hlisted, hcount⟩

end Connect

/-! ### What a head comes to -/

lemma accept_unread {handshake : Handshake} {s t : TcpStream}
    (h : handshake.accept s = (.ok (), t)) : t.unread = s.unread := by
  have hwrites : ∃ bs, handshake.accept = writeAll bs := by
    cases handshake <;> exact ⟨_, rfl⟩
  obtain ⟨bs, hbs⟩ := hwrites
  rw [hbs] at h
  rw [(writeAll_ok h).2]
  rfl

section ServeHead

variable {head : List UInt8} {method target : Text}

lemma serveHead_of_malformed (hline : requestLine head = none) (out : Outside) (conn : Conn) :
    serveHead out head conn = (.err .malformedHead, conn) := by
  unfold serveHead
  rw [hline]

lemma serveHead_of_connect (hline : requestLine head = some (method, target))
    (hconnect : Text.eqIgnoreAsciiCase method "CONNECT".toList = true) (out : Outside)
    (conn : Conn) : serveHead out head conn =
      connectAndSplice out (splitAuthority target 443).1 (splitAuthority target 443).2
        (headBody head) .http conn := by
  unfold serveHead
  rw [hline]
  simp only [if_pos hconnect]

lemma serveHead_of_other (hline : requestLine head = some (method, target))
    (hother : ¬ Text.eqIgnoreAsciiCase method "CONNECT".toList = true) (out : Outside)
    (conn : Conn) : serveHead out head conn = (.ok (.http (Rewind.new head conn.client)), conn) := by
  unfold serveHead
  rw [hline]
  simp only [if_neg hother]

end ServeHead

/-- **Reading a request head.** If the head ends within the limit it is read, however the
stream is cut into reads, and its first line is that of the stream. A client that does not
speak SOCKS is served by that line: for a CONNECT a tunnel to its target, which is given
exactly the bytes behind the head, for another method the HTTP server, which is given exactly
all bytes, and without a request nothing. In every case what is held is bounded, and a head
that does not end within the bound is refused. -/
theorem readHead_spec (s : TcpStream) :
    (∀ stop, findHeadEnd s.unread = some stop → stop ≤ maxHeadBytes →
      ∃ head rest lineEnd, readHead s = (.ok head, { s with unread := rest }) ∧
        position crlf s.unread = some lineEnd ∧
        requestLine head = splitRequestLine (s.unread.take lineEnd) ∧
        Presents (Rewind.new (headBody head) { s with unread := rest }) (s.unread.drop stop) ∧
        Presents (Rewind.new head { s with unread := rest }) s.unread ∧
        ∀ first tail, s.unread = first :: tail → first ≠ Socks.greetingByte → ∀ out reg,
          (splitRequestLine (s.unread.take lineEnd) = none →
            dispatch out ⟨s, reg⟩ = (.err .malformedHead, ⟨{ s with unread := rest }, reg⟩)) ∧
          ∀ method target, splitRequestLine (s.unread.take lineEnd) = some (method, target) →
            (Text.eqIgnoreAsciiCase method "CONNECT".toList = true →
              dispatch out ⟨s, reg⟩ = connectAndSplice out (splitAuthority target 443).1
                (splitAuthority target 443).2 (headBody head) .http
                ⟨{ s with unread := rest }, reg⟩ ∧
              ∀ served conn, dispatch out ⟨s, reg⟩ = (.ok served, conn) → ∃ stats leftover,
                served = .tunnel stats leftover ∧
                Presents (Rewind.new leftover conn.client) (s.unread.drop stop)) ∧
            (¬ Text.eqIgnoreAsciiCase method "CONNECT".toList = true →
              dispatch out ⟨s, reg⟩ = (.ok (.http (Rewind.new head { s with unread := rest })),
                ⟨{ s with unread := rest }, reg⟩))) ∧
    (∀ r, Held s r → r.buf.length ≤ maxHeadBytes + chunkBytes) ∧
    (maxHeadBytes + chunkBytes ≤ s.unread.length →
      findHeadEnd (s.unread.take (maxHeadBytes + chunkBytes)) = none →
      ∃ err, (readHead s).1 = .err err) := by
  refine ⟨fun stop hstop hle => ?_, fun r => held_length_le, fun hlen hn =>
    ⟨_, readHead_of_endless hlen hn⟩⟩
  obtain ⟨head, rest, hread, hbytes, hhead⟩ := readHead_of_head hstop (Nat.le_succ_of_le hle)
  obtain ⟨lineEnd, hline⟩ := exists_line hhead
  have hrequest : requestLine head = splitRequestLine (s.unread.take lineEnd) := by
    rw [hbytes]
    exact requestLine_append hline rest
  have hbody : s.unread.drop stop = headBody head ++ rest := by
    rw [headBody_of_some hhead, hbytes]
    exact List.drop_append_of_le_length (findHeadEnd_le hhead)
  refine ⟨head, rest, lineEnd, hread, ?_, hrequest, ?_, ?_, ?_⟩
  · rw [hbytes]
    exact position_append hline rest
  · rw [hbody]
    exact presents_new _ (presents _)
  · have h := presents_new head (presents { s with unread := rest })
    rwa [← hbytes] at h
  · intro first tail hfirst hsocks out reg
    have hserve := dispatch_of_head hfirst hsocks hread out reg
    rw [← hrequest, hserve]
    refine ⟨fun hnone => serveHead_of_malformed hnone out _, fun method target hsome =>
      ⟨fun hconnect => ?_, fun hother => serveHead_of_other hsome hother out _⟩⟩
    rw [serveHead_of_connect hsome hconnect]
    refine ⟨rfl, fun served conn hok => ?_⟩
    obtain ⟨hserved, haccept, -⟩ := connectAndSplice_ok hok
    refine ⟨_, _, hserved, ?_⟩
    rw [hbody, ← show conn.client.unread = rest from accept_unread haccept]
    exact presents_new _ (presents _)

end Wiretally.Proxy
