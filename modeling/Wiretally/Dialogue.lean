import Wiretally.Lib.Lockstep
import Wiretally.SocksDatagram
import Wiretally.TunnelBytes

/-!
A client that waits for each answer of the proxy.

A SOCKS client sends the methods it knows and waits for a selection, then sends its request and
waits for the reply; a client of the HTTP proxy sends the head of its request and waits for the
status. Nothing is sent ahead, so the proxy must not wait for more than it needs before it
answers. It does not: however both directions are cut and delayed, the client gets the answer to
each message, and when it has the last, proxy and client agree on what comes next.
-/

namespace Wiretally.Dialogue

open Wiretally.Lib.AsyncIo Wiretally.Lib.Tcp Wiretally.Lib.Tcp.TcpStream Wiretally.Lib.Run
open Wiretally.Lib.Lockstep Wiretally.Net Wiretally.Stats Wiretally.Head Wiretally.Proxy
open Wiretally.Socks Wiretally.SocksAccept Wiretally.SocksDatagram Wiretally.Transcript
open Wiretally.TunnelBytes

/-! ### What a client is told -/

/-- What tells a client that its host could not be reached. -/
def refuseBytes : Handshake → List UInt8
  | .http => ascii "HTTP/1.1 502 Bad Gateway\r\nContent-Length: 0\r\n\r\n"
  | .socks => replyBytes repConnectionRefused

lemma refuse_eq (handshake : Handshake) : handshake.refuse = writeAll (refuseBytes handshake) := by
  cases handshake <;> rfl

/-- What the connect to a host lets a tunnel come to, and what the client is told. -/
inductive Told (out : Outside) (handshake : Handshake) (host : Text) (port : UInt16) :
    List UInt8 → (Registry → Outcome Failure Served) → Prop
  | reached {upstream} (h : out.connect host port = .ok upstream) (hn : upstream.nodelay = .ok ()) :
    Told out handshake host port (openBytes handshake)
      fun reg => .ok (.tunnel (reg.endpoint host).1 [])
  | refused {err} (h : out.connect host port = .err err) :
    Told out handshake host port (refuseBytes handshake) fun _ => .err (.io err)

/-- The same for the bind of a relay. -/
inductive ToldRelay (out : Outside) : List UInt8 → Outcome Failure Served → Prop
  | bound {addr} (h : out.bindRelay = .ok ()) (ha : out.relayAddr = .ok addr) :
    ToldRelay out ([version, repSuccess, 0] ++ block addr) (.ok (.relay addr))
  | failed {err} (h : out.bindRelay = .err err) :
    ToldRelay out (replyBytes repGeneralFailure) (.err (.io err))

/-- A request of a SOCKS client and the reply to it. -/
inductive Replied (out : Outside) :
    List UInt8 → List UInt8 → (Registry → Outcome Failure Served) → Prop
  | connect {request dest answer served} (hr : RequestBytes request (.connect dest))
    (ht : Told out .socks dest.host dest.port answer served) : Replied out request answer served
  | associate {request dest answer served} (hr : RequestBytes request (.udpAssociate dest))
    (ht : ToldRelay out answer served) : Replied out request answer fun _ => served
  /-- The request is read to its end also where its command is not known. -/
  | unsupported {c rsv atyp addr host} (ha : Address atyp addr host) (port : List.Vector UInt8 2)
    (hc : c ≠ cmdConnect ∧ c ≠ cmdUdpAssociate) :
    Replied out (version :: c :: rsv :: atyp :: (addr ++ port.toList))
      (replyBytes repCommandNotSupported) fun _ => .err (.socks (.unsupportedCommand c))

/-- The messages of a client, the answers to them and what the connection comes to. -/
inductive Talk (out : Outside) : List (Round UInt8) → (Registry → Outcome Failure Served) → Prop
  | socks {n : UInt8} {methods greeting request served} (hn : methods.length = n.toNat)
    (hm : methodNone ∈ methods) (hg : greeting.message = version :: n :: methods)
    (hs : greeting.answer = [version, methodNone])
    (hr : Replied out request.message request.answer served) : Talk out [greeting, request] served
  | http {request host port served}
    (hend : findHeadEnd request.message = some request.message.length)
    (hlen : request.message.length ≤ maxHeadBytes)
    (hfirst : request.message.head? ≠ some greetingByte)
    (hline : AsksLine request.message (host, port))
    (ht : Told out .http host port request.answer served) : Talk out [request] served

/-! ### The proxy, when some bytes have arrived -/

/-- A client that has sent these bytes and waits. -/
def waiting (bytes : List UInt8) (segment : ℕ → ℕ) : TcpStream where
  unread := bytes
  segment := segment
  fate := .silent
  written := []
  broken := none

/-- What the proxy has written when some bytes have arrived. -/
def serve (out : Outside) (bytes : List UInt8) (how : (ℕ → ℕ) × Registry) : List UInt8 :=
  (handleConnection out ⟨waiting bytes how.1, how.2⟩).2.client.written

variable {out : Outside}

/-- **The end of a tunnel's set-up.** -/
lemma connectAndSplice_told {handshake : Handshake} {host : Text} {port : UInt16}
    {answer : List UInt8} {served : Registry → Outcome Failure Served}
    (h : Told out handshake host port answer served) (conn : Conn)
    (hopen : conn.client.broken = none) :
    ∃ reg, connectAndSplice out host port [] handshake conn =
      (served conn.registry, ⟨conn.client.put answer, reg⟩) := by
  cases h with
  | @reached upstream hconnect hn =>
    obtain ⟨reg, -, -, heq⟩ := connectAndSplice_of_ok hconnect hn [] handshake conn
    have hsend : onClient (writeAll (openBytes handshake)) { conn with registry := reg } =
        (.ok (), ⟨conn.client.put (openBytes handshake), reg⟩) := by
      rw [onClient_apply, writeAll_of_open hopen]
    rw [heq, accept_eq]
    exact ⟨reg, Task.bind_ok (mapErr_ok hsend)⟩
  | @refused err hconnect =>
    have hsend : Task.result (δ := Failure) (onClient (writeAll (refuseBytes handshake)))
        { conn with registry := (conn.registry.endpoint host).2 } =
        (.ok (.ok ()),
          ⟨conn.client.put (refuseBytes handshake), (conn.registry.endpoint host).2⟩) := by
      rw [result_onClient, writeAll_of_open hopen]
      rfl
    rw [connectAndSplice_of_err hconnect, refuse_eq]
    exact ⟨_, Task.bind_ok hsend⟩

lemma relayUdp_told {answer : List UInt8} {served : Outcome Failure Served}
    (h : ToldRelay out answer served) (conn : Conn) (hopen : conn.client.broken = none) :
    relayUdp out conn = (served, ⟨conn.client.put answer, conn.registry⟩) := by
  cases h with
  | @bound addr hbind haddr =>
    have heq : relayUdp out conn = (do
        (onClient (replyBound repSuccess addr)).mapErr Failure.io
        pure (Served.relay addr)) conn := by
      unfold relayUdp
      rw [hbind, haddr]
      rfl
    have hsend : onClient (replyBound repSuccess addr) conn =
        (.ok (),
          { conn with client := conn.client.put ([version, repSuccess, 0] ++ block addr) }) := by
      rw [onClient_apply, replyBound_eq, writeAll_of_open hopen]
    rw [heq]
    exact Task.bind_ok (mapErr_ok hsend)
  | @failed err hbind =>
    have heq : relayUdp out conn = (do
        let _ ← Task.result (onClient (reply repGeneralFailure))
        Task.fail (Failure.io err)) conn := by
      unfold relayUdp
      rw [hbind]
      rfl
    rw [heq]
    exact Task.bind_ok (result_reply conn hopen repGeneralFailure)

/-! ### A part of a handshake -/

/-- More bytes change nothing where the request is decided. -/
lemma requestVerdict_append {bytes : List UInt8} {result : Outcome Error Command} {k : ℕ}
    (h : RequestVerdict .silent bytes result k) (hresult : result ≠ .blocked) (more : List UInt8) :
    RequestVerdict .silent (bytes ++ more) result k := by
  cases h with
  | noHeader h => exact absurd rfl hresult
  | badVersion h hv => exact .badVersion (by rw [h]; rfl) hv
  | badAddressType h ha => exact .badAddressType (by rw [h]; rfl) ha
  | noAddress h ha => exact absurd rfl hresult
  | noPort h ha hp => exact absurd rfl hresult
  | @badCommand c rsv atyp addr host rest port h ha hc =>
    have hmore : bytes ++ more =
        version :: c :: rsv :: atyp :: (addr ++ (port.toList ++ (rest ++ more))) := by
      rw [h]
      simp
    exact .badCommand hmore ha hc
  | accepted h hr => exact .accepted (by rw [h, List.append_assoc]) hr

lemma verdict_append {bytes : List UInt8} {result : Outcome Error Command} {k : ℕ} {w : List UInt8}
    (h : Verdict .silent bytes result k w) (hresult : result ≠ .blocked) (more : List UInt8) :
    Verdict .silent (bytes ++ more) result k w := by
  cases h with
  | noGreeting h => exact absurd rfl hresult
  | badVersion h hv => exact .badVersion (by rw [h]; rfl) hv
  | noMethods h hn => exact absurd rfl hresult
  | @noAcceptable n methods rest h hn hm =>
    have hmore : bytes ++ more = version :: n :: (methods ++ (rest ++ more)) := by
      rw [h]
      simp
    exact .noAcceptable hmore hn hm
  | @request n methods rest _ _ h hn hm hr =>
    have hmore : bytes ++ more = version :: n :: (methods ++ (rest ++ more)) := by
      rw [h]
      simp
    exact .request hmore hn hm (requestVerdict_append hr hresult more)

lemma requestVerdict_le {fate : Fate} {bytes : List UInt8} {result : Outcome Error Command} {k : ℕ}
    (h : RequestVerdict fate bytes result k) : k ≤ bytes.length := by
  cases h with
  | noHeader h => exact Nat.le_refl _
  | badVersion h hv => rw [h]; simp
  | badAddressType h ha => rw [h]; simp
  | noAddress h ha => exact Nat.le_refl _
  | noPort h ha hp => exact Nat.le_refl _
  | badCommand h ha hc => rw [h]; simp; omega
  | accepted h hr => rw [h]; simp

lemma verdict_le {fate : Fate} {bytes : List UInt8} {result : Outcome Error Command} {k : ℕ}
    {w : List UInt8} (h : Verdict fate bytes result k w) : k ≤ bytes.length := by
  cases h with
  | noGreeting h => exact Nat.le_refl _
  | badVersion h hv => rw [h]; simp
  | noMethods h hn => exact Nat.le_refl _
  | noAcceptable h hn hm => rw [h]; simp; omega
  | request h hn hm hr =>
    have hle := requestVerdict_le hr
    rw [h]
    simp
    omega

lemma verdict_unique {bytes : List UInt8} {result result' : Outcome Error Command} {k k' : ℕ}
    {w w' : List UInt8} (h : Verdict .silent bytes result k w)
    (h' : Verdict .silent bytes result' k' w') : result = result' ∧ k = k' := by
  have haccept := accept_of_verdict (s := waiting bytes id) rfl h
  rw [accept_of_verdict (s := waiting bytes id) rfl h'] at haccept
  obtain ⟨hresult, hstream⟩ := Prod.ext_iff.mp haccept
  refine ⟨hresult.symm, ?_⟩
  have hdrop : bytes.drop k' = bytes.drop k := congrArg TcpStream.unread hstream
  have hlen := congrArg List.length hdrop
  have hle := verdict_le h
  have hle' := verdict_le h'
  rw [List.length_drop, List.length_drop] at hlen
  omega

/-- A handshake of which a part is missing is waited for, and the methods are answered as soon as
they are there. -/
lemma verdict_part {n : UInt8} {methods request bytes : List UInt8}
    {result : Outcome Error Command} {w : List UInt8} (hn : methods.length = n.toNat)
    (hwhole : Verdict .silent (version :: n :: (methods ++ request)) result
      (version :: n :: (methods ++ request)).length w)
    (hpre : bytes <+: version :: n :: (methods ++ request))
    (hlt : bytes.length < (version :: n :: (methods ++ request)).length) :
    ∃ k, Verdict .silent bytes .blocked k
      (if bytes.length < 2 + n.toNat then [] else [version, methodNone]) := by
  obtain ⟨result', k, w', hv⟩ := verdict_total .silent bytes
  have hblocked : result' = .blocked := by
    by_contra hne
    obtain ⟨more, hmore⟩ := hpre
    have hmore' := verdict_append hv hne more
    rw [hmore] at hmore'
    have hk := (verdict_unique hmore' hwhole).2
    have hle := verdict_le hv
    omega
  rw [hblocked] at hv
  obtain ⟨more, hmore⟩ := hpre
  refine ⟨k, ?_⟩
  generalize ho : (Outcome.blocked : Outcome Error Command) = o at hv ⊢
  cases hv with
  | noGreeting h =>
    rw [if_pos (by omega)]
    exact .noGreeting h
  | badVersion => cases ho
  | @noMethods n' rest h hn' =>
    have hsame : n' = n := by
      rw [h] at hmore
      simp only [List.cons_append, List.cons.injEq, true_and] at hmore
      exact hmore.1
    subst hsame
    rw [if_pos (by rw [h, List.length_cons, List.length_cons]; omega)]
    exact .noMethods h hn'
  | noAcceptable => cases ho
  | @request n' methods' rest _ _ h hn' hm hr =>
    have hsame : n' = n := by
      rw [h] at hmore
      simp only [List.cons_append, List.cons.injEq, true_and] at hmore
      exact hmore.1
    subst hsame
    rw [if_neg (by rw [h]; simp; omega)]
    exact .request h hn' hm hr

/-! ### What the proxy answers when -/

section Answers

variable {bytes : List UInt8}

lemma serve_nil (hout : out.nodelay = .ok ()) (how : (ℕ → ℕ) × Registry) :
    serve out [] how = [] := by
  unfold serve
  rw [handleConnection_of_ok hout]
  rfl

lemma handleConnection_of_greeting (hout : out.nodelay = .ok ()) {tail : List UInt8}
    (segment : ℕ → ℕ) (reg : Registry) :
    handleConnection out ⟨waiting (version :: tail) segment, reg⟩ =
      serveSocks out ⟨waiting (version :: tail) segment, reg⟩ := by
  rw [handleConnection_of_ok hout]
  exact dispatch_of_greeting rfl out reg

lemma serveSocks_replied {n : UInt8} {methods request answer : List UInt8}
    {served : Registry → Outcome Failure Served} (hn : methods.length = n.toNat)
    (hm : methodNone ∈ methods) (hr : Replied out request answer served) (segment : ℕ → ℕ)
    (reg : Registry) :
    ∃ result, Verdict .silent (version :: n :: (methods ++ request)) result
        (version :: n :: (methods ++ request)).length [version, methodNone] ∧
      ∃ reg', serveSocks out ⟨waiting (version :: n :: (methods ++ request)) segment, reg⟩ =
        (served reg, ⟨(waiting [] segment).put ([version, methodNone] ++ answer), reg'⟩) := by
  set bytes := version :: n :: (methods ++ request) with hbytes
  -- what `accept` leaves is a stream with nothing left to read
  have hrest : ((waiting bytes segment).consume bytes.length).put [version, methodNone] =
      (waiting [] segment).put [version, methodNone] := by
    unfold waiting consume put
    simp
  have hhandshake : ∀ {cmd}, RequestBytes request cmd →
      Verdict .silent bytes (.ok cmd) bytes.length [version, methodNone] := by
    intro cmd h
    have hv := verdict_of_handshake .silent [] (.mk hn hm h)
    rwa [List.append_nil] at hv
  have haccept : ∀ {result}, Verdict .silent bytes result bytes.length [version, methodNone] →
      accept (waiting bytes segment) =
        (result, (waiting [] segment).put [version, methodNone]) := by
    intro result hv
    rw [accept_of_verdict rfl hv, hrest]
  cases hr with
  | @connect _ dest _ _ hr ht =>
    have hv := hhandshake hr
    obtain ⟨reg', hconnect⟩ := connectAndSplice_told ht
      ⟨(waiting [] segment).put [version, methodNone], reg⟩ rfl
    refine ⟨_, hv, reg', ?_⟩
    rw [serveSocks_ok (haccept hv)]
    exact hconnect
  | @associate _ dest _ served hr ht =>
    have hv := hhandshake hr
    have hrelay := relayUdp_told ht ⟨(waiting [] segment).put [version, methodNone], reg⟩ rfl
    refine ⟨_, hv, reg, ?_⟩
    rw [serveSocks_ok (haccept hv)]
    exact hrelay
  | @unsupported c rsv atyp addr host ha port hc =>
    have hreq : RequestVerdict .silent (version :: c :: rsv :: atyp :: (addr ++ port.toList))
        (.err (.unsupportedCommand c)) (4 + addr.length + 2) := by
      have hwhole : version :: c :: rsv :: atyp :: (addr ++ port.toList) =
          version :: c :: rsv :: atyp :: (addr ++ (port.toList ++ [])) := by
        rw [List.append_nil]
      exact .badCommand hwhole ha hc
    have hv : Verdict .silent bytes _ _ _ := .request rfl hn hm hreq
    have hk : 2 + n.toNat + (4 + addr.length + 2) = bytes.length := by
      rw [hbytes]
      simp
      omega
    rw [hk] at hv
    refine ⟨_, hv, reg, ?_⟩
    rw [serveSocks_err (haccept hv), reply_of_open rfl]
    rfl

/-- A handshake that is not complete is answered as far as it goes. -/
lemma serve_part (hout : out.nodelay = .ok ()) {n : UInt8} {methods request : List UInt8}
    {result : Outcome Error Command} (hn : methods.length = n.toNat)
    (hwhole : Verdict .silent (version :: n :: (methods ++ request)) result
      (version :: n :: (methods ++ request)).length [version, methodNone])
    (hpre : bytes <+: version :: n :: (methods ++ request))
    (hlt : bytes.length < (version :: n :: (methods ++ request)).length)
    (how : (ℕ → ℕ) × Registry) :
    serve out bytes how = if bytes.length < 2 + n.toNat then [] else [version, methodNone] := by
  obtain ⟨k, hv⟩ := verdict_part hn hwhole hpre hlt
  cases bytes with
  | nil =>
    rw [serve_nil hout, if_pos]
    rw [List.length_nil]
    omega
  | cons first tail =>
    obtain rfl : first = version := (List.cons_prefix_cons.mp hpre).1
    have haccept := accept_of_verdict (s := waiting (version :: tail) how.1) rfl hv
    unfold serve
    rw [handleConnection_of_greeting hout, serveSocks_of_blocked haccept]
    rfl

/-- Before the end of its head nothing is sent to a client of the HTTP proxy. -/
lemma serve_head_part (hout : out.nodelay = .ok ()) {head : List UInt8}
    (hend : findHeadEnd head = some head.length) (hlen : head.length ≤ maxHeadBytes)
    (hfirst : head.head? ≠ some greetingByte) (hpre : bytes <+: head)
    (hlt : bytes.length < head.length) (how : (ℕ → ℕ) × Registry) : serve out bytes how = [] := by
  cases bytes with
  | nil => exact serve_nil hout how
  | cons first tail =>
    have hsocks : first ≠ greetingByte := by
      rintro rfl
      obtain ⟨rest, hrest⟩ := hpre
      rw [← hrest] at hfirst
      exact hfirst rfl
    have hnone : findHeadEnd (first :: tail) = none := by
      by_contra hsome
      obtain ⟨stop, hstop⟩ := Option.ne_none_iff_exists'.mp hsome
      obtain ⟨rest, hrest⟩ := hpre
      have hsame := findHeadEnd_append hstop rest
      rw [hrest, hend] at hsame
      cases hsame
      have hle := findHeadEnd_le hstop
      omega
    obtain ⟨r, hv, hstream⟩ := readHead_verdict (waiting (first :: tail) how.1)
    have hblocked : (readHead (waiting (first :: tail) how.1)).1 = .blocked ∧
        r.stream.written = [] := by
      generalize (readHead (waiting (first :: tail) how.1)).1 = result at hv ⊢
      cases hv with
      | @complete head' rest stop h he _ =>
        have hsome := findHeadEnd_append he rest
        rw [← h] at hsome
        exact absurd (hsome.symm.trans hnone) (Option.some_ne_none stop)
      | @tooLarge buf rest h hn hmax _ =>
        have hle : buf.length ≤ (first :: tail).length := by
          have hbytes : first :: tail = buf ++ rest := h
          rw [hbytes, List.length_append]
          omega
        omega
      | cutShort hn _ hf => cases hf
      | reset hn _ hf => cases hf
      | silent hn _ hf => exact ⟨rfl, rfl⟩
    have hread : (onClient readHead).mapErr Failure.io ⟨waiting (first :: tail) how.1, how.2⟩ =
        (.blocked, ⟨r.stream, how.2⟩) := by
      unfold Task.mapErr
      rw [onClient_apply, hblocked.1, hstream]
    unfold serve
    rw [handleConnection_of_ok hout, dispatch_of_first rfl, if_neg hsocks, Task.bind_blocked hread]
    exact hblocked.2

lemma handleConnection_of_head (hout : out.nodelay = .ok ()) {head answer : List UInt8}
    {host : Text} {port : UInt16} {served : Registry → Outcome Failure Served}
    (hend : findHeadEnd head = some head.length) (hlen : head.length ≤ maxHeadBytes)
    (hfirst : head.head? ≠ some greetingByte) (hline : AsksLine head (host, port))
    (ht : Told out .http host port answer served) (segment : ℕ → ℕ) (reg : Registry) :
    ∃ reg', handleConnection out ⟨waiting head segment, reg⟩ =
      (served reg, ⟨(waiting [] segment).put answer, reg'⟩) := by
  have hne : head ≠ [] := by
    rintro rfl
    cases hend
  obtain ⟨first, tail, hcons⟩ := List.exists_cons_of_ne_nil hne
  have hsocks : first ≠ greetingByte := by
    rintro rfl
    rw [hcons] at hfirst
    exact hfirst rfl
  obtain ⟨head', rest, hread, hbytes, hend'⟩ :=
    readHead_of_head (s := waiting head segment) hend (Nat.le_succ_of_le hlen)
  -- nothing is left behind the head
  have hbytes' : head = head' ++ rest := hbytes
  have hle := findHeadEnd_le hend'
  have hrest : rest = [] := by
    have hsum := congrArg List.length hbytes'
    rw [List.length_append] at hsum
    exact List.eq_nil_of_length_eq_zero (by omega)
  rw [hrest, List.append_nil] at hbytes'
  rw [hrest, ← hbytes'] at hread
  obtain ⟨method, target, hmethod, hconnect, htarget⟩ := hline
  have hbody : headBody head = [] := (headBody_of_some hend).trans List.drop_length
  rw [handleConnection_of_ok hout,
    dispatch_of_head (s := waiting head segment) (t := waiting [] segment) hcons hsocks hread,
    serveHead_of_connect hmethod hconnect, htarget, hbody]
  exact connectAndSplice_told ht _ rfl

end Answers

/-! ### Whole talks -/

section Talks

variable {rounds : List (Round UInt8)} {served : Registry → Outcome Failure Served}

/-- **What a talk comes to**, when all of it has arrived. -/
theorem served_of_talk (hout : out.nodelay = .ok ()) (h : Talk out rounds served)
    (segment : ℕ → ℕ) (reg : Registry) :
    ∃ reg', handleConnection out ⟨waiting (messages rounds) segment, reg⟩ =
      (served reg, ⟨(waiting [] segment).put (answers rounds), reg'⟩) := by
  cases h with
  | @socks n methods greeting request _ hn hm hg hs hr =>
    have hmessages : messages [greeting, request] =
        version :: n :: (methods ++ request.message) := by
      simp [messages, hg]
    have hanswers : answers [greeting, request] = [version, methodNone] ++ request.answer := by
      simp [answers, hs]
    obtain ⟨_, -, reg', hserve⟩ := serveSocks_replied hn hm hr segment reg
    rw [hmessages, hanswers]
    exact ⟨reg', (handleConnection_of_greeting hout segment reg).trans hserve⟩
  | @http request host port _ hend hlen hfirst hline ht =>
    have hmessages : messages [request] = request.message := List.append_nil _
    have hanswers : answers [request] = request.answer := List.append_nil _
    rw [hmessages, hanswers]
    exact handleConnection_of_head hout hend hlen hfirst hline ht segment reg

lemma serve_of_talk (hout : out.nodelay = .ok ()) (h : Talk out rounds served)
    (how : (ℕ → ℕ) × Registry) : serve out (messages rounds) how = answers rounds := by
  obtain ⟨reg', hserve⟩ := served_of_talk hout h how.1 how.2
  unfold serve
  rw [hserve]
  rfl

/-- **The proxy answers each message when it is complete, and not before.** -/
theorem answers_of_talk (hout : out.nodelay = .ok ()) (h : Talk out rounds served) :
    Answers rounds (serve out) := by
  have hall := serve_of_talk hout h
  intro k bytes how hfrom hto
  rcases Nat.lt_or_ge k rounds.length with hk | hk
  · cases h with
    | @socks n methods greeting request _ hn hm hg hs hr =>
      obtain ⟨result, hv, -⟩ := serveSocks_replied hn hm hr how.1 how.2
      have hgreeting : greeting.message.length = 2 + n.toNat := by
        rw [hg]
        simp only [List.length_cons]
        omega
      have hwhole : greeting.message ++ request.message =
          version :: n :: (methods ++ request.message) := by
        rw [hg]
        rfl
      have hpos := List.length_pos_iff.mpr request.asks
      have hlen := congrArg List.length hwhole
      rw [List.length_append] at hlen
      match k, hk with
      | 0, _ =>
        -- the methods are not complete
        have hpart : bytes <+: greeting.message ∧ bytes.length < greeting.message.length := by
          rcases hto with rfl | ⟨round, hround, hpre, hlt⟩
          · exact ⟨List.nil_prefix, List.length_pos_iff.mpr greeting.asks⟩
          · cases hround
            rw [show messages ([greeting, request].take 0) = [] from rfl, List.length_nil,
              Nat.zero_add] at hlt
            exact ⟨hpre, hlt⟩
        rw [serve_part hout hn hv (hwhole ▸ hpart.1.trans (List.prefix_append _ _)) (by omega),
          if_pos (by omega)]
        rfl
      | 1, _ =>
        have hmessages : messages ([greeting, request].take 1) = greeting.message :=
          List.append_nil _
        rw [hmessages] at hfrom hto
        have hlonger := hfrom.length_le
        have hpart : bytes <+: greeting.message ++ request.message ∧
            bytes.length < greeting.message.length + request.message.length := by
          rcases hto with rfl | ⟨round, hround, hpre, hlt⟩
          · exact ⟨List.prefix_append _ _, by omega⟩
          · cases hround
            exact ⟨hpre, hlt⟩
        rw [serve_part hout hn hv (hwhole ▸ hpart.1) (by omega), if_neg (by omega)]
        rw [← hs]
        exact (List.append_nil _).symm
    | @http request host port _ hend hlen hfirst hline ht =>
      match k, hk with
      | 0, _ =>
        have hpart : bytes <+: request.message ∧ bytes.length < request.message.length := by
          rcases hto with rfl | ⟨round, hround, hpre, hlt⟩
          · exact ⟨List.nil_prefix, List.length_pos_iff.mpr request.asks⟩
          · cases hround
            rw [show messages ([request].take 0) = [] from rfl, List.length_nil,
              Nat.zero_add] at hlt
            exact ⟨hpre, hlt⟩
        exact serve_head_part hout hend hlen hfirst hpart.1 hpart.2 how
  · rw [List.take_of_length_le hk] at hto ⊢
    rcases hto with rfl | ⟨round, hround, -⟩
    · exact hall how
    · rw [List.getElem?_eq_none hk] at hround
      cases hround

/-- **A client that waits for each answer is never left waiting.** However both directions are
cut and delayed, a run takes no more steps than there are messages and bytes, until its end
there is always a step to take, and all that the client gets is the answers in their order; when
it has them all, all of its messages have arrived, the proxy has read them, has sent nothing
else, and goes on with what the client asked for. -/
theorem never_left_waiting (hout : out.nodelay = .ok ()) (h : Talk out rounds served)
    {acts : List (Lib.Lockstep.Act ((ℕ → ℕ) × Registry))} {w : Lib.Lockstep.World UInt8}
    (hrun : run (step rounds (serve out)) World.start acts = some w) :
    acts.length ≤ rounds.length + (messages rounds).length + (answers rounds).length ∧
      w.got <+: answers rounds ∧
      (¬ Finished rounds w → ∃ act, (step rounds (serve out) w act).isSome = true) ∧
      (Finished rounds w → w.arrived = messages rounds ∧ ∀ segment reg, ∃ reg',
        handleConnection out ⟨waiting w.arrived segment, reg⟩ =
          (served reg, ⟨(waiting [] segment).put w.got, reg'⟩)) := by
  obtain ⟨hw, hlen⟩ := kept_run (answers_of_talk hout h) hrun
  have : Nonempty ((ℕ → ℕ) × Registry) := ⟨id, Registry.new⟩
  refine ⟨hlen, hw.got_prefix, step_of_kept hw, fun hfin =>
    ⟨hw.arrived_of_finished hfin, fun segment reg => ?_⟩⟩
  rw [hw.arrived_of_finished hfin, hfin.2]
  exact served_of_talk hout h segment reg

end Talks

/-! ### A SOCKS client -/

def greeting : Round UInt8 := ⟨[version, 1, methodNone], [version, methodNone], nofun, nofun⟩

def request : Round UInt8 :=
  ⟨[version, cmdConnect, 0, atypDomain, 1, 0x61, 0, 80], replyBytes repSuccess, nofun, nofun⟩

/-- Its request arrives in pieces, of which each is read a byte at a time, and so does the reply. -/
def socksConnect : List (Lib.Lockstep.Act ((ℕ → ℕ) × Registry)) :=
  let how := (fun _ => 1, Registry.new)
  [.send, .arrive 2 how, .arrive 1 how, .get 1, .get 1, .send, .arrive 5 how, .arrive 3 how, .get 4,
    .get 6]

theorem never_left_waiting_socksConnect : ∃ w,
    run (step [greeting, request] (serve reached)) World.start socksConnect = some w ∧
    Finished [greeting, request] w ∧ ∃ reg',
      handleConnection reached ⟨waiting w.arrived id, Registry.new⟩ =
        (.ok (.tunnel (Registry.new.endpoint "a".toList).1 []),
          ⟨(waiting [] id).put w.got, reg'⟩) := by
  have hrun : run (step [greeting, request] (serve reached)) World.start socksConnect =
      some ⟨2, greeting.message ++ request.message, greeting.answer ++ request.answer,
        greeting.answer ++ request.answer⟩ := by
    decide +kernel
  have hhost : domainHost [0x61] = "a".toList := by decide +kernel
  have hasks : RequestBytes request.message (.connect ⟨"a".toList, 80⟩) := by
    have ha : Address atypDomain [1, 0x61] (domainHost [0x61]) := .domain rfl
    rw [hhost] at ha
    have hc : Asks cmdConnect ⟨"a".toList, u16FromBeBytes ⟨[0, 80], rfl⟩⟩
        (.connect ⟨"a".toList, 80⟩) := .connect ⟨"a".toList, 80⟩
    exact .mk ha hc
  have htalk : Talk reached [greeting, request] _ :=
    .socks (n := 1) rfl (List.mem_singleton_self methodNone) rfl rfl
      (.connect hasks (.reached rfl rfl))
  have hfin : Finished [greeting, request] ⟨2, greeting.message ++ request.message,
      greeting.answer ++ request.answer, greeting.answer ++ request.answer⟩ := ⟨rfl, rfl⟩
  obtain ⟨-, hserved⟩ := (never_left_waiting rfl htalk hrun).2.2.2 hfin
  exact ⟨_, hrun, hfin, hserved id Registry.new⟩

end Wiretally.Dialogue
