import Wiretally.Proxy
import Wiretally.SocksAccept

/-!
What a SOCKS5 client is sent before any payload.

A server's side of the protocol is a method selection and then, if it selected no
authentication, one reply. Every error of the handshake is answered with a reply, also where
no selection was made or where it refused every method offered; so the transcript is legal
exactly if the handshake gets as far as a selection of no authentication, or waits for the
list of methods for ever.
-/

namespace Wiretally.Transcript

open Wiretally.Lib.AsyncIo Wiretally.Lib.Tcp Wiretally.Lib.Tcp.TcpStream Wiretally.Net
open Wiretally.Stats Wiretally.Socks Wiretally.SocksAccept Wiretally.Proxy

/-- `VER REP RSV ATYP BND.ADDR BND.PORT`. -/
inductive ReplyRecord : List UInt8 → Prop
  | mk {rep atyp addr host} (ha : Address atyp addr host) (port : List.Vector UInt8 2) :
    ReplyRecord (version :: rep :: 0x00 :: atyp :: (addr ++ port.toList))

/-- What a server may have sent at some point before the payload. -/
inductive Legal : List UInt8 → Prop
  | nothing : Legal []
  | selected (method : UInt8) : Legal [version, method]
  | replied {record} (h : ReplyRecord record) : Legal ([version, methodNone] ++ record)

/-- The list of methods has arrived. -/
def MethodsComplete (bytes : List UInt8) : Prop :=
  ∃ n methods rest, bytes = version :: n :: (methods ++ rest) ∧ methods.length = UInt8.toNat n

/-- The list of methods has arrived and offers no authentication. -/
def NoneOffered (bytes : List UInt8) : Prop :=
  ∃ n methods rest, bytes = version :: n :: (methods ++ rest) ∧ methods.length = UInt8.toNat n ∧
    methodNone ∈ methods

/-! ### Replies -/

def replyBytes (code : UInt8) : List UInt8 := [version, code, 0x00, atypIpv4, 0, 0, 0, 0, 0, 0]

lemma replyRecord_reply (code : UInt8) : ReplyRecord (replyBytes code) :=
  .mk (.ipv4 ⟨[0, 0, 0, 0], rfl⟩) ⟨[0, 0], rfl⟩

lemma reply_of_open {s : TcpStream} (hopen : s.broken = none) (code : UInt8) :
    reply code s = (.ok (), s.put (replyBytes code)) :=
  writeAll_of_open hopen _

lemma replyBound_of_open {s : TcpStream} (hopen : s.broken = none) (code : UInt8)
    (bound : SocketAddr) :
    ∃ record, ReplyRecord record ∧ replyBound code bound s = (.ok (), s.put record) := by
  obtain ⟨ip, port⟩ := bound
  cases ip with
  | v4 ip =>
    exact ⟨_, .mk (.ipv4 ip) ⟨u16ToBeBytes port, rfl⟩, writeAll_of_open hopen _⟩
  | v6 ip =>
    exact ⟨_, .mk (.ipv6 ip) ⟨u16ToBeBytes port, rfl⟩, writeAll_of_open hopen _⟩

/-- A reply that is not a success is no continuation of a legal transcript but one that
selected no authentication. -/
lemma not_legal_reply {w : List UInt8} {code : UInt8} (hcode : code ≠ repSuccess)
    (hw : w = [] ∨ w = [version, methodUnacceptable]) : ¬ Legal (w ++ replyBytes code) := by
  intro h
  generalize hb : w ++ replyBytes code = bytes at h
  rcases hw with rfl | rfl
  · cases h with
    | nothing => cases hb
    | selected method => cases hb
    | replied hr =>
      have hhead := congrArg (fun l : List UInt8 => l.getD 1 0) hb
      exact hcode hhead
  · cases h with
    | nothing => cases hb
    | selected method => cases hb
    | replied hr =>
      have hhead := congrArg (fun l : List UInt8 => l.getD 1 0) hb
      have hsame : methodUnacceptable = methodNone := hhead
      exact absurd hsame (by decide)

lemma replyCode_ne_success (err : Error) : err.replyCode ≠ repSuccess := by
  have hgeneral : repGeneralFailure ≠ repSuccess := by decide
  cases err with
  | unsupportedCommand => exact (by decide : repCommandNotSupported ≠ repSuccess)
  | unsupportedAddressType => exact (by decide : repAddressNotSupported ≠ repSuccess)
  | _ => exact hgeneral

/-! ### The paths behind the handshake -/

def AtMostOne (w : List UInt8) : Prop := w = [] ∨ ReplyRecord w

lemma legal_selected {w : List UInt8} (h : AtMostOne w) : Legal ([version, methodNone] ++ w) := by
  rcases h with rfl | h
  · exact .selected methodNone
  · exact .replied h

lemma onClient_reply (conn : Conn) (hopen : conn.client.broken = none) (code : UInt8) :
    onClient (reply code) conn =
      (.ok (), { conn with client := conn.client.put (replyBytes code) }) := by
  rw [onClient_apply, reply_of_open hopen]

lemma result_reply (conn : Conn) (hopen : conn.client.broken = none) (code : UInt8) :
    Task.result (δ := Failure) (onClient (reply code)) conn =
      (.ok (.ok ()), { conn with client := conn.client.put (replyBytes code) }) := by
  rw [result_onClient, reply_of_open hopen]
  rfl

lemma handleConnection_of_ok {out : Outside} (h : out.nodelay = .ok ()) (conn : Conn) :
    handleConnection out conn = dispatch out conn := by
  unfold handleConnection check
  rw [h]
  exact Task.bind_ok rfl

lemma handleConnection_of_error {out : Outside} {e : IoError} (h : out.nodelay = .error e)
    (conn : Conn) : handleConnection out conn = (.err (.io e), conn) := by
  unfold handleConnection check
  rw [h]
  exact Task.bind_err rfl

lemma dispatch_of_greeting {s : TcpStream} {tail : List UInt8}
    (hfirst : s.unread = greetingByte :: tail) (out : Outside) (reg : Registry) :
    dispatch out ⟨s, reg⟩ = serveSocks out ⟨s, reg⟩ := by
  rw [dispatch_of_first hfirst, if_pos rfl]

/-- A client whose upstream connection fails is refused, and its host has a row. -/
lemma connectAndSplice_refused {out : Outside} {host : Text} {port : UInt16} {e : IoError}
    (hconnect : out.connect host port = .err e) (leftover : List UInt8) {conn : Conn}
    (hopen : conn.client.broken = none) :
    connectAndSplice out host port leftover .socks conn = (.err (.io e),
      ⟨conn.client.put (replyBytes repConnectionRefused), (conn.registry.endpoint host).2⟩) := by
  have hreply := result_reply { conn with registry := (conn.registry.endpoint host).2 } hopen
    repConnectionRefused
  rw [connectAndSplice_of_err hconnect]
  exact Task.bind_ok hreply

lemma connectAndSplice_writes (out : Outside) (host : Text) (port : UInt16)
    (leftover : List UInt8) (conn : Conn) (hopen : conn.client.broken = none) :
    ∃ w, (connectAndSplice out host port leftover .socks conn).2.client.written =
      conn.client.written ++ w ∧ AtMostOne w := by
  cases hconnect : out.connect host port with
  | blocked =>
    refine ⟨[], ?_, .inl rfl⟩
    rw [connectAndSplice_of_blocked hconnect, List.append_nil]
  | err e =>
    refine ⟨_, ?_, .inr (replyRecord_reply repConnectionRefused)⟩
    rw [connectAndSplice_refused hconnect leftover hopen]
    rfl
  | ok upstream =>
    cases hnodelay : upstream.nodelay with
    | error e =>
      refine ⟨[], ?_, .inl rfl⟩
      rw [connectAndSplice_of_delayed hconnect hnodelay, List.append_nil]
    | ok u =>
      obtain ⟨reg, -, -, heq⟩ := connectAndSplice_of_ok hconnect hnodelay leftover .socks conn
      have hreply := mapErr_ok (f := Failure.io)
        (onClient_reply { conn with registry := reg } hopen repSuccess)
      refine ⟨_, ?_, .inr (replyRecord_reply repSuccess)⟩
      exact congrArg (·.2.client.written) (heq.trans (Task.bind_ok hreply))

lemma relayUdp_writes (out : Outside) (conn : Conn) (hopen : conn.client.broken = none) :
    ∃ w, (relayUdp out conn).2.client.written = conn.client.written ++ w ∧ AtMostOne w := by
  cases hbind : out.bindRelay with
  | blocked =>
    refine ⟨[], ?_, .inl rfl⟩
    unfold relayUdp
    rw [hbind, List.append_nil]
    rfl
  | err e =>
    have hreply := result_reply conn hopen repGeneralFailure
    have heq : relayUdp out conn = (do
        let _ ← Task.result (onClient (reply repGeneralFailure))
        Task.fail (Failure.io e)) conn := by
      unfold relayUdp
      rw [hbind]
      rfl
    refine ⟨_, ?_, .inr (replyRecord_reply repGeneralFailure)⟩
    rw [heq, Task.bind_ok hreply]
    rfl
  | ok u =>
    cases hrelay : out.relayAddr with
    | error e =>
      refine ⟨[], ?_, .inl rfl⟩
      unfold relayUdp
      rw [hbind, hrelay, List.append_nil]
      rfl
    | ok bound =>
      obtain ⟨record, hrecord, hreply⟩ := replyBound_of_open hopen repSuccess bound
      have hsend : onClient (replyBound repSuccess bound) conn =
          (.ok (), { conn with client := conn.client.put record }) := by
        rw [onClient_apply, hreply]
      have heq : relayUdp out conn = (do
          (onClient (replyBound repSuccess bound)).mapErr Failure.io
          pure (Served.relay bound)) conn := by
        unfold relayUdp
        rw [hbind, hrelay]
        rfl
      refine ⟨record, ?_, .inr hrecord⟩
      rw [heq, Task.bind_ok (mapErr_ok hsend)]
      rfl

/-! ### What a client is sent -/

/-- A reply is sent or cannot be; in both cases the task goes on. -/
lemma result_reply_eq (conn : Conn) (code : UInt8) :
    ∃ r, Task.result (δ := Failure) (onClient (reply code)) conn =
      (.ok r, { conn with client := (reply code conn.client).2 }) := by
  rw [result_onClient]
  cases hb : conn.client.broken with
  | none =>
    rw [reply_of_open hb]
    exact ⟨_, rfl⟩
  | some e =>
    obtain ⟨e', he⟩ := writeAll_of_broken (s := conn.client) (by rw [hb]; exact Option.some_ne_none e)
      (replyBytes code)
    have hreply : reply code conn.client = (.err e', conn.client) := he
    rw [hreply]
    exact ⟨_, rfl⟩

lemma serveSocks_err {s t : TcpStream} {err : Error} (haccept : accept s = (.err err, t))
    (out : Outside) (reg : Registry) :
    serveSocks out ⟨s, reg⟩ = (.err (.socks err), ⟨(reply err.replyCode t).2, reg⟩) := by
  have hresult : Task.result (δ := Failure) (onClient accept) ⟨s, reg⟩ =
      (.ok (.error err), ⟨t, reg⟩) := by
    rw [result_onClient, haccept]
    rfl
  obtain ⟨r, hr⟩ := result_reply_eq ⟨t, reg⟩ err.replyCode
  have hrefuse : (do
      let _ ← Task.result (onClient (reply err.replyCode))
      Task.fail (Failure.socks err) : Task Conn Failure Served) ⟨t, reg⟩ =
      (.err (.socks err), ⟨(reply err.replyCode t).2, reg⟩) := Task.bind_ok hr
  unfold serveSocks
  rw [Task.bind_ok hresult]
  exact hrefuse

lemma serveSocks_blocked {s t : TcpStream} (haccept : accept s = (.blocked, t))
    (out : Outside) (reg : Registry) : serveSocks out ⟨s, reg⟩ = (.blocked, ⟨t, reg⟩) := by
  have hresult : Task.result (δ := Failure) (onClient accept) ⟨s, reg⟩ = (.blocked, ⟨t, reg⟩) := by
    rw [result_onClient, haccept]
    rfl
  unfold serveSocks
  exact Task.bind_blocked hresult

lemma serveSocks_ok {s t : TcpStream} {cmd : Command} (haccept : accept s = (.ok cmd, t))
    (out : Outside) (reg : Registry) :
    serveSocks out ⟨s, reg⟩ = (match cmd with
      | .connect request => connectAndSplice out request.host request.port [] .socks
      | .udpAssociate _ => relayUdp out) ⟨t, reg⟩ := by
  have hresult : Task.result (δ := Failure) (onClient accept) ⟨s, reg⟩ =
      (.ok (.ok cmd), ⟨t, reg⟩) := by
    rw [result_onClient, haccept]
    rfl
  unfold serveSocks
  rw [Task.bind_ok hresult]
  cases cmd with
  | connect request => rfl
  | udpAssociate request => rfl

lemma serveSocks_of_err {s t : TcpStream} {err : Error} (haccept : accept s = (.err err, t))
    (hopen : t.broken = none) (out : Outside) (reg : Registry) :
    (serveSocks out ⟨s, reg⟩).2.client.written = t.written ++ replyBytes err.replyCode := by
  rw [serveSocks_err haccept, reply_of_open hopen]
  rfl

lemma serveSocks_of_blocked {s t : TcpStream} (haccept : accept s = (.blocked, t))
    (out : Outside) (reg : Registry) : (serveSocks out ⟨s, reg⟩).2.client.written = t.written := by
  rw [serveSocks_blocked haccept]

lemma serveSocks_of_ok {s t : TcpStream} {cmd : Command} (haccept : accept s = (.ok cmd, t))
    (hopen : t.broken = none) (out : Outside) (reg : Registry) :
    ∃ w, (serveSocks out ⟨s, reg⟩).2.client.written = t.written ++ w ∧ AtMostOne w := by
  rw [serveSocks_ok haccept]
  cases cmd with
  | connect request =>
    exact connectAndSplice_writes out request.host request.port [] ⟨t, reg⟩ hopen
  | udpAssociate request => exact relayUdp_writes out ⟨t, reg⟩ hopen

lemma methods_unique {n n' : UInt8} {methods rest methods' rest' : List UInt8}
    (h : version :: n :: (methods ++ rest) = version :: n' :: (methods' ++ rest'))
    (hn : methods.length = n.toNat) (hn' : methods'.length = n'.toNat) : methods = methods' := by
  simp only [List.cons.injEq, true_and] at h
  obtain ⟨rfl, happ⟩ := h
  exact (List.append_inj happ (hn.trans hn'.symm)).1

lemma noneOffered_complete {bytes : List UInt8} (h : NoneOffered bytes) : MethodsComplete bytes := by
  obtain ⟨n, methods, rest, hb, hn, -⟩ := h
  exact ⟨n, methods, rest, hb, hn⟩

/-- A handshake that ends for want of bytes before any selection is answered with a reply,
unless it waits for ever. -/
lemma short_legal_iff {s : TcpStream} (hopen : s.broken = none)
    (haccept : accept s = (ioShort s.fate, (s.consume s.unread.length).put []))
    (hcut : ¬ MethodsComplete s.unread) (out : Outside) (reg : Registry) :
    ∃ w, (serveSocks out ⟨s, reg⟩).2.client.written = s.written ++ w ∧
      (Legal w ↔ NoneOffered s.unread ∨ (s.fate = .silent ∧ ¬ MethodsComplete s.unread)) := by
  rw [put_nil] at haccept
  have hnone : ¬ NoneOffered s.unread := fun h => hcut (noneOffered_complete h)
  have hreply : ∀ err, accept s = (.err err, s.consume s.unread.length) → s.fate ≠ .silent →
      ∃ w, (serveSocks out ⟨s, reg⟩).2.client.written = s.written ++ w ∧
        (Legal w ↔ NoneOffered s.unread ∨ (s.fate = .silent ∧ ¬ MethodsComplete s.unread)) := by
    intro err herr hfate
    refine ⟨replyBytes err.replyCode, serveSocks_of_err herr hopen out reg, ?_⟩
    refine iff_of_false (not_legal_reply (replyCode_ne_success err) (.inl rfl)) ?_
    rintro (h | h)
    · exact hnone h
    · exact hfate h.1
  cases hfate : s.fate with
  | eof =>
    rw [hfate] at haccept hreply
    exact hreply _ haccept nofun
  | reset e =>
    rw [hfate] at haccept hreply
    exact hreply _ haccept nofun
  | silent =>
    rw [hfate] at haccept
    refine ⟨[], ?_, iff_of_true .nothing (.inr ⟨rfl, hcut⟩)⟩
    rw [serveSocks_of_blocked haccept, List.append_nil]
    rfl

/-- **The transcript of a SOCKS client** is legal if the client's list of methods is complete
and offers no authentication, or if it is incomplete and nothing follows, not even the end of
the stream; otherwise it is not. -/
theorem serveSocks_legal_iff {s : TcpStream} {tail : List UInt8} (hopen : s.broken = none)
    (hfirst : s.unread = version :: tail) (out : Outside) (reg : Registry) :
    ∃ w, (serveSocks out ⟨s, reg⟩).2.client.written = s.written ++ w ∧
      (Legal w ↔ NoneOffered s.unread ∨ (s.fate = .silent ∧ ¬ MethodsComplete s.unread)) := by
  obtain ⟨result, k, w, hv⟩ := verdict_total s.fate s.unread
  have haccept := accept_of_verdict hopen hv
  cases hv with
  | noGreeting h =>
    refine short_legal_iff hopen haccept ?_ out reg
    rintro ⟨n, methods, rest, hb, -⟩
    rw [hb] at h
    simp only [List.length_cons] at h
    omega
  | badVersion h hv =>
    rw [hfirst] at h
    cases h
    exact absurd rfl hv
  | noMethods h hn =>
    refine short_legal_iff hopen haccept ?_ out reg
    rintro ⟨n', methods, rest', hb, hn'⟩
    rw [h] at hb
    simp only [List.cons.injEq, true_and] at hb
    obtain ⟨rfl, rfl⟩ := hb
    rw [List.length_append] at hn
    omega
  | @noAcceptable n methods rest h hn hm =>
    refine ⟨[version, methodUnacceptable] ++ replyBytes Error.noAcceptableMethod.replyCode, ?_, ?_⟩
    · rw [serveSocks_of_err haccept hopen]
      exact List.append_assoc _ _ _
    · refine iff_of_false (not_legal_reply (replyCode_ne_success _) (.inr rfl)) ?_
      rintro (⟨n', methods', rest', hb, hn', hm'⟩ | ⟨-, hcut⟩)
      · rw [h] at hb
        exact hm (methods_unique hb hn hn' ▸ hm')
      · exact hcut ⟨n, methods, rest, h, hn⟩
  | @request n methods rest result k h hn hm hr =>
    have hoffered : NoneOffered s.unread := ⟨n, methods, rest, h, hn, hm⟩
    -- whatever comes of the request, one reply at most follows the selection
    have hone : ∃ w, (serveSocks out ⟨s, reg⟩).2.client.written =
        s.written ++ [version, methodNone] ++ w ∧ AtMostOne w := by
      cases result with
      | ok cmd => exact serveSocks_of_ok haccept hopen out reg
      | err err =>
        exact ⟨_, serveSocks_of_err haccept hopen out reg, .inr (replyRecord_reply err.replyCode)⟩
      | blocked =>
        refine ⟨[], ?_, .inl rfl⟩
        rw [serveSocks_of_blocked haccept, List.append_nil]
        rfl
    obtain ⟨w, hw, hone⟩ := hone
    refine ⟨[version, methodNone] ++ w, ?_, iff_of_true (legal_selected hone) (.inl hoffered)⟩
    rw [hw, List.append_assoc]

/-- A client that offers authentication with a user name only, and closes. -/
def passwordOnly : TcpStream where
  unread := [version, 1, 2]
  segment _ := 1
  fate := .eof
  written := []
  broken := none

/-- An outside nothing is asked of. -/
def unreachable : Outside where
  nodelay := .ok ()
  connect _ _ := .blocked
  bindRelay := .blocked
  relayAddr := .ok ⟨localhost, 1080⟩

theorem serveSocks_legal_iff_passwordOnly :
    ∃ w, (serveSocks unreachable ⟨passwordOnly, Registry.new⟩).2.client.written = [] ++ w ∧
      (Legal w ↔ NoneOffered [version, 1, 2] ∨
        (passwordOnly.fate = .silent ∧ ¬ MethodsComplete [version, 1, 2])) :=
  serveSocks_legal_iff (s := passwordOnly) rfl rfl unreachable Registry.new

theorem passwordOnly_not_legal :
    (serveSocks unreachable ⟨passwordOnly, Registry.new⟩).2.client.written =
      [version, methodUnacceptable] ++ [version, 1, 0, 1, 0, 0, 0, 0, 0, 0] ∧
    ¬ Legal (serveSocks unreachable ⟨passwordOnly, Registry.new⟩).2.client.written := by
  have hw : (serveSocks unreachable ⟨passwordOnly, Registry.new⟩).2.client.written =
      [version, methodUnacceptable] ++ replyBytes repGeneralFailure := by
    decide +kernel
  rw [hw]
  exact ⟨rfl, not_legal_reply (by decide) (.inr rfl)⟩

end Wiretally.Transcript
