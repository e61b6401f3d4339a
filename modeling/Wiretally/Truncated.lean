import Wiretally.Transcript

/-!
A client that closes before its request head has ended.

Reading a head gives back what there is of it when the stream ends, as if it were all. What is
made of it is decided by its first line alone, so a request for a tunnel is acted on as soon as
that line is complete; cut anywhere before, it is not. A client that speaks SOCKS sends no head,
and is acted on if its handshake is complete.
-/

namespace Wiretally.Truncated

open Wiretally.Lib.AsyncIo Wiretally.Lib.Tcp Wiretally.Lib.Tcp.TcpStream Wiretally.Net
open Wiretally.Stats Wiretally.Io Wiretally.Io.Rewind Wiretally.Head Wiretally.Socks
open Wiretally.SocksAccept Wiretally.Proxy Wiretally.Transcript

/-- Among the bytes is the status of a tunnel that is open, or a SOCKS reply of success. -/
def SaysSuccess (w : List UInt8) : Prop :=
  ascii "HTTP/1.1 200 Connection Established\r\n\r\n" <:+: w ∨ [version, repSuccess, 0x00] <:+: w

instance (w : List UInt8) : Decidable (SaysSuccess w) :=
  inferInstanceAs (Decidable (_ ∨ _))

/-- Handling the connection changes nothing: no row is added, no success is written, what an
upstream connection would come to makes no difference, and the HTTP server is given no complete
head. -/
structure Untouched (out : Outside) (conn : Conn) : Prop where
  rows : (handleConnection out conn).2.registry = conn.registry
  quiet : ∃ w, (handleConnection out conn).2.client.written = conn.client.written ++ w ∧
    ¬ SaysSuccess w
  alone : ∀ connect, handleConnection { out with connect := connect } conn =
    handleConnection out conn
  headless : ∀ stream, (handleConnection out conn).1 = .ok (.http stream) →
    ∃ bytes, Presents stream bytes ∧ findHeadEnd bytes = none

/-- The line of a request for a tunnel is complete, or a SOCKS handshake is. -/
inductive ActsOn (s : TcpStream) : Prop
  | tunnel {method target} (hhttp : s.unread.head? ≠ some greetingByte)
    (hlen : s.unread.length ≤ maxHeadBytes) (hline : requestLine s.unread = some (method, target))
    (hconnect : Text.eqIgnoreAsciiCase method "CONNECT".toList = true) : ActsOn s
  | handshake {r cmd} (hopen : s.broken = none) (hr : r <+: s.unread) (h : HandshakeBytes r cmd) :
    ActsOn s

/-! ### What does not depend on the outside -/

lemma untouched_of_same {s t : TcpStream} {reg : Registry} {result : Outcome Failure Served}
    {w : List UInt8} (h : ∀ out, dispatch out ⟨s, reg⟩ = (result, ⟨t, reg⟩))
    (hw : t.written = s.written ++ w) (hnot : ¬ SaysSuccess w)
    (hhttp : ∀ stream, result = .ok (.http stream) →
      ∃ bytes, Presents stream bytes ∧ findHeadEnd bytes = none) (out : Outside) :
    Untouched out ⟨s, reg⟩ := by
  cases hn : out.nodelay with
  | error e =>
    have hsame := handleConnection_of_error hn ⟨s, reg⟩
    refine ⟨by rw [hsame], ⟨[], ?_, by decide +kernel⟩, fun connect => ?_, fun stream hs => ?_⟩
    · rw [hsame, List.append_nil]
    · rw [hsame]
      exact @handleConnection_of_error { out with connect := connect } e hn ⟨s, reg⟩
    · rw [hsame] at hs
      cases hs
  | ok u =>
    have hsame := (handleConnection_of_ok hn ⟨s, reg⟩).trans (h out)
    refine ⟨by rw [hsame], ⟨w, ?_, hnot⟩, fun connect => ?_, fun stream hs => ?_⟩
    · rw [hsame, hw]
    · rw [hsame]
      exact (@handleConnection_of_ok { out with connect := connect } hn ⟨s, reg⟩).trans (h _)
    · rw [hsame] at hs
      exact hhttp stream hs

/-! ### Clients that speak SOCKS -/

lemma verdict_written {fate : Fate} {bytes : List UInt8} {result : Outcome Error Command} {k : ℕ}
    {w : List UInt8} (h : Verdict fate bytes result k w) :
    w = [] ∨ w = [version, methodUnacceptable] ∨ w = [version, methodNone] := by
  cases h with
  | noGreeting => exact .inl rfl
  | badVersion => exact .inl rfl
  | noMethods => exact .inl rfl
  | noAcceptable => exact .inr (.inl rfl)
  | request => exact .inr (.inr rfl)

lemma replyCode_cases (err : Error) : err.replyCode = repGeneralFailure ∨
    err.replyCode = repCommandNotSupported ∨ err.replyCode = repAddressNotSupported := by
  cases err with
  | unsupportedCommand => exact .inr (.inl rfl)
  | unsupportedAddressType => exact .inr (.inr rfl)
  | _ => exact .inl rfl

lemma not_saysSuccess_err {fate : Fate} {bytes : List UInt8} {result : Outcome Error Command}
    {k : ℕ} {w : List UInt8} (h : Verdict fate bytes result k w) (err : Error) :
    ¬ SaysSuccess (w ++ replyBytes err.replyCode) := by
  have hcode := replyCode_cases err
  generalize err.replyCode = code at hcode
  obtain rfl | rfl | rfl := verdict_written h
  all_goals
    obtain rfl | rfl | rfl := hcode
    all_goals decide +kernel

lemma not_saysSuccess_written {fate : Fate} {bytes : List UInt8} {result : Outcome Error Command}
    {k : ℕ} {w : List UInt8} (h : Verdict fate bytes result k w) : ¬ SaysSuccess w := by
  obtain rfl | rfl | rfl := verdict_written h
  all_goals decide +kernel

lemma mute_acceptHost (atyp : UInt8) : Mute (acceptHost atyp) := by
  unfold acceptHost
  split_ifs
  · exact ((mute_readExact 4).mapErr _).bind fun _ => mute_pure _
  · exact ((mute_readExact 16).mapErr _).bind fun _ => mute_pure _
  · exact ((mute_readExact 1).mapErr _).bind fun _ =>
      ((mute_readExact _).mapErr _).bind fun _ => mute_pure _
  · exact mute_fail _

lemma mute_acceptRequest : Mute acceptRequest := by
  unfold acceptRequest
  refine ((mute_readExact 4).mapErr _).bind fun header => ?_
  split_ifs
  · exact mute_fail _
  · refine (mute_acceptHost _).bind fun host => ((mute_readExact 2).mapErr _).bind fun port => ?_
    split_ifs
    · exact mute_pure _
    · exact mute_pure _
    · exact mute_fail _

lemma mute_accept : Mute accept := by
  unfold accept
  refine ((mute_readExact 2).mapErr _).bind fun greeting => ?_
  split_ifs
  · exact mute_fail _
  · refine ((mute_readExact _).mapErr _).bind fun methods => ?_
    split_ifs
    · exact ((mute_writeAll _).mapErr _).bind fun _ => mute_acceptRequest
    · exact ((mute_writeAll _).mapErr _).bind fun _ => mute_fail _

/-- Without its method selection no handshake succeeds. -/
lemma fails_accept : Fails accept := by
  unfold accept
  refine Fails.bind ((mute_readExact 2).mapErr _) fun greeting => ?_
  split_ifs
  · exact fails_fail _
  · refine Fails.bind ((mute_readExact _).mapErr _) fun methods => ?_
    split_ifs
    · exact ((fails_writeAll _).mapErr _).bind_left _
    · exact ((fails_writeAll _).mapErr _).bind_left _

/-- A client that can be written to and whose handshake is not complete is refused at most. -/
lemma untouched_of_openSocks {s : TcpStream} {tail : List UInt8}
    (hfirst : s.unread = greetingByte :: tail) (hopen : s.broken = none)
    (hcut : ∀ r cmd, r <+: s.unread → ¬ HandshakeBytes r cmd) (out : Outside) (reg : Registry) :
    Untouched out ⟨s, reg⟩ := by
  have hdispatch := fun out => dispatch_of_greeting hfirst out reg
  obtain ⟨result, k, w, hv⟩ := verdict_total s.fate s.unread
  have haccept := accept_of_verdict hopen hv
  cases result with
  | ok cmd =>
    obtain ⟨r, hr, hh⟩ := verdict_ok hv
    exact absurd hh (hcut r cmd hr)
  | err err =>
    refine untouched_of_same (w := w ++ replyBytes err.replyCode)
      (fun out => (hdispatch out).trans (serveSocks_err haccept out reg)) ?_
      (not_saysSuccess_err hv err) (fun stream hs => by cases hs) out
    have hreply := reply_of_open (s := (s.consume k).put w) hopen err.replyCode
    exact (congrArg (·.2.written) hreply).trans (List.append_assoc _ _ _)
  | blocked =>
    exact untouched_of_same (w := w)
      (fun out => (hdispatch out).trans (serveSocks_blocked haccept out reg)) rfl
      (not_saysSuccess_written hv) (fun stream hs => by cases hs) out

/-- A client that cannot be written to completes no handshake. -/
lemma untouched_of_brokenSocks {s : TcpStream} {tail : List UInt8}
    (hfirst : s.unread = greetingByte :: tail) (hbroken : s.broken ≠ none) (out : Outside)
    (reg : Registry) : Untouched out ⟨s, reg⟩ := by
  have hdispatch := fun out => dispatch_of_greeting hfirst out reg
  have hquiet : ¬ SaysSuccess [] := by decide +kernel
  have hmute := mute_accept s hbroken
  rcases haccept : accept s with ⟨cmd | err | _, t⟩
  · exact absurd (by rw [haccept]) (fails_accept s hbroken cmd)
  · rw [haccept] at hmute
    obtain ⟨e, he⟩ := writeAll_of_broken (s := t) (by rw [hmute.2]; exact hbroken)
      (replyBytes err.replyCode)
    have hreply : reply err.replyCode t = (.err e, t) := he
    refine untouched_of_same (w := [])
      (fun out => (hdispatch out).trans (serveSocks_err haccept out reg)) ?_
      hquiet (fun stream hs => by cases hs) out
    rw [hreply, List.append_nil]
    exact hmute.1
  · rw [haccept] at hmute
    refine untouched_of_same (w := [])
      (fun out => (hdispatch out).trans (serveSocks_blocked haccept out reg)) ?_
      hquiet (fun stream hs => by cases hs) out
    rw [List.append_nil]
    exact hmute.1

/-! ### Clients that send a head -/

section Head

variable {s : TcpStream} {first : UInt8} {tail : List UInt8}

lemma dispatch_of_empty (heof : s.fate = .eof) (hnil : s.unread = []) (out : Outside)
    (reg : Registry) : dispatch out ⟨s, reg⟩ = (.ok .closed, ⟨s, reg⟩) := by
  have hread : peek 1 s = (.ok [], s) := by
    unfold peek
    rw [read_of_nil hnil, heof]
  have hpeek : ((onClient (peek 1)).mapErr Failure.io) ⟨s, reg⟩ = (.ok [], ⟨s, reg⟩) := by
    refine mapErr_ok ?_
    rw [onClient_apply, hread]
  unfold dispatch
  exact Task.bind_ok hpeek

lemma dispatch_of_refused {t : TcpStream} {e : IoError} (hfirst : s.unread = first :: tail)
    (hsocks : first ≠ greetingByte) (hread : readHead s = (.err e, t)) (out : Outside)
    (reg : Registry) : dispatch out ⟨s, reg⟩ = (.err (.io e), ⟨t, reg⟩) := by
  have hhead : ((onClient readHead).mapErr Failure.io) ⟨s, reg⟩ = (.err (.io e), ⟨t, reg⟩) := by
    unfold Task.mapErr
    rw [onClient_apply, hread]
  rw [dispatch_of_first hfirst, if_neg hsocks]
  exact Task.bind_err hhead

/-- A head that is cut short is served as it is, if it is no longer than a whole one may be. -/
lemma dispatch_of_cut (heof : s.fate = .eof) (hn : findHeadEnd s.unread = none)
    (hlen : s.unread.length ≤ maxHeadBytes) (hfirst : s.unread = first :: tail)
    (hsocks : first ≠ greetingByte) (out : Outside) (reg : Registry) :
    dispatch out ⟨s, reg⟩ = serveHead out s.unread ⟨{ s with unread := [] }, reg⟩ := by
  have hread : readHead s = (.ok s.unread, { s with unread := [] }) := by
    have hne : s.unread ≠ [] := by
      rw [hfirst]
      exact List.cons_ne_nil _ _
    obtain ⟨r, hv, hstream⟩ := readHead_verdict s
    generalize hout : (readHead s).1 = result at hv
    cases hv with
    | complete hb he =>
      rw [hb] at hn
      rw [findHeadEnd_eq_none_of_append hn] at he
      cases he
    | tooLarge hb _ hlt =>
      rw [hb, List.length_append] at hlen
      omega
    | cutShort => exact Prod.ext (hout.trans (if_neg hne)) hstream
    | reset _ _ hf => rw [hf] at heof; cases heof
    | silent _ _ hf => rw [hf] at heof; cases heof
  exact dispatch_of_head hfirst hsocks hread out reg

lemma readHead_of_long (hn : findHeadEnd s.unread = none) (hlen : maxHeadBytes < s.unread.length) :
    ∃ e rest, readHead s = (.err e, { s with unread := rest }) := by
  obtain ⟨r, hv, hstream⟩ := readHead_verdict s
  generalize hout : (readHead s).1 = result at hv
  cases hv with
  | complete hb he =>
    rw [hb] at hn
    rw [findHeadEnd_eq_none_of_append hn] at he
    cases he
  | tooLarge => exact ⟨_, _, Prod.ext hout hstream⟩
  | cutShort _ hle => omega
  | reset _ hle => omega
  | silent _ hle => omega

lemma untouched_of_head (heof : s.fate = .eof) (hn : findHeadEnd s.unread = none)
    (hfirst : s.unread = first :: tail) (hsocks : first ≠ greetingByte)
    (hline : s.unread.length ≤ maxHeadBytes → ∀ method target,
      requestLine s.unread = some (method, target) →
        ¬ Text.eqIgnoreAsciiCase method "CONNECT".toList = true)
    (out : Outside) (reg : Registry) : Untouched out ⟨s, reg⟩ := by
  have hquiet : ¬ SaysSuccess [] := by decide +kernel
  rcases Nat.lt_or_ge maxHeadBytes s.unread.length with hlong | hlen
  · obtain ⟨e, rest, hread⟩ := readHead_of_long hn hlong
    exact untouched_of_same (fun out => dispatch_of_refused hfirst hsocks hread out reg)
      (List.append_nil _).symm hquiet (fun stream hs => by cases hs) out
  · have hdispatch := fun out => dispatch_of_cut heof hn hlen hfirst hsocks out reg
    cases hrequest : requestLine s.unread with
    | none =>
      exact untouched_of_same
        (fun out => (hdispatch out).trans (serveHead_of_malformed hrequest out _))
        (List.append_nil _).symm hquiet (fun stream hs => by cases hs) out
    | some request =>
      obtain ⟨method, target⟩ := request
      have hother := hline hlen method target hrequest
      refine untouched_of_same
        (fun out => (hdispatch out).trans (serveHead_of_other hrequest hother out _))
        (List.append_nil _).symm hquiet (fun stream hs => ?_) out
      cases hs
      refine ⟨s.unread ++ [], presents_new s.unread (presents { s with unread := [] }), ?_⟩
      rw [List.append_nil]
      exact hn

end Head

/-! ### Clients that are acted on -/

/-- An outside that would set everything up but an upstream connection. -/
def ready (connect : Text → UInt16 → Outcome IoError Upstream) : Outside where
  nodelay := .ok ()
  connect := connect
  bindRelay := .ok ()
  relayAddr := .ok ⟨localhost, 1080⟩

lemma connectAndSplice_blocked (host : Text) (port : UInt16) (leftover : List UInt8)
    (handshake : Handshake) (conn : Conn) :
    (connectAndSplice (ready fun _ _ => .blocked) host port leftover handshake conn).1 =
      .blocked :=
  congrArg Prod.fst (connectAndSplice_of_blocked rfl leftover handshake conn)

lemma connectAndSplice_delayed (e : IoError) (host : Text) (port : UInt16) (leftover : List UInt8)
    (handshake : Handshake) (conn : Conn) :
    (connectAndSplice (ready fun _ _ => .ok ⟨.error e, .error e⟩) host port leftover handshake
      conn).1 = .err (.io e) :=
  congrArg Prod.fst (connectAndSplice_of_delayed rfl rfl leftover handshake conn)

lemma not_untouched_of_tunnel {conn conn' : Conn} {host : Text} {port : UInt16}
    {leftover : List UInt8} {handshake : Handshake}
    (h : ∀ out, dispatch out conn = connectAndSplice out host port leftover handshake conn') :
    ¬ Untouched (ready fun _ _ => .blocked) conn := by
  intro hun
  have hout := hun.alone fun _ _ => .ok ⟨.error ⟨.other, ""⟩, .error ⟨.other, ""⟩⟩
  rw [handleConnection_of_ok rfl, handleConnection_of_ok rfl, h, h] at hout
  have hfirst := congrArg Prod.fst hout
  rw [connectAndSplice_blocked] at hfirst
  cases (connectAndSplice_delayed ⟨.other, ""⟩ host port leftover handshake conn').symm.trans hfirst

lemma relayUdp_written {conn : Conn} (hopen : conn.client.broken = none)
    (connect : Text → UInt16 → Outcome IoError Upstream) :
    ∃ port, (relayUdp (ready connect) conn).2.client.written =
      conn.client.written ++ ([version, repSuccess, 0x00] ++ port) := by
  have hsend := onClient_apply (replyBound repSuccess ⟨localhost, 1080⟩) conn
  have hreply : replyBound repSuccess ⟨localhost, 1080⟩ conn.client = (.ok (), conn.client.put
      ([version, repSuccess, 0x00] ++ ([atypIpv4, 127, 0, 0, 1] ++ u16ToBeBytes 1080))) :=
    writeAll_of_open hopen _
  rw [hreply] at hsend
  have heq : relayUdp (ready connect) conn = (do
      (onClient (replyBound repSuccess ⟨localhost, 1080⟩)).mapErr Failure.io
      pure (Served.relay ⟨localhost, 1080⟩)) conn := rfl
  refine ⟨[atypIpv4, 127, 0, 0, 1] ++ u16ToBeBytes 1080, ?_⟩
  rw [heq, Task.bind_ok (mapErr_ok hsend)]
  rfl

/-- **A head that is cut short.** A client that closes before its request head has ended is left
alone, whatever is outside, exactly if the line of a request for a tunnel is not complete and no
SOCKS handshake is. -/
theorem untouched_iff {s : TcpStream} (heof : s.fate = .eof) (hn : findHeadEnd s.unread = none) :
    (∀ out reg, Untouched out ⟨s, reg⟩) ↔ ¬ ActsOn s := by
  constructor
  · intro hun hacts
    cases hacts with
    | @tunnel method target hhttp hlen hline hconnect =>
      cases hfirst : s.unread with
      | nil =>
        rw [hfirst] at hline
        cases hline
      | cons first tail =>
        have hsocks : first ≠ greetingByte := by
          rintro rfl
          rw [hfirst] at hhttp
          exact hhttp rfl
        exact not_untouched_of_tunnel (fun out => (dispatch_of_cut heof hn hlen hfirst hsocks out
          Registry.new).trans (serveHead_of_connect hline hconnect out _)) (hun _ Registry.new)
    | @handshake r cmd hopen hr h =>
      have haccept := (accept_spec heof hopen).2.1 r cmd hr h
      obtain ⟨tail, hfirst⟩ : ∃ tail, s.unread = greetingByte :: tail := by
        obtain ⟨rest, hrest⟩ := hr
        cases h with
        | mk => exact ⟨_, hrest.symm⟩
      have hserve := fun out => (dispatch_of_greeting hfirst out Registry.new).trans
        (serveSocks_ok haccept out Registry.new)
      cases cmd with
      | connect request => exact not_untouched_of_tunnel hserve (hun _ Registry.new)
      | udpAssociate request =>
        obtain ⟨w, hw, hnot⟩ := (hun (ready fun _ _ => .blocked) Registry.new).quiet
        rw [handleConnection_of_ok rfl, hserve] at hw
        obtain ⟨port, hport⟩ := @relayUdp_written ⟨{ s with
          unread := s.unread.drop r.length
          written := s.written ++ [version, methodNone] }, Registry.new⟩ hopen fun _ _ => .blocked
        have hsame := hport.symm.trans hw
        simp only [List.append_assoc, List.append_cancel_left_eq] at hsame
        exact hnot (.inr ⟨[version, methodNone], port, by rw [← hsame, List.append_assoc]⟩)
  · intro hacts out reg
    cases hfirst : s.unread with
    | nil =>
      exact untouched_of_same (fun out => dispatch_of_empty heof hfirst out reg)
        (List.append_nil _).symm (by decide +kernel) (fun stream hs => by cases hs) out
    | cons first tail =>
      by_cases hsocks : first = greetingByte
      · subst hsocks
        by_cases hopen : s.broken = none
        · exact untouched_of_openSocks hfirst hopen
            (fun r cmd hr h => hacts (.handshake hopen hr h)) out reg
        · exact untouched_of_brokenSocks hfirst hopen out reg
      · refine untouched_of_head heof hn hfirst hsocks (fun hlen method target hline hconnect =>
          hacts (.tunnel ?_ hlen hline hconnect)) out reg
        rw [hfirst]
        exact fun h => hsocks (Option.some_inj.mp h)

/-- A client that asks for a tunnel and closes behind the first line. -/
def cutConnect : TcpStream where
  unread := ascii "CONNECT a:443 HTTP/1.1\r\n"
  segment _ := 1
  fate := .eof
  written := []
  broken := none

theorem untouched_iff_cutConnect :
    (∀ out reg, Untouched out ⟨cutConnect, reg⟩) ↔ ¬ ActsOn cutConnect :=
  untouched_iff rfl (by decide +kernel)

/-- It is told that the tunnel is open. -/
theorem cutConnect_acted :
    findHeadEnd cutConnect.unread = none ∧
    (handleConnection (ready fun _ _ => .ok ⟨.ok (), .ok localhost⟩)
      ⟨cutConnect, Registry.new⟩).2.client.written =
        ascii "HTTP/1.1 200 Connection Established\r\n\r\n" ∧
    ¬ Untouched (ready fun _ _ => .ok ⟨.ok (), .ok localhost⟩) ⟨cutConnect, Registry.new⟩ := by
  have hwritten : (handleConnection (ready fun _ _ => .ok ⟨.ok (), .ok localhost⟩)
      ⟨cutConnect, Registry.new⟩).2.client.written =
        ascii "HTTP/1.1 200 Connection Established\r\n\r\n" := by
    decide +kernel
  refine ⟨by decide +kernel, hwritten, fun hun => ?_⟩
  obtain ⟨w, hw, hnot⟩ := hun.quiet
  rw [hwritten] at hw
  exact hnot (.inl ⟨[], [], by rw [hw]; exact List.append_nil _⟩)

end Wiretally.Truncated
