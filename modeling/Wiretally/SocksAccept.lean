import Wiretally.Socks

/-!
The grammar of the SOCKS5 handshake, and what `accept` makes of any byte string.

A verdict says of a byte string, and of how it ends, what the handshake comes to, how many of
the bytes it has consumed then, and what it has written: one case for each check that can be
the first to fail, and one for success. Every byte string has a verdict, and `accept` gives
it, however the bytes are cut into reads.
-/

namespace Wiretally.SocksAccept

open Wiretally.Lib.AsyncIo Wiretally.Lib.Tcp Wiretally.Lib.Tcp.TcpStream Wiretally.Net
open Wiretally.Socks

/-! ### The grammar -/

/-- The bytes of an address of the given type, and the host they name. -/
inductive Address : UInt8 → List UInt8 → Text → Prop
  | ipv4 (octets : List.Vector UInt8 4) : Address atypIpv4 octets.toList (IpAddr.v4 octets).toText
  | ipv6 (octets : List.Vector UInt8 16) : Address atypIpv6 octets.toList (IpAddr.v6 octets).toText
  | domain {len : UInt8} {domain : List UInt8} (h : domain.length = len.toNat) :
    Address atypDomain (len :: domain) (domainHost domain)

/-- The bytes end before an address of the given type is complete. -/
inductive AddressCut : UInt8 → List UInt8 → Prop
  | ipv4 {bytes} (h : bytes.length < 4) : AddressCut atypIpv4 bytes
  | ipv6 {bytes} (h : bytes.length < 16) : AddressCut atypIpv6 bytes
  | length : AddressCut atypDomain []
  | domain {len : UInt8} {bytes} (h : bytes.length < len.toNat) : AddressCut atypDomain (len :: bytes)

/-- What the command of a request asks for. -/
inductive Asks : UInt8 → Request → Command → Prop
  | connect (request : Request) : Asks cmdConnect request (.connect request)
  | udpAssociate (request : Request) : Asks cmdUdpAssociate request (.udpAssociate request)

/-- `VER CMD RSV ATYP ADDR PORT`. -/
inductive RequestBytes : List UInt8 → Command → Prop
  | mk {c rsv atyp addr host port cmd} (ha : Address atyp addr host)
    (hc : Asks c ⟨host, u16FromBeBytes port⟩ cmd) :
    RequestBytes (version :: c :: rsv :: atyp :: (addr ++ port.toList)) cmd

/-- `VER NMETHODS METHODS`, then the request. -/
inductive HandshakeBytes : List UInt8 → Command → Prop
  | mk {n methods request cmd} (hn : methods.length = UInt8.toNat n) (hm : methodNone ∈ methods)
    (hr : RequestBytes request cmd) : HandshakeBytes (version :: n :: (methods ++ request)) cmd

/-! ### Verdicts -/

/-- What a handshake that needs more bytes than there are ends with. -/
def ioShort {α : Type} : Fate → Outcome Error α
  | .eof => .err (.io ⟨.unexpectedEof, "early eof"⟩)
  | .reset e => .err (.io e)
  | .silent => .blocked

/-- What the bytes behind the method selection come to. -/
inductive RequestVerdict (fate : Fate) (bytes : List UInt8) : Outcome Error Command → ℕ → Prop
  | noHeader (h : bytes.length < 4) : RequestVerdict fate bytes (ioShort fate) bytes.length
  | badVersion {v c rsv atyp rest} (h : bytes = v :: c :: rsv :: atyp :: rest) (hv : v ≠ version) :
    RequestVerdict fate bytes (.err (.unsupportedVersion v)) 4
  | badAddressType {c rsv atyp rest} (h : bytes = version :: c :: rsv :: atyp :: rest)
    (ha : atyp ≠ atypIpv4 ∧ atyp ≠ atypIpv6 ∧ atyp ≠ atypDomain) :
    RequestVerdict fate bytes (.err (.unsupportedAddressType atyp)) 4
  | noAddress {c rsv atyp rest} (h : bytes = version :: c :: rsv :: atyp :: rest)
    (ha : AddressCut atyp rest) : RequestVerdict fate bytes (ioShort fate) bytes.length
  | noPort {c rsv atyp addr host rest}
    (h : bytes = version :: c :: rsv :: atyp :: (addr ++ rest)) (ha : Address atyp addr host)
    (hp : rest.length < 2) : RequestVerdict fate bytes (ioShort fate) bytes.length
  | badCommand {c rsv atyp addr host rest} {port : List.Vector UInt8 2}
    (h : bytes = version :: c :: rsv :: atyp :: (addr ++ (port.toList ++ rest)))
    (ha : Address atyp addr host) (hc : c ≠ cmdConnect ∧ c ≠ cmdUdpAssociate) :
    RequestVerdict fate bytes (.err (.unsupportedCommand c)) (4 + addr.length + 2)
  | accepted {request cmd rest} (h : bytes = request ++ rest) (hr : RequestBytes request cmd) :
    RequestVerdict fate bytes (.ok cmd) request.length

/-- What the bytes of a client come to, and what is written to it. -/
inductive Verdict (fate : Fate) (bytes : List UInt8) :
    Outcome Error Command → ℕ → List UInt8 → Prop
  | noGreeting (h : bytes.length < 2) : Verdict fate bytes (ioShort fate) bytes.length []
  | badVersion {v n rest} (h : bytes = v :: n :: rest) (hv : v ≠ version) :
    Verdict fate bytes (.err (.unsupportedVersion v)) 2 []
  | noMethods {n : UInt8} {rest} (h : bytes = version :: n :: rest) (hn : rest.length < n.toNat) :
    Verdict fate bytes (ioShort fate) bytes.length []
  | noAcceptable {n : UInt8} {methods rest} (h : bytes = version :: n :: (methods ++ rest))
    (hn : methods.length = n.toNat) (hm : methodNone ∉ methods) :
    Verdict fate bytes (.err .noAcceptableMethod) (2 + n.toNat) [version, methodUnacceptable]
  | request {n : UInt8} {methods rest out k} (h : bytes = version :: n :: (methods ++ rest))
    (hn : methods.length = n.toNat) (hm : methodNone ∈ methods)
    (hr : RequestVerdict fate rest out k) :
    Verdict fate bytes out (2 + n.toNat + k) [version, methodNone]

/-! ### Every byte string has a verdict -/

lemma exists_append {bytes : List UInt8} {n : ℕ} (h : n ≤ bytes.length) :
    ∃ xs rest, bytes = xs ++ rest ∧ xs.length = n :=
  ⟨bytes.take n, bytes.drop n, (List.take_append_drop n bytes).symm, List.length_take_of_le h⟩

lemma exists_vector {bytes : List UInt8} {n : ℕ} (h : n ≤ bytes.length) :
    ∃ (v : List.Vector UInt8 n) (rest : List UInt8), bytes = v.toList ++ rest :=
  ⟨⟨bytes.take n, List.length_take_of_le h⟩, bytes.drop n, (List.take_append_drop n bytes).symm⟩

lemma address_total (atyp : UInt8) (bytes : List UInt8) :
    (atyp ≠ atypIpv4 ∧ atyp ≠ atypIpv6 ∧ atyp ≠ atypDomain) ∨ AddressCut atyp bytes ∨
      ∃ addr host rest, bytes = addr ++ rest ∧ Address atyp addr host := by
  by_cases h4 : atyp = atypIpv4
  · subst h4
    rcases Nat.lt_or_ge bytes.length 4 with h | h
    · exact .inr (.inl (.ipv4 h))
    · obtain ⟨v, rest, hv⟩ := exists_vector h
      exact .inr (.inr ⟨_, _, rest, hv, .ipv4 v⟩)
  · by_cases h6 : atyp = atypIpv6
    · subst h6
      rcases Nat.lt_or_ge bytes.length 16 with h | h
      · exact .inr (.inl (.ipv6 h))
      · obtain ⟨v, rest, hv⟩ := exists_vector h
        exact .inr (.inr ⟨_, _, rest, hv, .ipv6 v⟩)
    · by_cases hd : atyp = atypDomain
      · subst hd
        cases bytes with
        | nil => exact .inr (.inl .length)
        | cons len bytes =>
          rcases Nat.lt_or_ge bytes.length len.toNat with h | h
          · exact .inr (.inl (.domain h))
          · obtain ⟨domain, rest, hb, hl⟩ := exists_append h
            exact .inr (.inr ⟨len :: domain, _, rest, by rw [hb]; rfl, .domain hl⟩)
      · exact .inl ⟨h4, h6, hd⟩

lemma requestVerdict_total (fate : Fate) (bytes : List UInt8) :
    ∃ out k, RequestVerdict fate bytes out k := by
  rcases Nat.lt_or_ge bytes.length 4 with h | h
  · exact ⟨_, _, .noHeader h⟩
  · obtain ⟨v, c, rsv, atyp, rest, rfl⟩ : ∃ v c rsv atyp rest, bytes = v :: c :: rsv :: atyp :: rest := by
      match bytes, h with
      | v :: c :: rsv :: atyp :: rest, _ => exact ⟨v, c, rsv, atyp, rest, rfl⟩
    by_cases hv : v = version
    · subst hv
      rcases address_total atyp rest with ha | ha | ⟨addr, host, rest', rfl, ha⟩
      · exact ⟨_, _, .badAddressType rfl ha⟩
      · exact ⟨_, _, .noAddress rfl ha⟩
      · rcases Nat.lt_or_ge rest'.length 2 with hp | hp
        · exact ⟨_, _, .noPort rfl ha hp⟩
        · obtain ⟨port, rest, rfl⟩ := exists_vector hp
          have hb : version :: c :: rsv :: atyp :: (addr ++ (port.toList ++ rest)) =
              version :: c :: rsv :: atyp :: (addr ++ port.toList) ++ rest := by simp
          by_cases h1 : c = cmdConnect
          · subst h1
            exact ⟨_, _, .accepted hb (.mk ha (.connect _))⟩
          · by_cases h3 : c = cmdUdpAssociate
            · subst h3
              exact ⟨_, _, .accepted hb (.mk ha (.udpAssociate _))⟩
            · exact ⟨_, _, .badCommand rfl ha ⟨h1, h3⟩⟩
    · exact ⟨_, _, .badVersion rfl hv⟩

/-- **Every byte string has a verdict.** -/
theorem verdict_total (fate : Fate) (bytes : List UInt8) : ∃ out k w, Verdict fate bytes out k w := by
  rcases Nat.lt_or_ge bytes.length 2 with h | h
  · exact ⟨_, _, _, .noGreeting h⟩
  · obtain ⟨v, n, rest, rfl⟩ : ∃ v n rest, bytes = v :: n :: rest := by
      match bytes, h with
      | v :: n :: rest, _ => exact ⟨v, n, rest, rfl⟩
    by_cases hv : v = version
    · subst hv
      rcases Nat.lt_or_ge rest.length n.toNat with hn | hn
      · exact ⟨_, _, _, .noMethods rfl hn⟩
      · obtain ⟨methods, rest', rfl, hl⟩ := exists_append hn
        by_cases hm : methodNone ∈ methods
        · obtain ⟨out, k, hr⟩ := requestVerdict_total fate rest'
          exact ⟨_, _, _, .request rfl hl hm hr⟩
        · exact ⟨_, _, _, .noAcceptable rfl hl hm⟩
    · exact ⟨_, _, _, .badVersion rfl hv⟩

/-! ### `accept` gives the verdict -/

section Accept

variable {s : TcpStream}

lemma readIo_append {n : ℕ} (xs rest : List UInt8) (h : s.unread = xs ++ rest)
    (hn : xs.length = n) :
    ((readExact n).mapErr Error.io) s = (.ok ⟨xs, hn⟩, s.consume n) := by
  have hle : n ≤ s.unread.length := by
    rw [h, List.length_append]
    omega
  have htake : s.unread.take n = xs := by rw [h, ← hn, List.take_left]
  unfold Task.mapErr
  rw [readExact_of_le hle]
  exact congrArg (·, _) (congrArg Outcome.ok (Subtype.ext htake))

lemma readIo_short {n : ℕ} (h : s.unread.length < n) :
    ((readExact n).mapErr Error.io) s = (ioShort s.fate, s.consume s.unread.length) := by
  unfold Task.mapErr
  rw [readExact_of_lt h]
  cases s.fate <;> rfl

lemma bind_short {α β : Type} {x : TcpTask Error α} {f : α → TcpTask Error β} {fate : Fate}
    {t : TcpStream} (h : x s = (ioShort fate, t)) : (x >>= f) s = (ioShort fate, t) := by
  cases fate with
  | eof => exact Task.bind_err h
  | reset e => exact Task.bind_err h
  | silent => exact Task.bind_blocked h

lemma writeIo_of_open (h : s.broken = none) (bs : List UInt8) :
    ((writeAll bs).mapErr Error.io) s = (.ok (), s.put bs) := by
  unfold Task.mapErr
  rw [writeAll_of_open h]

lemma unread_consume (xs rest : List UInt8) (h : s.unread = xs ++ rest) :
    (s.consume xs.length).unread = rest := by
  simp [consume, h]

lemma acceptHost_address {atyp : UInt8} {addr : List UInt8} {host : Text} {rest : List UInt8}
    (ha : Address atyp addr host) (h : s.unread = addr ++ rest) :
    acceptHost atyp s = (.ok host, s.consume addr.length) := by
  cases ha with
  | ipv4 octets =>
    have hread := readIo_append _ _ h octets.toList_length
    unfold acceptHost
    rw [if_pos rfl, Task.bind_ok hread, List.Vector.toList_length]
    rfl
  | ipv6 octets =>
    have hread := readIo_append _ _ h octets.toList_length
    unfold acceptHost
    rw [if_neg (by decide), if_pos rfl, Task.bind_ok hread, List.Vector.toList_length]
    rfl
  | @domain len domain hl =>
    have hlen := readIo_append (n := 1) [len] (domain ++ rest) h rfl
    have hunread : (s.consume 1).unread = domain ++ rest := unread_consume [len] (domain ++ rest) h
    have hdomain := readIo_append _ _ hunread hl
    unfold acceptHost
    rw [if_neg (by decide), if_neg (by decide), if_pos rfl]
    have hk : (s.consume 1).consume len.toNat = s.consume (len :: domain).length := by
      rw [consume_consume, List.length_cons, hl, Nat.add_comm]
    exact (Task.bind_ok hlen).trans ((Task.bind_ok hdomain).trans (congrArg (Prod.mk _) hk))

lemma acceptHost_cut {atyp : UInt8} (ha : AddressCut atyp s.unread) :
    acceptHost atyp s = (ioShort s.fate, s.consume s.unread.length) := by
  generalize hb : s.unread = bytes at ha
  cases ha with
  | ipv4 h =>
    rw [← hb] at h
    unfold acceptHost
    rw [if_pos rfl, bind_short (readIo_short h), hb]
  | ipv6 h =>
    rw [← hb] at h
    unfold acceptHost
    rw [if_neg (by decide), if_pos rfl, bind_short (readIo_short h), hb]
  | length =>
    have h : s.unread.length < 1 := by rw [hb]; exact Nat.zero_lt_one
    unfold acceptHost
    rw [if_neg (by decide), if_neg (by decide), if_pos rfl, bind_short (readIo_short h), hb]
  | @domain len bytes h =>
    have hlen := readIo_append (n := 1) [len] bytes hb rfl
    have hunread : (s.consume 1).unread = bytes := unread_consume [len] bytes hb
    have hshort : (s.consume 1).unread.length < len.toNat := by rwa [hunread]
    unfold acceptHost
    rw [if_neg (by decide), if_neg (by decide), if_pos rfl]
    refine (Task.bind_ok hlen).trans ((bind_short (readIo_short hshort)).trans ?_)
    rw [hunread, consume_consume, List.length_cons, Nat.add_comm 1]
    rfl

lemma acceptHost_bad {atyp : UInt8}
    (ha : atyp ≠ atypIpv4 ∧ atyp ≠ atypIpv6 ∧ atyp ≠ atypDomain) :
    acceptHost atyp s = (.err (.unsupportedAddressType atyp), s) := by
  unfold acceptHost
  rw [if_neg ha.1, if_neg ha.2.1, if_neg ha.2.2]
  rfl

lemma acceptRequest_header {v c rsv atyp : UInt8} {rest : List UInt8}
    (h : s.unread = v :: c :: rsv :: atyp :: rest) :
    acceptRequest s =
      if v ≠ version then (.err (.unsupportedVersion v), s.consume 4)
      else (do
        let host ← acceptHost atyp
        let port ← (readExact 2).mapErr Error.io
        let request : Request := ⟨host, u16FromBeBytes port⟩
        if c = cmdConnect then pure (Command.connect request)
        else if c = cmdUdpAssociate then pure (Command.udpAssociate request)
        else Task.fail (Error.unsupportedCommand c)) (s.consume 4) := by
  have hread := readIo_append (n := 4) [v, c, rsv, atyp] rest h rfl
  unfold acceptRequest
  rw [Task.bind_ok hread]
  by_cases hv : v = version
  · rw [if_neg (not_not.mpr hv)]
    exact congrFun (if_neg (not_not.mpr hv)) _
  · rw [if_pos hv]
    exact congrFun (if_pos hv) _

/-- **The request is read as its verdict says.** -/
theorem acceptRequest_of_verdict {out : Outcome Error Command} {k : ℕ}
    (h : RequestVerdict s.fate s.unread out k) : acceptRequest s = (out, s.consume k) := by
  -- behind a header of the right version, the request is its address, its port and its command
  have hbody : ∀ {c rsv atyp rest}, s.unread = version :: c :: rsv :: atyp :: rest →
      acceptRequest s = (do
        let host ← acceptHost atyp
        let port ← (readExact 2).mapErr Error.io
        let request : Request := ⟨host, u16FromBeBytes port⟩
        if c = cmdConnect then pure (Command.connect request)
        else if c = cmdUdpAssociate then pure (Command.udpAssociate request)
        else Task.fail (Error.unsupportedCommand c)) (s.consume 4) ∧
      (s.consume 4).unread = rest := by
    intro c rsv atyp rest hu
    refine ⟨(acceptRequest_header hu).trans (if_neg (not_not.mpr rfl)), ?_⟩
    exact unread_consume [version, c, rsv, atyp] rest hu
  -- and behind a whole address and port there is only the command to look at
  have hwhole : ∀ {c rsv atyp addr host rest} {port : List.Vector UInt8 2},
      s.unread = version :: c :: rsv :: atyp :: (addr ++ (port.toList ++ rest)) →
      Address atyp addr host → acceptRequest s =
        (if c = cmdConnect then pure (Command.connect ⟨host, u16FromBeBytes port⟩)
        else if c = cmdUdpAssociate then pure (Command.udpAssociate ⟨host, u16FromBeBytes port⟩)
        else Task.fail (Error.unsupportedCommand c)) (s.consume (4 + addr.length + 2)) := by
    intro c rsv atyp addr host rest port hu ha
    obtain ⟨heq, hrest⟩ := hbody hu
    have haddr := acceptHost_address ha hrest
    have hport : ((s.consume 4).consume addr.length).unread = port.toList ++ rest :=
      unread_consume _ _ hrest
    have hread := readIo_append _ _ hport port.toList_length
    refine heq.trans ((Task.bind_ok haddr).trans ((Task.bind_ok hread).trans ?_))
    rw [consume_consume, consume_consume, Nat.add_assoc]
    rfl
  cases h with
  | noHeader h =>
    unfold acceptRequest
    exact bind_short (readIo_short h)
  | badVersion h hv => exact (acceptRequest_header h).trans (if_pos hv)
  | badAddressType h ha =>
    obtain ⟨heq, -⟩ := hbody h
    exact heq.trans (Task.bind_err (acceptHost_bad ha))
  | @noAddress c rsv atyp rest h ha =>
    obtain ⟨heq, hrest⟩ := hbody h
    have hcut : AddressCut atyp (s.consume 4).unread := by rwa [hrest]
    refine heq.trans ((bind_short (acceptHost_cut hcut)).trans ?_)
    rw [consume_consume, hrest, h]
    congr 2
    simp only [List.length_cons]
    omega
  | @noPort c rsv atyp addr host rest h ha hp =>
    obtain ⟨heq, hrest⟩ := hbody h
    have haddr := acceptHost_address ha hrest
    have hport : ((s.consume 4).consume addr.length).unread = rest := unread_consume _ _ hrest
    have hshort : ((s.consume 4).consume addr.length).unread.length < 2 := by rwa [hport]
    refine heq.trans ((Task.bind_ok haddr).trans ((bind_short (readIo_short hshort)).trans ?_))
    rw [hport, consume_consume, consume_consume, h]
    congr 2
    simp only [List.length_cons, List.length_append]
    omega
  | @badCommand c rsv atyp addr host rest port h ha hc =>
    rw [hwhole h ha, if_neg hc.1, if_neg hc.2]
    rfl
  | @accepted request cmd rest h hr =>
    cases hr with
    | @mk c rsv atyp addr host port cmd ha hc =>
      have hsplit : s.unread = version :: c :: rsv :: atyp :: (addr ++ (port.toList ++ rest)) := by
        rw [h]
        simp
      have hlen : (version :: c :: rsv :: atyp :: (addr ++ port.toList)).length =
          4 + addr.length + 2 := by
        simp only [List.length_cons, List.length_append, List.Vector.toList_length]
        omega
      rw [hwhole hsplit ha, hlen]
      cases hc with
      | connect request => rfl
      | udpAssociate request => rfl

/-- **`accept` gives the verdict of the bytes it is sent.** -/
theorem accept_of_verdict (hopen : s.broken = none) {out : Outcome Error Command} {k : ℕ}
    {w : List UInt8} (h : Verdict s.fate s.unread out k w) :
    accept s = (out, (s.consume k).put w) := by
  -- behind a greeting of the right version come the methods
  have hgreet : ∀ {v n rest}, s.unread = v :: n :: rest →
      accept s = (if v ≠ version then (.err (.unsupportedVersion v), s.consume 2)
        else (do
          let methods ← (readExact n.toNat).mapErr Error.io
          if methodNone ∉ methods.toList then do
            (writeAll [version, methodUnacceptable]).mapErr Error.io
            Task.fail Error.noAcceptableMethod
          else do
            (writeAll [version, methodNone]).mapErr Error.io
            acceptRequest) (s.consume 2)) ∧
      (s.consume 2).unread = rest := by
    intro v n rest hu
    have hread := readIo_append (n := 2) [v, n] rest hu rfl
    refine ⟨?_, unread_consume [v, n] rest hu⟩
    unfold accept
    refine (Task.bind_ok hread).trans ?_
    by_cases hv : v = version
    · rw [if_neg (not_not.mpr hv)]
      exact congrFun (if_neg (not_not.mpr hv)) _
    · rw [if_pos hv]
      exact congrFun (if_pos hv) _
  cases h with
  | noGreeting h =>
    rw [put_nil]
    unfold accept
    exact bind_short (readIo_short h)
  | badVersion h hv =>
    rw [put_nil]
    exact (hgreet h).1.trans (if_pos hv)
  | @noMethods n rest h hn =>
    obtain ⟨heq, hrest⟩ := hgreet h
    have hshort : (s.consume 2).unread.length < n.toNat := by rwa [hrest]
    have hk : (s.consume 2).consume (s.consume 2).unread.length = s.consume s.unread.length := by
      rw [hrest, consume_consume, h, List.length_cons, List.length_cons]
      congr 1
      omega
    rw [put_nil]
    refine heq.trans ((if_neg (not_not.mpr rfl)).trans ((bind_short (readIo_short hshort)).trans ?_))
    exact congrArg (Prod.mk _) hk
  | @noAcceptable n methods rest h hn hm =>
    obtain ⟨heq, hrest⟩ := hgreet h
    have hread := readIo_append _ _ hrest hn
    have hwrite := writeIo_of_open (s := (s.consume 2).consume n.toNat) hopen
      [version, methodUnacceptable]
    refine heq.trans ((if_neg (not_not.mpr rfl)).trans ((Task.bind_ok hread).trans ?_))
    refine (congrFun (if_pos hm) _).trans ((Task.bind_ok hwrite).trans ?_)
    rw [consume_consume]
    rfl
  | @request n methods rest out k h hn hm hr =>
    obtain ⟨heq, hrest⟩ := hgreet h
    have hread := readIo_append _ _ hrest hn
    set t := (s.consume 2).consume n.toNat with ht
    have hwrite := writeIo_of_open (s := t) hopen [version, methodNone]
    have hunread : t.unread = rest := by
      rw [ht, ← hn]
      exact unread_consume _ _ hrest
    have hverdict : RequestVerdict (t.put [version, methodNone]).fate
        (t.put [version, methodNone]).unread out k := by
      change RequestVerdict s.fate t.unread out k
      rwa [hunread]
    have hk : (t.put [version, methodNone]).consume k =
        (s.consume (2 + n.toNat + k)).put [version, methodNone] := by
      rw [consume_put, ht, consume_consume, consume_consume, Nat.add_assoc]
    refine heq.trans ((if_neg (not_not.mpr rfl)).trans ((Task.bind_ok hread).trans ?_))
    refine (congrFun (if_neg (not_not.mpr hm)) _).trans ((Task.bind_ok hwrite).trans ?_)
    rw [acceptRequest_of_verdict hverdict, hk]

end Accept

/-! ### Which byte strings are accepted -/

lemma ioShort_ne_ok {α : Type} (fate : Fate) (a : α) : ioShort fate ≠ .ok a := by
  cases fate <;> simp [ioShort]

lemma requestVerdict_ok {fate : Fate} {bytes : List UInt8} {cmd : Command} {k : ℕ}
    (h : RequestVerdict fate bytes (.ok cmd) k) :
    ∃ request rest, bytes = request ++ rest ∧ RequestBytes request cmd := by
  generalize ho : Outcome.ok cmd = out at h
  cases h with
  | noHeader => exact absurd ho.symm (ioShort_ne_ok fate cmd)
  | badVersion => cases ho
  | badAddressType => cases ho
  | noAddress => exact absurd ho.symm (ioShort_ne_ok fate cmd)
  | noPort => exact absurd ho.symm (ioShort_ne_ok fate cmd)
  | badCommand => cases ho
  | accepted hb hr =>
    cases ho
    exact ⟨_, _, hb, hr⟩

lemma verdict_ok {fate : Fate} {bytes : List UInt8} {cmd : Command} {k : ℕ} {w : List UInt8}
    (h : Verdict fate bytes (.ok cmd) k w) : ∃ r, r <+: bytes ∧ HandshakeBytes r cmd := by
  generalize ho : Outcome.ok cmd = out at h
  cases h with
  | noGreeting => exact absurd ho.symm (ioShort_ne_ok fate cmd)
  | badVersion => cases ho
  | noMethods => exact absurd ho.symm (ioShort_ne_ok fate cmd)
  | noAcceptable => cases ho
  | @request n methods _ _ _ hb hn hm hr =>
    rw [← ho] at hr
    obtain ⟨request, rest, rfl, hreq⟩ := requestVerdict_ok hr
    exact ⟨_, ⟨rest, by rw [hb]; simp⟩, .mk hn hm hreq⟩

lemma verdict_of_handshake {r : List UInt8} {cmd : Command} (fate : Fate) (rest : List UInt8)
    (h : HandshakeBytes r cmd) :
    Verdict fate (r ++ rest) (.ok cmd) r.length [version, methodNone] := by
  cases h with
  | @mk n methods request cmd hn hm hr =>
    have hb : version :: n :: (methods ++ request) ++ rest =
        version :: n :: (methods ++ (request ++ rest)) := by simp
    have hok : RequestVerdict fate (request ++ rest) (.ok cmd) request.length := .accepted rfl hr
    have hv := Verdict.request hb hn hm hok
    have hk : 2 + n.toNat + request.length = (version :: n :: (methods ++ request)).length := by
      simp only [List.length_cons, List.length_append]
      omega
    rwa [hk] at hv

/-- **The handshake.** Over a byte string that ends, however it is cut into reads, `accept`
succeeds exactly if the string begins with a handshake; it has consumed the handshake then
and nothing else, and written the selection of no authentication. In every case it gives the
verdict of the string. -/
theorem accept_spec {s : TcpStream} (heof : s.fate = .eof) (hopen : s.broken = none) :
    (∀ cmd, (accept s).1 = .ok cmd ↔ ∃ r, r <+: s.unread ∧ HandshakeBytes r cmd) ∧
    (∀ r cmd, r <+: s.unread → HandshakeBytes r cmd →
      accept s = (.ok cmd, { s with
        unread := s.unread.drop r.length
        written := s.written ++ [version, methodNone] })) ∧
    ∃ out k w, Verdict .eof s.unread out k w ∧ accept s = (out, { s with
      unread := s.unread.drop k
      written := s.written ++ w }) := by
  have hsuccess : ∀ r cmd, r <+: s.unread → HandshakeBytes r cmd →
      accept s = (.ok cmd, (s.consume r.length).put [version, methodNone]) := by
    rintro r cmd ⟨rest, hrest⟩ h
    have hv := verdict_of_handshake s.fate rest h
    rw [hrest] at hv
    exact accept_of_verdict hopen hv
  obtain ⟨out, k, w, hv⟩ := verdict_total s.fate s.unread
  refine ⟨fun cmd => ⟨fun h => ?_, ?_⟩, hsuccess, out, k, w, heof ▸ hv, accept_of_verdict hopen hv⟩
  · rw [accept_of_verdict hopen hv] at h
    have ho : out = .ok cmd := h
    rw [ho] at hv
    exact verdict_ok hv
  · rintro ⟨r, hr, h⟩
    rw [hsuccess r cmd hr h]

/-- A client that asks for a tunnel and sends its first byte behind the request. -/
def pipelined : TcpStream where
  unread := [5, 2, 1, 0, 5, 1, 0, 3, 2, 0x48, 0x2E, 0, 80, 0x16]
  segment _ := 1
  fate := .eof
  written := []
  broken := none

theorem accept_spec_pipelined :
    accept pipelined = (.ok (.connect ⟨"h".toList, 80⟩), { pipelined with
      unread := [0x16]
      written := [version, methodNone] }) := by
  have hr : RequestBytes [5, 1, 0, 3, 2, 0x48, 0x2E, 0, 80] (.connect ⟨"h".toList, 80⟩) := by
    have hhost : domainHost [0x48, 0x2E] = "h".toList := by decide +kernel
    have ha : Address atypDomain [2, 0x48, 0x2E] "h".toList := by
      rw [← hhost]
      exact .domain (by decide)
    have hmk : RequestBytes (5 :: 1 :: 0 :: 3 :: ([2, 0x48, 0x2E] ++
        List.Vector.toList ⟨[0, 80], rfl⟩)) _ := .mk ha (.connect _)
    exact hmk
  have h : HandshakeBytes (5 :: 2 :: ([1, 0] ++ [5, 1, 0, 3, 2, 0x48, 0x2E, 0, 80])) _ :=
    .mk (by decide) (by decide) hr
  exact (accept_spec (s := pipelined) rfl rfl).2.1 _ _ ⟨[0x16], rfl⟩ h

end Wiretally.SocksAccept
