import Wiretally.SocksAccept

/-!
The grammar of a relayed datagram, what `parse_datagram` makes of any byte string, and what it
has in common with the handshake and with the two encoders.

The address of a datagram has the layout of the address of a request, so one grammar of
addresses serves the streaming decoder, the slice decoder, the encoder of a datagram and the
encoder of a reply.
-/

namespace Wiretally.SocksDatagram

open Wiretally.Lib.AsyncIo Wiretally.Lib.Tcp Wiretally.Lib.Tcp.TcpStream Wiretally.Net
open Wiretally.Socks Wiretally.SocksAccept

/-! ### The grammar -/

/-- `RSV(2) 00 ATYP ADDR PORT DATA`: the length of its header, and the datagram it carries. -/
inductive DatagramBytes : List UInt8 → ℕ → Datagram → Prop
  | mk {r₁ r₂ atyp addr host data} {port : List.Vector UInt8 2} (ha : Address atyp addr host) :
    DatagramBytes (r₁ :: r₂ :: 0 :: atyp :: (addr ++ (port.toList ++ data)))
      (udpHeaderPrefix + addr.length + 2) ⟨host, u16FromBeBytes port, data⟩

/-- Why a byte string that is no datagram is rejected. -/
def rejection (buf : List UInt8) : DatagramError :=
  if buf.length < udpHeaderPrefix then .truncated
  else if buf.getD 2 0 ≠ 0 then .fragmented (buf.getD 2 0)
  else if buf.getD 3 0 ≠ atypIpv4 ∧ buf.getD 3 0 ≠ atypIpv6 ∧ buf.getD 3 0 ≠ atypDomain then
    .unsupportedAddressType (buf.getD 3 0)
  else .truncated

lemma DatagramBytes.split {buf : List UInt8} {k : ℕ} {d : Datagram} (h : DatagramBytes buf k d) :
    k ≤ buf.length ∧ d.payload = buf.drop k := by
  cases h with
  | @mk r₁ r₂ atyp addr host data port ha =>
    have hp := port.toList_length
    have hk : udpHeaderPrefix + addr.length + 2 =
        ([r₁, r₂, 0, atyp] ++ addr ++ port.toList).length := by
      simp only [List.length_append, hp]
      rfl
    have hb : r₁ :: r₂ :: 0 :: atyp :: (addr ++ (port.toList ++ data)) =
        [r₁, r₂, 0, atyp] ++ addr ++ port.toList ++ data := by simp
    rw [hb, hk]
    refine ⟨?_, List.drop_left.symm⟩
    simp only [List.length_append]
    omega

/-! ### The cursor -/

lemma readSlice_append {n : ℕ} (front : List UInt8) (v : List.Vector UInt8 n) (rest : List UInt8) :
    readSlice n (front ++ (v.toList ++ rest)) front.length = .ok (v, front.length + n) := by
  have hlen : front.length + n ≤ (front ++ (v.toList ++ rest)).length := by
    simp only [List.length_append, List.Vector.toList_length]
    omega
  have htake : ((front ++ (v.toList ++ rest)).drop front.length).take n = v.toList := by
    rw [List.drop_left]
    exact List.take_left' v.toList_length
  unfold readSlice
  rw [dif_pos hlen]
  exact congrArg Except.ok (Prod.ext (Subtype.ext htake) rfl)

lemma readSlice_short {n : ℕ} (front rest : List UInt8) (h : rest.length < n) :
    readSlice n (front ++ rest) front.length = .error .truncated := by
  unfold readSlice
  apply dif_neg
  rw [List.length_append]
  omega

lemma datagramHost_address (front : List UInt8) {atyp : UInt8} {addr : List UInt8} {host : Text}
    (rest : List UInt8) (ha : Address atyp addr host) :
    datagramHost (front ++ (addr ++ rest)) front.length atyp =
      .ok (host, front.length + addr.length) := by
  cases ha with
  | ipv4 octets =>
    unfold datagramHost
    rw [if_pos rfl, readSlice_append, List.Vector.toList_length]
    rfl
  | ipv6 octets =>
    unfold datagramHost
    rw [if_neg (by decide), if_pos rfl, readSlice_append, List.Vector.toList_length]
    rfl
  | @domain len domain hl =>
    have hlen : readSlice 1 (front ++ (len :: domain ++ rest)) front.length =
        .ok (⟨[len], rfl⟩, front.length + 1) := readSlice_append front ⟨[len], rfl⟩ (domain ++ rest)
    have hstop : front.length + 1 + len.toNat ≤ (front ++ (len :: domain ++ rest)).length := by
      simp only [List.length_append, List.length_cons]
      omega
    have hsub : front.length + 1 + len.toNat - (front.length + 1) = domain.length := by omega
    have htake : ((front ++ (len :: domain ++ rest)).drop (front.length + 1)).take domain.length =
        domain := by
      have hcut : front ++ (len :: domain ++ rest) = front ++ [len] ++ (domain ++ rest) := by simp
      have hfront : front.length + 1 = (front ++ [len]).length := by simp
      rw [hcut, hfront, List.drop_left, List.take_left]
    unfold datagramHost
    rw [if_neg (by decide), if_neg (by decide), if_pos rfl, hlen]
    refine (if_pos hstop).trans ?_
    change Except.ok (domainHost (((front ++ (len :: domain ++ rest)).drop (front.length + 1)).take
      (front.length + 1 + len.toNat - (front.length + 1))), front.length + 1 + len.toNat) = _
    rw [hsub, htake, List.length_cons, hl]
    congr 2
    omega

lemma datagramHost_cut (front : List UInt8) {atyp : UInt8} {rest : List UInt8}
    (ha : AddressCut atyp rest) :
    datagramHost (front ++ rest) front.length atyp = .error .truncated := by
  cases ha with
  | ipv4 h =>
    unfold datagramHost
    rw [if_pos rfl, readSlice_short front rest h]
    rfl
  | ipv6 h =>
    unfold datagramHost
    rw [if_neg (by decide), if_pos rfl, readSlice_short front rest h]
    rfl
  | length =>
    unfold datagramHost
    rw [if_neg (by decide), if_neg (by decide), if_pos rfl,
      readSlice_short front [] Nat.zero_lt_one]
    rfl
  | @domain len bytes h =>
    have hlen : readSlice 1 (front ++ len :: bytes) front.length =
        .ok (⟨[len], rfl⟩, front.length + 1) := readSlice_append front ⟨[len], rfl⟩ bytes
    have hstop : ¬front.length + 1 + len.toNat ≤ (front ++ len :: bytes).length := by
      rw [List.length_append, List.length_cons]
      omega
    unfold datagramHost
    rw [if_neg (by decide), if_neg (by decide), if_pos rfl, hlen]
    exact if_neg hstop

lemma datagramHost_bad (buf : List UInt8) (cursor : ℕ) {atyp : UInt8}
    (ha : atyp ≠ atypIpv4 ∧ atyp ≠ atypIpv6 ∧ atyp ≠ atypDomain) :
    datagramHost buf cursor atyp = .error (.unsupportedAddressType atyp) := by
  unfold datagramHost
  rw [if_neg ha.1, if_neg ha.2.1, if_neg ha.2.2]

/-! ### Every byte string is a datagram or is rejected -/

lemma parseDatagram_header (r₁ r₂ atyp : UInt8) (rest : List UInt8) :
    parseDatagram (r₁ :: r₂ :: 0 :: atyp :: rest) = (do
      let (host, cursor) ← datagramHost ([r₁, r₂, 0, atyp] ++ rest) [r₁, r₂, 0, atyp].length atyp
      let (port, cursor) ← readSlice 2 ([r₁, r₂, 0, atyp] ++ rest) cursor
      pure ⟨host, u16FromBeBytes port, ([r₁, r₂, 0, atyp] ++ rest).drop cursor⟩) := by
  have hlen : ¬(r₁ :: r₂ :: 0 :: atyp :: rest).length < udpHeaderPrefix := by
    simp only [List.length_cons, udpHeaderPrefix]
    omega
  unfold parseDatagram
  rw [if_neg hlen]
  exact if_neg (not_not.mpr rfl)

lemma parseDatagram_bad {r₁ r₂ atyp : UInt8} (rest : List UInt8)
    (ha : atyp ≠ atypIpv4 ∧ atyp ≠ atypIpv6 ∧ atyp ≠ atypDomain) :
    parseDatagram (r₁ :: r₂ :: 0 :: atyp :: rest) = .error (.unsupportedAddressType atyp) := by
  rw [parseDatagram_header, datagramHost_bad _ _ ha]
  rfl

lemma parseDatagram_cut {r₁ r₂ atyp : UInt8} {rest : List UInt8} (ha : AddressCut atyp rest) :
    parseDatagram (r₁ :: r₂ :: 0 :: atyp :: rest) = .error .truncated := by
  rw [parseDatagram_header, datagramHost_cut [r₁, r₂, 0, atyp] ha]
  rfl

lemma parseDatagram_noPort {r₁ r₂ atyp : UInt8} {addr : List UInt8} {host : Text}
    {rest : List UInt8} (ha : Address atyp addr host) (hp : rest.length < 2) :
    parseDatagram (r₁ :: r₂ :: 0 :: atyp :: (addr ++ rest)) = .error .truncated := by
  have hread := readSlice_short ([r₁, r₂, 0, atyp] ++ addr) rest hp
  rw [List.append_assoc, List.length_append] at hread
  rw [parseDatagram_header, datagramHost_address [r₁, r₂, 0, atyp] rest ha]
  change (readSlice 2 _ _ >>= _) = _
  rw [hread]
  rfl

lemma parseDatagram_of_bytes {buf : List UInt8} {k : ℕ} {d : Datagram} (h : DatagramBytes buf k d) :
    parseDatagram buf = .ok d := by
  obtain ⟨-, hpayload⟩ := h.split
  cases h with
  | @mk r₁ r₂ atyp addr host data port ha =>
    have hread := readSlice_append ([r₁, r₂, 0, atyp] ++ addr) port data
    rw [List.append_assoc, List.length_append] at hread
    rw [parseDatagram_header, datagramHost_address [r₁, r₂, 0, atyp] _ ha]
    change (readSlice 2 _ _ >>= _) = _
    rw [hread]
    exact congrArg (fun x => Except.ok (Datagram.mk host (u16FromBeBytes port) x)) hpayload.symm

lemma exists_header {buf : List UInt8} (h : udpHeaderPrefix ≤ buf.length) :
    ∃ r₁ r₂ frag atyp rest, buf = r₁ :: r₂ :: frag :: atyp :: rest :=
  match buf, h with
  | r₁ :: r₂ :: frag :: atyp :: rest, _ => ⟨r₁, r₂, frag, atyp, rest, rfl⟩

/-- What is no datagram is rejected, for the first reason there is. -/
lemma bytes_or_rejected (buf : List UInt8) :
    (∃ k d, DatagramBytes buf k d) ∨ parseDatagram buf = .error (rejection buf) := by
  rcases Nat.lt_or_ge buf.length udpHeaderPrefix with h | h
  · refine .inr ?_
    unfold parseDatagram rejection
    rw [if_pos h, if_pos h]
  · obtain ⟨r₁, r₂, frag, atyp, rest, rfl⟩ := exists_header h
    have hlen := Nat.not_lt.mpr h
    by_cases hf : frag = 0
    · subst hf
      have hreject : rejection (r₁ :: r₂ :: 0 :: atyp :: rest) =
          if atyp ≠ atypIpv4 ∧ atyp ≠ atypIpv6 ∧ atyp ≠ atypDomain then
            .unsupportedAddressType atyp else .truncated :=
        (if_neg hlen).trans (if_neg (not_not.mpr rfl))
      rcases address_total atyp rest with ha | ha | ⟨addr, host, rest, rfl, ha⟩
      · exact .inr ((parseDatagram_bad rest ha).trans (by rw [hreject, if_pos ha]))
      · have hknown : ¬(atyp ≠ atypIpv4 ∧ atyp ≠ atypIpv6 ∧ atyp ≠ atypDomain) := by
          cases ha <;> decide
        exact .inr ((parseDatagram_cut ha).trans (by rw [hreject, if_neg hknown]))
      · rcases Nat.lt_or_ge rest.length 2 with hp | hp
        · have hknown : ¬(atyp ≠ atypIpv4 ∧ atyp ≠ atypIpv6 ∧ atyp ≠ atypDomain) := by
            cases ha <;> decide
          exact .inr ((parseDatagram_noPort ha hp).trans (by rw [hreject, if_neg hknown]))
        · obtain ⟨port, data, rfl⟩ := exists_vector hp
          exact .inl ⟨_, _, .mk ha⟩
    · refine .inr ?_
      unfold parseDatagram rejection
      rw [if_neg hlen, if_neg hlen]
      exact (if_pos hf).trans (congrArg _ (if_pos hf).symm)

lemma parseDatagram_ok_iff (buf : List UInt8) (d : Datagram) :
    parseDatagram buf = .ok d ↔ ∃ k, DatagramBytes buf k d := by
  constructor
  · intro h
    rcases bytes_or_rejected buf with ⟨k, d', hb⟩ | hr
    · rw [parseDatagram_of_bytes hb] at h
      cases h
      exact ⟨k, hb⟩
    · rw [hr] at h
      cases h
  · rintro ⟨k, h⟩
    exact parseDatagram_of_bytes h

/-! ### Prefixes of a datagram -/

lemma address_take {atyp : UInt8} {addr : List UInt8} {host : Text} (ha : Address atyp addr host)
    {n : ℕ} (h : n < addr.length) : AddressCut atyp (addr.take n) := by
  have htake := List.length_take_of_le h.le
  cases ha with
  | ipv4 octets =>
    rw [octets.toList_length] at h
    exact .ipv4 (htake.trans_lt h)
  | ipv6 octets =>
    rw [octets.toList_length] at h
    exact .ipv6 (htake.trans_lt h)
  | @domain len domain hl =>
    cases n with
    | zero => exact .length
    | succ n =>
      rw [List.take_succ_cons] at htake ⊢
      simp only [List.length_cons] at h htake
      exact .domain (by omega)

/-- A prefix that keeps the header carries the payload cut to its length. -/
lemma DatagramBytes.take {buf : List UInt8} {k : ℕ} {d : Datagram} (h : DatagramBytes buf k d)
    {n : ℕ} (hn : k ≤ n) :
    DatagramBytes (buf.take n) k { d with payload := d.payload.take (n - k) } := by
  cases h with
  | @mk r₁ r₂ atyp addr host data port ha =>
    obtain ⟨m, rfl⟩ := Nat.exists_eq_add_of_le hn
    have hn : udpHeaderPrefix + addr.length + 2 + m =
        ([r₁, r₂, 0, atyp] ++ addr ++ port.toList).length + m := by
      simp only [List.length_append, port.toList_length]
      rfl
    have hb : r₁ :: r₂ :: 0 :: atyp :: (addr ++ (port.toList ++ data)) =
        [r₁, r₂, 0, atyp] ++ addr ++ port.toList ++ data := by simp
    have htake : (r₁ :: r₂ :: 0 :: atyp :: (addr ++ (port.toList ++ data))).take
        (udpHeaderPrefix + addr.length + 2 + m) =
        r₁ :: r₂ :: 0 :: atyp :: (addr ++ (port.toList ++ data.take m)) := by
      rw [hb, hn, List.take_length_add_append]
      simp
    rw [htake, Nat.add_sub_cancel_left]
    exact .mk ha

lemma DatagramBytes.take_truncated {buf : List UInt8} {k : ℕ} {d : Datagram}
    (h : DatagramBytes buf k d) {n : ℕ} (hn : n < k) :
    parseDatagram (buf.take n) = .error .truncated := by
  cases h with
  | @mk r₁ r₂ atyp addr host data port ha =>
    rcases Nat.lt_or_ge n udpHeaderPrefix with h4 | h4
    · unfold parseDatagram
      exact if_pos ((List.length_take_le _ _).trans_lt h4)
    · obtain ⟨m, rfl⟩ := Nat.exists_eq_add_of_le h4
      have htake : (r₁ :: r₂ :: 0 :: atyp :: (addr ++ (port.toList ++ data))).take
          (udpHeaderPrefix + m) =
          r₁ :: r₂ :: 0 :: atyp :: (addr ++ (port.toList ++ data)).take m := by
        rw [udpHeaderPrefix, Nat.add_comm]
        rfl
      rw [htake]
      rcases Nat.lt_or_ge m addr.length with hm | hm
      · rw [List.take_append_of_le_length hm.le]
        exact parseDatagram_cut (address_take ha hm)
      · obtain ⟨j, rfl⟩ := Nat.exists_eq_add_of_le hm
        rw [List.take_length_add_append]
        refine parseDatagram_noPort ha ((List.length_take_le _ _).trans_lt ?_)
        omega

/-! ### No index is out of bounds -/

/-- `parse_datagram` with the indexing of the buffer and of its tail made partial: `none` is a
panic. -/
def parseDatagramChecked (buf : List UInt8) : Option (Except DatagramError Datagram) :=
  if buf.length < udpHeaderPrefix then some (.error .truncated)
  else do
    let frag ← buf[2]?
    if frag ≠ 0 then some (.error (.fragmented (← buf[2]?)))
    else do
      match datagramHost buf udpHeaderPrefix (← buf[3]?) with
      | .error e => some (.error e)
      | .ok (host, cursor) =>
        match readSlice 2 buf cursor with
        | .error e => some (.error e)
        | .ok (port, cursor) =>
          if cursor ≤ buf.length then some (.ok ⟨host, u16FromBeBytes port, buf.drop cursor⟩)
          else none

lemma readSlice_le {n cursor stop : ℕ} {buf : List UInt8} {v : List.Vector UInt8 n}
    (h : readSlice n buf cursor = .ok (v, stop)) : stop ≤ buf.length := by
  unfold readSlice at h
  split at h
  · cases h
    assumption
  · cases h

lemma parseDatagramChecked_eq (buf : List UInt8) :
    parseDatagramChecked buf = some (parseDatagram buf) := by
  unfold parseDatagramChecked parseDatagram
  rcases Nat.lt_or_ge buf.length udpHeaderPrefix with h | h
  · rw [if_pos h, if_pos h]
  · obtain ⟨r₁, r₂, frag, atyp, rest, rfl⟩ := exists_header h
    rw [if_neg (Nat.not_lt.mpr h), if_neg (Nat.not_lt.mpr h)]
    by_cases hf : frag = 0
    · refine (if_neg (not_not.mpr hf)).trans ?_
      refine Eq.trans ?_ (congrArg some (if_neg (not_not.mpr hf)).symm)
      set buf := r₁ :: r₂ :: frag :: atyp :: rest
      change (match datagramHost buf udpHeaderPrefix atyp with
        | .error e => _
        | .ok (host, cursor) => _) = some (datagramHost buf udpHeaderPrefix atyp >>= _)
      cases datagramHost buf udpHeaderPrefix atyp with
      | error e => rfl
      | ok addr =>
        change (match readSlice 2 buf addr.2 with
          | .error e => _
          | .ok (port, cursor) => _) = some (readSlice 2 buf addr.2 >>= _)
        cases hport : readSlice 2 buf addr.2 with
        | error e => rfl
        | ok port => exact if_pos (readSlice_le hport)
    · exact (if_pos hf).trans (congrArg some (if_pos hf).symm)

/-- **Parsing a datagram.** A byte string is accepted exactly if it is a datagram, and the
payload is then all of what is behind its header; any other is rejected for the first reason
there is. A prefix of a datagram that keeps the header carries the payload cut to its length, a
shorter one is truncated. No index taken is out of bounds. -/
theorem parseDatagram_spec (buf : List UInt8) :
    (∀ d, parseDatagram buf = .ok d ↔ ∃ k, DatagramBytes buf k d) ∧
    ((¬∃ k d, DatagramBytes buf k d) → parseDatagram buf = .error (rejection buf)) ∧
    (∀ k d, DatagramBytes buf k d → k ≤ buf.length ∧ d.payload = buf.drop k ∧
      (∀ n, k ≤ n →
        parseDatagram (buf.take n) = .ok { d with payload := d.payload.take (n - k) }) ∧
      ∀ n, n < k → parseDatagram (buf.take n) = .error .truncated) ∧
    parseDatagramChecked buf = some (parseDatagram buf) := by
  refine ⟨parseDatagram_ok_iff buf, (bytes_or_rejected buf).resolve_left, fun k d h => ?_,
    parseDatagramChecked_eq buf⟩
  obtain ⟨hk, hpayload⟩ := h.split
  exact ⟨hk, hpayload, fun n hn => parseDatagram_of_bytes (h.take hn), fun n => h.take_truncated⟩

example : parseDatagram [9, 9, 0, 3, 2, 0x48, 0x2E, 0, 53, 7, 8] = .ok ⟨"h".toList, 53, [7, 8]⟩ := by
  decide +kernel

/-! ### The handshake and the datagram agree -/

/-- **One address, two decoders.** The bytes of an address, behind a request header or behind a
datagram header, are decoded alike: both decoders accept the same host and port and consume the
same bytes, or both refuse the type, or the bytes end before the address and port do. -/
theorem decoders_agree {s : TcpStream} {n c rsv atyp : UInt8} {methods rest : List UInt8}
    (heof : s.fate = .eof) (hopen : s.broken = none)
    (hn : methods.length = n.toNat) (hm : methodNone ∈ methods)
    (hc : c = cmdConnect ∨ c = cmdUdpAssociate)
    (hs : s.unread = version :: n :: (methods ++ version :: c :: rsv :: atyp :: rest)) :
    (∃ host port cmd k, Asks c ⟨host, port⟩ cmd ∧ k ≤ (atyp :: rest).length ∧
      accept s = (.ok cmd, (s.consume (2 + n.toNat + 3 + k)).put [version, methodNone]) ∧
      parseDatagram (0 :: 0 :: 0 :: atyp :: rest) = .ok ⟨host, port, (atyp :: rest).drop k⟩) ∨
    ((accept s).1 = .err (.unsupportedAddressType atyp) ∧
      parseDatagram (0 :: 0 :: 0 :: atyp :: rest) = .error (.unsupportedAddressType atyp)) ∨
    ((AddressCut atyp rest ∨
        ∃ addr host port, rest = addr ++ port ∧ Address atyp addr host ∧ port.length < 2) ∧
      (accept s).1 = .err (.io ⟨.unexpectedEof, "early eof"⟩) ∧
      parseDatagram (0 :: 0 :: 0 :: atyp :: rest) = .error .truncated) := by
  -- the greeting is passed, so the verdict is the one of the request
  have hverdict : ∀ {out k}, RequestVerdict s.fate (version :: c :: rsv :: atyp :: rest) out k →
      accept s = (out, (s.consume (2 + n.toNat + k)).put [version, methodNone]) := fun hr =>
    accept_of_verdict hopen (.request hs hn hm hr)
  have hshort : ∀ {α}, ioShort (α := α) s.fate = .err (.io ⟨.unexpectedEof, "early eof"⟩) := by
    intro α
    rw [heof]
    rfl
  rcases address_total atyp rest with ha | ha | ⟨addr, host, rest, rfl, ha⟩
  · refine .inr (.inl ⟨?_, parseDatagram_bad rest ha⟩)
    rw [hverdict (.badAddressType rfl ha)]
  · refine .inr (.inr ⟨.inl ha, ?_, parseDatagram_cut ha⟩)
    rw [hverdict (.noAddress rfl ha), hshort]
  · rcases Nat.lt_or_ge rest.length 2 with hp | hp
    · refine .inr (.inr ⟨.inr ⟨addr, host, rest, rfl, ha, hp⟩, ?_, parseDatagram_noPort ha hp⟩)
      rw [hverdict (.noPort rfl ha hp), hshort]
    · obtain ⟨port, data, rfl⟩ := exists_vector hp
      obtain ⟨cmd, hcmd⟩ : ∃ cmd, Asks c ⟨host, u16FromBeBytes port⟩ cmd := by
        rcases hc with rfl | rfl
        · exact ⟨_, .connect _⟩
        · exact ⟨_, .udpAssociate _⟩
      have hbytes : version :: c :: rsv :: atyp :: (addr ++ (port.toList ++ data)) =
          version :: c :: rsv :: atyp :: (addr ++ port.toList) ++ data := by simp
      have hlen : (version :: c :: rsv :: atyp :: (addr ++ port.toList)).length =
          3 + (1 + addr.length + 2) := by
        simp only [List.length_cons, List.length_append, port.toList_length]
        omega
      have haccept := hverdict (.accepted hbytes (.mk ha hcmd))
      rw [hlen, ← Nat.add_assoc] at haccept
      have hd : DatagramBytes (0 :: 0 :: 0 :: atyp :: (addr ++ (port.toList ++ data))) _ _ := .mk ha
      have hdrop : data = (atyp :: (addr ++ (port.toList ++ data))).drop (1 + addr.length + 2) := by
        have hpayload := hd.split.2
        rwa [udpHeaderPrefix, show 4 + addr.length + 2 = 1 + addr.length + 2 + 3 by omega] at hpayload
      refine .inl ⟨host, u16FromBeBytes port, cmd, 1 + addr.length + 2, hcmd, ?_, haccept, ?_⟩
      · simp only [List.length_cons, List.length_append, port.toList_length]
        omega
      · rw [← hdrop]
        exact parseDatagram_of_bytes hd

/-- A client that sends a greeting and a domain request, cut behind the address. -/
def cutRequest : TcpStream where
  unread := [5, 1, 0, 5, 3, 0, 3, 1, 0x48, 0]
  segment _ := 1
  fate := .eof
  written := []
  broken := none

theorem decoders_agree_cutRequest :
    (accept cutRequest).1 = .err (.io ⟨.unexpectedEof, "early eof"⟩) ∧
      parseDatagram [0, 0, 0, 3, 1, 0x48, 0] = .error .truncated := by
  have hs : cutRequest.unread =
      version :: 1 :: ([0] ++ version :: 3 :: 0 :: 3 :: [1, 0x48, 0]) := rfl
  rcases decoders_agree rfl rfl rfl (by decide) (.inr rfl) hs with
    ⟨host, port, cmd, k, -, -, -, h⟩ | ⟨-, h⟩ | ⟨-, h⟩
  · have hcut : parseDatagram [0, 0, 0, 3, 1, 0x48, 0] = .error .truncated := by decide +kernel
    rw [hcut] at h
    cases h
  · have hcut : parseDatagram [0, 0, 0, 3, 1, 0x48, 0] = .error .truncated := by decide +kernel
    rw [hcut] at h
    cases h
  · exact h

/-! ### What the encoders write is parsed back -/

/-- The address bytes of a socket address, behind their type. -/
def addressType (addr : SocketAddr) : UInt8 :=
  match addr.ip with
  | .v4 _ => atypIpv4
  | .v6 _ => atypIpv6

def addressBytes (addr : SocketAddr) : List UInt8 :=
  match addr.ip with
  | .v4 ip => ip.toList
  | .v6 ip => ip.toList

/-- `ATYP ADDR PORT` of a socket address. -/
def block (addr : SocketAddr) : List UInt8 :=
  addressType addr :: (addressBytes addr ++ u16ToBeBytes addr.port)

lemma address_addressBytes (addr : SocketAddr) :
    Address (addressType addr) (addressBytes addr) addr.ip.toText := by
  obtain ⟨ip, port⟩ := addr
  cases ip with
  | v4 octets => exact .ipv4 octets
  | v6 octets => exact .ipv6 octets

lemma u16FromBeBytes_toBeBytes (port : UInt16) :
    u16FromBeBytes ⟨u16ToBeBytes port, rfl⟩ = port := by
  have hport := port.toNat_lt
  have hhi : (UInt8.ofNat (port.toNat / 256)).toNat = port.toNat / 256 := by
    rw [UInt8.toNat_ofNat']
    omega
  have hlo : (UInt8.ofNat (port.toNat % 256)).toNat = port.toNat % 256 := by
    rw [UInt8.toNat_ofNat']
    omega
  change UInt16.ofNat ((UInt8.ofNat (port.toNat / 256)).toNat * 256 +
    (UInt8.ofNat (port.toNat % 256)).toNat) = port
  rw [hhi, hlo, Nat.div_add_mod']
  exact UInt16.ofNat_toNat

lemma encodeDatagram_eq (source : SocketAddr) (payload out : List UInt8) :
    encodeDatagram source payload out = [0, 0, 0] ++ block source ++ payload := by
  obtain ⟨ip, port⟩ := source
  cases ip with
  | v4 octets => simp [encodeDatagram, block, addressType, addressBytes]
  | v6 octets => simp [encodeDatagram, block, addressType, addressBytes]

lemma replyBound_eq (code : UInt8) (bound : SocketAddr) :
    replyBound code bound = writeAll ([version, code, 0] ++ block bound) := by
  obtain ⟨ip, port⟩ := bound
  cases ip with
  | v4 octets => simp [replyBound, block, addressType, addressBytes]
  | v6 octets => simp [replyBound, block, addressType, addressBytes]

lemma datagramBytes_port {r₁ r₂ atyp : UInt8} {addr : List UInt8} {host : Text}
    (ha : Address atyp addr host) (port : UInt16) (data : List UInt8) :
    DatagramBytes (r₁ :: r₂ :: 0 :: atyp :: (addr ++ (u16ToBeBytes port ++ data)))
      (udpHeaderPrefix + addr.length + 2) ⟨host, port, data⟩ := by
  let bytes : List.Vector UInt8 2 := ⟨u16ToBeBytes port, rfl⟩
  have hmk : DatagramBytes (r₁ :: r₂ :: 0 :: atyp :: (addr ++ (bytes.toList ++ data)))
      (udpHeaderPrefix + addr.length + 2) ⟨host, u16FromBeBytes bytes, data⟩ := .mk ha
  rwa [u16FromBeBytes_toBeBytes] at hmk

lemma requestBytes_port {c rsv atyp : UInt8} {addr : List UInt8} {host : Text} {port : UInt16}
    {cmd : Command} (ha : Address atyp addr host) (hc : Asks c ⟨host, port⟩ cmd) :
    RequestBytes (version :: c :: rsv :: atyp :: (addr ++ u16ToBeBytes port)) cmd := by
  rw [← u16FromBeBytes_toBeBytes port] at hc
  exact .mk ha hc

lemma datagramBytes_block (source : SocketAddr) (payload : List UInt8) :
    DatagramBytes ([0, 0, 0] ++ block source ++ payload)
      (udpHeaderPrefix + (addressBytes source).length + 2)
      ⟨source.ip.toText, source.port, payload⟩ := by
  have hbytes : [0, 0, 0] ++ block source ++ payload =
      0 :: 0 :: 0 :: addressType source ::
        (addressBytes source ++ (u16ToBeBytes source.port ++ payload)) := by
    simp [block]
  rw [hbytes]
  exact datagramBytes_port (address_addressBytes source) source.port payload

lemma requestBytes_block {c rsv : UInt8} {cmd : Command} (addr : SocketAddr)
    (hc : Asks c ⟨addr.ip.toText, addr.port⟩ cmd) :
    RequestBytes (version :: c :: rsv :: block addr) cmd :=
  requestBytes_port (address_addressBytes addr) hc

/-- **One layout, two encoders, two decoders.** Whatever the buffer held before, an encoded
datagram is parsed back as its source and its payload. The block that names the source in it is
the block a reply advertises for that address, and as the address of a request it is accepted as
the same host and port. -/
theorem encodeDatagram_spec (source : SocketAddr) (payload out : List UInt8) :
    parseDatagram (encodeDatagram source payload out) =
      .ok ⟨source.ip.toText, source.port, payload⟩ ∧
    ∃ block, encodeDatagram source payload out = [0, 0, 0] ++ block ++ payload ∧
      (∀ code, replyBound code source = writeAll ([version, code, 0] ++ block)) ∧
      ∀ {s : TcpStream} {n c rsv methods cmd rest}, s.broken = none →
        methods.length = UInt8.toNat n → methodNone ∈ methods →
        Asks c ⟨source.ip.toText, source.port⟩ cmd →
        s.unread = version :: n :: (methods ++ version :: c :: rsv :: (block ++ rest)) →
        accept s = (.ok cmd, { s with
          unread := rest
          written := s.written ++ [version, methodNone] }) := by
  rw [encodeDatagram_eq]
  refine ⟨parseDatagram_of_bytes (datagramBytes_block source payload), block source, rfl,
    fun code => replyBound_eq code source, ?_⟩
  intro s n c rsv methods cmd rest hopen hn hm hc hs
  have h : HandshakeBytes (version :: n :: (methods ++ version :: c :: rsv :: block source)) cmd :=
    .mk hn hm (requestBytes_block source hc)
  have hsplit : s.unread =
      (version :: n :: (methods ++ version :: c :: rsv :: block source)) ++ rest := by
    rw [hs]
    simp
  have hv := verdict_of_handshake s.fate rest h
  rw [← hsplit] at hv
  rw [accept_of_verdict hopen hv]
  unfold TcpStream.consume TcpStream.put
  rw [hsplit, List.drop_left]

end Wiretally.SocksDatagram
