import Wiretally.Authority
import Wiretally.Dns
import Wiretally.SocksDatagram

/-!
The key a destination is counted under, by the way it arrives.

A destination arrives as the address of a SOCKS5 request or datagram, or as an authority. The
SOCKS5 paths put a name in its canonical form, which is the form of a reverse name; an authority
keeps trailing dots. So a name has one key on all paths exactly if it has no trailing dot. An
address always has: its standard text.
-/

namespace Wiretally.HostKeys

open Wiretally.Lib.AsyncIo Wiretally.Lib.Tcp Wiretally.Lib.Tcp.TcpStream Wiretally.Net
open Wiretally.Text Wiretally.Socks Wiretally.SocksAccept Wiretally.SocksDatagram
open Wiretally.Proxy Wiretally.Authority

/-! ### Arrivals -/

/-- Where a destination with the given SOCKS5 addresses and the given authority is headed, by
the way it arrives: the host it is counted under, and its port. -/
inductive Arrives (socks : UInt8 → List UInt8 → Prop) (authority : Text) (port : UInt16) :
    Text × UInt16 → Prop
  | connectRequest {s : TcpStream} {n rsv atyp methods addr rest request} (hopen : s.broken = none)
      (hn : methods.length = UInt8.toNat n) (hm : methodNone ∈ methods) (ha : socks atyp addr)
      (hs : s.unread = version :: n :: (methods ++
        (version :: cmdConnect :: rsv :: atyp :: (addr ++ (u16ToBeBytes port ++ rest)))))
      (h : (accept s).1 = .ok (.connect request)) :
      Arrives socks authority port (request.host, request.port)
  | datagram {r₁ r₂ atyp addr data d} (ha : socks atyp addr)
      (h : parseDatagram (r₁ :: r₂ :: 0 :: atyp :: (addr ++ (u16ToBeBytes port ++ data))) = .ok d) :
      Arrives socks authority port (d.host, d.port)
  | connectTarget :
      Arrives socks authority port (splitAuthority (authority ++ ':' :: portText port) 443)
  | absoluteForm (d : UInt16) :
      Arrives socks authority port (splitAuthority (authority ++ ':' :: portText port) d)
  | defaultPort : Arrives socks authority port (splitAuthority authority port)

/-- A name as a SOCKS5 address, if it is short enough for one. -/
def NameAddress (name : Text) (atyp : UInt8) (addr : List UInt8) : Prop :=
  ∃ len : UInt8, len.toNat = (asBytes name).length ∧ atyp = atypDomain ∧ addr = len :: asBytes name

/-- An IP address as a SOCKS5 address: of its own type, or as a name. -/
def IpAddress (ip : IpAddr) (atyp : UInt8) (addr : List UInt8) : Prop :=
  (atyp = addressType ⟨ip, 0⟩ ∧ addr = addressBytes ⟨ip, 0⟩) ∨ NameAddress ip.toText atyp addr

/-- An IP address as an authority. -/
def ipAuthority : IpAddr → Text
  | .v4 octets => (IpAddr.v4 octets).toText
  | .v6 octets => '[' :: ((IpAddr.v6 octets).toText ++ [']'])

/-- If all its SOCKS5 addresses are for one host, a destination arrives there as a request or a
datagram, and where `split_authority` puts it otherwise. -/
lemma dest_of_arrives {socks : UInt8 → List UInt8 → Prop} {authority host : Text} {port : UInt16}
    (hsocks : ∀ atyp addr, socks atyp addr → Address atyp addr host)
    (hport : ∀ d, splitAuthority (authority ++ ':' :: portText port) d = (host, port))
    (hdefault : splitAuthority authority port = (host, port)) {dest : Text × UInt16}
    (h : Arrives socks authority port dest) : dest = (host, port) := by
  cases h with
  | @connectRequest s n rsv atyp methods addr rest request hopen hn hm ha hs h =>
    have hrequest : RequestBytes (version :: cmdConnect :: rsv :: atyp :: (addr ++ u16ToBeBytes port))
        (.connect ⟨host, port⟩) := requestBytes_port (hsocks atyp addr ha) (.connect _)
    have hbytes : version :: cmdConnect :: rsv :: atyp :: (addr ++ (u16ToBeBytes port ++ rest)) =
        version :: cmdConnect :: rsv :: atyp :: (addr ++ u16ToBeBytes port) ++ rest := by simp
    rw [accept_of_verdict hopen (.request hs hn hm (.accepted hbytes hrequest))] at h
    cases h
    rfl
  | @datagram r₁ r₂ atyp addr data d ha h =>
    rw [parseDatagram_of_bytes (datagramBytes_port (hsocks atyp addr ha) port data)] at h
    cases h
    rfl
  | connectTarget => exact hport 443
  | absoluteForm d => exact hport d
  | defaultPort => exact hdefault

/-! ### Addresses as text -/

def isAddrChar (c : Char) : Bool := c == '.' || c == ':' || (List.range 16).any (c == Nat.digitChar ·)

lemma isAddrChar_digitChar {d : ℕ} (h : d < 16) : isAddrChar (Nat.digitChar d) = true := by
  have hall : ∀ d < 16, isAddrChar (Nat.digitChar d) = true := by decide
  exact hall d h

lemma mem_toDigits {b : ℕ} (hb : 1 < b) {n : ℕ} {c : Char} (h : c ∈ Nat.toDigits b n) :
    ∃ d < b, c = Nat.digitChar d := by
  induction n using Nat.strongRecOn with
  | ind n ih =>
    rw [Nat.toDigits_eq_if hb] at h
    split_ifs at h with hn
    · exact ⟨n, hn, List.mem_singleton.mp h⟩
    · rcases List.mem_append.mp h with h | h
      · exact ih (n / b) (Nat.div_lt_self (by omega) hb) h
      · exact ⟨n % b, Nat.mod_lt n (by omega), List.mem_singleton.mp h⟩

lemma isAddrChar_toDigits {b : ℕ} (hb : 1 < b) (hb' : b ≤ 16) (n : ℕ) :
    ∀ c ∈ Nat.toDigits b n, isAddrChar c = true := by
  intro c hc
  obtain ⟨d, hd, rfl⟩ := mem_toDigits hb hc
  exact isAddrChar_digitChar (by omega)

lemma of_isAddrChar {c : Char} (h : isAddrChar c = true) : c.toLower = c ∧ c ≠ '[' ∧ c ≠ ']' := by
  have hdigits : ∀ d < 16, (Nat.digitChar d).toLower = Nat.digitChar d ∧ Nat.digitChar d ≠ '[' ∧
      Nat.digitChar d ≠ ']' := by decide
  rw [isAddrChar, Bool.or_eq_true, Bool.or_eq_true, beq_iff_eq, beq_iff_eq, List.any_eq_true] at h
  rcases h with (rfl | rfl) | ⟨d, hd, heq⟩
  · decide
  · decide
  · rw [beq_iff_eq.mp heq]
    exact hdigits d (List.mem_range.mp hd)

lemma mem_intercalate {sep : Char} {parts : List Text} {c : Char}
    (h : c ∈ [sep].intercalate parts) : c = sep ∨ ∃ part ∈ parts, c ∈ part := by
  induction parts with
  | nil => cases h
  | cons part parts ih =>
    cases parts with
    | nil => exact .inr ⟨part, List.mem_cons_self, by simpa [List.intercalate] using h⟩
    | cons part' parts =>
      have hsplit : [sep].intercalate (part :: part' :: parts) =
          part ++ sep :: [sep].intercalate (part' :: parts) := rfl
      rw [hsplit] at h
      rcases List.mem_append.mp h with h | h
      · exact .inr ⟨part, List.mem_cons_self, h⟩
      · rcases List.mem_cons.mp h with h | h
        · exact .inl h
        · rcases ih h with h | ⟨p, hp, hc⟩
          · exact .inl h
          · exact .inr ⟨p, List.mem_cons_of_mem _ hp, hc⟩

lemma isAddrChar_dotted (octets : List UInt8) : ∀ c ∈ dotted octets, isAddrChar c = true := by
  intro c hc
  rcases mem_intercalate hc with rfl | ⟨part, hpart, hc⟩
  · rfl
  · obtain ⟨b, -, rfl⟩ := List.mem_map.mp hpart
    exact isAddrChar_toDigits (by decide) (by decide) _ c hc

lemma isAddrChar_fmtSubslice (groups : List ℕ) : ∀ c ∈ fmtSubslice groups, isAddrChar c = true := by
  intro c hc
  rcases mem_intercalate hc with rfl | ⟨part, hpart, hc⟩
  · rfl
  · obtain ⟨g, -, rfl⟩ := List.mem_map.mp hpart
    exact isAddrChar_toDigits (by decide) (by decide) _ c hc

lemma isAddrChar_toText (ip : IpAddr) : ∀ c ∈ ip.toText, isAddrChar c = true := by
  intro c hc
  cases ip with
  | v4 octets => exact isAddrChar_dotted _ c hc
  | v6 octets =>
    have hcolons : "::".toList.all isAddrChar = true := by decide +kernel
    have hmapped : "::ffff:".toList.all isAddrChar = true := by decide +kernel
    rw [List.all_eq_true] at hcolons hmapped
    unfold IpAddr.toText at hc
    dsimp only at hc
    split_ifs at hc
    · rcases List.mem_append.mp hc with hc | hc
      · exact hmapped c hc
      · exact isAddrChar_dotted _ c hc
    · rcases List.mem_append.mp hc with hc | hc
      · rcases List.mem_append.mp hc with hc | hc
        · exact isAddrChar_fmtSubslice _ c hc
        · exact hcolons c hc
      · exact isAddrChar_fmtSubslice _ c hc
    · exact isAddrChar_fmtSubslice _ c hc

lemma dot_not_mem_toDigits {b : ℕ} (hb : 1 < b) (hb' : b ≤ 16) (n : ℕ) :
    '.' ∉ Nat.toDigits b n := by
  have hall : ∀ d < 16, '.' ≠ Nat.digitChar d := by decide
  intro hc
  obtain ⟨d, hd, heq⟩ := mem_toDigits hb hc
  exact hall d (by omega) heq

lemma colon_not_mem_dotted (octets : List UInt8) : ':' ∉ dotted octets := by
  intro hc
  rcases mem_intercalate hc with h | ⟨part, hpart, hc⟩
  · exact absurd h (by decide)
  · obtain ⟨b, -, rfl⟩ := List.mem_map.mp hpart
    exact absurd (Nat.isDigit_of_mem_toDigits (by decide) (by decide) hc) (by decide)

def NoTrailingDot (s : Text) : Prop := s.getLast? ≠ some '.'

lemma noTrailingDot_of_not_mem {s : Text} (h : '.' ∉ s) : NoTrailingDot s := fun hlast =>
  h (List.mem_of_getLast? hlast)

lemma NoTrailingDot.append {s : Text} (h : NoTrailingDot s) (hne : s ≠ []) (front : Text) :
    NoTrailingDot (front ++ s) := by
  unfold NoTrailingDot
  rw [List.getLast?_append_of_ne_nil _ hne]
  exact h

lemma noTrailingDot_dotted {octets : List UInt8} (h : octets ≠ []) :
    NoTrailingDot (dotted octets) ∧ dotted octets ≠ [] := by
  have hdigits : ∀ b : UInt8, NoTrailingDot (Nat.toDigits 10 b.toNat) := fun b =>
    noTrailingDot_of_not_mem (dot_not_mem_toDigits (by decide) (by decide) _)
  induction octets with
  | nil => exact absurd rfl h
  | cons b octets ih =>
    cases octets with
    | nil =>
      have hone : dotted [b] = Nat.toDigits 10 b.toNat := by simp [dotted, List.intercalate]
      rw [hone]
      exact ⟨hdigits b, Nat.toDigits_ne_nil⟩
    | cons b' octets =>
      have hsplit : dotted (b :: b' :: octets) = Nat.toDigits 10 b.toNat ++ ['.'] ++
          dotted (b' :: octets) := by
        rw [List.append_assoc]
        rfl
      obtain ⟨hlast, hne⟩ := ih (List.cons_ne_nil _ _)
      rw [hsplit]
      exact ⟨hlast.append hne _, by simp⟩

lemma dot_not_mem_fmtSubslice (groups : List ℕ) : '.' ∉ fmtSubslice groups := by
  intro hc
  rcases mem_intercalate hc with h | ⟨part, hpart, hc⟩
  · exact absurd h (by decide)
  · obtain ⟨g, -, rfl⟩ := List.mem_map.mp hpart
    exact dot_not_mem_toDigits (by decide) (by decide) _ hc

lemma noTrailingDot_toText (ip : IpAddr) : NoTrailingDot ip.toText := by
  cases ip with
  | v4 octets =>
    have hne : octets.val ≠ [] := List.ne_nil_of_length_pos (by rw [octets.property]; decide)
    exact (noTrailingDot_dotted hne).1
  | v6 octets =>
    have hne : octets.val.drop 12 ≠ [] :=
      List.ne_nil_of_length_pos (by rw [List.length_drop, octets.property]; decide)
    obtain ⟨hlast, hdotted⟩ := noTrailingDot_dotted hne
    unfold IpAddr.toText
    dsimp only
    split_ifs
    · exact hlast.append hdotted _
    · refine noTrailingDot_of_not_mem fun hc => ?_
      rcases List.mem_append.mp hc with hc | hc
      · rcases List.mem_append.mp hc with hc | hc
        · exact dot_not_mem_fmtSubslice _ hc
        · exact absurd hc (by decide)
      · exact dot_not_mem_fmtSubslice _ hc
    · exact noTrailingDot_of_not_mem (dot_not_mem_fmtSubslice _)

/-- **The standard text of an address is canonical.** -/
theorem canonical_toText (ip : IpAddr) : canonical ip.toText = ip.toText ∧
    toAsciiLowercase ip.toText = ip.toText := by
  have hlower : toAsciiLowercase ip.toText = ip.toText := by
    refine (List.map_congr_left fun c hc => ?_).trans (List.map_id _)
    exact (of_isAddrChar (isAddrChar_toText ip c hc)).1
  exact ⟨((canonical_eq_iff _).mpr (noTrailingDot_toText ip)).trans hlower, hlower⟩

/-! ### Keys -/

lemma address_of_name {name : Text} {atyp : UInt8} {addr : List UInt8}
    (h : NameAddress name atyp addr) : Address atyp addr (canonical name) := by
  obtain ⟨len, hlen, rfl, rfl⟩ := h
  have hhost : domainHost (asBytes name) = canonical name := by
    unfold domainHost
    rw [fromUtf8Lossy_asBytes]
    rfl
  rw [← hhost]
  exact .domain hlen.symm

lemma address_of_ip {ip : IpAddr} {atyp : UInt8} {addr : List UInt8} (h : IpAddress ip atyp addr) :
    Address atyp addr ip.toText := by
  rcases h with ⟨rfl, rfl⟩ | h
  · exact address_addressBytes ⟨ip, 0⟩
  · have ha := address_of_name h
    rwa [(canonical_toText ip).1] at ha

lemma head_ne_bracket {s : Text} (h : '[' ∉ s) : s.head? ≠ some '[' := fun hhead =>
  h (List.mem_of_head? hhead)

lemma dest_of_ip {ip : IpAddr} {port : UInt16} {dest : Text × UInt16}
    (h : Arrives (IpAddress ip) (ipAuthority ip) port dest) : dest = (ip.toText, port) := by
  have hchars : '[' ∉ ip.toText ∧ ']' ∉ ip.toText := by
    refine ⟨fun hc => ?_, fun hc => ?_⟩
    · exact (of_isAddrChar (isAddrChar_toText ip _ hc)).2.1 rfl
    · exact (of_isAddrChar (isAddrChar_toText ip _ hc)).2.2 rfl
  have hlower := (canonical_toText ip).2
  refine dest_of_arrives (fun _ _ => address_of_ip) ?_ ?_ h
  · intro d
    cases ip with
    | v4 octets =>
      have hsplit := splitAuthority_port (head_ne_bracket hchars.1) port d
      rwa [hlower] at hsplit
    | v6 octets =>
      have hsplit := splitAuthority_brackets_port hchars.2 port d
      rw [hlower] at hsplit
      simpa [ipAuthority] using hsplit
  · cases ip with
    | v4 octets =>
      have hcolon := colon_not_mem_dotted octets.val
      have hsplit := splitAuthority_host (head_ne_bracket hchars.1) hcolon port
      rwa [hlower] at hsplit
    | v6 octets =>
      have hsplit := splitAuthority_brackets hchars.2 port
      rwa [hlower] at hsplit

/-- **One name, one key.** Wherever a name without colons and brackets arrives, it is counted
under its canonical form, which is what a reverse lookup gives for it, exactly if it has no
trailing dot. An address is counted under its standard text wherever it arrives. -/
theorem key_of_name {name : Text} (hname : ':' ∉ name ∧ '[' ∉ name ∧ ']' ∉ name) (port : UInt16) :
    ((∀ dest, Arrives (NameAddress name) name port dest → dest = (canonical name, port)) ↔
      name.getLast? ≠ some '.') ∧
    (∀ lookup cache ip more, lookup ip = some (.ptr name :: more) → canonical name ≠ [] →
      Dns.ReverseResolver.resolved ⟨some lookup, cache⟩ ip = some (canonical name)) ∧
    ∀ ip dest, Arrives (IpAddress ip) (ipAuthority ip) port dest → dest = (ip.toText, port) := by
  refine ⟨?_, fun lookup cache ip more => Dns.resolved_of_ptr, fun ip dest => dest_of_ip⟩
  have hhead := head_ne_bracket hname.2.1
  rw [← canonical_eq_iff]
  constructor
  · intro h
    have hdest := h _ .defaultPort
    rw [splitAuthority_host hhead hname.1] at hdest
    exact (congrArg Prod.fst hdest).symm
  · intro h dest
    refine dest_of_arrives (fun _ _ => address_of_name) (fun d => ?_) ?_
    · rw [splitAuthority_port hhead, h]
    · rw [splitAuthority_host hhead hname.1, h]

/-! ### A trailing dot -/

def dev : Text := "Api.dev".toList

theorem key_of_name_dev : splitAuthority dev 443 = ("api.dev".toList, 443) :=
  ((key_of_name (show ':' ∉ dev ∧ '[' ∉ dev ∧ ']' ∉ dev by decide) 443).1.mpr (by decide)) _ .defaultPort

def devDot : Text := "Api.dev.".toList

/-- As the target of a `CONNECT` it is counted under another key than in a datagram. -/
theorem devDot_two_keys : Arrives (NameAddress devDot) devDot 443 ("api.dev".toList, 443) ∧
    Arrives (NameAddress devDot) devDot 443 ("api.dev.".toList, 443) := by
  constructor
  · have hparse : parseDatagram (0 :: 0 :: 0 :: atypDomain ::
        (8 :: asBytes devDot ++ (u16ToBeBytes 443 ++ [7]))) = .ok ⟨"api.dev".toList, 443, [7]⟩ := by
      decide +kernel
    exact .datagram ⟨8, by decide +kernel, rfl, rfl⟩ hparse
  · have hsplit : splitAuthority (devDot ++ ':' :: portText 443) 443 = ("api.dev.".toList, 443) := by
      decide +kernel
    rw [← hsplit]
    exact .connectTarget

end Wiretally.HostKeys
