import Wiretally.Attempts
import Wiretally.Authority

/-!
Credentials in the URI of a request.

The connector splits the authority of a URI at its last colon and never at the sign behind the
userinfo. So the userinfo becomes part of the host, or even all of it where it starts with a
bracket, and two requests for one host with different credentials are counted, looked up and
connected to under different names. For which pairs of userinfos that does not happen is said
exactly.
-/

namespace Wiretally.Userinfo

open Wiretally.Lib.AsyncIo Wiretally.Lib.Run Wiretally.Net Wiretally.Text Wiretally.Proxy
open Wiretally.Authority Wiretally.Attempts

/-- An absolute-form URI without its userinfo, as far as the connector reads it. The userinfo ends
at the last at sign of an authority. -/
structure Site where
  scheme : Option Text
  hostPort : Text
  noAt : '@' ∉ hostPort

namespace Site

def authority (site : Site) : Option Text → Text
  | none => site.hostPort
  | some userinfo => userinfo ++ '@' :: site.hostPort

def uri (site : Site) (userinfo : Option Text) : Uri := ⟨site.scheme, some (site.authority userinfo)⟩

def defaultPort (site : Site) : UInt16 := if site.scheme = some "https".toList then 443 else 80

/-- Whatever the userinfo, the same host and port are derived. -/
def Law (site : Site) : Prop := ∀ i j, callTarget (site.uri i) = callTarget (site.uri j)

lemma callTarget_uri (site : Site) (userinfo : Option Text) :
    callTarget (site.uri userinfo) = .ok (splitAuthority (site.authority userinfo) site.defaultPort) :=
  rfl

lemma callTarget_congr (site : Site) {i j : Option Text}
    (h : i.map toAsciiLowercase = j.map toAsciiLowercase) :
    callTarget (site.uri i) = callTarget (site.uri j) := by
  have hlower : toAsciiLowercase (site.authority i) = toAsciiLowercase (site.authority j) := by
    cases i with
    | none =>
      cases j with
      | none => rfl
      | some j => cases h
    | some i =>
      cases j with
      | none => cases h
      | some j =>
        unfold authority
        rw [toAsciiLowercase_append, toAsciiLowercase_append, Option.some.inj h]
  rw [callTarget_uri, callTarget_uri, ← splitAuthority_toAsciiLowercase, hlower,
    splitAuthority_toAsciiLowercase]

end Site

/-! ### What becomes of a userinfo -/

lemma parseU16_of_at {s : Text} (h : '@' ∈ s) : parseU16 s = none := by
  cases hport : parseU16 s with
  | none => rfl
  | some port =>
    rcases ((parseU16_eq_some_iff s port).mp hport).chars '@' h with hc | hc <;> cases hc

/-- How an authority without a bracket at its front is split, before case is lost. -/
def splitPlain (authority : Text) (d : UInt16) : Text × UInt16 :=
  match rsplitOnce ':' authority with
  | some (host, num) =>
    match parseU16 num with
    | some port => (host, port)
    | none => (authority, d)
  | none => (authority, d)

lemma splitAuthority_plain {authority : Text} (h : authority.head? ≠ some '[') (d : UInt16) :
    splitAuthority authority d =
      (toAsciiLowercase (splitPlain authority d).1, (splitPlain authority d).2) := by
  rw [splitAuthority_of_head h]
  unfold splitPlain
  cases rsplitOnce ':' authority with
  | none => rfl
  | some parts =>
    simp only
    cases parseU16 parts.2 <;> rfl

lemma splitPlain_append {host num : Text} (h : ':' ∉ num) (d : UInt16) :
    splitPlain (host ++ ':' :: num) d =
      match parseU16 num with
      | some port => (host, port)
      | none => (host ++ ':' :: num, d) := by
  unfold splitPlain
  rw [rsplitOnce_append h]

lemma splitPlain_of_not_mem {host : Text} (h : ':' ∉ host) (d : UInt16) :
    splitPlain host d = (host, d) := by
  unfold splitPlain
  rw [rsplitOnce_none h]

/-- A userinfo stays in front of the host, colons in it or not. -/
lemma splitPlain_userinfo (userinfo hostPort : Text) (d : UInt16) :
    splitPlain (userinfo ++ '@' :: hostPort) d =
      (userinfo ++ '@' :: (splitPlain hostPort d).1, (splitPlain hostPort d).2) := by
  by_cases hcolon : ':' ∈ hostPort
  · obtain ⟨host, num, rfl, hnum⟩ := exists_last hcolon
    have hassoc : userinfo ++ '@' :: (host ++ ':' :: num) = userinfo ++ '@' :: host ++ ':' :: num := by
      simp
    rw [splitPlain_append hnum, hassoc, splitPlain_append hnum]
    cases parseU16 num with
    | none => rw [hassoc]
    | some port => rfl
  · rw [splitPlain_of_not_mem hcolon]
    by_cases hinfo : ':' ∈ userinfo
    · obtain ⟨user, password, rfl, hpassword⟩ := exists_last hinfo
      have hassoc : user ++ ':' :: password ++ '@' :: hostPort =
          user ++ ':' :: (password ++ '@' :: hostPort) := by simp
      have hlast : ':' ∉ password ++ '@' :: hostPort := by simp [hpassword, hcolon]
      rw [hassoc, splitPlain_append hlast, parseU16_of_at (by simp)]
    · rw [splitPlain_of_not_mem (by simp [hinfo, hcolon])]

namespace Site

variable (site : Site)

lemma callTarget_userinfo {userinfo : Text} (h : userinfo.head? ≠ some '[') :
    callTarget (site.uri (some userinfo)) =
      .ok (toAsciiLowercase userinfo ++ '@' ::
        toAsciiLowercase (splitPlain site.hostPort site.defaultPort).1,
        (splitPlain site.hostPort site.defaultPort).2) := by
  have hhead : (userinfo ++ '@' :: site.hostPort).head? ≠ some '[' :=
    mt (head?_append_cons (by decide)).mp h
  rw [callTarget_uri, authority, splitAuthority_plain hhead, splitPlain_userinfo,
    toAsciiLowercase_append, toAsciiLowercase_cons (by decide)]

/-- Without a userinfo there is no at sign in the host. -/
lemma callTarget_ne {i : Option Text} {front back : Text} {port : UInt16}
    (h : callTarget (site.uri i) = .ok (front ++ '@' :: back, port)) :
    callTarget (site.uri none) ≠ callTarget (site.uri i) := by
  intro hsame
  rw [h, callTarget_uri] at hsame
  have hhost := congrArg Prod.fst (Except.ok.inj hsame)
  refine site.noAt (mem_splitAuthority (d := site.defaultPort) (by decide) ?_)
  change '@' ∈ (splitAuthority (site.authority none) site.defaultPort).1
  rw [hhost]
  simp

end Site

/-! ### Authorities for a host with the default port -/

/-- No port is written behind the host. -/
def Portless (authority : Text) : Prop :=
  ∀ host num port, authority = host ++ ':' :: num → ¬ Numeral port num

/-- The authority is for the host with the default port: the port is not written, or is that one;
an opening bracket at the front is left out, with what follows the closing one. -/
inductive ForDefault (d : UInt16) : Text → Text → Prop
  | alone {host} (hhead : host.head? ≠ some '[') (hport : Portless host) : ForDefault d host host
  | port {host num} (hhead : host.head? ≠ some '[') (hnum : Numeral d num) :
    ForDefault d (host ++ ':' :: num) host
  | closed {host tail} (hhost : ']' ∉ host)
    (htail : ∀ num port, tail = ':' :: num → Numeral port num → port = d) :
    ForDefault d ('[' :: (host ++ ']' :: tail)) host
  | unclosed {host} (hhost : ']' ∉ host) : ForDefault d ('[' :: host) host

lemma not_colon {port : UInt16} {num : Text} (h : Numeral port num) : ':' ∉ num := by
  intro hmem
  rcases h.chars ':' hmem with hc | hc <;> cases hc

lemma splitPlain_of_portless {authority : Text} (h : Portless authority) (d : UInt16) :
    splitPlain authority d = (authority, d) := by
  by_cases hcolon : ':' ∈ authority
  · obtain ⟨host, num, rfl, hnum⟩ := exists_last hcolon
    rw [splitPlain_append hnum]
    cases hport : parseU16 num with
    | none => rfl
    | some port => exact absurd ((parseU16_eq_some_iff num port).mp hport) (h host num port rfl)
  · exact splitPlain_of_not_mem hcolon d

lemma splitPlain_of_numeral {num : Text} {port : UInt16} (h : Numeral port num) (host : Text)
    (d : UInt16) : splitPlain (host ++ ':' :: num) d = (host, port) := by
  rw [splitPlain_append (not_colon h), (parseU16_eq_some_iff num port).mpr h]

lemma splitAuthority_of_forDefault {authority host : Text} {d : UInt16}
    (h : ForDefault d authority host) : splitAuthority authority d = (toAsciiLowercase host, d) := by
  cases h with
  | alone hhead hport => rw [splitAuthority_plain hhead, splitPlain_of_portless hport]
  | port hhead hnum =>
    rw [splitAuthority_plain (mt (head?_append_cons (by decide)).mp hhead),
      splitPlain_of_numeral hnum]
  | @closed _ tail hhost htail =>
    have hport : tailPort tail d = d := by
      unfold tailPort
      split
      next num =>
        cases hnum : parseU16 num with
        | none => rfl
        | some port => exact htail num port rfl ((parseU16_eq_some_iff num port).mp hnum)
      next => rfl
    rw [splitAuthority_tail hhost, hport]
  | unclosed hhost => exact splitAuthority_unclosed hhost d

/-- **What is for the default port.** -/
theorem splitAuthority_eq_iff (authority x : Text) (d : UInt16) :
    splitAuthority authority d = (toAsciiLowercase x, d) ↔
      ∃ host, ForDefault d authority host ∧ toAsciiLowercase host = toAsciiLowercase x := by
  constructor
  · intro h
    cases shape authority with
    | closed tail hhost =>
      rw [splitAuthority_tail hhost] at h
      obtain ⟨hsame, hport⟩ := Prod.mk.inj h
      refine ⟨_, .closed hhost ?_, hsame⟩
      rintro num port rfl hnum
      rw [tailPort, (parseU16_eq_some_iff num port).mpr hnum] at hport
      exact hport
    | unclosed hrest =>
      rw [splitAuthority_unclosed hrest] at h
      exact ⟨_, .unclosed hrest, (Prod.mk.inj h).1⟩
    | plain hhead =>
      rw [splitAuthority_plain hhead] at h
      obtain ⟨hsame, hport⟩ := Prod.mk.inj h
      by_cases hfree : Portless authority
      · rw [splitPlain_of_portless hfree] at hsame
        exact ⟨_, .alone hhead hfree, hsame⟩
      · unfold Portless at hfree
        push Not at hfree
        obtain ⟨host, num, port, rfl, hnum⟩ := hfree
        rw [splitPlain_of_numeral hnum] at hsame hport
        obtain rfl : port = d := hport
        exact ⟨host, .port (mt (head?_append_cons (by decide)).mpr hhead) hnum, hsame⟩
  · rintro ⟨host, hhost, hsame⟩
    rw [splitAuthority_of_forDefault hhost, hsame]

/-! ### Pairs of userinfos -/

lemma append_at_inj {u v x y : Text} (hx : '@' ∉ x) (hy : '@' ∉ y)
    (h : u ++ '@' :: x = v ++ '@' :: y) : u = v ∧ x = y := by
  have hsplit := congrArg (rsplitOnce '@') h
  rw [rsplitOnce_append hx, rsplitOnce_append hy] at hsplit
  exact Prod.mk.inj (Option.some.inj hsplit)

namespace Site

/-- Two userinfos that differ and come to the same: one in brackets, which alone is taken for
the host, where the other makes the authority one for that host; or one with a bracket at the
front that nothing closes, where the other is the text behind it. -/
inductive Coincide (site : Site) : Option Text → Option Text → Prop
  | closed {host rest named : Text} {other : Option Text} (hhost : ']' ∉ host)
    (hnamed : ForDefault site.defaultPort (site.authority other) named)
    (hsame : toAsciiLowercase named = toAsciiLowercase host) :
    Coincide site (some ('[' :: (host ++ ']' :: rest))) other
  | unclosed {userinfo behind : Text} (hhead : userinfo.head? ≠ some '[') (hbehind : ']' ∉ behind)
    (hsite : ']' ∉ site.hostPort) (hport : Portless site.hostPort)
    (hsame : toAsciiLowercase behind = toAsciiLowercase userinfo) :
    Coincide site (some ('[' :: behind)) (some userinfo)

/-- Userinfos that are one up to case, or else coincide. -/
def Alike (site : Site) (i j : Option Text) : Prop :=
  i.map toAsciiLowercase = j.map toAsciiLowercase ∨ site.Coincide i j ∨ site.Coincide j i

variable (site : Site)

/-- What is in brackets at the front of a userinfo is taken for the host. -/
lemma callTarget_closed {host : Text} (h : ']' ∉ host) (rest : Text) :
    callTarget (site.uri (some ('[' :: (host ++ ']' :: rest)))) =
      .ok (toAsciiLowercase host, site.defaultPort) := by
  have hassoc : '[' :: (host ++ ']' :: rest) ++ '@' :: site.hostPort =
      '[' :: (host ++ ']' :: (rest ++ '@' :: site.hostPort)) := by simp
  have hport : tailPort (rest ++ '@' :: site.hostPort) site.defaultPort = site.defaultPort := by
    unfold tailPort
    split
    next num hnum =>
      have hat : '@' ∈ num := by
        have hmem : '@' ∈ ':' :: num := by
          rw [← hnum]
          simp
        simpa using hmem
      rw [parseU16_of_at hat]
      rfl
    next => rfl
  rw [callTarget_uri, authority, hassoc, splitAuthority_tail h, hport]

/-- Behind a bracket that a userinfo does not close it goes on into the host, up to a closing
bracket of the host if there is one. -/
lemma callTarget_unclosed : ∃ host port, '@' ∉ host ∧ ']' ∉ host ∧
    (site.hostPort = host ∧ port = site.defaultPort ∨ ∃ tail, site.hostPort = host ++ ']' :: tail) ∧
    ∀ behind, ']' ∉ behind → callTarget (site.uri (some ('[' :: behind))) =
      .ok (toAsciiLowercase behind ++ '@' :: toAsciiLowercase host, port) := by
  have hlower : ∀ behind host : Text, toAsciiLowercase (behind ++ '@' :: host) =
      toAsciiLowercase behind ++ '@' :: toAsciiLowercase host := by
    intro behind host
    rw [toAsciiLowercase_append, toAsciiLowercase_cons (by decide)]
  by_cases hclose : ']' ∈ site.hostPort
  · obtain ⟨host, tail, hsplit, hhost⟩ := List.eq_append_cons_of_mem hclose
    have hat : '@' ∉ host := by
      intro hmem
      refine site.noAt ?_
      rw [hsplit]
      exact List.mem_append_left _ hmem
    refine ⟨host, tailPort tail site.defaultPort, hat, hhost, .inr ⟨tail, hsplit⟩, ?_⟩
    intro behind hbehind
    have hassoc : '[' :: behind ++ '@' :: site.hostPort =
        '[' :: (behind ++ '@' :: host ++ ']' :: tail) := by
      rw [hsplit]
      simp
    rw [callTarget_uri, authority, hassoc, splitAuthority_tail (by simp [hbehind, hhost]), hlower]
  · refine ⟨site.hostPort, site.defaultPort, site.noAt, hclose, .inl ⟨rfl, rfl⟩, ?_⟩
    intro behind hbehind
    rw [callTarget_uri, authority, List.cons_append,
      splitAuthority_unclosed (by simp [hbehind, hclose]), hlower]

variable {site} {i j : Option Text}

lemma callTarget_of_coincide (h : site.Coincide i j) :
    callTarget (site.uri i) = callTarget (site.uri j) := by
  cases h with
  | closed hhost hnamed hsame =>
    rw [callTarget_closed site hhost, callTarget_uri, splitAuthority_of_forDefault hnamed, hsame]
  | unclosed hhead hbehind hsite hport hsame =>
    obtain ⟨host, port, -, -, hsplit, htarget⟩ := callTarget_unclosed site
    rw [htarget _ hbehind, callTarget_userinfo site hhead, splitPlain_of_portless hport, hsame]
    rcases hsplit with ⟨rfl, rfl⟩ | ⟨tail, hsplit⟩
    · rfl
    · exact absurd (by simp [hsplit]) hsite

lemma coincide_of_closed {host rest : Text} (hhost : ']' ∉ host)
    (h : callTarget (site.uri (some ('[' :: (host ++ ']' :: rest)))) = callTarget (site.uri j)) :
    site.Coincide (some ('[' :: (host ++ ']' :: rest))) j := by
  rw [callTarget_closed site hhost, callTarget_uri] at h
  obtain ⟨named, hnamed, hsame⟩ := (splitAuthority_eq_iff _ _ _).mp (Except.ok.inj h).symm
  exact .closed hhost hnamed hsame

/-- A bracket in front can only be missed where the host with its port stays whole. -/
lemma coincide_of_unclosed {behind userinfo : Text} (hbehind : ']' ∉ behind)
    (hhead : userinfo.head? ≠ some '[')
    (h : callTarget (site.uri (some ('[' :: behind))) = callTarget (site.uri (some userinfo))) :
    site.Coincide (some ('[' :: behind)) (some userinfo) := by
  obtain ⟨host, port, hat, hbracket, hsplit, htarget⟩ := callTarget_unclosed site
  rw [htarget behind hbehind, callTarget_userinfo site hhead] at h
  obtain ⟨hsame, hport⟩ := Prod.mk.inj (Except.ok.inj h)
  by_cases hfree : Portless site.hostPort
  · rw [splitPlain_of_portless hfree] at hsame
    obtain ⟨hinfo, hhost⟩ := append_at_inj (mt (mem_toAsciiLowercase (by decide)).mp hat)
      (mt (mem_toAsciiLowercase (by decide)).mp site.noAt) hsame
    have hsite : ']' ∉ site.hostPort := by
      intro hmem
      rw [← mem_toAsciiLowercase (by decide), ← hhost, mem_toAsciiLowercase (by decide)] at hmem
      exact hbracket hmem
    exact .unclosed hhead hbehind hsite hfree hinfo
  · exfalso
    unfold Portless at hfree
    push Not at hfree
    obtain ⟨front, num, p, hnum, hp⟩ := hfree
    have hatFront : '@' ∉ front := by
      intro hmem
      refine site.noAt ?_
      rw [hnum]
      exact List.mem_append_left _ hmem
    rw [hnum, splitPlain_of_numeral hp] at hsame
    obtain ⟨-, hhost⟩ := append_at_inj (mt (mem_toAsciiLowercase (by decide)).mp hat)
      (mt (mem_toAsciiLowercase (by decide)).mp hatFront) hsame
    rcases hsplit with ⟨hwhole, -⟩ | ⟨tail, hsplit⟩
    · -- the port would be in the host that goes on behind the bracket
      have hlen := congrArg List.length hhost
      rw [← hwhole, hnum] at hlen
      simp [toAsciiLowercase] at hlen
    · -- a closing bracket is in front of the port and not in the host
      have hmem : ']' ∈ front := by
        have hwhole : ']' ∈ front ++ ':' :: num := by
          rw [← hnum, hsplit]
          simp
        rcases List.mem_append.mp hwhole with hmem | hmem
        · exact hmem
        · rcases List.mem_cons.mp hmem with hc | hmem
          · cases hc
          · rcases hp.chars ']' hmem with hc | hc <;> cases hc
      rw [← mem_toAsciiLowercase (by decide), ← hhost, mem_toAsciiLowercase (by decide)] at hmem
      exact hbracket hmem

lemma alike_of_unclosed {behind behind' : Text} (hbehind : ']' ∉ behind) (hbehind' : ']' ∉ behind')
    (h : callTarget (site.uri (some ('[' :: behind))) =
      callTarget (site.uri (some ('[' :: behind')))) :
    toAsciiLowercase ('[' :: behind) = toAsciiLowercase ('[' :: behind') := by
  obtain ⟨host, port, -, -, -, htarget⟩ := callTarget_unclosed site
  rw [htarget behind hbehind, htarget behind' hbehind'] at h
  have hsame := congrArg Prod.fst (Except.ok.inj h)
  rw [toAsciiLowercase_cons (by decide), toAsciiLowercase_cons (by decide),
    List.append_cancel_right hsame]

lemma alike_of_plain {userinfo userinfo' : Text} (hhead : userinfo.head? ≠ some '[')
    (hhead' : userinfo'.head? ≠ some '[')
    (h : callTarget (site.uri (some userinfo)) = callTarget (site.uri (some userinfo'))) :
    toAsciiLowercase userinfo = toAsciiLowercase userinfo' := by
  rw [callTarget_userinfo site hhead, callTarget_userinfo site hhead'] at h
  exact List.append_cancel_right (congrArg Prod.fst (Except.ok.inj h))

/-- A userinfo that closes no bracket leaves an at sign in the host. -/
lemma callTarget_none_ne {userinfo : Text}
    (h : userinfo.head? ≠ some '[' ∨ ∃ behind, userinfo = '[' :: behind ∧ ']' ∉ behind) :
    callTarget (site.uri none) ≠ callTarget (site.uri (some userinfo)) := by
  rcases h with hhead | ⟨behind, rfl, hbehind⟩
  · exact callTarget_ne site (callTarget_userinfo site hhead)
  · obtain ⟨host, port, -, -, -, htarget⟩ := callTarget_unclosed site
    exact callTarget_ne site (htarget behind hbehind)

lemma alike_of_callTarget (h : callTarget (site.uri i) = callTarget (site.uri j)) :
    site.Alike i j := by
  cases i with
  | none =>
    cases j with
    | none => exact .inl rfl
    | some userinfo' =>
      cases shape userinfo' with
      | closed rest hhost => exact .inr (.inr (coincide_of_closed hhost h.symm))
      | plain hhead => exact absurd h (callTarget_none_ne (.inl hhead))
      | unclosed hbehind => exact absurd h (callTarget_none_ne (.inr ⟨_, rfl, hbehind⟩))
  | some userinfo =>
    cases shape userinfo with
    | closed rest hhost => exact .inr (.inl (coincide_of_closed hhost h))
    | plain hhead =>
      cases j with
      | none => exact absurd h.symm (callTarget_none_ne (.inl hhead))
      | some userinfo' =>
        cases shape userinfo' with
        | closed rest hhost => exact .inr (.inr (coincide_of_closed hhost h.symm))
        | plain hhead' => exact .inl (congrArg some (alike_of_plain hhead hhead' h))
        | unclosed hbehind => exact .inr (.inr (coincide_of_unclosed hbehind hhead h.symm))
    | unclosed hbehind =>
      cases j with
      | none => exact absurd h.symm (callTarget_none_ne (.inr ⟨_, rfl, hbehind⟩))
      | some userinfo' =>
        cases shape userinfo' with
        | closed rest hhost => exact .inr (.inr (coincide_of_closed hhost h.symm))
        | plain hhead => exact .inr (.inl (coincide_of_unclosed hbehind hhead h))
        | unclosed hbehind' => exact .inl (congrArg some (alike_of_unclosed hbehind hbehind' h))

/-- **Userinfo and host.** Two requests for one host are for one target exactly if their
userinfos are alike; where none starts with a bracket, these are equal up to case; and for no
host do all userinfos come to the same. -/
theorem callTarget_iff_userinfo (site : Site) :
    (∀ i j, callTarget (site.uri i) = callTarget (site.uri j) ↔ site.Alike i j) ∧
    (∀ i j : Option Text, (∀ t ∈ i, t.head? ≠ some '[') → (∀ t ∈ j, t.head? ≠ some '[') →
      (site.Alike i j ↔ i.map toAsciiLowercase = j.map toAsciiLowercase)) ∧
    ¬ site.Law := by
  have hlone : ∀ i j : Option Text, (∀ t ∈ i, t.head? ≠ some '[') → ¬ site.Coincide i j := by
    intro i j hi hcoincide
    cases hcoincide with
    | closed => exact hi _ rfl rfl
    | unclosed => exact hi _ rfl rfl
  refine ⟨fun i j => ⟨alike_of_callTarget, ?_⟩, fun i j hi hj => ⟨?_, .inl⟩, fun hlaw => ?_⟩
  · rintro (hcase | hcoincide | hcoincide)
    · exact site.callTarget_congr hcase
    · exact callTarget_of_coincide hcoincide
    · exact (callTarget_of_coincide hcoincide).symm
  · rintro (hcase | hcoincide | hcoincide)
    · exact hcase
    · exact absurd hcoincide (hlone i j hi)
    · exact absurd hcoincide (hlone j i hj)
  · have hne : callTarget (site.uri none) ≠ callTarget (site.uri (some [])) :=
      callTarget_none_ne (.inl (by simp))
    exact hne (hlaw none (some []))

end Site

/-! ### A password in the report -/

def exampleCom : Site where
  scheme := some "http".toList
  hostPort := "example.com".toList
  noAt := by decide +kernel

/-- With credentials in the URI the host is another one, and they stand in the report. -/
theorem password_in_report :
    callTarget (exampleCom.uri none) = .ok ("example.com".toList, 80) ∧
    callTarget (exampleCom.uri (some "user:secret".toList)) =
      .ok ("user:secret@example.com".toList, 80) ∧
    ¬ exampleCom.Law ∧
    (step World.start (.call (exampleCom.uri (some "user:secret".toList)))).map
      (fun w => w.registry.snapshot none) =
        some [⟨"user:secret@example.com".toList, none, 0, 0, 0, true⟩] := by
  have hnone : callTarget (exampleCom.uri none) = .ok ("example.com".toList, 80) := by
    decide +kernel
  have hsome : callTarget (exampleCom.uri (some "user:secret".toList)) =
      .ok ("user:secret@example.com".toList, 80) := by
    decide +kernel
  refine ⟨hnone, hsome, fun hlaw => ?_, by decide +kernel⟩
  have hsame := hlaw none (some "user:secret".toList)
  rw [hnone, hsome] at hsame
  have hhost := congrArg Prod.fst (Except.ok.inj hsame)
  exact absurd hhost (by decide +kernel)

end Wiretally.Userinfo
