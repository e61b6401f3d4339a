import Wiretally.Proxy

/-!
What `split_authority` makes of a host, with a port or without, in brackets or not; and what of
an authority is left of it.
-/

namespace Wiretally.Authority

open Wiretally.Net Wiretally.Text Wiretally.Proxy

/-! ### Decimal ports -/

def portText (port : UInt16) : Text := Nat.toDigits 10 port.toNat

/-- A port as it may be written: with a plus sign or without, and with zeros in front. -/
def Numeral (port : UInt16) (s : Text) : Prop :=
  ∃ sign zeros, (sign = [] ∨ sign = ['+']) ∧ s = sign ++ (List.replicate zeros '0' ++ portText port)

lemma toDigit_digitChar {d : ℕ} (h : d < 10) : toDigit 10 d.digitChar = some d := by
  have hall : ∀ d < 10, toDigit 10 (Nat.digitChar d) = some d := by decide
  exact hall d h

def push (n : ℕ) (c : Char) : Option ℕ :=
  (toDigit 10 c).bind fun d => if n * 10 + d < 65536 then some (n * 10 + d) else none

def stripPlus (s : Text) : Text :=
  match s with
  | '+' :: rest => rest
  | _ => s

lemma stripPlus_of_not_mem {s : Text} (h : '+' ∉ s) : stripPlus s = s := by
  unfold stripPlus
  split
  next rest => exact absurd List.mem_cons_self h
  next => rfl

lemma foldlM_toDigits {n : ℕ} (h : n < 65536) : (Nat.toDigits 10 n).foldlM push 0 = some n := by
  induction n using Nat.strongRecOn with
  | ind n ih =>
    rw [Nat.toDigits_eq_if (by decide)]
    split_ifs with hn
    · simp only [List.foldlM_cons, List.foldlM_nil, push, toDigit_digitChar hn]
      simp [h]
    · have hdiv : (n / 10) * 10 + n % 10 = n := Nat.div_add_mod' n 10
      rw [List.foldlM_append, ih (n / 10) (by omega) (by omega)]
      simp only [Option.bind_eq_bind, Option.bind_some, List.foldlM_cons, List.foldlM_nil, push,
        toDigit_digitChar (Nat.mod_lt n (by decide)), hdiv, if_pos h]
      rfl

lemma not_mem_portText {c : Char} (h : c.isDigit = false) (port : UInt16) : c ∉ portText port := by
  intro hmem
  rw [Nat.isDigit_of_mem_toDigits (by decide) (by decide) hmem] at h
  cases h

lemma toDigit_ten {c : Char} {d : ℕ} (h : toDigit 10 c = some d) : d < 10 ∧ c = d.digitChar := by
  obtain ⟨hd, hlt⟩ := Option.filter_eq_some_iff.mp h
  have hlt : d < 10 := by simpa using hlt
  refine ⟨hlt, ?_⟩
  split_ifs at hd with h0 ha hA
  · have hc : 48 ≤ c.toNat ∧ c.toNat ≤ 57 := h0
    have hval : c.toNat - 48 = d := Option.some.inj hd
    apply Char.toNat_inj.mp
    rw [Nat.toNat_digitChar_of_lt_ten hlt]
    omega
  · have hval : c.toNat - 97 + 10 = d := Option.some.inj hd
    omega
  · have hval : c.toNat - 65 + 10 = d := Option.some.inj hd
    omega

lemma push_eq_some {m n : ℕ} {c : Char} (h : push m c = some n) :
    ∃ d < 10, c = d.digitChar ∧ n = 10 * m + d ∧ n < 65536 := by
  obtain ⟨d, hd, h⟩ := Option.bind_eq_some_iff.mp h
  obtain ⟨hlt, hc⟩ := toDigit_ten hd
  split_ifs at h with hn
  cases h
  exact ⟨d, hlt, hc, by omega, hn⟩

/-- Digits that are read as a number are the number in decimal behind zeros. -/
lemma foldlM_push {s : Text} {n : ℕ} (hne : s ≠ []) (h : s.foldlM push 0 = some n) :
    ∃ zeros, s = List.replicate zeros '0' ++ Nat.toDigits 10 n := by
  induction s using List.reverseRecOn generalizing n with
  | nil => exact absurd rfl hne
  | append_singleton s c ih =>
    rw [List.foldlM_append] at h
    obtain ⟨m, hm, h⟩ := Option.bind_eq_some_iff.mp h
    have hc : push m c = some n := by simpa using h
    obtain ⟨d, hd, rfl, rfl, -⟩ := push_eq_some hc
    by_cases hs : s = []
    · subst hs
      cases hm
      exact ⟨0, by rw [Nat.mul_zero, Nat.zero_add, Nat.toDigits_of_lt_base hd]; rfl⟩
    · obtain ⟨zeros, rfl⟩ := ih hs hm
      rcases Nat.eq_zero_or_pos m with rfl | hpos
      · refine ⟨zeros + 1, ?_⟩
        rw [Nat.mul_zero, Nat.zero_add, Nat.toDigits_of_lt_base hd, Nat.toDigits_zero,
          List.replicate_succ']
      · refine ⟨zeros, ?_⟩
        rw [← Nat.toDigits_append_toDigits (by decide) hpos hd, Nat.toDigits_of_lt_base hd,
          List.append_assoc]

lemma foldlM_lt {s : Text} {m n : ℕ} (hm : m < 65536) (h : s.foldlM push m = some n) : n < 65536 := by
  induction s generalizing m with
  | nil =>
    cases h
    exact hm
  | cons c s ih =>
    rw [List.foldlM_cons] at h
    obtain ⟨k, hk, h⟩ := Option.bind_eq_some_iff.mp h
    obtain ⟨d, -, -, -, hlt⟩ := push_eq_some hk
    exact ih hlt h

lemma foldlM_replicate (zeros : ℕ) (s : Text) :
    (List.replicate zeros '0' ++ s).foldlM push 0 = s.foldlM push 0 := by
  induction zeros with
  | zero => rfl
  | succ zeros ih => exact ih

lemma stripPlus_append {sign s : Text} (hsign : sign = [] ∨ sign = ['+']) (h : '+' ∉ s) :
    stripPlus (sign ++ s) = s := by
  rcases hsign with rfl | rfl
  · exact stripPlus_of_not_mem h
  · rfl

lemma exists_sign (s : Text) : ∃ sign, (sign = [] ∨ sign = ['+']) ∧ s = sign ++ stripPlus s := by
  unfold stripPlus
  split
  next rest => exact ⟨['+'], .inr rfl, rfl⟩
  next => exact ⟨[], .inl rfl, rfl⟩

/-- **Which texts are ports.** -/
theorem parseU16_eq_some_iff (s : Text) (port : UInt16) :
    parseU16 s = some port ↔ Numeral port s := by
  change (if stripPlus s = [] then none
    else ((stripPlus s).foldlM push 0).map UInt16.ofNat) = some port ↔ _
  constructor
  · intro h
    split_ifs at h with hne
    obtain ⟨n, hn, rfl⟩ := Option.map_eq_some_iff.mp h
    obtain ⟨sign, hsign, hs⟩ := exists_sign s
    obtain ⟨zeros, hz⟩ := foldlM_push hne hn
    have hlt : n < 65536 := foldlM_lt (by decide) hn
    refine ⟨sign, zeros, hsign, ?_⟩
    rw [portText, UInt16.toNat_ofNat_of_lt' hlt, ← hz]
    exact hs
  · rintro ⟨sign, zeros, hsign, rfl⟩
    have hplus : '+' ∉ List.replicate zeros '0' ++ portText port := by
      rw [List.mem_append, not_or]
      exact ⟨fun h => absurd (List.eq_of_mem_replicate h) (by decide),
        not_mem_portText (by decide) port⟩
    have hne : List.replicate zeros '0' ++ portText port ≠ [] :=
      List.append_ne_nil_of_right_ne_nil _ Nat.toDigits_ne_nil
    rw [stripPlus_append hsign hplus, if_neg hne, foldlM_replicate, portText,
      foldlM_toDigits port.toNat_lt, Option.map_some, UInt16.ofNat_toNat]

/-- **A port is parsed back.** -/
theorem parseU16_portText (port : UInt16) : parseU16 (portText port) = some port :=
  (parseU16_eq_some_iff _ port).mpr ⟨[], 0, .inl rfl, rfl⟩

/-! ### Splitting -/

lemma splitOnce_append {c : Char} {front : Text} (h : c ∉ front) (back : Text) :
    splitOnce c (front ++ c :: back) = some (front, back) := by
  have hspan : (front ++ c :: back).span (· ≠ c) = (front, c :: back) := by
    rw [List.span_eq_takeWhile_dropWhile]
    have hall : ∀ x ∈ front, decide (x ≠ c) = true := fun x hx =>
      decide_eq_true fun he => h (he ▸ hx)
    rw [List.takeWhile_append_of_pos hall, List.dropWhile_append_of_pos hall]
    simp
  unfold splitOnce
  rw [hspan]

lemma splitOnce_none {c : Char} {s : Text} (h : c ∉ s) : splitOnce c s = none := by
  have hspan : s.span (· ≠ c) = (s, []) := by
    rw [List.span_eq_takeWhile_dropWhile]
    have hall : ∀ x ∈ s, decide (x ≠ c) = true := fun x hx => decide_eq_true fun he => h (he ▸ hx)
    rw [List.takeWhile_eq_self_iff.mpr hall, List.dropWhile_eq_nil_iff.mpr hall]
  unfold splitOnce
  rw [hspan]

lemma rsplitOnce_append {c : Char} {back : Text} (h : c ∉ back) (front : Text) :
    rsplitOnce c (front ++ c :: back) = some (front, back) := by
  have hreverse : (front ++ c :: back).reverse = back.reverse ++ c :: front.reverse := by simp
  unfold rsplitOnce
  rw [hreverse, splitOnce_append (by simpa using h)]
  simp

lemma rsplitOnce_none {c : Char} {s : Text} (h : c ∉ s) : rsplitOnce c s = none := by
  unfold rsplitOnce
  rw [splitOnce_none (by simpa using h)]
  rfl

lemma exists_last {c : Char} {s : Text} (h : c ∈ s) :
    ∃ front back, s = front ++ c :: back ∧ c ∉ back := by
  obtain ⟨back, front, hs, hback⟩ := List.eq_append_cons_of_mem (List.mem_reverse.mpr h)
  have hreverse := congrArg List.reverse hs
  exact ⟨front.reverse, back.reverse, by simpa using hreverse, by simpa using hback⟩

lemma splitOnce_eq_some {c : Char} {s front back : Text} (h : splitOnce c s = some (front, back)) :
    s = front ++ c :: back ∧ c ∉ front := by
  by_cases hc : c ∈ s
  · obtain ⟨front', back', rfl, hfront⟩ := List.eq_append_cons_of_mem hc
    rw [splitOnce_append hfront] at h
    cases h
    exact ⟨rfl, hfront⟩
  · rw [splitOnce_none hc] at h
    cases h

lemma rsplitOnce_eq_some {c : Char} {s front back : Text} (h : rsplitOnce c s = some (front, back)) :
    s = front ++ c :: back ∧ c ∉ back := by
  obtain ⟨⟨x, y⟩, hxy, h⟩ := Option.map_eq_some_iff.mp h
  cases h
  obtain ⟨hs, hx⟩ := splitOnce_eq_some hxy
  refine ⟨?_, by simpa using hx⟩
  have hreverse := congrArg List.reverse hs
  simpa using hreverse

/-! ### Authorities -/

lemma splitAuthority_of_head {authority : Text} (h : authority.head? ≠ some '[') (d : UInt16) :
    splitAuthority authority d =
      match rsplitOnce ':' authority with
      | some (host, port) =>
        match parseU16 port with
        | some port => (toAsciiLowercase host, port)
        | none => (toAsciiLowercase authority, d)
      | none => (toAsciiLowercase authority, d) := by
  unfold splitAuthority
  split
  next rest => exact absurd rfl h
  next => rfl

lemma head?_append_cons {s t : Text} {c : Char} (hc : c ≠ '[') :
    (s ++ c :: t).head? = some '[' ↔ s.head? = some '[' := by
  cases s with
  | nil => simp [hc]
  | cons c s => rfl

lemma splitAuthority_host {host : Text} (hhead : host.head? ≠ some '[') (hcolon : ':' ∉ host)
    (d : UInt16) : splitAuthority host d = (toAsciiLowercase host, d) := by
  rw [splitAuthority_of_head hhead, rsplitOnce_none hcolon]

lemma splitAuthority_port {host : Text} (hhead : host.head? ≠ some '[') (port d : UInt16) :
    splitAuthority (host ++ ':' :: portText port) d = (toAsciiLowercase host, port) := by
  have hhead' : (host ++ ':' :: portText port).head? ≠ some '[' :=
    mt (head?_append_cons (by decide)).mp hhead
  rw [splitAuthority_of_head hhead', rsplitOnce_append (not_mem_portText (by decide) port)]
  simp only [parseU16_portText]

lemma splitAuthority_brackets {host : Text} (h : ']' ∉ host) (d : UInt16) :
    splitAuthority ('[' :: (host ++ [']'])) d = (toAsciiLowercase host, d) := by
  simp only [splitAuthority, splitOnce_append h, Option.getD_some]

lemma splitAuthority_brackets_port {host : Text} (h : ']' ∉ host) (port d : UInt16) :
    splitAuthority ('[' :: (host ++ ']' :: ':' :: portText port)) d =
      (toAsciiLowercase host, port) := by
  simp only [splitAuthority, splitOnce_append h, Option.getD_some, parseU16_portText]

/-- **Rendering a destination and splitting it** gives it back up to case, with a port or
without, in brackets or not; brackets are for hosts with colons in them. -/
theorem splitAuthority_render (host : Text) (d : UInt16) :
    (':' ∉ host → host.head? ≠ some '[' → splitAuthority host d = (toAsciiLowercase host, d) ∧
      ∀ port, splitAuthority (host ++ ':' :: portText port) d = (toAsciiLowercase host, port)) ∧
    (']' ∉ host → splitAuthority ('[' :: (host ++ [']'])) d = (toAsciiLowercase host, d) ∧
      ∀ port, splitAuthority ('[' :: (host ++ ']' :: ':' :: portText port)) d =
        (toAsciiLowercase host, port)) :=
  ⟨fun hcolon hhead => ⟨splitAuthority_host hhead hcolon d, fun port => splitAuthority_port hhead port d⟩,
    fun h => ⟨splitAuthority_brackets h d, fun port => splitAuthority_brackets_port h port d⟩⟩

/-! ### What is lost of an authority -/

/-- The authority is the host or the bracketed host, for the default port, or one of them with
the port, up to case. -/
inductive Accounts (authority : Text) (d : UInt16) : Text × UInt16 → Prop
  | host {host} (h : toAsciiLowercase authority = toAsciiLowercase host) :
    Accounts authority d (host, d)
  | brackets {host} (h : toAsciiLowercase authority = toAsciiLowercase ('[' :: (host ++ [']']))) :
    Accounts authority d (host, d)
  | port {host num port} (hnum : Numeral port num)
    (h : toAsciiLowercase authority = toAsciiLowercase (host ++ ':' :: num)) :
    Accounts authority d (host, port)
  | bracketsPort {host num port} (hnum : Numeral port num)
    (h : toAsciiLowercase authority = toAsciiLowercase ('[' :: (host ++ ']' :: ':' :: num))) :
    Accounts authority d (host, port)

/-- An opening bracket at the front is closed, and behind the first closing bracket there is
nothing, or a colon and a port. -/
def WholeBrackets (authority : Text) : Prop :=
  ∀ rest, authority = '[' :: rest → ∃ host tail, rest = host ++ ']' :: tail ∧ ']' ∉ host ∧
    (tail = [] ∨ ∃ num port, tail = ':' :: num ∧ Numeral port num)

lemma toAsciiLowercase_append (s t : Text) :
    toAsciiLowercase (s ++ t) = toAsciiLowercase s ++ toAsciiLowercase t := List.map_append

lemma toAsciiLowercase_cons {c : Char} (h : c.isAlpha = false) (s : Text) :
    toAsciiLowercase (c :: s) = c :: toAsciiLowercase s := by
  rw [toAsciiLowercase, List.map_cons, (toLower_eq_iff h c).mpr rfl]
  rfl

/-- A text without letters is the only one it is compared equal to. -/
lemma eq_of_toAsciiLowercase {s t : Text} (h : toAsciiLowercase s = toAsciiLowercase t)
    (ht : ∀ c ∈ t, c.isAlpha = false) : s = t := by
  induction t generalizing s with
  | nil => exact List.map_eq_nil_iff.mp h
  | cons c t ih =>
    have hc := ht c List.mem_cons_self
    rw [toAsciiLowercase_cons hc] at h
    obtain ⟨c', s, rfl, hc', h⟩ := List.map_eq_cons_iff.mp h
    rw [(toLower_eq_iff hc c').mp hc', ih h fun x hx => ht x (List.mem_cons_of_mem c hx)]

lemma not_alpha_of_isDigit {c : Char} (h : c.isDigit = true) : c.isAlpha = false := by
  obtain ⟨hlo, hhi⟩ := Char.isDigit_iff_toNat.mp h
  have hzero : 48 ≤ c.toNat := hlo
  have hnine : c.toNat ≤ 57 := hhi
  rw [isAlpha_eq_false]
  omega

lemma Numeral.chars {port : UInt16} {s : Text} (h : Numeral port s) :
    ∀ c ∈ s, c = '+' ∨ c.isDigit = true := by
  obtain ⟨sign, zeros, hsign, rfl⟩ := h
  intro c hc
  rcases List.mem_append.mp hc with hc | hc
  · rcases hsign with rfl | rfl
    · cases hc
    · exact .inl (List.mem_singleton.mp hc)
  · rcases List.mem_append.mp hc with hc | hc
    · rw [List.eq_of_mem_replicate hc]
      exact .inr (by decide)
    · exact .inr (Nat.isDigit_of_mem_toDigits (by decide) (by decide) hc)

lemma Numeral.not_alpha {port : UInt16} {s : Text} (h : Numeral port s) :
    ∀ c ∈ s, c.isAlpha = false := by
  intro c hc
  rcases h.chars c hc with rfl | hdigit
  · decide
  · exact not_alpha_of_isDigit hdigit

lemma bracket_cons_ne (x y z : Text) : '[' :: (x ++ y) ≠ x ++ ':' :: z := by
  induction x with
  | nil => simp
  | cons c x ih =>
    intro h
    obtain ⟨rfl, h⟩ := List.cons_eq_cons.mp h
    exact ih h

/-- An authority that carries, behind its last colon, text that is no port does not come back as
the host before it with the default port. -/
def KeepsBadPort (authority : Text) (d : UInt16) : Prop :=
  ∀ host num, ':' ∉ num → (∀ port, ¬ Numeral port num) →
    (authority = host ++ ':' :: num → splitAuthority authority d ≠ (toAsciiLowercase host, d)) ∧
    (']' ∉ host → authority = '[' :: (host ++ ']' :: ':' :: num) →
      splitAuthority authority d ≠ (toAsciiLowercase host, d))

/-- The port behind a closing bracket. -/
def tailPort (tail : Text) (d : UInt16) : UInt16 :=
  match tail with
  | ':' :: num => (parseU16 num).getD d
  | _ => d

lemma splitAuthority_tail {host tail : Text} (h : ']' ∉ host) (d : UInt16) :
    splitAuthority ('[' :: (host ++ ']' :: tail)) d = (toAsciiLowercase host, tailPort tail d) := by
  simp only [splitAuthority, splitOnce_append h, Option.getD_some]
  rfl

lemma splitAuthority_unclosed {rest : Text} (h : ']' ∉ rest) (d : UInt16) :
    splitAuthority ('[' :: rest) d = (toAsciiLowercase rest, d) := by
  simp only [splitAuthority, splitOnce_none h, Option.getD_none]

/-- An authority has no bracket at its front, one that is closed, or one that is not. -/
inductive Shape : Text → Prop
  | plain {authority} (hhead : authority.head? ≠ some '[') : Shape authority
  | closed {host} (tail : Text) (hhost : ']' ∉ host) : Shape ('[' :: (host ++ ']' :: tail))
  | unclosed {rest} (hrest : ']' ∉ rest) : Shape ('[' :: rest)

lemma shape (authority : Text) : Shape authority := by
  by_cases hhead : authority.head? = some '['
  · cases authority with
    | nil => cases hhead
    | cons c rest =>
      cases hhead
      by_cases hclose : ']' ∈ rest
      · obtain ⟨host, tail, rfl, hhost⟩ := List.eq_append_cons_of_mem hclose
        exact .closed tail hhost
      · exact .unclosed hclose
  · exact .plain hhead

lemma accounts_plain {authority : Text} (hhead : authority.head? ≠ some '[') (d : UInt16) :
    Accounts authority d (splitAuthority authority d) := by
  have hwhole : Accounts authority d (toAsciiLowercase authority, d) :=
    .host (toAsciiLowercase_idem authority).symm
  rw [splitAuthority_of_head hhead]
  cases hsplit : rsplitOnce ':' authority with
  | none => exact hwhole
  | some parts =>
    obtain ⟨host, num⟩ := parts
    obtain ⟨rfl, -⟩ := rsplitOnce_eq_some hsplit
    cases hport : parseU16 num with
    | none =>
      simp only [hport]
      exact hwhole
    | some port =>
      simp only [hport]
      refine .port ((parseU16_eq_some_iff num port).mp hport) ?_
      rw [toAsciiLowercase_append, toAsciiLowercase_append, toAsciiLowercase_idem]

lemma accounts_brackets {host tail : Text} (hhost : ']' ∉ host)
    (htail : tail = [] ∨ ∃ num port, tail = ':' :: num ∧ Numeral port num) (d : UInt16) :
    Accounts ('[' :: (host ++ ']' :: tail)) d (splitAuthority ('[' :: (host ++ ']' :: tail)) d) := by
  have hcase : ∀ t : Text, toAsciiLowercase ('[' :: (host ++ t)) =
      toAsciiLowercase ('[' :: (toAsciiLowercase host ++ t)) := by
    intro t
    rw [toAsciiLowercase_cons (by decide), toAsciiLowercase_cons (by decide),
      toAsciiLowercase_append, toAsciiLowercase_append, toAsciiLowercase_idem]
  rw [splitAuthority_tail hhost]
  rcases htail with rfl | ⟨num, port, rfl, hnum⟩
  · exact .brackets (hcase _)
  · simp only [tailPort, (parseU16_eq_some_iff num port).mpr hnum, Option.getD_some]
    exact .bracketsPort hnum (hcase _)

/-- What is accounted for in an authority with a bracket at its front is in brackets. -/
lemma brackets_of_accounts {rest host : Text} {d port : UInt16} {t : Text}
    (h : Accounts ('[' :: rest) d (toAsciiLowercase host, port)) (hrest : rest = host ++ t) :
    toAsciiLowercase t = [']'] ∨
      ∃ num port, Numeral port num ∧ toAsciiLowercase t = ']' :: ':' :: toAsciiLowercase num := by
  have hlower : toAsciiLowercase ('[' :: rest) =
      '[' :: (toAsciiLowercase host ++ toAsciiLowercase t) := by
    rw [hrest, toAsciiLowercase_cons (by decide), toAsciiLowercase_append]
  generalize hdest : (toAsciiLowercase host, port) = dest at h
  cases h with
  | host h =>
    cases hdest
    rw [hlower, toAsciiLowercase_idem] at h
    have hlen := congrArg List.length h
    simp only [List.length_cons, List.length_append] at hlen
    omega
  | brackets h =>
    cases hdest
    rw [hlower, toAsciiLowercase_cons (by decide), toAsciiLowercase_append,
      toAsciiLowercase_idem] at h
    exact .inl (List.append_cancel_left (List.cons_injective h))
  | @port host' num port' hnum h =>
    cases hdest
    rw [hlower, toAsciiLowercase_append, toAsciiLowercase_idem,
      toAsciiLowercase_cons (by decide)] at h
    exact absurd h (bracket_cons_ne _ _ _)
  | @bracketsPort host' num port' hnum h =>
    cases hdest
    rw [hlower, toAsciiLowercase_cons (by decide), toAsciiLowercase_append,
      toAsciiLowercase_idem, toAsciiLowercase_cons (by decide), toAsciiLowercase_cons (by decide)] at h
    exact .inr ⟨num, port, hnum, List.append_cancel_left (List.cons_injective h)⟩

lemma wholeBrackets_of_accounts {authority : Text} {d : UInt16}
    (h : Accounts authority d (splitAuthority authority d)) : WholeBrackets authority := by
  rintro rest rfl
  by_cases hclose : ']' ∈ rest
  · obtain ⟨host, tail, rfl, hhost⟩ := List.eq_append_cons_of_mem hclose
    rw [splitAuthority_tail hhost] at h
    refine ⟨host, tail, rfl, hhost, ?_⟩
    rcases brackets_of_accounts h rfl with he | ⟨num, port, hnum, he⟩
    · rw [toAsciiLowercase_cons (by decide)] at he
      exact .inl (List.map_eq_nil_iff.mp (List.cons_injective he))
    · rw [toAsciiLowercase_cons (by decide)] at he
      obtain ⟨c, num', rfl, hc, he⟩ := List.map_eq_cons_iff.mp (List.cons_injective he)
      have hcolon : c = ':' := (toLower_eq_iff (by decide) c).mp hc
      have hsame : num' = num := eq_of_toAsciiLowercase he hnum.not_alpha
      exact .inr ⟨num, port, by rw [hcolon, hsame], hnum⟩
  · rw [splitAuthority_unclosed hclose] at h
    rcases brackets_of_accounts h (List.append_nil rest).symm with he | ⟨num, port, -, he⟩ <;> cases he

/-- Behind whole brackets there is no text that is no port. -/
lemma not_wholeBrackets {host num : Text} (hhost : ']' ∉ host) (hnum : ∀ port, ¬ Numeral port num) :
    ¬ WholeBrackets ('[' :: (host ++ ']' :: ':' :: num)) := by
  intro h
  obtain ⟨inner, tail, he, hinner, htail⟩ := h _ rfl
  have hsame := splitOnce_append hhost (':' :: num)
  rw [he, splitOnce_append hinner] at hsame
  cases hsame
  rcases htail with hnil | ⟨num', port, htail, hport⟩
  · cases hnil
  · cases htail
    exact hnum port hport

lemma keepsBadPort_of_wholeBrackets {authority : Text} (h : WholeBrackets authority) (d : UInt16) :
    KeepsBadPort authority d := by
  intro host num hcolon hnum
  have hbad : parseU16 num = none := by
    cases hport : parseU16 num with
    | none => rfl
    | some port => exact absurd ((parseU16_eq_some_iff num port).mp hport) (hnum port)
  constructor
  · rintro rfl hsplit
    by_cases hhead : (host ++ ':' :: num).head? = some '['
    · obtain ⟨rest, hrest⟩ : ∃ rest, host ++ ':' :: num = '[' :: rest := by
        cases hlist : host ++ ':' :: num with
        | nil => rw [hlist] at hhead; cases hhead
        | cons c rest => rw [hlist] at hhead; cases hhead; exact ⟨rest, rfl⟩
      obtain ⟨inner, tail, rfl, hinner, -⟩ := h rest hrest
      rw [hrest, splitAuthority_tail hinner] at hsplit
      have hsame : toAsciiLowercase inner = toAsciiLowercase host := (Prod.ext_iff.mp hsplit).1
      have hlower := congrArg toAsciiLowercase hrest
      rw [toAsciiLowercase_append, toAsciiLowercase_cons (by decide) num,
        toAsciiLowercase_cons (by decide), toAsciiLowercase_append, hsame] at hlower
      exact bracket_cons_ne _ _ _ hlower.symm
    · rw [splitAuthority_of_head hhead, rsplitOnce_append hcolon] at hsplit
      simp only [hbad] at hsplit
      have hlen := congrArg List.length (Prod.ext_iff.mp hsplit).1
      simp [toAsciiLowercase] at hlen
  · rintro hhost rfl -
    exact not_wholeBrackets hhost hnum h

/-- **What an authority loses.** It is accounted for by the host and port it is split into, and
a port that is no port is not lost, exactly if a bracket at its front is closed and nothing but a
port follows. -/
theorem splitAuthority_accounts_iff (authority : Text) (d : UInt16) :
    (Accounts authority d (splitAuthority authority d) ∧ KeepsBadPort authority d) ↔
      WholeBrackets authority := by
  refine ⟨fun h => wholeBrackets_of_accounts h.1, fun h => ⟨?_, keepsBadPort_of_wholeBrackets h d⟩⟩
  by_cases hhead : authority.head? = some '['
  · cases authority with
    | nil => cases hhead
    | cons c rest =>
      cases hhead
      obtain ⟨host, tail, rfl, hhost, htail⟩ := h rest rfl
      exact accounts_brackets hhost htail d
  · exact accounts_plain hhead d

/-- A port that is out of range is dropped behind brackets, and the default is used instead. -/
theorem badPort_lost :
    splitAuthority "[::1]:99999".toList 443 = ("::1".toList, 443) ∧
      ¬ Accounts "[::1]:99999".toList 443 (splitAuthority "[::1]:99999".toList 443) ∧
      ¬ KeepsBadPort "[::1]:99999".toList 443 := by
  have hauthority : "[::1]:99999".toList = '[' :: ("::1".toList ++ ']' :: ':' :: "99999".toList) := by
    decide +kernel
  have hsplit : splitAuthority "[::1]:99999".toList 443 = ("::1".toList, 443) := by decide +kernel
  have hhost : ']' ∉ "::1".toList := by decide +kernel
  have hbad : ∀ port, ¬ Numeral port "99999".toList := by
    intro port hport
    have hnone : parseU16 "99999".toList = none := by decide +kernel
    rw [(parseU16_eq_some_iff _ port).mpr hport] at hnone
    cases hnone
  refine ⟨hsplit, fun h => ?_, fun h => ?_⟩
  · have hwhole := wholeBrackets_of_accounts h
    rw [hauthority] at hwhole
    exact not_wholeBrackets hhost hbad hwhole
  · exact (h "::1".toList "99999".toList (by decide +kernel) hbad).2 hhost hauthority hsplit

/-! ### Case and characters -/

lemma mem_toAsciiLowercase {c : Char} (hc : c.isAlpha = false) {s : Text} :
    c ∈ toAsciiLowercase s ↔ c ∈ s := by
  constructor
  · intro h
    obtain ⟨c', hc', hlower⟩ := List.mem_map.mp h
    rwa [← (toLower_eq_iff hc c').mp hlower]
  · intro h
    exact List.mem_map.mpr ⟨c, h, (toLower_eq_iff hc c).mpr rfl⟩

lemma mem_splitAuthority {authority : Text} {d : UInt16} {c : Char} (hc : c.isAlpha = false)
    (h : c ∈ (splitAuthority authority d).1) : c ∈ authority := by
  cases shape authority with
  | closed tail hhost =>
    rw [splitAuthority_tail hhost] at h
    exact List.mem_cons_of_mem _ (List.mem_append_left _ ((mem_toAsciiLowercase hc).mp h))
  | unclosed hrest =>
    rw [splitAuthority_unclosed hrest] at h
    exact List.mem_cons_of_mem _ ((mem_toAsciiLowercase hc).mp h)
  | plain hhead =>
    rw [splitAuthority_of_head hhead] at h
    cases hsplit : rsplitOnce ':' authority with
    | none =>
      rw [hsplit] at h
      exact (mem_toAsciiLowercase hc).mp h
    | some parts =>
      obtain ⟨host, num⟩ := parts
      obtain ⟨rfl, -⟩ := rsplitOnce_eq_some hsplit
      rw [hsplit] at h
      cases hport : parseU16 num with
      | none =>
        simp only [hport] at h
        exact (mem_toAsciiLowercase hc).mp h
      | some port =>
        simp only [hport] at h
        exact List.mem_append_left _ ((mem_toAsciiLowercase hc).mp h)

lemma parseU16_toAsciiLowercase (s : Text) : parseU16 (toAsciiLowercase s) = parseU16 s := by
  refine Option.ext fun port => ?_
  rw [parseU16_eq_some_iff, parseU16_eq_some_iff]
  constructor
  · intro h
    rwa [eq_of_toAsciiLowercase (toAsciiLowercase_idem s).symm h.not_alpha]
  · intro h
    have hsame : toAsciiLowercase s = s :=
      eq_of_toAsciiLowercase (toAsciiLowercase_idem s) h.not_alpha
    rwa [hsame]

lemma rsplitOnce_toAsciiLowercase {c : Char} (hc : c.isAlpha = false) (s : Text) :
    rsplitOnce c (toAsciiLowercase s) =
      (rsplitOnce c s).map fun p => (toAsciiLowercase p.1, toAsciiLowercase p.2) := by
  by_cases hmem : c ∈ s
  · obtain ⟨front, back, rfl, hback⟩ := exists_last hmem
    rw [toAsciiLowercase_append, toAsciiLowercase_cons hc, rsplitOnce_append hback,
      rsplitOnce_append (mt (mem_toAsciiLowercase hc).mp hback), Option.map_some]
  · rw [rsplitOnce_none hmem, rsplitOnce_none (mt (mem_toAsciiLowercase hc).mp hmem), Option.map_none]

lemma tailPort_toAsciiLowercase (tail : Text) (d : UInt16) :
    tailPort (toAsciiLowercase tail) d = tailPort tail d := by
  cases tail with
  | nil => rfl
  | cons c num =>
    by_cases hc : c = ':'
    · subst hc
      rw [toAsciiLowercase_cons (by decide), tailPort, tailPort, parseU16_toAsciiLowercase]
    · have hc' : c.toLower ≠ ':' := mt (toLower_eq_iff (by decide) c).mp hc
      simp [tailPort, toAsciiLowercase, hc, hc']

lemma head?_toAsciiLowercase {c : Char} (hc : c.isAlpha = false) (s : Text) :
    (toAsciiLowercase s).head? = some c ↔ s.head? = some c := by
  cases s with
  | nil => rfl
  | cons b s => simp [toAsciiLowercase, toLower_eq_iff hc]

lemma splitAuthority_toAsciiLowercase (authority : Text) (d : UInt16) :
    splitAuthority (toAsciiLowercase authority) d = splitAuthority authority d := by
  cases shape authority with
  | closed tail hhost =>
    rw [toAsciiLowercase_cons (by decide), toAsciiLowercase_append, toAsciiLowercase_cons (by decide),
      splitAuthority_tail hhost, splitAuthority_tail (mt (mem_toAsciiLowercase (by decide)).mp hhost),
      toAsciiLowercase_idem, tailPort_toAsciiLowercase]
  | unclosed hrest =>
    rw [toAsciiLowercase_cons (by decide), splitAuthority_unclosed hrest,
      splitAuthority_unclosed (mt (mem_toAsciiLowercase (by decide)).mp hrest), toAsciiLowercase_idem]
  | plain hhead =>
    have hhead' : (toAsciiLowercase authority).head? ≠ some '[' :=
      mt (head?_toAsciiLowercase (by decide) authority).mp hhead
    rw [splitAuthority_of_head hhead, splitAuthority_of_head hhead',
      rsplitOnce_toAsciiLowercase (by decide)]
    cases rsplitOnce ':' authority with
    | none => simp
    | some parts =>
      simp only [Option.map_some, parseU16_toAsciiLowercase]
      cases parseU16 parts.2 <;> simp

end Wiretally.Authority
