import Wiretally.HostKeys
import Wiretally.Lib.Decimal
import Wiretally.Resolve
import Wiretally.Udp

/-!
Addresses as text, read back.

A destination given as an address is recorded under its text, and it is this text that is parsed
when the run is over. The text is that of no other address and is read back, compressed runs of
zeros and dotted tails included, so the reverse lookup is made for the address that was asked
for.
-/

namespace Wiretally.IpText

open Wiretally.Lib Wiretally.Lib.Tcp Wiretally.Net Wiretally.Stats Wiretally.HostKeys
open Wiretally.Socks

/-! ### Numbers -/

def Radix (radix : ℕ) : Prop := radix = 10 ∨ radix = 16

lemma Radix.one_lt {radix : ℕ} (h : Radix radix) : 1 < radix := by
  rcases h with rfl | rfl <;> decide

lemma toDigit_digitChar {radix d : ℕ} (h : Radix radix) (hd : d < radix) :
    toDigit radix d.digitChar = some d := by
  have hten : ∀ d < 10, toDigit 10 (Nat.digitChar d) = some d := by decide
  have hsixteen : ∀ d < 16, toDigit 16 (Nat.digitChar d) = some d := by decide
  rcases h with rfl | rfl
  · exact hten d hd
  · exact hsixteen d hd

lemma isSome_of_mem_toDigits {radix n : ℕ} (h : Radix radix) {c : Char}
    (hc : c ∈ Nat.toDigits radix n) : (toDigit radix c).isSome = true := by
  obtain ⟨d, hd, rfl⟩ := mem_toDigits h.one_lt hc
  rw [toDigit_digitChar h hd]
  rfl

def digitsValue (radix : ℕ) (digits : Text) : ℕ :=
  digits.foldl (fun n c => n * radix + (toDigit radix c).getD 0) 0

lemma digitsValue_toDigits {radix : ℕ} (h : Radix radix) (n : ℕ) :
    digitsValue radix (Nat.toDigits radix n) = n := by
  induction n using Nat.strongRecOn with
  | ind n ih =>
    rw [Nat.toDigits_eq_if h.one_lt]
    split_ifs with hn
    · simp [digitsValue, toDigit_digitChar h hn]
    · have hpos : 0 < n := by have := h.one_lt; omega
      have hrest := ih (n / radix) (Nat.div_lt_self hpos h.one_lt)
      have hlast := toDigit_digitChar h (Nat.mod_lt n (Nat.zero_lt_of_lt h.one_lt))
      rw [digitsValue, List.foldl_append]
      change digitsValue radix _ * radix + _ = n
      rw [hrest, hlast, Option.getD_some]
      exact Nat.div_add_mod' n radix

/-- A number ends where `rest` begins. -/
def Stops (radix : ℕ) (rest : Text) : Prop := ∀ c ∈ rest.head?, toDigit radix c = none

lemma stops_nil (radix : ℕ) : Stops radix [] := by
  rintro c ⟨⟩

lemma stops_cons {radix : ℕ} {c : Char} (h : toDigit radix c = none) (rest : Text) :
    Stops radix (c :: rest) := by
  rintro _ ⟨⟩
  exact h

lemma takeWhile_digits {radix n : ℕ} (h : Radix radix) {rest : Text} (hrest : Stops radix rest) :
    (Nat.toDigits radix n ++ rest).takeWhile (fun c => (toDigit radix c).isSome) =
      Nat.toDigits radix n := by
  rw [List.takeWhile_append_of_pos fun c hc => isSome_of_mem_toDigits h hc]
  cases rest with
  | nil => simp
  | cons c rest =>
    have hc : toDigit radix c = none := hrest c rfl
    simp [hc]

/-- **A number is read back**, up to where it ends. -/
theorem readNumber_toDigits {radix maxDigits bound n : ℕ} (h : Radix radix) (allow : Bool)
    (hmax : 0 < maxDigits) (hlen : n < radix ^ maxDigits) (hbound : n ≤ bound) {rest : Text}
    (hrest : Stops radix rest) :
    readNumber radix maxDigits bound allow (Nat.toDigits radix n ++ rest) = some (n, rest) := by
  have hdigits := (Nat.length_toDigits_le_iff h.one_lt hmax).mpr hlen
  have hne : (Nat.toDigits radix n).length ≠ 0 := by
    have : 0 < (Nat.toDigits radix n).length := Nat.length_toDigits_pos
    omega
  have hlead : ¬ (!allow ∧ (Nat.toDigits radix n).head? = some '0' ∧
      1 < (Nat.toDigits radix n).length) := by
    rintro ⟨-, hzero, hlong⟩
    by_cases hn : n = 0
    · subst hn
      rw [Nat.toDigits_zero] at hlong
      exact absurd hlong (by decide)
    · exact Decimal.head_toDigits h.one_lt hn hzero
  have hvalue := digitsValue_toDigits h n
  unfold digitsValue at hvalue
  unfold readNumber
  dsimp only
  rw [takeWhile_digits h hrest, if_neg (by omega), if_neg hlead, hvalue,
    if_neg (Nat.not_lt.mpr hbound), List.drop_left]

lemma readNumber_stops {radix maxDigits bound : ℕ} {allow : Bool} {s : Text} (h : Stops radix s) :
    readNumber radix maxDigits bound allow s = none := by
  have hnone : s.takeWhile (fun c => (toDigit radix c).isSome) = [] := by
    cases s with
    | nil => rfl
    | cons c s =>
      have hc : toDigit radix c = none := h c rfl
      simp [hc]
  unfold readNumber
  dsimp only
  rw [hnone]
  rfl

lemma suffix_of_readNumber {radix maxDigits bound n : ℕ} {allow : Bool} {s rest : Text}
    (h : readNumber radix maxDigits bound allow s = some (n, rest)) : rest <:+ s := by
  unfold readNumber at h
  dsimp only at h
  split_ifs at h
  cases h
  exact List.drop_suffix _ _

/-! ### IPv4 -/

lemma readOctet_toDigits (b : UInt8) {rest : Text} (hrest : Stops 10 rest) :
    readOctet (Nat.toDigits 10 b.toNat ++ rest) = some (b.toNat, rest) := by
  have hb := b.toNat_lt
  exact readNumber_toDigits (.inl rfl) false (by decide) (by omega) (by omega) hrest

lemma readGivenChar_cons (c : Char) (rest : Text) : readGivenChar c (c :: rest) = some rest :=
  if_pos rfl

/-- **A dotted address is read back.** -/
theorem readIpv4_dotted (o : List.Vector UInt8 4) {rest : Text} (hrest : Stops 10 rest) :
    readIpv4 (dotted o.val ++ rest) = some (o, rest) := by
  obtain ⟨octets, hlen⟩ := o
  obtain ⟨a, b, c, d, rfl⟩ : ∃ a b c d, octets = [a, b, c, d] := by
    match octets, hlen with
    | [a, b, c, d], _ => exact ⟨a, b, c, d, rfl⟩
  have hdot : ∀ rest, Stops 10 ('.' :: rest) := stops_cons (by decide)
  have htext : dotted [a, b, c, d] ++ rest = Nat.toDigits 10 a.toNat ++ '.' ::
      (Nat.toDigits 10 b.toNat ++ '.' :: (Nat.toDigits 10 c.toNat ++ '.' ::
        (Nat.toDigits 10 d.toNat ++ rest))) := by
    simp [dotted, List.intercalate]
  unfold readIpv4
  rw [htext]
  simp only [readOctet_toDigits _ (hdot _), readOctet_toDigits d hrest, readGivenChar_cons,
    Option.bind_eq_bind, Option.bind_some, List.map_cons, List.map_nil, UInt8.ofNat_toNat]

/-- A text without a dot is no dotted address, nor does it begin with one. -/
lemma readIpv4_of_not_mem {s : Text} (h : '.' ∉ s) : readIpv4 s = none := by
  unfold readIpv4
  cases hread : readOctet s with
  | none => rfl
  | some p =>
    obtain ⟨a, rest⟩ := p
    have hdot : readGivenChar '.' rest = none := by
      have hmem : '.' ∉ rest := fun hm => h ((suffix_of_readNumber hread).mem hm)
      cases rest with
      | nil => rfl
      | cons c rest =>
        rw [readGivenChar, if_neg]
        rintro rfl
        exact hmem List.mem_cons_self
    simp only [Option.bind_eq_bind, Option.bind_some, hdot, Option.bind_none]

lemma readIpv4_stops {s : Text} (h : Stops 10 s) : readIpv4 s = none := by
  unfold readIpv4 readOctet
  rw [readNumber_stops h]
  rfl

/-! ### Groups -/

def moreGroups (groups : List ℕ) : Text := groups.flatMap fun g => ':' :: Nat.toDigits 16 g

lemma fmtSubslice_cons (g : ℕ) (groups : List ℕ) :
    fmtSubslice (g :: groups) = Nat.toDigits 16 g ++ moreGroups groups := by
  induction groups generalizing g with
  | nil => simp [fmtSubslice, moreGroups, List.intercalate]
  | cons g' groups ih =>
    have hsplit : fmtSubslice (g :: g' :: groups) =
        Nat.toDigits 16 g ++ ':' :: fmtSubslice (g' :: groups) := rfl
    rw [hsplit, ih]
    rfl

lemma dot_not_mem_moreGroups (groups : List ℕ) : '.' ∉ moreGroups groups := by
  intro h
  obtain ⟨g, -, hg⟩ := List.mem_flatMap.mp h
  rcases List.mem_cons.mp hg with hc | hg
  · exact absurd hc (by decide)
  · exact dot_not_mem_toDigits (by decide) (by decide) g hg

/-- The groups of an address end with the text, or where zeros are left out. -/
def Ends (s : Text) : Prop := s = [] ∨ ∃ rest, s = ':' :: ':' :: rest

lemma colon_stops (radix : ℕ) (rest : Text) : Stops radix (':' :: rest) := by
  refine stops_cons ?_ rest
  have hnone : toDigit radix ':' = none := rfl
  exact hnone

lemma Ends.stops {s : Text} (h : Ends s) (radix : ℕ) : Stops radix s := by
  rcases h with rfl | ⟨rest, rfl⟩
  · exact stops_nil radix
  · exact colon_stops radix _

def separator (groups : List ℕ) : Text := if groups = [] then [] else [':']

lemma readGroups_group (left : ℕ) (groups : List ℕ) {g : ℕ} (hg : g < 65536) {rest : Text}
    (hrest : Stops 16 rest) (hv4 : readIpv4 (Nat.toDigits 16 g ++ rest) = none) :
    readGroups (left + 1) groups (separator groups ++ (Nat.toDigits 16 g ++ rest)) =
      readGroups left (groups ++ [g]) rest := by
  have hfield : (if groups = [] then some (separator groups ++ (Nat.toDigits 16 g ++ rest))
      else readGivenChar ':' (separator groups ++ (Nat.toDigits 16 g ++ rest))) =
      some (Nat.toDigits 16 g ++ rest) := by
    unfold separator
    split_ifs
    · rfl
    · exact readGivenChar_cons ':' _
  have hnone : (if left = 0 then none else (some (Nat.toDigits 16 g ++ rest)).bind readIpv4) =
      none := by
    rw [Option.bind_some, hv4, ite_self]
  have hnum := @readNumber_toDigits 16 4 65535 g (.inr rfl) true (by decide) (by omega) (by omega) _
    hrest
  rw [readGroups]
  dsimp only
  rw [hfield, hnone]
  simp only [Option.bind_some, hnum]

lemma readGroups_ends (left : ℕ) (groups : List ℕ) {s : Text} (h : Ends s) :
    readGroups left groups s = (groups, false, s) := by
  cases left with
  | zero => rfl
  | succ left =>
    have hfield : ∀ t, (if groups = [] then some s else readGivenChar ':' s) = some t →
        Stops 10 t ∧ Stops 16 t := by
      intro t ht
      split_ifs at ht with hg
      · cases ht
        exact ⟨h.stops 10, h.stops 16⟩
      · rcases h with rfl | ⟨rest, rfl⟩
        · cases ht
        · rw [readGivenChar_cons] at ht
          cases ht
          exact ⟨colon_stops 10 rest, colon_stops 16 rest⟩
    rw [readGroups]
    dsimp only
    cases hf : if groups = [] then some s else readGivenChar ':' s with
    | none => simp
    | some t =>
      obtain ⟨h10, h16⟩ := hfield t hf
      simp only [Option.bind_some, readIpv4_stops h10, ite_self, readNumber_stops h16]

lemma readGroups_cons (left : ℕ) (groups : List ℕ) {g : ℕ} (hg : g < 65536) (more : List ℕ)
    {rest : Text} (hrest : Ends rest) (hdot : '.' ∉ rest) :
    readGroups (left + 1) groups
        (separator groups ++ (Nat.toDigits 16 g ++ (moreGroups more ++ rest))) =
      readGroups left (groups ++ [g]) (moreGroups more ++ rest) := by
  have hstops : Stops 16 (moreGroups more ++ rest) := by
    cases more with
    | nil => exact hrest.stops 16
    | cons g' more => exact colon_stops 16 _
  refine readGroups_group left groups hg hstops (readIpv4_of_not_mem ?_)
  simp only [List.mem_append, not_or]
  exact ⟨dot_not_mem_toDigits (by decide) (by decide) g, dot_not_mem_moreGroups more, hdot⟩

lemma readGroups_more {left : ℕ} {groups more : List ℕ} (hne : groups ≠ [])
    (hmore : ∀ g ∈ more, g < 65536) (hleft : more.length ≤ left) {rest : Text} (hrest : Ends rest)
    (hdot : '.' ∉ rest) :
    readGroups left groups (moreGroups more ++ rest) = (groups ++ more, false, rest) := by
  induction more generalizing left groups with
  | nil =>
    rw [List.append_nil]
    exact readGroups_ends left groups hrest
  | cons g more ih =>
    obtain ⟨left, rfl⟩ := Nat.exists_eq_add_one.mpr (Nat.lt_of_lt_of_le (Nat.succ_pos _) hleft)
    have htext : moreGroups (g :: more) ++ rest =
        separator groups ++ (Nat.toDigits 16 g ++ (moreGroups more ++ rest)) := by
      simp [moreGroups, separator, hne]
    rw [htext, readGroups_cons left groups (hmore g List.mem_cons_self) more hrest hdot,
      ih (List.append_ne_nil_of_right_ne_nil _ (List.cons_ne_nil _ _))
        (fun g' hg' => hmore g' (List.mem_cons_of_mem g hg')) (Nat.le_of_succ_le_succ hleft)]
    simp

/-- **Groups are read back**, up to where they end. -/
theorem readGroups_fmtSubslice (left : ℕ) {groups : List ℕ} (hgroups : ∀ g ∈ groups, g < 65536)
    (hleft : groups.length ≤ left) {rest : Text} (hrest : Ends rest) (hdot : '.' ∉ rest) :
    readGroups left [] (fmtSubslice groups ++ rest) = (groups, false, rest) := by
  cases groups with
  | nil => exact readGroups_ends left [] hrest
  | cons g more =>
    obtain ⟨left, rfl⟩ := Nat.exists_eq_add_one.mpr (Nat.lt_of_lt_of_le (Nat.succ_pos _) hleft)
    rw [fmtSubslice_cons, List.append_assoc]
    refine (readGroups_cons left [] (hgroups g List.mem_cons_self) more hrest hdot).trans ?_
    exact readGroups_more (List.cons_ne_nil g [])
      (fun g' hg' => hgroups g' (List.mem_cons_of_mem g hg')) (Nat.le_of_succ_le_succ hleft) hrest hdot

/-! ### Runs of zeros -/

/-- The groups in front of a run of zeros and those behind it. -/
def ZeroRun (groups : List ℕ) (run : Span) : Prop :=
  ∃ front back, groups = front ++ List.replicate run.len 0 ++ back ∧ front.length = run.start

lemma ZeroRun.append {groups : List ℕ} {run : Span} (h : ZeroRun groups run) (more : List ℕ) :
    ZeroRun (groups ++ more) run := by
  obtain ⟨front, back, rfl, hstart⟩ := h
  exact ⟨front, back ++ more, by simp, hstart⟩

/-- The run in progress: it goes to the end of the groups walked, unless it is empty. -/
def InProgress (walked : List ℕ) (run : Span) : Prop :=
  run.len = 0 ∨ ∃ front, walked = front ++ List.replicate run.len 0 ∧ front.length = run.start

lemma InProgress.zero {walked : List ℕ} {run : Span} (h : InProgress walked run) :
    ∃ front, walked ++ [0] = front ++ List.replicate (run.len + 1) 0 ∧
      front.length = if run.len = 0 then walked.length else run.start := by
  by_cases hlen : run.len = 0
  · exact ⟨walked, by simp [hlen], by simp [hlen]⟩
  · obtain ⟨front, rfl, hstart⟩ := h.resolve_left hlen
    exact ⟨front, by rw [List.append_assoc, ← List.replicate_succ'], by simp [hlen, hstart]⟩

lemma zeroRun_longestGo (walked : List ℕ) {rest : List ℕ} {current longest : Span}
    (hcurrent : InProgress walked current) (hlongest : ZeroRun walked longest) :
    ZeroRun (walked ++ rest) (longestGo walked.length current longest rest) := by
  induction rest generalizing walked current longest with
  | nil => simpa [longestGo] using hlongest
  | cons g rest ih =>
    have hsplit : walked ++ g :: rest = (walked ++ [g]) ++ rest := by simp
    have hlen : walked.length + 1 = (walked ++ [g]).length := by simp
    rw [longestGo, hsplit, hlen]
    by_cases hg : g = 0
    · subst hg
      obtain ⟨front, heq, hstart⟩ := hcurrent.zero
      rw [if_pos rfl]
      refine ih _ (.inr ⟨front, heq, hstart⟩) ?_
      by_cases hlonger : longest.len < current.len + 1
      · rw [if_pos hlonger]
        exact ⟨front, [], by rw [List.append_nil]; exact heq, hstart⟩
      · rw [if_neg hlonger]
        exact hlongest.append [0]
    · rw [if_neg hg]
      exact ih _ (.inl rfl) (hlongest.append [g])

/-- **What is left out is zeros.** -/
theorem zeroRun_longestZeroes (groups : List ℕ) : ZeroRun groups (longestZeroes groups) :=
  zeroRun_longestGo [] (.inl rfl) ⟨[], [], rfl, rfl⟩

/-! ### IPv6 -/

lemma length_segments (o : List.Vector UInt8 16) : (segments o).length = 8 := by
  simp [segments]

lemma lt_of_mem_segments {o : List.Vector UInt8 16} {g : ℕ} (h : g ∈ segments o) : g < 65536 := by
  obtain ⟨i, -, rfl⟩ := List.mem_map.mp h
  have hhi := (o.val.getD (2 * i) 0).toNat_lt
  have hlo := (o.val.getD (2 * i + 1) 0).toNat_lt
  omega

/-- The groups of an address make it up. -/
lemma octetsOf_segments (o : List.Vector UInt8 16) : octetsOf (segments o) = o := by
  refine List.Vector.ext fun i => ?_
  have hget : (segments o).getD (i.val / 2) 0 = (o.val.getD (2 * (i.val / 2)) 0).toNat * 256 +
      (o.val.getD (2 * (i.val / 2) + 1) 0).toNat := by
    have hi : i.val / 2 < 8 := by omega
    simp [segments, hi]
  have hbyte : o.get i = o.val.getD i.val 0 := by
    have hlt : i.val < o.val.length := by rw [o.property]; exact i.isLt
    rw [List.getD_eq_getElem?_getD, List.getElem?_eq_getElem hlt]
    rfl
  have hlo := (o.val.getD (2 * (i.val / 2) + 1) 0).toNat_lt
  unfold octetsOf
  rw [List.Vector.get_ofFn, hbyte]
  dsimp only
  rw [hget]
  split_ifs with heven
  · have hidx : 2 * (i.val / 2) = i.val := by omega
    rw [hidx] at hlo ⊢
    rw [Nat.add_comm, Nat.add_mul_div_right _ _ (by decide), Nat.div_eq_of_lt hlo, Nat.zero_add,
      UInt8.ofNat_toNat]
  · have hidx : 2 * (i.val / 2) + 1 = i.val := by omega
    rw [hidx] at hlo ⊢
    rw [Nat.mul_add_mod_of_lt hlo, UInt8.ofNat_toNat]

lemma readIpv6_compressed {front back : List ℕ} {len : ℕ} (hlen : 1 < len)
    (htotal : front.length + len + back.length = 8)
    (hlt : ∀ g ∈ front ++ List.replicate len 0 ++ back, g < 65536) :
    readIpv6 (fmtSubslice front ++ ':' :: ':' :: fmtSubslice back) =
      some (octetsOf (front ++ List.replicate len 0 ++ back), []) := by
  have hfront : ∀ g ∈ front, g < 65536 := fun g hg => hlt g (by simp [hg])
  have hback : ∀ g ∈ back, g < 65536 := fun g hg => hlt g (by simp [hg])
  have hdot : '.' ∉ ':' :: ':' :: fmtSubslice back := by
    simp [dot_not_mem_fmtSubslice back]
  have hhead := readGroups_fmtSubslice 8 hfront (by omega) (.inr ⟨_, rfl⟩) hdot
  have htail := readGroups_fmtSubslice (8 - (front.length + 1)) hback (by omega) (.inl rfl)
    (List.not_mem_nil)
  rw [List.append_nil] at htail
  have hzeros : 8 - front.length - back.length = len := by omega
  unfold readIpv6
  rw [hhead]
  simp only [Option.bind_eq_bind, readGivenChar_cons, Option.bind_some, htail, hzeros]
  rw [if_neg (by omega), if_neg Bool.false_ne_true]

lemma readIpv6_full {groups : List ℕ} (hlen : groups.length = 8) (hlt : ∀ g ∈ groups, g < 65536) :
    readIpv6 (fmtSubslice groups) = some (octetsOf groups, []) := by
  have hhead := readGroups_fmtSubslice 8 hlt (by omega) (.inl rfl) (List.not_mem_nil)
  rw [List.append_nil] at hhead
  unfold readIpv6
  rw [hhead]
  exact if_pos hlen

/-- The last two groups of an address are its last four octets. -/
lemma segments_drop (o : List.Vector UInt8 16) (tail : List.Vector UInt8 4)
    (htail : tail.val = o.val.drop 12) : (segments o).drop 6 =
      [(tail.val.getD 0 0).toNat * 256 + (tail.val.getD 1 0).toNat,
        (tail.val.getD 2 0).toNat * 256 + (tail.val.getD 3 0).toNat] := by
  have hget : ∀ i, tail.val.getD i 0 = o.val.getD (12 + i) 0 := fun i => by
    rw [htail, List.getD_eq_getElem?_getD, List.getD_eq_getElem?_getD, List.getElem?_drop]
  rw [hget, hget, hget, hget]
  rfl

lemma readIpv6_mapped {o : List.Vector UInt8 16}
    (h : (segments o).take 6 = [0, 0, 0, 0, 0, 0xFFFF]) :
    readIpv6 ("::ffff:".toList ++ dotted (o.val.drop 12)) = some (o, []) := by
  have hdrop : (o.val.drop 12).length = 4 := by rw [List.length_drop, o.property]
  obtain ⟨tail, htail⟩ : ∃ tail : List.Vector UInt8 4, tail.val = o.val.drop 12 := ⟨⟨_, hdrop⟩, rfl⟩
  have htext : "::ffff:".toList = ':' :: ':' :: (Nat.toDigits 16 0xFFFF ++ [':']) := by
    decide +kernel
  have hv4 : readIpv4 (Nat.toDigits 16 0xFFFF ++ (':' :: dotted tail.val)) = none := by
    refine readIpv4_stops ?_
    rintro c hc
    have hf : Nat.toDigits 16 0xFFFF = ['f', 'f', 'f', 'f'] := by decide
    rw [hf] at hc
    cases hc
    decide
  have hffff := readGroups_group 6 [] (g := 0xFFFF) (by decide) (colon_stops 16 _) hv4
  have hdotted := readIpv4_dotted tail (stops_nil 10)
  rw [List.append_nil] at hdotted
  have hlast : readGroups 6 [0xFFFF] (':' :: dotted tail.val) =
      ([0xFFFF] ++ (segments o).drop 6, true, []) := by
    rw [segments_drop o tail htail, readGroups]
    simp [readGivenChar_cons, hdotted]
  have htailRead : readGroups 7 [] (Nat.toDigits 16 0xFFFF ++ (':' :: dotted tail.val)) =
      ([0xFFFF] ++ (segments o).drop 6, true, []) := hffff.trans hlast
  have hgroups : List.replicate 5 0 ++ ([0xFFFF] ++ (segments o).drop 6) = segments o := by
    conv_rhs => rw [← List.take_append_drop 6 (segments o), h]
    rfl
  have hlen : ([0xFFFF] ++ (segments o).drop 6).length = 3 := by simp [length_segments]
  unfold readIpv6
  rw [htext, ← htail, List.cons_append, List.cons_append, List.append_assoc, List.singleton_append,
    readGroups_ends 8 [] (.inr ⟨_, rfl⟩)]
  simp only [Option.bind_eq_bind, readGivenChar_cons, Option.bind_some, List.length_nil,
    Nat.zero_add, Nat.reduceSub, htailRead, hlen, List.nil_append]
  rw [hgroups, octetsOf_segments]
  rfl

/-! ### Addresses -/

/-- The text of a version 6 address does not begin as a dotted one does. -/
lemma readIpv4_toText (o : List.Vector UInt8 16) : readIpv4 (IpAddr.v6 o).toText = none := by
  unfold IpAddr.toText
  dsimp only
  split_ifs
  · refine readIpv4_stops ?_
    have htext : "::ffff:".toList = ':' :: ":ffff:".toList := by decide +kernel
    rw [htext]
    exact colon_stops 10 _
  · refine readIpv4_of_not_mem ?_
    have hcolons : '.' ∉ "::".toList := by decide +kernel
    simp only [List.mem_append, not_or]
    exact ⟨⟨dot_not_mem_fmtSubslice _, hcolons⟩, dot_not_mem_fmtSubslice _⟩
  · exact readIpv4_of_not_mem (dot_not_mem_fmtSubslice _)

lemma readIpv6_toText (o : List.Vector UInt8 16) : readIpv6 (IpAddr.v6 o).toText = some (o, []) := by
  have hlt : ∀ g ∈ segments o, g < 65536 := fun g => lt_of_mem_segments
  unfold IpAddr.toText
  dsimp only
  split_ifs with hmapped hrun
  · exact readIpv6_mapped hmapped
  · obtain ⟨front, back, hgroups, hstart⟩ := zeroRun_longestZeroes (segments o)
    generalize longestZeroes (segments o) = run at hgroups hstart hrun
    have htotal := congrArg List.length hgroups
    rw [length_segments] at htotal
    simp only [List.length_append, List.length_replicate] at htotal
    have htake : (segments o).take run.start = front := by
      rw [hgroups, ← hstart, List.append_assoc, List.take_left]
    have hdrop : (segments o).drop (run.start + run.len) = back := by
      have hlen : run.start + run.len = (front ++ List.replicate run.len 0).length := by simp [hstart]
      rw [hgroups, hlen, List.drop_left]
    have hcolons : "::".toList = [':', ':'] := by decide +kernel
    have hread := readIpv6_compressed hrun htotal.symm (hgroups ▸ hlt)
    rw [← hgroups, octetsOf_segments] at hread
    rw [htake, hdrop, hcolons, List.append_assoc]
    exact hread
  · have hread := readIpv6_full (length_segments o) hlt
    rwa [octetsOf_segments] at hread

/-- **An address is read back from its text.** -/
theorem parse_toText (ip : IpAddr) : IpAddr.parse ip.toText = some ip := by
  unfold IpAddr.parse
  cases ip with
  | v4 o =>
    have hread : readIpv4 (IpAddr.v4 o).toText = some (o, []) := by
      have hdotted := readIpv4_dotted o (stops_nil 10)
      rwa [List.append_nil] at hdotted
    rw [hread]
    rfl
  | v6 o =>
    rw [readIpv4_toText, readIpv6_toText]
    rfl

theorem toText_injective : Function.Injective IpAddr.toText := fun ip ip' h =>
  Option.some.inj ((parse_toText ip).symm.trans ((congrArg IpAddr.parse h).trans (parse_toText ip')))

/-! ### From its arrival to the report -/

lemma mem_ipHosts {listing : List (Text × Arc)} {host : Text} {ip : IpAddr} :
    (host, ip) ∈ Resolve.ipHosts listing ↔
      host ∈ listing.map Prod.fst ∧ IpAddr.parse host = some ip := by
  unfold Resolve.ipHosts
  rw [List.mem_filterMap, List.mem_map]
  constructor
  · rintro ⟨e, he, hmap⟩
    obtain ⟨ip', hparse, heq⟩ := Option.map_eq_some_iff.mp hmap
    cases heq
    exact ⟨⟨e, he, rfl⟩, hparse⟩
  · rintro ⟨⟨e, he, rfl⟩, hparse⟩
    exact ⟨e, he, by rw [hparse]; rfl⟩

/-- **An address is looked up as itself.** However a destination given as an address arrives, no
other address is counted under its host; once the host is recorded it is looked up, and for that
address; and the report names it as the lookup does, if it gives a name. A reply from the address
that no name is known for is counted under the same host. -/
theorem looked_up_of_arrives {ip : IpAddr} {port : UInt16} {dest : Text × UInt16}
    (h : Arrives (IpAddress ip) (ipAuthority ip) port dest) :
    (∀ ip' port' dest', Arrives (IpAddress ip') (ipAuthority ip') port' dest' →
      dest'.1 = dest.1 → ip' = ip) ∧
    (∀ (r : Registry) listing, HashMap.Lists (r.endpoint dest.1).2.endpoints listing → ∀ ip',
      (dest.1, ip') ∈ Resolve.ipHosts listing ↔ ip' = ip) ∧
    (∀ ptr, Resolve.canon ptr dest.1 = (ptr ip).getD dest.1) ∧
    ∀ w : Udp.World, w.relay.names.lookup ip = none → w.replyHost ip = dest.1 := by
  obtain rfl := dest_of_ip h
  have hparse := parse_toText ip
  refine ⟨fun ip' port' dest' h' heq => ?_, fun r listing hl ip' => ?_, fun ptr => ?_, fun w hw => ?_⟩
  · obtain rfl := dest_of_ip h'
    exact toText_injective heq
  · have hlisted : ip.toText ∈ listing.map Prod.fst := by
      have hlookup := Registry.lookup_endpoint r ip.toText ip.toText
      rw [if_pos rfl] at hlookup
      exact List.mem_map_of_mem ((HashMap.mem_lists hl).mpr hlookup)
    rw [mem_ipHosts, hparse]
    constructor
    · rintro ⟨-, heq⟩
      exact (Option.some.inj heq).symm
    · rintro rfl
      exact ⟨hlisted, rfl⟩
  · unfold Resolve.canon
    dsimp only
    rw [hparse]
  · unfold Udp.World.replyHost
    rw [hw]
    rfl

/-- A version 6 address with two runs of zeros and a datagram for it. -/
def documentation : IpAddr := .v6 ⟨[0x20, 0x01, 0x0d, 0xb8, 0, 0, 0, 1, 0, 0, 0, 0, 0, 0, 0, 7], rfl⟩

theorem looked_up_of_arrives_documentation :
    ("2001:db8:0:1::7".toList, documentation) ∈
      Resolve.ipHosts (Registry.new.endpoint "2001:db8:0:1::7".toList).2.hosts := by
  have hparse : parseDatagram (0 :: 0 :: 0 :: atypIpv6 ::
      (SocksDatagram.addressBytes ⟨documentation, 0⟩ ++ (u16ToBeBytes 53 ++ [1]))) =
      .ok ⟨"2001:db8:0:1::7".toList, 53, [1]⟩ := by
    decide +kernel
  have harrives : Arrives (IpAddress documentation) (ipAuthority documentation) 53
      ("2001:db8:0:1::7".toList, 53) := .datagram (.inl ⟨rfl, rfl⟩) hparse
  obtain ⟨-, hlisted, -⟩ := looked_up_of_arrives harrives
  exact (hlisted Registry.new _ (HashMap.lists_toList _) documentation).mpr rfl

end Wiretally.IpText
