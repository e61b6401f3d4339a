import Mathlib.Data.List.DropRight
import Wiretally.ReportTable

/-!
Reading the table of the report.

A name is read back if it is no longer than its column, else its beginning. A size is printed
with two decimals in the largest unit there is one of. Read back it is the count to within half
a percent, and exact below a kilobyte; and as the rounding keeps the order of the counts, also
from one unit to the next, the sizes read down the table never grow.
-/

namespace Wiretally.ReportText

open Wiretally.Lib Wiretally.Lib.F64 Wiretally.Lib.Decimal Wiretally.Stats Wiretally.Reports
open Wiretally.ReportTable

/-! ### Reading a size -/

/-- The units there are, from the byte on. -/
def unitNames : List Text := ['B'] :: units

/-- A number, a space and a unit. -/
def readSize (s : Text) : Option ℚ :=
  (readFixed s).bind fun r =>
    if r.2.head? = some ' ' then (unitNames.idxOf? r.2.tail).map fun k => r.1 * 1024 ^ k else none

/-- The unit in which a value is shown. -/
structure InUnit (v : ℚ) (k : ℕ) : Prop where
  last : k ≤ 5
  least : 0 < k → 1024 ^ k ≤ v
  next : k < 5 → v < 1024 ^ (k + 1)
  whole : k = 0 → ∃ n : ℕ, v = n

/-- A value rounded to two decimals in a unit. -/
def rounded (v : ℚ) (k : ℕ) : ℚ := roundEven (v / 1024 ^ k * 100) / 100 * 1024 ^ k

/-! ### The unit that is chosen -/

/-- A value of no more than 53 significant bits. -/
def Exact (v : ℚ) : Prop := ∃ m < 2 ^ 53, ∃ e : ℤ, v = (m : ℕ) * 2 ^ e

lemma exact_ofNat (n : ℕ) : Exact (F64.ofNat n) := exists_significand n.cast_nonneg

lemma Exact.div {v : ℚ} (h : Exact v) : F64.div v 1024 = v / 1024 ∧ Exact (v / 1024) := by
  obtain ⟨m, hm, e, rfl⟩ := h
  have hquot : (m : ℚ) * 2 ^ e / 1024 = (m : ℚ) * 2 ^ (e - 10) := by
    rw [zpow_sub₀ two_ne_zero, mul_div_assoc]
    norm_num
  rw [F64.div, hquot, nearest_eq_self hm]
  exact ⟨rfl, m, hm, _, rfl⟩

/-- The loop stops at the first unit there are fewer than 1024 of, or at the last. -/
lemma scale_inUnit {v : ℚ} {k : ℕ} (hv : Exact (v / 1024 ^ k)) (unit : Text) (rest : List Text) :
    ∃ j name, (unit :: rest)[j]? = some name ∧
      scale (v / 1024 ^ k) unit rest = (v / 1024 ^ (k + j), name) ∧
      (0 < j → 1024 ^ (k + j) ≤ v) ∧ (j < rest.length → v < 1024 ^ (k + j + 1)) := by
  induction rest generalizing k unit with
  | nil => exact ⟨0, unit, rfl, rfl, fun hj => absurd hj (Nat.lt_irrefl 0), fun hj => by cases hj⟩
  | cons next rest ih =>
    have hpow : (0 : ℚ) < 1024 ^ k := by positivity
    by_cases hlt : v / 1024 ^ k < 1024
    · refine ⟨0, unit, rfl, if_pos hlt, fun hj => absurd hj (Nat.lt_irrefl 0), fun _ => ?_⟩
      rw [div_lt_iff₀ hpow, mul_comm, ← pow_succ] at hlt
      exact hlt
    · have hdiv : v / 1024 ^ k / 1024 = v / 1024 ^ (k + 1) := by rw [div_div, ← pow_succ]
      have hge : 1024 ^ (k + 1) ≤ v := by
        rw [not_lt, le_div_iff₀ hpow, mul_comm, ← pow_succ] at hlt
        exact hlt
      obtain ⟨hexact, hnext⟩ := hv.div
      rw [hdiv] at hexact hnext
      obtain ⟨j, name, hname, hscale, hleast, hlast⟩ := ih hnext next
      refine ⟨j + 1, name, hname, ?_, fun _ => ?_, fun hj => ?_⟩
      · unfold scale
        rw [if_neg hlt, hexact, hscale, Nat.add_right_comm, Nat.add_assoc]
      · rcases Nat.eq_zero_or_pos j with rfl | hj
        · exact hge
        · have := hleast hj
          rwa [Nat.add_right_comm, Nat.add_assoc] at this
      · have := hlast (by simpa using hj)
        rwa [Nat.add_right_comm k 1 j, Nat.add_assoc k j 1] at this

lemma idxOf_unit {k : ℕ} {name : Text} (h : units[k]? = some name) :
    unitNames.idxOf? name = some (k + 1) := by
  have hall : ∀ k, (hk : k < units.length) → unitNames.idxOf? units[k] = some (k + 1) := by
    decide +kernel
  obtain ⟨hk, rfl⟩ := List.getElem?_eq_some_iff.mp h
  exact hall k hk

lemma rounded_zero (n : ℕ) : rounded n 0 = n := by
  have hint : roundEven ((n : ℚ) / 1024 ^ 0 * 100) = n * 100 := by
    rw [pow_zero, div_one]
    exact_mod_cast roundEven_natCast (n * 100)
  unfold rounded
  rw [hint]
  push_cast
  ring

/-- **A size as it is read**: the value of the count, rounded in the unit it is shown in. -/
theorem readSize_formatBytes (bytes : UInt64) : ∃ k, InUnit (F64.ofNat bytes.toNat) k ∧
    readSize (formatBytes bytes) = some (rounded (F64.ofNat bytes.toNat) k) := by
  unfold formatBytes
  split_ifs with hlt
  · have hsmall : bytes.toNat < 1024 := by simpa [UInt64.lt_iff_toNat_lt] using hlt
    rw [ofNat_eq_self (hsmall.trans (by decide))]
    refine ⟨0, ⟨Nat.zero_le 5, nofun, fun _ => ?_, fun _ => ⟨_, rfl⟩⟩, ?_⟩
    · exact_mod_cast hsmall
    · have hunit : " B".toList = [' ', 'B'] := by decide +kernel
      unfold readSize
      rw [hunit, readFixed_toDigits _ (by rintro c hc; cases hc; rfl) (by decide), Option.bind_some,
        if_pos List.head?_cons, List.tail_cons, rounded_zero]
      have hidx : unitNames.idxOf? ['B'] = some 0 := by decide +kernel
      rw [hidx, Option.map_some, pow_zero, mul_one]
  · have hlarge : 1024 ≤ bytes.toNat := by
      simpa [UInt64.lt_iff_toNat_lt] using hlt
    have hleast : (1024 : ℚ) ≤ F64.ofNat bytes.toNat := by
      have hmono : F64.ofNat 1024 ≤ F64.ofNat bytes.toNat :=
        nearest_mono (Nat.cast_nonneg _) (by exact_mod_cast hlarge)
      rwa [ofNat_eq_self (by decide)] at hmono
    obtain ⟨hdiv, hexact⟩ := (exact_ofNat bytes.toNat).div
    rw [← pow_one (1024 : ℚ)] at hexact
    obtain ⟨j, name, hname, hscale, hmin, hmax⟩ :=
      scale_inUnit hexact (units.headD []) units.tail
    rw [pow_one] at hscale
    have hj : j < 5 := (List.getElem?_eq_some_iff.mp hname).1
    refine ⟨1 + j, ⟨by omega, fun _ => ?_, fun h5 => hmax ?_, fun h0 => by omega⟩, ?_⟩
    · rcases Nat.eq_zero_or_pos j with rfl | hpos
      · simpa using hleast
      · exact hmin hpos
    · change j < 4
      omega
    · have hvalue : 0 ≤ F64.ofNat bytes.toNat / 1024 ^ (1 + j) :=
        div_nonneg (ofNat_nonneg _) (by positivity)
      simp only [hdiv, hscale]
      unfold readSize
      rw [List.append_assoc, readFixed_toFixed2 hvalue (by rintro c hc; cases hc; rfl),
        Option.bind_some, List.singleton_append, if_pos List.head?_cons, List.tail_cons,
        idxOf_unit hname, Option.map_some, Nat.add_comm j 1]
      rfl

/-! ### How close it is, and in what order -/

lemma rounded_close (v : ℚ) (k : ℕ) : |rounded v k - v| ≤ 1024 ^ k / 200 := by
  have hpow : (0 : ℚ) < 1024 ^ k := by positivity
  have hscaled : rounded v k - v =
      (roundEven (v / 1024 ^ k * 100) - v / 1024 ^ k * 100) * (1024 ^ k / 100) := by
    unfold rounded
    field_simp
  rw [hscaled, abs_mul, abs_of_pos (by positivity : (0 : ℚ) < 1024 ^ k / 100)]
  calc |(roundEven (v / 1024 ^ k * 100) : ℚ) - v / 1024 ^ k * 100| * (1024 ^ k / 100)
      ≤ 1 / 2 * (1024 ^ k / 100) :=
        mul_le_mul_of_nonneg_right (abs_roundEven_sub_le _) (by positivity)
    _ = 1024 ^ k / 200 := by ring

/-- **Sizes keep their order**, within a unit and from one to the next. -/
theorem rounded_mono {v v' : ℚ} {k k' : ℕ} (h : InUnit v k) (h' : InUnit v' k') (hle : v ≤ v') :
    rounded v k ≤ rounded v' k' := by
  have hpow : ∀ k : ℕ, (0 : ℚ) < 1024 ^ k := fun k => by positivity
  rcases lt_trichotomy k k' with hlt | rfl | hgt
  · -- the smaller unit is at most full, the larger one there is one of
    have hfull : rounded v k ≤ 1024 ^ (k + 1) := by
      have hnext := h.next (by have := h'.last; omega)
      have hround : roundEven (v / 1024 ^ k * 100) ≤ 102400 := by
        refine roundEven_le_of_le ?_
        have : v / 1024 ^ k ≤ 1024 := by
          rw [div_le_iff₀ (hpow k), mul_comm, ← pow_succ]
          exact hnext.le
        push_cast
        linarith
      have hcast : (roundEven (v / 1024 ^ k * 100) : ℚ) ≤ 102400 := by exact_mod_cast hround
      unfold rounded
      rw [pow_succ, mul_comm ((1024 : ℚ) ^ k)]
      refine mul_le_mul_of_nonneg_right ?_ (hpow k).le
      linarith
    have hone : 1024 ^ k' ≤ rounded v' k' := by
      have hleast := h'.least (by omega)
      have hround : 100 ≤ roundEven (v' / 1024 ^ k' * 100) := by
        refine le_roundEven ?_
        have : 1 ≤ v' / 1024 ^ k' := by
          rw [le_div_iff₀ (hpow k'), one_mul]
          exact hleast
        push_cast
        linarith
      have hcast : (100 : ℚ) ≤ roundEven (v' / 1024 ^ k' * 100) := by exact_mod_cast hround
      unfold rounded
      refine le_mul_of_one_le_left (hpow k').le ?_
      linarith
    calc rounded v k ≤ 1024 ^ (k + 1) := hfull
      _ ≤ 1024 ^ k' := pow_le_pow_right₀ (by norm_num) hlt
      _ ≤ rounded v' k' := hone
  · unfold rounded
    refine mul_le_mul_of_nonneg_right (div_le_div_of_nonneg_right ?_ (by norm_num)) (hpow k).le
    exact_mod_cast roundEven_mono
      (mul_le_mul_of_nonneg_right (div_le_div_of_nonneg_right hle (hpow k).le) (by norm_num))
  · -- a larger unit would be too large
    have hleast := h.least (by omega)
    have hnext := h'.next (by have := h.last; omega)
    have hunits : (1024 : ℚ) ^ (k' + 1) ≤ 1024 ^ k := pow_le_pow_right₀ (by norm_num) hgt
    linarith

lemma rounded_near {bytes : UInt64} {k : ℕ} (h : InUnit (F64.ofNat bytes.toNat) k) :
    |rounded (F64.ofNat bytes.toNat) k - bytes.toNat| * 200 ≤ bytes.toNat := by
  rcases Nat.lt_or_ge bytes.toNat (2 ^ 53) with hlt | hge
  · rw [ofNat_eq_self hlt] at h ⊢
    rcases Nat.eq_zero_or_pos k with rfl | hk
    · rw [rounded_zero, sub_self, abs_zero, zero_mul]
      exact Nat.cast_nonneg _
    · have hclose := rounded_close bytes.toNat k
      have hleast := h.least hk
      linarith
  · -- the conversion rounds as well, but only what is shown in the last unit
    have hlarge : (2 : ℚ) ^ 53 ≤ bytes.toNat := by exact_mod_cast hge
    have hconv : |F64.ofNat bytes.toNat - bytes.toNat| ≤ bytes.toNat / 2 ^ 53 :=
      abs_nearest_sub_le (Nat.cast_nonneg _)
    have hlow : (2 : ℚ) ^ 52 ≤ F64.ofNat bytes.toNat := by
      have habs := (abs_le.mp hconv).1
      have hsmall : (bytes.toNat : ℚ) / 2 ^ 53 ≤ bytes.toNat / 2 := by
        refine div_le_div_of_nonneg_left (Nat.cast_nonneg _) (by norm_num) (by norm_num)
      linarith
    have hk : k = 5 := by
      by_contra hne
      have hnext := h.next (by have := h.last; omega)
      have hunits : (1024 : ℚ) ^ (k + 1) ≤ 1024 ^ 5 :=
        pow_le_pow_right₀ (by norm_num) (by have := h.last; omega)
      have hlt : (1024 : ℚ) ^ 5 < 2 ^ 52 := by norm_num
      linarith
    subst hk
    have hclose := rounded_close (F64.ofNat bytes.toNat) 5
    have htri := abs_sub_le (rounded (F64.ofNat bytes.toNat) 5) (F64.ofNat bytes.toNat) bytes.toNat
    norm_num at hconv hclose
    linarith

/-! ### Reading the table -/

/-- What a line of the table says of its endpoint. -/
structure Cells where
  name : Text
  ingress : ℚ
  egress : ℚ
  connections : ℕ
  deriving DecidableEq

def cell (line : Text) (start width : ℕ) : Text :=
  ((line.drop start).take width).dropWhile (· = ' ')

def trimmed (s : Text) : Text := s.rdropWhile (· = ' ')

def readLine (line : Text) : Option Cells := do
  let ingress ← readSize (cell line 34 14)
  let egress ← readSize (cell line 48 17)
  let connections ← readNat (cell line 65 8)
  pure ⟨trimmed (line.take 34), ingress, egress, connections.1⟩

/-- A size that is off by no more than half a percent, and not at all below a kilobyte. -/
def Near (bytes : UInt64) (size : ℚ) : Prop :=
  |size - bytes.toNat| * 200 ≤ bytes.toNat ∧ (bytes < 1024 → size = bytes.toNat)

/-- The cells of an endpoint: its name, if that is short enough, or else the beginning of it
with a mark, its sizes and its connections. -/
structure Tells (endpoint : Endpoint) (cells : Cells) : Prop where
  whole : endpoint.domain.length ≤ 33 → cells.name = trimmed endpoint.domain
  cut : 33 < endpoint.domain.length → cells.name = endpoint.domain.take 32 ++ ['…']
  ingress : Near endpoint.ingressBytes cells.ingress
  egress : Near endpoint.egressBytes cells.egress
  connections : cells.connections = endpoint.connections.toNat

lemma dropWhile_padLeft {width : ℕ} {s : Text} (h : ∃ c t, s = c :: t ∧ c ≠ ' ') :
    (padLeft width s).dropWhile (· = ' ') = s := by
  obtain ⟨c, t, rfl, hc⟩ := h
  unfold padLeft
  rw [List.dropWhile_append_of_pos fun c hc => by simp [List.eq_of_mem_replicate hc]]
  simp [hc]

lemma trimmed_padRight (width : ℕ) (s : Text) : trimmed (padRight width s) = trimmed s := by
  unfold trimmed padRight List.rdropWhile
  rw [List.reverse_append, List.reverse_replicate,
    List.dropWhile_append_of_pos fun c hc => by simp [List.eq_of_mem_replicate hc]]

lemma trimmed_elide (name : Text) :
    (name.length ≤ 33 → trimmed (elide name 33) = trimmed name) ∧
      (33 < name.length → trimmed (elide name 33) = name.take 32 ++ ['…']) := by
  unfold elide
  constructor
  · intro h
    rw [if_pos h]
  · intro h
    rw [if_neg h.not_ge]
    exact List.rdropWhile_concat_neg _ _ _ (by decide)

lemma toDigits_head (n : ℕ) : ∃ c t, Nat.toDigits 10 n = c :: t ∧ c ≠ ' ' := by
  obtain ⟨c, t, hct⟩ := List.exists_cons_of_ne_nil (Nat.toDigits_ne_nil (b := 10) (n := n))
  refine ⟨c, t, hct, ?_⟩
  rintro rfl
  exact absurd (isDigit_of_mem (hct ▸ List.mem_cons_self)) (by decide)

lemma formatBytes_head (bytes : UInt64) : ∃ c t, formatBytes bytes = c :: t ∧ c ≠ ' ' := by
  have happend : ∀ n (u : Text), ∃ c t, Nat.toDigits 10 n ++ u = c :: t ∧ c ≠ ' ' := by
    intro n u
    obtain ⟨c, t, hct, hc⟩ := toDigits_head n
    exact ⟨c, t ++ u, by rw [hct, List.cons_append], hc⟩
  rcases formatBytes_cases bytes with ⟨-, h⟩ | ⟨value, unit, -, -, h⟩
  · rw [h]
    exact happend _ _
  · rw [h]
    unfold toFixed2
    simp only [List.append_assoc]
    exact happend _ _

lemma near_readSize (bytes : UInt64) :
    ∃ size, readSize (formatBytes bytes) = some size ∧ Near bytes size := by
  obtain ⟨k, hk, hread⟩ := readSize_formatBytes bytes
  refine ⟨_, hread, rounded_near hk, fun hlt => ?_⟩
  rw [UInt64.lt_iff_toNat_lt] at hlt
  have hvalue : F64.ofNat bytes.toNat = bytes.toNat := ofNat_eq_self (hlt.trans (by decide))
  rw [hvalue] at hk ⊢
  have hzero : k = 0 := by
    by_contra hne
    have hleast := hk.least (Nat.pos_of_ne_zero hne)
    have hpow : (1024 : ℚ) ^ 1 ≤ 1024 ^ k :=
      pow_le_pow_right₀ (by norm_num) (Nat.pos_of_ne_zero hne)
    have hcast : (bytes.toNat : ℚ) < 1024 := by exact_mod_cast hlt
    linarith
  rw [hzero, rounded_zero]

lemma readSize_mono {bytes bytes' : UInt64} (h : bytes.toNat ≤ bytes'.toNat) {size size' : ℚ}
    (hs : readSize (formatBytes bytes) = some size)
    (hs' : readSize (formatBytes bytes') = some size') : size ≤ size' := by
  obtain ⟨k, hk, hread⟩ := readSize_formatBytes bytes
  obtain ⟨k', hk', hread'⟩ := readSize_formatBytes bytes'
  obtain rfl := Option.some.inj (hread.symm.trans hs)
  obtain rfl := Option.some.inj (hread'.symm.trans hs')
  exact rounded_mono hk hk' (nearest_mono (Nat.cast_nonneg _) (by exact_mod_cast h))

lemma readLine_of_shows {endpoint : Endpoint} {line : Text} (h : Shows endpoint line) :
    ∃ cells, readLine line = some cells ∧ Tells endpoint cells ∧
      readSize (formatBytes endpoint.ingressBytes) = some cells.ingress := by
  obtain ⟨ingress, hingress, hnear⟩ := near_readSize endpoint.ingressBytes
  obtain ⟨egress, hegress, hnear'⟩ := near_readSize endpoint.egressBytes
  have hconns : (line.drop 65).take 8 = line.drop 65 := by
    refine List.take_of_length_le ?_
    rw [List.length_drop, h.length]
  have hread : readNat (Nat.toDigits 10 endpoint.connections.toNat) =
      some (endpoint.connections.toNat, []) := by
    have := readNat_toDigits endpoint.connections.toNat (s := []) nofun
    rwa [List.append_nil] at this
  obtain ⟨hwhole, hcut⟩ := trimmed_elide endpoint.domain
  refine ⟨⟨trimmed (elide endpoint.domain 33), ingress, egress, endpoint.connections.toNat⟩, ?_,
    ⟨hwhole, hcut, hnear, hnear', rfl⟩, hingress⟩
  unfold readLine cell
  rw [h.domain, trimmed_padRight, h.ingress, h.egress, hconns, h.conns, dropWhile_padLeft (formatBytes_head _),
    dropWhile_padLeft (formatBytes_head _), dropWhile_padLeft (toDigits_head _), hingress, hegress,
    hread]
  rfl

lemma readLines {endpoints : List Endpoint} {lines : List Text}
    (h : List.Forall₂ Shows endpoints lines) :
    ∃ cells, lines.mapM readLine = some cells ∧ List.Forall₂ (fun e c => Tells e c ∧
      readSize (formatBytes e.ingressBytes) = some c.ingress) endpoints cells := by
  induction h with
  | nil => exact ⟨[], rfl, .nil⟩
  | cons hline _ ih =>
    obtain ⟨c, hread, htells⟩ := readLine_of_shows hline
    obtain ⟨cells, hcells, hall⟩ := ih
    refine ⟨c :: cells, ?_, .cons htells hall⟩
    rw [List.mapM_cons, hread, hcells]
    rfl

lemma ingress_le_of_key_lt {a b : Endpoint} (h : a.key < b.key) :
    b.ingressBytes.toNat ≤ a.ingressBytes.toNat := by
  rcases Prod.Lex.lt_iff.mp h with hlt | ⟨heq, -⟩
  · exact le_of_lt hlt
  · exact le_of_eq (congrArg OrderDual.ofDual heq).symm

/-- **The table can be read.** Where there is a row, no name ends a line in the part of it that is
shown and no host has a hundred million connections, each line of the table of a report gives
back the name of its endpoint, or the beginning of a long one, its connections exactly and its
bytes to within half a percent; and the ingress that is read never grows down the table. -/
theorem read_table (r : Registry) (filter : Option Text) {listing : List (Text × Arc)}
    (hl : HashMap.Lists r.endpoints listing) (command : Text) (ms : ℕ) (code : Int32)
    {report : Report} (hreport : report = .new command filter ms code (r.snapshotOf filter listing))
    (hshown : shown report ≠ []) (hconns : ∀ e ∈ shown report, e.connections.toNat < 10 ^ 8)
    (hnames : ∀ e ∈ shown report, '\n' ∉ shownPart e.domain) :
    ∃ cells, (tableBody report.toText).mapM readLine = some cells ∧
      List.Forall₂ Tells (shown report) cells ∧
      cells.Pairwise fun a b => b.ingress ≤ a.ingress := by
  obtain ⟨cells, hread, hcells⟩ := readLines (keepsTable_of_names hshown hconns hnames)
  refine ⟨cells, hread, hcells.imp fun _ _ h => h.1, ?_⟩
  have hsorted : (shown report).Pairwise fun a b => a.key < b.key := by
    rw [hreport]
    exact (Registry.snapshotOf_strict r filter hl).filter _
  obtain ⟨hlen, hget⟩ := List.forall₂_iff_get.mp hcells
  rw [List.pairwise_iff_getElem] at hsorted ⊢
  intro i j hi hj hij
  exact readSize_mono (ingress_le_of_key_lt (hsorted i j (hlen ▸ hi) (hlen ▸ hj) hij))
    (hget j (hlen ▸ hj) hj).2 (hget i (hlen ▸ hi) hi).2

/-! ### Two downloads, one just below a megabyte -/

/-- Two hosts, the larger one recorded last. -/
def downloads : Registry :=
  let (a, r) := Registry.new.endpoint "a.example.com".toList
  let (b, r) := (r.update a (·.addIngress 1048575)).endpoint "b.example.com".toList
  (r.update b (·.addIngress 149760000)).update b (·.addConnection)

def downloadsReport : Report :=
  .new "curl x".toList none 1840 0 (downloads.snapshotOf none downloads.endpoints.toList)

theorem read_table_downloads :
    ∃ cells, (tableBody downloadsReport.toText).mapM readLine = some cells ∧
      List.Forall₂ Tells (shown downloadsReport) cells ∧
      cells.Pairwise (fun a b => b.ingress ≤ a.ingress) :=
  read_table downloads none (HashMap.lists_toList _) _ _ _ rfl (by decide +kernel)
    (by decide +kernel) (by decide +kernel)

example : readSize "142.82 MB".toList = some (14282 * 1024 ^ 2 / 100) := by decide +kernel

end Wiretally.ReportText
