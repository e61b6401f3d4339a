import Mathlib.Data.Int.Log
import Mathlib.Data.Rat.Floor
import Wiretally.Lib.Decimal

/-!
Non-negative 64-bit floating-point numbers, as the rational numbers they are.

An operation gives the exact result rounded to 53 significant bits, to nearest and to even
between two. The range of the exponent is left out: what is computed here is zero or far from
both of its ends.
-/

namespace Wiretally.Lib.F64

/-- The nearest integer, the even one between two. -/
def roundEven (x : ℚ) : ℤ :=
  let k := ⌊x⌋
  if x - k < 1 / 2 then k
  else if 1 / 2 < x - k then k + 1
  else k + k % 2

/-- The nearest number of 53 significant bits. -/
def nearest (x : ℚ) : ℚ :=
  let ulp : ℚ := 2 ^ (Int.log 2 x - 52)
  roundEven (x / ulp) * ulp

def ofNat (n : ℕ) : ℚ := nearest n

def div (x y : ℚ) : ℚ := nearest (x / y)

/-- The decimal form with two decimals, correctly rounded. -/
def toFixed2 (x : ℚ) : List Char :=
  let cents := (roundEven (x * 100)).toNat
  Nat.toDigits 10 (cents / 100) ++ ['.'] ++ Nat.toDigits 10 (cents / 10 % 10)
    ++ Nat.toDigits 10 (cents % 10)

/-- Reads a decimal number, with the text after it. -/
def readFixed (s : List Char) : Option (ℚ × List Char) :=
  (Decimal.readNat s).map fun r =>
    if r.2.head? = some '.' then
      let frac := r.2.tail.takeWhile Char.isDigit
      (r.1 + (Nat.ofDigitChars 10 frac 0 : ℚ) / 10 ^ frac.length, r.2.tail.drop frac.length)
    else (r.1, r.2)

/-! ### Rounding -/

lemma le_roundEven {x : ℚ} {n : ℤ} (h : (n : ℚ) ≤ x) : n ≤ roundEven x := by
  have hfloor : n ≤ ⌊x⌋ := Int.le_floor.mpr h
  unfold roundEven
  simp only
  split_ifs
  · exact hfloor
  · omega
  · omega

lemma add_one_lt_iff {x : ℚ} {k n : ℤ} (hlo : k + 1 / 2 ≤ x) (hhi : x < k + 1) :
    k + 1 < n ↔ x < n - 1 / 2 := by
  constructor
  · intro h
    have hk : ((k + 2 : ℤ) : ℚ) ≤ n := by exact_mod_cast (by omega : k + 2 ≤ n)
    push_cast at hk
    linarith
  · intro h
    have hk : ((k + 1 : ℤ) : ℚ) < n := by
      push_cast
      linarith
    exact_mod_cast hk

lemma roundEven_lt_iff {x : ℚ} {n : ℤ} (hn : n % 2 = 0) : roundEven x < n ↔ x < n - 1 / 2 := by
  have hlo := Int.floor_le x
  have hhi := Int.lt_floor_add_one x
  unfold roundEven
  simp only
  generalize ⌊x⌋ = k at hlo hhi
  split_ifs with hdown hup
  · constructor
    · intro h
      have hk : ((k + 1 : ℤ) : ℚ) ≤ n := by exact_mod_cast h
      push_cast at hk
      linarith
    · intro h
      have hk : (k : ℚ) < n := by linarith
      exact_mod_cast hk
  · exact add_one_lt_iff (by linarith) hhi
  · -- between two integers the even one is taken, which is below `n` if the other is
    have hx : x = k + 1 / 2 := by linarith
    rw [← add_one_lt_iff (n := n) hx.ge hhi]
    omega

@[simp] lemma roundEven_natCast (n : ℕ) : roundEven n = n := by
  simp [roundEven]

theorem nearest_eq_self {m : ℕ} (hm : m < 2 ^ 53) (e : ℤ) :
    nearest (m * 2 ^ e) = m * 2 ^ e := by
  rcases Nat.eq_zero_or_pos m with rfl | hpos
  · simp [nearest, roundEven]
  set x : ℚ := m * 2 ^ e with hx
  have hx0 : 0 < x := mul_pos (Nat.cast_pos.mpr hpos) (zpow_pos two_pos e)
  -- the unit in the last place divides what is rounded
  have hlog : Int.log 2 x < 53 + e := by
    refine (Int.lt_zpow_iff_log_lt one_lt_two hx0).mp ?_
    rw [Nat.cast_ofNat, zpow_add₀ two_ne_zero]
    exact mul_lt_mul_of_pos_right (by exact_mod_cast hm) (zpow_pos two_pos e)
  obtain ⟨j, hj⟩ : ∃ j : ℕ, e = Int.log 2 x - 52 + j :=
    ⟨(e - (Int.log 2 x - 52)).toNat, by omega⟩
  have hulp : (2 : ℚ) ^ (Int.log 2 x - 52) ≠ 0 := (zpow_pos two_pos _).ne'
  have hint : x / 2 ^ (Int.log 2 x - 52) = (m * 2 ^ j : ℕ) := by
    rw [div_eq_iff hulp, hx]
    conv_lhs => rw [hj]
    rw [← hx, zpow_add₀ two_ne_zero, zpow_natCast]
    push_cast
    ring
  unfold nearest
  simp only
  rw [hint, roundEven_natCast, Int.cast_natCast, ← hint, div_mul_cancel₀ _ hulp]

lemma ofNat_eq_self {n : ℕ} (hn : n < 2 ^ 53) : ofNat n = n := by
  have h := nearest_eq_self hn 0
  rwa [zpow_zero, mul_one] at h

/-! ### Sizes -/

lemma roundEven_le (x : ℚ) : (roundEven x : ℚ) ≤ x + 1 / 2 := by
  have hlo := Int.floor_le x
  unfold roundEven
  simp only
  generalize ⌊x⌋ = k at hlo
  split_ifs with hdown hup
  · linarith
  · push_cast
    linarith
  · have hodd : ((k % 2 : ℤ) : ℚ) ≤ 1 := by exact_mod_cast (by omega : k % 2 ≤ 1)
    push_cast at hodd ⊢
    linarith

lemma nearest_nonneg {x : ℚ} (hx : 0 ≤ x) : 0 ≤ nearest x := by
  have hulp : (0 : ℚ) < 2 ^ (Int.log 2 x - 52) := zpow_pos two_pos _
  have hround : 0 ≤ roundEven (x / 2 ^ (Int.log 2 x - 52)) :=
    le_roundEven (by rw [Int.cast_zero]; exact div_nonneg hx hulp.le)
  unfold nearest
  exact mul_nonneg (by exact_mod_cast hround) hulp.le

theorem nearest_le {x : ℚ} (hx : 0 ≤ x) : nearest x ≤ 2 * x := by
  rcases hx.eq_or_lt with rfl | hpos
  · simp [nearest, roundEven]
  · have hulp : (0 : ℚ) < 2 ^ (Int.log 2 x - 52) := zpow_pos two_pos _
    have hlow : (2 : ℚ) ^ Int.log 2 x ≤ x := by
      exact_mod_cast Int.zpow_log_le_self one_lt_two hpos
    have hle : (2 : ℚ) ^ (Int.log 2 x - 52) ≤ x :=
      (zpow_le_zpow_right₀ one_le_two (by omega)).trans hlow
    have hround := roundEven_le (x / 2 ^ (Int.log 2 x - 52))
    have hmul := mul_le_mul_of_nonneg_right hround hulp.le
    rw [add_mul, div_mul_cancel₀ _ hulp.ne'] at hmul
    unfold nearest
    simp only
    linarith

lemma ofNat_le (n : ℕ) : ofNat n ≤ 2 * n := nearest_le n.cast_nonneg

lemma ofNat_nonneg (n : ℕ) : 0 ≤ ofNat n := nearest_nonneg n.cast_nonneg

lemma div_nonneg_of_nonneg {x y : ℚ} (hx : 0 ≤ x) (hy : 0 ≤ y) : 0 ≤ div x y :=
  nearest_nonneg (div_nonneg hx hy)

lemma div_le {x y : ℚ} (hx : 0 ≤ x) (hy : 0 ≤ y) : div x y ≤ 2 * (x / y) :=
  nearest_le (div_nonneg hx hy)

/-! ### Order -/

lemma floor_le_roundEven (x : ℚ) : ⌊x⌋ ≤ roundEven x := le_roundEven (Int.floor_le x)

@[simp] lemma roundEven_intCast (n : ℤ) : roundEven n = n := by
  simp [roundEven]

lemma roundEven_mono {x y : ℚ} (h : x ≤ y) : roundEven x ≤ roundEven y := by
  rcases (Int.floor_mono h).eq_or_lt with heq | hlt
  · unfold roundEven
    simp only [heq]
    split_ifs
    · exact le_refl _
    · omega
    · omega
    · linarith
    · exact le_refl _
    · linarith
    · linarith
    · omega
    · exact le_refl _
  · have hnext : roundEven x ≤ ⌊x⌋ + 1 := by
      unfold roundEven
      simp only
      split_ifs <;> omega
    calc roundEven x ≤ ⌊x⌋ + 1 := hnext
      _ ≤ ⌊y⌋ := hlt
      _ ≤ roundEven y := floor_le_roundEven y

lemma roundEven_le_of_le {x : ℚ} {n : ℤ} (h : x ≤ n) : roundEven x ≤ n :=
  (roundEven_mono h).trans (roundEven_intCast n).le

lemma abs_roundEven_sub_le (x : ℚ) : |(roundEven x : ℚ) - x| ≤ 1 / 2 := by
  have hhigh := roundEven_le x
  have hlow : x - 1 / 2 ≤ roundEven x := by
    have hlt := Int.lt_floor_add_one x
    unfold roundEven
    simp only
    generalize ⌊x⌋ = k at hlt
    split_ifs
    · linarith
    · push_cast
      linarith
    · have heven : (0 : ℚ) ≤ ((k % 2 : ℤ) : ℚ) := by exact_mod_cast (by omega : 0 ≤ k % 2)
      push_cast at heven ⊢
      linarith
  rw [abs_le]
  constructor <;> linarith

/-- The unit in the last place of a number. -/
lemma ulp_spec {x : ℚ} (hx : 0 < x) :
    (2 : ℚ) ^ 52 ≤ x / 2 ^ (Int.log 2 x - 52) ∧ x / 2 ^ (Int.log 2 x - 52) < 2 ^ 53 := by
  have hulp : (0 : ℚ) < 2 ^ (Int.log 2 x - 52) := zpow_pos two_pos _
  have hlow : (2 : ℚ) ^ Int.log 2 x ≤ x := by
    exact_mod_cast Int.zpow_log_le_self one_lt_two hx
  have hhigh : x < (2 : ℚ) ^ (Int.log 2 x + 1) := by
    exact_mod_cast Int.lt_zpow_succ_log_self one_lt_two x
  have h52 : ((52 : ℕ) : ℤ) + (Int.log 2 x - 52) = Int.log 2 x := by
    push_cast
    omega
  have h53 : ((53 : ℕ) : ℤ) + (Int.log 2 x - 52) = Int.log 2 x + 1 := by
    push_cast
    omega
  constructor
  · rw [le_div_iff₀ hulp, ← zpow_natCast, ← zpow_add₀ two_ne_zero, h52]
    exact hlow
  · rw [div_lt_iff₀ hulp, ← zpow_natCast, ← zpow_add₀ two_ne_zero, h53]
    exact hhigh

/-- The significand a number is rounded to. -/
lemma significand_bounds {x : ℚ} (hx : 0 < x) :
    2 ^ 52 ≤ roundEven (x / 2 ^ (Int.log 2 x - 52)) ∧
      roundEven (x / 2 ^ (Int.log 2 x - 52)) ≤ 2 ^ 53 := by
  obtain ⟨hlow, hhigh⟩ := ulp_spec hx
  exact ⟨le_roundEven (by exact_mod_cast hlow), roundEven_le_of_le (by exact_mod_cast hhigh.le)⟩

/-- A number and what it is rounded to lie between the same powers of two. -/
lemma nearest_bounds {x : ℚ} (hx : 0 < x) :
    (2 : ℚ) ^ Int.log 2 x ≤ nearest x ∧ nearest x ≤ 2 ^ (Int.log 2 x + 1) := by
  have hulp : (0 : ℚ) < 2 ^ (Int.log 2 x - 52) := zpow_pos two_pos _
  obtain ⟨hlow, hhigh⟩ := significand_bounds hx
  have h52 : (2 : ℚ) ^ Int.log 2 x = 2 ^ 52 * 2 ^ (Int.log 2 x - 52) := by
    rw [← zpow_natCast, ← zpow_add₀ two_ne_zero]
    congr 1
    push_cast
    omega
  have h53 : (2 : ℚ) ^ (Int.log 2 x + 1) = 2 ^ 53 * 2 ^ (Int.log 2 x - 52) := by
    rw [← zpow_natCast, ← zpow_add₀ two_ne_zero]
    congr 1
    push_cast
    omega
  rw [h52, h53]
  unfold nearest
  exact ⟨mul_le_mul_of_nonneg_right (by exact_mod_cast hlow) hulp.le,
    mul_le_mul_of_nonneg_right (by exact_mod_cast hhigh) hulp.le⟩

/-- **Rounding keeps the order.** -/
theorem nearest_mono {x y : ℚ} (hx : 0 ≤ x) (h : x ≤ y) : nearest x ≤ nearest y := by
  rcases hx.eq_or_lt with rfl | hpos
  · have hzero : nearest 0 = 0 := by simp [nearest, roundEven]
    rw [hzero]
    exact nearest_nonneg h
  · have hlog : Int.log 2 x ≤ Int.log 2 y := Int.log_mono_right hpos h
    rcases hlog.eq_or_lt with heq | hlt
    · -- the same unit in the last place
      have hulp : (0 : ℚ) < 2 ^ (Int.log 2 y - 52) := zpow_pos two_pos _
      unfold nearest
      simp only [heq]
      refine mul_le_mul_of_nonneg_right ?_ hulp.le
      exact_mod_cast roundEven_mono (div_le_div_of_nonneg_right h hulp.le)
    · calc nearest x ≤ 2 ^ (Int.log 2 x + 1) := (nearest_bounds hpos).2
        _ ≤ 2 ^ Int.log 2 y := zpow_le_zpow_right₀ one_le_two hlt
        _ ≤ nearest y := (nearest_bounds (hpos.trans_le h)).1

/-- Rounding is off by no more than one part in `2 ^ 53`. -/
theorem abs_nearest_sub_le {x : ℚ} (hx : 0 ≤ x) : |nearest x - x| ≤ x / 2 ^ 53 := by
  rcases hx.eq_or_lt with rfl | hpos
  · simp [nearest, roundEven]
  · have hulp : (0 : ℚ) < 2 ^ (Int.log 2 x - 52) := zpow_pos two_pos _
    have hscaled : nearest x - x =
        (roundEven (x / 2 ^ (Int.log 2 x - 52)) - x / 2 ^ (Int.log 2 x - 52)) *
          2 ^ (Int.log 2 x - 52) := by
      rw [sub_mul, div_mul_cancel₀ _ hulp.ne']
      rfl
    have hlow := (ulp_spec hpos).1
    rw [le_div_iff₀ hulp] at hlow
    calc |nearest x - x| = |(roundEven (x / 2 ^ (Int.log 2 x - 52)) : ℚ) -
          x / 2 ^ (Int.log 2 x - 52)| * 2 ^ (Int.log 2 x - 52) := by
          rw [hscaled, abs_mul, abs_of_pos hulp]
      _ ≤ 1 / 2 * 2 ^ (Int.log 2 x - 52) :=
          mul_le_mul_of_nonneg_right (abs_roundEven_sub_le _) hulp.le
      _ ≤ x / 2 ^ 53 := by
          rw [le_div_iff₀ (by positivity)]
          linarith

/-- What is rounded has no more than 53 significant bits. -/
lemma exists_significand {x : ℚ} (hx : 0 ≤ x) :
    ∃ m < 2 ^ 53, ∃ e : ℤ, nearest x = (m : ℕ) * 2 ^ e := by
  rcases hx.eq_or_lt with rfl | hpos
  · exact ⟨0, by decide, 0, by simp [nearest, roundEven]⟩
  · obtain ⟨hlow, hhigh⟩ := significand_bounds hpos
    obtain ⟨m, hm⟩ := Int.eq_ofNat_of_zero_le ((by norm_num : (0 : ℤ) ≤ 2 ^ 52).trans hlow)
    have hvalue : nearest x = (m : ℕ) * 2 ^ (Int.log 2 x - 52) := by
      unfold nearest
      simp only
      rw [hm]
      norm_cast
    rcases Nat.lt_or_ge m (2 ^ 53) with hlt | hge
    · exact ⟨m, hlt, _, hvalue⟩
    · have hmax : m = 2 ^ 53 := by omega
      refine ⟨2 ^ 52, by decide, Int.log 2 x - 52 + 1, ?_⟩
      rw [hvalue, hmax, zpow_add₀ two_ne_zero]
      push_cast
      ring

/-! ### The decimal form -/

lemma length_toFixed2_le {x : ℚ} {k : ℕ} (hk : 0 < k) (h : x ≤ 10 ^ k - 1) :
    (toFixed2 x).length ≤ k + 3 := by
  have hround := roundEven_le (x * 100)
  have hcents : roundEven (x * 100) < 100 * 10 ^ k := by
    have hlt : (roundEven (x * 100) : ℚ) < (100 * 10 ^ k : ℤ) := by
      push_cast
      linarith
    exact_mod_cast hlt
  have hnat : (roundEven (x * 100)).toNat / 100 < 10 ^ k := by
    have hlt : (roundEven (x * 100)).toNat < 100 * 10 ^ k := by
      have hpos : 0 < 100 * 10 ^ k := by positivity
      rw [Int.toNat_lt_of_ne_zero hpos.ne']
      exact_mod_cast hcents
    omega
  have hwhole := (Nat.length_toDigits_le_iff (b := 10) (by decide) hk).mpr hnat
  have hdigit : ∀ n : ℕ, (Nat.toDigits 10 (n % 10)).length ≤ 1 := fun n =>
    (Nat.length_toDigits_le_iff (by decide) Nat.one_pos).mpr (Nat.mod_lt _ (by decide))
  have htenth := hdigit ((roundEven (x * 100)).toNat / 10)
  have hlast := hdigit (roundEven (x * 100)).toNat
  unfold toFixed2
  simp only [List.length_append, List.length_singleton]
  omega

lemma mem_toFixed2 {x : ℚ} {c : Char} (h : c ∈ toFixed2 x) : c.isDigit = true ∨ c = '.' := by
  have hdigit : ∀ n : ℕ, c ∈ Nat.toDigits 10 n → c.isDigit = true := fun n hn =>
    Nat.isDigit_of_mem_toDigits (by decide) (by decide) hn
  unfold toFixed2 at h
  simp only [List.mem_append, List.mem_singleton] at h
  rcases h with ((h | h) | h) | h
  · exact .inl (hdigit _ h)
  · exact .inr h
  · exact .inl (hdigit _ h)
  · exact .inl (hdigit _ h)

/-- **The decimal form is read back** as the number rounded to two decimals. -/
theorem readFixed_toFixed2 {x : ℚ} (hx : 0 ≤ x) {s : List Char} (hs : Decimal.NoDigit s) :
    readFixed (toFixed2 x ++ s) = some ((roundEven (x * 100) / 100 : ℚ), s) := by
  obtain ⟨cents, hcents⟩ := Int.eq_ofNat_of_zero_le
    (le_roundEven (n := 0) (by rw [Int.cast_zero]; positivity) : 0 ≤ roundEven (x * 100))
  have htenth : cents / 10 % 10 < 10 := Nat.mod_lt _ (by decide)
  have hlast : cents % 10 < 10 := Nat.mod_lt _ (by decide)
  -- the two digits behind the point
  set frac := Nat.toDigits 10 (cents / 10 % 10) ++ Nat.toDigits 10 (cents % 10) with hfrac
  have hdigits : frac = [(cents / 10 % 10).digitChar, (cents % 10).digitChar] := by
    rw [hfrac, Nat.toDigits_of_lt_base htenth, Nat.toDigits_of_lt_base hlast]
    rfl
  have htext : toFixed2 x ++ s = Nat.toDigits 10 (cents / 100) ++ ('.' :: (frac ++ s)) := by
    unfold toFixed2
    rw [hcents]
    simp [hfrac]
  have htake : (frac ++ s).takeWhile Char.isDigit = frac := by
    rw [List.takeWhile_append_of_pos fun c hc => ?_]
    · cases s with
      | nil => simp
      | cons c s =>
        have hc : c.isDigit = false := hs c rfl
        simp [hc]
    · rw [hfrac, List.mem_append] at hc
      exact hc.elim Decimal.isDigit_of_mem Decimal.isDigit_of_mem
  have hvalue : Nat.ofDigitChars 10 frac 0 = cents % 100 := by
    rw [hdigits, Nat.ofDigitChars_cons_digitChar_of_lt_ten htenth,
      Nat.ofDigitChars_cons_digitChar_of_lt_ten hlast, Nat.ofDigitChars_nil]
    omega
  have hlen : frac.length = 2 := by rw [hdigits]; rfl
  have hdrop : (frac ++ s).drop 2 = s := by rw [← hlen, List.drop_left]
  have hread := Decimal.readNat_toDigits (cents / 100) (s := '.' :: (frac ++ s))
    (by rintro c hc; cases hc; rfl)
  have hsum : ((cents / 100 : ℕ) : ℚ) + ((cents % 100 : ℕ) : ℚ) / 10 ^ 2 = (cents : ℚ) / 100 := by
    have hdiv : ((100 * (cents / 100) + cents % 100 : ℕ) : ℚ) = cents := by
      rw [Nat.div_add_mod]
    push_cast at hdiv
    linarith
  unfold readFixed
  rw [htext, hread, Option.map_some]
  simp only [List.head?_cons, if_true, List.tail_cons, htake, hvalue, hlen]
  rw [hsum, hdrop, hcents, Int.cast_natCast]

lemma readFixed_toDigits (n : ℕ) {s : List Char} (hs : Decimal.NoDigit s)
    (hpoint : s.head? ≠ some '.') : readFixed (Nat.toDigits 10 n ++ s) = some ((n : ℚ), s) := by
  unfold readFixed
  rw [Decimal.readNat_toDigits n hs, Option.map_some, if_neg hpoint]

end Wiretally.Lib.F64
