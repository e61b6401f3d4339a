import Wiretally.Reports

/-!
The unit of a byte count in the report.

The unit is chosen before the number is rounded. Up to 53 bits the arithmetic is exact, so what
is printed is the count in the largest unit there is one of, rounded to two decimals; just below
the next unit that is 1024.00 of the smaller one.
-/

namespace Wiretally.ByteUnits

open Wiretally.Lib Wiretally.Lib.F64 Wiretally.Stats Wiretally.Reports

def inUnits (bytes k : ℕ) : ℚ := bytes / 1024 ^ k

/-- The hundredths of a unit that are printed. -/
def hundredths (bytes k : ℕ) : ℤ := roundEven (inUnits bytes k * 100)

/-- The count is printed in units of `1024 ^ k` bytes, with a number from 1.00 up to and not
including 1024.00. -/
structure ShownIn (bytes : UInt64) (k : ℕ) : Prop where
  unit : ∃ name, units[k - 1]? = some name ∧ 0 < k ∧
    formatBytes bytes = toFixed2 (inUnits bytes.toNat k) ++ [' '] ++ name
  one : 100 ≤ hundredths bytes.toNat k
  next : hundredths bytes.toNat k < 1024 * 100

/-! ### The unit that is chosen -/

lemma div_inUnits {bytes : ℕ} (h : bytes < 2 ^ 53) (k : ℕ) :
    F64.div (inUnits bytes k) 1024 = inUnits bytes (k + 1) := by
  have hpow : ∀ k : ℕ, inUnits bytes k = bytes * 2 ^ (-(10 * k : ℤ)) := by
    intro k
    unfold inUnits
    rw [zpow_neg, div_eq_mul_inv, zpow_mul, zpow_natCast]
    norm_num
  have hnext : inUnits bytes k / 1024 = inUnits bytes (k + 1) := by
    unfold inUnits
    rw [div_div, pow_succ]
  unfold F64.div
  rw [hnext, hpow, nearest_eq_self h]

lemma ofNat_eq {bytes : ℕ} (h : bytes < 2 ^ 53) : F64.ofNat bytes = inUnits bytes 0 := by
  have hself := nearest_eq_self h 0
  rw [zpow_zero, mul_one] at hself
  unfold F64.ofNat inUnits
  rw [hself, pow_zero, div_one]

lemma inUnits_lt {bytes k : ℕ} : inUnits bytes k < 1024 ↔ bytes < 1024 ^ (k + 1) := by
  unfold inUnits
  rw [div_lt_iff₀ (pow_pos (by norm_num) k), pow_succ, mul_comm]
  exact_mod_cast Iff.rfl

/-- The loop stops at the first unit there are fewer than 1024 of, or at the last. -/
lemma scale_spec {bytes : ℕ} (h : bytes < 2 ^ 53) (k : ℕ) (unit : Text) (rest : List Text) :
    ∃ j name, (unit :: rest)[j]? = some name ∧
      scale (inUnits bytes k) unit rest = (inUnits bytes (k + j), name) ∧
      (0 < j → 1024 ^ (k + j) ≤ bytes) ∧
      (j = rest.length ∨ bytes < 1024 ^ (k + j + 1)) := by
  induction rest generalizing k unit with
  | nil => exact ⟨0, unit, rfl, rfl, fun hj => absurd hj (Nat.lt_irrefl 0), .inl rfl⟩
  | cons next rest ih =>
    by_cases hlt : inUnits bytes k < 1024
    · refine ⟨0, unit, rfl, if_pos hlt, fun hj => absurd hj (Nat.lt_irrefl 0), .inr ?_⟩
      exact inUnits_lt.mp hlt
    · have hge : 1024 ^ (k + 1) ≤ bytes := Nat.le_of_not_lt fun hb => hlt (inUnits_lt.mpr hb)
      obtain ⟨j, name, hname, hscale, hmin, hmax⟩ := ih (k + 1) next
      refine ⟨j + 1, name, hname, ?_, fun _ => ?_, ?_⟩
      · unfold scale
        rw [if_neg hlt, div_inUnits h, hscale, Nat.add_right_comm, Nat.add_assoc]
      · rcases Nat.eq_zero_or_pos j with rfl | hj
        · exact hge
        · have := hmin hj
          rwa [Nat.add_right_comm, Nat.add_assoc] at this
      · refine hmax.imp (fun hj => ?_) fun hb => ?_
        · rw [hj, List.length_cons]
        · rwa [Nat.add_right_comm k 1 j, Nat.add_assoc k j 1] at hb

/-- **The unit of a count** is the largest there is one of, and the count is rounded in it. -/
lemma exists_unit {bytes : UInt64} (hmin : 1024 ≤ bytes.toNat) (hmax : bytes.toNat < 2 ^ 53) :
    ∃ k name, 0 < k ∧ units[k - 1]? = some name ∧
      formatBytes bytes = toFixed2 (inUnits bytes.toNat k) ++ [' '] ++ name ∧
      1024 ^ k ≤ bytes.toNat ∧ (k = 5 ∨ k < 5 ∧ bytes.toNat < 1024 ^ (k + 1)) := by
  have hlarge : ¬ bytes < 1024 := by
    rw [UInt64.lt_iff_toNat_lt]
    exact Nat.not_lt_of_le hmin
  obtain ⟨j, name, hname, hscale, hlo, hhi⟩ :=
    scale_spec hmax 1 (units.headD []) units.tail
  have hj : j < 5 := by
    have := (List.getElem?_eq_some_iff.mp hname).1
    simpa [units] using this
  refine ⟨1 + j, name, by omega, ?_, ?_, ?_, ?_⟩
  · rw [Nat.add_sub_cancel_left]
    exact hname
  · unfold formatBytes
    rw [if_neg hlarge, ofNat_eq hmax, div_inUnits hmax]
    simp only
    rw [hscale]
  · rcases Nat.eq_zero_or_pos j with rfl | hpos
    · simpa using hmin
    · exact hlo hpos
  · rcases hhi with hlast | hb
    · left
      rw [hlast]
      rfl
    · by_cases h5 : 1 + j = 5
      · exact .inl h5
      · exact .inr ⟨by omega, hb⟩

lemma unit_unique {k k' : ℕ} {name name' v v' : Text} (hk : 0 < k) (hk' : 0 < k')
    (hname : units[k - 1]? = some name) (hname' : units[k' - 1]? = some name')
    (htext : v ++ [' '] ++ name = v' ++ [' '] ++ name') : k = k' := by
  have hlength : ∀ name ∈ units, name.length = 2 := by decide +kernel
  have hnodup : units.Nodup := by decide +kernel
  have hlen : name.length = name'.length :=
    (hlength _ (List.mem_of_getElem? hname)).trans (hlength _ (List.mem_of_getElem? hname')).symm
  have hsame : name = name' := (List.append_inj' htext hlen).2
  have hidx : k - 1 = k' - 1 :=
    (List.getElem?_inj (List.getElem?_eq_some_iff.mp hname).1 hnodup).mp
      (by rw [hname, hname', hsame])
  omega

/-! ### The number that is printed -/

lemma le_hundredths {bytes k : ℕ} (h : 1024 ^ k ≤ bytes) : 100 ≤ hundredths bytes k := by
  have hone : 1 ≤ inUnits bytes k := by
    unfold inUnits
    rw [one_le_div (pow_pos (by norm_num) k)]
    exact_mod_cast h
  refine le_roundEven ?_
  push_cast
  linarith

lemma hundredths_lt_iff (bytes k : ℕ) :
    hundredths bytes k < 1024 * 100 ↔ 200 * bytes < 204799 * 1024 ^ k := by
  have hpow : (0 : ℚ) < 1024 ^ k := pow_pos (by norm_num) k
  have hhalf : inUnits bytes k * 100 < (1024 * 100 : ℤ) - 1 / 2 ↔
      inUnits bytes k < 204799 / 200 := by
    push_cast
    constructor <;> intro h <;> linarith
  unfold hundredths
  rw [roundEven_lt_iff (by decide), hhalf]
  unfold inUnits
  rw [div_lt_div_iff₀ hpow (by norm_num), mul_comm (bytes : ℚ)]
  exact_mod_cast Iff.rfl

/-- A count that is just below the next unit is not shown as it should be in any. -/
lemma not_shown_of_near {bytes : UInt64} (hmin : 1024 ≤ bytes.toNat) (hmax : bytes.toNat < 2 ^ 53)
    {k : ℕ} (hk : 0 < k) (hk5 : k < 5) (hnext : bytes.toNat < 1024 ^ (k + 1))
    (hnear : 204799 * 1024 ^ k ≤ 200 * bytes.toNat) : ¬ ∃ k', ShownIn bytes k' := by
  rintro ⟨k', ⟨name', hname', hk', htext'⟩, -, hlt⟩
  obtain ⟨k₀, name, hk₀, hname, htext, hone, hlast⟩ := exists_unit hmin hmax
  obtain rfl := unit_unique hk₀ hk' hname hname' (htext.symm.trans htext')
  rw [hundredths_lt_iff] at hlt
  -- the unit is that of the next power, or a smaller one
  have hle : k ≤ k₀ := by
    rcases hlast with h5 | ⟨-, hb⟩
    · omega
    · by_contra hgt
      have hpow : 1024 ^ (k₀ + 1) ≤ 1024 ^ k := Nat.pow_le_pow_right (by decide) (by omega)
      omega
  have hge : k₀ ≤ k := by
    by_contra hgt
    have hpow : 1024 ^ (k + 1) ≤ 1024 ^ k₀ := Nat.pow_le_pow_right (by decide) (by omega)
    omega
  obtain rfl := Nat.le_antisymm hle hge
  omega

/-- **The unit and the number.** A count from 1024 up to 53 bits is shown in a unit with a number
from 1.00 up to and not including 1024.00 exactly if it is not just below the next unit, by no
more than half a hundredth of the unit it is in. -/
theorem shown_iff {bytes : UInt64} (hmin : 1024 ≤ bytes.toNat) (hmax : bytes.toNat < 2 ^ 53) :
    (∃ k, ShownIn bytes k) ↔ ∀ k, 0 < k → k < 5 → bytes.toNat < 1024 ^ (k + 1) →
      200 * bytes.toNat < 204799 * 1024 ^ k := by
  constructor
  · intro hshown k hk hk5 hnext
    by_contra hnear
    exact not_shown_of_near hmin hmax hk hk5 hnext (Nat.le_of_not_lt hnear) hshown
  · intro hfar
    obtain ⟨k, name, hk, hname, htext, hone, hlast⟩ := exists_unit hmin hmax
    refine ⟨k, ⟨name, hname, hk, htext⟩, le_hundredths hone, (hundredths_lt_iff _ k).mpr ?_⟩
    rcases hlast with rfl | ⟨hk5, hb⟩
    · omega
    · exact hfar k hk hk5 hb

theorem shown_iff_megabyte :
    (∃ k, ShownIn 1048576 k) ↔ ∀ k, 0 < k → k < 5 → (1048576 : UInt64).toNat < 1024 ^ (k + 1) →
      200 * (1048576 : UInt64).toNat < 204799 * 1024 ^ k :=
  shown_iff (by decide) (by decide)

/-- One byte less than a megabyte. -/
theorem megabyte_less_one :
    formatBytes 1048575 = "1024.00 KB".toList ∧ ¬ ∃ k, ShownIn 1048575 k :=
  ⟨by decide +kernel,
    not_shown_of_near (k := 1) (by decide) (by decide) (by decide) (by decide) (by decide)
      (by decide)⟩

end Wiretally.ByteUnits
