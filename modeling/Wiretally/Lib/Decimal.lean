import Mathlib.Data.Int.Basic
import Mathlib.Data.List.Basic

/-!
Integers in decimal, written and read back.

The digits are those of `Nat.toDigits`. A reader takes the text left and gives back what it read
with the text after it; a number ends where no digit follows, and has no zero in front.
-/

namespace Wiretally.Lib.Decimal

def decimal : ℤ → List Char
  | .ofNat n => Nat.toDigits 10 n
  | .negSucc n => '-' :: Nat.toDigits 10 (n + 1)

def readNat (s : List Char) : Option (ℕ × List Char) :=
  let digits := s.takeWhile Char.isDigit
  if digits = [] then none
  else if digits.head? = some '0' ∧ 1 < digits.length then none
  else some (Nat.ofDigitChars 10 digits 0, s.drop digits.length)

def readInt (s : List Char) : Option (ℤ × List Char) :=
  if s.head? = some '-' then (readNat s.tail).map fun (n, s) => (-n, s)
  else (readNat s).map fun (n, s) => (n, s)

lemma isDigit_of_mem {n : ℕ} {c : Char} (h : c ∈ Nat.toDigits 10 n) : c.isDigit = true :=
  Nat.isDigit_of_mem_toDigits (by decide) (by decide) h

/-- Only zero is written with a zero in front. -/
lemma head_toDigits {b n : ℕ} (hb : 1 < b) (hn : n ≠ 0) : (Nat.toDigits b n).head? ≠ some '0' := by
  induction n using Nat.strongRecOn with
  | ind n ih =>
    rw [Nat.toDigits_eq_if hb]
    split_ifs with hlt
    · simpa using hn
    · have hpos : n / b ≠ 0 := Nat.div_ne_zero_iff.mpr ⟨by omega, Nat.le_of_not_lt hlt⟩
      have hdiv := ih (n / b) (Nat.div_lt_self (Nat.pos_of_ne_zero hn) hb) hpos
      rwa [List.head?_append_of_ne_nil _ Nat.toDigits_ne_nil]

/-- An integer begins with a digit or a sign. -/
lemma decimal_head (n : ℤ) : ∃ c t, decimal n = c :: t ∧ (c.isDigit = true ∨ c = '-') := by
  cases n with
  | ofNat n =>
    obtain ⟨c, t, hct⟩ := List.exists_cons_of_ne_nil (Nat.toDigits_ne_nil (b := 10) (n := n))
    exact ⟨c, t, hct, .inl (isDigit_of_mem (hct ▸ List.mem_cons_self))⟩
  | negSucc n => exact ⟨_, _, rfl, .inr rfl⟩

def NoDigit (s : List Char) : Prop := ∀ c ∈ s.head?, c.isDigit = false

lemma readNat_toDigits (n : ℕ) {s : List Char} (hs : NoDigit s) :
    readNat (Nat.toDigits 10 n ++ s) = some (n, s) := by
  have htake : (Nat.toDigits 10 n ++ s).takeWhile Char.isDigit = Nat.toDigits 10 n := by
    rw [List.takeWhile_append_of_pos fun c hc => isDigit_of_mem hc]
    cases s with
    | nil => simp
    | cons c s =>
      have hc : c.isDigit = false := hs c rfl
      simp [hc]
  have hlead : ¬ ((Nat.toDigits 10 n).head? = some '0' ∧ 1 < (Nat.toDigits 10 n).length) := by
    rintro ⟨hzero, hlong⟩
    by_cases hn : n = 0
    · subst hn
      exact absurd hlong (by decide)
    · exact head_toDigits (by decide) hn hzero
  unfold readNat
  dsimp only
  rw [htake, List.drop_left, if_neg Nat.toDigits_ne_nil, if_neg hlead, Nat.ofDigitChars_ten_toDigits]

/-- **An integer is read back**, up to where it ends. -/
theorem readInt_decimal (n : ℤ) {s : List Char} (hs : NoDigit s) :
    readInt (decimal n ++ s) = some (n, s) := by
  cases n with
  | ofNat n =>
    obtain ⟨c, t, hct⟩ := List.exists_cons_of_ne_nil (Nat.toDigits_ne_nil (b := 10) (n := n))
    have hc : c ≠ '-' := by
      rintro rfl
      exact absurd (isDigit_of_mem (hct ▸ List.mem_cons_self)) (by decide)
    have hread := readNat_toDigits n hs
    change readInt (Nat.toDigits 10 n ++ s) = _
    rw [readInt, hct] at *
    rw [if_neg (by simpa using hc), hread]
    rfl
  | negSucc n =>
    have hread := readNat_toDigits (n + 1) hs
    change readInt ('-' :: (Nat.toDigits 10 (n + 1) ++ s)) = _
    rw [readInt, if_pos List.head?_cons, List.tail_cons, hread]
    rfl

end Wiretally.Lib.Decimal
