import Mathlib.Data.List.DropRight
import Mathlib.Data.List.Basic

/-!
Text as the proxy handles it: a `String` is the list of its scalar values, and the standard
library's conversions from bytes are spelled out.

One scan reads the scalar value at the head of a byte string or says how many bytes do not
belong to one. Both conversions run it: the strict one gives up at the first invalid
sequence, the lossy one puts a replacement character there and goes on.
-/

namespace Wiretally

/-- A Rust `String`: its Unicode scalar values. -/
abbrev Text := List Char

namespace Text

/-- What the bytes at the head of a string are: a character, or bytes that are none. -/
inductive Scan
  | char (c : Char) (width : ℕ)
  | invalid (width : ℕ)

def isCont (b : UInt8) : Bool := 0x80 ≤ b && b ≤ 0xBF

/-- The second bytes a three- or four-byte lead allows: no overlong forms, no surrogates, and
nothing above the last scalar value. -/
def secondOk (lead b : UInt8) : Bool :=
  if lead = 0xE0 then 0xA0 ≤ b && b ≤ 0xBF
  else if lead = 0xED then 0x80 ≤ b && b ≤ 0x9F
  else if lead = 0xF0 then 0x90 ≤ b && b ≤ 0xBF
  else if lead = 0xF4 then 0x80 ≤ b && b ≤ 0x8F
  else isCont b

def low6 (b : UInt8) : ℕ := b.toNat % 64

/-- Reads the character that starts with `lead`; `rest` reads as zero past its end. -/
def scanChar (lead : UInt8) (rest : List UInt8) : Scan :=
  let b1 := rest.getD 0 0
  let b2 := rest.getD 1 0
  let b3 := rest.getD 2 0
  if lead < 0x80 then .char (Char.ofNat lead.toNat) 1
  else if 0xC2 ≤ lead ∧ lead ≤ 0xDF then
    if isCont b1 then .char (Char.ofNat (lead.toNat % 32 * 64 + low6 b1)) 2 else .invalid 1
  else if 0xE0 ≤ lead ∧ lead ≤ 0xEF then
    if !secondOk lead b1 then .invalid 1
    else if !isCont b2 then .invalid 2
    else .char (Char.ofNat ((lead.toNat % 16 * 64 + low6 b1) * 64 + low6 b2)) 3
  else if 0xF0 ≤ lead ∧ lead ≤ 0xF4 then
    if !secondOk lead b1 then .invalid 1
    else if !isCont b2 then .invalid 2
    else if !isCont b3 then .invalid 3
    else .char (Char.ofNat (((lead.toNat % 8 * 64 + low6 b1) * 64 + low6 b2) * 64 + low6 b3)) 4
  else .invalid 1

/-- At most `fuel` characters of `bytes`; every character takes at least one byte. -/
def lossyGo : ℕ → List UInt8 → Text
  | 0, _ => []
  | _, [] => []
  | fuel + 1, lead :: rest =>
    match scanChar lead rest with
    | .char c width => c :: lossyGo fuel (rest.drop (width - 1))
    | .invalid width => '\uFFFD' :: lossyGo fuel (rest.drop (width - 1))

/-- `String::from_utf8_lossy`. -/
def fromUtf8Lossy (bytes : List UInt8) : Text := lossyGo bytes.length bytes

def strictGo : ℕ → List UInt8 → Option Text
  | _, [] => some []
  | 0, _ => none
  | fuel + 1, lead :: rest =>
    match scanChar lead rest with
    | .char c width => (strictGo fuel (rest.drop (width - 1))).map (c :: ·)
    | .invalid _ => none

/-- `str::from_utf8`, without the position of the error. -/
def fromUtf8 (bytes : List UInt8) : Option Text := strictGo bytes.length bytes

/-- `str::trim_end_matches` with a single character. -/
def trimEndMatches (c : Char) (s : Text) : Text := s.rdropWhile (· == c)

def toAsciiLowercase (s : Text) : Text := s.map Char.toLower

def eqIgnoreAsciiCase (s t : Text) : Bool := toAsciiLowercase s == toAsciiLowercase t

/-! ### Encoding -/

def asBytes (s : Text) : List UInt8 := s.flatMap String.utf8EncodeChar

lemma toNat_ofNat_of_lt {n : ℕ} (h : n < 256) : (UInt8.ofNat n).toNat = n := by
  rw [UInt8.toNat_ofNat']
  omega

lemma between_ofNat {n : ℕ} (h : n < 256) (lo hi : UInt8) :
    (lo ≤ UInt8.ofNat n ∧ UInt8.ofNat n ≤ hi) ↔ lo.toNat ≤ n ∧ n ≤ hi.toNat := by
  rw [UInt8.le_iff_toNat_le, UInt8.le_iff_toNat_le, toNat_ofNat_of_lt h]

lemma not_ascii_ofNat {n : ℕ} (h : n < 256) (hn : 0x80 ≤ n) : ¬UInt8.ofNat n < 0x80 := by
  rw [UInt8.lt_iff_toNat_lt, toNat_ofNat_of_lt h]
  exact Nat.not_lt.mpr hn

lemma isCont_ofNat {n : ℕ} (h : n < 64) : isCont (.ofNat (n + 0x80)) = true := by
  have hbetween := (between_ofNat (show n + 0x80 < 256 by omega) 0x80 0xBF).mpr
    ⟨by simp, by simp; omega⟩
  simpa [isCont] using hbetween

lemma low6_ofNat {n : ℕ} (h : n < 64) : low6 (.ofNat (n + 0x80)) = n := by
  rw [low6, toNat_ofNat_of_lt (by omega)]
  omega

/-- The second byte of a character that takes three bytes and is no surrogate. -/
lemma secondOk_three {v : ℕ} (h : 0x7ff < v) (hv : v < 0xd800 ∨ 0xdfff < v ∧ v ≤ 0xffff) :
    secondOk (.ofNat (v / 4096 % 0x10 + 0xe0)) (.ofNat (v / 64 % 0x40 + 0x80)) = true := by
  have h1 := toNat_ofNat_of_lt (show v / 4096 % 0x10 + 0xe0 < 256 by omega)
  have h2 := toNat_ofNat_of_lt (show v / 64 % 0x40 + 0x80 < 256 by omega)
  unfold secondOk isCont
  simp only [← UInt8.toNat_inj, UInt8.le_iff_toNat_le, h1, h2, UInt8.reduceToNat]
  split_ifs <;> simp only [Bool.and_eq_true, decide_eq_true_eq] <;> omega

lemma secondOk_four {v : ℕ} (h : 0xffff < v) (hv : v < 0x110000) :
    secondOk (.ofNat (v / 262144 % 0x08 + 0xf0)) (.ofNat (v / 4096 % 0x40 + 0x80)) = true := by
  have h1 := toNat_ofNat_of_lt (show v / 262144 % 0x08 + 0xf0 < 256 by omega)
  have h2 := toNat_ofNat_of_lt (show v / 4096 % 0x40 + 0x80 < 256 by omega)
  unfold secondOk isCont
  simp only [← UInt8.toNat_inj, UInt8.le_iff_toNat_le, h1, h2, UInt8.reduceToNat]
  split_ifs <;> simp only [Bool.and_eq_true, decide_eq_true_eq] <;> omega

lemma scanChar_encode (c : Char) : ∃ lead tail, String.utf8EncodeChar c = lead :: tail ∧
    ∀ rest, scanChar lead (tail ++ rest) = .char c (tail.length + 1) := by
  have hvalid : c.val.toNat < 0xd800 ∨ 0xdfff < c.val.toNat ∧ c.val.toNat < 0x110000 := c.valid
  have hc : Char.ofNat c.val.toNat = c := Char.ofNat_toNat c
  unfold String.utf8EncodeChar
  generalize c.val.toNat = v at hvalid hc
  dsimp only
  split_ifs with h1 h2 h3
  · refine ⟨_, _, rfl, fun rest => ?_⟩
    have hlead := toNat_ofNat_of_lt (show v < 256 by omega)
    unfold scanChar
    rw [if_pos (by rw [UInt8.lt_iff_toNat_lt, hlead]; exact Nat.lt_succ_of_le h1), hlead, hc]
    rfl
  · refine ⟨_, _, rfl, fun rest => ?_⟩
    have hlt : v / 64 % 0x20 + 0xc0 < 256 := by omega
    have hval : (v / 64 % 0x20 + 0xc0) % 32 * 64 + v % 0x40 = v := by omega
    unfold scanChar
    simp only [List.cons_append, List.getD_cons_zero]
    rw [if_neg (not_ascii_ofNat hlt (by omega)),
      if_pos ((between_ofNat hlt _ _).mpr ⟨by simp; omega, by simp; omega⟩),
      if_pos (isCont_ofNat (by omega)), toNat_ofNat_of_lt hlt, low6_ofNat (by omega), hval, hc]
    rfl
  · refine ⟨_, _, rfl, fun rest => ?_⟩
    have hlt : v / 4096 % 0x10 + 0xe0 < 256 := by omega
    have hval : ((v / 4096 % 0x10 + 0xe0) % 16 * 64 + v / 64 % 0x40) * 64 + v % 0x40 = v := by omega
    unfold scanChar
    simp only [List.cons_append, List.getD_cons_zero, List.getD_cons_succ]
    rw [if_neg (not_ascii_ofNat hlt (by omega)),
      if_neg (mt (between_ofNat hlt _ _).mp (by simp)),
      if_pos ((between_ofNat hlt _ _).mpr ⟨by simp, by simp; omega⟩),
      secondOk_three (by omega) (by omega), isCont_ofNat (by omega), toNat_ofNat_of_lt hlt,
      low6_ofNat (by omega), low6_ofNat (by omega), hval, hc]
    rfl
  · refine ⟨_, _, rfl, fun rest => ?_⟩
    have hlt : v / 262144 % 0x08 + 0xf0 < 256 := by omega
    have hval : (((v / 262144 % 0x08 + 0xf0) % 8 * 64 + v / 4096 % 0x40) * 64 + v / 64 % 0x40) * 64
        + v % 0x40 = v := by omega
    unfold scanChar
    simp only [List.cons_append, List.getD_cons_zero, List.getD_cons_succ]
    rw [if_neg (not_ascii_ofNat hlt (by omega)),
      if_neg (mt (between_ofNat hlt _ _).mp (by simp)),
      if_neg (mt (between_ofNat hlt _ _).mp (by simp)),
      if_pos ((between_ofNat hlt _ _).mpr ⟨by simp, by simp; omega⟩),
      secondOk_four (by omega) (by omega), isCont_ofNat (by omega), isCont_ofNat (by omega),
      toNat_ofNat_of_lt hlt, low6_ofNat (by omega), low6_ofNat (by omega), low6_ofNat (by omega),
      hval, hc]
    rfl

lemma lossyGo_asBytes (s : Text) {fuel : ℕ} (h : s.length ≤ fuel) : lossyGo fuel (asBytes s) = s := by
  induction s generalizing fuel with
  | nil => cases fuel <;> rfl
  | cons c s ih =>
    obtain ⟨lead, tail, hc, hscan⟩ := scanChar_encode c
    obtain ⟨fuel, rfl⟩ := Nat.exists_eq_add_of_lt (Nat.lt_of_lt_of_le (Nat.succ_pos s.length) h)
    have hbytes : asBytes (c :: s) = lead :: (tail ++ asBytes s) := by
      rw [asBytes, List.flatMap_cons, hc]
      rfl
    rw [hbytes, Nat.zero_add, lossyGo, hscan]
    simp only [Nat.add_sub_cancel, List.drop_left]
    rw [ih (by simp at h; omega)]

lemma length_le_asBytes (s : Text) : s.length ≤ (asBytes s).length := by
  induction s with
  | nil => exact Nat.zero_le _
  | cons c s ih =>
    obtain ⟨lead, tail, hc, -⟩ := scanChar_encode c
    rw [asBytes, List.flatMap_cons, hc, List.length_append, List.length_cons]
    simp only [List.length_cons]
    unfold asBytes at ih
    omega

/-- **A text is read back from its bytes.** -/
theorem fromUtf8Lossy_asBytes (s : Text) : fromUtf8Lossy (asBytes s) = s :=
  lossyGo_asBytes s (length_le_asBytes s)

/-! ### Canonical names -/

/-- A name without trailing dots, in lower case. -/
def canonical (s : Text) : Text := toAsciiLowercase (trimEndMatches '.' s)

lemma val_toLower (c : Char) :
    c.toLower.val = if 'A'.val ≤ c.val ∧ c.val ≤ 'Z'.val then c.val + 32 else c.val := by
  delta Char.toLower
  split <;> grind

lemma toLower_toLower (c : Char) : c.toLower.toLower = c.toLower := by
  rw [Char.ext_iff, val_toLower, val_toLower]
  split_ifs <;> grind [UInt32.toNat_add, Char.toNat_val]

lemma isUpper_iff (c : Char) : c.isUpper = true ↔ 65 ≤ c.toNat ∧ c.toNat ≤ 90 :=
  decide_eq_true_iff

lemma isLower_iff (c : Char) : c.isLower = true ↔ 97 ≤ c.toNat ∧ c.toNat ≤ 122 :=
  Bool.and_eq_true_iff.trans (and_congr decide_eq_true_iff decide_eq_true_iff)

lemma isAlpha_eq_false (c : Char) : c.isAlpha = false ↔
    ¬ (65 ≤ c.toNat ∧ c.toNat ≤ 90) ∧ ¬ (97 ≤ c.toNat ∧ c.toNat ≤ 122) := by
  rw [← isUpper_iff, ← isLower_iff, Bool.not_eq_true, Bool.not_eq_true]
  exact Bool.or_eq_false_iff

lemma toLower_eq_iff {k : Char} (h : k.isAlpha = false) (c : Char) : c.toLower = k ↔ c = k := by
  obtain ⟨hupper, hlower⟩ := (isAlpha_eq_false k).mp h
  rw [Char.ext_iff, Char.ext_iff, val_toLower]
  simp only [← UInt32.toNat_inj, UInt32.le_iff_toNat_le]
  split_ifs with hc
  · simp [UInt32.toNat_add] at hc ⊢
    omega
  · rfl

lemma isDot_comp_toLower : ((· == '.') ∘ Char.toLower) = fun c : Char => c == '.' := by
  funext c
  rw [Bool.eq_iff_iff]
  simp only [Function.comp_apply, beq_iff_eq]
  exact toLower_eq_iff (by decide) c

@[simp] lemma toAsciiLowercase_idem (s : Text) :
    toAsciiLowercase (toAsciiLowercase s) = toAsciiLowercase s := by
  unfold toAsciiLowercase
  rw [List.map_map]
  exact List.map_congr_left fun c _ => toLower_toLower c

lemma trimEndMatches_idem (c : Char) (s : Text) :
    trimEndMatches c (trimEndMatches c s) = trimEndMatches c s :=
  List.rdropWhile_idempotent _ _

lemma trimEndMatches_toAsciiLowercase (s : Text) :
    trimEndMatches '.' (toAsciiLowercase s) = toAsciiLowercase (trimEndMatches '.' s) := by
  unfold trimEndMatches toAsciiLowercase List.rdropWhile
  rw [← List.map_reverse, List.dropWhile_map, isDot_comp_toLower, List.map_reverse]

@[simp] lemma canonical_idem (s : Text) : canonical (canonical s) = canonical s := by
  unfold canonical
  rw [trimEndMatches_toAsciiLowercase, toAsciiLowercase_idem, trimEndMatches_idem]

/-- Only a trailing dot is lost. -/
lemma canonical_eq_iff (s : Text) :
    canonical s = toAsciiLowercase s ↔ s.getLast? ≠ some '.' := by
  have hmap : canonical s = toAsciiLowercase s ↔ trimEndMatches '.' s = s := by
    constructor
    · intro h
      have hlen := congrArg List.length h
      simp only [canonical, toAsciiLowercase, List.length_map] at hlen
      exact List.IsPrefix.eq_of_length (List.rdropWhile_prefix _ s) hlen
    · intro h
      rw [canonical, h]
  rw [hmap, trimEndMatches, List.rdropWhile_eq_self_iff]
  constructor
  · intro h hlast
    have hne : s ≠ [] := by
      rintro rfl
      cases hlast
    refine h hne ?_
    rw [List.getLast?_eq_some_getLast hne] at hlast
    simpa using hlast
  · intro h hne hdot
    rw [List.getLast?_eq_some_getLast hne] at h
    exact h (congrArg some (by simpa using hdot))

end Text

end Wiretally
