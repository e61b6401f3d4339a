import Mathlib.Data.Char
import Mathlib.Data.List.Forall2
import Wiretally.Lib.Decimal

/-!
JSON texts whose numbers are integers.

What texts a value has is a matter of a grammar: blanks may stand around any token, and a
character of a string may be written raw or escaped in several ways. The reader finds the value
of every text the grammar allows, so no text is that of two values, and whatever writes a text
of a value, the value can be read back from it.
-/

namespace Wiretally.Lib.Json

open Wiretally.Lib.Decimal

abbrev Text := List Char

inductive Value
  | null
  | bool (b : Bool)
  | num (n : ℤ)
  | str (s : Text)
  | arr (elems : List Value)
  | obj (members : List (Text × Value))

/-! ### The grammar -/

def isBlank (c : Char) : Bool := c = ' ' || c = '\t' || c = '\n' || c = '\r'

def hexDigit (c : Char) : Option ℕ :=
  if '0' ≤ c ∧ c ≤ '9' then some (c.toNat - '0'.toNat)
  else if 'a' ≤ c ∧ c ≤ 'f' then some (c.toNat - 'a'.toNat + 10)
  else if 'A' ≤ c ∧ c ≤ 'F' then some (c.toNat - 'A'.toNat + 10)
  else none

def hexUnit (a b c d : Char) : Option ℕ :=
  (hexDigit a).bind fun a => (hexDigit b).bind fun b => (hexDigit c).bind fun c =>
    (hexDigit d).map fun d => ((a * 16 + b) * 16 + c) * 16 + d

/-- The escapes that have a letter of their own. -/
def shortEscapes : List (Char × Char) :=
  [('"', '"'), ('\\', '\\'), ('/', '/'), ('b', '\x08'), ('f', '\x0c'), ('n', '\n'), ('r', '\r'),
    ('t', '\t')]

/-- The ways to write a character in a string. -/
inductive CharText : Char → Text → Prop
  | raw {c : Char} (hctrl : ¬ c < ' ') (hquote : c ≠ '"') (hslash : c ≠ '\\') : CharText c [c]
  | short {e c : Char} (he : shortEscapes.lookup e = some c) : CharText c ['\\', e]
  | unit {c x y z w : Char} (hu : hexUnit x y z w = some c.toNat) :
      CharText c ['\\', 'u', x, y, z, w]
  | pair {c x y z w x' y' z' w' : Char} {hi lo : ℕ} (hhi : hexUnit x y z w = some (0xD800 + hi))
      (hlo : hexUnit x' y' z' w' = some (0xDC00 + lo)) (hlt : hi < 0x400) (hlt' : lo < 0x400)
      (hc : c.toNat = 0x10000 + hi * 0x400 + lo) :
      CharText c ['\\', 'u', x, y, z, w, '\\', 'u', x', y', z', w']

/-- The characters of a string between its quotes. -/
inductive StringText : Text → Text → Prop
  | nil : StringText [] []
  | cons {c : Char} {s t u : Text} (hc : CharText c t) (hs : StringText s u) :
      StringText (c :: s) (t ++ u)

/-- What the grammar speaks of: a value, or what is inside an array or an object that is not
empty, each up to the bracket that closes it. -/
inductive Item
  | value (v : Value)
  | elems (vs : List Value)
  | members (ms : List (Text × Value))

def Blanks (t : Text) : Prop := ∀ c ∈ t, isBlank c = true

/-- **The grammar.** -/
inductive Derives : Item → Text → Prop
  | null : Derives (.value .null) ['n', 'u', 'l', 'l']
  | yes : Derives (.value (.bool true)) ['t', 'r', 'u', 'e']
  | no : Derives (.value (.bool false)) ['f', 'a', 'l', 's', 'e']
  | num (n : ℤ) : Derives (.value (.num n)) (decimal n)
  | str {s t : Text} (hs : StringText s t) : Derives (.value (.str s)) ('"' :: (t ++ ['"']))
  | noElems {ws : Text} (hw : Blanks ws) : Derives (.value (.arr [])) ('[' :: (ws ++ [']']))
  | arr {vs : List Value} {t : Text} (hvs : Derives (.elems vs) t) :
      Derives (.value (.arr vs)) ('[' :: t)
  | noMembers {ws : Text} (hw : Blanks ws) : Derives (.value (.obj [])) ('{' :: (ws ++ ['}']))
  | obj {ms : List (Text × Value)} {t : Text} (hms : Derives (.members ms) t) :
      Derives (.value (.obj ms)) ('{' :: t)
  | lastElem {v : Value} {ws t ws' : Text} (hw : Blanks ws) (hv : Derives (.value v) t)
      (hw' : Blanks ws') : Derives (.elems [v]) (ws ++ t ++ ws' ++ [']'])
  | elem {v : Value} {vs : List Value} {ws t ws' u : Text} (hw : Blanks ws)
      (hv : Derives (.value v) t) (hw' : Blanks ws') (hvs : Derives (.elems vs) u) :
      Derives (.elems (v :: vs)) (ws ++ t ++ ws' ++ ',' :: u)
  | lastMember {k : Text} {v : Value} {ws q ws₁ ws₂ t ws' : Text} (hw : Blanks ws)
      (hk : StringText k q) (hw₁ : Blanks ws₁) (hw₂ : Blanks ws₂) (hv : Derives (.value v) t)
      (hw' : Blanks ws') :
      Derives (.members [(k, v)])
        (ws ++ '"' :: (q ++ '"' :: (ws₁ ++ ':' :: (ws₂ ++ t ++ ws' ++ ['}']))))
  | member {k : Text} {v : Value} {ms : List (Text × Value)} {ws q ws₁ ws₂ t ws' u : Text}
      (hw : Blanks ws) (hk : StringText k q) (hw₁ : Blanks ws₁) (hw₂ : Blanks ws₂)
      (hv : Derives (.value v) t) (hw' : Blanks ws') (hms : Derives (.members ms) u) :
      Derives (.members ((k, v) :: ms))
        (ws ++ '"' :: (q ++ '"' :: (ws₁ ++ ':' :: (ws₂ ++ t ++ ws' ++ ',' :: u))))

/-- A text of a value. -/
def IsText (v : Value) (t : Text) : Prop :=
  ∃ ws t' ws', t = ws ++ t' ++ ws' ∧ Blanks ws ∧ Derives (.value v) t' ∧ Blanks ws'

/-! ### The reader

A reader takes the text left and gives back what it read with the text after it. The fuel of the
recursive ones is a bound on the text. -/

def skipBlanks (s : Text) : Text := s.dropWhile isBlank

def readUnit : Text → Option (ℕ × Text)
  | a :: b :: c :: d :: s => (hexUnit a b c d).map fun n => (n, s)
  | _ => none

/-- An escape by number, of which it takes two for a character beyond the first plane. -/
def readUnicode (s : Text) : Option (Char × Text) :=
  (readUnit s).bind fun (hi, s) =>
    if 0xD800 ≤ hi ∧ hi < 0xDC00 then
      (s.dropPrefix? ['\\', 'u']).bind fun s => (readUnit s).bind fun (lo, s) =>
        if 0xDC00 ≤ lo ∧ lo < 0xE000 then
          some (Char.ofNat (0x10000 + (hi - 0xD800) * 0x400 + (lo - 0xDC00)), s)
        else none
    else if 0xDC00 ≤ hi ∧ hi < 0xE000 then none
    else some (Char.ofNat hi, s)

def readChar : Text → Option (Char × Text)
  | [] => none
  | [c] => if c < ' ' ∨ c = '"' ∨ c = '\\' then none else some (c, [])
  | c :: e :: s =>
    if c = '\\' then
      if e = 'u' then readUnicode s else (shortEscapes.lookup e).map fun c => (c, s)
    else if c < ' ' ∨ c = '"' then none
    else some (c, e :: s)

/-- The rest of a string, up to and with its closing quote. -/
def readString : ℕ → Text → Option (Text × Text)
  | 0, _ => none
  | n + 1, s =>
    if s.head? = some '"' then some ([], s.tail)
    else (readChar s).bind fun (c, s) => (readString n s).map fun (cs, s) => (c :: cs, s)

/-- A number, which must be an integer. -/
def readNumber (s : Text) : Option (ℤ × Text) :=
  (readInt s).bind fun (n, s) =>
    if s.head? = some '.' ∨ s.head? = some 'e' ∨ s.head? = some 'E' then none else some (n, s)

def expect (c : Char) (s : Text) : Option Text :=
  match skipBlanks s with
  | [] => none
  | d :: s => if d = c then some s else none

/-- Behind blanks, a comma or the bracket that closes; whether it was the comma. -/
def readNext (close : Char) (s : Text) : Option (Bool × Text) :=
  match skipBlanks s with
  | [] => none
  | c :: s => if c = ',' then some (true, s) else if c = close then some (false, s) else none

mutual

/-- A value, behind blanks. -/
def readValue : ℕ → Text → Option (Value × Text)
  | 0, _ => none
  | n + 1, s =>
    match skipBlanks s with
    | [] => none
    | c :: s =>
      if c = '"' then (readString n s).map fun (t, s) => (.str t, s)
      else if c = '[' then
        if (skipBlanks s).head? = some ']' then some (.arr [], (skipBlanks s).tail)
        else (readElems n s).map fun (vs, s) => (.arr vs, s)
      else if c = '{' then
        if (skipBlanks s).head? = some '}' then some (.obj [], (skipBlanks s).tail)
        else (readMembers n s).map fun (ms, s) => (.obj ms, s)
      else if c = 'n' then (s.dropPrefix? ['u', 'l', 'l']).map fun s => (.null, s)
      else if c = 't' then (s.dropPrefix? ['r', 'u', 'e']).map fun s => (.bool true, s)
      else if c = 'f' then (s.dropPrefix? ['a', 'l', 's', 'e']).map fun s => (.bool false, s)
      else (readNumber (c :: s)).map fun (n, s) => (.num n, s)

def readElems : ℕ → Text → Option (List Value × Text)
  | 0, _ => none
  | n + 1, s =>
    (readValue n s).bind fun (v, s) => (readNext ']' s).bind fun (more, s) =>
      if more then (readElems n s).map fun (vs, s) => (v :: vs, s) else some ([v], s)

def readMembers : ℕ → Text → Option (List (Text × Value) × Text)
  | 0, _ => none
  | n + 1, s =>
    (expect '"' s).bind fun s => (readString n s).bind fun (k, s) =>
      (expect ':' s).bind fun s => (readValue n s).bind fun (v, s) =>
        (readNext '}' s).bind fun (more, s) =>
          if more then (readMembers n s).map fun (ms, s) => ((k, v) :: ms, s) else some ([(k, v)], s)

end

def parse (s : Text) : Option Value :=
  (readValue (s.length + 1) s).bind fun (v, s) => if skipBlanks s = [] then some v else none

example : (parse "[ -12,\"\\u00e9\\ud83d\\ude00\" ]".toList).isSome = true := by decide +kernel

/-! ### Blanks -/

lemma skipBlanks_append {ws : Text} (hw : Blanks ws) (s : Text) :
    skipBlanks (ws ++ s) = skipBlanks s :=
  List.dropWhile_append_of_pos hw

lemma skipBlanks_cons {c : Char} (hc : isBlank c = false) (s : Text) : skipBlanks (c :: s) = c :: s := by
  unfold skipBlanks
  rw [List.dropWhile_cons, hc]
  rfl

lemma skipBlanks_of_blanks {ws : Text} (hw : Blanks ws) : skipBlanks ws = [] := by
  have happ := skipBlanks_append hw []
  rwa [List.append_nil] at happ

lemma expect_append {ws : Text} (hw : Blanks ws) {c : Char} (hc : isBlank c = false) (s : Text) :
    expect c (ws ++ c :: s) = some s := by
  rw [expect, skipBlanks_append hw, skipBlanks_cons hc]
  exact if_pos rfl

lemma readNext_comma {ws : Text} (hw : Blanks ws) (close : Char) (s : Text) :
    readNext close (ws ++ ',' :: s) = some (true, s) := by
  rw [readNext, skipBlanks_append hw, skipBlanks_cons (by decide)]
  exact if_pos rfl

lemma readNext_close {ws : Text} (hw : Blanks ws) {close : Char} (hc : isBlank close = false)
    (hcomma : close ≠ ',') (s : Text) : readNext close (ws ++ close :: s) = some (false, s) := by
  rw [readNext, skipBlanks_append hw, skipBlanks_cons hc]
  dsimp only
  rw [if_neg hcomma, if_pos rfl]

/-! ### Strings -/

lemma dropPrefix?_append (p s : Text) : (p ++ s).dropPrefix? p = some s :=
  List.dropPrefix?_append_of_beq s (beq_self_eq_true p)

lemma char_eq {c : Char} {n : ℕ} (h : n = c.toNat) : Char.ofNat n = c := by
  rw [h, Char.ofNat_toNat]

/-- **A character is read back**, however it is written. -/
lemma readChar_append {c : Char} {t : Text} (h : CharText c t) (s : Text) :
    readChar (t ++ s) = some (c, s) := by
  cases h with
  | raw hctrl hquote hslash => cases s <;> simp [readChar, hctrl, hquote, hslash]
  | @short e _ he =>
    have hu : e ≠ 'u' := by
      rintro rfl
      cases he
    simp [readChar, hu, he]
  | @unit _ x y z w hu =>
    have hvalid : c.toNat < 0xD800 ∨ 0xDFFF < c.toNat := by
      rcases c.valid with h | h
      · exact .inl h
      · exact .inr h.1
    have hunit : readUnit ([x, y, z, w] ++ s) = some (c.toNat, s) := by
      simp [readUnit, hu]
    change readUnicode ([x, y, z, w] ++ s) = _
    rw [readUnicode, hunit]
    simp only [Option.bind_some]
    rw [if_neg (by omega), if_neg (by omega), char_eq rfl]
  | @pair _ x y z w x' y' z' w' hi lo hhi hlo hlt hlt' hc =>
    have hunit : readUnit ([x, y, z, w] ++ (['\\', 'u'] ++ ([x', y', z', w'] ++ s))) =
        some (0xD800 + hi, ['\\', 'u'] ++ ([x', y', z', w'] ++ s)) := by
      simp [readUnit, hhi]
    have hunit' : readUnit ([x', y', z', w'] ++ s) = some (0xDC00 + lo, s) := by
      simp [readUnit, hlo]
    change readUnicode ([x, y, z, w] ++ (['\\', 'u'] ++ ([x', y', z', w'] ++ s))) = _
    rw [readUnicode, hunit]
    simp only [Option.bind_some]
    rw [if_pos (by omega), dropPrefix?_append]
    simp only [Option.bind_some]
    rw [hunit']
    simp only [Option.bind_some]
    have hchar : Char.ofNat (0x10000 + (0xD800 + hi - 0xD800) * 0x400 + (0xDC00 + lo - 0xDC00)) = c :=
      char_eq (by omega)
    rw [if_pos (by omega), hchar]

lemma CharText.head {c : Char} {t : Text} (h : CharText c t) (s : Text) :
    ∃ d t', t ++ s = d :: t' ∧ d ≠ '"' ∧ 0 < t.length := by
  cases h with
  | raw _ hquote => exact ⟨_, _, rfl, hquote, Nat.one_pos⟩
  | short => exact ⟨_, _, rfl, by decide, Nat.zero_lt_succ _⟩
  | unit => exact ⟨_, _, rfl, by decide, Nat.zero_lt_succ _⟩
  | pair => exact ⟨_, _, rfl, by decide, Nat.zero_lt_succ _⟩

/-- **A string is read back**, up to its closing quote. -/
lemma readString_append {cs t : Text} (h : StringText cs t) {n : ℕ} (hn : t.length < n) (s : Text) :
    readString n (t ++ '"' :: s) = some (cs, s) := by
  induction h generalizing n with
  | nil =>
    obtain ⟨m, rfl⟩ := Nat.exists_eq_add_one_of_ne_zero (Nat.ne_zero_of_lt hn)
    rfl
  | @cons c cs t u hc hs ih =>
    obtain ⟨m, rfl⟩ := Nat.exists_eq_add_one_of_ne_zero (Nat.ne_zero_of_lt hn)
    obtain ⟨d, t', hd, hquote, hpos⟩ := hc.head (u ++ '"' :: s)
    rw [List.length_append] at hn
    have hrest := ih (n := m) (by omega)
    rw [List.append_assoc, readString, hd, if_neg (by simpa using hquote), ← hd, readChar_append hc]
    simp only [Option.bind_some, hrest, Option.map_some]

/-! ### Integers -/

/-- An integer ends where `s` begins. -/
def Ends (s : Text) : Prop := ∀ c ∈ s.head?, c.isDigit = false ∧ c ≠ '.' ∧ c ≠ 'e' ∧ c ≠ 'E'

lemma ends_nil : Ends [] := by
  rintro c ⟨⟩

lemma ends_cons {c : Char} (h : c.isDigit = false ∧ c ≠ '.' ∧ c ≠ 'e' ∧ c ≠ 'E') (s : Text) :
    Ends (c :: s) := by
  rintro _ ⟨⟩
  exact h

lemma ends_append {ws : Text} (hw : Blanks ws) {s : Text} (hs : Ends s) : Ends (ws ++ s) := by
  cases ws with
  | nil => exact hs
  | cons c ws =>
    refine ends_cons ?_ (ws ++ s)
    have hc : c = ' ' ∨ c = '\t' ∨ c = '\n' ∨ c = '\r' := by
      simpa [isBlank, or_assoc] using hw c List.mem_cons_self
    rcases hc with rfl | rfl | rfl | rfl <;> decide

lemma readNumber_decimal (n : ℤ) {s : Text} (hs : Ends s) :
    readNumber (decimal n ++ s) = some (n, s) := by
  have hstop : ¬ (s.head? = some '.' ∨ s.head? = some 'e' ∨ s.head? = some 'E') := by
    rintro (h | h | h)
    · exact (hs _ h).2.1 rfl
    · exact (hs _ h).2.2.1 rfl
    · exact (hs _ h).2.2.2 rfl
  rw [readNumber, readInt_decimal n fun c hc => (hs c hc).1]
  simp only [Option.bind_some]
  rw [if_neg hstop]

/-! ### Values -/

/-- A digit or a sign begins nothing else. -/
lemma of_decimal_head {c : Char} (h : c.isDigit = true ∨ c = '-') :
    isBlank c = false ∧ c ≠ '"' ∧ c ≠ '[' ∧ c ≠ ']' ∧ c ≠ '{' ∧ c ≠ 'n' ∧ c ≠ 't' ∧ c ≠ 'f' := by
  rcases h with h | rfl
  · have hne : ∀ d : Char, d.isDigit = false → c ≠ d := by
      rintro d hd rfl
      rw [h] at hd
      cases hd
    refine ⟨?_, hne _ (by decide), hne _ (by decide), hne _ (by decide), hne _ (by decide),
      hne _ (by decide), hne _ (by decide), hne _ (by decide)⟩
    simp only [isBlank, hne ' ' (by decide), hne '\t' (by decide), hne '\n' (by decide),
      hne '\r' (by decide), decide_false, Bool.or_self]
  · decide

/-- A value begins with no blank and with no closing bracket. -/
lemma Derives.head {v : Value} {t : Text} (h : Derives (.value v) t) :
    ∃ c t', t = c :: t' ∧ isBlank c = false ∧ c ≠ ']' := by
  cases h with
  | num n =>
    obtain ⟨c, t, ht, hc⟩ := decimal_head n
    obtain ⟨hblank, -, -, hclose, -⟩ := of_decimal_head hc
    exact ⟨c, t, ht, hblank, hclose⟩
  | _ => exact ⟨_, _, rfl, by decide, by decide⟩

/-- What is inside an array begins, behind blanks, with no closing bracket. -/
lemma Derives.elems_head {vs : List Value} {t : Text} (h : Derives (.elems vs) t) (s : Text) :
    (skipBlanks (t ++ s)).head? ≠ some ']' := by
  have hvalue : ∀ {v ws t u}, Blanks ws → Derives (.value v) t →
      (skipBlanks (ws ++ (t ++ u))).head? ≠ some ']' := by
    intro v ws t u hw hv
    obtain ⟨c, t', rfl, hblank, hclose⟩ := hv.head
    rw [skipBlanks_append hw, List.cons_append, skipBlanks_cons hblank, List.head?_cons]
    simpa using hclose
  cases h with
  | lastElem hw hv hw' =>
    simp only [List.append_assoc]
    exact hvalue hw hv
  | elem hw hv hw' hvs =>
    simp only [List.append_assoc]
    exact hvalue hw hv

/-- What is inside an object begins, behind blanks, with a quote. -/
lemma Derives.members_head {ms : List (Text × Value)} {t : Text} (h : Derives (.members ms) t)
    (s : Text) : (skipBlanks (t ++ s)).head? ≠ some '}' := by
  have hquote : ∀ {ws u}, Blanks ws → (skipBlanks (ws ++ '"' :: u)).head? ≠ some '}' := by
    intro ws u hw
    rw [skipBlanks_append hw, skipBlanks_cons (by decide), List.head?_cons]
    decide
  cases h with
  | lastMember hw =>
    rw [List.append_assoc]
    exact hquote hw
  | member hw =>
    rw [List.append_assoc]
    exact hquote hw

/-- An item is read from a text, given fuel for it. -/
def Reads : Item → Text → Prop
  | .value v, t => ∀ {n : ℕ} {ws s : Text}, t.length < n → Blanks ws → Ends s →
    readValue n (ws ++ (t ++ s)) = some (v, s)
  | .elems vs, t => ∀ {n : ℕ} {s : Text}, t.length < n → readElems n (t ++ s) = some (vs, s)
  | .members ms, t => ∀ {n : ℕ} {s : Text}, t.length < n → readMembers n (t ++ s) = some (ms, s)

lemma exists_succ {n k : ℕ} (h : k < n) : ∃ m, n = m + 1 ∧ k ≤ m :=
  ⟨n - 1, by omega, by omega⟩

lemma ends_bracket {c : Char} (hc : c = ',' ∨ c = ']' ∨ c = '}') (s : Text) : Ends (c :: s) := by
  rcases hc with rfl | rfl | rfl <;> exact ends_cons (by decide) s

/-- **Whatever the grammar derives is read.** -/
theorem reads_of_derives {item : Item} {t : Text} (h : Derives item t) : Reads item t := by
  induction h with
  | null =>
    intro n ws s hn hw hs
    obtain ⟨m, rfl, -⟩ := exists_succ hn
    change readValue (m + 1) (ws ++ 'n' :: (['u', 'l', 'l'] ++ s)) = _
    rw [readValue, skipBlanks_append hw, skipBlanks_cons (by decide)]
    dsimp only
    rw [if_neg (by decide), if_neg (by decide), if_neg (by decide), if_pos rfl, dropPrefix?_append]
    rfl
  | yes =>
    intro n ws s hn hw hs
    obtain ⟨m, rfl, -⟩ := exists_succ hn
    change readValue (m + 1) (ws ++ 't' :: (['r', 'u', 'e'] ++ s)) = _
    rw [readValue, skipBlanks_append hw, skipBlanks_cons (by decide)]
    dsimp only
    rw [if_neg (by decide), if_neg (by decide), if_neg (by decide), if_neg (by decide), if_pos rfl,
      dropPrefix?_append]
    rfl
  | no =>
    intro n ws s hn hw hs
    obtain ⟨m, rfl, -⟩ := exists_succ hn
    change readValue (m + 1) (ws ++ 'f' :: (['a', 'l', 's', 'e'] ++ s)) = _
    rw [readValue, skipBlanks_append hw, skipBlanks_cons (by decide)]
    dsimp only
    rw [if_neg (by decide), if_neg (by decide), if_neg (by decide), if_neg (by decide),
      if_neg (by decide), if_pos rfl, dropPrefix?_append]
    rfl
  | num k =>
    intro n ws s hn hw hs
    obtain ⟨m, rfl, -⟩ := exists_succ hn
    obtain ⟨c, t, ht, hc⟩ := decimal_head k
    obtain ⟨hblank, hquote, harr, -, hobj, hnull, hyes, hno⟩ := of_decimal_head hc
    have hread := readNumber_decimal k hs
    rw [ht, List.cons_append] at hread ⊢
    rw [readValue, skipBlanks_append hw, skipBlanks_cons hblank]
    dsimp only
    rw [if_neg hquote, if_neg harr, if_neg hobj, if_neg hnull, if_neg hyes, if_neg hno, hread]
    rfl
  | @str cs t hs =>
    intro n ws s hn hw _
    obtain ⟨m, rfl, hm⟩ := exists_succ hn
    have hread := readString_append hs (n := m) (by simp at hm; omega) s
    change readValue (m + 1) (ws ++ '"' :: (t ++ ['"'] ++ s)) = _
    rw [readValue, skipBlanks_append hw, skipBlanks_cons (by decide)]
    dsimp only
    rw [if_pos rfl, List.append_assoc, List.singleton_append, hread]
    rfl
  | @noElems ws' hw' =>
    intro n ws s hn hw _
    obtain ⟨m, rfl, -⟩ := exists_succ hn
    change readValue (m + 1) (ws ++ '[' :: (ws' ++ [']'] ++ s)) = _
    have hclose : skipBlanks (ws' ++ [']'] ++ s) = ']' :: s := by
      rw [List.append_assoc, skipBlanks_append hw']
      exact skipBlanks_cons (by decide) s
    rw [readValue, skipBlanks_append hw, skipBlanks_cons (by decide)]
    dsimp only
    rw [if_neg (by decide), if_pos rfl, hclose]
    rfl
  | @arr vs t hvs ih =>
    intro n ws s hn hw _
    obtain ⟨m, rfl, hm⟩ := exists_succ hn
    have hread : readElems m (t ++ s) = some (vs, s) := ih hm
    change readValue (m + 1) (ws ++ '[' :: (t ++ s)) = _
    rw [readValue, skipBlanks_append hw, skipBlanks_cons (by decide)]
    dsimp only
    rw [if_neg (by decide), if_pos rfl, if_neg (hvs.elems_head s), hread]
    rfl
  | @noMembers ws' hw' =>
    intro n ws s hn hw _
    obtain ⟨m, rfl, -⟩ := exists_succ hn
    change readValue (m + 1) (ws ++ '{' :: (ws' ++ ['}'] ++ s)) = _
    have hclose : skipBlanks (ws' ++ ['}'] ++ s) = '}' :: s := by
      rw [List.append_assoc, skipBlanks_append hw']
      exact skipBlanks_cons (by decide) s
    rw [readValue, skipBlanks_append hw, skipBlanks_cons (by decide)]
    dsimp only
    rw [if_neg (by decide), if_neg (by decide), if_pos rfl, hclose]
    rfl
  | @obj ms t hms ih =>
    intro n ws s hn hw _
    obtain ⟨m, rfl, hm⟩ := exists_succ hn
    have hread : readMembers m (t ++ s) = some (ms, s) := ih hm
    change readValue (m + 1) (ws ++ '{' :: (t ++ s)) = _
    rw [readValue, skipBlanks_append hw, skipBlanks_cons (by decide)]
    dsimp only
    rw [if_neg (by decide), if_neg (by decide), if_pos rfl, if_neg (hms.members_head s), hread]
    rfl
  | @lastElem v ws t ws' hw hv hw' ih =>
    intro n s hn
    obtain ⟨m, rfl, hm⟩ := exists_succ hn
    simp only [List.length_append, List.length_singleton] at hm
    have hread : readValue m (ws ++ (t ++ (ws' ++ ']' :: s))) = some (v, ws' ++ ']' :: s) :=
      ih (by omega) hw (ends_append hw' (ends_bracket (.inr (.inl rfl)) s))
    simp only [List.append_assoc, List.singleton_append]
    rw [readElems, hread]
    simp only [Option.bind_some, readNext_close hw' (show isBlank ']' = false by decide) (by decide)]
    rfl
  | @elem v vs ws t ws' u hw hv hw' hvs ih ih' =>
    intro n s hn
    obtain ⟨m, rfl, hm⟩ := exists_succ hn
    simp only [List.length_append, List.length_cons] at hm
    have hread : readValue m (ws ++ (t ++ (ws' ++ ',' :: (u ++ s)))) =
        some (v, ws' ++ ',' :: (u ++ s)) :=
      ih (by omega) hw (ends_append hw' (ends_bracket (.inl rfl) _))
    have hrest : readElems m (u ++ s) = some (vs, s) := ih' (by omega)
    simp only [List.append_assoc, List.cons_append]
    rw [readElems, hread]
    simp only [Option.bind_some, readNext_comma hw', if_true, hrest, Option.map_some]
  | @lastMember k v ws q ws₁ ws₂ t ws' hw hk hw₁ hw₂ hv hw' ih =>
    intro n s hn
    obtain ⟨m, rfl, hm⟩ := exists_succ hn
    simp only [List.length_append, List.length_cons, List.length_nil] at hm
    have hread : readValue m (ws₂ ++ (t ++ (ws' ++ '}' :: s))) = some (v, ws' ++ '}' :: s) :=
      ih (by omega) hw₂ (ends_append hw' (ends_bracket (.inr (.inr rfl)) s))
    have hkey := readString_append hk (n := m) (by omega)
      (ws₁ ++ ':' :: (ws₂ ++ (t ++ (ws' ++ '}' :: s))))
    simp only [List.append_assoc, List.cons_append, List.nil_append]
    rw [readMembers, expect_append hw (by decide)]
    simp only [Option.bind_some, hkey, expect_append hw₁ (show isBlank ':' = false by decide), hread,
      readNext_close hw' (show isBlank '}' = false by decide) (by decide)]
    rfl
  | @member k v ms ws q ws₁ ws₂ t ws' u hw hk hw₁ hw₂ hv hw' hms ih ih' =>
    intro n s hn
    obtain ⟨m, rfl, hm⟩ := exists_succ hn
    simp only [List.length_append, List.length_cons] at hm
    have hread : readValue m (ws₂ ++ (t ++ (ws' ++ ',' :: (u ++ s)))) =
        some (v, ws' ++ ',' :: (u ++ s)) :=
      ih (by omega) hw₂ (ends_append hw' (ends_bracket (.inl rfl) _))
    have hrest : readMembers m (u ++ s) = some (ms, s) := ih' (by omega)
    have hkey := readString_append hk (n := m) (by omega)
      (ws₁ ++ ':' :: (ws₂ ++ (t ++ (ws' ++ ',' :: (u ++ s)))))
    simp only [List.append_assoc, List.cons_append]
    rw [readMembers, expect_append hw (by decide)]
    simp only [Option.bind_some, hkey, expect_append hw₁ (show isBlank ':' = false by decide), hread,
      readNext_comma hw', if_true, hrest, Option.map_some]

/-- **A text has one value**, and it is read. -/
theorem parse_of_isText {v : Value} {t : Text} (h : IsText v t) : parse t = some v := by
  obtain ⟨ws, t', ws', rfl, hw, ht, hw'⟩ := h
  have hread : readValue ((ws ++ t' ++ ws').length + 1) (ws ++ (t' ++ ws')) = some (v, ws') := by
    have hends := ends_append hw' ends_nil
    rw [List.append_nil] at hends
    exact reads_of_derives ht (by simp only [List.length_append]; omega) hw hends
  rw [parse, List.append_assoc] at *
  rw [hread]
  simp only [Option.bind_some]
  rw [if_pos (skipBlanks_of_blanks hw')]

/-! ### A writer

One value or member to a line, two blanks further in for each level. -/

/-- The letters a writer uses. -/
def letters : List (Char × Char) :=
  [('"', '"'), ('\\', '\\'), ('\x08', 'b'), ('\x0c', 'f'), ('\n', 'n'), ('\r', 'r'), ('\t', 't')]

def writeChar (c : Char) : Text :=
  match letters.find? fun e => e.1 = c with
  | some e => ['\\', e.2]
  | none =>
    if c < ' ' then
      ['\\', 'u', '0', '0', Nat.digitChar (c.toNat / 16), Nat.digitChar (c.toNat % 16)]
    else [c]

def quote (s : Text) : Text := '"' :: (s.flatMap writeChar ++ ['"'])

def newline (depth : ℕ) : Text := '\n' :: List.replicate (2 * depth) ' '

/-- The items of an array or an object, up to and with the bracket that closes it. -/
def layOut (depth : ℕ) (close : Char) : List Text → Text
  | [] => [close]
  | [t] => newline (depth + 1) ++ t ++ newline depth ++ [close]
  | t :: u :: ts => newline (depth + 1) ++ t ++ ',' :: layOut depth close (u :: ts)

mutual

def prettyValue (depth : ℕ) : Value → Text
  | .null => ['n', 'u', 'l', 'l']
  | .bool true => ['t', 'r', 'u', 'e']
  | .bool false => ['f', 'a', 'l', 's', 'e']
  | .num n => decimal n
  | .str s => quote s
  | .arr vs => '[' :: layOut depth ']' (prettyElems (depth + 1) vs)
  | .obj ms => '{' :: layOut depth '}' (prettyMembers (depth + 1) ms)

def prettyElems (depth : ℕ) : List Value → List Text
  | [] => []
  | v :: vs => prettyValue depth v :: prettyElems depth vs

def prettyMembers (depth : ℕ) : List (Text × Value) → List Text
  | [] => []
  | (k, v) :: ms => (quote k ++ [':', ' '] ++ prettyValue depth v) :: prettyMembers depth ms

end

def pretty (v : Value) : Text := prettyValue 0 v

lemma charText_writeChar (c : Char) : CharText c (writeChar c) := by
  unfold writeChar
  cases h : letters.find? fun e => e.1 = c with
  | some e =>
    have hall : ∀ e ∈ letters, shortEscapes.lookup e.2 = some e.1 := by decide
    have hc : e.1 = c := by simpa using List.find?_some h
    exact .short (hc ▸ hall e (List.mem_of_find?_eq_some h))
  | none =>
    have hne : ∀ e ∈ letters, e.1 ≠ c := by simpa using List.find?_eq_none.mp h
    dsimp only
    split_ifs with hctrl
    · have hall : ∀ n < 32, hexUnit '0' '0' (Nat.digitChar (n / 16)) (Nat.digitChar (n % 16)) =
          some n := by
        decide
      exact .unit (hall c.toNat hctrl)
    · exact .raw hctrl (hne ('"', '"') (by decide)).symm (hne ('\\', '\\') (by decide)).symm

lemma stringText_writeChar (s : Text) : StringText s (s.flatMap writeChar) := by
  induction s with
  | nil => exact .nil
  | cons c s ih => exact .cons (charText_writeChar c) ih

lemma blanks_newline (depth : ℕ) : Blanks (newline depth) := by
  intro c hc
  rcases List.mem_cons.mp hc with rfl | hc
  · decide
  · rw [List.eq_of_mem_replicate hc]
    decide

lemma blanks_nil : Blanks [] := fun _ hc => absurd hc List.not_mem_nil

/-- A text of a member as it is laid out. -/
def MemberText (m : Text × Value) (t : Text) : Prop :=
  ∃ u, t = quote m.1 ++ [':', ' '] ++ u ∧ Derives (.value m.2) u

lemma derives_layOut_elems (depth : ℕ) {v : Value} {vs : List Value} {ts : List Text}
    (h : List.Forall₂ (fun v t => Derives (.value v) t) (v :: vs) ts) :
    Derives (.elems (v :: vs)) (layOut depth ']' ts) := by
  induction vs generalizing v ts with
  | nil =>
    obtain ⟨t, _, hv, hnil, rfl⟩ := List.forall₂_cons_left_iff.mp h
    cases hnil
    exact .lastElem (blanks_newline _) hv (blanks_newline _)
  | cons w vs ih =>
    obtain ⟨t, _, hv, hrest, rfl⟩ := List.forall₂_cons_left_iff.mp h
    have hvs := ih hrest
    obtain ⟨u, us, -, -, rfl⟩ := List.forall₂_cons_left_iff.mp hrest
    have helem := Derives.elem (blanks_newline (depth + 1)) hv blanks_nil hvs
    rwa [List.append_nil] at helem

lemma derives_layOut_members (depth : ℕ) {m : Text × Value} {ms : List (Text × Value)}
    {ts : List Text} (h : List.Forall₂ MemberText (m :: ms) ts) :
    Derives (.members (m :: ms)) (layOut depth '}' ts) := by
  have hspace : Blanks [' '] := by
    intro c hc
    rw [List.mem_singleton.mp hc]
    decide
  induction ms generalizing m ts with
  | nil =>
    obtain ⟨_, _, ⟨u, rfl, hu⟩, hnil, rfl⟩ := List.forall₂_cons_left_iff.mp h
    cases hnil
    have hmember := Derives.lastMember (blanks_newline (depth + 1)) (stringText_writeChar m.1)
      blanks_nil hspace hu (blanks_newline depth)
    simpa [layOut, quote] using hmember
  | cons m' ms ih =>
    obtain ⟨_, _, ⟨u, rfl, hu⟩, hrest, rfl⟩ := List.forall₂_cons_left_iff.mp h
    have hms := ih hrest
    obtain ⟨u', us, -, -, rfl⟩ := List.forall₂_cons_left_iff.mp hrest
    have hmember := Derives.member (blanks_newline (depth + 1)) (stringText_writeChar m.1)
      blanks_nil hspace hu blanks_nil hms
    simpa [layOut, quote] using hmember

mutual

/-- **What is written is a text of the value.** -/
theorem derives_prettyValue (depth : ℕ) : (v : Value) → Derives (.value v) (prettyValue depth v)
  | .null => .null
  | .bool true => .yes
  | .bool false => .no
  | .num n => .num n
  | .str s => .str (stringText_writeChar s)
  | .arr [] => .noElems blanks_nil
  | .arr (v :: vs) => .arr (derives_layOut_elems depth (derives_prettyElems (depth + 1) (v :: vs)))
  | .obj [] => .noMembers blanks_nil
  | .obj (m :: ms) =>
    .obj (derives_layOut_members depth (derives_prettyMembers (depth + 1) (m :: ms)))

theorem derives_prettyElems (depth : ℕ) : (vs : List Value) →
    List.Forall₂ (fun v t => Derives (.value v) t) vs (prettyElems depth vs)
  | [] => .nil
  | v :: vs => .cons (derives_prettyValue depth v) (derives_prettyElems depth vs)

theorem derives_prettyMembers (depth : ℕ) : (ms : List (Text × Value)) →
    List.Forall₂ MemberText ms (prettyMembers depth ms)
  | [] => .nil
  | (_, v) :: ms =>
    .cons ⟨_, rfl, derives_prettyValue depth v⟩ (derives_prettyMembers depth ms)

end

theorem isText_pretty (v : Value) : IsText v (pretty v) :=
  ⟨[], _, [], (List.append_nil _).symm, blanks_nil, derives_prettyValue 0 v, blanks_nil⟩

end Wiretally.Lib.Json
