import Mathlib.Data.Vector.Basic
import Wiretally.Text

/-!
IP addresses, socket addresses, and the two directions of their standard text form.

The printer and the parser are the standard library's: IPv4 as four decimal octets without
leading zeros; IPv6 in lower-case hexadecimal groups with the first longest run of at least
two zero groups written as `::`, and an IPv4-mapped address with its last 32 bits dotted.
-/

namespace Wiretally.Net

open Wiretally.Text

inductive IpAddr
  | v4 (octets : List.Vector UInt8 4)
  | v6 (octets : List.Vector UInt8 16)
  deriving DecidableEq

structure SocketAddr where
  ip : IpAddr
  port : UInt16
  deriving DecidableEq

def localhost : IpAddr := .v4 ⟨[127, 0, 0, 1], rfl⟩

def segments (o : List.Vector UInt8 16) : List ℕ :=
  (List.range 8).map fun i =>
    (o.val.getD (2 * i) 0).toNat * 256 + (o.val.getD (2 * i + 1) 0).toNat

/-! ### Printing -/

def dotted (octets : List UInt8) : Text :=
  ['.'].intercalate (octets.map fun b => Nat.toDigits 10 b.toNat)

/-- Groups in hexadecimal, joined by colons. -/
def fmtSubslice (groups : List ℕ) : Text := [':'].intercalate (groups.map (Nat.toDigits 16))

/-- A run of zero groups: where it starts and how long it is. -/
structure Span where
  start : ℕ
  len : ℕ

/-- Walks the groups from index `i` with the run in progress and the longest one so far. -/
def longestGo : ℕ → Span → Span → List ℕ → Span
  | _, _, longest, [] => longest
  | i, current, longest, g :: rest =>
    if g = 0 then
      let start := if current.len = 0 then i else current.start
      let current : Span := ⟨start, current.len + 1⟩
      longestGo (i + 1) current (if longest.len < current.len then current else longest) rest
    else longestGo (i + 1) ⟨0, 0⟩ longest rest

def longestZeroes (groups : List ℕ) : Span := longestGo 0 ⟨0, 0⟩ ⟨0, 0⟩ groups

def IpAddr.toText : IpAddr → Text
  | .v4 o => dotted o.val
  | .v6 o =>
    let groups := segments o
    if groups.take 6 = [0, 0, 0, 0, 0, 0xFFFF] then "::ffff:".toList ++ dotted (o.val.drop 12)
    else
      let zeroes := longestZeroes groups
      if 1 < zeroes.len then
        fmtSubslice (groups.take zeroes.start) ++ "::".toList
          ++ fmtSubslice (groups.drop (zeroes.start + zeroes.len))
      else fmtSubslice groups

/-! ### Parsing

A reader takes the text left and gives back what it read with the text after it. -/

def toDigit (radix : ℕ) (c : Char) : Option ℕ :=
  let d := if '0' ≤ c ∧ c ≤ '9' then some (c.toNat - '0'.toNat)
    else if 'a' ≤ c ∧ c ≤ 'z' then some (c.toNat - 'a'.toNat + 10)
    else if 'A' ≤ c ∧ c ≤ 'Z' then some (c.toNat - 'A'.toNat + 10)
    else none
  d.filter (· < radix)

/-- Reads a number of at most `maxDigits` digits and at most `bound`. -/
def readNumber (radix maxDigits bound : ℕ) (allowZeroPrefix : Bool) (s : Text) :
    Option (ℕ × Text) :=
  let digits := s.takeWhile fun c => (toDigit radix c).isSome
  let value := digits.foldl (fun n c => n * radix + (toDigit radix c).getD 0) 0
  if digits.length = 0 ∨ maxDigits < digits.length then none
  else if !allowZeroPrefix ∧ digits.head? = some '0' ∧ 1 < digits.length then none
  else if bound < value then none
  else some (value, s.drop digits.length)

def readGivenChar (c : Char) : Text → Option Text
  | [] => none
  | d :: rest => if d = c then some rest else none

def readOctet (s : Text) : Option (ℕ × Text) := readNumber 10 3 255 false s

def readIpv4 (s : Text) : Option (List.Vector UInt8 4 × Text) := do
  let (a, s) ← readOctet s
  let (b, s) ← readOctet (← readGivenChar '.' s)
  let (c, s) ← readOctet (← readGivenChar '.' s)
  let (d, s) ← readOctet (← readGivenChar '.' s)
  some (⟨[a, b, c, d].map UInt8.ofNat, rfl⟩, s)

/-- Reads at most `left` more groups after `groups`, with the flag that a dotted IPv4 address
closed them. -/
def readGroups : ℕ → List ℕ → Text → List ℕ × Bool × Text
  | 0, groups, s => (groups, false, s)
  | left + 1, groups, s =>
    let field := if groups = [] then some s else readGivenChar ':' s
    -- a dotted address takes two groups, so it is tried only while two are left
    match if left = 0 then none else field.bind readIpv4 with
    | some (o, s) =>
      let g := fun i => (o.val.getD i 0).toNat
      (groups ++ [g 0 * 256 + g 1, g 2 * 256 + g 3], true, s)
    | none =>
      match field.bind (readNumber 16 4 65535 true) with
      | some (g, s) => readGroups left (groups ++ [g]) s
      | none => (groups, false, s)

def octetsOf (groups : List ℕ) : List.Vector UInt8 16 :=
  .ofFn fun i =>
    let g := groups.getD (i / 2) 0
    UInt8.ofNat (if i.val % 2 = 0 then g / 256 else g % 256)

def readIpv6 (s : Text) : Option (List.Vector UInt8 16 × Text) :=
  let (head, headIpv4, s) := readGroups 8 [] s
  if head.length = 8 then some (octetsOf head, s)
  else if headIpv4 then none
  else do
    let s ← readGivenChar ':' s
    let s ← readGivenChar ':' s
    let (tail, _, s) := readGroups (8 - (head.length + 1)) [] s
    some (octetsOf (head ++ List.replicate (8 - head.length - tail.length) 0 ++ tail), s)

/-- `str::parse::<IpAddr>`, which accepts only if the whole text was read. -/
def IpAddr.parse (s : Text) : Option IpAddr :=
  match readIpv4 s with
  | some (o, rest) => if rest = [] then some (.v4 o) else none
  | none =>
    match readIpv6 s with
    | some (o, rest) => if rest = [] then some (.v6 o) else none
    | none => none

example : (IpAddr.parse "2001:db8::1".toList).map IpAddr.toText = some "2001:db8::1".toList := by
  decide +kernel

end Wiretally.Net
