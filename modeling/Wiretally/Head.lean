import Wiretally.Lib.Search
import Wiretally.Lib.Tcp
import Wiretally.Text

/-!
Reading a request head.

Bytes are read until the blank line that ends the head has been seen, so what is returned may
go on behind it. How much that is depends on how the stream was cut into reads; where the head
ends, and what its first line says, does not.
-/

namespace Wiretally.Head

open Wiretally.Lib.AsyncIo Wiretally.Lib.Tcp Wiretally.Lib.Tcp.TcpStream Wiretally.Lib.Search

/-- Largest request head that is buffered. -/
def maxHeadBytes : ℕ := 64 * 1024

/-- The buffer of a single read. -/
def chunkBytes : ℕ := 2048

def crlf : List UInt8 := [0x0D, 0x0A]

/-- Where the head ends, behind its blank line. -/
def findHeadEnd (buf : List UInt8) : Option ℕ := (position (crlf ++ crlf) buf).map (· + 4)

/-- Bytes read past the end of the head. -/
def headBody (head : List UInt8) : List UInt8 :=
  match findHeadEnd head with
  | some stop => head.drop stop
  | none => []

def splitRequestLine (line : List UInt8) : Option (Text × Text) :=
  match (Text.fromUtf8 line).map (List.splitOn ' ') with
  | some (method :: target :: _) =>
    if ¬ method = [] ∧ ¬ target = [] then some (method, target) else none
  | _ => none

/-- Splits `METHOD target` out of a request head. -/
def requestLine (head : List UInt8) : Option (Text × Text) :=
  match position crlf head with
  | some lineEnd => splitRequestLine (head.take lineEnd)
  | none => none

/-! ### The loop -/

/-- What has been read, and the stream it comes from. -/
structure Reading where
  buf : List UInt8
  stream : TcpStream

inductive Progress
  | more (r : Reading)
  | done (out : Outcome IoError (List UInt8)) (r : Reading)

/-- One round of the loop of `read_head`. -/
def readRound (r : Reading) : Progress :=
  match read chunkBytes r.stream with
  | (.blocked, t) => .done .blocked ⟨r.buf, t⟩
  | (.err e, t) => .done (.err e) ⟨r.buf, t⟩
  | (.ok chunk, t) =>
    if chunk = [] then
      .done (if r.buf = [] then .err ⟨.unexpectedEof, "unexpected end of file"⟩ else .ok r.buf)
        ⟨r.buf, t⟩
    else
      let buf := r.buf ++ chunk
      if (findHeadEnd buf).isSome = true then .done (.ok buf) ⟨buf, t⟩
      else if maxHeadBytes < buf.length then
        .done (.err ⟨.invalidData, "request head too large"⟩) ⟨buf, t⟩
      else .more ⟨buf, t⟩

def readRounds : ℕ → Reading → Outcome IoError (List UInt8) × Reading
  | 0, r => (.blocked, r)
  | fuel + 1, r =>
    match readRound r with
    | .more r => readRounds fuel r
    | .done out r => (out, r)

/-- Reads until the end of the request head; every round but the last gets a byte at least. -/
def readHead : TcpTask IoError (List UInt8) := fun s =>
  let r := readRounds (s.unread.length + 1) ⟨[], s⟩
  (r.1, r.2.stream)

/-- Where the loop can stand between two rounds. -/
inductive Looping (s : TcpStream) : Reading → Prop
  | start : Looping s ⟨[], s⟩
  | more {r r'} (h : Looping s r) (hr : readRound r = .more r') : Looping s r'

/-- What `read_head` holds at some time, on its way through the stream or at its end. -/
inductive Held (s : TcpStream) : Reading → Prop
  | between {r} (h : Looping s r) : Held s r
  | last {r out r'} (h : Looping s r) (hr : readRound r = .done out r') : Held s r'

/-! ### Where the head ends -/

lemma findHeadEnd_append {xs : List UInt8} {stop : ℕ} (h : findHeadEnd xs = some stop)
    (ys : List UInt8) : findHeadEnd (xs ++ ys) = some stop := by
  obtain ⟨i, hi, rfl⟩ := Option.map_eq_some_iff.mp h
  unfold findHeadEnd
  rw [position_append hi]
  rfl

lemma findHeadEnd_le {xs : List UInt8} {stop : ℕ} (h : findHeadEnd xs = some stop) :
    stop ≤ xs.length := by
  obtain ⟨i, hi, rfl⟩ := Option.map_eq_some_iff.mp h
  exact position_le hi

lemma findHeadEnd_of_append {xs ys : List UInt8} {stop : ℕ}
    (h : findHeadEnd (xs ++ ys) = some stop) (hle : stop ≤ xs.length) :
    findHeadEnd xs = some stop := by
  obtain ⟨i, hi, rfl⟩ := Option.map_eq_some_iff.mp h
  have hx : position (crlf ++ crlf) xs = some i :=
    position_of_append (by decide) hi hle
  unfold findHeadEnd
  rw [hx]
  rfl

lemma findHeadEnd_eq_none_of_append {xs ys : List UInt8} (h : findHeadEnd (xs ++ ys) = none) :
    findHeadEnd xs = none := by
  cases hx : findHeadEnd xs with
  | none => rfl
  | some stop =>
    rw [findHeadEnd_append hx] at h
    cases h

lemma headBody_of_some {head : List UInt8} {stop : ℕ} (h : findHeadEnd head = some stop) :
    headBody head = head.drop stop := by
  unfold headBody
  rw [h]

lemma headBody_of_none {head : List UInt8} (h : findHeadEnd head = none) : headBody head = [] := by
  unfold headBody
  rw [h]

lemma exists_line {xs : List UInt8} {stop : ℕ} (h : findHeadEnd xs = some stop) :
    ∃ lineEnd, position crlf xs = some lineEnd := by
  obtain ⟨i, hi, -⟩ := Option.map_eq_some_iff.mp h
  have hocc : crlf <+: xs.drop i := (List.prefix_append crlf crlf).trans (occurs_of_position hi)
  exact Option.isSome_iff_exists.mp (position_isSome (by decide) hocc)

lemma requestLine_append {xs : List UInt8} {lineEnd : ℕ} (h : position crlf xs = some lineEnd)
    (ys : List UInt8) :
    requestLine xs = splitRequestLine ((xs ++ ys).take lineEnd) := by
  have hle := position_le h
  unfold requestLine
  rw [h, List.take_append_of_le_length (by omega)]

/-! ### What the loop comes to -/

/-- How reading a head from the stream can end, with what is held then: behind a complete
head, with too much and no end of it, or where the stream ends. -/
inductive HeadVerdict (s : TcpStream) : Outcome IoError (List UInt8) → Reading → Prop
  | complete {head rest stop} (h : s.unread = head ++ rest) (he : findHeadEnd head = some stop)
    (hlen : head.length ≤ maxHeadBytes + chunkBytes) :
    HeadVerdict s (.ok head) ⟨head, { s with unread := rest }⟩
  | tooLarge {buf rest} (h : s.unread = buf ++ rest) (hn : findHeadEnd buf = none)
    (hlt : maxHeadBytes < buf.length) (hlen : buf.length ≤ maxHeadBytes + chunkBytes) :
    HeadVerdict s (.err ⟨.invalidData, "request head too large"⟩) ⟨buf, { s with unread := rest }⟩
  | cutShort (hn : findHeadEnd s.unread = none) (hlen : s.unread.length ≤ maxHeadBytes)
    (hf : s.fate = .eof) :
    HeadVerdict s (if s.unread = [] then .err ⟨.unexpectedEof, "unexpected end of file"⟩
      else .ok s.unread) ⟨s.unread, { s with unread := [] }⟩
  | reset {e} (hn : findHeadEnd s.unread = none) (hlen : s.unread.length ≤ maxHeadBytes)
    (hf : s.fate = .reset e) : HeadVerdict s (.err e) ⟨s.unread, { s with unread := [] }⟩
  | silent (hn : findHeadEnd s.unread = none) (hlen : s.unread.length ≤ maxHeadBytes)
    (hf : s.fate = .silent) : HeadVerdict s .blocked ⟨s.unread, { s with unread := [] }⟩

/-- Between two rounds: no end of the head yet, and room for more. -/
structure Between (s : TcpStream) (r : Reading) : Prop where
  bytes : s.unread = r.buf ++ r.stream.unread
  stream : r.stream = { s with unread := r.stream.unread }
  noEnd : findHeadEnd r.buf = none
  small : r.buf.length ≤ maxHeadBytes

lemma between_start (s : TcpStream) : Between s ⟨[], s⟩ :=
  ⟨rfl, rfl, rfl, Nat.zero_le _⟩

/-- **What one round does**: it goes on with fewer bytes left, or it ends the reading. -/
lemma readRound_spec {s : TcpStream} {r : Reading} (h : Between s r) :
    (∃ r', readRound r = .more r' ∧ Between s r' ∧
      r'.stream.unread.length < r.stream.unread.length) ∨
    ∃ out r', readRound r = .done out r' ∧ HeadVerdict s out r' := by
  by_cases hu : r.stream.unread = []
  · -- the stream is at its end
    right
    have hread := read_of_nil hu chunkBytes
    have hbuf : s.unread = r.buf := by rw [h.bytes, hu, List.append_nil]
    have hstream : r.stream = { s with unread := [] } := by rw [h.stream, hu]
    have hfate : r.stream.fate = s.fate := by rw [h.stream]
    have hnone : findHeadEnd s.unread = none := hbuf ▸ h.noEnd
    have hsmall : s.unread.length ≤ maxHeadBytes := hbuf ▸ h.small
    unfold readRound
    rw [hread, hfate]
    cases hf : s.fate with
    | eof =>
      refine ⟨_, _, if_pos rfl, ?_⟩
      rw [← hbuf, hstream]
      exact .cutShort hnone hsmall hf
    | reset e =>
      refine ⟨_, _, rfl, ?_⟩
      rw [← hbuf, hstream]
      exact .reset hnone hsmall hf
    | silent =>
      refine ⟨_, _, rfl, ?_⟩
      rw [← hbuf, hstream]
      exact .silent hnone hsmall hf
  · have hread := read_of_ne_nil hu chunkBytes
    set k := r.stream.readSize chunkBytes with hk
    have hpos : 0 < k := readSize_pos r.stream (by decide)
    have hle : k ≤ chunkBytes := readSize_le r.stream chunkBytes
    have hlen : 0 < r.stream.unread.length := List.length_pos_iff.mpr hu
    set chunk := r.stream.unread.take k with hchunk
    have hchunklen : chunk.length = min k r.stream.unread.length := List.length_take
    have hne : chunk ≠ [] := by
      intro he
      rw [he, List.length_nil] at hchunklen
      omega
    have hbytes : s.unread = (r.buf ++ chunk) ++ (r.stream.consume k).unread := by
      rw [h.bytes, List.append_assoc, hchunk]
      exact congrArg _ (List.take_append_drop k r.stream.unread).symm
    have hstream : r.stream.consume k = { s with unread := (r.stream.consume k).unread } := by
      have hs := h.stream
      unfold consume
      rw [hs]
    have hbuflen : (r.buf ++ chunk).length ≤ maxHeadBytes + chunkBytes := by
      have := h.small
      rw [List.length_append]
      omega
    unfold readRound
    rw [hread]
    simp only [if_neg hne]
    by_cases hend : (findHeadEnd (r.buf ++ chunk)).isSome = true
    · right
      obtain ⟨stop, hstop⟩ := Option.isSome_iff_exists.mp hend
      refine ⟨_, _, if_pos hend, ?_⟩
      rw [hstream]
      exact .complete hbytes hstop hbuflen
    · have hnone : findHeadEnd (r.buf ++ chunk) = none := by simpa using hend
      by_cases hlarge : maxHeadBytes < (r.buf ++ chunk).length
      · right
        refine ⟨_, _, (if_neg hend).trans (if_pos hlarge), ?_⟩
        rw [hstream]
        exact .tooLarge hbytes hnone hlarge hbuflen
      · left
        refine ⟨_, (if_neg hend).trans (if_neg hlarge), ⟨hbytes, hstream, hnone,
          Nat.le_of_not_lt hlarge⟩, ?_⟩
        change (r.stream.unread.drop k).length < _
        rw [List.length_drop]
        omega

/-- With a round for every byte left and one more, the loop ends. -/
lemma readRounds_spec {s : TcpStream} (fuel : ℕ) {r : Reading} (h : Between s r)
    (hfuel : r.stream.unread.length < fuel) :
    HeadVerdict s (readRounds fuel r).1 (readRounds fuel r).2 := by
  induction fuel generalizing r with
  | zero => omega
  | succ fuel ih =>
    rcases readRound_spec h with ⟨r', hr, hb, hlt⟩ | ⟨out, r', hr, hv⟩
    · unfold readRounds
      rw [hr]
      exact ih hb (by omega)
    · unfold readRounds
      rw [hr]
      exact hv

/-- **`read_head` ends as the stream says**, whatever the cuts. -/
theorem readHead_verdict (s : TcpStream) :
    ∃ r, HeadVerdict s (readHead s).1 r ∧ (readHead s).2 = r.stream :=
  ⟨_, readRounds_spec _ (between_start s) (Nat.lt_succ_self _), rfl⟩

lemma between_of_looping {s : TcpStream} {r : Reading} (h : Looping s r) : Between s r := by
  induction h with
  | start => exact between_start s
  | more h hr ih =>
    rcases readRound_spec ih with ⟨r', hr', hb, -⟩ | ⟨out, r', hr', -⟩
    · rw [hr] at hr'
      cases hr'
      exact hb
    · rw [hr] at hr'
      cases hr'

lemma HeadVerdict.length_le {s : TcpStream} {out : Outcome IoError (List UInt8)} {r : Reading}
    (h : HeadVerdict s out r) : r.buf.length ≤ maxHeadBytes + chunkBytes := by
  cases h with
  | complete h he hlen => exact hlen
  | tooLarge h hn hlt hlen => exact hlen
  | cutShort hn hlen hf => exact hlen.trans (Nat.le_add_right _ _)
  | reset hn hlen hf => exact hlen.trans (Nat.le_add_right _ _)
  | silent hn hlen hf => exact hlen.trans (Nat.le_add_right _ _)

/-- **What is held is bounded**, at any time. -/
theorem held_length_le {s : TcpStream} {r : Reading} (h : Held s r) :
    r.buf.length ≤ maxHeadBytes + chunkBytes := by
  cases h with
  | between h => exact (between_of_looping h).small.trans (Nat.le_add_right _ _)
  | last h hr =>
    rcases readRound_spec (between_of_looping h) with ⟨r', hr', -, -⟩ | ⟨out, r', hr', hv⟩
    · rw [hr] at hr'
      cases hr'
    · rw [hr] at hr'
      cases hr'
      exact hv.length_le

/-- A head that ends within the limit, or one byte behind it, is read, with some of what follows
it. -/
theorem readHead_of_head {s : TcpStream} {stop : ℕ} (h : findHeadEnd s.unread = some stop)
    (hle : stop ≤ maxHeadBytes + 1) :
    ∃ head rest, readHead s = (.ok head, { s with unread := rest }) ∧
      s.unread = head ++ rest ∧ findHeadEnd head = some stop := by
  obtain ⟨r, hv, hstream⟩ := readHead_verdict s
  generalize hout : (readHead s).1 = out at hv
  cases hv with
  | @complete head rest stop' hb he hlen =>
    refine ⟨head, rest, Prod.ext hout hstream, hb, ?_⟩
    have hwhole := findHeadEnd_append he rest
    rw [← hb, h] at hwhole
    rw [he, hwhole]
  | @tooLarge buf rest hb hn hlt hlen =>
    -- the end of the head is among the bytes held, and would have been seen
    rw [hb] at h
    rw [findHeadEnd_of_append h (by omega)] at hn
    cases hn
  | cutShort hn hlen hf => rw [hn] at h; cases h
  | reset hn hlen hf => rw [hn] at h; cases h
  | silent hn hlen hf => rw [hn] at h; cases h

theorem readHead_of_endless {s : TcpStream}
    (hlen : maxHeadBytes + chunkBytes ≤ s.unread.length)
    (hn : findHeadEnd (s.unread.take (maxHeadBytes + chunkBytes)) = none) :
    (readHead s).1 = .err ⟨.invalidData, "request head too large"⟩ := by
  obtain ⟨r, hv, -⟩ := readHead_verdict s
  have hpos : 0 < chunkBytes := by decide
  generalize hout : (readHead s).1 = out at hv
  cases hv with
  | @complete head rest stop hb he hle =>
    have hsplit : s.unread.take (maxHeadBytes + chunkBytes) =
        head ++ rest.take (maxHeadBytes + chunkBytes - head.length) := by
      rw [hb, List.take_append, List.take_of_length_le hle]
    rw [hsplit] at hn
    rw [findHeadEnd_eq_none_of_append hn] at he
    cases he
  | tooLarge => rfl
  | cutShort hn' hlen' hf => omega
  | reset hn' hlen' hf => omega
  | silent hn' hlen' hf => omega

end Wiretally.Head
