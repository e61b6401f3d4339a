import Wiretally.Lib.AsyncIo
import Wiretally.Lib.Run
import Wiretally.Registry

/-!
Stream adapters used on the data path.

A counting stream attributes what crosses it to a block of counters, here the block as this
stream alone changes it. A rewound stream replays bytes already read before it goes on with
the real stream; that its position lies inside the bytes it still has to replay is part of
what it is.
-/

namespace Wiretally.Io

open Wiretally.Lib Wiretally.Lib.AsyncIo Wiretally.Lib.Run Wiretally.Stats
open Wiretally.Stats.EndpointStats

/-- Which end of the proxy a counting stream is attached to. -/
inductive Side | client | upstream
  deriving DecidableEq

/-- The lines logged for a connection, without their time stamps. -/
structure ConnLog where
  id : UInt64
  target : Text
  lines : List Text
  deriving DecidableEq

namespace ConnLog

def new (id : UInt64) (target : Text) : ConnLog := ⟨id, target, []⟩

def event (log : ConnLog) (body : Text) : ConnLog :=
  let line := "[CONN #".toList ++ Nat.toDigits 10 log.id.toNat ++ "] ".toList ++ body
  { log with lines := log.lines ++ [line] }

def tx (log : ConnLog) (n : ℕ) : ConnLog :=
  log.event ("TX    -> ".toList ++ Nat.toDigits 10 n ++ " bytes ".toList ++ log.target)

def rx (log : ConnLog) (n : ℕ) : ConnLog :=
  log.event ("RX    <- ".toList ++ Nat.toDigits 10 n ++ " bytes ".toList ++ log.target)

end ConnLog

variable {S : Type}

/-! ### Counting -/

/-- A stream whose bytes are attributed to a block of counters. -/
structure Counting (S : Type) where
  inner : S
  stats : EndpointStats
  side : Side
  log : Option ConnLog

namespace Counting

def new (inner : S) (stats : EndpointStats) (side : Side) (log : Option ConnLog) : Counting S :=
  ⟨inner, stats, side, log⟩

def onRead (c : Counting S) (n : ℕ) : Counting S :=
  if n = 0 then c
  else
    match c.side with
    | .client => { c with stats := c.stats.addEgress (.ofNat n), log := c.log.map (·.tx n) }
    | .upstream => { c with stats := c.stats.addIngress (.ofNat n), log := c.log.map (·.rx n) }

def onWrite (c : Counting S) (n : ℕ) : Counting S :=
  if n = 0 then c
  else
    match c.side with
    | .client => { c with stats := c.stats.addIngress (.ofNat n), log := c.log.map (·.rx n) }
    | .upstream => { c with stats := c.stats.addEgress (.ofNat n), log := c.log.map (·.tx n) }

end Counting

open Counting

instance [AsyncRead S] : AsyncRead (Counting S) where
  pollRead c buf :=
    let before := buf.filled.length
    let r := pollRead c.inner buf
    let c := { c with inner := r.2.2 }
    match r.1 with
    | .ready (.ok ()) => (r.1, r.2.1, c.onRead (r.2.1.filled.length - before))
    | _ => (r.1, r.2.1, c)
  reads c buf := by
    have h := AsyncRead.reads c.inner buf
    rcases hp : (pollRead c.inner buf).1 with _ | _ | ⟨⟨⟩⟩ <;> simpa [hp] using h

instance [AsyncWrite S] : AsyncWrite (Counting S) where
  pollWrite c bs :=
    let r := pollWrite c.inner bs
    let c := { c with inner := r.2 }
    match r.1 with
    | .ready (.ok n) => (r.1, c.onWrite n)
    | _ => (r.1, c)
  pollWriteVectored c bufs :=
    let r := pollWriteVectored c.inner bufs
    let c := { c with inner := r.2 }
    match r.1 with
    | .ready (.ok n) => (r.1, c.onWrite n)
    | _ => (r.1, c)
  isWriteVectored c := isWriteVectored c.inner
  pollFlush c := let r := pollFlush c.inner; (r.1, { c with inner := r.2 })
  pollShutdown c := let r := pollShutdown c.inner; (r.1, { c with inner := r.2 })
  writes c bs n h := by
    refine AsyncWrite.writes c.inner bs n ?_
    rcases hp : (pollWrite c.inner bs).1 with _ | e | m
    · simp [hp] at h
    · simp [hp] at h
    · simpa [hp] using h
  writesVectored c bufs n h := by
    refine AsyncWrite.writesVectored c.inner bufs n ?_
    rcases hp : (pollWriteVectored c.inner bufs).1 with _ | e | m
    · simp [hp] at h
    · simp [hp] at h
    · simpa [hp] using h

/-! ### Rewinding -/

/-- A stream that replays bytes before continuing with the real stream. -/
structure Rewind (S : Type) where
  prefixBytes : Option (List UInt8)
  offset : ℕ
  inner : S
  inside : ∀ bytes, prefixBytes = some bytes → offset < bytes.length

namespace Rewind

def new (bytes : List UInt8) (inner : S) : Rewind S where
  prefixBytes := if bytes = [] then none else some bytes
  offset := 0
  inner := inner
  inside bs h := by
    by_cases hb : bytes = []
    · simp [hb] at h
    · rw [if_neg hb, Option.some.injEq] at h
      rw [← h]
      exact List.length_pos_iff.mpr hb

/-- The stream after replaying `n` more of `bytes`. -/
def advance (r : Rewind S) (bytes : List UInt8) (n : ℕ) (h : r.offset + n ≤ bytes.length) :
    Rewind S where
  prefixBytes := if r.offset + n = bytes.length then none else some bytes
  offset := r.offset + n
  inner := r.inner
  inside bs hb := by
    by_cases hn : r.offset + n = bytes.length
    · simp [hn] at hb
    · rw [if_neg hn, Option.some.injEq] at hb
      rw [← hb]
      omega

/-- The bytes still to be replayed. -/
def left (r : Rewind S) : List UInt8 := r.prefixBytes.elim [] fun bytes => bytes.drop r.offset

end Rewind

open Rewind

instance [AsyncRead S] : AsyncRead (Rewind S) where
  pollRead r buf :=
    match h : r.prefixBytes with
    | some bytes =>
      let remaining := bytes.drop r.offset
      let n := min remaining.length buf.remaining
      (.ready (.ok ()), buf.putSlice (remaining.take n) (by rw [List.length_take]; omega),
        r.advance bytes n (by
          have := r.inside bytes h
          have : remaining.length = bytes.length - r.offset := List.length_drop
          omega))
    | none =>
      let p := pollRead r.inner buf
      (p.1, p.2.1, { r with inner := p.2.2 })
  reads r buf := by
    split
    · exact ⟨List.prefix_append _ _, rfl, fun h => absurd rfl h⟩
    · exact AsyncRead.reads r.inner buf

instance [AsyncWrite S] : AsyncWrite (Rewind S) where
  pollWrite r bs := let p := pollWrite r.inner bs; (p.1, { r with inner := p.2 })
  pollWriteVectored r bufs := let p := pollWriteVectored r.inner bufs; (p.1, { r with inner := p.2 })
  isWriteVectored r := isWriteVectored r.inner
  pollFlush r := let p := pollFlush r.inner; (p.1, { r with inner := p.2 })
  pollShutdown r := let p := pollShutdown r.inner; (p.1, { r with inner := p.2 })
  writes r bs n h := AsyncWrite.writes r.inner bs n h
  writesVectored r bufs n h := AsyncWrite.writesVectored r.inner bufs n h

/-! ### What a poll does -/

namespace Rewind

@[simp] lemma left_new (bytes : List UInt8) (inner : S) : (new bytes inner).left = bytes := by
  by_cases h : bytes = [] <;> simp [new, left, h]

@[simp] lemma inner_new (bytes : List UInt8) (inner : S) : (new bytes inner).inner = inner := rfl

lemma left_eq_nil (r : Rewind S) : r.left = [] ↔ r.prefixBytes = none := by
  cases h : r.prefixBytes with
  | none => simp [left, h]
  | some bytes =>
    have := r.inside bytes h
    simp only [left, h, Option.elim_some, List.drop_eq_nil_iff, reduceCtorEq, iff_false]
    omega

lemma left_advance (r : Rewind S) {bytes : List UInt8} (n : ℕ) (h) :
    (r.advance bytes n h).left = (bytes.drop r.offset).drop n := by
  unfold advance left
  by_cases hn : r.offset + n = bytes.length
  · simp [hn, List.drop_drop]
  · simp [hn, List.drop_drop]

/-- While something is left, a read takes what fits of it and does not touch the stream. -/
lemma pollRead_left [AsyncRead S] {r : Rewind S} (h : r.left ≠ []) (buf : ReadBuf) :
    (pollRead r buf).1 = .ready (.ok ()) ∧ readBytes r buf = r.left.take buf.remaining ∧
      (pollRead r buf).2.2.left = r.left.drop buf.remaining ∧
      (pollRead r buf).2.2.inner = r.inner := by
  obtain ⟨bytes, hb⟩ := Option.ne_none_iff_exists'.mp (mt r.left_eq_nil.mpr h)
  have hleft : r.left = bytes.drop r.offset := by simp [left, hb]
  -- past what is left there is nothing to take and nothing to drop
  have htake : (bytes.drop r.offset).take (min (bytes.drop r.offset).length buf.remaining) =
      (bytes.drop r.offset).take buf.remaining := by
    rcases Nat.le_total (bytes.drop r.offset).length buf.remaining with hle | hle
    · rw [Nat.min_eq_left hle, List.take_length, List.take_of_length_le hle]
    · rw [Nat.min_eq_right hle]
  have hdrop : (bytes.drop r.offset).drop (min (bytes.drop r.offset).length buf.remaining) =
      (bytes.drop r.offset).drop buf.remaining := by
    rcases Nat.le_total (bytes.drop r.offset).length buf.remaining with hle | hle
    · rw [Nat.min_eq_left hle, List.drop_length, List.drop_eq_nil_of_le hle]
    · rw [Nat.min_eq_right hle]
  unfold readBytes AsyncRead.pollRead instAsyncReadRewind
  dsimp only
  split
  · next bs hbs =>
    obtain rfl : bs = bytes := Option.some.inj (hbs.symm.trans hb)
    refine ⟨rfl, ?_, ?_, rfl⟩
    · rw [ReadBuf.gained_putSlice, htake, hleft]
    · rw [left_advance, hdrop, hleft]
  · next hnone =>
    rw [hb] at hnone
    cases hnone

/-- Once nothing is left, a read is one of the stream. -/
lemma pollRead_done [AsyncRead S] {r : Rewind S} (h : r.left = []) (buf : ReadBuf) :
    pollRead r buf = ((pollRead r.inner buf).1, (pollRead r.inner buf).2.1,
      { r with inner := (pollRead r.inner buf).2.2 }) := by
  have hnone := r.left_eq_nil.mp h
  unfold AsyncRead.pollRead instAsyncReadRewind
  dsimp only
  split
  · next bytes hb =>
    rw [hnone] at hb
    cases hb
  · rfl

/-- **Rewinding puts bytes in front of a stream.** -/
theorem presents_new [AsyncRead S] {inner : S} {bytes : List UInt8} (leftover : List UInt8)
    (h : Presents inner bytes) : Presents (new leftover inner) (leftover ++ bytes) := by
  refine presents_of_step
    (I := fun (r : Rewind S) all => ∃ bytes, all = r.left ++ bytes ∧ Presents r.inner bytes)
    ?_ ?_ ⟨bytes, by rw [left_new], h⟩
  · rintro r _ buf ⟨bytes, rfl, hp⟩
    by_cases hl : r.left = []
    · have hdone := pollRead_done hl buf
      have hread : readBytes r buf = readBytes r.inner buf := by
        unfold readBytes
        rw [hdone]
      obtain ⟨rest, hrest, hnext⟩ := hp.step buf
      have hleft : (pollRead r buf).2.2.left = [] := by
        rw [hdone]
        exact hl
      refine ⟨rest, ?_, rest, ?_, ?_⟩
      · rw [hl, hread]
        exact hrest
      · rw [hleft]
        rfl
      · rw [hdone]
        exact hnext
    · obtain ⟨-, hread, hleft, hinner⟩ := pollRead_left hl buf
      refine ⟨r.left.drop buf.remaining ++ bytes, ?_, bytes, ?_, ?_⟩
      · rw [hread, ← List.append_assoc, List.take_append_drop]
      · rw [hleft]
      · rw [hinner]
        exact hp
  · rintro r _ buf ⟨bytes, rfl, hp⟩ hne hroom
    by_cases hl : r.left = []
    · have hread : readBytes r buf = readBytes r.inner buf := by
        unfold readBytes
        rw [pollRead_done hl buf]
      rw [hread]
      rw [hl, List.nil_append] at hne
      exact hp.progress hne buf hroom
    · obtain ⟨-, hread, -, -⟩ := pollRead_left hl buf
      rw [hread]
      intro he
      rcases List.take_eq_nil_iff.mp he with h0 | h0
      · omega
      · exact hl h0

lemma orderly_left [AsyncRead S] [AsyncWrite S] {I : S → List UInt8 → Prop} (h : Orderly I) :
    Orderly fun (r : Rewind S) all => ∃ bytes, all = r.left ++ bytes ∧ I r.inner bytes where
  read := by
    rintro r _ ⟨bytes, rfl, hi⟩ buf hroom
    by_cases hl : r.left = []
    · have hdone := pollRead_done hl buf
      have hread : readBytes r buf = readBytes r.inner buf := by
        unfold readBytes
        rw [hdone]
      obtain ⟨hpoll, hend, rest, hrest, hnext⟩ := h.read hi buf hroom
      rw [hread, hdone, hl]
      exact ⟨hpoll, hend, rest, hrest, rest, (congrArg (· ++ rest) hl).symm, hnext⟩
    · obtain ⟨hpoll, hread, hleft, hinner⟩ := pollRead_left hl buf
      refine ⟨hpoll, fun hnone => ?_, r.left.drop buf.remaining ++ bytes, ?_, bytes, ?_, ?_⟩
      · rw [hread] at hnone
        rcases List.take_eq_nil_iff.mp hnone with h0 | h0
        · omega
        · exact absurd h0 hl
      · rw [hread, ← List.append_assoc, List.take_append_drop]
      · rw [hleft]
      · rw [hinner]
        exact hi
  write := by
    rintro r _ ⟨bytes, rfl, hi⟩ bs hbs
    obtain ⟨n, hn, hpoll, hnext⟩ := h.write hi hbs
    exact ⟨n, hn, hpoll, bytes, rfl, hnext⟩
  flush := by
    rintro r _ ⟨bytes, rfl, hi⟩
    exact ⟨(h.flush hi).1, bytes, rfl, (h.flush hi).2⟩
  shutdown := by
    rintro r _ ⟨bytes, rfl, hi⟩
    exact ⟨(h.shutdown hi).1, bytes, rfl, (h.shutdown hi).2⟩

end Rewind

def Side.readCounter : Side → Counter
  | .client => .egress
  | .upstream => .ingress

def Side.writeCounter : Side → Counter
  | .client => .ingress
  | .upstream => .egress

namespace Counting

lemma onRead_spec (c : Counting S) (n : ℕ) :
    (c.onRead n).inner = c.inner ∧ (c.onRead n).side = c.side ∧
      (c.onRead n).stats = c.stats.fetchAdd (.ofNat n) c.side.readCounter := by
  unfold onRead
  split_ifs with hn
  · subst hn
    exact ⟨rfl, rfl, (fetchAdd_zero _ _).symm⟩
  · obtain ⟨inner, stats, side, log⟩ := c
    cases side <;> exact ⟨rfl, rfl, rfl⟩

lemma onWrite_spec (c : Counting S) (n : ℕ) :
    (c.onWrite n).inner = c.inner ∧ (c.onWrite n).side = c.side ∧
      (c.onWrite n).stats = c.stats.fetchAdd (.ofNat n) c.side.writeCounter := by
  unfold onWrite
  split_ifs with hn
  · subst hn
    exact ⟨rfl, rfl, (fetchAdd_zero _ _).symm⟩
  · obtain ⟨inner, stats, side, log⟩ := c
    cases side <;> exact ⟨rfl, rfl, rfl⟩

/-- A read is the stream's own, its bytes counted. -/
lemma pollRead_spec [AsyncRead S] (c : Counting S) (buf : ReadBuf) :
    (pollRead c buf).1 = (pollRead c.inner buf).1 ∧
      (pollRead c buf).2.1 = (pollRead c.inner buf).2.1 ∧
      (pollRead c buf).2.2.inner = (pollRead c.inner buf).2.2 ∧
      (pollRead c buf).2.2.side = c.side ∧
      (pollRead c buf).2.2.stats =
        c.stats.fetchAdd (.ofNat (readBytes c.inner buf).length) c.side.readCounter := by
  have hreads := AsyncRead.reads c.inner buf
  have hunfold : pollRead c buf = match (pollRead c.inner buf).1 with
      | .ready (.ok ()) => ((pollRead c.inner buf).1, (pollRead c.inner buf).2.1,
          ({ c with inner := (pollRead c.inner buf).2.2 } : Counting S).onRead
            ((pollRead c.inner buf).2.1.filled.length - buf.filled.length))
      | _ => ((pollRead c.inner buf).1, (pollRead c.inner buf).2.1,
          { c with inner := (pollRead c.inner buf).2.2 }) := rfl
  -- a poll that is not a success has read nothing
  have hidle : (pollRead c.inner buf).1 ≠ .ready (.ok ()) →
      c.stats = c.stats.fetchAdd (.ofNat (readBytes c.inner buf).length) c.side.readCounter := by
    intro hp
    rw [readBytes, hreads.gained_idle hp, List.length_nil]
    exact (fetchAdd_zero _ _).symm
  rw [hunfold]
  rcases hp : (pollRead c.inner buf).1 with _ | e | ⟨⟨⟩⟩
  · exact ⟨rfl, rfl, rfl, rfl, hidle (by simp [hp])⟩
  · exact ⟨rfl, rfl, rfl, rfl, hidle (by simp [hp])⟩
  · obtain ⟨hinner, hside, hstats⟩ := onRead_spec
      ({ c with inner := (pollRead c.inner buf).2.2 } : Counting S)
      ((pollRead c.inner buf).2.1.filled.length - buf.filled.length)
    have hlen : (pollRead c.inner buf).2.1.filled.length - buf.filled.length =
        (readBytes c.inner buf).length := List.length_drop.symm
    refine ⟨rfl, rfl, hinner, hside, hstats.trans ?_⟩
    rw [hlen]

lemma readBytes_eq [AsyncRead S] (c : Counting S) (buf : ReadBuf) :
    readBytes c buf = readBytes c.inner buf := by
  unfold readBytes
  rw [(pollRead_spec c buf).2.1]

lemma pollWrite_spec [AsyncWrite S] (c : Counting S) (bs : List UInt8) :
    (pollWrite c bs).1 = (pollWrite c.inner bs).1 ∧
      (pollWrite c bs).2.inner = (pollWrite c.inner bs).2 ∧
      (pollWrite c bs).2.side = c.side ∧
      (pollWrite c bs).2.stats =
        c.stats.fetchAdd (.ofNat (accepted (pollWrite c.inner bs).1)) c.side.writeCounter := by
  have hunfold : pollWrite c bs = match (pollWrite c.inner bs).1 with
      | .ready (.ok n) => ((pollWrite c.inner bs).1,
          ({ c with inner := (pollWrite c.inner bs).2 } : Counting S).onWrite n)
      | _ => ((pollWrite c.inner bs).1, { c with inner := (pollWrite c.inner bs).2 }) := rfl
  rw [hunfold]
  rcases hp : (pollWrite c.inner bs).1 with _ | e | n
  · exact ⟨rfl, rfl, rfl, (fetchAdd_zero _ _).symm⟩
  · exact ⟨rfl, rfl, rfl, (fetchAdd_zero _ _).symm⟩
  · obtain ⟨hinner, hside, hstats⟩ := onWrite_spec
      ({ c with inner := (pollWrite c.inner bs).2 } : Counting S) n
    exact ⟨rfl, hinner, hside, hstats⟩

/-- Counting does not get in the way. -/
lemma orderly_inner [AsyncRead S] [AsyncWrite S] {I : S → List UInt8 → Prop} (h : Orderly I) :
    Orderly fun (c : Counting S) bytes => I c.inner bytes where
  read := by
    intro c bytes hi buf hroom
    obtain ⟨hpoll, -, hinner, -⟩ := pollRead_spec c buf
    rw [hpoll, hinner, readBytes_eq]
    exact h.read hi buf hroom
  write := by
    intro c bytes hi bs hbs
    obtain ⟨hpoll, hinner, -⟩ := pollWrite_spec c bs
    rw [hpoll, hinner]
    exact h.write hi hbs
  flush hi := h.flush hi
  shutdown hi := h.shutdown hi

lemma pollWriteVectored_spec [AsyncWrite S] (c : Counting S) (bufs : List (List UInt8)) :
    (pollWriteVectored c bufs).1 = (pollWriteVectored c.inner bufs).1 ∧
      (pollWriteVectored c bufs).2.inner = (pollWriteVectored c.inner bufs).2 ∧
      (pollWriteVectored c bufs).2.side = c.side ∧
      (pollWriteVectored c bufs).2.stats = c.stats.fetchAdd
        (.ofNat (accepted (pollWriteVectored c.inner bufs).1)) c.side.writeCounter := by
  have hunfold : pollWriteVectored c bufs = match (pollWriteVectored c.inner bufs).1 with
      | .ready (.ok n) => ((pollWriteVectored c.inner bufs).1,
          ({ c with inner := (pollWriteVectored c.inner bufs).2 } : Counting S).onWrite n)
      | _ => ((pollWriteVectored c.inner bufs).1,
          { c with inner := (pollWriteVectored c.inner bufs).2 }) := rfl
  rw [hunfold]
  rcases hp : (pollWriteVectored c.inner bufs).1 with _ | e | n
  · exact ⟨rfl, rfl, rfl, (fetchAdd_zero _ _).symm⟩
  · exact ⟨rfl, rfl, rfl, (fetchAdd_zero _ _).symm⟩
  · obtain ⟨hinner, hside, hstats⟩ := onWrite_spec
      ({ c with inner := (pollWriteVectored c.inner bufs).2 } : Counting S) n
    exact ⟨rfl, hinner, hside, hstats⟩

end Counting

/-! ### A counted, rewound stream in use -/

/-- What a tunnel's client becomes; what crosses it is written down outside, where it is used,
and inside, where it is the client's own. -/
abbrev Session (S : Type) := Probe (Counting (Rewind (Probe S)))

namespace Session

def start (leftover : List UInt8) (inner : S) (stats : EndpointStats) (side : Side)
    (log : Option ConnLog) : Session S :=
  Probe.new (Counting.new (Rewind.new leftover (Probe.new inner)) stats side log)

/-- The counted stream. -/
abbrev stream (s : Session S) : Counting (Rewind (Probe S)) := s.inner

/-- The real stream. -/
abbrev source (s : Session S) : Probe S := s.inner.inner.inner

/-- What its reader has been given so far. -/
abbrev delivered (s : Session S) : List UInt8 := s.produced

end Session

/-- What holds of the stream at any time: the bytes are accounted for, and so are the
counters. -/
structure Carries (leftover : List UInt8) (stats : EndpointStats) (side : Side) (s : Session S) :
    Prop where
  onSide : s.stream.side = side
  bytes : s.delivered ++ s.stream.inner.left = leftover ++ s.source.produced
  held : s.stream.inner.left <:+ leftover
  passed : s.accepted = s.source.accepted
  counted : s.stream.stats =
    (stats.fetchAdd (.ofNat s.delivered.length) side.readCounter).fetchAdd
      (.ofNat s.source.accepted.length) side.writeCounter

section Carries

variable {leftover : List UInt8} {stats : EndpointStats} {side : Side} {s : Session S}

lemma carries_start (leftover : List UInt8) (inner : S) (stats : EndpointStats) (side : Side)
    (log : Option ConnLog) :
    Carries leftover stats side (Session.start leftover inner stats side log) where
  onSide := rfl
  bytes := by simp [Session.start, Session.source, Counting.new]
  held := by
    rw [show (Session.start leftover inner stats side log).stream.inner.left = leftover from
      left_new leftover (Probe.new inner)]
  passed := rfl
  counted := by simp [Session.start, Session.source, Counting.new]

lemma fetchAdd_append (s : EndpointStats) (xs ys : List UInt8) (c : Counter) :
    (s.fetchAdd (.ofNat xs.length) c).fetchAdd (.ofNat ys.length) c =
      s.fetchAdd (.ofNat (xs ++ ys).length) c := by
  rw [fetchAdd_fetchAdd, List.length_append, UInt64.ofNat_add]

/-- A read moves bytes from the prefix, or else from the stream, to the reader. -/
lemma rewind_read [AsyncRead S] (r : Rewind (Probe S)) (buf : ReadBuf) :
    (pollRead r buf).2.2.inner.accepted = r.inner.accepted ∧
      (pollRead r buf).2.2.left <:+ r.left ∧
      ∃ got, (pollRead r buf).2.2.inner.produced = r.inner.produced ++ got ∧
        readBytes r buf ++ (pollRead r buf).2.2.left = r.left ++ got := by
  by_cases hl : r.left = []
  · have hdone := pollRead_done hl buf
    have hbytes : readBytes r buf = readBytes r.inner buf := by
      unfold readBytes
      rw [hdone]
    have hleft : (pollRead r buf).2.2.left = [] := by
      rw [hdone]
      exact hl
    rw [hbytes, hleft, hl, hdone]
    exact ⟨rfl, List.suffix_refl [], readBytes r.inner buf, rfl, by simp⟩
  · obtain ⟨-, hbytes, hleft, hin⟩ := pollRead_left hl buf
    rw [hbytes, hleft, hin]
    exact ⟨rfl, List.drop_suffix buf.remaining r.left, [], by simp, by simp⟩

lemma carries_read [AsyncRead S] (h : Carries leftover stats side s) (buf : ReadBuf) :
    Carries leftover stats side (pollRead s buf).2.2 := by
  obtain ⟨-, -, hinner, hside, hstats⟩ := Counting.pollRead_spec s.stream buf
  obtain ⟨hacc, hheld, got, hprod, hbytes⟩ := rewind_read s.stream.inner buf
  have hread : readBytes s buf = readBytes s.stream.inner buf := Counting.readBytes_eq s.stream buf
  have hdelivered : (pollRead s buf).2.2.delivered = s.delivered ++ readBytes s.stream.inner buf := by
    rw [← hread]
    exact produced_pollRead s buf
  have hsource : (pollRead s buf).2.2.source = (pollRead s.stream.inner buf).2.2.inner :=
    congrArg Rewind.inner hinner
  have hleft : (pollRead s buf).2.2.stream.inner.left = (pollRead s.stream.inner buf).2.2.left :=
    congrArg Rewind.left hinner
  constructor
  · exact hside.trans h.onSide
  · rw [hdelivered, hsource, hleft, List.append_assoc, hbytes, hprod, ← List.append_assoc,
      h.bytes, List.append_assoc]
  · rw [hleft]
    exact hheld.trans h.held
  · rw [hsource, hacc]
    exact h.passed
  · rw [hdelivered, hsource, hacc]
    refine hstats.trans ?_
    rw [h.counted, h.onSide, fetchAdd_comm, fetchAdd_append]

/-- A poll that passes `sent` on to the stream and counts it as written. -/
lemma carries_send (h : Carries leftover stats side s) {t : Session S} (sent : List UInt8)
    (hside : t.stream.side = s.stream.side) (hdelivered : t.delivered = s.delivered)
    (hleft : t.stream.inner.left = s.stream.inner.left)
    (hprod : t.source.produced = s.source.produced)
    (hpass : t.accepted = s.accepted ++ sent)
    (hacc : t.source.accepted = s.source.accepted ++ sent)
    (hstats : t.stream.stats =
      s.stream.stats.fetchAdd (.ofNat sent.length) s.stream.side.writeCounter) :
    Carries leftover stats side t := by
  constructor
  · exact hside.trans h.onSide
  · rw [hdelivered, hleft, hprod]
    exact h.bytes
  · rw [hleft]
    exact h.held
  · rw [hpass, hacc, h.passed]
  · rw [hstats, hdelivered, h.counted, h.onSide, hacc, fetchAdd_append]

lemma carries_write [AsyncWrite S] (h : Carries leftover stats side s) (bs : List UInt8) :
    Carries leftover stats side (pollWrite s bs).2 := by
  obtain ⟨hpoll, hinner, hside, hstats⟩ := Counting.pollWrite_spec s.stream bs
  have hsource : (pollWrite s bs).2.source = (pollWrite s.source bs).2 :=
    congrArg Rewind.inner hinner
  have haccepted : accepted (pollWrite s bs).1 = accepted (pollWrite s.source bs).1 :=
    congrArg accepted hpoll
  refine carries_send h (bs.take (accepted (pollWrite s.source bs).1)) hside rfl
    ((congrArg Rewind.left hinner).trans rfl) ?_ ?_ ?_ ?_
  · rw [hsource]
    rfl
  · rw [← haccepted]
    exact accepted_pollWrite s bs
  · rw [hsource]
    exact accepted_pollWrite s.source bs
  · rw [List.length_take, Nat.min_eq_left (accepted_pollWrite_le s.source bs)]
    exact hstats

lemma carries_writeVectored [AsyncWrite S] (h : Carries leftover stats side s)
    (bufs : List (List UInt8)) : Carries leftover stats side (pollWriteVectored s bufs).2 := by
  obtain ⟨hpoll, hinner, hside, hstats⟩ := Counting.pollWriteVectored_spec s.stream bufs
  have hsource : (pollWriteVectored s bufs).2.source = (pollWriteVectored s.source bufs).2 :=
    congrArg Rewind.inner hinner
  have haccepted : accepted (pollWriteVectored s bufs).1 =
      accepted (pollWriteVectored s.source bufs).1 := congrArg accepted hpoll
  refine carries_send h (bufs.flatten.take (accepted (pollWriteVectored s.source bufs).1))
    hside rfl ((congrArg Rewind.left hinner).trans rfl) ?_ ?_ ?_ ?_
  · rw [hsource]
    rfl
  · rw [← haccepted]
    exact accepted_pollWriteVectored s bufs
  · rw [hsource]
    exact accepted_pollWriteVectored s.source bufs
  · rw [List.length_take, Nat.min_eq_left (accepted_pollWriteVectored_le s.source bufs)]
    exact hstats

variable [AsyncRead S] [AsyncWrite S]

/-- **Every poll keeps the accounts.** -/
theorem carries_perform (h : Carries leftover stats side s) (c : Call) :
    Carries leftover stats side (perform s c) := by
  cases c with
  | read buf => exact carries_read h buf
  | write bs => exact carries_write h bs
  | writeVectored bufs => exact carries_writeVectored h bufs
  | flush => exact ⟨h.onSide, h.bytes, h.held, h.passed, h.counted⟩
  | shutdown => exact ⟨h.onSide, h.bytes, h.held, h.passed, h.counted⟩

lemma carries_performs (h : Carries leftover stats side s) (calls : List Call) :
    Carries leftover stats side (calls.foldl perform s) := by
  induction calls generalizing s with
  | nil => exact h
  | cons c calls ih => exact ih (carries_perform h c)

end Carries

/-- A read that ends without a byte although there was room is the stream's own end. -/
lemma pollRead_eof [AsyncRead S] (s : Session S) (buf : ReadBuf) (hroom : 0 < buf.remaining)
    (hok : (pollRead s buf).1 = .ready (.ok ())) (hnone : readBytes s buf = []) :
    (pollRead s.source.inner buf).1 = .ready (.ok ()) ∧ readBytes s.source.inner buf = [] := by
  have hok : (pollRead s.stream.inner buf).1 = .ready (.ok ()) :=
    (Counting.pollRead_spec s.stream buf).1.symm.trans hok
  have hnone : readBytes s.stream.inner buf = [] :=
    (Counting.readBytes_eq s.stream buf).symm.trans hnone
  by_cases hl : s.stream.inner.left = []
  · unfold readBytes at hnone
    rw [pollRead_done hl buf] at hok hnone
    exact ⟨hok, hnone⟩
  · obtain ⟨-, hbytes, -, -⟩ := pollRead_left hl buf
    rw [hbytes, List.take_eq_nil_iff] at hnone
    rcases hnone with hzero | hnil
    · omega
    · exact absurd hnil hl

/-- **A counted, rewound stream.** Whatever is done with it and whatever the stream inside
does: what its reader has been given, followed by what is yet to be replayed, is the replayed
bytes followed by what the stream produced; what is written goes to the stream as it is; both
counters have grown by what went by, it ends only where the stream ends, and it never looks
past the bytes it replays. -/
theorem session_carries [AsyncRead S] [AsyncWrite S] (leftover : List UInt8) (inner : S)
    (stats : EndpointStats) (side : Side) (log : Option ConnLog) (calls : List Call) :
    let s : Session S := calls.foldl perform (Session.start leftover inner stats side log)
    s.delivered ++ s.stream.inner.left = leftover ++ s.source.produced ∧
    s.stream.inner.left <:+ leftover ∧
    s.accepted = s.source.accepted ∧
    s.stream.stats = (stats.fetchAdd (.ofNat s.delivered.length) side.readCounter).fetchAdd
      (.ofNat s.source.accepted.length) side.writeCounter ∧
    (∀ buf, 0 < buf.remaining → (pollRead s buf).1 = .ready (.ok ()) → readBytes s buf = [] →
      (pollRead s.source.inner buf).1 = .ready (.ok ()) ∧ readBytes s.source.inner buf = []) ∧
    ∀ bytes, s.stream.inner.prefixBytes = some bytes → s.stream.inner.offset ≤ bytes.length := by
  intro s
  have h := carries_performs (carries_start leftover inner stats side log) calls
  refine ⟨h.bytes, h.held, h.passed, h.counted, ?_, ?_⟩
  · intro buf hroom hok hnone
    exact pollRead_eof s buf hroom hok hnone
  · intro bytes hb
    exact (s.stream.inner.inside bytes hb).le

end Wiretally.Io
