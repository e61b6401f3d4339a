import Mathlib.Data.Vector.Basic
import Wiretally.Lib.AsyncIo

/-!
A connected socket, and tasks that talk over it.

What the peer sends is a byte string and how it ends; how the string is cut into reads is a
function of how much of it is left, so it is fixed beforehand and arbitrary. A task reads and
writes until it has a result, fails, or waits for bytes that never come. What `readExact` and
`writeAll` do does not depend on the cuts.
-/

namespace Wiretally.Lib.Tcp

open Wiretally.Lib.AsyncIo

/-- What comes after the last byte the peer sends. -/
inductive Fate
  | eof
  | reset (e : IoError)
  | silent

/-- A connected socket. `segment n` is how many bytes the next read finds when `n` are left. -/
structure TcpStream where
  unread : List UInt8
  segment : ℕ → ℕ
  fate : Fate
  written : List UInt8
  broken : Option IoError

namespace TcpStream

/-- How many bytes a read into `cap` free bytes gets. -/
def readSize (s : TcpStream) (cap : ℕ) : ℕ := min (max 1 (s.segment s.unread.length)) cap

def consume (s : TcpStream) (n : ℕ) : TcpStream := { s with unread := s.unread.drop n }

def put (s : TcpStream) (bs : List UInt8) : TcpStream := { s with written := s.written ++ bs }

def pollReady (s : TcpStream) (buf : ReadBuf) : Poll (Except IoError Unit) × ReadBuf × TcpStream :=
  if s.unread = [] then
    match s.fate with
    | .eof => (.ready (.ok ()), buf, s)
    | .reset e => (.ready (.error e), buf, s)
    | .silent => (.pending, buf, s)
  else
    let n := s.readSize buf.remaining
    (.ready (.ok ()), buf.fill (s.unread.take n), s.consume n)

instance : AsyncRead TcpStream where
  pollRead := pollReady
  reads s buf := by
    unfold pollReady
    split_ifs
    · cases s.fate
      · exact Reads.refl _ buf
      · exact Reads.refl _ buf
      · exact Reads.refl _ buf
    · exact Reads.fill buf _

def pollAccept (s : TcpStream) (bs : List UInt8) : Poll (Except IoError ℕ) × TcpStream :=
  match s.broken with
  | some e => (.ready (.error e), s)
  | none => (.ready (.ok bs.length), s.put bs)

lemma pollAccept_le (s : TcpStream) (bs : List UInt8) (n : ℕ)
    (h : (s.pollAccept bs).1 = .ready (.ok n)) : n ≤ bs.length := by
  unfold pollAccept at h
  cases hb : s.broken with
  | some e => simp [hb] at h
  | none =>
    simp only [hb, Poll.ready.injEq, Except.ok.injEq] at h
    omega

instance : AsyncWrite TcpStream where
  pollWrite := pollAccept
  pollWriteVectored s bufs := s.pollAccept bufs.flatten
  isWriteVectored _ := true
  pollFlush s := (.ready (.ok ()), s)
  pollShutdown s := (.ready (.ok ()), s)
  writes := pollAccept_le
  writesVectored s bufs := pollAccept_le s bufs.flatten

end TcpStream

/-! ### Tasks -/

inductive Outcome (ε α : Type)
  | ok (a : α)
  | err (e : ε)
  | blocked
  deriving DecidableEq

/-- The outcome of a task whose error is a result. -/
def Outcome.settled {ε δ α : Type} : Outcome ε α → Outcome δ (Except ε α)
  | .ok a => .ok (.ok a)
  | .err e => .ok (.error e)
  | .blocked => .blocked

/-- What a task that needs more bytes than there are ends with. -/
def Fate.short {α : Type} : Fate → Outcome IoError α
  | .eof => .err ⟨.unexpectedEof, "early eof"⟩
  | .reset e => .err e
  | .silent => .blocked

/-- A task that owns a state. -/
def Task (σ ε α : Type) := σ → Outcome ε α × σ

namespace Task

variable {σ τ ε α β : Type}

def bind (x : Task σ ε α) (f : α → Task σ ε β) : Task σ ε β := fun s =>
  match x s with
  | (.ok a, t) => f a t
  | (.err e, t) => (.err e, t)
  | (.blocked, t) => (.blocked, t)

instance : Monad (Task σ ε) where
  pure a := fun s => (.ok a, s)
  bind := bind

def fail (e : ε) : Task σ ε α := fun s => (.err e, s)

/-- Waits for something outside. -/
def await (out : Outcome ε α) : Task σ ε α := fun s => (out, s)

/-- The `?` of a task that fails with another kind of error. -/
def mapErr {δ : Type} (f : ε → δ) (x : Task σ ε α) : Task σ δ α := fun s =>
  match x s with
  | (.ok a, t) => (.ok a, t)
  | (.err e, t) => (.err (f e), t)
  | (.blocked, t) => (.blocked, t)

/-- The result of a task, be it an error. -/
def result {δ : Type} (x : Task σ ε α) : Task σ δ (Except ε α) := fun s =>
  ((x s).1.settled, (x s).2)

/-- A task on a part of the state. -/
def zoom (get : σ → τ) (set : σ → τ → σ) (x : Task τ ε α) : Task σ ε α := fun s =>
  ((x (get s)).1, set s (x (get s)).2)

def modify (f : σ → σ) : Task σ ε Unit := fun s => (.ok (), f s)

lemma bind_apply (x : Task σ ε α) (f : α → Task σ ε β) (s : σ) :
    (x >>= f) s = match x s with
      | (.ok a, t) => f a t
      | (.err e, t) => (.err e, t)
      | (.blocked, t) => (.blocked, t) := rfl

lemma bind_ok {x : Task σ ε α} {f : α → Task σ ε β} {s t : σ} {a : α}
    (h : x s = (.ok a, t)) : (x >>= f) s = f a t := by
  rw [bind_apply, h]

lemma bind_err {x : Task σ ε α} {f : α → Task σ ε β} {s t : σ} {e : ε}
    (h : x s = (.err e, t)) : (x >>= f) s = (.err e, t) := by
  rw [bind_apply, h]

lemma bind_blocked {x : Task σ ε α} {f : α → Task σ ε β} {s t : σ}
    (h : x s = (.blocked, t)) : (x >>= f) s = (.blocked, t) := by
  rw [bind_apply, h]

end Task

abbrev TcpTask := Task TcpStream

variable {α : Type}

namespace TcpStream

/-- `read` into a buffer of `cap` bytes; a read that is pending stays so. -/
def read (cap : ℕ) : TcpTask IoError (List UInt8) := fun s =>
  let r := pollRead s (ReadBuf.new cap)
  match r.1 with
  | .pending => (.blocked, r.2.2)
  | .ready (.error e) => (.err e, r.2.2)
  | .ready (.ok ()) => (.ok r.2.1.filled, r.2.2)

/-- `peek`: a read that consumes nothing. -/
def peek (cap : ℕ) : TcpTask IoError (List UInt8) := fun s => ((read cap s).1, s)

/-- The loop of `readExact`, with what it has so far; every read gets a byte at least. -/
def readMore (n : ℕ) : ℕ → List UInt8 → TcpTask IoError (List.Vector UInt8 n)
  | fuel, acc, s =>
    if h : acc.length = n then (.ok ⟨acc, h⟩, s)
    else
      match fuel with
      | 0 => (.blocked, s)
      | fuel + 1 =>
        match read (n - acc.length) s with
        | (.ok [], t) => (.err ⟨.unexpectedEof, "early eof"⟩, t)
        | (.ok bs, t) => readMore n fuel (acc ++ bs) t
        | (.err e, t) => (.err e, t)
        | (.blocked, t) => (.blocked, t)

def readExact (n : ℕ) : TcpTask IoError (List.Vector UInt8 n) := readMore n n []

def writeAll (bs : List UInt8) : TcpTask IoError Unit := fun s =>
  let r := pollWrite s bs
  match r.1 with
  | .pending => (.blocked, r.2)
  | .ready (.error e) => (.err e, r.2)
  | .ready (.ok _) => (.ok (), r.2)

/-! ### What the operations do, whatever the cuts -/

variable {s : TcpStream}

@[simp] lemma consume_zero (s : TcpStream) : s.consume 0 = s := rfl

lemma consume_consume (s : TcpStream) (m n : ℕ) : (s.consume m).consume n = s.consume (m + n) := by
  simp [consume]

@[simp] lemma put_nil (s : TcpStream) : s.put [] = s := by simp [put]

lemma consume_put (s : TcpStream) (n : ℕ) (bs : List UInt8) :
    (s.put bs).consume n = (s.consume n).put bs := rfl

lemma readSize_pos (s : TcpStream) {cap : ℕ} (h : 0 < cap) : 0 < s.readSize cap := by
  unfold readSize
  omega

lemma readSize_le (s : TcpStream) (cap : ℕ) : s.readSize cap ≤ cap := by
  unfold readSize
  omega

lemma read_of_ne_nil (h : s.unread ≠ []) (cap : ℕ) :
    read cap s = (.ok (s.unread.take (s.readSize cap)), s.consume (s.readSize cap)) := by
  have hle := readSize_le s cap
  have hpoll : pollRead s (ReadBuf.new cap) =
      (.ready (.ok ()), (ReadBuf.new cap).fill (s.unread.take (s.readSize cap)),
        s.consume (s.readSize cap)) := if_neg h
  have hfill : ((ReadBuf.new cap).fill (s.unread.take (s.readSize cap))).filled =
      s.unread.take (s.readSize cap) := by
    simp only [ReadBuf.filled_fill, ReadBuf.filled_new, ReadBuf.remaining_new, List.nil_append]
    rw [List.take_take, Nat.min_eq_right hle]
  unfold read
  rw [hpoll]
  simp only [hfill]

lemma presents (s : TcpStream) : Presents s s.unread := by
  have hpoll : ∀ (s : TcpStream) (buf : ReadBuf), s.unread ≠ [] →
      readBytes s buf = s.unread.take (s.readSize buf.remaining) ∧
        (pollRead s buf).2.2 = s.consume (s.readSize buf.remaining) := by
    intro s buf hu
    have h : pollRead s buf = (.ready (.ok ()), buf.fill (s.unread.take (s.readSize buf.remaining)),
        s.consume (s.readSize buf.remaining)) := if_neg hu
    unfold readBytes
    rw [h]
    refine ⟨?_, rfl⟩
    rw [ReadBuf.gained_fill, List.take_take, Nat.min_eq_right (readSize_le s _)]
  refine presents_of_step (I := fun s bytes => s.unread = bytes) ?_ ?_ rfl
  · rintro s bytes buf rfl
    by_cases hu : s.unread = []
    · have hend : pollRead s buf = (match s.fate with
          | .eof => (.ready (.ok ()), buf, s)
          | .reset e => (.ready (.error e), buf, s)
          | .silent => (.pending, buf, s)) := if_pos hu
      have hsame : (pollRead s buf).2 = (buf, s) := by
        rw [hend]
        cases s.fate <;> rfl
      refine ⟨[], ?_, ?_⟩
      · rw [List.append_nil, hu, readBytes, hsame, ReadBuf.gained_self]
      · rw [hsame]
        exact hu
    · obtain ⟨hbytes, hnext⟩ := hpoll s buf hu
      refine ⟨s.unread.drop (s.readSize buf.remaining), ?_, ?_⟩
      · rw [hbytes, List.take_append_drop]
      · rw [hnext]
        rfl
  · rintro s bytes buf rfl hne hroom
    have hpos := readSize_pos s hroom
    rw [(hpoll s buf hne).1]
    intro he
    rcases List.take_eq_nil_iff.mp he with h0 | h0
    · omega
    · exact hne h0

lemma read_of_nil (h : s.unread = []) (cap : ℕ) :
    read cap s = (match s.fate with
      | .eof => (.ok [], s)
      | .reset e => (.err e, s)
      | .silent => (.blocked, s)) := by
  have hpoll : pollRead s (ReadBuf.new cap) = (match s.fate with
      | .eof => (.ready (.ok ()), ReadBuf.new cap, s)
      | .reset e => (.ready (.error e), ReadBuf.new cap, s)
      | .silent => (.pending, ReadBuf.new cap, s)) := if_pos h
  unfold read
  rw [hpoll]
  cases s.fate <;> rfl

lemma readMore_done {n : ℕ} {acc : List UInt8} (h : acc.length = n) (fuel : ℕ) (s : TcpStream) :
    readMore n fuel acc s = (.ok ⟨acc, h⟩, s) := by
  unfold readMore
  rw [dif_pos h]

lemma readMore_of_nil {n : ℕ} {acc : List UInt8} (hn : acc.length ≠ n) (hu : s.unread = [])
    (fuel : ℕ) : readMore n (fuel + 1) acc s = (Fate.short s.fate, s) := by
  unfold readMore
  rw [dif_neg hn]
  simp only [read_of_nil hu]
  cases s.fate <;> rfl

lemma readMore_of_ne_nil {n : ℕ} {acc : List UInt8} (hacc : acc.length < n) (hu : s.unread ≠ [])
    (fuel : ℕ) :
    readMore n (fuel + 1) acc s =
      readMore n fuel (acc ++ s.unread.take (s.readSize (n - acc.length)))
        (s.consume (s.readSize (n - acc.length))) := by
  have hpos : 0 < s.readSize (n - acc.length) := readSize_pos s (by omega)
  have hsome : s.unread.take (s.readSize (n - acc.length)) ≠ [] := by
    intro he
    rcases List.take_eq_nil_iff.mp he with h0 | h0
    · omega
    · exact hu h0
  conv_lhs => unfold readMore
  rw [dif_neg (by omega)]
  simp only [read_of_ne_nil hu]

lemma consume_rest (k : ℕ) :
    s.consume (k + (s.consume k).unread.length) = s.consume s.unread.length := by
  unfold consume
  have h1 : s.unread.drop (k + (s.unread.drop k).length) = [] := by
    rw [List.drop_eq_nil_iff, List.length_drop]
    omega
  simp only [h1, List.drop_length]

/-- The loop gets what is missing from the front of what is left, or runs into its end. -/
lemma readMore_eq (n : ℕ) (fuel : ℕ) (acc : List UInt8) (s : TcpStream)
    (hacc : acc.length ≤ n) (hfuel : n - acc.length ≤ fuel) :
    (∀ h : n - acc.length ≤ s.unread.length, readMore n fuel acc s =
      (.ok ⟨acc ++ s.unread.take (n - acc.length), by
        rw [List.length_append, List.length_take]; omega⟩, s.consume (n - acc.length))) ∧
    (s.unread.length < n - acc.length →
      readMore n fuel acc s = (Fate.short s.fate, s.consume s.unread.length)) := by
  induction fuel generalizing acc s with
  | zero =>
    have hn : acc.length = n := by omega
    constructor
    · intro h
      rw [readMore_done hn]
      simp [hn]
    · intro h
      omega
  | succ fuel ih =>
    by_cases hn : acc.length = n
    · constructor
      · intro h
        rw [readMore_done hn]
        simp [hn]
      · intro h
        omega
    · by_cases hu : s.unread = []
      · constructor
        · intro h
          rw [hu, List.length_nil] at h
          omega
        · intro h
          have hcon : s.consume s.unread.length = s := by simp [hu]
          rw [readMore_of_nil hn hu, hcon]
      · -- one read, then the rest
        have hlt : acc.length < n := lt_of_le_of_ne hacc hn
        have hstep := readMore_of_ne_nil hlt hu fuel
        set k := s.readSize (n - acc.length) with hk
        have hpos : 0 < k := readSize_pos s (by omega)
        have hle : k ≤ n - acc.length := readSize_le s _
        have hlen : 0 < s.unread.length := List.length_pos_iff.mpr hu
        set bs := s.unread.take k with hbs
        have hacclen : (acc ++ bs).length = acc.length + min k s.unread.length := by
          rw [List.length_append, hbs, List.length_take]
        have hunread : (s.consume k).unread.length = s.unread.length - k := by
          simp [consume]
        obtain ⟨ih1, ih2⟩ := ih (acc ++ bs) (s.consume k) (by omega) (by omega)
        constructor
        · intro h
          have hmin : min k s.unread.length = k := by omega
          rw [hstep, ih1 (by omega)]
          have htake : acc ++ bs ++ (s.consume k).unread.take (n - (acc ++ bs).length) =
              acc ++ s.unread.take (n - acc.length) := by
            have hsplit : n - acc.length = k + (n - (acc ++ bs).length) := by omega
            rw [hsplit, List.take_add, List.append_assoc]
            rfl
          have hcon : (s.consume k).consume (n - (acc ++ bs).length) =
              s.consume (n - acc.length) := by
            rw [consume_consume]
            congr 1
            omega
          rw [hcon]
          exact congrArg (·, _) (congrArg Outcome.ok (Subtype.ext htake))
        · intro h
          rw [hstep, ih2 (by omega), consume_consume, consume_rest]
          rfl

/-- **`read_exact`** gets the next bytes if there are enough of them. -/
theorem readExact_of_le {n : ℕ} (h : n ≤ s.unread.length) :
    readExact n s = (.ok ⟨s.unread.take n, List.length_take_of_le h⟩, s.consume n) :=
  (readMore_eq n n [] s (Nat.zero_le _) (Nat.sub_le _ _)).1 h

/-- Otherwise it consumes them all and ends as the peer does. -/
theorem readExact_of_lt {n : ℕ} (h : s.unread.length < n) :
    readExact n s = (Fate.short s.fate, s.consume s.unread.length) :=
  (readMore_eq n n [] s (Nat.zero_le _) (Nat.sub_le _ _)).2 h

lemma writeAll_of_open (h : s.broken = none) (bs : List UInt8) :
    writeAll bs s = (.ok (), s.put bs) := by
  have hpoll : pollWrite s bs = (.ready (.ok bs.length), s.put bs) := by
    change s.pollAccept bs = _
    unfold pollAccept
    rw [h]
  unfold writeAll
  rw [hpoll]

/-! ### What goes over a socket -/

/-- What was read from a socket and what was written to it, against how it was before. -/
structure Socket (s : TcpStream) (p : Probe TcpStream) : Prop where
  unread : s.unread = p.produced ++ p.inner.unread
  written : p.inner.written = s.written ++ p.accepted
  fate : p.inner.fate = s.fate

lemma socket_new (s : TcpStream) : Socket s (Probe.new s) := ⟨rfl, (List.append_nil _).symm, rfl⟩

lemma pollRead_unread (s : TcpStream) (buf : ReadBuf) :
    s.unread = readBytes s buf ++ (pollRead s buf).2.2.unread ∧
      (pollRead s buf).2.2.written = s.written ∧ (pollRead s buf).2.2.fate = s.fate := by
  by_cases hu : s.unread = []
  · have hpoll : pollRead s buf = (match s.fate with
        | .eof => (.ready (.ok ()), buf, s)
        | .reset e => (.ready (.error e), buf, s)
        | .silent => (.pending, buf, s)) := if_pos hu
    have hsame : (pollRead s buf).2 = (buf, s) := by
      rw [hpoll]
      cases s.fate <;> rfl
    rw [readBytes, hsame, ReadBuf.gained_self]
    exact ⟨rfl, rfl, rfl⟩
  · have hpoll : pollRead s buf = (.ready (.ok ()),
        buf.fill (s.unread.take (s.readSize buf.remaining)),
        s.consume (s.readSize buf.remaining)) := if_neg hu
    rw [readBytes, hpoll, ReadBuf.gained_fill, List.take_take,
      Nat.min_eq_right (readSize_le s buf.remaining)]
    exact ⟨(List.take_append_drop _ _).symm, rfl, rfl⟩

lemma pollAccept_written (s : TcpStream) (bs : List UInt8) :
    (s.pollAccept bs).2 = s.put (bs.take (accepted (s.pollAccept bs).1)) := by
  unfold pollAccept
  cases s.broken with
  | some e => exact (put_nil s).symm
  | none => exact congrArg s.put (List.take_length).symm

lemma socket_perform {s : TcpStream} {p : Probe TcpStream} (h : Socket s p) (c : Call) :
    Socket s (perform p c) := by
  have hsend : ∀ bs, Socket s { p with
      inner := (p.inner.pollAccept bs).2
      accepted := p.accepted ++ bs.take (accepted (p.inner.pollAccept bs).1) } := by
    intro bs
    rw [pollAccept_written]
    refine ⟨h.unread, ?_, h.fate⟩
    change p.inner.written ++ _ = _
    rw [h.written, List.append_assoc]
  cases c with
  | read buf =>
    obtain ⟨hunread, hwritten, hfate⟩ := pollRead_unread p.inner buf
    refine ⟨?_, hwritten.trans h.written, hfate.trans h.fate⟩
    change s.unread = (p.produced ++ readBytes p.inner buf) ++ (pollRead p.inner buf).2.2.unread
    rw [List.append_assoc, ← hunread]
    exact h.unread
  | write bs => exact hsend bs
  | writeVectored bufs => exact hsend bufs.flatten
  | flush => exact h
  | shutdown => exact h

/-- The socket of a peer that closes after what it sends and takes all that is sent to it. -/
structure Closes (s : TcpStream) (bytes : List UInt8) : Prop where
  unread : s.unread = bytes
  fate : s.fate = .eof
  sound : s.broken = none

lemma orderly_closes : Orderly Closes where
  read := by
    rintro s bytes ⟨rfl, hfate, hsound⟩ buf hroom
    obtain ⟨hunread, -, hsame⟩ := pollRead_unread s buf
    have hpoll : (pollRead s buf).1 = .ready (.ok ()) ∧ (pollRead s buf).2.2.broken = s.broken := by
      change (s.pollReady buf).1 = _ ∧ (s.pollReady buf).2.2.broken = _
      unfold pollReady
      rw [hfate]
      split_ifs <;> exact ⟨rfl, rfl⟩
    refine ⟨hpoll.1, fun hnone => ?_, _, hunread, rfl, hsame.trans hfate, hpoll.2.trans hsound⟩
    by_contra hne
    exact (presents s).progress hne buf hroom hnone
  write := by
    rintro s bytes ⟨rfl, hfate, hsound⟩ bs hbs
    refine ⟨bs.length, List.length_pos_iff.mpr hbs, ?_, ?_⟩
    · change (s.pollAccept bs).1 = _
      unfold pollAccept
      rw [hsound]
    · change Closes (s.pollAccept bs).2 s.unread
      unfold pollAccept
      rw [hsound]
      exact ⟨rfl, hfate, hsound⟩
  flush h := ⟨rfl, h⟩
  shutdown h := ⟨rfl, h⟩

/-! ### Broken streams -/

lemma writeAll_of_broken (h : s.broken ≠ none) (bs : List UInt8) :
    ∃ e, writeAll bs s = (.err e, s) := by
  obtain ⟨e, he⟩ := Option.ne_none_iff_exists'.mp h
  have hpoll : pollWrite s bs = (.ready (.error e), s) := by
    change s.pollAccept bs = _
    unfold pollAccept
    rw [he]
  refine ⟨e, ?_⟩
  unfold writeAll
  rw [hpoll]

lemma writeAll_ok {bs : List UInt8} {t : TcpStream} (h : writeAll bs s = (.ok (), t)) :
    s.broken = none ∧ t = s.put bs := by
  by_cases hopen : s.broken = none
  · rw [writeAll_of_open hopen] at h
    cases h
    exact ⟨hopen, rfl⟩
  · obtain ⟨e, he⟩ := writeAll_of_broken hopen bs
    rw [he] at h
    cases h

end TcpStream

section Broken

open TcpStream

variable {ε δ β : Type}

/-- A task gets nothing written to a broken stream. -/
def Mute (x : TcpTask ε α) : Prop :=
  ∀ s, s.broken ≠ none → (x s).2.written = s.written ∧ (x s).2.broken = s.broken

/-- A task does not succeed over a broken stream. -/
def Fails (x : TcpTask ε α) : Prop := ∀ s, s.broken ≠ none → ∀ a, (x s).1 ≠ .ok a

lemma mute_pure (a : α) : Mute (pure a : TcpTask ε α) := fun _ _ => ⟨rfl, rfl⟩

lemma mute_fail (e : ε) : Mute (Task.fail e : TcpTask ε α) := fun _ _ => ⟨rfl, rfl⟩

lemma mute_readExact (n : ℕ) : Mute (readExact n) := by
  intro s _
  rcases Nat.lt_or_ge s.unread.length n with hlt | hge
  · rw [readExact_of_lt hlt]
    exact ⟨rfl, rfl⟩
  · rw [readExact_of_le hge]
    exact ⟨rfl, rfl⟩

lemma mute_writeAll (bs : List UInt8) : Mute (writeAll bs) := by
  intro s hs
  obtain ⟨e, he⟩ := writeAll_of_broken hs bs
  rw [he]
  exact ⟨rfl, rfl⟩

lemma Mute.mapErr {x : TcpTask ε α} (hx : Mute x) (f : ε → δ) : Mute (x.mapErr f) := by
  intro s hs
  have h := hx s hs
  unfold Task.mapErr
  rcases hxs : x s with ⟨_ | _ | _, t⟩
  all_goals
    rw [hxs] at h
    exact h

lemma Mute.bind {x : TcpTask ε α} {f : α → TcpTask ε β} (hx : Mute x) (hf : ∀ a, Mute (f a)) :
    Mute (x >>= f) := by
  intro s hs
  have h := hx s hs
  rcases hxs : x s with ⟨a | e | _, t⟩
  · rw [hxs] at h
    have ht := hf a t (by rw [h.2]; exact hs)
    rw [Task.bind_ok hxs]
    exact ⟨ht.1.trans h.1, ht.2.trans h.2⟩
  · rw [hxs] at h
    rw [Task.bind_err hxs]
    exact h
  · rw [hxs] at h
    rw [Task.bind_blocked hxs]
    exact h

lemma fails_fail (e : ε) : Fails (Task.fail e : TcpTask ε α) := fun _ _ _ h => by cases h

lemma fails_writeAll (bs : List UInt8) : Fails (writeAll bs) := by
  intro s hs a h
  obtain ⟨e, he⟩ := writeAll_of_broken hs bs
  rw [he] at h
  cases h

lemma Fails.mapErr {x : TcpTask ε α} (hx : Fails x) (f : ε → δ) : Fails (x.mapErr f) := by
  intro s hs a h
  unfold Task.mapErr at h
  rcases hxs : x s with ⟨b | e | _, t⟩
  · exact hx s hs b (by rw [hxs])
  · rw [hxs] at h
    cases h
  · rw [hxs] at h
    cases h

lemma Fails.bind_left {x : TcpTask ε α} (hx : Fails x) (f : α → TcpTask ε β) :
    Fails (x >>= f) := by
  intro s hs b h
  rcases hxs : x s with ⟨a | e | _, t⟩
  · exact hx s hs a (by rw [hxs])
  · rw [Task.bind_err hxs] at h
    cases h
  · rw [Task.bind_blocked hxs] at h
    cases h

lemma Fails.bind {x : TcpTask ε α} {f : α → TcpTask ε β} (hx : Mute x) (hf : ∀ a, Fails (f a)) :
    Fails (x >>= f) := by
  intro s hs b h
  rcases hxs : x s with ⟨a | e | _, t⟩
  · rw [Task.bind_ok hxs] at h
    have ht := (hx s hs).2
    rw [hxs] at ht
    exact hf a t (by rw [ht]; exact hs) b h
  · rw [Task.bind_err hxs] at h
    cases h
  · rw [Task.bind_blocked hxs] at h
    cases h

end Broken

end Wiretally.Lib.Tcp
