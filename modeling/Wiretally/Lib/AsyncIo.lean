import Mathlib.Data.List.Basic

/-!
Asynchronous byte streams, polled.

A poll of a read is given a buffer, some of it filled already, and may only append to it; a
poll of a write is given bytes and accepts a number of them from the front. What a reader or
a writer owes its caller is part of the class, so an adapter is an instance only once it is
proved to keep it.

A probe sits around a stream and writes down what crosses it; an adapter above cannot tell.
A script is a stream that does, poll by poll, what it was told to do.
-/

namespace Wiretally.Lib.AsyncIo

inductive ErrorKind
  | unexpectedEof | invalidData | invalidInput | writeZero | connectionReset
  | connectionRefused | other
  deriving DecidableEq

structure IoError where
  kind : ErrorKind
  message : String
  deriving DecidableEq

inductive Poll (α : Type)
  | pending
  | ready (a : α)
  deriving DecidableEq

/-- A buffer of fixed capacity whose first bytes are filled. -/
@[ext] structure ReadBuf where
  filled : List UInt8
  capacity : ℕ
  fits : filled.length ≤ capacity
  deriving DecidableEq

namespace ReadBuf

def new (capacity : ℕ) : ReadBuf := ⟨[], capacity, Nat.zero_le _⟩

def remaining (buf : ReadBuf) : ℕ := buf.capacity - buf.filled.length

def putSlice (buf : ReadBuf) (bs : List UInt8) (h : bs.length ≤ buf.remaining) : ReadBuf where
  filled := buf.filled ++ bs
  capacity := buf.capacity
  fits := by
    have := buf.fits
    simp only [remaining] at h
    simp only [List.length_append]
    omega

def fill (buf : ReadBuf) (bs : List UInt8) : ReadBuf :=
  buf.putSlice (bs.take buf.remaining) (by rw [List.length_take]; exact Nat.min_le_left _ _)

@[simp] lemma filled_putSlice (buf : ReadBuf) (bs : List UInt8) (h) :
    (buf.putSlice bs h).filled = buf.filled ++ bs := rfl

@[simp] lemma capacity_putSlice (buf : ReadBuf) (bs : List UInt8) (h) :
    (buf.putSlice bs h).capacity = buf.capacity := rfl

@[simp] lemma filled_fill (buf : ReadBuf) (bs : List UInt8) :
    (buf.fill bs).filled = buf.filled ++ bs.take buf.remaining := rfl

@[simp] lemma capacity_fill (buf : ReadBuf) (bs : List UInt8) :
    (buf.fill bs).capacity = buf.capacity := rfl

@[simp] lemma remaining_new (n : ℕ) : (new n).remaining = n := rfl

@[simp] lemma filled_new (n : ℕ) : (new n).filled = [] := rfl

/-- The bytes `buf'` holds beyond those of `buf`. -/
def gained (buf buf' : ReadBuf) : List UInt8 := buf'.filled.drop buf.filled.length

@[simp] lemma gained_self (buf : ReadBuf) : buf.gained buf = [] := by simp [gained]

@[simp] lemma gained_putSlice (buf : ReadBuf) (bs : List UInt8) (h) :
    buf.gained (buf.putSlice bs h) = bs := by simp [gained]

@[simp] lemma gained_fill (buf : ReadBuf) (bs : List UInt8) :
    buf.gained (buf.fill bs) = bs.take buf.remaining := by simp [gained]

end ReadBuf

/-- What a poll of a read may do to the buffer: append to it, and nothing unless it says so. -/
structure Reads (buf : ReadBuf) (poll : Poll (Except IoError Unit)) (buf' : ReadBuf) : Prop where
  grows : buf.filled <+: buf'.filled
  capacity : buf'.capacity = buf.capacity
  idle : poll ≠ .ready (.ok ()) → buf' = buf

class AsyncRead (S : Type) where
  pollRead : S → ReadBuf → Poll (Except IoError Unit) × ReadBuf × S
  reads (s : S) (buf : ReadBuf) : Reads buf (pollRead s buf).1 (pollRead s buf).2.1

class AsyncWrite (S : Type) where
  pollWrite : S → List UInt8 → Poll (Except IoError ℕ) × S
  pollWriteVectored : S → List (List UInt8) → Poll (Except IoError ℕ) × S
  isWriteVectored : S → Bool
  pollFlush : S → Poll (Except IoError Unit) × S
  pollShutdown : S → Poll (Except IoError Unit) × S
  writes (s : S) (bs : List UInt8) (n : ℕ) : (pollWrite s bs).1 = .ready (.ok n) → n ≤ bs.length
  writesVectored (s : S) (bufs : List (List UInt8)) (n : ℕ) :
    (pollWriteVectored s bufs).1 = .ready (.ok n) → n ≤ bufs.flatten.length

export AsyncRead (pollRead)
export AsyncWrite (pollWrite pollWriteVectored isWriteVectored pollFlush pollShutdown)

/-- A poll of any kind. -/
inductive Call
  | read (buf : ReadBuf)
  | write (bs : List UInt8)
  | writeVectored (bufs : List (List UInt8))
  | flush
  | shutdown

def perform {S : Type} [AsyncRead S] [AsyncWrite S] (s : S) : Call → S
  | .read buf => (pollRead s buf).2.2
  | .write bs => (pollWrite s bs).2
  | .writeVectored bufs => (pollWriteVectored s bufs).2
  | .flush => (pollFlush s).2
  | .shutdown => (pollShutdown s).2

/-- How many bytes a poll of a write accepted. -/
def accepted : Poll (Except IoError ℕ) → ℕ
  | .ready (.ok n) => n
  | _ => 0

variable {S : Type}

section Reads

variable {buf buf' : ReadBuf} {poll : Poll (Except IoError Unit)}

lemma Reads.refl (poll : Poll (Except IoError Unit)) (buf : ReadBuf) : Reads buf poll buf :=
  ⟨List.prefix_refl _, rfl, fun _ => rfl⟩

lemma Reads.fill (buf : ReadBuf) (bs : List UInt8) : Reads buf (.ready (.ok ())) (buf.fill bs) :=
  ⟨List.prefix_append _ _, rfl, fun h => absurd rfl h⟩

lemma Reads.filled (h : Reads buf poll buf') : buf'.filled = buf.filled ++ buf.gained buf' := by
  obtain ⟨bs, hbs⟩ := h.grows
  simp [ReadBuf.gained, ← hbs]

lemma Reads.gained_idle (h : Reads buf poll buf') (hp : poll ≠ .ready (.ok ())) :
    buf.gained buf' = [] := by
  rw [h.idle hp, ReadBuf.gained_self]

end Reads

/-- The bytes one poll of a read puts in the buffer. -/
def readBytes [AsyncRead S] (s : S) (buf : ReadBuf) : List UInt8 := buf.gained (pollRead s buf).2.1

/-! ### What a reader gets -/

section Presents

variable [AsyncRead S]

def deliver (s : S) : List ReadBuf → List UInt8 × S
  | [] => ([], s)
  | buf :: bufs =>
    let r := deliver (pollRead s buf).2.2 bufs
    (readBytes s buf ++ r.1, r.2)

/-- A reader gets exactly these bytes: never anything else, and more of them by every read
with room until it has them all. -/
structure Presents (s : S) (bytes : List UInt8) : Prop where
  within : ∀ bufs, (deliver s bufs).1 <+: bytes
  onward : ∀ bufs, (deliver s bufs).1 ≠ bytes → ∀ buf : ReadBuf, 0 < buf.remaining →
    readBytes (deliver s bufs).2 buf ≠ []

/-- **The rule for streams.** A relation between a stream and the bytes it has to give that
every read keeps, and under which every read with room gets some of them. -/
theorem presents_of_step {I : S → List UInt8 → Prop}
    (step : ∀ s bytes buf, I s bytes →
      ∃ rest, bytes = readBytes s buf ++ rest ∧ I (pollRead s buf).2.2 rest)
    (progress : ∀ s bytes (buf : ReadBuf), I s bytes → bytes ≠ [] → 0 < buf.remaining →
      readBytes s buf ≠ [])
    {s : S} {bytes : List UInt8} (h : I s bytes) : Presents s bytes := by
  have key : ∀ (bufs : List ReadBuf) (s : S) (bytes : List UInt8), I s bytes →
      ∃ rest, bytes = (deliver s bufs).1 ++ rest ∧ I (deliver s bufs).2 rest := by
    intro bufs
    induction bufs with
    | nil => exact fun s bytes h => ⟨bytes, rfl, h⟩
    | cons buf bufs ih =>
      intro s bytes h
      obtain ⟨rest, rfl, hi⟩ := step s bytes buf h
      obtain ⟨rest', rfl, hi'⟩ := ih _ rest hi
      exact ⟨rest', (List.append_assoc _ _ _).symm, hi'⟩
  constructor
  · intro bufs
    obtain ⟨rest, hb, -⟩ := key bufs s bytes h
    exact ⟨rest, hb.symm⟩
  · intro bufs hne buf hroom
    obtain ⟨rest, hb, hi⟩ := key bufs s bytes h
    refine progress _ rest buf hi ?_ hroom
    rintro rfl
    rw [List.append_nil] at hb
    exact hne hb.symm

/-- A read takes its bytes off the front of what is presented. -/
lemma Presents.step {s : S} {bytes : List UInt8} (h : Presents s bytes) (buf : ReadBuf) :
    ∃ rest, bytes = readBytes s buf ++ rest ∧ Presents (pollRead s buf).2.2 rest := by
  obtain ⟨rest, hrest⟩ := h.within [buf]
  have hone : (deliver s [buf]).1 = readBytes s buf := List.append_nil _
  rw [hone] at hrest
  refine ⟨rest, hrest.symm, fun bufs => ?_, fun bufs hne => ?_⟩
  · have hcons := h.within (buf :: bufs)
    rw [← hrest] at hcons
    exact (List.prefix_append_right_inj _).mp hcons
  · refine h.onward (buf :: bufs) fun he => hne ?_
    rw [← hrest] at he
    exact List.append_cancel_left he

lemma Presents.progress {s : S} {bytes : List UInt8} (h : Presents s bytes) (hne : bytes ≠ [])
    (buf : ReadBuf) (hroom : 0 < buf.remaining) : readBytes s buf ≠ [] :=
  h.onward [] hne.symm buf hroom

end Presents

/-! ### Probes -/

/-- A stream with the bytes it has produced and the bytes it has accepted so far. -/
structure Probe (S : Type) where
  inner : S
  produced : List UInt8
  accepted : List UInt8

def Probe.new (s : S) : Probe S := ⟨s, [], []⟩

@[simp] lemma Probe.inner_new (s : S) : (Probe.new s).inner = s := rfl

@[simp] lemma Probe.produced_new (s : S) : (Probe.new s).produced = [] := rfl

@[simp] lemma Probe.accepted_new (s : S) : (Probe.new s).accepted = [] := rfl

instance [AsyncRead S] : AsyncRead (Probe S) where
  pollRead p buf :=
    let r := pollRead p.inner buf
    (r.1, r.2.1, { p with inner := r.2.2, produced := p.produced ++ buf.gained r.2.1 })
  reads p buf := AsyncRead.reads p.inner buf

instance [AsyncWrite S] : AsyncWrite (Probe S) where
  pollWrite p bs :=
    let r := pollWrite p.inner bs
    (r.1, { p with inner := r.2, accepted := p.accepted ++ bs.take (AsyncIo.accepted r.1) })
  pollWriteVectored p bufs :=
    let r := pollWriteVectored p.inner bufs
    (r.1, { p with
      inner := r.2, accepted := p.accepted ++ bufs.flatten.take (AsyncIo.accepted r.1) })
  isWriteVectored p := isWriteVectored p.inner
  pollFlush p := let r := pollFlush p.inner; (r.1, { p with inner := r.2 })
  pollShutdown p := let r := pollShutdown p.inner; (r.1, { p with inner := r.2 })
  writes p bs n h := AsyncWrite.writes p.inner bs n h
  writesVectored p bufs n h := AsyncWrite.writesVectored p.inner bufs n h

section Probe

variable (p : Probe S)

lemma produced_pollRead [AsyncRead S] (buf : ReadBuf) :
    (pollRead p buf).2.2.produced = p.produced ++ readBytes p buf := rfl

lemma accepted_pollWrite [AsyncWrite S] (bs : List UInt8) :
    (pollWrite p bs).2.accepted = p.accepted ++ bs.take (AsyncIo.accepted (pollWrite p bs).1) := rfl

lemma accepted_pollWriteVectored [AsyncWrite S] (bufs : List (List UInt8)) :
    (pollWriteVectored p bufs).2.accepted =
      p.accepted ++ bufs.flatten.take (AsyncIo.accepted (pollWriteVectored p bufs).1) := rfl

end Probe

lemma accepted_pollWrite_le [AsyncWrite S] (s : S) (bs : List UInt8) :
    accepted (pollWrite s bs).1 ≤ bs.length := by
  have h := AsyncWrite.writes s bs
  rcases hp : (pollWrite s bs).1 with _ | e | n
  · exact Nat.zero_le _
  · exact Nat.zero_le _
  · exact h n hp

lemma accepted_pollWriteVectored_le [AsyncWrite S] (s : S) (bufs : List (List UInt8)) :
    accepted (pollWriteVectored s bufs).1 ≤ bufs.flatten.length := by
  have h := AsyncWrite.writesVectored s bufs
  rcases hp : (pollWriteVectored s bufs).1 with _ | e | n
  · exact Nat.zero_le _
  · exact Nat.zero_le _
  · exact h n hp

/-! ### Streams that come to an end -/

/-- A stream that never fails and has these bytes left to give: a read with room takes some off
their front, and none only once there are none; a write accepts some of what it is offered. -/
structure Orderly [AsyncRead S] [AsyncWrite S] (I : S → List UInt8 → Prop) : Prop where
  read {s bytes} (h : I s bytes) (buf : ReadBuf) (hroom : 0 < buf.remaining) :
    (pollRead s buf).1 = .ready (.ok ()) ∧ (readBytes s buf = [] → bytes = []) ∧
      ∃ rest, bytes = readBytes s buf ++ rest ∧ I (pollRead s buf).2.2 rest
  write {s bytes} (h : I s bytes) {bs : List UInt8} (hbs : bs ≠ []) :
    ∃ n, 0 < n ∧ (pollWrite s bs).1 = .ready (.ok n) ∧ I (pollWrite s bs).2 bytes
  flush {s bytes} (h : I s bytes) : (pollFlush s).1 = .ready (.ok ()) ∧ I (pollFlush s).2 bytes
  shutdown {s bytes} (h : I s bytes) :
    (pollShutdown s).1 = .ready (.ok ()) ∧ I (pollShutdown s).2 bytes

/-- A probe around such a stream has produced what the stream no longer has to give. -/
lemma orderly_probe [AsyncRead S] [AsyncWrite S] {I : S → List UInt8 → Prop} (h : Orderly I)
    (all : List UInt8) :
    Orderly fun (p : Probe S) bytes => all = p.produced ++ bytes ∧ I p.inner bytes where
  read := by
    rintro p bytes ⟨hall, hp⟩ buf hroom
    obtain ⟨hpoll, hend, rest, hrest, hnext⟩ := h.read hp buf hroom
    refine ⟨hpoll, hend, rest, hrest, ?_, hnext⟩
    rw [produced_pollRead, List.append_assoc, hall]
    exact congrArg (p.produced ++ ·) hrest
  write := by
    rintro p bytes ⟨hall, hp⟩ bs hbs
    obtain ⟨n, hn, hpoll, hnext⟩ := h.write hp hbs
    exact ⟨n, hn, hpoll, hall, hnext⟩
  flush := by
    rintro p bytes ⟨hall, hp⟩
    exact ⟨(h.flush hp).1, hall, (h.flush hp).2⟩
  shutdown := by
    rintro p bytes ⟨hall, hp⟩
    exact ⟨(h.shutdown hp).1, hall, (h.shutdown hp).2⟩

/-! ### Scripts -/

inductive ReadEvent
  | pending
  | data (bs : List UInt8)
  | eof
  | error (e : IoError)

inductive WriteEvent
  | pending
  | accept (n : ℕ)
  | error (e : IoError)

/-- What a stream will do, one event a poll; past the end of the script nothing happens. -/
structure Script where
  reads : List ReadEvent
  writes : List WriteEvent

namespace Script

/-- Data that does not fit in the buffer stays for the next poll. -/
def poll (s : Script) (buf : ReadBuf) : Poll (Except IoError Unit) × ReadBuf × Script :=
  match s.reads with
  | [] => (.pending, buf, s)
  | .pending :: rest => (.pending, buf, { s with reads := rest })
  | .eof :: rest => (.ready (.ok ()), buf, { s with reads := rest })
  | .error e :: rest => (.ready (.error e), buf, { s with reads := rest })
  | .data bs :: rest =>
    let left := bs.drop buf.remaining
    (.ready (.ok ()), buf.fill bs,
      { s with reads := if left = [] then rest else .data left :: rest })

def pollAccept (s : Script) (size : ℕ) : Poll (Except IoError ℕ) × Script :=
  match s.writes with
  | [] => (.pending, s)
  | .pending :: rest => (.pending, { s with writes := rest })
  | .error e :: rest => (.ready (.error e), { s with writes := rest })
  | .accept n :: rest => (.ready (.ok (min n size)), { s with writes := rest })

instance : AsyncRead Script where
  pollRead := poll
  reads s buf := by
    obtain ⟨reads, writes⟩ := s
    rcases reads with _ | ⟨_ | bs | _ | e, rest⟩
    · exact Reads.refl _ buf
    · exact Reads.refl _ buf
    · exact Reads.fill buf bs
    · exact Reads.refl _ buf
    · exact Reads.refl _ buf

lemma pollAccept_le (s : Script) (size n : ℕ) (h : (s.pollAccept size).1 = .ready (.ok n)) :
    n ≤ size := by
  obtain ⟨reads, writes⟩ := s
  rcases writes with _ | ⟨_ | m | e, rest⟩ <;> simp [pollAccept] at h
  omega

instance : AsyncWrite Script where
  pollWrite s bs := s.pollAccept bs.length
  pollWriteVectored s bufs := s.pollAccept bufs.flatten.length
  isWriteVectored _ := true
  pollFlush s := (.ready (.ok ()), s)
  pollShutdown s := (.ready (.ok ()), s)
  writes s _ n h := pollAccept_le s _ n h
  writesVectored s _ n h := pollAccept_le s _ n h

end Script

end Wiretally.Lib.AsyncIo
