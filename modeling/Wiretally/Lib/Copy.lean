import Wiretally.Lib.AsyncIo
import Wiretally.Lib.Run

/-!
Copying between two streams in both directions at once.

Each direction reads into a bounded buffer of its own and writes from it, in order; it has
reached its end when the reader has, the buffer is empty and the writer is shut down. Which
direction is polled when, and with how much room, is left open. The first error of any poll
ends the copy on the spot, whatever the buffers still hold.
-/

namespace Wiretally.Lib.Copy

open Wiretally.Lib.AsyncIo Wiretally.Lib.Run

/-- One direction. -/
@[ext] structure Relay (cap : ℕ) where
  buffer : List UInt8
  readDone : Bool
  finished : Bool
  fits : buffer.length ≤ cap
  ended : finished = true → readDone = true ∧ buffer = []
  deriving DecidableEq

namespace Relay

variable {cap : ℕ}

def new (cap : ℕ) : Relay cap := ⟨[], false, false, Nat.zero_le _, by simp⟩

/-- The direction after a read; one without a byte is the last. -/
def take (d : Relay cap) (bytes : List UInt8) (h : d.buffer.length + bytes.length ≤ cap)
    (hd : d.readDone = false) : Relay cap where
  buffer := d.buffer ++ bytes
  readDone := bytes == []
  finished := d.finished
  fits := by rwa [List.length_append]
  ended hf := by
    have := (d.ended hf).1
    rw [hd] at this
    cases this

/-- The direction after a write of `n` bytes. -/
def give (d : Relay cap) (n : ℕ) : Relay cap where
  buffer := d.buffer.drop n
  readDone := d.readDone
  finished := d.finished
  fits := by
    have := d.fits
    rw [List.length_drop]
    omega
  ended hf := ⟨(d.ended hf).1, by rw [(d.ended hf).2, List.drop_nil]⟩

def close (d : Relay cap) (h : d.readDone = true ∧ d.buffer = []) : Relay cap where
  buffer := d.buffer
  readDone := d.readDone
  finished := true
  fits := d.fits
  ended _ := h

end Relay

/-- What one direction can be polled for. -/
inductive Task
  | fill (room : ℕ)
  | drain
  | flush
  | shutdown

/-- The reader, the writer and the direction after a poll, with the error if it failed. -/
structure Polled (cap : ℕ) (R W : Type) where
  reader : R
  writer : W
  relay : Relay cap
  error : Option IoError

section Poll

variable {cap : ℕ} {R W : Type} [AsyncRead R] [AsyncWrite W]

lemma length_filled_le (reader : R) (room : ℕ) :
    (pollRead reader (ReadBuf.new room)).2.1.filled.length ≤ room := by
  have h1 := (pollRead reader (ReadBuf.new room)).2.1.fits
  have h2 := (AsyncRead.reads reader (ReadBuf.new room)).capacity
  rw [h2] at h1
  exact h1

/-- A read takes at most `room` bytes into the free part of the buffer; a writer that accepts
nothing is an error; the writer is shut down once everything read has been written. -/
def Relay.poll (d : Relay cap) (reader : R) (writer : W) : Task → Option (Polled cap R W)
  | .fill room =>
    if h : d.readDone = false ∧ 0 < room ∧ d.buffer.length + room ≤ cap then
      let r := pollRead reader (ReadBuf.new room)
      match r.1 with
      | .pending => some ⟨r.2.2, writer, d, none⟩
      | .ready (.error e) => some ⟨r.2.2, writer, d, some e⟩
      | .ready (.ok ()) =>
        let hle : d.buffer.length + r.2.1.filled.length ≤ cap := by
          have : r.2.1.filled.length ≤ room := length_filled_le reader room
          omega
        some ⟨r.2.2, writer, d.take r.2.1.filled hle h.1, none⟩
    else none
  | .drain =>
    if d.buffer ≠ [] then
      let r := pollWrite writer d.buffer
      match r.1 with
      | .pending => some ⟨reader, r.2, d, none⟩
      | .ready (.error e) => some ⟨reader, r.2, d, some e⟩
      | .ready (.ok n) =>
        if n = 0 then some ⟨reader, r.2, d, some ⟨.writeZero, "write zero byte into writer"⟩⟩
        else some ⟨reader, r.2, d.give n, none⟩
    else none
  | .flush =>
    if d.finished = false then
      let r := pollFlush writer
      match r.1 with
      | .ready (.error e) => some ⟨reader, r.2, d, some e⟩
      | _ => some ⟨reader, r.2, d, none⟩
    else none
  | .shutdown =>
    if h : (d.readDone = true ∧ d.buffer = []) ∧ d.finished = false then
      let r := pollShutdown writer
      match r.1 with
      | .pending => some ⟨reader, r.2, d, none⟩
      | .ready (.error e) => some ⟨reader, r.2, d, some e⟩
      | .ready (.ok ()) => some ⟨reader, r.2, d.close h.1, none⟩
    else none

end Poll

structure Duplex (cap : ℕ) (A B : Type) where
  a : A
  b : B
  aToB : Relay cap
  bToA : Relay cap
  result : Option (Except IoError Unit)

def Duplex.new {A B : Type} (cap : ℕ) (a : A) (b : B) : Duplex cap A B :=
  ⟨a, b, .new cap, .new cap, none⟩

inductive Act
  | aToB (t : Task)
  | bToA (t : Task)
  /-- Both directions have reached their end. -/
  | finish

section Step

variable {cap : ℕ} {A B : Type} [AsyncRead A] [AsyncWrite A] [AsyncRead B] [AsyncWrite B]

/-- Nothing happens any more once there is a result. -/
def step (s : Duplex cap A B) (act : Act) : Option (Duplex cap A B) :=
  if s.result.isSome = true then none
  else
    match act with
    | .aToB t => (s.aToB.poll s.a s.b t).map fun p =>
        { s with a := p.reader, b := p.writer, aToB := p.relay, result := p.error.map .error }
    | .bToA t => (s.bToA.poll s.b s.a t).map fun p =>
        { s with a := p.writer, b := p.reader, bToA := p.relay, result := p.error.map .error }
    | .finish =>
      if s.aToB.finished = true ∧ s.bToA.finished = true then
        some { s with result := some (.ok ()) }
      else none

lemma result_of_step {s t : Duplex cap A B} {act : Act} (h : step s act = some t) :
    s.result = none := by
  by_contra hne
  unfold step at h
  rw [if_pos (Option.isSome_iff_ne_none.mpr hne)] at h
  cases h

end Step

/-! ### One poll of one direction -/

section Moves

variable {cap : ℕ} {R W : Type} [AsyncRead R] [AsyncWrite R] [AsyncRead W] [AsyncWrite W]

/-- What a poll of one direction does: bytes move from the reader through the buffer to the
writer, or it fails and the direction stays as it is. -/
structure Moves (d : Relay cap) (reader : Probe R) (writer : Probe W)
    (p : Polled cap (Probe R) (Probe W)) (got sent : List UInt8) : Prop where
  produced : p.reader.produced = reader.produced ++ got
  readerKept : p.reader.accepted = reader.accepted
  accepted : p.writer.accepted = writer.accepted ++ sent
  writerKept : p.writer.produced = writer.produced
  buffer : d.buffer ++ got = sent ++ p.relay.buffer
  failed : p.error ≠ none → p.relay = d
  polledReader : p.reader = reader ∨ ∃ c, p.reader = perform reader c
  polledWriter : p.writer = writer ∨ ∃ c, p.writer = perform writer c

lemma moves_fill (d : Relay cap) (reader : Probe R) (writer : Probe W) (room : ℕ)
    {p : Polled cap (Probe R) (Probe W)} (h : d.poll reader writer (.fill room) = some p) :
    ∃ got, Moves d reader writer p got [] := by
  have hreads := AsyncRead.reads reader (ReadBuf.new room)
  have hprod := produced_pollRead reader (ReadBuf.new room)
  have hcall : perform reader (.read (ReadBuf.new room)) =
      (pollRead reader (ReadBuf.new room)).2.2 := rfl
  -- a poll that is pending or fails reads nothing
  have hidle : (pollRead reader (ReadBuf.new room)).1 ≠ .ready (.ok ()) →
      (pollRead reader (ReadBuf.new room)).2.2.produced = reader.produced ++ [] := by
    intro hne
    rwa [show readBytes reader (ReadBuf.new room) = [] from hreads.gained_idle hne] at hprod
  simp only [Relay.poll] at h
  split_ifs at h with hroom
  rcases hp : (pollRead reader (ReadBuf.new room)).1 with _ | e | ⟨⟨⟩⟩
  · simp only [hp, Option.some.injEq] at h
    subst h
    exact ⟨[], hidle (by simp [hp]), rfl, by simp, rfl, by simp, fun _ => rfl,
      .inr ⟨_, hcall.symm⟩, .inl rfl⟩
  · simp only [hp, Option.some.injEq] at h
    subst h
    exact ⟨[], hidle (by simp [hp]), rfl, by simp, rfl, by simp, fun _ => rfl,
      .inr ⟨_, hcall.symm⟩, .inl rfl⟩
  · simp only [hp, Option.some.injEq] at h
    subst h
    have hfilled : readBytes reader (ReadBuf.new room) =
        (pollRead reader (ReadBuf.new room)).2.1.filled := by simp [readBytes, ReadBuf.gained]
    rw [hfilled] at hprod
    exact ⟨_, hprod, rfl, by simp, rfl, by simp [Relay.take], by simp, .inr ⟨_, hcall.symm⟩,
      .inl rfl⟩

lemma moves_drain (d : Relay cap) (reader : Probe R) (writer : Probe W)
    {p : Polled cap (Probe R) (Probe W)} (h : d.poll reader writer .drain = some p) :
    ∃ sent, Moves d reader writer p [] sent := by
  have hacc := accepted_pollWrite writer d.buffer
  have hle := accepted_pollWrite_le writer d.buffer
  have hcall : perform writer (.write d.buffer) = (pollWrite writer d.buffer).2 := rfl
  simp only [Relay.poll] at h
  split_ifs at h with hbuf
  rcases hp : (pollWrite writer d.buffer).1 with _ | e | n
  · simp only [hp, Option.some.injEq] at h
    subst h
    rw [hp] at hacc
    exact ⟨[], by simp, rfl, hacc, rfl, by simp, fun _ => rfl, .inl rfl, .inr ⟨_, hcall.symm⟩⟩
  · simp only [hp, Option.some.injEq] at h
    subst h
    rw [hp] at hacc
    exact ⟨[], by simp, rfl, hacc, rfl, by simp, fun _ => rfl, .inl rfl, .inr ⟨_, hcall.symm⟩⟩
  · rw [hp] at hacc
    simp only [hp] at h
    split_ifs at h with hn
    · simp only [Option.some.injEq] at h
      subst h hn
      exact ⟨[], by simp, rfl, hacc, rfl, by simp, fun _ => rfl, .inl rfl, .inr ⟨_, hcall.symm⟩⟩
    · simp only [Option.some.injEq] at h
      subst h
      refine ⟨d.buffer.take n, by simp, rfl, hacc, rfl, ?_, by simp, .inl rfl, .inr ⟨_, hcall.symm⟩⟩
      simp [Relay.give]

lemma moves_flush (d : Relay cap) (reader : Probe R) (writer : Probe W)
    {p : Polled cap (Probe R) (Probe W)} (h : d.poll reader writer .flush = some p) :
    Moves d reader writer p [] [] := by
  have hcall : perform writer .flush = (pollFlush writer).2 := rfl
  simp only [Relay.poll] at h
  split_ifs at h with hf
  rcases hp : (pollFlush writer).1 with _ | e | ⟨⟨⟩⟩ <;>
    simp only [hp, Option.some.injEq] at h <;> subst h <;>
    exact ⟨by simp, rfl, by simp; rfl, rfl, by simp, fun _ => rfl, .inl rfl,
      .inr ⟨_, hcall.symm⟩⟩

lemma moves_shutdown (d : Relay cap) (reader : Probe R) (writer : Probe W)
    {p : Polled cap (Probe R) (Probe W)} (h : d.poll reader writer .shutdown = some p) :
    Moves d reader writer p [] [] := by
  have hcall : perform writer .shutdown = (pollShutdown writer).2 := rfl
  simp only [Relay.poll] at h
  split_ifs at h with hf
  rcases hp : (pollShutdown writer).1 with _ | e | ⟨⟨⟩⟩ <;>
    simp only [hp, Option.some.injEq] at h <;> subst h <;>
    exact ⟨by simp, rfl, by simp; rfl, rfl, by simp [Relay.close], by simp, .inl rfl,
      .inr ⟨_, hcall.symm⟩⟩

/-- **One poll moves bytes in order or fails.** -/
theorem moves_poll (d : Relay cap) (reader : Probe R) (writer : Probe W) (t : Task)
    {p : Polled cap (Probe R) (Probe W)} (h : d.poll reader writer t = some p) :
    ∃ got sent, Moves d reader writer p got sent := by
  cases t with
  | fill room =>
    obtain ⟨got, hm⟩ := moves_fill d reader writer room h
    exact ⟨got, [], hm⟩
  | drain =>
    obtain ⟨sent, hm⟩ := moves_drain d reader writer h
    exact ⟨[], sent, hm⟩
  | flush => exact ⟨[], [], moves_flush d reader writer h⟩
  | shutdown => exact ⟨[], [], moves_shutdown d reader writer h⟩

end Moves

/-! ### Runs -/

section Runs

variable {cap : ℕ} {A B : Type} [AsyncRead A] [AsyncWrite A] [AsyncRead B] [AsyncWrite B]

/-- What was read on either side and not yet written on the other is in the buffers; an end
without an error leaves them empty. -/
structure Relayed (s : Duplex cap (Probe A) (Probe B)) : Prop where
  up : s.a.produced = s.b.accepted ++ s.aToB.buffer
  down : s.b.produced = s.a.accepted ++ s.bToA.buffer
  clean : s.result = some (.ok ()) → s.aToB.buffer = [] ∧ s.bToA.buffer = []

omit [AsyncRead A] [AsyncWrite A] [AsyncRead B] [AsyncWrite B] in
lemma relayed_new (a : A) (b : B) : Relayed (Duplex.new cap (Probe.new a) (Probe.new b)) :=
  ⟨rfl, rfl, by simp [Duplex.new]⟩

/-- What a step of the copy can do. -/
inductive Stepped (s t : Duplex cap (Probe A) (Probe B)) : Prop
  | aToB {p got sent} (h : Moves s.aToB s.a s.b p got sent) (he : t =
      { s with a := p.reader, b := p.writer, aToB := p.relay, result := p.error.map .error })
  | bToA {p got sent} (h : Moves s.bToA s.b s.a p got sent) (he : t =
      { s with a := p.writer, b := p.reader, bToA := p.relay, result := p.error.map .error })
  | finish (h : s.aToB.finished = true ∧ s.bToA.finished = true)
      (he : t = { s with result := some (.ok ()) })

lemma step_cases {s t : Duplex cap (Probe A) (Probe B)} {act : Act} (h : step s act = some t) :
    Stepped s t := by
  unfold step at h
  have hres : ¬ s.result.isSome = true := by
    intro hs
    rw [if_pos hs] at h
    cases h
  rw [if_neg hres] at h
  cases act with
  | aToB task =>
    obtain ⟨p, hp, he⟩ := Option.map_eq_some_iff.mp h
    obtain ⟨got, sent, hm⟩ := moves_poll s.aToB s.a s.b task hp
    exact .aToB hm he.symm
  | bToA task =>
    obtain ⟨p, hp, he⟩ := Option.map_eq_some_iff.mp h
    obtain ⟨got, sent, hm⟩ := moves_poll s.bToA s.b s.a task hp
    exact .bToA hm he.symm
  | finish =>
    simp only [Option.ite_none_right_eq_some, Option.some.injEq] at h
    exact .finish h.1 h.2.symm

lemma map_error_ne_ok (e : Option IoError) :
    e.map Except.error ≠ some (Except.ok (ε := IoError) ()) := by
  cases e <;> simp

/-- **A step keeps what was read and not written in the buffers.** -/
theorem relayed_step {s t : Duplex cap (Probe A) (Probe B)} {act : Act} (hs : Relayed s)
    (h : step s act = some t) : Relayed t := by
  rcases step_cases h with @⟨p, got, sent, hm, rfl⟩ | @⟨p, got, sent, hm, rfl⟩ | ⟨hf, rfl⟩
  · refine ⟨?_, ?_, fun hc => absurd hc (map_error_ne_ok p.error)⟩
    · change p.reader.produced = p.writer.accepted ++ p.relay.buffer
      rw [hm.produced, hs.up, hm.accepted, List.append_assoc, hm.buffer, List.append_assoc]
    · change p.writer.produced = p.reader.accepted ++ s.bToA.buffer
      rw [hm.writerKept, hm.readerKept]
      exact hs.down
  · refine ⟨?_, ?_, fun hc => absurd hc (map_error_ne_ok p.error)⟩
    · change p.writer.produced = p.reader.accepted ++ s.aToB.buffer
      rw [hm.writerKept, hm.readerKept]
      exact hs.up
    · change p.reader.produced = p.writer.accepted ++ p.relay.buffer
      rw [hm.produced, hs.down, hm.accepted, List.append_assoc, hm.buffer, List.append_assoc]
  · exact ⟨hs.up, hs.down, fun _ => ⟨(s.aToB.ended hf.1).2, (s.bToA.ended hf.2).2⟩⟩

/-- What every poll of the first stream keeps, every step keeps. -/
lemma kept_step {P : Probe A → Prop} (hP : ∀ a c, P a → P (perform a c))
    {s t : Duplex cap (Probe A) (Probe B)} {act : Act} (hs : P s.a) (h : step s act = some t) :
    P t.a := by
  rcases step_cases h with @⟨p, got, sent, hm, rfl⟩ | @⟨p, got, sent, hm, rfl⟩ | ⟨hf, rfl⟩
  · rcases hm.polledReader with he | ⟨c, he⟩
    · exact he ▸ hs
    · exact he ▸ hP s.a c hs
  · rcases hm.polledWriter with he | ⟨c, he⟩
    · exact he ▸ hs
    · exact he ▸ hP s.a c hs
  · exact hs

lemma finished_of_ok {s t : Duplex cap (Probe A) (Probe B)} {act : Act} (h : step s act = some t)
    (ht : t.result = some (.ok ())) : t.aToB.finished = true ∧ t.bToA.finished = true := by
  rcases step_cases h with @⟨p, got, sent, hm, rfl⟩ | @⟨p, got, sent, hm, rfl⟩ | ⟨hf, rfl⟩
  · exact absurd ht (map_error_ne_ok p.error)
  · exact absurd ht (map_error_ne_ok p.error)
  · exact hf

omit [AsyncWrite A] [AsyncRead B] in
/-- A direction has read to the end only once a read with room got nothing. -/
lemma readDone_poll {d : Relay cap} {reader : Probe A} {writer : Probe B} {task : Task}
    {p : Polled cap (Probe A) (Probe B)} (h : d.poll reader writer task = some p)
    (hdone : p.relay.readDone = true) :
    d.readDone = true ∨ ∃ room, 0 < room ∧
      (pollRead reader (ReadBuf.new room)).1 = .ready (.ok ()) ∧
      readBytes reader (ReadBuf.new room) = [] := by
  cases task with
  | fill room =>
    simp only [Relay.poll] at h
    split_ifs at h with hroom
    rcases hp : (pollRead reader (ReadBuf.new room)).1 with _ | e | ⟨⟨⟩⟩
    · simp only [hp, Option.some.injEq] at h
      subst h
      exact .inl hdone
    · simp only [hp, Option.some.injEq] at h
      subst h
      exact .inl hdone
    · simp only [hp, Option.some.injEq] at h
      subst h
      have hnil : (pollRead reader (ReadBuf.new room)).2.1.filled = [] := by
        simpa [Relay.take] using hdone
      refine .inr ⟨room, hroom.2.1, hp, ?_⟩
      rw [readBytes, ReadBuf.gained, hnil, List.drop_nil]
  | drain =>
    simp only [Relay.poll] at h
    split_ifs at h
    rcases hp : (pollWrite writer d.buffer).1 with _ | e | n
    · simp only [hp, Option.some.injEq] at h
      subst h
      exact .inl hdone
    · simp only [hp, Option.some.injEq] at h
      subst h
      exact .inl hdone
    · simp only [hp] at h
      split_ifs at h <;> simp only [Option.some.injEq] at h <;> subst h <;> exact .inl hdone
  | flush =>
    simp only [Relay.poll] at h
    split_ifs at h
    rcases hp : (pollFlush writer).1 with _ | e | ⟨⟨⟩⟩ <;>
      simp only [hp, Option.some.injEq] at h <;> subst h <;> exact .inl hdone
  | shutdown =>
    simp only [Relay.poll] at h
    split_ifs at h with hend
    exact .inl hend.1.1

/-- What a read with room that got nothing shows of the first stream, and every poll of it keeps,
holds once its direction has read to the end. -/
lemma readDone_step {E : Probe A → Prop}
    (hend : ∀ a buf, 0 < buf.remaining → (pollRead a buf).1 = .ready (.ok ()) →
      readBytes a buf = [] → E a)
    (hE : ∀ a c, E a → E (perform a c)) {s t : Duplex cap (Probe A) (Probe B)} {act : Act}
    (hs : s.aToB.readDone = true → E s.a) (h : step s act = some t) :
    t.aToB.readDone = true → E t.a := by
  intro hdone
  by_cases hold : s.aToB.readDone = true
  · exact kept_step hE (hs hold) h
  · have hnone := result_of_step h
    unfold step at h
    rw [if_neg (by simp [hnone])] at h
    cases act with
    | aToB task =>
      obtain ⟨p, hp, rfl⟩ := Option.map_eq_some_iff.mp h
      obtain ⟨got, sent, hm⟩ := moves_poll s.aToB s.a s.b task hp
      rcases readDone_poll hp hdone with hd | ⟨room, hroom, hok, hnone⟩
      · exact absurd hd hold
      · have ha : E s.a := hend s.a (ReadBuf.new room) hroom hok hnone
        rcases hm.polledReader with he | ⟨c, he⟩
        · exact he ▸ ha
        · exact he ▸ hE s.a c ha
    | bToA task =>
      obtain ⟨p, hp, rfl⟩ := Option.map_eq_some_iff.mp h
      exact absurd hdone hold
    | finish =>
      rw [Option.ite_none_right_eq_some, Option.some.injEq] at h
      obtain ⟨-, rfl⟩ := h
      exact absurd hdone hold

lemma buffers_of_ending_step {s t : Duplex cap (Probe A) (Probe B)} {act : Act}
    (h : step s act = some t) (ht : t.result.isSome = true) :
    t.aToB.buffer = s.aToB.buffer ∧ t.bToA.buffer = s.bToA.buffer := by
  rcases step_cases h with @⟨p, got, sent, hm, rfl⟩ | @⟨p, got, sent, hm, rfl⟩ | ⟨hf, rfl⟩
  · have he : p.relay = s.aToB := hm.failed (by rintro he; simp [he] at ht)
    exact ⟨congrArg Relay.buffer he, rfl⟩
  · have he : p.relay = s.bToA := hm.failed (by rintro he; simp [he] at ht)
    exact ⟨rfl, congrArg Relay.buffer he⟩
  · exact ⟨rfl, rfl⟩

end Runs

/-! ### Copies that end -/

/-- A poll for anything but a flush. -/
def Task.moves : Task → Bool
  | .flush => false
  | _ => true

def Act.moves : Act → Bool
  | .aToB t => t.moves
  | .bToA t => t.moves
  | .finish => true

/-- What a direction has yet to do: each byte left is read and written, and once the reader has
reached its end the writer is shut down. -/
def Relay.toDo {cap : ℕ} (d : Relay cap) (bytes : List UInt8) : ℕ :=
  2 * bytes.length + d.buffer.length + (!d.readDone).toNat + (!d.finished).toNat

section Orderly

variable {cap : ℕ} {A B : Type} [AsyncRead A] [AsyncWrite A] [AsyncRead B] [AsyncWrite B]
variable {I : A → List UInt8 → Prop} {J : B → List UInt8 → Prop}

/-- How a direction stands after a poll that did not fail. -/
structure Advanced (I : A → List UInt8 → Prop) (J : B → List UInt8 → Prop) (d : Relay cap)
    (bytes bytes' : List UInt8) (t : Task) (p : Polled cap A B) (rest : List UInt8) : Prop where
  error : p.error = none
  reader : I p.reader rest
  writer : J p.writer bytes'
  readDone : p.relay.readDone = true → rest = []
  toDo : p.relay.toDo rest + t.moves.toNat ≤ d.toDo bytes

omit [AsyncWrite A] [AsyncRead B] in
/-- A read moves bytes on into the buffer, or finds the end. -/
lemma toDo_take {d : Relay cap} {bs rest : List UInt8} (h) (hd : d.readDone = false)
    (hend : bs = [] → rest = []) :
    (d.take bs h hd).toDo rest + 1 ≤ d.toDo (bs ++ rest) := by
  unfold Relay.toDo Relay.take
  simp only [List.length_append, hd]
  cases bs with
  | nil =>
    have hdone : (([] : List UInt8) == []) = true := rfl
    simp only [hend rfl, hdone, List.length_nil, Bool.not_true, Bool.not_false, Bool.toNat_true,
      Bool.toNat_false]
    omega
  | cons b bs =>
    have hdone : (b :: bs == []) = false := rfl
    simp only [hdone, List.length_cons, Bool.not_false, Bool.toNat_true]
    omega

/-- **One poll between orderly streams** does not fail and, unless it is a flush, brings the
direction closer to its end. -/
lemma advanced_poll (hI : Orderly I) (hJ : Orderly J) {d : Relay cap} {reader : A} {writer : B}
    {bytes bytes' : List UInt8} (hr : I reader bytes) (hw : J writer bytes')
    (hdone : d.readDone = true → bytes = []) {t : Task} {p : Polled cap A B}
    (h : d.poll reader writer t = some p) :
    ∃ rest, Advanced I J d bytes bytes' t p rest := by
  cases t with
  | fill room =>
    simp only [Relay.poll] at h
    split_ifs at h with hroom
    obtain ⟨hpoll, hend, rest, hrest, hnext⟩ := hI.read hr (ReadBuf.new room) hroom.2.1
    have hfilled : readBytes reader (ReadBuf.new room) =
        (pollRead reader (ReadBuf.new room)).2.1.filled := by simp [readBytes, ReadBuf.gained]
    rw [hfilled] at hrest hend
    simp only [hpoll, Option.some.injEq] at h
    subst h
    have hnil : (pollRead reader (ReadBuf.new room)).2.1.filled = [] → rest = [] := by
      intro he
      have hall := hend he
      rw [hrest, he, List.nil_append] at hall
      exact hall
    refine ⟨rest, rfl, hnext, hw, fun hd => hnil (by simpa [Relay.take] using hd), ?_⟩
    have hle : d.buffer.length + (pollRead reader (ReadBuf.new room)).2.1.filled.length ≤ cap := by
      have : (pollRead reader (ReadBuf.new room)).2.1.filled.length ≤ room :=
        length_filled_le reader room
      omega
    have htake := toDo_take hle hroom.1 hnil
    rw [← hrest] at htake
    exact htake
  | drain =>
    simp only [Relay.poll] at h
    split_ifs at h with hbuf
    obtain ⟨n, hn, hpoll, hnext⟩ := hJ.write hw hbuf
    simp only [hpoll, if_neg (Nat.ne_of_gt hn), Option.some.injEq] at h
    subst h
    refine ⟨bytes, rfl, hr, hnext, hdone, ?_⟩
    have hlen : 0 < d.buffer.length := List.length_pos_iff.mpr hbuf
    simp only [Relay.toDo, Relay.give, List.length_drop, Task.moves, Bool.toNat_true]
    omega
  | flush =>
    obtain ⟨hpoll, hnext⟩ := hJ.flush hw
    simp only [Relay.poll] at h
    split_ifs at h
    simp only [hpoll, Option.some.injEq] at h
    subst h
    exact ⟨bytes, rfl, hr, hnext, hdone, Nat.le_refl _⟩
  | shutdown =>
    obtain ⟨hpoll, hnext⟩ := hJ.shutdown hw
    simp only [Relay.poll] at h
    split_ifs at h with hend
    simp only [hpoll, Option.some.injEq] at h
    subst h
    refine ⟨bytes, rfl, hr, hnext, hdone, ?_⟩
    simp [Relay.toDo, Relay.close, Task.moves, hend.2]

omit [AsyncWrite A] [AsyncRead B] in
/-- A direction that has not reached its end can be polled for something that brings it closer. -/
lemma exists_poll (hcap : 0 < cap) {d : Relay cap} (h : d.finished = false) (reader : A) (writer : B) :
    ∃ t : Task, t.moves = true ∧ (d.poll reader writer t).isSome = true := by
  by_cases hbuf : d.buffer = []
  · cases hread : d.readDone with
    | false =>
      refine ⟨.fill cap, rfl, ?_⟩
      simp only [Relay.poll]
      rw [dif_pos ⟨hread, hcap, by simp [hbuf]⟩]
      rcases (pollRead reader (ReadBuf.new cap)).1 with _ | e | ⟨⟨⟩⟩ <;> rfl
    | true =>
      refine ⟨.shutdown, rfl, ?_⟩
      simp only [Relay.poll]
      rw [dif_pos ⟨⟨hread, hbuf⟩, h⟩]
      rcases (pollShutdown writer).1 with _ | e | ⟨⟨⟩⟩ <;> rfl
  · refine ⟨.drain, rfl, ?_⟩
    simp only [Relay.poll]
    rw [if_pos hbuf]
    rcases (pollWrite writer d.buffer).1 with _ | e | n
    · rfl
    · rfl
    · by_cases hn : n = 0 <;> simp [hn]

def Duplex.toDo (s : Duplex cap A B) (as bs : List UInt8) : ℕ :=
  s.aToB.toDo as + s.bToA.toDo bs + s.result.isNone.toNat

/-- A copy between orderly streams that have `as` and `bs` left to give. -/
structure Underway (I : A → List UInt8 → Prop) (J : B → List UInt8 → Prop) (s : Duplex cap A B)
    (as bs : List UInt8) : Prop where
  a : I s.a as
  b : J s.b bs
  aDone : s.aToB.readDone = true → as = []
  bDone : s.bToA.readDone = true → bs = []
  ended : ∀ r, s.result = some r → r = .ok () ∧ s.aToB.finished = true ∧ s.bToA.finished = true

omit [AsyncRead A] [AsyncWrite A] [AsyncRead B] [AsyncWrite B] in
lemma underway_new {a : A} {b : B} {as bs : List UInt8} (ha : I a as) (hb : J b bs) :
    Underway I J (Duplex.new cap a b) as bs :=
  ⟨ha, hb, nofun, nofun, nofun⟩

lemma underway_step (hI : Orderly I) (hJ : Orderly J) {s t : Duplex cap A B} {as bs : List UInt8}
    {act : Act} (hs : Underway I J s as bs) (h : step s act = some t) :
    ∃ as' bs', Underway I J t as' bs' ∧ t.toDo as' bs' + act.moves.toNat ≤ s.toDo as bs := by
  have hnone := result_of_step h
  unfold step at h
  rw [if_neg (by simp [hnone])] at h
  cases act with
  | aToB task =>
    obtain ⟨p, hp, rfl⟩ := Option.map_eq_some_iff.mp h
    obtain ⟨rest, hadv⟩ := advanced_poll hI hJ hs.a hs.b hs.aDone hp
    refine ⟨rest, bs, ⟨hadv.reader, hadv.writer, hadv.readDone, hs.bDone, ?_⟩, ?_⟩
    · simp [hadv.error]
    · have htoDo := hadv.toDo
      simp only [Duplex.toDo, Act.moves, hadv.error, hnone, Option.map_none]
      omega
  | bToA task =>
    obtain ⟨p, hp, rfl⟩ := Option.map_eq_some_iff.mp h
    obtain ⟨rest, hadv⟩ := advanced_poll hJ hI hs.b hs.a hs.bDone hp
    refine ⟨as, rest, ⟨hadv.writer, hadv.reader, hs.aDone, hadv.readDone, ?_⟩, ?_⟩
    · simp [hadv.error]
    · have htoDo := hadv.toDo
      simp only [Duplex.toDo, Act.moves, hadv.error, hnone, Option.map_none]
      omega
  | finish =>
    simp only [Option.ite_none_right_eq_some, Option.some.injEq] at h
    obtain ⟨hfinished, rfl⟩ := h
    refine ⟨as, bs, ⟨hs.a, hs.b, hs.aDone, hs.bDone, ?_⟩, ?_⟩
    · rintro r hr
      cases hr
      exact ⟨rfl, hfinished⟩
    · simp only [Duplex.toDo, Act.moves, hnone]
      simp

lemma underway_run (hI : Orderly I) (hJ : Orderly J) {s t : Duplex cap A B} {as bs : List UInt8}
    {acts : List Act} (hs : Underway I J s as bs) (h : run step s acts = some t) :
    ∃ as' bs', Underway I J t as' bs' ∧ t.toDo as' bs' + acts.countP Act.moves ≤ s.toDo as bs := by
  refine run_induction (P := fun acts t => ∃ as' bs', Underway I J t as' bs' ∧
    t.toDo as' bs' + acts.countP Act.moves ≤ s.toDo as bs) ⟨as, bs, hs, Nat.le_refl _⟩ ?_ h
  rintro acts t act u - ⟨as', bs', ht, hle⟩ hu
  obtain ⟨as'', bs'', hu', hstep⟩ := underway_step hI hJ ht hu
  refine ⟨as'', bs'', hu', ?_⟩
  have hcount : (acts ++ [act]).countP Act.moves = acts.countP Act.moves + act.moves.toNat := by
    rw [List.countP_append, List.countP_singleton]
    cases act.moves <;> rfl
  omega

/-- A direction that has not reached its end can go on, whatever the other one waits for, and a
copy whose directions have can end. -/
structure GoesOn (s : Duplex cap A B) : Prop where
  aToB : s.aToB.finished = false →
    ∃ t : Task, t.moves = true ∧ (step s (.aToB t)).isSome = true
  bToA : s.bToA.finished = false →
    ∃ t : Task, t.moves = true ∧ (step s (.bToA t)).isSome = true
  finish : s.aToB.finished = true → s.bToA.finished = true → (step s .finish).isSome = true

lemma goesOn (hcap : 0 < cap) {s : Duplex cap A B} (h : s.result = none) : GoesOn s := by
  have hnone : ¬ s.result.isSome = true := by simp [h]
  refine ⟨fun hf => ?_, fun hf => ?_, fun hup hdown => ?_⟩
  · obtain ⟨t, ht, hp⟩ := exists_poll hcap hf s.a s.b
    refine ⟨t, ht, ?_⟩
    rw [step, if_neg hnone, Option.isSome_map]
    exact hp
  · obtain ⟨t, ht, hp⟩ := exists_poll hcap hf s.b s.a
    refine ⟨t, ht, ?_⟩
    rw [step, if_neg hnone, Option.isSome_map]
    exact hp
  · rw [step, if_neg hnone]
    simp [hup, hdown]

/-- **A copy between orderly streams** ends, after a number of polls that depends only on how much
there is to copy; it does not fail, and in the end each side has been written what the other gave. -/
theorem run_orderly (hI : Orderly I) (hJ : Orderly J) {a : A} {b : B} {as bs : List UInt8}
    (ha : I a as) (hb : J b bs) {acts : List Act} {t : Duplex cap (Probe A) (Probe B)}
    (h : run step (Duplex.new cap (Probe.new a) (Probe.new b)) acts = some t) :
    acts.countP Act.moves ≤ 2 * (as.length + bs.length) + 5 ∧
      ∀ r, t.result = some r → r = .ok () ∧ t.b.accepted = as ∧ t.a.accepted = bs := by
  have hrel : Relayed t := run_inv (fun _ _ _ hs hst => relayed_step hs hst) (relayed_new a b) h
  obtain ⟨as', bs', ht, hle⟩ := underway_run (orderly_probe hI as) (orderly_probe hJ bs)
    (underway_new ⟨rfl, ha⟩ ⟨rfl, hb⟩) h
  constructor
  · have hnew : (Duplex.new cap (Probe.new a) (Probe.new b)).toDo as bs =
        2 * (as.length + bs.length) + 5 := by
      simp [Duplex.toDo, Duplex.new, Relay.toDo, Relay.new]
      omega
    omega
  · intro r hr
    obtain ⟨rfl, hup, hdown⟩ := ht.ended r hr
    have has : as' = [] := ht.aDone (t.aToB.ended hup).1
    have hbs : bs' = [] := ht.bDone (t.bToA.ended hdown).1
    obtain ⟨hempty, hempty'⟩ := hrel.clean hr
    refine ⟨rfl, ?_, ?_⟩
    · have hall := ht.a.1
      rw [has, List.append_nil, hrel.up, hempty, List.append_nil] at hall
      exact hall.symm
    · have hall := ht.b.1
      rw [hbs, List.append_nil, hrel.down, hempty', List.append_nil] at hall
      exact hall.symm

end Orderly

end Wiretally.Lib.Copy
