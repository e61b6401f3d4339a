import Wiretally.Head

/-!
The limit on a request head, and how the stream is cut into reads.

The length of what is buffered is looked at once a whole read has been added to it, and only if
the head has not ended by then. A head that ends within the limit is accepted however the stream
is cut, one that ends more than a whole read behind it is refused. In between it depends: reads
of one byte refuse it, full reads reach the limit exactly and then get past it in one go.
-/

namespace Wiretally.HeadLimit

open Wiretally.Lib.AsyncIo Wiretally.Lib.Tcp Wiretally.Lib.Tcp.TcpStream Wiretally.Lib.Search
open Wiretally.Head

/-- The same bytes, cut into reads another way. -/
def cut (s : TcpStream) (segment : ℕ → ℕ) : TcpStream := { s with segment := segment }

/-- What reading a head comes to: where in the bytes read it ends, if it does, or the error. -/
def verdict (s : TcpStream) : Outcome IoError (Option ℕ) :=
  match (readHead s).1 with
  | .ok head => .ok (findHeadEnd head)
  | .err e => .err e
  | .blocked => .blocked

/-- However the stream is cut, the verdict is the same. -/
def CutFree (s : TcpStream) : Prop := ∀ f g, verdict (cut s f) = verdict (cut s g)

/-- A complete head is accepted exactly if it is within the limit. -/
def KeepsLimit (s : TcpStream) : Prop :=
  ∀ f stop, findHeadEnd s.unread = some stop →
    ((∃ head, (readHead (cut s f)).1 = .ok head) ↔ stop ≤ maxHeadBytes)

/-! ### The last round -/

lemma readRound_bytes {r : Reading} (hu : r.stream.unread ≠ []) :
    (∀ r', readRound r = .more r' →
      r' = ⟨r.buf ++ r.stream.unread.take (r.stream.readSize chunkBytes),
        r.stream.consume (r.stream.readSize chunkBytes)⟩) ∧
    ∀ out r', readRound r = .done out r' →
      r'.buf = r.buf ++ r.stream.unread.take (r.stream.readSize chunkBytes) := by
  have hpos : 0 < r.stream.readSize chunkBytes := readSize_pos r.stream (by decide)
  have hne : r.stream.unread.take (r.stream.readSize chunkBytes) ≠ [] := by
    intro he
    rcases List.take_eq_nil_iff.mp he with h0 | h0
    · omega
    · exact hu h0
  unfold readRound
  rw [read_of_ne_nil hu]
  simp only [if_neg hne]
  split_ifs with hend hlarge
  · refine ⟨fun r' h => ?_, fun out r' h => ?_⟩
    · cases h
    · cases h
      rfl
  · refine ⟨fun r' h => ?_, fun out r' h => ?_⟩
    · cases h
    · cases h
      rfl
  · refine ⟨fun r' h => ?_, fun out r' h => ?_⟩
    · cases h
      rfl
    · cases h

lemma readRound_end {r : Reading} (hu : r.stream.unread = []) :
    ∃ out, readRound r = .done out r := by
  unfold readRound
  rw [read_of_nil hu]
  cases r.stream.fate with
  | eof => exact ⟨_, if_pos rfl⟩
  | reset e => exact ⟨_, rfl⟩
  | silent => exact ⟨_, rfl⟩

lemma readRound_length {r r' : Reading} {out : Outcome IoError (List UInt8)}
    (h : readRound r = .done out r') :
    r'.buf.length ≤ r.buf.length + r.stream.readSize chunkBytes := by
  by_cases hu : r.stream.unread = []
  · obtain ⟨out', hend⟩ := readRound_end hu
    rw [hend] at h
    cases h
    exact Nat.le_add_right _ _
  · rw [(readRound_bytes hu).2 out r' h, List.length_append, List.length_take]
    omega

lemma exists_last {s : TcpStream} {r : Reading} (fuel : ℕ) (h : Looping s r)
    (hfuel : r.stream.unread.length < fuel) :
    ∃ r₁, Looping s r₁ ∧
      readRound r₁ = .done (readRounds fuel r).1 (readRounds fuel r).2 := by
  induction fuel generalizing r with
  | zero => omega
  | succ fuel ih =>
    rcases readRound_spec (between_of_looping h) with ⟨r', hr, -, hlt⟩ | ⟨out, r', hr, -⟩
    · obtain ⟨r₁, h₁, hlast⟩ := ih (.more h hr) (by omega)
      refine ⟨r₁, h₁, ?_⟩
      unfold readRounds
      rw [hr]
      exact hlast
    · refine ⟨r, h, ?_⟩
      unfold readRounds
      rw [hr]

lemma readHead_last (s : TcpStream) : ∃ r₁ r, Looping s r₁ ∧
    readRound r₁ = .done (readHead s).1 r ∧ HeadVerdict s (readHead s).1 r := by
  obtain ⟨r₁, h₁, hlast⟩ := exists_last (s.unread.length + 1) (.start (s := s)) (Nat.lt_succ_self _)
  exact ⟨r₁, _, h₁, hlast, readRounds_spec _ (between_start s) (Nat.lt_succ_self _)⟩

/-! ### Verdicts that do not depend on the cuts -/

section Verdicts

variable {s : TcpStream} {stop : ℕ}

lemma verdict_of_accepted (h : findHeadEnd s.unread = some stop) {head : List UInt8}
    (hok : (readHead s).1 = .ok head) : verdict s = .ok (some stop) := by
  obtain ⟨r, hv, -⟩ := readHead_verdict s
  have hend : findHeadEnd head = some stop := by
    generalize hout : (readHead s).1 = out at hv
    rw [hok] at hout
    cases hv with
    | @complete head rest stop' hb he hlen =>
      cases hout
      rw [hb, findHeadEnd_append he] at h
      rw [he, h]
    | tooLarge => cases hout
    | cutShort hn => rw [hn] at h; cases h
    | reset => cases hout
    | silent => cases hout
  unfold verdict
  rw [hok]
  exact congrArg Outcome.ok hend

lemma accepted_or_refused (h : findHeadEnd s.unread = some stop) :
    (∃ head, (readHead s).1 = .ok head) ∨
      (readHead s).1 = .err ⟨.invalidData, "request head too large"⟩ := by
  obtain ⟨r, hv, -⟩ := readHead_verdict s
  generalize (readHead s).1 = out at hv
  cases hv with
  | complete => exact .inl ⟨_, rfl⟩
  | tooLarge => exact .inr rfl
  | cutShort hn => rw [hn] at h; cases h
  | reset hn => rw [hn] at h; cases h
  | silent hn => rw [hn] at h; cases h

lemma length_of_accepted {head : List UInt8} {r : Reading} (h : findHeadEnd s.unread = some stop)
    (hv : HeadVerdict s (.ok head) r) :
    stop ≤ r.buf.length ∧ r.buf.length ≤ maxHeadBytes + chunkBytes := by
  generalize hout : Outcome.ok head = out at hv
  cases hv with
  | @complete head rest stop' hb he hlen =>
    rw [hb, findHeadEnd_append he] at h
    cases h
    exact ⟨findHeadEnd_le he, hlen⟩
  | tooLarge => cases hout
  | cutShort hn => rw [hn] at h; cases h
  | reset => cases hout
  | silent => cases hout

/-- A head that ends more than a read behind the limit is refused. -/
lemma refused_of_far (h : findHeadEnd s.unread = some stop) (hfar : maxHeadBytes + chunkBytes < stop) :
    (readHead s).1 = .err ⟨.invalidData, "request head too large"⟩ := by
  refine (accepted_or_refused h).resolve_left ?_
  rintro ⟨head, hok⟩
  obtain ⟨r, hv, -⟩ := readHead_verdict s
  rw [hok] at hv
  obtain ⟨hle, hlen⟩ := length_of_accepted h hv
  omega

/-- What bytes without the end of a head come to. -/
def headless (bytes : List UInt8) (fate : Fate) : Outcome IoError (Option ℕ) :=
  if maxHeadBytes < bytes.length then .err ⟨.invalidData, "request head too large"⟩
  else
    match fate with
    | .eof => if bytes = [] then .err ⟨.unexpectedEof, "unexpected end of file"⟩ else .ok none
    | .reset e => .err e
    | .silent => .blocked

lemma verdict_of_none (h : findHeadEnd s.unread = none) : verdict s = headless s.unread s.fate := by
  obtain ⟨r, hv, -⟩ := readHead_verdict s
  unfold verdict headless
  generalize (readHead s).1 = out at hv
  cases hv with
  | complete hb he =>
    rw [hb] at h
    rw [findHeadEnd_eq_none_of_append h] at he
    cases he
  | @tooLarge buf rest hb hn hlt =>
    have hlen : maxHeadBytes < s.unread.length := by
      rw [hb, List.length_append]
      omega
    rw [if_pos hlen]
  | cutShort hn hlen hf =>
    rw [if_neg (Nat.not_lt_of_le hlen), hf]
    by_cases hnil : s.unread = []
    · simp only [hnil, if_true]
    · simp only [hnil, if_false, h]
  | reset hn hlen hf => rw [if_neg (Nat.not_lt_of_le hlen), hf]
  | silent hn hlen hf => rw [if_neg (Nat.not_lt_of_le hlen), hf]

end Verdicts

/-! ### Verdicts that do -/

section Cuts

variable {s : TcpStream} {stop : ℕ}

lemma segment_of_looping {r : Reading} (h : Looping s r) : r.stream.segment = s.segment := by
  rw [(between_of_looping h).stream]

/-- In reads of one byte a head is refused as soon as the limit is passed. -/
lemma refused_of_single (h : findHeadEnd s.unread = some stop) (hone : ∀ n, s.segment n = 1)
    (hstop : maxHeadBytes + 1 < stop) :
    (readHead s).1 = .err ⟨.invalidData, "request head too large"⟩ := by
  refine (accepted_or_refused h).resolve_left ?_
  rintro ⟨head, hok⟩
  obtain ⟨r₁, r, hloop, hlast, hv⟩ := readHead_last s
  rw [hok] at hlast hv
  have hsize : r₁.stream.readSize chunkBytes = 1 := by
    unfold readSize
    rw [segment_of_looping hloop, hone]
    rfl
  have hlen : r.buf.length ≤ maxHeadBytes + 1 := by
    have hsmall := (between_of_looping hloop).small
    have hlast := readRound_length hlast
    omega
  have hle := (length_of_accepted h hv).1
  omega

lemma readSize_of_full (hfull : ∀ n, s.segment n = chunkBytes) {r : Reading} (h : Looping s r) :
    r.stream.readSize chunkBytes = chunkBytes := by
  unfold readSize
  rw [segment_of_looping h, hfull]
  rfl

/-- In full reads what is held between two rounds is a number of whole reads, or all there is. -/
lemma full_of_looping (hfull : ∀ n, s.segment n = chunkBytes) {r : Reading} (h : Looping s r) :
    chunkBytes ∣ r.buf.length ∨ r.stream.unread = [] := by
  induction h with
  | start => exact .inl (Nat.dvd_zero _)
  | @more r r' h hr ih =>
    by_cases hu : r.stream.unread = []
    · obtain ⟨out, hend⟩ := readRound_end hu
      rw [hend] at hr
      cases hr
    · obtain rfl := (readRound_bytes hu).1 r' hr
      rw [readSize_of_full hfull h]
      rcases Nat.lt_or_ge r.stream.unread.length chunkBytes with hlt | hge
      · exact .inr (List.drop_eq_nil_of_le (Nat.le_of_lt hlt))
      · refine .inl ?_
        rw [List.length_append, List.length_take_of_le hge]
        exact Nat.dvd_add (ih.resolve_right hu) (Nat.dvd_refl _)

/-- Full reads reach the limit exactly and then get past it in one go. -/
lemma accepted_of_full (h : findHeadEnd s.unread = some stop) (hfull : ∀ n, s.segment n = chunkBytes)
    (hstop : stop ≤ maxHeadBytes + chunkBytes) : ∃ head, (readHead s).1 = .ok head := by
  refine (accepted_or_refused h).resolve_right fun hrefused => ?_
  obtain ⟨r₁, r, hloop, hlast, hv⟩ := readHead_last s
  rw [hrefused] at hlast hv
  have hbetween := between_of_looping hloop
  generalize hout : Outcome.err _ = out at hv
  cases hv with
  | @tooLarge buf rest hb hn hlt _ =>
    have hu : r₁.stream.unread ≠ [] := by
      intro hu
      obtain ⟨out, hend⟩ := readRound_end hu
      rw [hend] at hlast
      cases hlast
      exact absurd hbetween.small (Nat.not_le_of_lt hlt)
    have hbuf := (readRound_bytes hu).2 _ _ hlast
    rw [readSize_of_full hfull hloop] at hbuf
    have hstop' : stop ≤ buf.length := by
      have hlen := congrArg List.length hbuf
      rw [List.length_append, List.length_take] at hlen
      have htotal := congrArg List.length hbetween.bytes
      rw [List.length_append] at htotal
      have hend := findHeadEnd_le h
      -- what was held before the last round is the limit exactly, or nothing is left behind it
      obtain ⟨k, hk⟩ := (full_of_looping hfull hloop).resolve_right hu
      have hsmall := hbetween.small
      simp only at hlen
      unfold maxHeadBytes chunkBytes at *
      omega
    rw [hb] at h
    rw [findHeadEnd_of_append h hstop'] at hn
    cases hn
  | complete => cases hout
  | cutShort hn => rw [hn] at h; cases h
  | reset hn => rw [hn] at h; cases h
  | silent hn => rw [hn] at h; cases h

end Cuts

lemma verdict_of_refused {s : TcpStream} {e : IoError} (h : (readHead s).1 = .err e) :
    verdict s = .err e := by
  unfold verdict
  rw [h]

lemma accepted_of_near {s : TcpStream} {stop : ℕ} (h : findHeadEnd s.unread = some stop)
    (hle : stop ≤ maxHeadBytes + 1) : ∃ head, (readHead s).1 = .ok head := by
  obtain ⟨head, rest, hread, -⟩ := readHead_of_head h hle
  exact ⟨head, by rw [hread]⟩

/-- A head that ends between one byte and a whole read behind the limit is accepted in full reads
and refused in single bytes. -/
lemma accepted_and_refused {s : TcpStream} {stop : ℕ} (h : findHeadEnd s.unread = some stop)
    (hlo : maxHeadBytes + 1 < stop) (hhi : stop ≤ maxHeadBytes + chunkBytes) :
    (∃ head, (readHead (cut s fun _ => chunkBytes)).1 = .ok head) ∧
      (readHead (cut s fun _ => 1)).1 = .err ⟨.invalidData, "request head too large"⟩ :=
  ⟨accepted_of_full (s := cut s fun _ => chunkBytes) h (fun _ => rfl) hhi,
    refused_of_single (s := cut s fun _ => 1) h (fun _ => rfl) hlo⟩

lemma not_cutFree {s : TcpStream} {stop : ℕ} (h : findHeadEnd s.unread = some stop)
    (hlo : maxHeadBytes + 1 < stop) (hhi : stop ≤ maxHeadBytes + chunkBytes) : ¬ CutFree s := by
  intro hfree
  obtain ⟨⟨head, hfull⟩, hsingle⟩ := accepted_and_refused h hlo hhi
  have hsame := hfree (fun _ => 1) (fun _ => chunkBytes)
  rw [verdict_of_refused hsingle,
    verdict_of_accepted (s := cut s fun _ => chunkBytes) h hfull] at hsame
  cases hsame

lemma not_keepsLimit {s : TcpStream} {stop : ℕ} (h : findHeadEnd s.unread = some stop)
    (hlo : maxHeadBytes + 1 < stop) (hhi : stop ≤ maxHeadBytes + chunkBytes) : ¬ KeepsLimit s := by
  intro hlimit
  have := (hlimit _ stop h).mp (accepted_and_refused h hlo hhi).1
  omega

lemma cutFree_iff (s : TcpStream) : CutFree s ↔ ∀ stop, findHeadEnd s.unread = some stop →
    stop ≤ maxHeadBytes + 1 ∨ maxHeadBytes + chunkBytes < stop := by
  constructor
  · intro hfree stop h
    by_contra hout
    rw [not_or] at hout
    exact not_cutFree h (Nat.lt_of_not_le hout.1) (Nat.le_of_not_lt hout.2) hfree
  · intro hends f g
    cases h : findHeadEnd s.unread with
    | none => rw [verdict_of_none (s := cut s f) h, verdict_of_none (s := cut s g) h]; rfl
    | some stop =>
      have hverdict : ∀ f, verdict (cut s f) = if stop ≤ maxHeadBytes + 1 then .ok (some stop)
          else .err ⟨.invalidData, "request head too large"⟩ := by
        intro f
        split_ifs with hnear
        · obtain ⟨head, hok⟩ := accepted_of_near (s := cut s f) h hnear
          exact verdict_of_accepted (s := cut s f) h hok
        · exact verdict_of_refused
            (refused_of_far (s := cut s f) h ((hends stop h).resolve_left hnear))
      rw [hverdict f, hverdict g]

/-- **The limit and the cuts.** The verdict does not depend on how the stream is cut, and accepts
a complete head exactly within the limit, exactly if no head ends behind the limit but within a
whole read of it. It does not depend on the cuts for one byte more. -/
theorem keepsLimit_iff (s : TcpStream) :
    ((CutFree s ∧ KeepsLimit s) ↔ ∀ stop, findHeadEnd s.unread = some stop →
      stop ≤ maxHeadBytes ∨ maxHeadBytes + chunkBytes < stop) ∧
    (CutFree s ↔ ∀ stop, findHeadEnd s.unread = some stop →
      stop ≤ maxHeadBytes + 1 ∨ maxHeadBytes + chunkBytes < stop) := by
  refine ⟨⟨fun ⟨hfree, hlimit⟩ stop h => ?_, fun hends => ⟨?_, fun f stop h => ?_⟩⟩, cutFree_iff s⟩
  · rcases (cutFree_iff s).mp hfree stop h with hnear | hfar
    · exact .inl ((hlimit s.segment stop h).mp (accepted_of_near (s := cut s s.segment) h hnear))
    · exact .inr hfar
  · exact (cutFree_iff s).mpr fun stop h => (hends stop h).imp_left Nat.le_succ_of_le
  · rcases hends stop h with hnear | hfar
    · exact iff_of_true (accepted_of_near (s := cut s f) h (Nat.le_succ_of_le hnear)) hnear
    · refine iff_of_false ?_ (by omega)
      rintro ⟨head, hok⟩
      rw [refused_of_far (s := cut s f) h hfar] at hok
      cases hok

/-! ### A head just behind the limit -/

def longPath (n : ℕ) : List UInt8 :=
  [0x47, 0x45, 0x54, 0x20, 0x2F] ++ List.replicate n 0x61 ++
    [0x20, 0x48, 0x54, 0x54, 0x50, 0x2F, 0x31, 0x2E, 0x31]

lemma findHeadEnd_longPath (n : ℕ) : findHeadEnd (longPath n ++ (crlf ++ crlf)) = some (n + 18) := by
  have hcr : 0x0D ∉ longPath n := by
    simp [longPath, List.mem_replicate]
  have hpos : position [0x0D, 0x0A, 0x0D, 0x0A] (longPath n ++ [0x0D, 0x0A, 0x0D, 0x0A] ++ []) =
      some (longPath n).length := position_append_of_not_mem hcr []
  rw [List.append_nil] at hpos
  have hlen : (longPath n).length = n + 14 := by
    simp [longPath]
  unfold findHeadEnd
  rw [show crlf ++ crlf = [0x0D, 0x0A, 0x0D, 0x0A] from rfl, hpos, hlen]
  rfl

def justBehind : TcpStream where
  unread := longPath 65532 ++ (crlf ++ crlf)
  segment _ := chunkBytes
  fate := .silent
  written := []
  broken := none

/-- Fourteen bytes behind the limit a head is accepted in full reads and refused in single bytes. -/
theorem justBehind_cut :
    (∃ head, (readHead (cut justBehind fun _ => chunkBytes)).1 = .ok head) ∧
    (readHead (cut justBehind fun _ => 1)).1 = .err ⟨.invalidData, "request head too large"⟩ ∧
    ¬ CutFree justBehind ∧ ¬ KeepsLimit justBehind := by
  have h : findHeadEnd justBehind.unread = some 65550 := findHeadEnd_longPath 65532
  generalize justBehind = s at h
  have hlo : maxHeadBytes + 1 < 65550 := by decide
  have hhi : 65550 ≤ maxHeadBytes + chunkBytes := by decide
  obtain ⟨hfull, hsingle⟩ := accepted_and_refused h hlo hhi
  exact ⟨hfull, hsingle, not_cutFree h hlo hhi, not_keepsLimit h hlo hhi⟩

end Wiretally.HeadLimit
