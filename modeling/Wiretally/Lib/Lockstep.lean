import Wiretally.Lib.Run

/-!
A client that speaks with its server one message at a time.

The client sends a message and does not send the next before it has the whole answer. What
either writes arrives in pieces, and as late as may be. The server is known by what it has
written once some bytes have arrived, which may also depend on how it reads them. If it answers
each message when it is complete and not before, neither waits for the other for ever.
-/

namespace Wiretally.Lib.Lockstep

open Wiretally.Lib.Run

/-- What a client sends, and what it waits for then. -/
structure Round (α : Type*) where
  message : List α
  answer : List α
  asks : message ≠ []
  answers : answer ≠ []

variable {α σ : Type*}

def messages (rounds : List (Round α)) : List α := rounds.flatMap Round.message

def answers (rounds : List (Round α)) : List α := rounds.flatMap Round.answer

/-- Both ends: how many messages the client has sent, what has arrived at the server and what
the server has written, and what the client has got of that. -/
structure World (α : Type*) where
  begun : ℕ
  arrived : List α
  written : List α
  got : List α
  deriving DecidableEq

def World.start : World α := ⟨0, [], [], []⟩

inductive Act (σ : Type*)
  | send
  /-- Some more bytes arrive, and the server reads them in some way. -/
  | arrive (n : ℕ) (how : σ)
  | get (n : ℕ)

section

variable (rounds : List (Round α)) (serve : List α → σ → List α)

def step (w : World α) : Act σ → Option (World α)
  | .send =>
    if w.begun < rounds.length ∧ w.got.length = (answers (rounds.take w.begun)).length then
      some { w with begun := w.begun + 1 }
    else none
  | .arrive n how =>
    let arrived := (messages (rounds.take w.begun)).take (w.arrived.length + n)
    if 0 < n ∧ w.arrived.length + n ≤ (messages (rounds.take w.begun)).length then
      some { w with arrived := arrived, written := serve arrived how }
    else none
  | .get n =>
    if 0 < n ∧ w.got.length + n ≤ w.written.length then
      some { w with got := w.written.take (w.got.length + n) }
    else none

/-- The server answers a message when it is complete, and not before. -/
def Answers : Prop :=
  ∀ k, ∀ bytes how, messages (rounds.take k) <+: bytes →
    (bytes = messages (rounds.take k) ∨
      ∃ round, rounds[k]? = some round ∧ bytes <+: messages (rounds.take k) ++ round.message ∧
        bytes.length < (messages (rounds.take k)).length + round.message.length) →
    serve bytes how = answers (rounds.take k)

/-- The client has sent everything and has all answers. -/
def Finished (w : World α) : Prop := w.begun = rounds.length ∧ w.got = answers rounds

/-- How far a world is from the end. -/
def toDo (w : World α) : ℕ :=
  (rounds.length - w.begun) + ((messages rounds).length - w.arrived.length) +
    ((answers rounds).length - w.got.length)

/-- Either the server has answered all that was sent, and the client has got at least what it
had waited for before, or a message is under way and everything before it is answered. -/
inductive Kept : World α → Prop
  | answered {b got} (hb : b ≤ rounds.length) (hgot : got <+: answers (rounds.take b)) :
    Kept ⟨b, messages (rounds.take b), answers (rounds.take b), got⟩
  | underWay {k round arrived} (hk : rounds[k]? = some round)
    (hfrom : messages (rounds.take k) <+: arrived)
    (hto : arrived <+: messages (rounds.take k) ++ round.message)
    (hlt : arrived.length < (messages (rounds.take k)).length + round.message.length) :
    Kept ⟨k + 1, arrived, answers (rounds.take k), answers (rounds.take k)⟩

end

variable {rounds : List (Round α)} {serve : List α → σ → List α} {w w' : World α} {act : Act σ}

/-! ### Rounds so far -/

lemma messages_take_succ {k : ℕ} {round : Round α} (h : rounds[k]? = some round) :
    messages (rounds.take (k + 1)) = messages (rounds.take k) ++ round.message := by
  unfold messages
  rw [List.take_add_one, h, Option.toList_some, List.flatMap_append, List.flatMap_singleton]

lemma answers_take_succ {k : ℕ} {round : Round α} (h : rounds[k]? = some round) :
    answers (rounds.take (k + 1)) = answers (rounds.take k) ++ round.answer := by
  unfold answers
  rw [List.take_add_one, h, Option.toList_some, List.flatMap_append, List.flatMap_singleton]

lemma messages_take_le_messages (k : ℕ) : messages (rounds.take k) <+: messages rounds := by
  refine ⟨messages (rounds.drop k), ?_⟩
  unfold messages
  rw [← List.flatMap_append, List.take_append_drop]

lemma answers_take_le_answers (k : ℕ) : answers (rounds.take k) <+: answers rounds := by
  refine ⟨answers (rounds.drop k), ?_⟩
  unfold answers
  rw [← List.flatMap_append, List.take_append_drop]

/-! ### Steps -/

lemma prefix_take {xs ys : List α} {n : ℕ} (h : xs <+: ys) (hn : xs.length ≤ n) :
    xs <+: ys.take n := by
  rw [List.prefix_iff_eq_take.mp h]
  exact List.take_prefix_take_left hn

lemma kept_start : Kept rounds (World.start : World α) := by
  exact Kept.answered (b := 0) (Nat.zero_le _) List.nil_prefix

/-- **What a step keeps.** -/
theorem kept_step (hs : Answers rounds serve) (hw : Kept rounds w)
    (h : step rounds serve w act = some w') : Kept rounds w' := by
  cases hw with
  | @answered b got hb hgot =>
    cases act with
    | send =>
      simp only [step] at h
      split_ifs at h with hsend
      cases h
      have hround : rounds[b]? = some rounds[b] := List.getElem?_eq_getElem hsend.1
      have hall : got = answers (rounds.take b) := hgot.eq_of_length hsend.2
      have hpos := List.length_pos_iff.mpr rounds[b].asks
      rw [hall]
      exact .underWay hround List.prefix_rfl (List.prefix_append _ _) (by omega)
    | arrive n how =>
      -- everything that was sent has arrived
      simp only [step] at h
      split_ifs at h with harrive
      omega
    | get n =>
      simp only [step] at h
      split_ifs at h with hget
      cases h
      exact .answered hb (List.take_prefix _ _)
  | @underWay k round arrived hk hfrom hto hlt =>
    have hlen : (answers (rounds.take (k + 1))).length =
        (answers (rounds.take k)).length + round.answer.length := by
      rw [answers_take_succ hk, List.length_append]
    have hpos := List.length_pos_iff.mpr round.answers
    cases act with
    | send =>
      -- the answer to the last message is still missing
      simp only [step] at h
      split_ifs at h with hsend
      omega
    | arrive n how =>
      simp only [step, messages_take_succ hk] at h
      split_ifs at h with harrive
      cases h
      rw [List.length_append] at harrive
      set bytes := (messages (rounds.take k) ++ round.message).take (arrived.length + n) with hbytes
      have hlonger : messages (rounds.take k) <+: bytes := by
        refine hfrom.trans (prefix_take hto ?_)
        omega
      have hbytesLen : bytes.length = arrived.length + n := by
        rw [hbytes, List.length_take, List.length_append]
        omega
      rcases Nat.lt_or_ge bytes.length
        ((messages (rounds.take k)).length + round.message.length) with hpart | hwhole
      · have hserve := hs k bytes how hlonger (.inr ⟨round, hk, List.take_prefix _ _, hpart⟩)
        rw [hserve]
        exact .underWay hk hlonger (List.take_prefix _ _) hpart
      · have hall : bytes = messages (rounds.take (k + 1)) := by
          rw [messages_take_succ hk, hbytes]
          refine List.take_of_length_le ?_
          rw [List.length_append]
          omega
        have hserve := hs (k + 1) bytes how (hall ▸ List.prefix_rfl) (.inl hall)
        rw [hserve, hall]
        refine .answered (List.getElem?_eq_some_iff.mp hk).1 ?_
        rw [answers_take_succ hk]
        exact List.prefix_append _ _
    | get n =>
      -- what the server has written is there already
      simp only [step] at h
      split_ifs at h with hget
      omega

/-- **Neither side waits for the other for ever.** -/
theorem step_of_kept [Nonempty σ] (hw : Kept rounds w) (hfin : ¬ Finished rounds w) :
    ∃ act : Act σ, (step rounds serve w act).isSome = true := by
  cases hw with
  | @answered b got hb hgot =>
    rcases Nat.lt_or_ge got.length (answers (rounds.take b)).length with hmiss | hall
    · refine ⟨.get ((answers (rounds.take b)).length - got.length), ?_⟩
      simp only [step]
      rw [if_pos (by omega)]
      rfl
    · have hlen := hgot.length_le
      have hgot' : got = answers (rounds.take b) := hgot.eq_of_length (by omega)
      have hmore : b < rounds.length := by
        refine Nat.lt_of_le_of_ne hb fun heq => hfin ⟨heq, ?_⟩
        change got = _
        rw [hgot', heq, List.take_length]
      refine ⟨.send, ?_⟩
      rw [step, if_pos ⟨hmore, by rw [hgot']⟩]
      rfl
  | @underWay k round arrived hk hfrom hto hlt =>
    obtain ⟨how⟩ := ‹Nonempty σ›
    have hlen := hto.length_le
    rw [List.length_append] at hlen
    refine ⟨.arrive ((messages (rounds.take k)).length + round.message.length - arrived.length)
      how, ?_⟩
    simp only [step, messages_take_succ hk, List.length_append]
    rw [if_pos (by omega)]
    rfl

lemma toDo_step (hw : Kept rounds w) (h : step rounds serve w act = some w') :
    toDo rounds w' + 1 ≤ toDo rounds w := by
  have hgot : (answers (rounds.take w.begun)).length ≤ (answers rounds).length :=
    (answers_take_le_answers w.begun).length_le
  have harr : (messages (rounds.take w.begun)).length ≤ (messages rounds).length :=
    (messages_take_le_messages w.begun).length_le
  have hwritten : w.written.length ≤ (answers rounds).length := by
    cases hw with
    | @answered b got hb hgot => exact (answers_take_le_answers b).length_le
    | @underWay k => exact (answers_take_le_answers k).length_le
  unfold toDo
  cases act with
  | send =>
    simp only [step] at h
    split_ifs at h with hsend
    cases h
    simp only
    omega
  | arrive n how =>
    simp only [step] at h
    split_ifs at h with harrive
    cases h
    simp only [List.length_take]
    omega
  | get n =>
    simp only [step] at h
    split_ifs at h with hget
    cases h
    simp only [List.length_take]
    omega

/-! ### Runs -/

lemma toDo_start : toDo rounds World.start =
    rounds.length + (messages rounds).length + (answers rounds).length := rfl

/-- **Every run is short, and gets the answers.** -/
theorem kept_run (hs : Answers rounds serve) {acts : List (Act σ)}
    (h : run (step rounds serve) World.start acts = some w) :
    Kept rounds w ∧
      acts.length ≤ rounds.length + (messages rounds).length + (answers rounds).length := by
  have hrun : Kept rounds w ∧ toDo rounds w + acts.length ≤ toDo rounds World.start := by
    refine run_induction (P := fun acts w => Kept rounds w ∧
      toDo rounds w + acts.length ≤ toDo rounds World.start) ⟨kept_start, by simp⟩ ?_ h
    intro acts w act w' _ ⟨hw, hlen⟩ hstep
    have htodo := toDo_step hw hstep
    refine ⟨kept_step hs hw hstep, ?_⟩
    rw [List.length_append, List.length_singleton]
    omega
  rw [toDo_start] at hrun
  exact ⟨hrun.1, by omega⟩

lemma Kept.got_prefix (hw : Kept rounds w) : w.got <+: answers rounds := by
  cases hw with
  | @answered b got hb hgot => exact hgot.trans (answers_take_le_answers b)
  | @underWay k => exact answers_take_le_answers k

lemma Kept.arrived_of_finished (hw : Kept rounds w) (hfin : Finished rounds w) :
    w.arrived = messages rounds := by
  obtain ⟨hbegun, hgot⟩ := hfin
  cases hw with
  | @answered b got hb hgot' =>
    have hb' : b = rounds.length := hbegun
    change messages (rounds.take b) = messages rounds
    rw [hb', List.take_length]
  | @underWay k round arrived hk hfrom hto hlt =>
    have hpos := List.length_pos_iff.mpr round.answers
    have hk' : k + 1 = rounds.length := hbegun
    have hlen : (answers (rounds.take k)).length = (answers rounds).length :=
      congrArg List.length hgot
    have hwhole : answers rounds = answers (rounds.take k) ++ round.answer := by
      rw [← answers_take_succ hk, hk', List.take_length]
    rw [hwhole, List.length_append] at hlen
    omega

end Wiretally.Lib.Lockstep
