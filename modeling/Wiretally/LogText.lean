import Wiretally.Authority
import Wiretally.Lib.Decimal
import Wiretally.Traffic
import Wiretally.WireLog

/-!
The wire log, read.

A line for a read or a write says how many bytes went which way and names the host. Lines of all
connections come out in any order. Whoever adds up the bytes of the lines for a host gets what
the connections have counted for it: each byte is in the log once, under the host of its row,
but for those just counted and not logged yet.
-/

namespace Wiretally.LogText

open Wiretally.Lib Wiretally.Lib.Run Wiretally.Lib.Decimal Wiretally.Stats Wiretally.Text
open Wiretally.Stats.EndpointStats Wiretally.Registry Wiretally.Io
open Wiretally.WireLog
open Wiretally.Proxy (rsplitOnce)
open Wiretally.Attempts (Asker)

/-! ### Reading a line -/

/-- The text behind a word. -/
def skip (word s : Text) : Option Text :=
  if s.take word.length = word then some (s.drop word.length) else none

@[simp] lemma skip_append (word s : Text) : skip word (word ++ s) = some s := by
  simp [skip]

lemma skip_of_head {word s : Text} {c : Char} (hs : s.head? = some c) (hw : word.head?.any (· ≠ c)) :
    skip word s = none := by
  refine if_neg fun h => ?_
  cases word with
  | nil => cases hw
  | cons d word =>
    cases s with
    | nil => cases hs
    | cons b s =>
      cases hs
      rw [List.length_cons, List.take_succ_cons] at h
      have hd : c = d := (List.cons.inj h).1
      simp [hd] at hw

/-- Which way bytes went. -/
def readWay (s : Text) : Option (Way × Text) :=
  ((skip "TX    -> ".toList s).map fun s => (Way.tx, s)).or
    ((skip "RX    <- ".toList s).map fun s => (Way.rx, s))

def readBody (s : Text) : Option (Way × ℕ × Text) :=
  (readWay s).bind fun w => (readNat w.2).bind fun r => (skip " bytes ".toList r.2).bind fun target =>
    (rsplitOnce ':' target).map fun t => (w.1, r.1, t.1)

/-- Reads the line of a read or a write, behind the number of its connection. -/
def readMoved (line : Text) : Option (Way × ℕ × Text) :=
  (skip "[CONN #".toList line).bind fun s => (readNat s).bind fun r =>
    (skip "] ".toList r.2).bind readBody

def line (id : UInt64) (target : Text) (e : Event) : Text :=
  (e.write (ConnLog.new id target)).lines.getLastD []

lemma write_eq (log : ConnLog) (e : Event) :
    e.write log = { log with lines := log.lines ++ [line log.id log.target e] } := by
  cases e with
  | moved way n => cases way <;> rfl
  | _ => rfl

lemma lines_log (c : Conn) : c.log.lines = c.events.map (line c.id c.target) := by
  have key : ∀ (events : List Event) (log : ConnLog),
      events.foldl Event.write log =
        { log with lines := log.lines ++ events.map (line log.id log.target) } := by
    intro events
    induction events with
    | nil => simp
    | cons e events ih =>
      intro log
      rw [List.foldl_cons, write_eq, ih]
      simp
  unfold Conn.log
  rw [key]
  rfl

/-! ### Lines are read back -/

/-- What the line of an event says about bytes. -/
def Event.entry (host : Text) : Event → Option (Way × ℕ × Text)
  | .moved way n => some (way, n.toNat, host)
  | _ => none

lemma rsplitOnce_target (c : Conn) :
    rsplitOnce ':' c.target = some (c.host, Nat.toDigits 10 c.port.toNat) := by
  refine Authority.rsplitOnce_append ?_ c.host
  intro h
  exact absurd (isDigit_of_mem h) (by decide)

lemma noDigit_append {word : Text} (h : word.head?.any fun c => !c.isDigit) (s : Text) :
    NoDigit (word ++ s) := by
  cases word with
  | nil => cases h
  | cons d word =>
    rintro c hc
    cases hc
    simpa using h

lemma readMoved_event (log : ConnLog) (body : Text) :
    readMoved ((log.event body).lines.getLastD []) = readBody body := by
  have hline : (log.event body).lines.getLastD [] =
      "[CONN #".toList ++ (Nat.toDigits 10 log.id.toNat ++ ("] ".toList ++ body)) := by
    simp [ConnLog.event]
  rw [hline, readMoved, skip_append, Option.bind_some,
    readNat_toDigits _ (noDigit_append (by decide +kernel) _), Option.bind_some, skip_append,
    Option.bind_some]

lemma readBody_of_way {s : Text} {way : Way} (c : Conn) (n : ℕ)
    (h : readWay s = some (way, Nat.toDigits 10 n ++ (" bytes ".toList ++ c.target))) :
    readBody s = some (way, n, c.host) := by
  rw [readBody, h, Option.bind_some, readNat_toDigits _ (noDigit_append (by decide +kernel) _),
    Option.bind_some, skip_append, Option.bind_some, rsplitOnce_target]
  rfl

/-- **A line is read back**: those of reads and writes with their bytes and the host, others not. -/
theorem readMoved_line (c : Conn) (e : Event) :
    readMoved (line c.id c.target e) = Event.entry c.host e := by
  -- a line that begins with another word is none of them
  have hother : ∀ {body : Text} {a : Char}, body.head? = some a → a ≠ 'T' → a ≠ 'R' →
      readBody body = none := by
    intro body a hbody ht hr
    have htx : skip "TX    -> ".toList body = none := by
      refine skip_of_head hbody ?_
      have : "TX    -> ".toList.head? = some 'T' := by decide +kernel
      simpa [this] using ht.symm
    have hrx : skip "RX    <- ".toList body = none := by
      refine skip_of_head hbody ?_
      have : "RX    <- ".toList.head? = some 'R' := by decide +kernel
      simpa [this] using hr.symm
    rw [readBody, readWay, htx, hrx]
    rfl
  have hhead : ∀ {word : Text} {a : Char} (s : Text), word.head? = some a →
      (word ++ s).head? = some a := by
    intro word a s h
    rw [List.head?_append, h]
    rfl
  cases e with
  | opened ip =>
    refine (readMoved_event (ConnLog.new c.id c.target) _).trans
      (hother (a := 'O') ?_ (by decide) (by decide))
    rw [List.append_assoc, List.append_assoc, List.append_assoc]
    exact hhead _ (by decide +kernel)
  | closed rx tx =>
    refine (readMoved_event (ConnLog.new c.id c.target) _).trans
      (hother (a := 'C') ?_ (by decide) (by decide))
    rw [List.append_assoc, List.append_assoc, List.append_assoc]
    exact hhead _ (by decide +kernel)
  | moved way n =>
    cases way with
    | tx =>
      refine (readMoved_event (ConnLog.new c.id c.target) _).trans (readBody_of_way c n.toNat ?_)
      change readWay ("TX    -> ".toList ++ _ ++ _ ++ _) = _
      rw [List.append_assoc, List.append_assoc, readWay, skip_append]
      rfl
    | rx =>
      refine (readMoved_event (ConnLog.new c.id c.target) _).trans (readBody_of_way c n.toNat ?_)
      change readWay ("RX    <- ".toList ++ _ ++ _ ++ _) = _
      have hskip : ∀ s : Text, skip "TX    -> ".toList ("RX    <- ".toList ++ s) = none := fun s =>
        skip_of_head (hhead s (by decide +kernel : "RX    <- ".toList.head? = some 'R'))
          (by decide +kernel)
      rw [List.append_assoc, List.append_assoc, readWay, hskip, skip_append]
      rfl

/-! ### Adding up the lines -/

def logged (way : Way) (host : Text) (lines : List Text) : UInt64 :=
  ((lines.filterMap readMoved).map fun e =>
    if e.1 = way ∧ e.2.2 = host then UInt64.ofNat e.2.1 else 0).sum

lemma logged_append (way : Way) (host : Text) (ls ms : List Text) :
    logged way host (ls ++ ms) = logged way host ls + logged way host ms := by
  unfold logged
  rw [List.filterMap_append, List.map_append, List.sum_append]

lemma logged_perm {ls ms : List Text} (h : ls.Perm ms) (way : Way) (host : Text) :
    logged way host ls = logged way host ms :=
  ((h.filterMap _).map _).sum_eq

lemma logged_line (c : Conn) (e : Event) (way : Way) (host : Text) :
    logged way host [line c.id c.target e] =
      if c.host = host then .ofNat (bytes way [e]) else 0 := by
  have hread := readMoved_line c e
  unfold logged
  cases e with
  | moved way' n =>
    rw [List.filterMap_cons_some hread, bytes_moved]
    by_cases hway : way' = way
    · by_cases hhost : c.host = host <;> simp [hway, hhost]
    · simp [hway]
  | opened ip =>
    rw [List.filterMap_cons_none hread]
    exact (ite_self _).symm
  | closed rx tx =>
    rw [List.filterMap_cons_none hread]
    exact (ite_self _).symm

lemma logged_log (c : Conn) (way : Way) (host : Text) :
    logged way host c.log.lines = if c.host = host then .ofNat (bytes way c.events) else 0 := by
  rw [lines_log]
  induction c.events with
  | nil => exact (ite_self _).symm
  | cons e events ih =>
    have hlines := logged_append way host [line c.id c.target e] (events.map (line c.id c.target))
    have hbytes := bytes_append way [e] events
    rw [List.singleton_append] at hlines hbytes
    rw [List.map_cons, hlines, hbytes, ih, logged_line, UInt64.ofNat_add]
    by_cases hhost : c.host = host <;> simp [hhost]

/-! ### What a row holds -/

/-- Each connection counts into the block listed for its host. -/
def Listed (w : World) : Prop :=
  ∀ c ∈ w.conns, w.registry.endpoints.lookup c.host = some c.stats

def shares (way : Way) (host : Text) (conns : List Conn) : UInt64 :=
  (conns.map fun c => if c.host = host then c.counted way else 0).sum

/-- What has been counted for a host and not been logged. -/
def unlogged (way : Way) (host : Text) (conns : List Conn) : UInt64 :=
  (conns.map fun c => if c.host = host then pending way c.stage else 0).sum

/-- What a step of an association counts for a host. -/
def relayed (way : Way) (host : Text) (w : World) : Act → UInt64
  | .fetchAdd a n c =>
    if w.registry.endpoints.lookup host = some a ∧ way.counter = c then n else 0
  | _ => 0

lemma moves_host {r r' : Registry} {c c' : Conn} {op : Op} (h : Moves r c op c' r') :
    c'.host = c.host := by
  cases h <;> rfl

lemma moves_endpoints {r r' : Registry} {c c' : Conn} {op : Op} (h : Moves r c op c' r') :
    r'.endpoints = r.endpoints := by
  cases h with
  | opened _ hup => exact Traffic.setUp_endpoints hup
  | counts => exact update_endpoints ..
  | _ => rfl

lemma listed_begin {w : World} (h : Listed w) (asker : Asker) (host : Text) (port : UInt16) :
    Listed (w.begin asker host port) := by
  intro c hc
  rcases List.mem_append.mp hc with hold | hnew
  · exact lookup_endpoint_of_some w.registry host (h c hold)
  · rw [List.mem_singleton.mp hnew]
    exact (lookup_endpoint w.registry host host).trans (if_pos rfl)

lemma listed_step {w w' : World} {act : Act} (h : Listed w) (hstep : step w act = some w') :
    Listed w' := by
  cases step_steps hstep with
  | connect host port => exact listed_begin h _ host port
  | call => exact listed_begin h _ _ _
  | noAuthority => exact h
  | @conn i op c c' r' hi hc =>
    intro x hx
    change r'.endpoints.lookup x.host = some x.stats
    rw [moves_endpoints hc]
    rcases List.mem_or_eq_of_mem_set hx with hold | rfl
    · exact h x hold
    · rw [moves_host hc, moves_stats hc]
      exact h c (List.mem_of_getElem? hi)
  | takesId => exact h
  | endpoint host => exact fun c hc => lookup_endpoint_of_some w.registry host (h c hc)
  | fetchAdd => exact h

/-- What a step of a connection adds to a row, it has counted itself. -/
lemma value_moves {r r' : Registry} {c c' : Conn} {op : Op} (h : Moves r c op c' r')
    (hc : r.endpoints.lookup c.host = some c.stats) (host : Text) (way : Way) :
    value r' host way.counter =
      value r host way.counter + if c.host = host then moved way op else 0 := by
  have hblock : r.endpoints.lookup host = some c.stats ↔ c.host = host :=
    ⟨fun hl => r.distinct _ _ _ hc hl, fun he => he ▸ hc⟩
  cases h with
  | opened _ hup =>
    rw [Traffic.value_setUp hup, if_neg (by cases way <;> exact fun h => nomatch h.2)]
    exact congrArg _ (ite_self _).symm
  | @counts way' n hs =>
    have hcounter : way.counter = way'.counter ↔ way' = way := by
      cases way <;> cases way' <;> simp [Way.counter]
    rw [value_fetchAdd]
    simp only [hblock, hcounter, ite_and]
    rfl
  | _ => exact (add_zero _).symm.trans (congrArg _ (ite_self _).symm)

lemma shares_begin (way : Way) (host : Text) (w : World) (asker : Asker) (k : Text) (port : UInt16) :
    shares way host (w.begin asker k port).conns = shares way host w.conns := by
  unfold shares World.begin
  rw [List.map_append, List.sum_append, List.map_singleton, List.sum_singleton]
  have hzero : Conn.counted
      ⟨w.nextConnId + 1, asker, k, port, (w.registry.endpoint k).1, .connecting, false, []⟩ way = 0 :=
    rfl
  simp only [hzero, ite_self, add_zero]

/-- **What one step adds to a row** is counted by a connection of its host, or by an association. -/
theorem value_step {w w' : World} {act : Act} (hw : Listed w) (h : step w act = some w')
    (way : Way) (host : Text) :
    value w'.registry host way.counter - shares way host w'.conns =
      value w.registry host way.counter - shares way host w.conns + relayed way host w act := by
  have hbegin : ∀ (asker : Asker) (k : Text) (port : UInt16),
      value (w.begin asker k port).registry host way.counter -
          shares way host (w.begin asker k port).conns =
        value w.registry host way.counter - shares way host w.conns + 0 := by
    intro asker k port
    rw [shares_begin, add_zero]
    exact congrArg (· - _) (value_endpoint w.registry k host way.counter)
  cases step_steps h with
  | connect k port => exact hbegin .tunnel k port
  | call => exact hbegin .call _ _
  | noAuthority => exact (add_zero _).symm
  | @conn i op c c' r' hi hc =>
    have hvalue := value_moves hc (hw c (List.mem_of_getElem? hi)) host way
    have hshares : shares way host (w.conns.set i c') =
        shares way host w.conns + if c.host = host then moved way op else 0 := by
      unfold shares
      rw [Traffic.sum_map_set _ hi, moves_host hc, counted_moves hc]
      split_ifs
      · abel
      · rw [sub_zero]
    change value r' host way.counter - shares way host (w.conns.set i c') = _ + 0
    rw [hvalue, hshares]
    abel
  | takesId => exact (add_zero _).symm
  | endpoint k =>
    have hvalue := value_endpoint w.registry k host way.counter
    change value (w.registry.endpoint k).2 host way.counter - _ = _ + 0
    rw [hvalue, add_zero]
  | @fetchAdd a n c ha =>
    have hvalue := value_fetchAdd w.registry a n c host way.counter
    change value (w.registry.update a (·.fetchAdd n c)) host way.counter - _ = _
    rw [hvalue, relayed]
    abel

section Runs

variable {acts : List Act} {w : World}

lemma listed_run (h : run step World.start acts = some w) : Listed w :=
  run_inv (fun _ _ _ hs hst => listed_step hs hst) (fun _ hc => (List.not_mem_nil hc).elim) h

/-- What the associations of a run have counted for a host. -/
def relays (way : Way) (host : Text) (acts : List Act) : UInt64 :=
  tally step (relayed way host) World.start acts

lemma value_run (h : run step World.start acts = some w) (way : Way) (host : Text) :
    value w.registry host way.counter = shares way host w.conns + relays way host acts := by
  have hrun := run_tally (I := Listed)
    (f := fun w : World => value w.registry host way.counter - shares way host w.conns)
    (d := relayed way host) (fun _ _ _ hs hst => listed_step hs hst)
    (fun _ _ _ hs hst => value_step hs hst way host) (fun _ hc => (List.not_mem_nil hc).elim) h
  have hstart : value World.start.registry host way.counter - shares way host World.start.conns = 0 := by
    have hnone : value World.start.registry host way.counter = 0 := value_of_none _ rfl _
    have hzero : shares way host World.start.conns = 0 := rfl
    rw [hnone, hzero, sub_zero]
  have htally : tally step (relayed way host) World.start acts = relays way host acts := rfl
  rw [hstart, zero_add, htally] at hrun
  rw [← hrun]
  abel

/-- What connections have counted is in their logs, or about to be. -/
lemma shares_eq (way : Way) (host : Text) (conns : List Conn) :
    shares way host conns =
      logged way host (conns.flatMap (·.log.lines)) + unlogged way host conns := by
  induction conns with
  | nil => exact (add_zero _).symm
  | cons c conns ih =>
    have hshares : shares way host (c :: conns) =
        (if c.host = host then c.counted way else 0) + shares way host conns := List.sum_cons
    have hunlogged : unlogged way host (c :: conns) =
        (if c.host = host then pending way c.stage else 0) + unlogged way host conns := List.sum_cons
    rw [List.flatMap_cons, logged_append, logged_log, hshares, hunlogged, ih]
    split_ifs
    · rw [Conn.counted]
      abel
    · abel

/-- **The log accounts for the report.** In whatever order the lines of all connections came out, each
row of a snapshot holds the bytes of the lines for its host, those that are counted and about to
be logged, and those of associations, which log none; and a host that is in the log has a row. -/
theorem rows_of_log (h : run step World.start acts = some w) {lines : List Text}
    (hlines : lines.Perm (w.conns.flatMap (·.log.lines))) (filter : Option Text)
    {listing : List (Text × Arc)} (hl : HashMap.Lists w.registry.endpoints listing) :
    (∀ e ∈ w.registry.snapshotOf filter listing, ∀ way, e.count way.counter =
      logged way e.domain lines + unlogged way e.domain w.conns + relays way e.domain acts) ∧
    ∀ line ∈ lines, ∀ way n host, readMoved line = some (way, n, host) →
      ∃ e ∈ w.registry.snapshotOf filter listing, e.domain = host := by
  constructor
  · intro e he way
    rw [Traffic.count_of_mem hl he, value_run h, shares_eq, logged_perm hlines]
  · intro line hline way n host hread
    obtain ⟨c, hc, hmem⟩ := List.mem_flatMap.mp (hlines.mem_iff.mp hline)
    rw [lines_log] at hmem
    obtain ⟨event, -, rfl⟩ := List.mem_map.mp hmem
    have hhost : c.host = host := by
      rw [readMoved_line] at hread
      cases event with
      | moved => cases hread; rfl
      | _ => cases hread
    have hrow := row_of_lookup w.registry (listed_run h c hc)
    exact ⟨_, (mem_snapshotOf w.registry filter hl (.of filter c.host _)).mpr ⟨_, hrow, rfl⟩, hhost⟩

end Runs

/-! ### A byte count that is not in the log yet -/

/-- A tunnel to `a` that is over, one to `b` whose last read has been counted and not been logged, and
an association that has sent `b` a datagram. -/
def unfinished : List Act :=
  sends 0 5 ++ [.connect "b".toList 53, .conn 1 reached, .conn 1 (.answers (.ok ())),
    .conn 1 (.counts .rx 2), .conn 1 .logs, .fetchAdd 1 7 .egress, .conn 1 (.counts .rx 3)]

theorem rows_of_log_unfinished :
    ∃ w, run step World.start unfinished = some w ∧
      (∀ e ∈ w.registry.snapshot none, ∀ way, e.count way.counter =
        logged way e.domain (w.conns.flatMap (·.log.lines)).reverse +
          unlogged way e.domain w.conns + relays way e.domain unfinished) ∧
      ∀ line ∈ (w.conns.flatMap (·.log.lines)).reverse, ∀ way n host,
        readMoved line = some (way, n, host) →
          ∃ e ∈ w.registry.snapshot none, e.domain = host := by
  have hruns : (run step World.start unfinished).isSome = true := by decide +kernel
  obtain ⟨w, hw⟩ := Option.isSome_iff_exists.mp hruns
  exact ⟨w, hw, rows_of_log hw (List.reverse_perm _) none (HashMap.lists_toList _)⟩

end Wiretally.LogText
