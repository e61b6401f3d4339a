import Wiretally.LogText
import Wiretally.UdpCounts

/-!
The log of a UDP association.

A relay logs a line for each datagram it has passed on and a note for each it has dropped. Read
back, the lines say how many payload bytes went to and came from each host, which is what the
association has added to the rows; and with the datagram under way they say how many were
received on either socket, but for two kinds that leave no line: those for a name that resolves
to no address, and replies that come before the client has sent anything.
-/

namespace Wiretally.UdpLog

open Wiretally.Lib Wiretally.Lib.AsyncIo Wiretally.Lib.Run Wiretally.Lib.Decimal Wiretally.Net
open Wiretally.Stats Wiretally.Stats.EndpointStats Wiretally.Registry Wiretally.Io Wiretally.Socks
open Wiretally.Udp Wiretally.UdpCounts
open Wiretally.WireLog (Way Way.counter)
open Wiretally.LogText (skip skip_append noDigit_append)
open Wiretally.Proxy (rsplitOnce)

/-! ### Texts -/

def hexByte (b : UInt8) : Text :=
  "0x".toList ++ Nat.toDigits 16 (b.toNat / 16) ++ Nat.toDigits 16 (b.toNat % 16)

def errorText : DatagramError → Text
  | .truncated => "truncated udp relay header".toList
  | .unsupportedAddressType a => "unsupported address type ".toList ++ hexByte a
  | .fragmented frag =>
    "fragmented datagram (FRAG ".toList ++ hexByte frag ++ ") is not supported".toList

def addrText (addr : SocketAddr) : Text :=
  match addr.ip with
  | .v4 ip => (IpAddr.v4 ip).toText ++ ':' :: Nat.toDigits 10 addr.port.toNat
  | .v6 ip => '[' :: (IpAddr.v6 ip).toText ++ ']' :: ':' :: Nat.toDigits 10 addr.port.toNat

/-- What an association logs. -/
inductive Message
  | opened (bound : SocketAddr)
  | sentOut (n : ℕ) (host : Text) (port : UInt16)
  | sentBack (n : ℕ) (host : Text)
  | dropped (err : DatagramError)
  | unresolved (host : Text) (port : UInt16) (err : IoError)
  | refusedOut (target : SocketAddr) (err : IoError)
  | refusedBack (err : IoError)
  | closed

def Message.body : Message → Text
  | .opened bound => "OPEN  -> udp relay on ".toList ++ addrText bound
  | .sentOut n host port =>
    "UDP   -> ".toList ++ (Nat.toDigits 10 n ++
      (" bytes ".toList ++ (host ++ ':' :: Nat.toDigits 10 port.toNat)))
  | .sentBack n host => "UDP   <- ".toList ++ (Nat.toDigits 10 n ++ (" bytes ".toList ++ host))
  | .dropped err => "UDP   -- dropped datagram: ".toList ++ errorText err
  | .unresolved host port err =>
    "UDP   -- cannot resolve ".toList ++ (host ++ ':' :: Nat.toDigits 10 port.toNat ++
      ": ".toList ++ err.message.toList)
  | .refusedOut target err =>
    "UDP   -- send to ".toList ++ (addrText target ++ " failed: ".toList ++ err.message.toList)
  | .refusedBack err => "UDP   -- reply to client failed: ".toList ++ err.message.toList
  | .closed => "CLOSE -> udp relay".toList

/-! ### The association and its log -/

def message (u : Udp.World) (act : Udp.Act) : Option Message :=
  match u.pc, act with
  | .select, .recvClient packet _ =>
    match parseDatagram packet.bytes with
    | .error err => some (.dropped err)
    | .ok _ => none
  | .lookupHost datagram, .resolves (.error err) =>
    some (.unresolved datagram.host datagram.port err)
  | .sendOut datagram _ _, .sends (.ok ()) =>
    some (.sentOut datagram.payload.length datagram.host datagram.port)
  | .sendOut _ target _, .sends (.error err) => some (.refusedOut target err)
  | .sendBack _ payload _ host _, .sends (.ok ()) => some (.sentBack payload.length host)
  | .sendBack _ _ _ _ _, .sends (.error err) => some (.refusedBack err)
  | _, _ => none

/-- A relay that logs, and whether its control connection has ended. -/
structure World where
  relay : Udp.World
  log : ConnLog
  closed : Bool

inductive Act
  /-- The relay takes a step, or another task does. -/
  | relay (act : Udp.Act)
  /-- The control connection ends; the relay may take steps until it is aborted. -/
  | closes

/-- The relay once its client knows where it is. -/
def World.open (registry : Registry) (id : UInt64) (bound : SocketAddr) : World where
  relay := Udp.World.bind registry
  log := (ConnLog.new id "udp".toList).event (Message.opened bound).body
  closed := false

def World.write (w : World) (m : Option Message) : World :=
  { w with log := m.elim w.log fun m => w.log.event m.body }

def step (w : World) : Act → Option World
  | .relay act => (Udp.step w.relay act).map fun u =>
      { w with relay := u }.write (message w.relay act)
  | .closes => if w.closed then none else some ({ w with closed := true }.write (some .closed))

/-! ### Reading a line -/

inductive Line
  | sentOut (n : ℕ) (host : Text) (port : ℕ)
  | sentBack (n : ℕ) (host : Text)
  /-- A datagram of the client was not passed on. -/
  | noteOut
  /-- A reply was not passed on. -/
  | noteBack
  deriving DecidableEq

def readOut (s : Text) : Option Line :=
  (readNat s).bind fun r => (skip " bytes ".toList r.2).bind fun t =>
    (rsplitOnce ':' t).bind fun p => (readNat p.2).map fun q => .sentOut r.1 p.1 q.1

def readBack (s : Text) : Option Line :=
  (readNat s).bind fun r => (skip " bytes ".toList r.2).map fun host => .sentBack r.1 host

def readBody (s : Text) : Option Line :=
  ((skip "UDP   -> ".toList s).bind readOut).or <|
    ((skip "UDP   <- ".toList s).bind readBack).or <|
      ((skip "UDP   -- reply to client failed: ".toList s).map fun _ => .noteBack).or
        ((skip "UDP   -- ".toList s).map fun _ => .noteOut)

def readLine (line : Text) : Option Line :=
  (skip "[CONN #".toList line).bind fun s => (readNat s).bind fun r =>
    (skip "] ".toList r.2).bind readBody

/-- What the line of a message says. -/
def Message.line : Message → Option Line
  | .sentOut n host port => some (.sentOut n host port.toNat)
  | .sentBack n host => some (.sentBack n host)
  | .dropped _ | .unresolved _ _ _ | .refusedOut _ _ => some .noteOut
  | .refusedBack _ => some .noteBack
  | .opened _ | .closed => none

lemma skip_append_of_ne {word word' : Text} (k : ℕ) (hword : k ≤ word.length)
    (hword' : k ≤ word'.length) (h : word.take k ≠ word'.take k) (s : Text) :
    skip word (word' ++ s) = none := by
  refine if_neg fun heq => h ?_
  calc word.take k
      = ((word' ++ s).take word.length).take k := by rw [heq]
    _ = (word' ++ s).take k := by rw [List.take_take, Nat.min_eq_left hword]
    _ = word'.take k := List.take_append_of_le_length hword'

lemma readOut_body (n : ℕ) (host : Text) (port : UInt16) :
    readOut (Nat.toDigits 10 n ++
      (" bytes ".toList ++ (host ++ ':' :: Nat.toDigits 10 port.toNat))) =
      some (.sentOut n host port.toNat) := by
  have hcolon : ':' ∉ Nat.toDigits 10 port.toNat := fun h =>
    absurd (isDigit_of_mem h) (by decide)
  have hport : readNat (Nat.toDigits 10 port.toNat) = some (port.toNat, []) := by
    have h := readNat_toDigits port.toNat (s := []) (fun _ hc => by cases hc)
    rwa [List.append_nil] at h
  rw [readOut, readNat_toDigits _ (noDigit_append (by decide +kernel) _), Option.bind_some,
    skip_append, Option.bind_some, Authority.rsplitOnce_append hcolon, Option.bind_some, hport]
  rfl

lemma readBack_body (n : ℕ) (host : Text) :
    readBack (Nat.toDigits 10 n ++ (" bytes ".toList ++ host)) = some (.sentBack n host) := by
  rw [readBack, readNat_toDigits _ (noDigit_append (by decide +kernel) _), Option.bind_some,
    skip_append]
  rfl

/-- A note is told from the lines for bytes by its dashes. -/
lemma readBody_dashes {s : Text} (h : ∃ t, s = "UDP   -- ".toList ++ t) :
    readBody s = ((skip "UDP   -- reply to client failed: ".toList s).map fun _ => .noteBack).or
      (some .noteOut) := by
  obtain ⟨t, rfl⟩ := h
  have hout : skip "UDP   -> ".toList ("UDP   -- ".toList ++ t) = none :=
    skip_append_of_ne 9 (by decide +kernel) (by decide +kernel) (by decide +kernel) t
  have hback : skip "UDP   <- ".toList ("UDP   -- ".toList ++ t) = none :=
    skip_append_of_ne 9 (by decide +kernel) (by decide +kernel) (by decide +kernel) t
  rw [readBody, hout, hback, skip_append]
  rfl

lemma readBody_note {word : Text} (s : Text) (hlong : 10 ≤ word.length)
    (hdashes : "UDP   -- ".toList <+: word)
    (hother : "UDP   -- reply to client failed: ".toList.take 10 ≠ word.take 10) :
    readBody (word ++ s) = some .noteOut := by
  obtain ⟨t, ht⟩ := hdashes
  rw [readBody_dashes ⟨t ++ s, by rw [← ht, List.append_assoc]⟩,
    skip_append_of_ne 10 (by decide +kernel) hlong hother s]
  rfl

lemma readBody_open (s : Text) : readBody ("OPEN  -> udp relay on ".toList ++ s) = none := by
  have hout : skip "UDP   -> ".toList ("OPEN  -> udp relay on ".toList ++ s) = none :=
    skip_append_of_ne 4 (by decide +kernel) (by decide +kernel) (by decide +kernel) s
  have hback : skip "UDP   <- ".toList ("OPEN  -> udp relay on ".toList ++ s) = none :=
    skip_append_of_ne 4 (by decide +kernel) (by decide +kernel) (by decide +kernel) s
  have hreply : skip "UDP   -- reply to client failed: ".toList
      ("OPEN  -> udp relay on ".toList ++ s) = none :=
    skip_append_of_ne 4 (by decide +kernel) (by decide +kernel) (by decide +kernel) s
  have hnote : skip "UDP   -- ".toList ("OPEN  -> udp relay on ".toList ++ s) = none :=
    skip_append_of_ne 4 (by decide +kernel) (by decide +kernel) (by decide +kernel) s
  rw [readBody, hout, hback, hreply, hnote]
  rfl

lemma readBody_out (s : Text) : readBody ("UDP   -> ".toList ++ s) = readOut s := by
  have hback : skip "UDP   <- ".toList ("UDP   -> ".toList ++ s) = none :=
    skip_append_of_ne 9 (by decide +kernel) (by decide +kernel) (by decide +kernel) s
  have hreply : skip "UDP   -- reply to client failed: ".toList ("UDP   -> ".toList ++ s) = none :=
    skip_append_of_ne 9 (by decide +kernel) (by decide +kernel) (by decide +kernel) s
  have hnote : skip "UDP   -- ".toList ("UDP   -> ".toList ++ s) = none :=
    skip_append_of_ne 9 (by decide +kernel) (by decide +kernel) (by decide +kernel) s
  rw [readBody, hback, hreply, hnote, skip_append, Option.bind_some]
  simp

lemma readBody_back (s : Text) : readBody ("UDP   <- ".toList ++ s) = readBack s := by
  have hout : skip "UDP   -> ".toList ("UDP   <- ".toList ++ s) = none :=
    skip_append_of_ne 9 (by decide +kernel) (by decide +kernel) (by decide +kernel) s
  have hreply : skip "UDP   -- reply to client failed: ".toList ("UDP   <- ".toList ++ s) = none :=
    skip_append_of_ne 9 (by decide +kernel) (by decide +kernel) (by decide +kernel) s
  have hnote : skip "UDP   -- ".toList ("UDP   <- ".toList ++ s) = none :=
    skip_append_of_ne 9 (by decide +kernel) (by decide +kernel) (by decide +kernel) s
  rw [readBody, hout, hreply, hnote, skip_append, Option.bind_some]
  simp

lemma readBody_reply (s : Text) :
    readBody ("UDP   -- reply to client failed: ".toList ++ s) = some .noteBack := by
  have hdashes : "UDP   -- ".toList <+: "UDP   -- reply to client failed: ".toList := by
    decide +kernel
  obtain ⟨t, ht⟩ := hdashes
  rw [readBody_dashes ⟨t ++ s, by rw [← ht, List.append_assoc]⟩, skip_append]
  rfl

/-- **A message is read back from its line.** -/
theorem readBody_message (m : Message) : readBody m.body = m.line := by
  cases m with
  | opened bound => exact readBody_open _
  | sentOut n host port => exact (readBody_out _).trans (readOut_body n host port)
  | sentBack n host => exact (readBody_back _).trans (readBack_body n host)
  | dropped err =>
    have hlong : 10 ≤ "UDP   -- dropped datagram: ".toList.length := by decide +kernel
    have hdashes : "UDP   -- ".toList <+: "UDP   -- dropped datagram: ".toList := by
      decide +kernel
    exact readBody_note (errorText err) hlong hdashes (by decide +kernel)
  | unresolved host port err =>
    have hlong : 10 ≤ "UDP   -- cannot resolve ".toList.length := by decide +kernel
    have hdashes : "UDP   -- ".toList <+: "UDP   -- cannot resolve ".toList := by
      decide +kernel
    exact readBody_note (host ++ ':' :: Nat.toDigits 10 port.toNat ++ ": ".toList ++
      err.message.toList) hlong hdashes (by decide +kernel)
  | refusedOut target err =>
    have hlong : 10 ≤ "UDP   -- send to ".toList.length := by decide +kernel
    have hdashes : "UDP   -- ".toList <+: "UDP   -- send to ".toList := by
      decide +kernel
    exact readBody_note (addrText target ++ " failed: ".toList ++ err.message.toList) hlong
      hdashes (by decide +kernel)
  | refusedBack err => exact readBody_reply _
  | closed => decide +kernel

lemma read_write (w : World) (m : Option Message) :
    (w.write m).log.lines.filterMap readLine =
      w.log.lines.filterMap readLine ++ (m.bind Message.line).toList := by
  cases m with
  | none => exact (List.append_nil _).symm
  | some m =>
    have hread : ∀ id : UInt64, readLine ("[CONN #".toList ++ Nat.toDigits 10 id.toNat ++
        "] ".toList ++ m.body) = m.line := by
      intro id
      simp only [List.append_assoc]
      rw [readLine, skip_append, Option.bind_some,
        readNat_toDigits _ (noDigit_append (by decide +kernel) _), Option.bind_some, skip_append,
        Option.bind_some, readBody_message]
    refine (List.filterMap_append ..).trans (congrArg _ ?_)
    rw [List.filterMap_cons, hread, Option.bind_some]
    cases m.line <;> rfl

/-! ### What the lines say -/

/-- The bytes a line says went which way for `host`. -/
def said (way : Way) (host : Text) : Line → UInt64
  | .sentOut n k _ => if way = .tx ∧ k = host then .ofNat n else 0
  | .sentBack n k => if way = .rx ∧ k = host then .ofNat n else 0
  | .noteOut | .noteBack => 0

/-- The bytes the lines of a log say went which way for `host`. -/
def logged (way : Way) (host : Text) (lines : List Text) : UInt64 :=
  ((lines.filterMap readLine).map (said way host)).sum

def Line.way : Line → Way
  | .sentOut _ _ _ | .noteOut => .tx
  | .sentBack _ _ | .noteBack => .rx

def answered (way : Way) (lines : List Text) : ℕ :=
  (lines.filterMap readLine).countP fun line => line.way == way

/-- A datagram is received that is to go this way. -/
def receives (way : Way) : Udp.Act → Bool
  | .recvClient _ _ => way == .tx
  | .recvUpstream _ _ => way == .rx
  | _ => false

/-- A datagram is dropped without a line: its name has no address, or no client is known yet. -/
def silent (way : Way) (t : Udp.World × Udp.Act) : Bool :=
  match t.1.pc, t.2 with
  | .lookupHost _, .resolves (.ok []) => way == .tx
  | .select, .recvUpstream _ _ => way == .rx && t.1.relay.clientAddr.isNone
  | _, _ => false

/-- A datagram has been received, and what becomes of it is not known yet. -/
def underway (way : Way) : Pc → Bool
  | .lookupHost _ | .sendOut _ _ _ => way == .tx
  | .sendBack _ _ _ _ _ => way == .rx
  | .select | .returned => false

/-- What a step logs, read. -/
def noted (u : Udp.World) (act : Udp.Act) : Option Line := (message u act).bind Message.line

section Steps

variable {u u' : Udp.World} {act : Udp.Act}

/-- **The bytes a step logs are those it counts.** -/
lemma said_noted (h : Udp.step u act = some u') (way : Way) (host : Text) :
    (noted u act).elim 0 (said way host) = relays host way.counter u act := by
  by_cases hact : act = .sends (.ok ())
  · subst hact
    cases step_moves h with
    | sentOut hpc =>
      cases way <;>
        simp [noted, message, hpc, said, relays, outward, backward, Message.line, Way.counter]
    | sentBack hpc =>
      cases way <;>
        simp [noted, message, hpc, said, relays, outward, backward, Message.line, Way.counter]
  · have hcredits := credits_of_not_sent hact u host
    have hzero : relays host way.counter u act = 0 := by
      cases way with
      | tx => exact hcredits.1
      | rx => exact hcredits.2
    rw [hzero]
    cases step_moves h with
    | malformed hpc hparse => simp [noted, message, hpc, hparse, said, Message.line]
    | unknown hpc hparse => simp [noted, message, hpc, hparse]
    | known hpc hparse => simp [noted, message, hpc, hparse]
    | resolved hpc => simp [noted, message, hpc]
    | @unresolved datagram answer hpc hanswer =>
      cases answer <;> simp [noted, message, hpc, said, Message.line]
    | refused hpc =>
      rcases hpc with ⟨_, _, _, hpc⟩ | ⟨_, _, _, _, _, hpc⟩ <;>
        simp [noted, message, hpc, said, Message.line]
    | sentOut => exact absurd rfl hact
    | sentBack => exact absurd rfl hact
    | orphan hpc => simp [noted, message, hpc]
    | reply hpc => simp [noted, message, hpc]
    | returned hpc => simp [noted, message, hpc]
    | endpoint => simp [noted, message]
    | fetchAdd => simp [noted, message]
    | observeIp => simp [noted, message]

/-- **A datagram received** is in a line, has been dropped without one, or is under way. -/
lemma receives_step (h : Udp.step u act = some u') (way : Way) :
    (receives way act).toNat + (underway way u.pc).toNat =
      (noted u act).toList.countP (fun line => line.way == way) +
        (silent way (u, act)).toNat + (underway way u'.pc).toNat := by
  cases step_moves h with
  | malformed hpc hparse =>
    simp only [noted, message, silent, hpc, hparse]
    cases way <;> rfl
  | unknown hpc hparse =>
    simp only [noted, message, silent, hpc, hparse]
    cases way <;> rfl
  | known hpc hparse =>
    simp only [noted, message, silent, hpc, hparse]
    cases way <;> rfl
  | resolved hpc =>
    simp only [noted, message, silent, hpc]
    cases way <;> rfl
  | @unresolved datagram answer hpc hanswer =>
    simp only [noted, message, silent, hpc]
    match answer, hanswer with
    | .error err, _ => cases way <;> rfl
    | .ok [], _ => cases way <;> rfl
    | .ok (addr :: rest), hanswer => exact absurd rfl (hanswer addr rest)
  | sentOut hpc =>
    simp only [noted, message, silent, hpc]
    cases way <;> rfl
  | refused hpc =>
    rcases hpc with ⟨_, _, _, hpc⟩ | ⟨_, _, _, _, _, hpc⟩ <;>
    · simp only [noted, message, silent, hpc]
      cases way <;> rfl
  | orphan hpc hclient =>
    simp only [noted, message, silent, hpc, hclient]
    cases way <;> rfl
  | reply hpc hclient =>
    simp only [noted, message, silent, hpc, hclient]
    cases way <;> rfl
  | sentBack hpc =>
    simp only [noted, message, silent, hpc]
    cases way <;> rfl
  | returned hpc =>
    simp only [noted, message, silent, hpc]
    cases way <;> rfl
  | _ => simp [noted, message, silent, receives]

end Steps

/-! ### Whole runs -/

lemma logged_write (w : World) (m : Option Message) (way : Way) (host : Text) :
    logged way host (w.write m).log.lines =
      logged way host w.log.lines + (m.bind Message.line).elim 0 (said way host) := by
  unfold logged
  rw [read_write, List.map_append, List.sum_append]
  cases m.bind Message.line with
  | none => rfl
  | some line => exact congrArg _ List.sum_singleton

lemma answered_write (w : World) (m : Option Message) (way : Way) :
    answered way (w.write m).log.lines = answered way w.log.lines +
      (m.bind Message.line).toList.countP fun line => line.way == way := by
  unfold answered
  rw [read_write, List.countP_append]

def relayAct : Act → Option Udp.Act
  | .relay act => some act
  | .closes => none

/-- The steps of a run that are the relay's, or another task's. -/
def relayed (acts : List Act) : List Udp.Act := acts.filterMap relayAct

/-- The log agrees with the relay. -/
structure Accounts (registry : Registry) (acts : List Act) (w : World) : Prop where
  runs : run Udp.step (Udp.World.bind registry) (relayed acts) = some w.relay
  bytes : ∀ way host, logged way host w.log.lines =
    total (relays host way.counter) registry (relayed acts)
  datagrams : ∀ way, (relayed acts).countP (receives way) = answered way w.log.lines +
    (trace Udp.step (Udp.World.bind registry) (relayed acts)).countP (silent way) +
      (underway way w.relay.pc).toNat

section Runs

variable {registry : Registry} {id : UInt64} {bound : SocketAddr} {acts : List Act} {w w' : World}

lemma accounts_open : Accounts registry [] (World.open registry id bound) := by
  have hread : (World.open registry id bound).log.lines.filterMap readLine = [] :=
    read_write ⟨Udp.World.bind registry, ConnLog.new id "udp".toList, false⟩ (some (.opened bound))
  refine ⟨rfl, fun way host => ?_, fun way => ?_⟩
  · unfold logged
    rw [hread]
    rfl
  · unfold answered
    rw [hread]
    rfl

lemma accounts_step {act : Act} (hw : Accounts registry acts w) (h : step w act = some w') :
    Accounts registry (acts ++ [act]) w' := by
  cases act with
  | relay act =>
    obtain ⟨u, hu, rfl⟩ := Option.map_eq_some_iff.mp h
    have hacts : relayed (acts ++ [.relay act]) = relayed acts ++ [act] := List.filterMap_append
    refine ⟨?_, fun way host => ?_, fun way => ?_⟩
    · rw [hacts]
      exact (run_snoc _).mpr ⟨w.relay, hw.runs, hu⟩
    · rw [hacts, total_snoc _ hw.runs, ← hw.bytes way host, ← said_noted hu way host]
      exact logged_write { w with relay := u } (message w.relay act) way host
    · have hlines : answered way (World.write { w with relay := u } _).log.lines =
          answered way w.log.lines +
            (noted w.relay act).toList.countP fun line => line.way == way :=
        answered_write { w with relay := u } (message w.relay act) way
      have hstep := receives_step hu way
      have hbefore := hw.datagrams way
      rw [hacts, List.countP_append, trace_snoc act hw.runs, List.countP_append]
      simp only [List.countP_singleton, Bool.toNat, Bool.cond_eq_ite] at hstep hbefore ⊢
      change _ = answered way (World.write { w with relay := u } _).log.lines + _ +
        if underway way u.pc = true then 1 else 0
      rw [hlines]
      omega
  | closes =>
    simp only [step] at h
    split_ifs at h
    cases h
    have hacts : relayed (acts ++ [.closes]) = relayed acts :=
      List.filterMap_append.trans (List.append_nil _)
    refine ⟨?_, fun way host => ?_, fun way => ?_⟩
    · rw [hacts]
      exact hw.runs
    · rw [hacts, ← hw.bytes way host]
      exact (logged_write { w with closed := true } (some .closed) way host).trans (add_zero _)
    · rw [hacts, hw.datagrams way]
      have hlines : answered way (World.write { w with closed := true } (some .closed)).log.lines =
          answered way w.log.lines := answered_write { w with closed := true } (some .closed) way
      rw [hlines]
      rfl

lemma accounts_run (h : run step (World.open registry id bound) acts = some w) :
    Accounts registry acts w :=
  run_induction (P := Accounts registry) accounts_open
    (fun _ _ _ _ _ hw hst => accounts_step hw hst) h

/-- **The log of an association accounts for it**, wherever it is cut off. Each row has grown by the
bytes of the lines for its host, besides what others have added to it; and each datagram
received is in one line, has been dropped without one, or is under way. -/
theorem log_accounts (h : run step (World.open registry id bound) acts = some w) (way : Way) :
    (∀ host, value w.relay.registry host way.counter = value registry host way.counter +
      (total (others host way.counter) registry (relayed acts) + logged way host w.log.lines)) ∧
    (relayed acts).countP (receives way) = answered way w.log.lines +
      (trace Udp.step (Udp.World.bind registry) (relayed acts)).countP (silent way) +
        (underway way w.relay.pc).toNat := by
  have hw := accounts_run h
  refine ⟨fun host => ?_, hw.datagrams way⟩
  rw [hw.bytes way host]
  exact value_run hw.runs host way.counter

end Runs

/-! ### An association with every kind of line -/

/-- A reply before any client is known; a datagram cut short, a query that is answered, a name with
no address and one that does not resolve; and a datagram under way. -/
def datagrams : List Udp.Act :=
  [.recvUpstream ⟨[5], by decide⟩ (server 53),
    .recvClient ⟨[0, 0, 0], by decide⟩ ⟨localhost, 4000⟩] ++ query ++
  [.recvClient ⟨[0, 0, 0, 3, 1, 0x62, 0, 53, 7], by decide⟩ ⟨localhost, 4000⟩,
    .resolves (.ok []),
    .recvClient ⟨[0, 0, 0, 3, 1, 0x62, 0, 53, 7], by decide⟩ ⟨localhost, 4000⟩,
    .resolves (.error ⟨.other, "no such host"⟩),
    .fetchAdd 0 7 .egress,
    .recvClient ⟨[0, 0, 0, 3, 1, 0x61, 0, 53, 2], by decide⟩ ⟨localhost, 4000⟩]

/-- The client hangs up with a datagram under way. -/
def mixed : List Act := datagrams.map .relay ++ [.closes]

theorem log_accounts_mixed :
    ∃ w, run step (World.open Registry.new 1 ⟨localhost, 5000⟩) mixed = some w ∧ ∀ way,
      (∀ host, value w.relay.registry host way.counter =
        value Registry.new host way.counter +
          (total (others host way.counter) Registry.new (relayed mixed) +
            logged way host w.log.lines)) ∧
      (relayed mixed).countP (receives way) = answered way w.log.lines +
        (trace Udp.step (Udp.World.bind Registry.new) (relayed mixed)).countP (silent way) +
          (underway way w.relay.pc).toNat := by
  have hruns : (run step (World.open Registry.new 1 ⟨localhost, 5000⟩) mixed).isSome = true := by
    decide +kernel
  obtain ⟨w, hw⟩ := Option.isSome_iff_exists.mp hruns
  exact ⟨w, hw, log_accounts hw⟩

end Wiretally.UdpLog
