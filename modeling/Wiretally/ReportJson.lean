import Wiretally.IpText
import Wiretally.Lib.Json
import Wiretally.Reports

/-!
The report as JSON.

Each record is an object with a member for each field, under its name in the source; an option
that is absent is `null`, and an address is its text. Whatever text the serializer chooses for
these values, the report is read back from it.
-/

namespace Wiretally.ReportJson

open Wiretally.Lib Wiretally.Lib.Json Wiretally.Net Wiretally.Stats Wiretally.Reports

/-! ### What is serialized -/

def ofU64 (n : UInt64) : Value := .num n.toNat

def ofOption {α : Type} (f : α → Value) : Option α → Value
  | none => .null
  | some a => f a

def serializeTotals (totals : Totals) : Value :=
  .obj [("ingress_bytes".toList, ofU64 totals.ingressBytes),
    ("egress_bytes".toList, ofU64 totals.egressBytes),
    ("connections".toList, ofU64 totals.connections)]

def serializeBreakdown (totals : TotalsBreakdown) : Value :=
  .obj [("matching_filter".toList, serializeTotals totals.matchingFilter),
    ("all_destinations".toList, serializeTotals totals.allDestinations)]

def serializeEndpoint (endpoint : Endpoint) : Value :=
  .obj [("domain".toList, .str endpoint.domain),
    ("ip_address".toList, ofOption (fun ip => .str ip.toText) endpoint.ipAddress),
    ("ingress_bytes".toList, ofU64 endpoint.ingressBytes),
    ("egress_bytes".toList, ofU64 endpoint.egressBytes),
    ("connections".toList, ofU64 endpoint.connections),
    ("matches_filter".toList, .bool endpoint.matchesFilter)]

def serializeReport (report : Report) : Value :=
  .obj [("command".toList, .str report.command),
    ("domain_prefix_filter".toList, ofOption .str report.domainPrefixFilter),
    ("execution_time_ms".toList, .num report.executionTimeMs),
    ("exit_code".toList, .num report.exitCode.toInt),
    ("totals".toList, serializeBreakdown report.totals),
    ("endpoints".toList, .arr (report.endpoints.map serializeEndpoint))]

/-- `to_json`, with the serializer's choice of a text for a value. -/
def toJson (toStringPretty : Value → Text) (report : Report) : Text :=
  toStringPretty (serializeReport report)

/-! ### What is read of it -/

def field (name : Text) : Value → Option Value
  | .obj members => members.lookup name
  | _ => none

def toStr : Value → Option Text
  | .str s => some s
  | _ => none

def toIp (v : Value) : Option IpAddr := (toStr v).bind IpAddr.parse

def toBool : Value → Option Bool
  | .bool b => some b
  | _ => none

def toNat : Value → Option ℕ
  | .num n => if 0 ≤ n then some n.toNat else none
  | _ => none

def toU64 (v : Value) : Option UInt64 :=
  (toNat v).bind fun n => if n < 2 ^ 64 then some (.ofNat n) else none

def toI32 : Value → Option Int32
  | .num n => if -2 ^ 31 ≤ n ∧ n < 2 ^ 31 then some (.ofInt n) else none
  | _ => none

def toOption {α : Type} (f : Value → Option α) : Value → Option (Option α)
  | .null => some none
  | v => (f v).map some

def toArr {α : Type} (f : Value → Option α) : Value → Option (List α)
  | .arr vs => vs.mapM f
  | _ => none

def readTotals (v : Value) : Option Totals := do
  let ingressBytes ← toU64 (← field "ingress_bytes".toList v)
  let egressBytes ← toU64 (← field "egress_bytes".toList v)
  let connections ← toU64 (← field "connections".toList v)
  some { ingressBytes, egressBytes, connections }

def readBreakdown (v : Value) : Option TotalsBreakdown := do
  let matchingFilter ← readTotals (← field "matching_filter".toList v)
  let allDestinations ← readTotals (← field "all_destinations".toList v)
  some { matchingFilter, allDestinations }

def readEndpoint (v : Value) : Option Endpoint := do
  let domain ← toStr (← field "domain".toList v)
  let ipAddress ← toOption toIp (← field "ip_address".toList v)
  let ingressBytes ← toU64 (← field "ingress_bytes".toList v)
  let egressBytes ← toU64 (← field "egress_bytes".toList v)
  let connections ← toU64 (← field "connections".toList v)
  let matchesFilter ← toBool (← field "matches_filter".toList v)
  some { domain, ipAddress, ingressBytes, egressBytes, connections, matchesFilter }

def readReport (v : Value) : Option Report := do
  let command ← toStr (← field "command".toList v)
  let domainPrefixFilter ← toOption toStr (← field "domain_prefix_filter".toList v)
  let executionTimeMs ← toNat (← field "execution_time_ms".toList v)
  let exitCode ← toI32 (← field "exit_code".toList v)
  let totals ← readBreakdown (← field "totals".toList v)
  let endpoints ← toArr readEndpoint (← field "endpoints".toList v)
  some { command, domainPrefixFilter, executionTimeMs, exitCode, totals, endpoints }

/-! ### That nothing is lost -/

lemma field_cons_self (name : Text) (v : Value) (members : List (Text × Value)) :
    field name (.obj ((name, v) :: members)) = some v :=
  List.lookup_cons_self

lemma field_cons_ne {name name' : Text} (h : name ≠ name') (v : Value)
    (members : List (Text × Value)) :
    field name (.obj ((name', v) :: members)) = field name (.obj members) := by
  change ((name', v) :: members).lookup name = members.lookup name
  rw [List.lookup_cons, beq_false_of_ne h]

lemma toStr_str (s : Text) : toStr (.str s) = some s := rfl

lemma toBool_bool (b : Bool) : toBool (.bool b) = some b := rfl

lemma toNat_natCast (n : ℕ) : toNat (.num n) = some n := by
  have hnonneg : (0 : ℤ) ≤ n := Int.natCast_nonneg n
  simp only [toNat, hnonneg, if_true, Int.toNat_natCast]

lemma toU64_ofU64 (n : UInt64) : toU64 (ofU64 n) = some n := by
  rw [toU64, ofU64, toNat_natCast, Option.bind_some, if_pos n.toNat_lt, UInt64.ofNat_toNat]

lemma toOption_ofOption {α : Type} {f : α → Value} {g : Value → Option α} (hnull : ∀ a, f a ≠ .null)
    (h : ∀ a, g (f a) = some a) (o : Option α) : toOption g (ofOption f o) = some o := by
  cases o with
  | none => rfl
  | some a =>
    have hsome : toOption g (f a) = (g (f a)).map some := by
      cases hf : f a with
      | null => exact absurd hf (hnull a)
      | _ => rfl
    exact hsome.trans (by rw [h]; rfl)

lemma toI32_toInt (n : Int32) : toI32 (.num n.toInt) = some n := by
  have hrange : -2 ^ 31 ≤ n.toInt ∧ n.toInt < 2 ^ 31 := ⟨n.le_toInt, n.toInt_lt⟩
  exact (if_pos hrange).trans (congrArg some (Int32.ofInt_toInt n))

lemma toArr_map {α : Type} {f : α → Value} {g : Value → Option α} (h : ∀ a, g (f a) = some a)
    (as : List α) : toArr g (.arr (as.map f)) = some as := by
  change (as.map f).mapM g = some as
  induction as with
  | nil => rfl
  | cons a as ih => simp [h, ih]

lemma readTotals_serialize (totals : Totals) : readTotals (serializeTotals totals) = some totals := by
  unfold serializeTotals readTotals
  simp (disch := decide +kernel) only [field_cons_self, field_cons_ne, Option.bind_eq_bind,
    Option.bind_some, toU64_ofU64]

lemma readBreakdown_serialize (totals : TotalsBreakdown) :
    readBreakdown (serializeBreakdown totals) = some totals := by
  unfold serializeBreakdown readBreakdown
  simp (disch := decide +kernel) only [field_cons_self, field_cons_ne, Option.bind_eq_bind,
    Option.bind_some, readTotals_serialize]

lemma readEndpoint_serialize (endpoint : Endpoint) :
    readEndpoint (serializeEndpoint endpoint) = some endpoint := by
  have hnull : ∀ ip : IpAddr, Value.str ip.toText ≠ .null := fun _ => nofun
  have hip : toOption toIp (ofOption (fun ip => .str ip.toText) endpoint.ipAddress) =
      some endpoint.ipAddress :=
    toOption_ofOption hnull IpText.parse_toText endpoint.ipAddress
  unfold serializeEndpoint readEndpoint
  simp (disch := decide +kernel) only [field_cons_self, field_cons_ne, Option.bind_eq_bind,
    Option.bind_some, hip, toU64_ofU64, toStr_str, toBool_bool]

lemma readReport_serialize (report : Report) : readReport (serializeReport report) = some report := by
  have hnull : ∀ s : Text, Value.str s ≠ .null := fun _ => nofun
  have hfilter : toOption toStr (ofOption .str report.domainPrefixFilter) =
      some report.domainPrefixFilter :=
    toOption_ofOption hnull (fun _ => rfl) report.domainPrefixFilter
  have hendpoints := toArr_map readEndpoint_serialize report.endpoints
  unfold serializeReport readReport
  simp (disch := decide +kernel) only [field_cons_self, field_cons_ne, Option.bind_eq_bind,
    Option.bind_some, hfilter, toNat_natCast, toI32_toInt, readBreakdown_serialize, hendpoints,
    toStr_str]

/-- **The report is in its JSON.** Whichever text of a value the serializer writes, in whatever
layout and with whatever escapes, the report is read back from it: no command line, host name,
counter or address is lost or taken for another. -/
theorem read_toJson {toStringPretty : Value → Text} (h : ∀ v, IsText v (toStringPretty v))
    (report : Report) : (parse (toJson toStringPretty report)).bind readReport = some report := by
  rw [toJson, parse_of_isText (h _), Option.bind_some, readReport_serialize]

/-- A command line with quotes and a line feed in it, as in a report of two hosts. -/
def quoted : Report :=
  Report.new "sh -c \"a\\b\nEND\"".toList (some "example.com".toList) 1840 (-1)
    [⟨"a.example.com".toList, some localhost, 149760000, 18446744073709551615, 8, true⟩,
      ⟨"ü".toList, none, 0, 0, 0, false⟩]

theorem read_toJson_quoted : (parse (toJson pretty quoted)).bind readReport = some quoted :=
  read_toJson isText_pretty quoted

end Wiretally.ReportJson
