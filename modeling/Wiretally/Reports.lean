import Wiretally.Lib.F64
import Wiretally.Stats

/-!
The report of a run: its totals and its text form.
-/

namespace Wiretally.Reports

open Wiretally.Lib Wiretally.Stats

/-- Width of the rules in the text report. -/
def rule : ℕ := 80

/-- Width of the endpoint column; longer names are elided. -/
def domainCol : ℕ := 34

/-! ### Totals -/

/-- Bytes and connections of a group of endpoints. -/
structure Totals where
  ingressBytes : UInt64
  egressBytes : UInt64
  connections : UInt64
  deriving DecidableEq

namespace Totals

def default : Totals := ⟨0, 0, 0⟩

def add (acc : Totals) (endpoint : Endpoint) : Totals where
  ingressBytes := acc.ingressBytes + endpoint.ingressBytes
  egressBytes := acc.egressBytes + endpoint.egressBytes
  connections := acc.connections + endpoint.connections

def of (endpoints : List Endpoint) : Totals := endpoints.foldl add default

def count (t : Totals) : Counter → UInt64
  | .ingress => t.ingressBytes
  | .egress => t.egressBytes
  | .connections => t.connections

end Totals

structure TotalsBreakdown where
  matchingFilter : Totals
  allDestinations : Totals
  deriving DecidableEq

/-- A complete run summary. -/
structure Report where
  command : Text
  domainPrefixFilter : Option Text
  executionTimeMs : ℕ
  exitCode : Int32
  totals : TotalsBreakdown
  endpoints : List Endpoint

/-- Builds a report from a registry snapshot. -/
def Report.new (command : Text) (domainPrefixFilter : Option Text) (executionTimeMs : ℕ)
    (exitCode : Int32) (endpoints : List Endpoint) : Report where
  command := command
  domainPrefixFilter := domainPrefixFilter
  executionTimeMs := executionTimeMs
  exitCode := exitCode
  totals := {
    matchingFilter := Totals.of (endpoints.filter (·.matchesFilter))
    allDestinations := Totals.of endpoints }
  endpoints := endpoints

/-! ### The text form -/

/-- `{:<width$}`. -/
def padRight (width : ℕ) (s : Text) : Text := s ++ List.replicate (width - s.length) ' '

/-- `{:>width$}`. -/
def padLeft (width : ℕ) (s : Text) : Text := List.replicate (width - s.length) ' ' ++ s

/-- `{:^width$}`. -/
def padCenter (width : ℕ) (s : Text) : Text :=
  let pad := width - s.length
  List.replicate (pad / 2) ' ' ++ s ++ List.replicate ((pad + 1) / 2) ' '

def writeln (out line : Text) : Text := out ++ line ++ ['\n']

def units : List Text := ["KB", "MB", "GB", "TB", "PB"].map (·.toList)

/-- Divides by 1024 for each unit there is, as long as it leaves no less than one of it. -/
def scale : ℚ → Text → List Text → ℚ × Text
  | value, unit, [] => (value, unit)
  | value, unit, next :: rest =>
    if value < 1024 then (value, unit) else scale (F64.div value 1024) next rest

/-- A byte count in binary units, with two decimals above the kilobyte. -/
def formatBytes (bytes : UInt64) : Text :=
  if bytes < 1024 then Nat.toDigits 10 bytes.toNat ++ " B".toList
  else
    let value := F64.div (F64.ofNat bytes.toNat) 1024
    let (value, unit) := scale value (units.headD []) units.tail
    F64.toFixed2 value ++ [' '] ++ unit

/-- Truncates `text` to `max` characters, marking the cut with an ellipsis. -/
def elide (text : Text) (max : ℕ) : Text :=
  if text.length ≤ max then text else text.take (max - 1) ++ ['…']

def columns (domain ingress egress conns : Text) : Text :=
  padRight domainCol domain ++ padLeft 14 ingress ++ padLeft 17 egress ++ padLeft 8 conns

def row (endpoint : Endpoint) : Text :=
  columns (elide endpoint.domain (domainCol - 1)) (formatBytes endpoint.ingressBytes)
    (formatBytes endpoint.egressBytes) (Nat.toDigits 10 endpoint.connections.toNat)

def totalRow (label : Text) (totals : Totals) : Text :=
  columns label (formatBytes totals.ingressBytes) (formatBytes totals.egressBytes)
    (Nat.toDigits 10 totals.connections.toNat)

def noTraffic : Text := "(no matching traffic observed)".toList

def exitCodeText (code : Int32) : Text :=
  match code.toInt with
  | .ofNat n => Nat.toDigits 10 n
  | .negSucc n => '-' :: Nat.toDigits 10 (n + 1)

def filterText : Option Text → Text
  | some pre => "*.".toList ++ pre ++ " (Prefix Match)".toList
  | none => "none (all destinations)".toList

/-- The human-readable summary table. -/
def Report.toText (report : Report) : Text :=
  let thick := List.replicate rule '='
  let thin := List.replicate rule '-'
  let out := []
  let out := writeln out thick
  let out := writeln out (padCenter rule "WIRETALLY TRAFFIC SUMMARY".toList)
  let out := writeln out thick
  let out := writeln out ("Command:          ".toList ++ report.command)
  let out := writeln out ("Target Filter:    ".toList ++ filterText report.domainPrefixFilter)
  let seconds := F64.div (F64.ofNat report.executionTimeMs) 1000
  let out := writeln out ("Execution Time:   ".toList ++ F64.toFixed2 seconds ++ ['s'])
  let out := writeln out ("Exit Code:        ".toList ++ exitCodeText report.exitCode)
  let out := writeln out []
  let out := writeln out "DOMAIN / ENDPOINT SUMMARY:".toList
  let out := writeln out thin
  let out := writeln out (columns "ENDPOINT / DOMAIN".toList "INGRESS (Rx)".toList
    "EGRESS (Tx)".toList "CONNS".toList)
  let out := writeln out thin
  let shown := report.endpoints.filter (·.matchesFilter)
  let out := if shown.isEmpty then writeln out noTraffic else out
  let out := shown.foldl (fun out endpoint => writeln out (row endpoint)) out
  let out := writeln out thin
  let out := [("TOTAL (Matching Filter):".toList, report.totals.matchingFilter),
    ("TOTAL (All Destinations):".toList, report.totals.allDestinations)].foldl
      (fun out total => writeln out (totalRow total.1 total.2)) out
  writeln out thick

example : formatBytes 149760000 = "142.82 MB".toList := by decide +kernel

end Wiretally.Reports
