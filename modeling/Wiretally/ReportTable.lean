import Wiretally.HostKeys
import Wiretally.ReportTotals
import Wiretally.Transcript

/-!
The table of a report, line by line.

Every column is as wide as it may become, whatever the counters say, and a name is cut to the
width of its own. So each endpoint has one line, with its columns where they belong, as long as no
name ends a line.
-/

namespace Wiretally.ReportTable

open Wiretally.Lib Wiretally.Lib.AsyncIo Wiretally.Lib.Tcp Wiretally.Lib.Split Wiretally.Net
open Wiretally.Text Wiretally.Stats Wiretally.Socks Wiretally.SocksAccept Wiretally.Proxy
open Wiretally.Transcript Wiretally.HostKeys Wiretally.Reports Wiretally.ReportTotals

/-! ### The lines of a report -/

/-- The lines of a text, each of which ends with a line feed. -/
def lines (text : Text) : List Text := records '\n' text

def thin : Text := List.replicate rule '-'

/-- The lines between the last two thin rules. -/
def tableBody (text : Text) : List Text := ((lines text).splitOn thin).dropLast.getLastD []

/-- The endpoints that have a row. -/
def shown (report : Report) : List Endpoint := report.endpoints.filter (·.matchesFilter)

/-- A line of 73 characters with the four columns of the endpoint, each in its place. -/
structure Shows (endpoint : Endpoint) (line : Text) : Prop where
  length : line.length = 73
  domain : line.take 34 = padRight 34 (elide endpoint.domain 33)
  ingress : (line.drop 34).take 14 = padLeft 14 (formatBytes endpoint.ingressBytes)
  egress : (line.drop 48).take 17 = padLeft 17 (formatBytes endpoint.egressBytes)
  conns : line.drop 65 = padLeft 8 (Nat.toDigits 10 endpoint.connections.toNat)

/-- The table is one line for each endpoint that has a row, in order. -/
def KeepsTable (report : Report) : Prop :=
  List.Forall₂ Shows (shown report) (tableBody report.toText)

/-- What is left of a name when it is too long. -/
def shownPart (name : Text) : Text := if name.length ≤ 33 then name else name.take 32

/-! ### Widths -/

lemma length_elide (name : Text) : (elide name 33).length ≤ 33 := by
  unfold elide
  split_ifs with h
  · exact h
  · rw [List.length_append, List.length_take, List.length_singleton]
    omega

/-- Every unit there is divides by 1024, and rounding gives back no more than half of that. -/
lemma scale_le {value : ℚ} (h : 0 ≤ value) (unit : Text) (rest : List Text) :
    (scale value unit rest).1 ≤ max 1024 (value / 512 ^ rest.length) := by
  induction rest generalizing value unit with
  | nil => exact le_max_of_le_right (by simp [scale])
  | cons next rest ih =>
    unfold scale
    split_ifs with hlt
    · exact le_max_of_le_left hlt.le
    · have hdiv : F64.div value 1024 ≤ value / 512 :=
        (F64.div_le h (by norm_num)).trans (by linarith)
      refine (ih (F64.div_nonneg_of_nonneg h (by norm_num)) next).trans (max_le_max_left _ ?_)
      rw [List.length_cons, pow_succ', ← div_div]
      gcongr

lemma scale_unit_mem (value : ℚ) (unit : Text) (rest : List Text) :
    (scale value unit rest).2 ∈ unit :: rest := by
  induction rest generalizing value unit with
  | nil => exact List.mem_singleton_self unit
  | cons next rest ih =>
    unfold scale
    split_ifs
    · exact List.mem_cons_self
    · exact List.mem_cons_of_mem _ (ih _ next)

/-- The number and the unit a count is shown with. -/
lemma formatBytes_cases (bytes : UInt64) :
    (bytes.toNat < 1024 ∧ formatBytes bytes = Nat.toDigits 10 bytes.toNat ++ " B".toList) ∨
    ∃ value, ∃ unit ∈ units, value ≤ 10 ^ 8 - 1 ∧
      formatBytes bytes = F64.toFixed2 value ++ [' '] ++ unit := by
  unfold formatBytes
  split_ifs with h
  · exact .inl ⟨h, rfl⟩
  · right
    have hn : (bytes.toNat : ℚ) < 2 ^ 64 := by exact_mod_cast bytes.toNat_lt
    have hfirst : F64.div (F64.ofNat bytes.toNat) 1024 ≤ 2 ^ 56 := by
      have hdiv := F64.div_le (F64.ofNat_nonneg bytes.toNat) (y := 1024) (by norm_num)
      have hofNat := F64.ofNat_le bytes.toNat
      linarith
    have hnonneg : 0 ≤ F64.div (F64.ofNat bytes.toNat) 1024 :=
      F64.div_nonneg_of_nonneg (F64.ofNat_nonneg _) (by norm_num)
    refine ⟨_, _, ?_, ?_, rfl⟩
    · exact scale_unit_mem _ _ units.tail
    · refine (scale_le hnonneg _ units.tail).trans (max_le (by norm_num) ?_)
      have htail : units.tail.length = 4 := rfl
      rw [htail, div_le_iff₀ (by norm_num)]
      linarith

lemma length_formatBytes (bytes : UInt64) : (formatBytes bytes).length ≤ 14 := by
  rcases formatBytes_cases bytes with ⟨hlt, h⟩ | ⟨value, unit, hunit, hvalue, h⟩
  · have hlen := (Nat.length_toDigits_le_iff (b := 10) (k := 4) (by decide) (by decide)).mpr
      (Nat.lt_trans hlt (by decide))
    rw [h, List.length_append]
    exact Nat.add_le_add hlen (by decide +kernel : " B".toList.length ≤ 10)
  · have hlen := F64.length_toFixed2_le (k := 8) (by decide) hvalue
    have hname : ∀ u ∈ units, u.length = 2 := by decide +kernel
    rw [h, List.length_append, List.length_append, List.length_singleton, hname unit hunit]
    omega

/-! ### Rows -/

lemma newline_not_mem_toDigits (n : ℕ) : '\n' ∉ Nat.toDigits 10 n := fun h => by
  cases Nat.isDigit_of_mem_toDigits (by decide) (by decide) h

lemma newline_not_mem_formatBytes (bytes : UInt64) : '\n' ∉ formatBytes bytes := by
  rcases formatBytes_cases bytes with ⟨-, h⟩ | ⟨value, unit, hunit, -, h⟩
  · rw [h, List.mem_append]
    rintro (hd | hb)
    · exact newline_not_mem_toDigits _ hd
    · exact absurd hb (by decide +kernel)
  · have hunits : ∀ u ∈ units, '\n' ∉ u := by decide +kernel
    rw [h, List.mem_append, List.mem_append]
    rintro ((hv | hs) | hu)
    · rcases F64.mem_toFixed2 hv with hd | hdot
      · cases hd
      · cases hdot
    · cases List.mem_singleton.mp hs
    · exact hunits unit hunit hu

lemma mem_pad {width : ℕ} {s : Text} {c : Char} (hc : c ≠ ' ') :
    (c ∈ padRight width s ↔ c ∈ s) ∧ (c ∈ padLeft width s ↔ c ∈ s) := by
  constructor
  · simp [padRight, List.mem_replicate, hc]
  · simp [padLeft, List.mem_replicate, hc]

lemma newline_mem_columns (name : Text) (ingress egress conns : UInt64) :
    '\n' ∈ columns name (formatBytes ingress) (formatBytes egress)
      (Nat.toDigits 10 conns.toNat) ↔ '\n' ∈ name := by
  have hspace : '\n' ≠ ' ' := by decide
  unfold columns
  rw [List.mem_append, List.mem_append, List.mem_append, (mem_pad hspace).1, (mem_pad hspace).2,
    (mem_pad hspace).2, (mem_pad hspace).2]
  simp only [newline_not_mem_formatBytes, newline_not_mem_toDigits, or_false]

lemma newline_mem_elide (name : Text) : '\n' ∈ elide name 33 ↔ '\n' ∈ shownPart name := by
  unfold elide shownPart
  split_ifs
  · rfl
  · rw [List.mem_append]
    exact or_iff_left (by decide)

lemma newline_mem_row (endpoint : Endpoint) :
    '\n' ∈ row endpoint ↔ '\n' ∈ shownPart endpoint.domain :=
  (newline_mem_columns _ _ _ _).trans (newline_mem_elide endpoint.domain)

lemma length_padRight {width : ℕ} {s : Text} (h : s.length ≤ width) :
    (padRight width s).length = width := by
  rw [padRight, List.length_append, List.length_replicate, Nat.add_sub_cancel' h]

lemma length_padLeft {width : ℕ} {s : Text} (h : s.length ≤ width) :
    (padLeft width s).length = width := by
  rw [padLeft, List.length_append, List.length_replicate, Nat.sub_add_cancel h]

lemma length_name (name : Text) : (padRight 34 (elide name 33)).length = 34 :=
  length_padRight (Nat.le_succ_of_le (length_elide name))

lemma length_ingress (bytes : UInt64) : (padLeft 14 (formatBytes bytes)).length = 14 :=
  length_padLeft (length_formatBytes bytes)

lemma length_egress (bytes : UInt64) : (padLeft 17 (formatBytes bytes)).length = 17 :=
  length_padLeft (Nat.le_trans (length_formatBytes bytes) (by decide))

lemma length_conns {conns : UInt64} (h : conns.toNat < 10 ^ 8) :
    (padLeft 8 (Nat.toDigits 10 conns.toNat)).length = 8 :=
  length_padLeft ((Nat.length_toDigits_le_iff (by decide) (by decide)).mpr h)

/-- **A row has its columns in place**, whatever the name and the counters of bytes. -/
theorem shows_row {endpoint : Endpoint} (hconns : endpoint.connections.toNat < 10 ^ 8) :
    Shows endpoint (row endpoint) := by
  have hname := length_name endpoint.domain
  have hingress := length_ingress endpoint.ingressBytes
  have hegress := length_egress endpoint.egressBytes
  have hcount := length_conns hconns
  have hrow : row endpoint = padRight 34 (elide endpoint.domain 33) ++
      padLeft 14 (formatBytes endpoint.ingressBytes) ++
      padLeft 17 (formatBytes endpoint.egressBytes) ++
      padLeft 8 (Nat.toDigits 10 endpoint.connections.toNat) := rfl
  constructor
  · rw [hrow, List.length_append, List.length_append, List.length_append, hname, hingress, hegress,
      hcount]
  · rw [hrow, List.append_assoc, List.append_assoc]
    exact List.take_left' hname
  · rw [hrow, List.append_assoc, List.append_assoc, List.drop_left' hname]
    exact List.take_left' hingress
  · rw [hrow, List.append_assoc, List.drop_left' (by rw [List.length_append, hname, hingress])]
    exact List.take_left' hegress
  · rw [hrow]
    exact List.drop_left' (by rw [List.length_append, List.length_append, hname, hingress, hegress])

/-! ### Between the rules -/

lemma lines_unlines (ls : List Text) : lines (unlines ls) = ls.flatMap (·.splitOn '\n') :=
  records_flatMap ls

/-- A line of a row is too short for a rule. -/
lemma thin_not_mem_rows {rows : List Endpoint}
    (hconns : ∀ e ∈ rows, e.connections.toNat < 10 ^ 8) :
    thin ∉ (rows.map row).flatMap (·.splitOn '\n') := by
  intro hmem
  obtain ⟨line, hline, hmem⟩ := List.mem_flatMap.mp hmem
  obtain ⟨e, he, rfl⟩ := List.mem_map.mp hline
  have hle := length_le_of_mem_splitOn hmem
  rw [(shows_row (hconns e he)).length] at hle
  exact absurd hle (by decide)

lemma totals_lines (totals : TotalsBreakdown) : ∃ back, closing totals = thin :: back ∧
    back.flatMap (·.splitOn '\n') = back ∧ thin ∉ back := by
  have hlabel : ∀ label : Text, '\n' ∉ label → 'T' ∈ label → ∀ t : Totals,
      '\n' ∉ totalRow label t ∧ thin ≠ totalRow label t := by
    intro label hline hmem t
    refine ⟨mt (newline_mem_columns _ _ _ _).mp hline, fun he => ?_⟩
    have hT : 'T' ∈ totalRow label t :=
      List.mem_append_left _ (List.mem_append_left _ (List.mem_append_left _
        ((mem_pad (by decide)).1.mpr hmem)))
    rw [← he] at hT
    cases List.eq_of_mem_replicate hT
  have hmatching := hlabel "TOTAL (Matching Filter):".toList (by decide +kernel) (by decide +kernel)
    totals.matchingFilter
  have hall := hlabel "TOTAL (All Destinations):".toList (by decide +kernel) (by decide +kernel)
    totals.allDestinations
  have hthick : '\n' ∉ List.replicate rule '=' ∧ thin ≠ List.replicate rule '=' := by decide
  refine ⟨_, rfl, flatMap_splitOn_of_not_mem ?_, ?_⟩
  · simp only [List.forall_mem_cons, List.not_mem_nil]
    exact ⟨hmatching.1, hall.1, hthick.1, nofun⟩
  · simp only [List.mem_cons, List.not_mem_nil, not_or]
    exact ⟨hmatching.2, hall.2, hthick.2, id⟩

/-- **What is between the rules** is what the rows come to as lines. -/
theorem tableBody_toText {report : Report} (hshown : shown report ≠ [])
    (hconns : ∀ e ∈ shown report, e.connections.toNat < 10 ^ 8) :
    tableBody report.toText = ((shown report).map row).flatMap (·.splitOn '\n') := by
  obtain ⟨back, hclosing, hlines, hback⟩ := totals_lines report.totals
  obtain ⟨front, hfront⟩ : ∃ front, heading report.command report.domainPrefixFilter
      report.executionTimeMs report.exitCode = front ++ [thin] :=
    ⟨_, (List.dropLast_append_getLast (List.cons_ne_nil _ _)).symm⟩
  have hthin : thin.splitOn '\n' = [thin] :=
    splitOn_of_not_mem fun h => by cases List.eq_of_mem_replicate h
  have htable : tableLines (shown report) = (shown report).map row := if_neg hshown
  have htext : lines report.toText = front.flatMap (·.splitOn '\n') ++
      thin :: (((shown report).map row).flatMap (·.splitOn '\n') ++ thin :: back) := by
    rw [toText_eq, lines_unlines, hfront, hclosing]
    change List.flatMap _ (front ++ [thin] ++ tableLines (shown report) ++ thin :: back) = _
    rw [htable, List.flatMap_append, List.flatMap_append, List.flatMap_append, List.flatMap_cons,
      List.flatMap_nil, List.flatMap_cons, hthin, hlines]
    simp only [List.append_assoc, List.cons_append, List.nil_append]
  unfold tableBody
  rw [htext]
  exact getLastD_dropLast_splitOn _ (thin_not_mem_rows hconns) hback

section Tables

variable {report : Report}

/-- A name that ends a line leaves more lines than endpoints. -/
lemma names_of_keepsTable (hshown : shown report ≠ [])
    (hconns : ∀ e ∈ shown report, e.connections.toNat < 10 ^ 8) (h : KeepsTable report) :
    ∀ e ∈ shown report, '\n' ∉ shownPart e.domain := by
  unfold KeepsTable at h
  rw [tableBody_toText hshown hconns] at h
  have hlen := h.length_eq.symm
  rw [← List.length_map row] at hlen
  have hline := (length_flatMap_splitOn_iff _).mp hlen
  exact fun e he => mt (newline_mem_row e).mpr (hline _ (List.mem_map_of_mem he))

lemma keepsTable_of_names (hshown : shown report ≠ [])
    (hconns : ∀ e ∈ shown report, e.connections.toNat < 10 ^ 8)
    (h : ∀ e ∈ shown report, '\n' ∉ shownPart e.domain) : KeepsTable report := by
  have hline : ∀ r ∈ (shown report).map row, '\n' ∉ r := by
    rw [List.forall_mem_map]
    exact fun e he => mt (newline_mem_row e).mp (h e he)
  unfold KeepsTable
  rw [tableBody_toText hshown hconns, flatMap_splitOn_of_not_mem hline,
    List.forall₂_map_right_iff, List.forall₂_same]
  exact fun e he => shows_row (hconns e he)

/-- **The table and its names.** Each endpoint has one line with its columns in place, in order,
exactly if no name ends a line in the part of it that is shown. -/
theorem keepsTable_iff (hshown : shown report ≠ [])
    (hconns : ∀ e ∈ shown report, e.connections.toNat < 10 ^ 8) :
    KeepsTable report ↔ ∀ e ∈ shown report, '\n' ∉ shownPart e.domain :=
  ⟨names_of_keepsTable hshown hconns, keepsTable_of_names hshown hconns⟩

end Tables

def curl : Report :=
  Report.new "curl x".toList (some "example.com".toList) 1000 0
    [⟨"a.example.com".toList, some localhost, 100, 10, 1, true⟩,
      ⟨"other.dev".toList, some localhost, 5, 1, 1, false⟩]

theorem keepsTable_iff_curl :
    KeepsTable curl ↔ ∀ e ∈ shown curl, '\n' ∉ shownPart e.domain :=
  keepsTable_iff (by decide +kernel) (by decide +kernel)

/-! ### Names with a line feed -/

def asksFor (name : Text) : TcpStream where
  unread := version :: 1 :: ([methodNone] ++ (version :: cmdConnect :: 0 :: atypDomain ::
    (.ofNat (asBytes name).length :: asBytes name ++ [0x01, 0xBB])))
  segment _ := 1
  fate := .silent
  written := []
  broken := none

def unresolved : Outside where
  nodelay := .ok ()
  connect _ _ := .err ⟨.other, "failed to lookup address information"⟩
  bindRelay := .ok ()
  relayAddr := .ok ⟨localhost, 1080⟩

lemma accept_asksFor {name : Text} (h : (asBytes name).length ≤ 255) :
    accept (asksFor name) = (.ok (.connect ⟨canonical name, 443⟩), { asksFor name with
      unread := []
      written := [version, methodNone] }) := by
  have haddr : Address atypDomain (.ofNat (asBytes name).length :: asBytes name)
      (canonical name) :=
    address_of_name ⟨_, UInt8.toNat_ofNat_of_lt' (Nat.lt_succ_of_le h), rfl, rfl⟩
  have hrequest : RequestBytes (version :: cmdConnect :: 0 :: atypDomain ::
      (.ofNat (asBytes name).length :: asBytes name ++ List.Vector.toList ⟨[0x01, 0xBB], rfl⟩))
      (.connect ⟨canonical name, 443⟩) := .mk haddr (.connect _)
  have hbytes : HandshakeBytes (asksFor name).unread (.connect ⟨canonical name, 443⟩) :=
    .mk (by decide) (by decide) hrequest
  have hv := verdict_of_handshake (asksFor name).fate [] hbytes
  rw [List.append_nil] at hv
  rw [accept_of_verdict rfl hv]
  unfold TcpStream.consume TcpStream.put
  rw [List.drop_length]
  rfl

/-- **What a client can have recorded**: any name of up to 255 bytes, in its normal form, whether
it is a name of anything or not. -/
theorem recorded_asksFor {name : Text} (h : (asBytes name).length ≤ 255) (reg : Registry) :
    (handleConnection unresolved ⟨asksFor name, reg⟩).2.registry =
      (reg.endpoint (canonical name)).2 := by
  have hserve : handleConnection unresolved ⟨asksFor name, reg⟩ =
      serveSocks unresolved ⟨asksFor name, reg⟩ :=
    (handleConnection_of_ok rfl _).trans (dispatch_of_greeting rfl unresolved reg)
  rw [hserve, serveSocks_ok (accept_asksFor h)]
  simp only
  rw [connectAndSplice_refused rfl [] rfl]

/-- The report of a run in which all that happened is that a name was asked for. -/
def reportOf (name : Text) : Report :=
  Report.new "curl x".toList none 1000 0
    ((handleConnection unresolved ⟨asksFor name, Registry.new⟩).2.registry.snapshot none)

lemma snapshot_endpoint_new (host : Text) :
    (Registry.new.endpoint host).2.snapshot none = [⟨host, none, 0, 0, 0, true⟩] := rfl

lemma shown_reportOf {name : Text} (h : (asBytes name).length ≤ 255) :
    shown (reportOf name) = [⟨canonical name, none, 0, 0, 0, true⟩] := by
  unfold shown reportOf Report.new
  rw [recorded_asksFor h, snapshot_endpoint_new]
  rfl

lemma rows_reportOf {name : Text} (h : (asBytes name).length ≤ 255) :
    shown (reportOf name) ≠ [] ∧ ∀ e ∈ shown (reportOf name), e.connections.toNat < 10 ^ 8 := by
  rw [shown_reportOf h]
  refine ⟨List.cons_ne_nil _ _, fun e he => ?_⟩
  rw [List.mem_singleton.mp he]
  exact (by decide : (0 : UInt64).toNat < 10 ^ 8)

lemma tableBody_reportOf {name : Text} (h : (asBytes name).length ≤ 255) :
    tableBody (reportOf name).toText =
      (row ⟨canonical name, none, 0, 0, 0, true⟩).splitOn '\n' := by
  obtain ⟨hshown, hconns⟩ := rows_reportOf h
  rw [tableBody_toText hshown hconns, shown_reportOf h]
  exact List.append_nil _

/-- No name that ends a line where it is shown leaves the table as it should be. -/
theorem not_keepsTable_reportOf {name : Text} (h : (asBytes name).length ≤ 255)
    (hline : '\n' ∈ shownPart (canonical name)) : ¬ KeepsTable (reportOf name) := by
  intro hkeeps
  obtain ⟨hshown, hconns⟩ := rows_reportOf h
  have hnames := names_of_keepsTable hshown hconns hkeeps
  rw [shown_reportOf h] at hnames
  exact hnames _ (List.mem_singleton_self _) hline

/-- The one endpoint takes two lines, neither of which has the width of a row. -/
theorem twoLines_not_keepsTable :
    (reportOf ['a', '\n', 'b']).endpoints = [⟨['a', '\n', 'b'], none, 0, 0, 0, true⟩] ∧
    (tableBody (reportOf ['a', '\n', 'b']).toText).map List.length = [1, 71] ∧
    ¬ KeepsTable (reportOf ['a', '\n', 'b']) := by
  have hlen : (asBytes ['a', '\n', 'b']).length ≤ 255 := by decide +kernel
  refine ⟨by decide +kernel, ?_, not_keepsTable_reportOf hlen (by decide +kernel)⟩
  rw [tableBody_reportOf hlen]
  decide +kernel

end Wiretally.ReportTable
