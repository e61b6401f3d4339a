import Mathlib.Algebra.Order.BigOperators.Group.List
import Wiretally.DomainFilter
import Wiretally.Registry
import Wiretally.Reports

/-!
What a report says of a registry under a filter.

A filter marks rows and hides the others from the table. It changes neither the rows nor the
totals over all of them, and as long as these totals fit their counters, the totals over the
rows marked and over those not marked add up to them.
-/

namespace Wiretally.ReportTotals

open Wiretally.Lib Wiretally.Stats Wiretally.Stats.EndpointStats Wiretally.Registry
open Wiretally.Reports Wiretally.DomainFilter

/-! ### Totals are sums -/

def trueSum (rows : List Endpoint) (c : Counter) : ℕ := (rows.map fun e => (e.count c).toNat).sum

lemma count_add (t : Totals) (e : Endpoint) (c : Counter) :
    (t.add e).count c = t.count c + e.count c := by
  cases c <;> rfl

lemma count_of_totals (rows : List Endpoint) (c : Counter) :
    (Totals.of rows).count c = (rows.map (·.count c)).sum := by
  have hfold : ∀ t : Totals, (rows.foldl Totals.add t).count c =
      t.count c + (rows.map (·.count c)).sum := by
    intro t
    induction rows generalizing t with
    | nil => simp
    | cons e rows ih => rw [List.foldl_cons, ih, count_add, List.map_cons, List.sum_cons, add_assoc]
  have hzero : Totals.default.count c = 0 := by cases c <;> rfl
  rw [Totals.of, hfold, hzero, zero_add]

lemma ext_totals {s t : Totals} (h : ∀ c, s.count c = t.count c) : s = t := by
  obtain ⟨si, se, sc⟩ := s
  obtain ⟨ti, te, tc⟩ := t
  obtain rfl : si = ti := h .ingress
  obtain rfl : se = te := h .egress
  obtain rfl : sc = tc := h .connections
  rfl

lemma toNat_totals {rows : List Endpoint} {c : Counter} (h : trueSum rows c < 2 ^ 64) :
    ((Totals.of rows).count c).toNat = trueSum rows c := by
  rw [count_of_totals]
  unfold trueSum at h ⊢
  induction rows with
  | nil => rfl
  | cons e rows ih =>
    simp only [List.map_cons, List.sum_cons] at h ⊢
    rw [UInt64.toNat_add, ih (by omega), Nat.mod_eq_of_lt h]

lemma trueSum_le {rows rows' : List Endpoint} (h : rows.Sublist rows') (c : Counter) :
    trueSum rows c ≤ trueSum rows' c :=
  (h.map _).sum_le_sum fun _ _ => Nat.zero_le _

lemma trueSum_filter (p : Endpoint → Bool) (rows : List Endpoint) (c : Counter) :
    trueSum (rows.filter p) c + trueSum (rows.filter fun e => !p e) c = trueSum rows c := by
  unfold trueSum
  induction rows with
  | nil => rfl
  | cons e rows ih =>
    cases hp : p e <;> simp [hp] <;> omega

/-! ### Snapshots under a filter -/

section Snapshots

variable (r : Registry)

/-- The true sum of a counter over the hosts recorded that fall under a filter. -/
def recorded (f : Option Text) (c : Counter) : ℕ :=
  ((r.hosts.filter fun e => matchesDomain e.1 f).map fun e => ((r.heap e.2).count c).toNat).sum

variable {r} {f g : Option Text} {listing listing' : List (Text × Arc)}

lemma matches_of_mem (hl : HashMap.Lists r.endpoints listing) {e : Endpoint}
    (he : e ∈ r.snapshotOf f listing) : e.matchesFilter = matchesDomain e.domain f := by
  obtain ⟨s, -, heq⟩ := (mem_snapshotOf r f hl e).mp he
  exact congrArg Endpoint.matchesFilter heq

lemma perm_snapshotOf (f : Option Text) (hl : HashMap.Lists r.endpoints listing) :
    (r.snapshotOf f listing).Perm (r.hosts.map fun e => Endpoint.of f e.1 (r.heap e.2)) :=
  (List.perm_insertionSort _ _).trans (hl.map _)

/-- The rows marked hold what is recorded under the filter. -/
lemma trueSum_shown (hl : HashMap.Lists r.endpoints listing) (c : Counter) :
    trueSum ((r.snapshotOf f listing).filter (·.matchesFilter)) c = recorded r f c := by
  unfold trueSum recorded
  rw [(((perm_snapshotOf f hl).filter _).map _).sum_eq, List.filter_map, List.map_map]
  congr 1

lemma recorded_none_eq (c : Counter) :
    recorded r none c = (r.hosts.map fun e => ((r.heap e.2).count c).toNat).sum := by
  have hall : r.hosts.filter (fun e => matchesDomain e.1 none) = r.hosts :=
    List.filter_eq_self.mpr fun _ _ => rfl
  rw [recorded, hall]

lemma trueSum_snapshotOf (hl : HashMap.Lists r.endpoints listing) (c : Counter) :
    trueSum (r.snapshotOf f listing) c = recorded r none c := by
  unfold trueSum
  rw [recorded_none_eq, ((perm_snapshotOf f hl).map _).sum_eq, List.map_map]
  congr 1

lemma recorded_mono (h : ∀ domain, matchesDomain domain g = true → matchesDomain domain f = true)
    (c : Counter) : recorded r g c ≤ recorded r f c :=
  ((List.monotone_filter_right r.hosts fun e => h e.1).map _).sum_le_sum fun _ _ => Nat.zero_le _

end Snapshots

/-! ### The text form -/

def tableLines (shown : List Endpoint) : List Text :=
  if shown = [] then [noTraffic] else shown.map row

def unlines (lines : List Text) : Text := lines.flatMap (· ++ ['\n'])

def heading (command : Text) (filter : Option Text) (ms : ℕ) (code : Int32) : List Text :=
  [List.replicate rule '=', padCenter rule "WIRETALLY TRAFFIC SUMMARY".toList,
    List.replicate rule '=', "Command:          ".toList ++ command,
    "Target Filter:    ".toList ++ filterText filter,
    "Execution Time:   ".toList ++ F64.toFixed2 (F64.div (F64.ofNat ms) 1000) ++ ['s'],
    "Exit Code:        ".toList ++ exitCodeText code, [], "DOMAIN / ENDPOINT SUMMARY:".toList,
    List.replicate rule '-',
    columns "ENDPOINT / DOMAIN".toList "INGRESS (Rx)".toList "EGRESS (Tx)".toList "CONNS".toList,
    List.replicate rule '-']

def closing (totals : TotalsBreakdown) : List Text :=
  [List.replicate rule '-', totalRow "TOTAL (Matching Filter):".toList totals.matchingFilter,
    totalRow "TOTAL (All Destinations):".toList totals.allDestinations, List.replicate rule '=']

lemma writeln_unlines (lines : List Text) (line : Text) :
    writeln (unlines lines) line = unlines (lines ++ [line]) := by
  simp [writeln, unlines]

lemma foldl_writeln {α : Type} (line : α → Text) (lines : List Text) (xs : List α) :
    xs.foldl (fun out x => writeln out (line x)) (unlines lines) =
      unlines (lines ++ xs.map line) := by
  induction xs generalizing lines with
  | nil => simp
  | cons x xs ih => simp [writeln_unlines, ih]

lemma writeln_nil (line : Text) : writeln [] line = unlines [line] := by
  simp [writeln, unlines]

/-- **The text is its lines.** -/
theorem toText_eq (report : Report) :
    report.toText = unlines
      (heading report.command report.domainPrefixFilter report.executionTimeMs report.exitCode ++
        tableLines (report.endpoints.filter (·.matchesFilter)) ++ closing report.totals) := by
  unfold Report.toText tableLines heading closing
  by_cases hshown : report.endpoints.filter (·.matchesFilter) = []
  · simp only [writeln_nil, writeln_unlines, hshown, List.isEmpty_nil, if_true, List.foldl_nil,
      List.foldl_cons, List.cons_append, List.nil_append]
  · simp only [writeln_nil, writeln_unlines, List.isEmpty_iff, hshown, if_false, foldl_writeln,
      List.foldl_nil, List.foldl_cons, List.append_assoc, List.cons_append, List.nil_append]

lemma length_columns (domain ingress egress conns : Text) :
    73 ≤ (columns domain ingress egress conns).length := by
  simp only [columns, padRight, padLeft, domainCol, List.length_append, List.length_replicate]
  omega

/-- A row is no line that says there is none. -/
lemma noTraffic_mem_tableLines (shown : List Endpoint) : noTraffic ∈ tableLines shown ↔ shown = [] := by
  unfold tableLines
  split_ifs with h
  · simp [h]
  · refine iff_of_false (fun hmem => ?_) h
    obtain ⟨e, -, he⟩ := List.mem_map.mp hmem
    have hlen := length_columns (elide e.domain (domainCol - 1)) (formatBytes e.ingressBytes)
      (formatBytes e.egressBytes) (Nat.toDigits 10 e.connections.toNat)
    change 73 ≤ (row e).length at hlen
    rw [he] at hlen
    exact absurd hlen (by decide)

/-! ### Reports -/

section Reports

variable {r : Registry} {listing listing' : List (Text × Arc)}

lemma allDestinations_eq {f g : Option Text} (hl : HashMap.Lists r.endpoints listing)
    (hl' : HashMap.Lists r.endpoints listing') :
    Totals.of (r.snapshotOf f listing) = Totals.of (r.snapshotOf g listing') := by
  refine ext_totals fun c => ?_
  rw [count_of_totals, count_of_totals, sum_snapshotOf r f hl, sum_snapshotOf r g hl']

/-- **What a filter does to a report.** For any registry whose true sums fit their counters and
any two filters: the totals over all destinations are the same; the totals over the rows marked
and over the others add up to them; an absent filter, or one empty in its normal form, marks
every row; a filter that itself falls under another marks fewer rows and totals no more; and the
table has a line for each row marked, in order, or the one that says there is none. -/
theorem report_spec {f g : Option Text} (hfit : ∀ c, recorded r none c < 2 ^ 64)
    (hl : HashMap.Lists r.endpoints listing) (hl' : HashMap.Lists r.endpoints listing')
    (command : Text) (filter : Option Text) (ms : ℕ) (code : Int32) :
    let report := Report.new command filter ms code (r.snapshotOf f listing)
    let report' := Report.new command filter ms code (r.snapshotOf g listing')
    report'.totals.allDestinations = report.totals.allDestinations ∧
    (∀ c, (report.totals.matchingFilter.count c).toNat +
        ((Totals.of (report.endpoints.filter fun e => !e.matchesFilter)).count c).toNat =
      (report.totals.allDestinations.count c).toNat ∧
      (report.totals.allDestinations.count c).toNat = recorded r none c) ∧
    ((∀ text, f = some text → normalise text = []) →
      report.totals.matchingFilter = report.totals.allDestinations) ∧
    (∀ text, g = some text → normalise text ≠ [] → matchesDomain (normalise text) f = true →
      (∀ e ∈ report'.endpoints, e.matchesFilter = true → e ∈ report.endpoints) ∧
      ∀ c, report'.totals.matchingFilter.count c ≤ report.totals.matchingFilter.count c) ∧
    report.toText = unlines (heading command filter ms code ++
      tableLines (report.endpoints.filter (·.matchesFilter)) ++ closing report.totals) ∧
    (noTraffic ∈ tableLines (report.endpoints.filter (·.matchesFilter)) ↔
      ∀ e ∈ report.endpoints, e.matchesFilter = false) := by
  intro report report'
  have hall : ∀ c, ((Totals.of (r.snapshotOf f listing)).count c).toNat = recorded r none c := by
    intro c
    have hsum := trueSum_snapshotOf (f := f) hl c
    rw [toNat_totals (hsum ▸ hfit c), hsum]
  have hpart : ∀ {h : Option Text} {l} (p : Endpoint → Bool) (c : Counter),
      HashMap.Lists r.endpoints l →
      ((Totals.of ((r.snapshotOf h l).filter p)).count c).toNat =
        trueSum ((r.snapshotOf h l).filter p) c := by
    intro h l p c hl
    refine toNat_totals (lt_of_le_of_lt (trueSum_le List.filter_sublist c) ?_)
    rw [trueSum_snapshotOf hl]
    exact hfit c
  refine ⟨allDestinations_eq hl' hl, fun c => ⟨?_, hall c⟩, fun hempty => ?_, ?_,
    toText_eq report, ?_⟩
  · change ((Totals.of ((r.snapshotOf f listing).filter (·.matchesFilter))).count c).toNat +
      ((Totals.of ((r.snapshotOf f listing).filter fun e => !e.matchesFilter)).count c).toNat = _
    rw [hpart _ c hl, hpart _ c hl, trueSum_filter, trueSum_snapshotOf hl]
    exact (hall c).symm
  · have hmark : (r.snapshotOf f listing).filter (·.matchesFilter) = r.snapshotOf f listing :=
      List.filter_eq_self.mpr fun e he => by
        rw [matches_of_mem hl he]
        exact matchesDomain_of_empty hempty e.domain
    exact congrArg Totals.of hmark
  · rintro text rfl hne hunder
    have himp : ∀ domain, matchesDomain domain (some text) = true → matchesDomain domain f = true :=
      fun domain => matchesDomain_trans hne hunder
    refine ⟨fun e he hmark => ?_, fun c => ?_⟩
    · obtain ⟨s, hs, heq⟩ := (mem_snapshotOf r _ hl' e).mp he
      refine (mem_snapshotOf r f hl e).mpr ⟨s, hs, heq.trans ?_⟩
      have hg := (matches_of_mem hl' he).symm.trans hmark
      unfold Endpoint.of
      rw [hg, himp _ hg]
    · change (Totals.of _).count c ≤ (Totals.of _).count c
      rw [UInt64.le_iff_toNat_le, hpart _ c hl', hpart _ c hl, trueSum_shown hl', trueSum_shown hl]
      exact recorded_mono himp c
  · rw [noTraffic_mem_tableLines, List.filter_eq_nil_iff]
    exact forall₂_congr fun e _ => Bool.not_eq_true _ ▸ Iff.rfl

/-- A host under `example.com` and one that is not, with some bytes each. -/
def twoHosts : Registry :=
  let (a, r) := Registry.new.endpoint "a.example.com".toList
  let (b, r) := r.endpoint "other.dev".toList
  (r.update a (·.addIngress 100)).update b (·.addIngress 5)

theorem report_spec_twoHosts :
    let all := Totals.of (twoHosts.snapshot (some "com".toList))
    let marked := Totals.of ((twoHosts.snapshot (some "com".toList)).filter (·.matchesFilter))
    let fewer := Totals.of ((twoHosts.snapshot (some "example.com".toList)).filter (·.matchesFilter))
    (marked.count .ingress).toNat + 5 = (all.count .ingress).toNat ∧
      fewer.count .ingress ≤ marked.count .ingress := by
  have hfit : ∀ c, recorded twoHosts none c < 2 ^ 64 := by
    intro c
    cases c <;> decide +kernel
  have hl := HashMap.lists_toList twoHosts.endpoints
  obtain ⟨-, hsplit, -, hunder, -⟩ := report_spec (f := some "com".toList)
    (g := some "example.com".toList) hfit hl hl [] none 0 0
  have hrest : ((Totals.of ((twoHosts.snapshot (some "com".toList)).filter
      fun e => !e.matchesFilter)).count .ingress).toNat = 5 := by decide +kernel
  have hin := (hsplit .ingress).1
  refine ⟨?_, (hunder _ rfl (by decide +kernel) (by decide +kernel)).2 .ingress⟩
  rw [← hrest]
  exact hin

end Reports

end Wiretally.ReportTotals
