import Wiretally.Lookups
import Wiretally.ReportTotals
import Wiretally.Traffic

/-!
From the traffic of a run to its report.

When the drain has returned, hosts that are bare addresses are renamed, the snapshot is taken and
the report is made of it, with the code the child exited with. Where nothing is left at work, each
name is in one row, which holds what was counted for all hosts that go by it, the totals are what
was counted in the run, and the program exits with the code it reports. What is counted of a
tunnel is what was read from its client and written to it.
-/

namespace Wiretally.Summary

open Wiretally.Lib Wiretally.Lib.Run Wiretally.Net Wiretally.Stats Wiretally.Registry
open Wiretally.Resolve Wiretally.Reports Wiretally.Lookups Wiretally.ReportTotals
open Wiretally.DomainFilter Wiretally.Dns

/-! ### How the child ended -/

/-- The word `wait` gives for a child. -/
structure ExitStatus where
  word : Int32

namespace ExitStatus

/-- Exited: the code is in the second byte. -/
def code (status : ExitStatus) : Option Int32 :=
  if status.word &&& 0x7f = 0 then some ((status.word >>> 8) &&& 0xff) else none

/-- Killed by a signal; as a signed byte, one more than what stands for a stop is negative. -/
def signal (status : ExitStatus) : Option Int32 :=
  if ((status.word &&& 0x7f) + 1).toInt8 ≥ 2 then some (status.word &&& 0x7f) else none

end ExitStatus

/-- The code to exit with: that of the child, or the shell's for a signal. -/
def exitCode (status : ExitStatus) : Int32 :=
  match status.code with
  | some code => code
  | none =>
    match status.signal with
    | some signal => 128 + signal
    | none => 1

def u8TryFrom (n : Int32) : Option UInt8 :=
  if 0 ≤ n ∧ n ≤ 255 then some n.toUInt32.toUInt8 else none

/-- What the process itself exits with. -/
def processCode (code : Int32) : UInt8 := (u8TryFrom code).getD 1

lemma and_range (x : Int32) {m : Int32} (hm : m.toBitVec.toNat < 2 ^ 31) :
    0 ≤ (x &&& m).toInt ∧ (x &&& m).toInt ≤ m.toBitVec.toNat := by
  have hnat : (x &&& m).toBitVec.toNat ≤ m.toBitVec.toNat := by
    rw [Int32.toBitVec_and, BitVec.toNat_and]
    exact Nat.and_le_right
  have hint : (x &&& m).toInt = (x &&& m).toBitVec.toNat :=
    BitVec.toInt_eq_toNat_of_lt (by omega)
  omega

lemma processCode_eq {n : Int32} (hlow : 0 ≤ n.toInt) (hhigh : n.toInt ≤ 255) :
    ((processCode n).toNat : ℤ) = n.toInt := by
  have hfits : u8TryFrom n = some n.toUInt32.toUInt8 := by
    refine if_pos ?_
    rw [Int32.le_iff_toInt_le, Int32.le_iff_toInt_le]
    exact ⟨hlow, hhigh⟩
  have hword : n.toInt = n.toUInt32.toNat := by
    have hcond : n.toInt = if 2 * n.toUInt32.toNat < 2 ^ 32 then (n.toUInt32.toNat : ℤ)
        else (n.toUInt32.toNat : ℤ) - 2 ^ 32 := BitVec.toInt_eq_toNat_cond n.toBitVec
    have hlt : n.toUInt32.toNat < 2 ^ 32 := n.toUInt32.toBitVec.isLt
    split_ifs at hcond <;> omega
  rw [processCode, hfits, Option.getD_some, UInt32.toNat_toUInt8]
  omega

/-- **How the child ended, the program ends**: it exits with the code it reports, which is the
child's own, or tells the signal, or is one. -/
lemma exitCode_spec (status : ExitStatus) :
    ((processCode (exitCode status)).toNat : ℤ) = (exitCode status).toInt ∧
    (∀ code, status.code = some code → exitCode status = code) ∧
    (∀ signal, status.code = none → status.signal = some signal →
      (exitCode status).toInt = 128 + signal.toInt) ∧
    (exitCode status = 0 ↔ status.code = some 0) := by
  cases hc : status.code with
  | some code =>
    have heq : exitCode status = code := by
      unfold exitCode
      rw [hc]
    obtain ⟨-, hcode⟩ := Option.ite_none_right_eq_some.mp hc
    have hmask : (0xff : Int32).toBitVec.toNat < 2 ^ 31 := by decide
    obtain ⟨hlow, hhigh⟩ := and_range (status.word >>> 8) hmask
    rw [Option.some.inj hcode] at hlow hhigh
    rw [heq]
    exact ⟨processCode_eq hlow hhigh, fun code' h => Option.some.inj h, nofun, by simp⟩
  | none =>
    cases hs : status.signal with
    | none =>
      have heq : exitCode status = 1 := by
        unfold exitCode
        rw [hc, hs]
      rw [heq]
      exact ⟨by decide, nofun, nofun, by decide⟩
    | some signal =>
      have heq : exitCode status = 128 + signal := by
        unfold exitCode
        rw [hc, hs]
      obtain ⟨-, hsignal⟩ := Option.ite_none_right_eq_some.mp hs
      have hmask : (0x7f : Int32).toBitVec.toNat < 2 ^ 31 := by decide
      obtain ⟨hlow, hhigh⟩ := and_range status.word hmask
      rw [Option.some.inj hsignal] at hlow hhigh
      have h127 : (0x7f : Int32).toBitVec.toNat = 127 := rfl
      have hadd : (128 + signal).toInt = 128 + signal.toInt := by
        have h128 : (128 : Int32).toInt = 128 := by decide
        rw [Int32.toInt_add, h128]
        exact Int.bmod_eq_of_le_mul_two (by omega) (by omega)
      rw [heq]
      refine ⟨processCode_eq (by omega) (by omega), nofun, ?_, ?_⟩
      · rintro signal' - hsome
        rw [← Option.some.inj hsome]
        exact hadd
      · refine iff_of_false (fun hzero => ?_) nofun
        rw [hzero] at hadd
        change (0 : ℤ) = _ at hadd
        omega

/-! ### What the rows are made of -/

section Rows

variable {ptr : IpAddr → Option Text} {r : Registry} {listing : List (Text × Arc)}

/-- The rows there are when the hosts have been renamed. -/
lemma rows_resolve (hptr : ∀ ip name, ptr ip = some name → IpAddr.parse name = none)
    (hl : HashMap.Lists r.endpoints listing) (n : Text) :
    ((resolveIpOnlyEndpoints ptr listing r).row n).isSome = true ↔
      ∃ host ∈ listing.map Prod.fst, canon ptr host = n := by
  have hk : ∀ k, (r.row k).isSome = true → k ∈ listing.map Prod.fst := fun k =>
    (mem_keys_of_row hl k).mp
  rw [row_resolve, Rekey.moveAll_isSome_iff (HashMap.nodup_lists hl) (unchained_renamed hptr _) hk]
  simp only [canon_eq_dest, renamed_eq_reverseName hptr, mem_keys_of_row hl]

lemma value_resolve (hptr : ∀ ip name, ptr ip = some name → IpAddr.parse name = none)
    (hl : HashMap.Lists r.endpoints listing) (n : Text) (c : Counter) :
    value (resolveIpOnlyEndpoints ptr listing r) n c =
      (((listing.map Prod.fst).filter fun host => canon ptr host = n).map (value r · c)).sum := by
  have hk : ∀ k, (r.row k).isSome = true → k ∈ listing.map Prod.fst := fun k =>
    (mem_keys_of_row hl k).mp
  have hweight := Rekey.weight_moveAll (f := fun s => s.count c)
    (fun e s => count_absorbStats e s c) (HashMap.nodup_lists hl)
    (unchained_renamed hptr (listing.map Prod.fst)) hk n
  simp only [canon_eq_dest, ← renamed_eq_reverseName hptr]
  rw [← row_resolve] at hweight
  exact hweight

end Rows

/-! ### The report -/

section Report

variable {cap : UInt64} {acts : List Traffic.Act} {w : Traffic.World cap}

/-- What a run has taken for a host and brought back from it, and how often it has connected to
it. The bytes of a tunnel are those read from its client and written to it. -/
def traffic (acts : List Traffic.Act) (w : Traffic.World cap) (host : Text) : Counter → UInt64
  | .egress => ((w.flowsTo host).map fun f => UInt64.ofNat f.sent.length).sum +
      Traffic.relays cap host .egress acts
  | .ingress => ((w.flowsTo host).map fun f => UInt64.ofNat f.got.length).sum +
      Traffic.relays cap host .ingress acts
  | .connections => UInt64.ofNat ((w.flowsTo host).countP Traffic.Flow.isOpen) +
      Traffic.relays cap host .connections acts

lemma value_traffic (h : run Traffic.step (Traffic.World.start : Traffic.World cap) acts = some w)
    (host : Text) (c : Counter) : value w.registry host c = traffic acts w host c := by
  obtain ⟨hegress, hingress, hconnections⟩ := Traffic.sum_counted (Traffic.sound_run h) host
  rw [Traffic.value_run h]
  cases c with
  | egress => rw [hegress, traffic]
  | ingress => rw [hingress, traffic]
  | connections => rw [hconnections, traffic]

/-- A run comes to its end: the drain has returned with nothing left at work, and the hosts
listed then have all been looked up, by tasks none of which was aborted; an address is always
answered alike, and by no name that is itself an address. -/
structure Ends (resolver : Bool) (lookup : IpAddr → Option (List RData)) (acts : List Traffic.Act)
    (w : Traffic.World cap) (listing : List (Text × Arc)) (looks : List Lookups.Act)
    (v : Lookups.World) : Prop where
  traffic : run Traffic.step (Traffic.World.start : Traffic.World cap) acts = some w
  listed : HashMap.Lists w.registry.endpoints listing
  lookups : run (Lookups.step resolver) (Lookups.start listing w.registry) looks = some v
  joined : v.joined = (ipHosts listing).length
  completed : ∀ i, Lookups.Act.abort i ∉ looks
  alike : ∀ e ∈ answered listing looks, e.2 = lookup e.1
  names : ∀ ip name, named (lookup ip) = some name → IpAddr.parse name = none

variable {resolver : Bool} {lookup : IpAddr → Option (List RData)} {listing listing' : List (Text × Arc)}
variable {looks : List Lookups.Act} {v : Lookups.World}

/-- **The report of a run** has exactly one row for each name that a host looked up goes by, and
none else. A row holds what was counted for all hosts of its name, the totals what was counted
for all hosts and for those whose names fall under the filter, and for what is not among the
hosts nothing was. The program exits with the code in the report, with zero exactly if the child
did. -/
theorem report_of_run (h : Ends resolver lookup acts w listing looks v)
    (hl' : HashMap.Lists v.registry.endpoints listing') (command : Text) (filter : Option Text)
    (ms : ℕ) (status : ExitStatus) :
    let report := Report.new command filter ms (exitCode status) (v.registry.snapshotOf filter listing')
    let hosts := listing.map Prod.fst
    let name := canon fun ip => named (lookup ip)
    (∀ n, (∃ e ∈ report.endpoints, e.domain = n) ↔ ∃ host ∈ hosts, name host = n) ∧
    (report.endpoints.map Endpoint.domain).Nodup ∧
    (∀ e ∈ report.endpoints, e.matchesFilter = matchesDomain e.domain filter ∧
      ∀ c, e.count c = ((hosts.filter fun host => name host = e.domain).map (traffic acts w · c)).sum) ∧
    (∀ c, report.totals.allDestinations.count c = (hosts.map (traffic acts w · c)).sum ∧
      report.totals.matchingFilter.count c =
        ((hosts.filter fun host => matchesDomain (name host) filter).map (traffic acts w · c)).sum) ∧
    (∀ host, host ∉ hosts → w.flowsTo host = [] ∧ ∀ c, traffic acts w host c = 0) ∧
    ((processCode report.exitCode).toNat : ℤ) = report.exitCode.toInt ∧
    (report.exitCode = 0 ↔ status.code = some 0) := by
  intro report hosts name
  have hregistry := registry_of_joined h.lookups h.alike h.completed h.joined
  have htraffic : ∀ c, (value w.registry · c) = (traffic acts w · c) := fun c =>
    funext fun host => value_traffic h.traffic host c
  have hrows : ∀ n, (∃ e ∈ report.endpoints, e.domain = n) ↔ ∃ host ∈ hosts, name host = n := by
    intro n
    rw [← rows_resolve h.names h.listed n, ← hregistry, Option.isSome_iff_exists]
    constructor
    · rintro ⟨e, he, rfl⟩
      obtain ⟨s, hs, -⟩ := (mem_snapshotOf v.registry filter hl' e).mp he
      exact ⟨s, hs⟩
    · rintro ⟨s, hs⟩
      exact ⟨.of filter n s, (mem_snapshotOf v.registry filter hl' _).mpr ⟨s, hs, rfl⟩, rfl⟩
  have hcount : ∀ e ∈ report.endpoints, ∀ c, e.count c =
      ((hosts.filter fun host => name host = e.domain).map (traffic acts w · c)).sum := by
    intro e he c
    rw [Traffic.count_of_mem hl' he, hregistry, value_resolve h.names h.listed, htraffic]
  have hdomains : (report.endpoints.map Endpoint.domain).Nodup :=
    nodup_domains v.registry filter hl'
  -- the rows of a total, by the names they have
  have htotal : ∀ (p : Text → Bool) (q : Endpoint → Bool),
      (∀ e ∈ report.endpoints, q e = p e.domain) → ∀ c,
      (Totals.of (report.endpoints.filter q)).count c =
        ((hosts.filter fun host => p (name host)).map (traffic acts w · c)).sum := by
    intro p q hq c
    have hnames : ∀ host ∈ hosts, name host ∈ report.endpoints.map Endpoint.domain := by
      intro host hhost
      obtain ⟨e, he, hdomain⟩ := (hrows (name host)).mpr ⟨host, hhost, rfl⟩
      exact List.mem_map.mpr ⟨e, he, hdomain⟩
    rw [← Rekey.sum_fibers hdomains hnames p, count_of_totals,
      List.filter_congr hq, List.filter_map, List.map_map]
    exact congrArg List.sum (List.map_congr_left fun e he =>
      hcount e (List.mem_of_mem_filter he) c)
  have hall : ∀ (rows : List Endpoint), rows.filter (fun _ => true) = rows := fun rows =>
    List.filter_eq_self.mpr fun _ _ => rfl
  refine ⟨hrows, hdomains, fun e he => ⟨matches_of_mem hl' he, hcount e he⟩, fun c => ⟨?_, ?_⟩,
    fun host hnone => ?_, (exitCode_spec status).1, (exitCode_spec status).2.2.2⟩
  · have hsum := htotal (fun _ => true) (fun _ => true) (fun _ _ => rfl) c
    rw [hall, List.filter_eq_self.mpr fun _ _ => rfl] at hsum
    exact hsum
  · exact htotal (fun n => matchesDomain n filter) (·.matchesFilter)
      (fun e he => matches_of_mem hl' he) c
  · have hrow : ¬ (w.registry.row host).isSome = true := fun hsome =>
      hnone ((mem_keys_of_row h.listed host).mp hsome)
    have hlookup : w.registry.endpoints.lookup host = none :=
      (row_eq_none w.registry).mp (Option.not_isSome_iff_eq_none.mp hrow)
    refine ⟨Traffic.flowsTo_of_none (Traffic.sound_run h.traffic) hlookup, fun c => ?_⟩
    rw [← value_traffic h.traffic, value_of_none _ hlookup]

end Report

/-! ### A host by its address and by its name -/

/-- A client asks for a host by its address and by its name, and sends three bytes to the first. -/
def twoNames : List Traffic.Act :=
  [.connect "::1".toList [1] Traffic.uploader,
    .connect "localhost".toList [] Traffic.uploader,
    .connects 1 (.ok (⟨.ok (), .ok localhost⟩, Traffic.responder)) none,
    .connects 0 (.ok (⟨.ok (), .ok localhost⟩, Traffic.responder)) none,
    .tells 0 (.ok Traffic.uploader) none,
    .copies 0 (.aToB (.fill 16)),
    .copies 0 (.aToB .drain),
    .copies 0 (.aToB (.fill 16)),
    .copies 0 (.aToB .drain)]

def askOne : List Lookups.Act := [.look 0, .answer 0 loopback, .store 0, .join]

def outcome : Option (Traffic.World 16 × Lookups.World) :=
  (run Traffic.step Traffic.World.start twoNames).bind fun w =>
    (run (Lookups.step true) (Lookups.start w.registry.hosts w.registry) askOne).map fun v => (w, v)

theorem report_of_run_twoNames : ∃ w v, outcome = some (w, v) ∧
    v.registry.snapshot none = [⟨"localhost".toList, some localhost, 0, 3, 2, true⟩] ∧
    let hosts := w.registry.hosts.map Prod.fst
    ∀ c, (Totals.of (v.registry.snapshot none)).count c = (hosts.map (traffic twoNames w · c)).sum := by
  have hends : outcome.map (fun e => (e.2.registry.snapshot none, e.2.joined,
      (ipHosts e.1.registry.hosts).length)) =
      some ([⟨"localhost".toList, some localhost, 0, 3, 2, true⟩], 1, 1) := by
    decide +kernel
  obtain ⟨⟨w, v⟩, hrun, heq⟩ := Option.map_eq_some_iff.mp hends
  obtain ⟨w', hw, hv⟩ := Option.bind_eq_some_iff.mp hrun
  obtain ⟨v', hv, hpair⟩ := Option.map_eq_some_iff.mp hv
  cases hpair
  simp only [Prod.mk.injEq] at heq
  obtain ⟨hsnapshot, hjoined, hhosts⟩ := heq
  have hname : named loopback = some "localhost".toList := by decide +kernel
  have h : Ends true (fun _ => loopback) twoNames w w.registry.hosts askOne v := by
    refine ⟨hw, HashMap.lists_toList _, hv, hjoined.trans hhosts.symm, fun i hi => ?_, fun e he => ?_,
      fun ip name hn => ?_⟩
    · simp [askOne] at hi
    · simp only [answered, askOne, List.filterMap_cons, List.filterMap_nil] at he
      cases hhost : (ipHosts w.registry.hosts)[0]? with
      | none => simp [hhost] at he
      | some e' =>
        obtain rfl : e = (e'.2, loopback) := by simpa [hhost] using he
        rfl
    · rw [hname] at hn
      cases hn
      decide +kernel
  obtain ⟨-, -, -, htotals, -⟩ := report_of_run h (HashMap.lists_toList _) [] none 0 ⟨0⟩
  exact ⟨w, v, hrun, hsnapshot, fun c => (htotals c).1⟩

end Wiretally.Summary
