import Wiretally.Dns
import Wiretally.Lib.Memo
import Wiretally.Resolve

/-!
Looking up the names of addresses, all at once.

One task is spawned for every host that is a bare address. The tasks share the resolver's cache,
which they hold while they look in it and while they store in it, but not while they wait for
an answer. They are joined in the order of the listing, and each that has a name has its host
renamed. Whatever the interleaving, a host is only renamed to a name that was told of its own
address, and where the answers do not change the registry ends up as if the hosts had been
looked up one after the other.
-/

namespace Wiretally.Lookups

open Wiretally.Lib Wiretally.Lib.Run Wiretally.Lib.Memo Wiretally.Net Wiretally.Stats
open Wiretally.Text Wiretally.Dns Wiretally.Resolve

/-- What a task makes of an answer; an error is no answer. -/
def named (answer : Option (List RData)) : Option Text :=
  (answer.bind ptrName).filter fun name : Text => !name.isEmpty

/-- The lookups under way, the hosts they are for, and how many have been joined. -/
structure World where
  lookups : Memo.State IpAddr (Option Text)
  hosts : List Text
  joined : ℕ
  registry : Registry

def start (listing : List (Text × Arc)) (registry : Registry) : World where
  lookups := Memo.start ((ipHosts listing).map Prod.snd)
  hosts := (ipHosts listing).map Prod.fst
  joined := 0
  registry := registry

inductive Act
  | look (i : ℕ)
  | answer (i : ℕ) (records : Option (List RData))
  | store (i : ℕ)
  /-- The task panics. -/
  | abort (i : ℕ)
  /-- The next handle is awaited and has a result. -/
  | join

/-- What is to be renamed once the task has ended, if it has ended with a name. -/
def World.renameAt (w : World) (i : ℕ) : Option (Text × Text) :=
  match w.hosts[i]?, w.lookups.tasks[i]? with
  | some host, some (_, .done (some name)) => some (host, name)
  | _, _ => none

def World.lookup (w : World) (act : Memo.Act (Option Text)) : Option World :=
  (Memo.step w.lookups act).map fun lookups => { w with lookups := lookups }

def World.join (w : World) : Option World :=
  match w.lookups.tasks[w.joined]? with
  | some (_, stage) =>
    if stage.rank = 0 then
      some { w with
        joined := w.joined + 1
        registry := (w.renameAt w.joined).elim w.registry fun e => w.registry.rename e.1 e.2 }
    else none
  | none => none

/-- Without a resolver there are no answers. -/
def step (resolver : Bool) (w : World) : Act → Option World
  | .look i => w.lookup (.look i)
  | .answer i records =>
    if resolver = true ∨ records.isNone = true then w.lookup (.answer i (named records)) else none
  | .store i => w.lookup (.store i)
  | .abort i => w.lookup (.abort i)
  | .join => w.join

/-- What an action is to the lookups. -/
def Act.ofLookup : Act → Option (Memo.Act (Option Text))
  | .look i => some (.look i)
  | .answer i records => some (.answer i (named records))
  | .store i => some (.store i)
  | .abort i => some (.abort i)
  | .join => none

def answered (listing : List (Text × Arc)) (acts : List Act) : List (IpAddr × Option (List RData)) :=
  acts.filterMap fun
    | .answer i records => (ipHosts listing)[i]?.map fun e => (e.2, records)
    | _ => none

/-- The renames issued so far. -/
def World.issued (w : World) : List (Text × Text) := (List.range w.joined).filterMap w.renameAt

/-! ### A lookup with no other one between its steps -/

/-- **A lookup on its own** is a call of the resolver. -/
theorem hostname_of_alone (self : ReverseResolver) (ip : IpAddr) :
    ∃ acts s, run Memo.step ⟨self.cache, [(ip, .starting)]⟩ acts = some s ∧
      s.tasks = [(ip, .done (self.hostname ip).1)] ∧ s.cache = (self.hostname ip).2.cache := by
  cases hc : self.cache.lookup ip with
  | some hit =>
    refine ⟨[.look 0], _, by simp [run, Memo.step, hc]; rfl, ?_, ?_⟩
    · simp [Memo.State.move, ReverseResolver.hostname, hc]
    · simp [Memo.State.move, ReverseResolver.hostname, hc]
  | none =>
    refine ⟨[.look 0, .answer 0 (self.resolved ip), .store 0], _,
      by simp [run, Memo.step, Memo.State.move, hc]; rfl, ?_, ?_⟩
    · simp [ReverseResolver.hostname, hc]
    · simp [ReverseResolver.hostname, hc]

/-! ### Steps -/

/-- What a step does: it is one of the lookups, or it joins the next of them. -/
inductive Moves (w : World) : Act → World → Prop
  | lookup {act memo lookups} (ha : act.ofLookup = some memo)
    (hs : Memo.step w.lookups memo = some lookups) : Moves w act { w with lookups := lookups }
  | join {ip stage} (hi : w.lookups.tasks[w.joined]? = some (ip, stage)) (hr : stage.rank = 0) :
    Moves w .join { w with
      joined := w.joined + 1
      registry := (w.renameAt w.joined).elim w.registry fun e => w.registry.rename e.1 e.2 }

lemma step_moves {resolver : Bool} {w w' : World} {act : Act} (h : step resolver w act = some w') :
    Moves w act w' := by
  have hlookup : ∀ {memo}, act.ofLookup = some memo → w.lookup memo = some w' → Moves w act w' := by
    intro memo ha hl
    obtain ⟨lookups, hs, rfl⟩ := Option.map_eq_some_iff.mp hl
    exact .lookup ha hs
  cases act with
  | look i => exact hlookup rfl h
  | answer i records =>
    simp only [step] at h
    split_ifs at h
    exact hlookup rfl h
  | store i => exact hlookup rfl h
  | abort i => exact hlookup rfl h
  | join =>
    simp only [step, World.join] at h
    split at h
    · next ip stage hi =>
      split_ifs at h with hr
      cases h
      exact .join hi hr
    · cases h

section Runs

variable {resolver : Bool} {listing : List (Text × Arc)} {r : Registry} {acts : List Act}
variable {w w' : World}

lemma run_lookups (h : run (step resolver) (start listing r) acts = some w) :
    run Memo.step (Memo.start ((ipHosts listing).map Prod.snd)) (acts.filterMap Act.ofLookup) =
      some w.lookups := by
  refine run_induction (P := fun acts w => run Memo.step
    (Memo.start ((ipHosts listing).map Prod.snd)) (acts.filterMap Act.ofLookup) = some w.lookups)
    rfl (fun as w act w' _ hr hst => ?_) h
  rw [List.filterMap_append]
  cases step_moves hst with
  | lookup ha hs =>
    simp only [List.filterMap_cons, ha, List.filterMap_nil]
    exact (run_snoc Memo.step).mpr ⟨_, hr, hs⟩
  | join hi hr' =>
    change run Memo.step _ (as.filterMap Act.ofLookup ++ []) = _
    rw [List.append_nil]
    exact hr

/-- How the world of a run stands: the tasks joined have ended, and what they ended with has been
renamed. -/
structure Joined (listing : List (Text × Arc)) (r : Registry) (w : World) : Prop where
  hosts : w.hosts = (ipHosts listing).map Prod.fst
  ended : ∀ i < w.joined, ∃ ip stage, w.lookups.tasks[i]? = some (ip, stage) ∧ stage.rank = 0
  registry : w.registry = w.issued.foldl (fun r e => r.rename e.1 e.2) r

lemma joined_start : Joined listing r (start listing r) :=
  ⟨rfl, fun _ hi => absurd hi (Nat.not_lt_zero _), rfl⟩

/-- A lookup changes nothing for those that have ended. -/
lemma renameAt_lookup {memo : Memo.Act (Option Text)} {lookups : Memo.State IpAddr (Option Text)}
    (hs : Memo.step w.lookups memo = some lookups) {i : ℕ} {ip : IpAddr}
    {stage : Stage (Option Text)} (hi : w.lookups.tasks[i]? = some (ip, stage))
    (hr : stage.rank = 0) : ({ w with lookups := lookups } : World).renameAt i = w.renameAt i := by
  simp only [World.renameAt, done_step hs hi hr, hi]

lemma joined_step {act : Act} (hw : Joined listing r w) (h : step resolver w act = some w') :
    Joined listing r w' := by
  cases step_moves h with
  | @lookup act memo lookups ha hs =>
    have hissued : ({ w with lookups := lookups } : World).issued = w.issued := by
      refine List.filterMap_congr fun i hi => ?_
      obtain ⟨ip, stage, htask, hr⟩ := hw.ended i (List.mem_range.mp hi)
      exact renameAt_lookup hs htask hr
    refine ⟨hw.hosts, fun i hi => ?_, ?_⟩
    · obtain ⟨ip, stage, htask, hr⟩ := hw.ended i hi
      exact ⟨ip, stage, done_step hs htask hr, hr⟩
    · rw [hissued]
      exact hw.registry
  | @join ip stage hi hr =>
    refine ⟨hw.hosts, fun i hlt => ?_, ?_⟩
    · rcases Nat.lt_succ_iff_lt_or_eq.mp hlt with hlt | rfl
      · exact hw.ended i hlt
      · exact ⟨ip, stage, hi, hr⟩
    · have hissued : World.issued { w with
          joined := w.joined + 1
          registry := (w.renameAt w.joined).elim w.registry fun e => w.registry.rename e.1 e.2 } =
          w.issued ++ (w.renameAt w.joined).toList := by
        change (List.range (w.joined + 1)).filterMap w.renameAt = _
        rw [List.range_succ, List.filterMap_append, World.issued, List.filterMap_cons]
        cases w.renameAt w.joined <;> rfl
      rw [hissued, List.foldl_append, ← hw.registry]
      cases w.renameAt w.joined <;> rfl

lemma joined_run (h : run (step resolver) (start listing r) acts = some w) : Joined listing r w :=
  run_inv (fun _ _ _ hs hst => joined_step hs hst) joined_start h

/-! ### What is renamed -/

lemma answered_lookups (acts : List Act) :
    Memo.answered ((ipHosts listing).map Prod.snd) (acts.filterMap Act.ofLookup) =
      (answered listing acts).map fun e => (e.1, named e.2) := by
  have hone : ∀ act : Act,
      Memo.answered ((ipHosts listing).map Prod.snd) act.ofLookup.toList =
        (answered listing [act]).map fun e => (e.1, named e.2) := by
    intro act
    cases act with
    | answer i records =>
      cases hi : (ipHosts listing)[i]? <;>
        simp [Act.ofLookup, Memo.answered, answered, hi]
    | _ => rfl
  induction acts with
  | nil => rfl
  | cons act acts ih =>
    have happ : answered listing (act :: acts) = answered listing [act] ++ answered listing acts :=
      List.filterMap_append (l := [act])
    rw [happ, List.map_append, ← ih, ← hone]
    cases hact : act.ofLookup with
    | none => simp [hact, Memo.answered]
    | some memo =>
      simp only [List.filterMap_cons, hact]
      exact List.filterMap_append (l := [memo])

lemma task_address (h : run (step resolver) (start listing r) acts = some w) {i : ℕ} {ip : IpAddr}
    {stage : Stage (Option Text)} (hi : w.lookups.tasks[i]? = some (ip, stage)) :
    ∃ host, (ipHosts listing)[i]? = some (host, ip) ∧ w.hosts[i]? = some host := by
  have hkey : ((ipHosts listing).map Prod.snd)[i]? = some ip := by
    rw [← keys_run (run_lookups h), List.getElem?_map, hi]
    rfl
  rw [List.getElem?_map] at hkey
  obtain ⟨⟨host, ip'⟩, he, rfl⟩ := Option.map_eq_some_iff.mp hkey
  refine ⟨host, he, ?_⟩
  rw [(joined_run h).hosts, List.getElem?_map, he]
  rfl

lemma renameAt_eq_some {i : ℕ} {host name : Text} (hr : w.renameAt i = some (host, name)) :
    w.hosts[i]? = some host ∧ ∃ ip, w.lookups.tasks[i]? = some (ip, .done (some name)) := by
  unfold World.renameAt at hr
  split at hr
  · next host' ip name' hhost htask =>
    cases hr
    exact ⟨hhost, ip, htask⟩
  · cases hr

lemma named_eq_some {answer : Option (List RData)} {name : Text} (h : named answer = some name) :
    ∃ records, answer = some records ∧ ptrName records = some name ∧ name ≠ [] := by
  obtain ⟨hbind, hne⟩ := Option.filter_eq_some_iff.mp h
  obtain ⟨records, hrecords, hptr⟩ := Option.bind_eq_some_iff.mp hbind
  refine ⟨records, hrecords, hptr, ?_⟩
  rintro rfl
  cases hne

/-- Every rename is to a name that was told of the address renamed. -/
lemma issued_spec (h : run (step resolver) (start listing r) acts = some w) {host name : Text}
    (he : (host, name) ∈ w.issued) :
    ∃ ip records, (host, ip) ∈ ipHosts listing ∧ (ip, some records) ∈ answered listing acts ∧
      ptrName records = some name ∧ name ≠ [] ∧ canonical name = name := by
  obtain ⟨i, -, hr⟩ := List.mem_filterMap.mp he
  obtain ⟨hhost, ip, htask⟩ := renameAt_eq_some hr
  obtain ⟨host', hlisted, hhost'⟩ := task_address h htask
  rw [hhost] at hhost'
  cases hhost'
  -- whatever a task ends up with is an answer given for its address
  have hsound : Sound (fun ip name => ∃ answer, (ip, answer) ∈ answered listing acts ∧
      name = named answer) w.lookups := by
    refine sound_run (fun e hmem => ?_) (run_lookups h)
    rw [answered_lookups] at hmem
    obtain ⟨⟨ip', answer⟩, hanswer, rfl⟩ := List.mem_map.mp hmem
    exact ⟨answer, hanswer, rfl⟩
  obtain ⟨answer, hanswer, hname⟩ := hsound.tasks i ip _ (some name) htask rfl
  obtain ⟨records, rfl, hptr, hne⟩ := named_eq_some hname.symm
  exact ⟨ip, records, List.mem_of_getElem? hlisted, hanswer, hptr, hne, canonical_ptrName hptr⟩

lemma not_aborted (h : run (step resolver) (start listing r) acts = some w)
    (hok : ∀ i, Act.abort i ∉ acts) {i : ℕ} {ip : IpAddr} :
    w.lookups.tasks[i]? ≠ some (ip, .aborted) := by
  have key : (∀ i, Act.abort i ∉ acts) →
      ∀ (i : ℕ) (ip : IpAddr), w.lookups.tasks[i]? ≠ some (ip, .aborted) := by
    refine run_induction (P := fun acts w => (∀ i, Act.abort i ∉ acts) →
      ∀ (i : ℕ) (ip : IpAddr), w.lookups.tasks[i]? ≠ some (ip, .aborted)) ?_ ?_ h
    · intro _ i ip hi
      obtain ⟨k, -, he⟩ := List.mem_map.mp (List.mem_of_getElem? hi)
      cases he
    · intro as w act w' _ ih hst hnone i ip
      have hold := ih (fun j hj => hnone j (List.mem_append_left _ hj)) i ip
      cases step_moves hst with
      | @lookup act memo lookups ha hs =>
        have hstage : ∀ {j k stage}, stage ≠ .aborted →
            (w.lookups.move j k stage).tasks[i]? ≠ some (ip, .aborted) := by
          intro j k stage hne hi
          change (w.lookups.tasks.set j (k, stage))[i]? = _ at hi
          rw [List.getElem?_set] at hi
          split_ifs at hi
          · cases hi
            exact hne rfl
          · exact hold hi
        cases Memo.step_moves hs with
        | hit => exact hstage nofun
        | miss => exact hstage nofun
        | answer => exact hstage nofun
        | store => exact hstage (by rintro ⟨⟩)
        | @abort j =>
          have hact : act = .abort j := by
            cases act <;> cases ha
            rfl
          exact absurd (List.mem_append_right as (List.mem_singleton.mpr hact.symm)) (hnone j)
      | join => exact hold
  exact key hok i ip

lemma filterMap_range {α β : Type} (f : α → Option β) (l : List α) :
    (List.range l.length).filterMap (fun i => l[i]?.bind f) = l.filterMap f := by
  induction l using List.reverseRecOn with
  | nil => rfl
  | append_singleton l a ih =>
    have hfront : (List.range l.length).filterMap (fun i => (l ++ [a])[i]?.bind f) =
        (List.range l.length).filterMap (fun i => l[i]?.bind f) := by
      refine List.filterMap_congr fun i hi => ?_
      rw [List.getElem?_append_left (List.mem_range.mp hi)]
    rw [List.length_append, List.length_singleton, List.range_succ, List.filterMap_append, hfront, ih,
      List.filterMap_append]
    simp only [List.filterMap_cons, List.getElem?_concat_length, Option.bind_some,
      List.filterMap_nil]

/-- Once all are joined, the renames are those of a resolver that gives these answers. -/
lemma issued_eq_renames {lookup : IpAddr → Option (List RData)}
    (h : run (step resolver) (start listing r) acts = some w)
    (hanswers : ∀ e ∈ answered listing acts, e.2 = lookup e.1) (hok : ∀ i, Act.abort i ∉ acts)
    (hjoined : w.joined = (ipHosts listing).length) :
    w.issued = renames (fun ip => named (lookup ip)) listing := by
  have hsound : Sound (fun ip name => name = named (lookup ip)) w.lookups := by
    refine sound_run (fun e hmem => ?_) (run_lookups h)
    rw [answered_lookups] at hmem
    obtain ⟨e', he', rfl⟩ := List.mem_map.mp hmem
    exact congrArg named (hanswers e' he')
  unfold World.issued renames
  rw [hjoined, ← filterMap_range _ (ipHosts listing)]
  refine List.filterMap_congr fun i hi => ?_
  rw [← hjoined] at hi
  obtain ⟨ip, stage, htask, hr⟩ := (joined_run h).ended i (List.mem_range.mp hi)
  obtain ⟨host, hlisted, hhost⟩ := task_address h htask
  cases stage with
  | done name =>
    have hname : name = named (lookup ip) := hsound.tasks i ip _ name htask rfl
    rw [hlisted, Option.bind_some]
    change w.renameAt i = (named (lookup ip)).map fun name => (host, name)
    rw [← hname]
    cases name <;> simp [World.renameAt, hhost, htask]
  | aborted => exact absurd htask (not_aborted h hok)
  | starting => cases hr
  | asking => cases hr
  | storing name => cases hr

/-- Once all are joined, the registry is as if the hosts had been looked up one by one. -/
lemma registry_of_joined {lookup : IpAddr → Option (List RData)}
    (h : run (step resolver) (start listing r) acts = some w)
    (hanswers : ∀ e ∈ answered listing acts, e.2 = lookup e.1) (hok : ∀ i, Act.abort i ∉ acts)
    (hjoined : w.joined = (ipHosts listing).length) :
    w.registry = resolveIpOnlyEndpoints (fun ip => named (lookup ip)) listing r := by
  rw [(joined_run h).registry, issued_eq_renames h hanswers hok hjoined]
  rfl

lemma issued_sublist (h : run (step resolver) (start listing r) acts = some w) (n : ℕ) :
    (((List.range n).filterMap w.renameAt).map Prod.fst).Sublist
      (((ipHosts listing).take n).map Prod.fst) := by
  induction n with
  | zero => exact List.Sublist.refl _
  | succ n ih =>
    rw [List.range_succ, List.filterMap_append, List.map_append, List.take_add_one, List.map_append]
    refine ih.append ?_
    cases hr : w.renameAt n with
    | none =>
      simp only [List.filterMap_cons, hr, List.filterMap_nil]
      exact List.nil_sublist _
    | some e =>
      obtain ⟨hhost, ip, htask⟩ := renameAt_eq_some hr
      obtain ⟨host, hlisted, hhost'⟩ := task_address h htask
      rw [hhost] at hhost'
      cases hhost'
      simp [hr, hlisted]

/-- **Lookups that run at once.** Whatever the interleaving, the hosts joined so far have been
renamed, in the order of the listing, and only to canonical names that were told of their own
addresses; and if no task panics and each address is always answered alike, the registry is in
the end as if the hosts had been looked up one after the other. -/
theorem renamed_of_run (h : run (step resolver) (start listing r) acts = some w) :
    (∃ issued : List (Text × Text), w.registry = issued.foldl (fun r e => r.rename e.1 e.2) r ∧
      (issued.map Prod.fst).Sublist (((ipHosts listing).take w.joined).map Prod.fst) ∧
      ∀ e ∈ issued, ∃ ip records, (e.1, ip) ∈ ipHosts listing ∧
        (ip, some records) ∈ answered listing acts ∧ ptrName records = some e.2 ∧
        e.2 ≠ [] ∧ canonical e.2 = e.2) ∧
    ∀ lookup : IpAddr → Option (List RData), (∀ e ∈ answered listing acts, e.2 = lookup e.1) →
      (∀ i, Act.abort i ∉ acts) → w.joined = (ipHosts listing).length →
      w.registry = resolveIpOnlyEndpoints (fun ip => named (lookup ip)) listing r := by
  exact ⟨⟨w.issued, (joined_run h).registry, issued_sublist h w.joined,
    fun e he => issued_spec h he⟩, fun _ => registry_of_joined h⟩

/-! ### That it ends -/

lemma length_lookups (acts : List Act) :
    acts.length = (acts.filterMap Act.ofLookup).length +
      (acts.filter fun act => act.ofLookup.isNone).length := by
  induction acts with
  | nil => rfl
  | cons act acts ih =>
    cases ha : act.ofLookup with
    | none =>
      simp only [List.filterMap_cons, List.filter_cons, ha, Option.isNone_none, if_true,
        List.length_cons]
      omega
    | some memo =>
      simp only [List.filterMap_cons, List.filter_cons, ha, Option.isNone_some, Bool.false_eq_true,
        if_false, List.length_cons]
      omega

lemma joins_run (h : run (step resolver) (start listing r) acts = some w) :
    (acts.filter fun act => act.ofLookup.isNone).length = w.joined := by
  refine run_induction (P := fun acts w =>
    (acts.filter fun act => act.ofLookup.isNone).length = w.joined) rfl
    (fun as w act w' _ ih hst => ?_) h
  rw [List.filter_append, List.length_append, ih]
  cases step_moves hst with
  | lookup ha hs => simp [ha]
  | join hi hr => rfl

lemma joined_le (h : run (step resolver) (start listing r) acts = some w) :
    w.joined ≤ (ipHosts listing).length := by
  by_contra hlt
  obtain ⟨ip, stage, htask, -⟩ := (joined_run h).ended (ipHosts listing).length (by omega)
  obtain ⟨host, hlisted, -⟩ := task_address h htask
  rw [List.getElem?_eq_none (Nat.le_refl _)] at hlisted
  cases hlisted

/-- **The lookups end.** There are at most four steps for each address, and as long as not all
handles are joined there is one for the handle awaited, whatever the resolver may answer and
wherever the other tasks stand. -/
theorem lookups_end (h : run (step resolver) (start listing r) acts = some w) :
    acts.length ≤ 4 * (ipHosts listing).length ∧
    (w.joined < (ipHosts listing).length → ∀ records : Option (List RData),
      resolver = true ∨ records.isNone = true → ∃ act w', step resolver w act = some w' ∧
        (act = .look w.joined ∨ act = .answer w.joined records ∨ act = .store w.joined ∨
          act = .join)) := by
  constructor
  · have hlookups := Memo.length_run (run_lookups h)
    have hjoins := joins_run h
    have hle := joined_le h
    rw [List.length_map] at hlookups
    rw [length_lookups acts]
    omega
  · intro hlt records hallowed
    have hlen : w.joined < w.lookups.tasks.length := by
      rw [← List.length_map Prod.fst, keys_run (run_lookups h), List.length_map]
      exact hlt
    have htask := List.getElem?_eq_getElem hlen
    generalize w.lookups.tasks[w.joined] = task at htask
    obtain ⟨ip, stage⟩ := task
    by_cases hr : stage.rank = 0
    · exact ⟨.join, _, by simp only [step, World.join, htask, hr]; rfl, .inr (.inr (.inr rfl))⟩
    · obtain ⟨memo, lookups, hs, hact⟩ := exists_step htask hr (named records)
      have hlookup : w.lookup memo = some { w with lookups := lookups } := by
        rw [World.lookup, hs]
        rfl
      rcases hact with rfl | rfl | rfl
      · exact ⟨.look w.joined, _, hlookup, .inl rfl⟩
      · exact ⟨.answer w.joined records, _, (if_pos hallowed).trans hlookup, .inr (.inl rfl)⟩
      · exact ⟨.store w.joined, _, hlookup, .inr (.inr (.inl rfl))⟩

end Runs

/-! ### Two hosts that are one address -/

/-- The same address in two spellings, both looked up before either answer is stored. -/
def twice : Registry :=
  let r := (Registry.new.endpoint "::1".toList).2
  let r := (r.endpoint "0:0:0:0:0:0:0:1".toList).2
  r.update 0 (·.addIngress 7)

def loopback : Option (List RData) := some [.other, .ptr "Localhost.".toList]

def bothAsk : List Act :=
  [.look 0, .look 1, .answer 1 loopback, .store 1, .answer 0 loopback, .store 0, .join, .join]

lemma run_bothAsk : ∃ w, run (step true) (start twice.hosts twice) bothAsk = some w ∧
    w.joined = (ipHosts twice.hosts).length := by
  have hjoined : (run (step true) (start twice.hosts twice) bothAsk).map World.joined =
      some (ipHosts twice.hosts).length := by
    decide +kernel
  obtain ⟨w, hw, hj⟩ := Option.map_eq_some_iff.mp hjoined
  exact ⟨w, hw, hj⟩

theorem renamed_of_run_bothAsk : ∃ w,
    run (step true) (start twice.hosts twice) bothAsk = some w ∧
    w.registry = resolveIpOnlyEndpoints (fun _ => named loopback) twice.hosts twice := by
  obtain ⟨w, hw, hj⟩ := run_bothAsk
  refine ⟨w, hw, (renamed_of_run hw).2 (fun _ => loopback) ?_ ?_ hj⟩
  · intro e he
    have hsecond : e.2 ∈ [loopback, loopback] := by
      have hall : (answered twice.hosts bothAsk).map Prod.snd = [loopback, loopback] := rfl
      rw [← hall]
      exact List.mem_map_of_mem he
    simpa using hsecond
  · intro i hi
    simp [bothAsk] at hi

theorem lookups_end_bothAsk : ∃ w, run (step true) (start twice.hosts twice) bothAsk = some w ∧
    bothAsk.length ≤ 4 * (ipHosts twice.hosts).length := by
  obtain ⟨w, hw, -⟩ := run_bothAsk
  exact ⟨w, hw, (lookups_end hw).1⟩

end Wiretally.Lookups
