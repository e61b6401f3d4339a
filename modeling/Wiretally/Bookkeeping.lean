import Wiretally.Lib.Ledger
import Wiretally.Traffic

/-!
The registry is a ledger.

What the counters are for can be said without handles, blocks and caches: a book that notes under
a host that it was asked for, what was carried for it, that a connection to it was opened and at
which address. The bytes of a tunnel are noted when they are read from its client or written to
it, those of the HTTP client when they cross its socket to the host, a datagram when an
association has sent it on. The proxy keeps no book; it hands out shared blocks, which outlive
the lookup that found them, and each association has a cache of its own. But after every step the
rows are what the book comes to.
-/

namespace Wiretally.Bookkeeping

open Wiretally.Lib Wiretally.Lib.AsyncIo Wiretally.Lib.Run Wiretally.Lib.Ledger Wiretally.Lib.Tcp
open Wiretally.Net Wiretally.Stats Wiretally.Stats.EndpointStats Wiretally.Registry Wiretally.Io
open Wiretally.Proxy Wiretally.Traffic
open Wiretally.Attempts (Uri callTarget setUp own)

/-! ### The book -/

/-- What is noted under a host. -/
inductive Note
  | asked
  | counted (c : Counter) (n : UInt64)
  | located (addr : IpAddr)

def Note.act : Note → EndpointStats → EndpointStats
  | .asked, s => s
  | .counted c n, s => s.fetchAdd n c
  | .located addr, s => s.observeIp addr

def asked (host : Text) : Entry Text Note := ⟨host, .asked⟩

def counted (host : Text) (c : Counter) (n : UInt64) : Entry Text Note := ⟨host, .counted c n⟩

def located (host : Text) (addr : IpAddr) : Entry Text Note := ⟨host, .located addr⟩

/-- What is noted when a connect to a host has returned. -/
def opened (host : Text) : Except IoError Upstream → List (Entry Text Note)
  | .error _ => []
  | .ok upstream =>
    match upstream.nodelay with
    | .error _ => []
    | .ok () =>
      (match upstream.peer with
        | .ok ip => [located host ip]
        | .error _ => []) ++ [counted host .connections 1]

variable {cap : UInt64}

/-- What is noted of a connection that goes on. -/
def moved (old new : Flow cap) : List (Entry Text Note) :=
  match old.target with
  | some (host, _) =>
    [counted host .egress (.ofNat new.sent.length - .ofNat old.sent.length),
      counted host .ingress (.ofNat new.got.length - .ofNat old.got.length)]
  | none => []

/-- What is noted of an association's step: a host it has not had to do with yet, and a datagram
that was sent there or came from there. -/
def relayed (u : Udp.World) (act : Udp.Act) : List (Entry Text Note) :=
  (match UdpCounts.looksUp u act with
    | some host =>
      if (u.relay.endpoints.lookup host).isSome then []
      else [asked host, counted host .connections 1]
    | none => []) ++
  match u.pc, act with
  | .sendOut datagram target _, .sends (.ok ()) =>
    [counted datagram.host .egress (.ofNat datagram.payload.length),
      located datagram.host target.ip]
  | .sendBack _ payload _ host _, .sends (.ok ()) =>
    [counted host .ingress (.ofNat payload.length)]
  | _, _ => []

/-- What is noted of a step of the proxy. -/
def notes (w : World cap) (act : Act) : List (Entry Text Note) :=
  match act with
  | .connect host _ _ => [asked host]
  | .call uri =>
    match callTarget uri with
    | .ok (host, _) => [asked host]
    | .error _ => []
  | .connects i result _ =>
    match w.flows[i]? with
    | some (.connecting _ host _) => opened host (result.map Prod.fst)
    | _ => []
  | .copies i _ | .polls i _ =>
    match w.flows[i]?, (step w act).bind (·.flows[i]?) with
    | some old, some new => moved old new
    | _, _ => []
  | .relay i act =>
    match w.relays[i]? with
    | some u => relayed { u with registry := w.registry } act
    | none => []
  | .givesUp _ | .tells _ _ _ | .associate | .abort _ => []

/-- The book of a run. -/
def book (cap : UInt64) (acts : List Act) : List (Entry Text Note) :=
  (trace step (World.start : World cap) acts).flatMap fun t => notes t.1 t.2

/-! ### Rows and lines -/

lemma row_endpoint_post (r : Registry) (host : Text) :
    (r.endpoint host).2.row = postAll fresh Note.act r.row [asked host] := by
  funext k
  rw [row_endpoint]
  change _ = if k = host then _ else _
  split_ifs with hk
  · rw [hk]
    rfl
  · rfl

lemma row_update_post {r : Registry} {host : Text} {a : Arc}
    (h : r.endpoints.lookup host = some a) (note : Note) :
    (r.update a note.act).row = postAll fresh Note.act r.row [⟨host, note⟩] := by
  funext k
  rw [row_update r h]
  change _ = if k = host then some (note.act ((r.row k).getD fresh)) else r.row k
  split_ifs with hk
  · rw [hk, row_of_lookup r h, Option.getD_some]
  · rfl

lemma row_update_twice {r : Registry} {host : Text} {a : Arc}
    (h : r.endpoints.lookup host = some a) (note note' : Note) :
    ((r.update a note.act).update a note'.act).row =
      postAll fresh Note.act r.row [⟨host, note⟩, ⟨host, note'⟩] := by
  have hfirst := row_update_post h note
  have hsecond := row_update_post (r := r.update a note.act) h note'
  exact hsecond.trans (congrArg (postAll fresh Note.act · [⟨host, note'⟩]) hfirst)

/-! ### Steps -/

lemma row_setUp {r : Registry} {host : Text} {stats : Arc}
    (h : r.endpoints.lookup host = some stats) (upstream : Upstream) :
    (setUp r stats upstream).2.row =
      postAll fresh Note.act r.row (opened host (.ok upstream)) := by
  obtain ⟨nodelay, peer⟩ := upstream
  cases nodelay with
  | error err => rfl
  | ok u =>
    cases peer with
    | error err => exact row_update_post h (.counted .connections 1)
    | ok ip => exact row_update_twice h (.located ip) (.counted .connections 1)

lemma row_advance {w : World cap} (hw : Sound w) {i : ℕ} {host : Text} {stats : Arc}
    {old new : Flow cap} (hi : w.flows[i]? = some old) (ho : old.target = some (host, stats))
    (hk : Kept new) :
    (w.advance i stats old new).registry.row =
      postAll fresh Note.act w.registry.row (moved old new) := by
  have hlist := hw.listed i old host stats hi ho
  obtain ⟨hegress, hingress, -⟩ := counted_of_kept (hw.kept i old hi)
  obtain ⟨hegress', hingress', -⟩ := counted_of_kept hk
  have hup : new.counted.egress - old.counted.egress =
      .ofNat new.sent.length - .ofNat old.sent.length := by
    rw [← hegress, ← hegress']
    rfl
  have hdown : new.counted.ingress - old.counted.ingress =
      .ofNat new.got.length - .ofNat old.got.length := by
    rw [← hingress, ← hingress']
    rfl
  have hmoved : moved old new =
      [counted host .egress (new.counted.egress - old.counted.egress),
        counted host .ingress (new.counted.ingress - old.counted.ingress)] := by
    unfold moved
    rw [ho, hup, hdown]
  -- the two adds of a step one after the other
  have hrow : (w.registry.update stats (World.grow old.counted new.counted)).row =
      ((w.registry.update stats
        (·.fetchAdd (new.counted.egress - old.counted.egress) .egress)).update stats
        (·.fetchAdd (new.counted.ingress - old.counted.ingress) .ingress)).row := by
    funext k
    rw [row_update _ hlist, row_update _ (by exact hlist), row_update _ hlist, update_heap_self]
    split_ifs <;> rfl
  rw [hmoved]
  exact hrow.trans (row_update_twice hlist (.counted .egress _) (.counted .ingress _))

/-- An association looks a host up in its own cache first. -/
lemma row_looked_up (u : Udp.World) (host : Text) :
    (u.endpoint host).2.registry.row = postAll fresh Note.act u.registry.row
      (if (u.relay.endpoints.lookup host).isSome then []
        else [asked host, counted host .connections 1]) := by
  cases hcache : u.relay.endpoints.lookup host with
  | some stats =>
    rw [UdpCounts.endpoint_of_cached u host hcache]
    rfl
  | none =>
    have hlist : (u.registry.endpoint host).2.endpoints.lookup host =
        some (u.registry.endpoint host).1 := (lookup_endpoint _ _ _).trans (if_pos rfl)
    have hconn := row_update_post hlist (.counted .connections 1)
    rw [UdpCounts.endpoint_of_new u host hcache]
    refine hconn.trans ?_
    rw [row_endpoint_post]
    rfl

/-- **What an association's step does to the rows** is noted. -/
theorem row_relayed {u u' : Udp.World} {act : Udp.Act} (hu : UdpCounts.Coherent u)
    (hown : own act = true) (h : Udp.step u act = some u') :
    u'.registry.row = postAll fresh Note.act u.registry.row (relayed u act) := by
  cases hlook : UdpCounts.looksUp u act with
  | some host =>
    obtain ⟨v, hreg, hcache, hreg', -, -⟩ := UdpCounts.looksUp_some h hlook
    have hidle := UdpCounts.idle_of_looksUp h hlook
    have hrow := row_looked_up v host
    rw [hreg, hcache] at hrow
    have hrelayed : relayed u act = if (u.relay.endpoints.lookup host).isSome then []
        else [asked host, counted host .connections 1] := by
      unfold relayed
      rw [hlook]
      cases hpc : u.pc with
      | sendOut =>
        rw [hpc] at hidle
        cases hidle
      | sendBack =>
        rw [hpc] at hidle
        cases hidle
      | _ => exact List.append_nil _
    rw [hreg', hrow, hrelayed]
  | none =>
    by_cases hsend : act = .sends (.ok ())
    · subst hsend
      unfold relayed
      rw [hlook, List.nil_append]
      cases Udp.step_moves h with
      | @sentOut datagram target stats hpc =>
        have hlist : u.registry.endpoints.lookup datagram.host = some stats :=
          hu.cached _ _ (hu.held _ _ (by rw [hpc]; rfl))
        rw [hpc]
        exact row_update_twice hlist (.counted .egress _) (.located target.ip)
      | @sentBack source payload clientAddr host stats hpc =>
        have hlist : u.registry.endpoints.lookup host = some stats :=
          hu.cached _ _ (hu.held _ _ (by rw [hpc]; rfl))
        rw [hpc]
        exact row_update_post hlist (.counted .ingress (.ofNat payload.length))
    · have hsame := Attempts.registry_of_looksUp_none hown h hlook hsend
      have hnothing : relayed u act = [] := by
        unfold relayed
        rw [hlook, List.nil_append]
        split
        next => exact absurd rfl hsend
        next => exact absurd rfl hsend
        next => rfl
      rw [hsame, hnothing]
      rfl

/-- **The rows after a step are those before it with the notes of the step posted.** -/
theorem row_step {w w' : World cap} {act : Act} (hw : Sound w) (h : step w act = some w') :
    w'.registry.row = postAll fresh Note.act w.registry.row (notes w act) := by
  cases act with
  | connect host leftover client =>
    cases h
    exact row_endpoint_post w.registry host
  | call uri =>
    simp only [step] at h
    cases huri : callTarget uri with
    | error err =>
      have hnotes : notes w (.call uri) = [] := by simp only [notes, huri]
      rw [huri] at h
      cases h
      rw [hnotes]
      rfl
    | ok target =>
      have hnotes : notes w (.call uri) = [asked target.1] := by simp only [notes, huri]
      rw [huri] at h
      cases h
      rw [hnotes]
      exact row_endpoint_post w.registry target.1
  | connects i result log =>
    simp only [step] at h
    split at h
    next asker host stats hi =>
      cases h
      have hlist := hw.listed i _ host stats hi rfl
      have hnotes : notes w (.connects i result log) = opened host (result.map Prod.fst) := by
        simp only [notes, hi]
      rw [hnotes]
      cases result with
      | error err => rfl
      | ok pair =>
        obtain ⟨upstream, socket⟩ := pair
        refine Eq.trans ?_ (row_setUp hlist upstream)
        unfold World.finish
        simp only
        rcases setUp w.registry stats upstream with ⟨_ | _, registry⟩ <;> rfl
    next => cases h
  | givesUp i =>
    simp only [step] at h
    split at h
    next => cases h; rfl
    next => cases h
  | tells i result log =>
    simp only [step] at h
    split at h
    next =>
      cases result with
      | error err => cases h; rfl
      | ok client => cases h; rfl
    next => cases h
  | copies i act =>
    have hsound := sound_step hw h
    have hnotes : ∀ {old new}, w.flows[i]? = some old → w'.flows[i]? = some new →
        notes w (.copies i act) = moved old new := by
      intro old new hold hnew
      simp only [notes, h, Option.bind_some, hold, hnew]
    simp only [step] at h
    split at h
    next host stats copy hi =>
      obtain ⟨next, hnext, rfl⟩ := Option.map_eq_some_iff.mp h
      have hi' : (w.advance i stats (.tunnel host stats copy) (.tunnel host stats next)).flows[i]? =
          some (.tunnel host stats next) :=
        List.getElem?_set_self (List.getElem?_eq_some_iff.mp hi).1
      rw [hnotes hi hi']
      exact row_advance hw hi rfl (hsound.kept i _ hi')
    next => cases h
  | polls i c =>
    have hsound := sound_step hw h
    have hnotes : ∀ {old new}, w.flows[i]? = some old → w'.flows[i]? = some new →
        notes w (.polls i c) = moved old new := by
      intro old new hold hnew
      simp only [notes, h, Option.bind_some, hold, hnew]
    simp only [step] at h
    split at h
    next host stats stream hi =>
      cases h
      have hi' : (w.advance i stats (.upstream host stats stream)
          (.upstream host stats (perform stream c))).flows[i]? =
          some (.upstream host stats (perform stream c)) :=
        List.getElem?_set_self (List.getElem?_eq_some_iff.mp hi).1
      rw [hnotes hi hi']
      exact row_advance hw hi rfl (hsound.kept i _ hi')
    next => cases h
  | associate =>
    cases h
    rfl
  | relay i act =>
    obtain ⟨u, hi, h⟩ := Option.bind_eq_some_iff.mp h
    split_ifs at h with hown
    obtain ⟨u', hu, rfl⟩ := Option.map_eq_some_iff.mp h
    have hnotes : notes w (.relay i act) = relayed { u with registry := w.registry } act := by
      simp only [notes, hi]
    rw [hnotes]
    exact row_relayed (hw.coherent i u hi) hown hu
  | abort i =>
    obtain ⟨u, hi, rfl⟩ := Option.map_eq_some_iff.mp h
    rfl

/-! ### Runs -/

section Runs

variable {acts : List Act} {w : World cap}

/-- **The registry is the ledger of the run**, after every step. -/
theorem row_run (h : run step (World.start : World cap) acts = some w) :
    w.registry.row = lines fresh Note.act (book cap acts) := by
  refine run_induction (P := fun acts w => w.registry.row = lines fresh Note.act (book cap acts))
    rfl ?_ h
  intro acts w act w' hrun ih hstep
  have hbook : book cap (acts ++ [act]) = book cap acts ++ notes w act := by
    unfold book
    rw [trace_snoc act hrun, List.flatMap_append, List.flatMap_singleton]
  rw [row_step (sound_run hrun) hstep, ih, hbook, lines_append]

/-- What an entry adds to a counter of a host. -/
def amount (host : Text) (c : Counter) (entry : Entry Text Note) : UInt64 :=
  match entry.effect with
  | .counted d n => if entry.key = host ∧ c = d then n else 0
  | _ => 0

def address (host : Text) (entry : Entry Text Note) : Option IpAddr :=
  match entry.effect with
  | .located addr => if entry.key = host then some addr else none
  | _ => none

/-- A line adds up what was counted, and keeps the first address. -/
lemma amend_note (host : Text) (entries : List (Entry Text Note)) :
    (∀ c, (amend Note.act host entries fresh).count c = (entries.map (amount host c)).sum) ∧
      (amend Note.act host entries fresh).ip = entries.findSome? (address host) := by
  induction entries using List.reverseRecOn with
  | nil => exact ⟨count_fresh, rfl⟩
  | append_singleton entries entry ih =>
    obtain ⟨hcount, hip⟩ := ih
    obtain ⟨key, note⟩ := entry
    rw [amend_concat]
    constructor
    · intro c
      rw [List.map_append, List.sum_append, ← hcount, List.map_singleton, List.sum_singleton]
      cases note with
      | counted d n =>
        by_cases hkey : key = host
        · rw [if_pos hkey]
          refine (count_fetchAdd _ n c d).trans ?_
          simp [amount, hkey]
        · simp [amount, hkey]
      | _ => split_ifs <;> simp [Note.act, amount]
    · rw [List.findSome?_append, ← hip]
      cases note with
      | located addr =>
        by_cases hkey : key = host
        · rw [if_pos hkey]
          change some (Option.getD _ addr) = _
          cases (amend Note.act host entries fresh).ip <;> simp [address, hkey]
        · simp [address, hkey]
      | _ => split_ifs <;> simp [Note.act, address]

/-- **What a snapshot says.** In every state that can be reached, a snapshot has a row for exactly
those hosts that are in the book; the counters of a row are what the book adds up to for its
host, whatever handles and caches the adds went through, and its address is the first one the
book has for it. -/
theorem snapshot_is_book (h : run step (World.start : World cap) acts = some w)
    (filter : Option Text) {listing : List (Text × Arc)}
    (hl : HashMap.Lists w.registry.endpoints listing) :
    (∀ e ∈ w.registry.snapshotOf filter listing,
      (∃ entry ∈ book cap acts, entry.key = e.domain) ∧
      (∀ c, e.count c = ((book cap acts).map (amount e.domain c)).sum) ∧
      e.ipAddress = (book cap acts).findSome? (address e.domain)) ∧
    ∀ entry ∈ book cap acts, ∃ e ∈ w.registry.snapshotOf filter listing, e.domain = entry.key := by
  have hrow : ∀ host, w.registry.row host = if ∃ entry ∈ book cap acts, entry.key = host then
      some (amend Note.act host (book cap acts) fresh) else none := fun host =>
    (congrFun (row_run h) host).trans (lines_eq _ _)
  constructor
  · intro e he
    obtain ⟨s, hs, hof⟩ := (mem_snapshotOf w.registry filter hl e).mp he
    rw [hrow] at hs
    split_ifs at hs with hmem
    cases hs
    obtain ⟨hcount, hip⟩ := amend_note e.domain (book cap acts)
    refine ⟨hmem, fun c => ?_, ?_⟩
    · rw [hof, Endpoint.count_of]
      exact hcount c
    · rw [hof]
      exact hip
  · intro entry hentry
    have hs := hrow entry.key
    rw [if_pos ⟨entry, hentry, rfl⟩] at hs
    exact ⟨_, (mem_snapshotOf w.registry filter hl (.of filter entry.key _)).mpr ⟨_, hs, rfl⟩, rfl⟩

end Runs

/-! ### Two addresses of a host -/

def elsewhere : IpAddr := .v4 ⟨[198, 51, 100, 1], rfl⟩

/-- A tunnel and an upstream connection of the HTTP client to one host: the second is asked for
first, and opened last, elsewhere. -/
def twoPeers : List Act :=
  [.call ⟨none, some "a".toList⟩,
    .connect "a".toList [1] uploader,
    .connects 1 (.ok (⟨.ok (), .ok localhost⟩, responder)) none,
    .tells 1 (.ok uploader) none,
    .connects 0 (.ok (⟨.ok (), .ok elsewhere⟩, responder)) none,
    .copies 1 (.aToB (.fill 16)),
    .polls 0 (.read (.new 8))]

theorem snapshot_is_book_twoPeers : ∃ w : World 16, run step World.start twoPeers = some w ∧
    (∀ e ∈ w.registry.snapshot none,
      (∃ entry ∈ book 16 twoPeers, entry.key = e.domain) ∧
      (∀ c, e.count c = ((book 16 twoPeers).map (amount e.domain c)).sum) ∧
      e.ipAddress = (book 16 twoPeers).findSome? (address e.domain)) ∧
    w.registry.snapshot none = [⟨"a".toList, some localhost, 1, 1, 2, true⟩] := by
  have hrows : (run step (World.start : World 16) twoPeers).map
      (fun w => w.registry.snapshot none) =
      some [⟨"a".toList, some localhost, 1, 1, 2, true⟩] := by
    decide +kernel
  obtain ⟨w, hw, hsnapshot⟩ := Option.map_eq_some_iff.mp hrows
  exact ⟨w, hw, (snapshot_is_book hw none (HashMap.lists_toList _)).1, hsnapshot⟩

end Wiretally.Bookkeeping
