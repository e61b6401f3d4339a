import Mathlib.Data.Char
import Mathlib.Data.List.Lex
import Mathlib.Data.List.Sort
import Mathlib.Data.Prod.Lex
import Mathlib.Logic.Function.Basic
import Wiretally.Lib.HashMap
import Wiretally.Net

/-!
Per-endpoint byte counters.

A registry owns a heap of counter blocks and a map from host names to their addresses. An
address stays valid for as long as a task holds it, whether or not the map still lists it,
so the heap is kept apart from the map. That every listed block was allocated, and that no
block is listed twice, is part of what a registry is.

Each operation is one atomic access to a counter or one section under the map lock, in the
order of the source; `rename` is the sequence of those it goes through when it is alone.
-/

namespace Wiretally.Stats

open Wiretally.Lib Wiretally.Net

inductive Counter | ingress | egress | connections
  deriving DecidableEq

/-- The counters of one remote endpoint, and the first address observed for it. -/
structure EndpointStats where
  ingress : UInt64
  egress : UInt64
  connections : UInt64
  ip : Option IpAddr
  deriving DecidableEq

namespace EndpointStats

/-- `EndpointStats::default`. -/
def fresh : EndpointStats := ⟨0, 0, 0, none⟩

/-- `load`: the value of one counter. -/
def count (s : EndpointStats) : Counter → UInt64
  | .ingress => s.ingress
  | .egress => s.egress
  | .connections => s.connections

/-- `fetch_add`, which wraps around. -/
def fetchAdd (s : EndpointStats) (n : UInt64) : Counter → EndpointStats
  | .ingress => { s with ingress := s.ingress + n }
  | .egress => { s with egress := s.egress + n }
  | .connections => { s with connections := s.connections + n }

def addIngress (s : EndpointStats) (n : UInt64) : EndpointStats := s.fetchAdd n .ingress

def addEgress (s : EndpointStats) (n : UInt64) : EndpointStats := s.fetchAdd n .egress

def addConnection (s : EndpointStats) : EndpointStats := s.fetchAdd 1 .connections

/-- The first address observed wins. -/
def observeIp (s : EndpointStats) (addr : IpAddr) : EndpointStats :=
  { s with ip := some (s.ip.getD addr) }

lemma count_fetchAdd (s : EndpointStats) (n : UInt64) (c d : Counter) :
    (s.fetchAdd n d).count c = s.count c + if c = d then n else 0 := by
  cases c <;> cases d <;> simp [fetchAdd, count]

@[simp] lemma fetchAdd_zero (s : EndpointStats) (c : Counter) : s.fetchAdd 0 c = s := by
  cases c <;> simp [fetchAdd]

lemma fetchAdd_fetchAdd (s : EndpointStats) (m n : UInt64) (c : Counter) :
    (s.fetchAdd m c).fetchAdd n c = s.fetchAdd (m + n) c := by
  cases c <;> simp [fetchAdd, UInt64.add_assoc]

lemma fetchAdd_comm (s : EndpointStats) (m n : UInt64) (c d : Counter) :
    (s.fetchAdd m c).fetchAdd n d = (s.fetchAdd n d).fetchAdd m c := by
  by_cases h : c = d
  · subst h
    rw [fetchAdd_fetchAdd, fetchAdd_fetchAdd, UInt64.add_comm]
  · cases c <;> cases d <;> first | rfl | exact absurd rfl h

@[simp] lemma count_observeIp (s : EndpointStats) (addr : IpAddr) (c : Counter) :
    (s.observeIp addr).count c = s.count c := by
  cases c <;> rfl

@[simp] lemma ip_fetchAdd (s : EndpointStats) (n : UInt64) (c : Counter) :
    (s.fetchAdd n c).ip = s.ip := by
  cases c <;> rfl

@[simp] lemma count_fresh (c : Counter) : fresh.count c = 0 := by cases c <;> rfl

lemma ext_count {s t : EndpointStats} (h : ∀ c, s.count c = t.count c) (hip : s.ip = t.ip) :
    s = t := by
  obtain ⟨si, se, sc, sip⟩ := s
  obtain ⟨ti, te, tc, tip⟩ := t
  obtain rfl : si = ti := h .ingress
  obtain rfl : se = te := h .egress
  obtain rfl : sc = tc := h .connections
  obtain rfl : sip = tip := hip
  rfl

end EndpointStats

open EndpointStats

/-- The address of a shared block of counters. -/
abbrev Arc := ℕ

/-- All endpoints seen during a run, keyed by host. -/
structure Registry where
  heap : Arc → EndpointStats
  next : Arc
  endpoints : HashMap Text Arc
  allocated : ∀ host arc, endpoints.lookup host = some arc → arc < next
  distinct : ∀ host host' arc, endpoints.lookup host = some arc →
    endpoints.lookup host' = some arc → host = host'

namespace Registry

def new : Registry where
  heap _ := EndpointStats.fresh
  next := 0
  endpoints := ∅
  allocated _ _ h := by simp at h
  distinct _ _ _ h := by simp at h

/-- One access to the block at `a`. -/
def update (r : Registry) (a : Arc) (f : EndpointStats → EndpointStats) : Registry :=
  { r with heap := Function.update r.heap a (f (r.heap a)) }

/-- The block the map lists for `host`. -/
def row (r : Registry) (host : Text) : Option EndpointStats :=
  (r.endpoints.lookup host).map r.heap

/-- A map with one more host, whose block is allocated and not listed yet. -/
def list (r : Registry) (host : Text) (a : Arc) (ha : a < r.next)
    (hn : ∀ h, r.endpoints.lookup h ≠ some a) : Registry where
  heap := r.heap
  next := r.next
  endpoints := r.endpoints.insert host a
  allocated h b := by
    rw [HashMap.lookup_insert_eq_ite]
    split_ifs
    · rintro ⟨⟩; exact ha
    · exact r.allocated h b
  distinct h h' b := by
    rw [HashMap.lookup_insert_eq_ite, HashMap.lookup_insert_eq_ite]
    split_ifs with h1 h2 h2
    · exact fun _ _ => h1.trans h2.symm
    · rintro ⟨⟩ hb; exact absurd hb (hn h')
    · rintro hb ⟨⟩; exact absurd hb (hn h)
    · exact r.distinct h h' b

def remove (r : Registry) (host : Text) : Registry where
  heap := r.heap
  next := r.next
  endpoints := r.endpoints.erase host
  allocated h b := by
    rw [HashMap.lookup_erase_eq_ite]
    split_ifs
    · simp
    · exact r.allocated h b
  distinct h h' b := by
    rw [HashMap.lookup_erase_eq_ite, HashMap.lookup_erase_eq_ite]
    split_ifs
    · simp
    · simp
    · simp
    · exact r.distinct h h' b

def alloc (r : Registry) : Registry where
  heap := Function.update r.heap r.next EndpointStats.fresh
  next := r.next + 1
  endpoints := r.endpoints
  allocated h b hb := (r.allocated h b hb).trans (Nat.lt_succ_self _)
  distinct := r.distinct

/-- The counters for `host`, created on first sight. -/
def endpoint (r : Registry) (host : Text) : Arc × Registry :=
  match r.endpoints.lookup host with
  | some a => (a, r)
  | none =>
    (r.next, r.alloc.list host r.next (Nat.lt_succ_self _)
      fun h hh => Nat.lt_irrefl _ (r.allocated h _ hh))

/-- The merging branch of `rename`, from the removed block into the one listed for the
target: every counter is read and added in turn, the connections one by one. -/
def merge (r : Registry) (stats existing : Arc) : Registry :=
  let r := r.update existing (·.addIngress (r.heap stats).ingress)
  let r := r.update existing (·.addEgress (r.heap stats).egress)
  let r := (fun r : Registry => r.update existing addConnection)^[(r.heap stats).connections.toNat] r
  match (r.heap stats).ip with
  | some ip => r.update existing (·.observeIp ip)
  | none => r

lemma not_listed_remove (r : Registry) {host : Text} {a : Arc}
    (h : r.endpoints.lookup host = some a) (h' : Text) :
    (r.remove host).endpoints.lookup h' ≠ some a := by
  simp only [remove, HashMap.lookup_erase_eq_ite]
  split_ifs with hh
  · simp
  · exact fun hb => hh (r.distinct _ _ _ hb h)

/-- The map section of `rename`: `src` is taken out of the map and, where `dst` is free, its
block is listed there; otherwise the block still has to be merged into the one of `dst`. -/
def takeOut (r : Registry) (src dst : Text) : Registry × Option (Arc × Arc) :=
  if src = dst then (r, none)
  else
    match hs : r.endpoints.lookup src with
    | none => (r, none)
    | some stats =>
      match (r.remove src).endpoints.lookup dst with
      | some existing => (r.remove src, some (stats, existing))
      | none => ((r.remove src).list dst stats (r.allocated _ _ hs) (r.not_listed_remove hs), none)

/-- Renames `src` to `dst`, merging into the entry for `dst` if there is one. -/
def rename (r : Registry) (src dst : Text) : Registry :=
  match r.takeOut src dst with
  | (r, none) => r
  | (r, some (stats, existing)) => r.merge stats existing

def hosts (r : Registry) : List (Text × Arc) := HashMap.toList r.endpoints

end Registry

/-! ### Snapshots -/

/-- One endpoint's counters, as reported. -/
structure Endpoint where
  domain : Text
  ipAddress : Option IpAddr
  ingressBytes : UInt64
  egressBytes : UInt64
  connections : UInt64
  matchesFilter : Bool
  deriving DecidableEq

/-- `trim_start_matches("*.")`. -/
def trimStartStarDot : Text → Text
  | '*' :: '.' :: rest => trimStartStarDot rest
  | s => s

/-- Whether `domain` falls under `filter`, a domain suffix. -/
def matchesDomain (domain : Text) : Option Text → Bool
  | none => true
  | some filter =>
    let domain := Text.toAsciiLowercase (Text.trimEndMatches '.' domain)
    let filter := Text.toAsciiLowercase
      (Text.trimEndMatches '.' ((trimStartStarDot filter).dropWhile (· == '.')))
    filter.isEmpty || domain == filter || ('.' :: filter).isSuffixOf domain

namespace Endpoint

def of (filter : Option Text) (domain : Text) (s : EndpointStats) : Endpoint where
  domain := domain
  ipAddress := s.ip
  ingressBytes := s.ingress
  egressBytes := s.egress
  connections := s.connections
  matchesFilter := matchesDomain domain filter

def count (e : Endpoint) : Counter → UInt64
  | .ingress => e.ingressBytes
  | .egress => e.egressBytes
  | .connections => e.connections

@[simp] lemma count_of (filter : Option Text) (domain : Text) (s : EndpointStats) (c : Counter) :
    (of filter domain s).count c = s.count c := by
  cases c <;> rfl

/-- Ingress descending, then egress descending, then the name. -/
def key (e : Endpoint) : ℕᵒᵈ ×ₗ ℕᵒᵈ ×ₗ Text :=
  toLex (OrderDual.toDual e.ingressBytes.toNat,
    toLex (OrderDual.toDual e.egressBytes.toNat, e.domain))

end Endpoint

namespace Registry

/-- The snapshot of a registry whose hosts are listed as `listing`. -/
def snapshotOf (r : Registry) (filter : Option Text) (listing : List (Text × Arc)) :
    List Endpoint :=
  (listing.map fun e => Endpoint.of filter e.1 (r.heap e.2)).insertionSort
    fun a b => a.key ≤ b.key

/-- Every endpoint, marking filter matches, largest ingress first. -/
def snapshot (r : Registry) (filter : Option Text) : List Endpoint :=
  r.snapshotOf filter r.hosts

end Registry

end Wiretally.Stats
