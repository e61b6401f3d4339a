import Wiretally.Lib.HashMap
import Wiretally.Net

/-!
Reverse DNS.

The names it gives are canonical, without trailing dots and in lower case, whether they come
from the resolver or from the cache.
-/

namespace Wiretally.Dns

open Wiretally.Lib Wiretally.Net Wiretally.Text

inductive RData
  | ptr (name : Text)
  | other

/-- The cached reverse resolver, disabled if there is no resolver to ask. -/
structure ReverseResolver where
  resolver : Option (IpAddr → Option (List RData))
  cache : HashMap IpAddr (Option Text)

/-- The name in the first PTR record of an answer. -/
def ptrName (records : List RData) : Option Text :=
  records.findSome? fun
    | .ptr name => some (toAsciiLowercase (trimEndMatches '.' name))
    | .other => none

/-- What the resolver knows of an address; an empty name is none. -/
def ReverseResolver.resolved (self : ReverseResolver) (ip : IpAddr) : Option Text :=
  match self.resolver with
  | some lookup => ((lookup ip).bind ptrName).filter fun name : Text => !name.isEmpty
  | none => none

def ReverseResolver.hostname (self : ReverseResolver) (ip : IpAddr) :
    Option Text × ReverseResolver :=
  match self.cache.lookup ip with
  | some hit => (hit, self)
  | none =>
    let resolved := self.resolved ip
    (resolved, { self with cache := self.cache.insert ip resolved })

/-- The names in the cache are canonical. -/
def Canonical (self : ReverseResolver) : Prop :=
  ∀ ip name, self.cache.lookup ip = some (some name) → canonical name = name

lemma canonical_ptrName {records : List RData} {name : Text} (h : ptrName records = some name) :
    canonical name = name := by
  obtain ⟨record, -, hname⟩ := List.exists_of_findSome?_eq_some h
  cases record with
  | ptr text =>
    cases hname
    exact canonical_idem text
  | other => cases hname

lemma canonical_resolved {self : ReverseResolver} {ip : IpAddr} {name : Text}
    (h : self.resolved ip = some name) : canonical name = name := by
  unfold ReverseResolver.resolved at h
  split at h
  next lookup _ =>
    obtain ⟨hbind, -⟩ := Option.filter_eq_some_iff.mp h
    obtain ⟨records, -, hptr⟩ := Option.bind_eq_some_iff.mp hbind
    exact canonical_ptrName hptr
  next => cases h

/-- **A lookup gives a canonical name and keeps the cache so.** -/
theorem canonical_hostname {self : ReverseResolver} (h : Canonical self) (ip : IpAddr) :
    (∀ name, (self.hostname ip).1 = some name → canonical name = name) ∧
      Canonical (self.hostname ip).2 := by
  unfold ReverseResolver.hostname
  split
  next hit hcache => exact ⟨fun name hname => h ip name (hname ▸ hcache), h⟩
  next hcache =>
    refine ⟨fun name hname => canonical_resolved hname, fun ip' name hlookup => ?_⟩
    rw [HashMap.lookup_insert_eq_ite] at hlookup
    split_ifs at hlookup
    · exact canonical_resolved (Option.some.inj hlookup)
    · exact h ip' name hlookup

lemma resolved_of_ptr {lookup : IpAddr → Option (List RData)} {cache} {ip : IpAddr} {name : Text}
    {more : List RData} (h : lookup ip = some (.ptr name :: more)) (hne : canonical name ≠ []) :
    ReverseResolver.resolved ⟨some lookup, cache⟩ ip = some (canonical name) := by
  unfold ReverseResolver.resolved
  simp only [h, Option.bind_some]
  have hptr : ptrName (.ptr name :: more) = some (canonical name) := rfl
  rw [hptr, Option.filter_some, if_pos]
  simpa [List.isEmpty_iff] using hne

end Wiretally.Dns
