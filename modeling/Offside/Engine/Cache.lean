import Offside.Fingerprint.Basic
import Offside.Tree.Basic

/-!
# The cache of compiled programs

A cache holds compiled programs under their fingerprints, up to a capacity. When it is full the
program that was stored first is dropped; being looked up does not keep a program longer. The steps
of a compilation on the cache are separate, so that several compilations may take turns: `lookup`,
and then `hit`, `fail` or `store`.
-/

namespace Offside

/-- A compiled program. -/
structure Compiled where
  source : Text
  /-- The rules that it was compiled under. -/
  rules : List Rule
  fingerprint : Fingerprint
  program : Program
  /-- Which of the successful compilations it came from, counted from 0. -/
  serial : Nat := 0
deriving Repr

/-- What a cache has counted. -/
structure Cache.Stats where
  hits : Nat := 0
  misses : Nat := 0
  failures : Nat := 0
  evictions : Nat := 0
deriving Repr, DecidableEq

/-- A cache. -/
structure Cache where
  /-- The greatest number of programs; with 0 nothing is stored. -/
  capacity : Nat := 256
  /-- The programs by fingerprint. -/
  programs : List (Fingerprint × Compiled) := []
  /-- The fingerprints in the order of storing, oldest first. -/
  order : List Fingerprint := []
  stats : Cache.Stats := {}
deriving Repr

namespace Cache

/-- How many programs the cache holds. -/
def size (c : Cache) : Nat := c.programs.length

/-- The program with a fingerprint. -/
def lookup (c : Cache) (f : Fingerprint) : Option Compiled := c.programs.lookup f

/-- Counts a program found. -/
def hit (c : Cache) : Cache := { c with stats := { c.stats with hits := c.stats.hits + 1 } }

/-- Counts a compilation that failed. -/
def fail (c : Cache) : Cache := { c with stats := { c.stats with failures := c.stats.failures + 1 } }

/-- Counts a compilation that succeeded. -/
def miss (c : Cache) : Cache := { c with stats := { c.stats with misses := c.stats.misses + 1 } }

/-- The cache without its oldest program, given the fingerprints behind that one. -/
def withoutOldest (c : Cache) (oldest : Fingerprint) (order : List Fingerprint) : Cache :=
  { c with
    programs := c.programs.filter fun (f, _) => f ≠ oldest
    order
    stats := { c.stats with evictions := c.stats.evictions + 1 } }

/-- Drops the programs that were stored first, as many as are given. -/
def evict : (count : Nat) → Cache → Cache
  | 0, c => c
  | count + 1, c =>
    match c.order with
    | [] => c
    | oldest :: order => evict count (c.withoutOldest oldest order)

/-- Drops as many programs as are needed for one more to fit in. -/
def makeRoom (c : Cache) : Cache := evict (c.order.length + 1 - c.capacity) c

/-- Adds a program. -/
def add (c : Cache) (p : Compiled) : Cache :=
  { c with programs := (p.fingerprint, p) :: c.programs, order := c.order ++ [p.fingerprint] }

/-- Counts a compilation that succeeded and stores its program, unless one with its fingerprint is
stored already. -/
def store (c : Cache) (p : Compiled) : Cache :=
  let c := c.miss
  if c.capacity = 0 ∨ (c.lookup p.fingerprint).isSome then c else c.makeRoom.add p

/-- Drops every program. What has been counted stays. -/
def reset (c : Cache) : Cache := { c with programs := [], order := [] }

end Cache

end Offside
