import SessionTickets.Cache.Deadlines
import SessionTickets.Time.Stamp

namespace SessionTickets

open Time

variable {α : Type}

/-- A value with the time of its arrival and its deadline. -/
@[ext] structure Held (α : Type) where
  value : α
  cachedAt : Instant
  deadline : Option Instant
deriving DecidableEq

/-- A one-line description of an entry, which does not show its value. -/
def Held.describe (held : Held α) : String :=
  let deadline := match held.deadline with
    | some deadline => "Some(" ++ deadline.text ++ ")"
    | none => "None"
  "CacheEntry \x7b cached_at: " ++ held.cachedAt.text ++ ", absolute_expiration: " ++ deadline ++
    ", .. \x7d"

/-- A cache of bounded size. The entries are kept in the order of their last use, the latest first. An entry
past its deadline is not served; it is dropped when it is asked for, when the cache needs room, or by a sweep.
The deadlines are kept apart as well, so that a sweep need not look at entries that have none. -/
@[ext] structure BoundedCache (α : Type) where
  capacity : Nat
  /-- Keys and entries, the most recently used first. -/
  recent : List (String × Held α)
  deadlines : Deadlines

/-- Counts of a cache. -/
structure CacheCounts where
  size : Nat
  capacity : Nat
  withDeadline : Nat
deriving DecidableEq

namespace BoundedCache

/-- An empty cache. It has room for one entry at least. -/
def empty (capacity : Nat) : BoundedCache α :=
  ⟨max capacity 1, [], .empty⟩

/-- The number of entries, expired ones included. -/
def size (c : BoundedCache α) : Nat := c.recent.length

/-- Whether no entry is held. -/
def isEmpty (c : BoundedCache α) : Bool := c.recent.isEmpty

/-- The entry held at a key, expired or not. -/
def held? (c : BoundedCache α) (key : String) : Option (Held α) := c.recent.lookup key

def others (c : BoundedCache α) (keys : List String) : List (String × Held α) :=
  c.recent.filter fun e => e.1 ∉ keys

/-- The value at a key, if it is there and has not expired. It becomes the most recently used; an
expired entry is dropped. -/
def get (now : Instant) (key : String) (c : BoundedCache α) : Option α × BoundedCache α :=
  if c.deadlines.isExpired key now then
    (none, { c with recent := c.others [key], deadlines := c.deadlines.erase key })
  else
    match c.held? key with
    | some held => (some held.value, { c with recent := (key, held) :: c.others [key] })
    | none => (none, c)

/-- Drops every entry whose deadline has come, and counts the keys that had one. -/
def sweep (now : Instant) (c : BoundedCache α) : Nat × BoundedCache α :=
  let (expired, deadlines) := c.deadlines.drain now
  ((expired.filter fun key => (c.held? key).isSome).length,
    { c with recent := c.others expired, deadlines })

/-- The cache after making room for a key: a full cache that does not hold the key is swept. If nothing has
expired, `push` drops the entry used longest ago. -/
def makeRoom (now : Instant) (key : String) (c : BoundedCache α) : BoundedCache α :=
  if c.capacity ≤ c.size ∧ (c.held? key).isNone then (c.sweep now).2 else c

/-- Puts an entry in front. What no longer fits behind it is dropped, with its deadline. -/
def push (key : String) (held : Held α) (c : BoundedCache α) : BoundedCache α :=
  let others := c.others [key]
  let kept := others.take (c.capacity - 1)
  let evicted := others.drop (c.capacity - 1)
  { c with
    recent := (key, held) :: kept
    deadlines := (evicted.foldl (fun d e => d.erase e.1) c.deadlines).alter key held.deadline }

/-- Puts a value at a key, in place of any other. -/
def set (now : Instant) (key : String) (value : α) (deadline : Option Instant)
    (c : BoundedCache α) : BoundedCache α :=
  (c.makeRoom now key).push key ⟨value, now, deadline⟩

/-- Drops the entry at a key, and says whether there was one. -/
def remove (key : String) (c : BoundedCache α) : Bool × BoundedCache α :=
  ((c.held? key).isSome, { c with recent := c.others [key], deadlines := c.deadlines.erase key })

/-- The entry at a key, if it has not expired. The order of use does not change. -/
def peek? (now : Instant) (key : String) (c : BoundedCache α) : Option (Held α) :=
  if c.deadlines.isExpired key now then none else c.held? key

/-- Whether there is an entry at a key that has not expired. The order of use does not change. -/
def contains (now : Instant) (key : String) (c : BoundedCache α) : Bool :=
  (c.held? key).isSome && !c.deadlines.isExpired key now

/-- What the cache holds, at the time of asking. -/
def counts (c : BoundedCache α) : CacheCounts :=
  ⟨c.size, c.capacity, c.deadlines.size⟩

end BoundedCache

end SessionTickets
