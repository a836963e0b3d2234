import SessionTickets.Proofs.Cache.Counts
import SessionTickets.Proofs.Cache.Inclusion
import SessionTickets.Proofs.Store.SharedTrace

namespace SessionTickets

open Time

/-- The call to the cache that a call of a ticket store with a prefix comes to. An empty key is
refused before. -/
def StoreCall.cacheCall? (keyPrefix : String) : StoreCall → Option (CacheCall SharedValue)
  | .store ticket => some (.set (keyPrefix ++ ticket.id) (.ticket ticket) ticket.deadline)
  | .retrieve key => if key = "" then none else some (.get (keyPrefix ++ key))
  | .renew key ticket =>
    if key = "" then none else some (.set (keyPrefix ++ key) (.ticket ticket) ticket.deadline)
  | .remove key => if key = "" then none else some (.remove (keyPrefix ++ key))

/-- The call to the cache that a call of one of its users comes to. -/
def SharedCall.cacheCall? : SharedCall → Option (CacheCall SharedValue)
  | .store keyPrefix call => call.cacheCall? keyPrefix
  | .signOut keyPrefix _ key => (StoreCall.remove key).cacheCall? keyPrefix
  | .raw call => some call

/-- A call of a ticket store does to the cache what the call to the cache does that it comes to. -/
theorem LocalStore.machine_eq_cacheCall (keyPrefix : String) (now : Instant) (call : StoreCall)
    (c : SharedCache) :
    ((localStore keyPrefix).machine now call c).2 =
      (call.cacheCall? keyPrefix).elim c fun call => (BoundedCache.machine now call c).2 := by
  cases call with
  | store ticket => rfl
  | retrieve key =>
    by_cases hkey : key = "" <;>
      simp [TicketStore.machine, localStore, withKey, StoreCall.cacheCall?, hkey, BoundedCache.machine]
  | renew key ticket =>
    by_cases hkey : key = "" <;>
      simp [TicketStore.machine, localStore, withKey, StoreCall.cacheCall?, hkey, BoundedCache.machine,
        LocalStore.put]
  | remove key =>
    by_cases hkey : key = "" <;>
      simp [TicketStore.machine, localStore, withKey, StoreCall.cacheCall?, hkey, BoundedCache.machine]

/-- What all users of a shared cache do comes down to calls to the cache, so what holds after every run of
such calls holds after every run of stores that share it. -/
theorem SharedCache.machine_eq_cacheCall (now : Instant) (call : SharedCall) (c : SharedCache) :
    (machine now call c).2 = call.cacheCall?.elim c fun call => (BoundedCache.machine now call c).2 := by
  cases call with
  | store keyPrefix call => exact LocalStore.machine_eq_cacheCall keyPrefix now call c
  | signOut keyPrefix settings key =>
    simp only [machine, SessionStore.signOut_local]
    exact LocalStore.machine_eq_cacheCall keyPrefix now (.remove key) c
  | raw call => rfl

/-- A run of all users ends as the run of their calls to the cache does. -/
theorem SharedCache.run_eq_cacheCalls (c : SharedCache) (calls : Calls SharedCall) :
    (machine.run c calls).2 =
      (BoundedCache.machine.run c (Machine.callsBelow SharedCall.cacheCall? calls)).2 :=
  Machine.run_callsBelow machine_eq_cacheCall calls c

namespace BoundedCache

variable {α : Type} {c : BoundedCache α}

/-- Every call of a user keeps the invariant of the cache. -/
theorem Consistent.sharedStep {c : SharedCache} (h : c.Consistent) (now : Instant)
    (call : SharedCall) : BoundedCache.Consistent (SharedCache.machine now call c).2 := by
  rw [SharedCache.machine_eq_cacheCall]
  cases call.cacheCall? with
  | none => exact h
  | some call => exact h.step now call

/-- The entries, the deadlines kept apart and the counts of a cache fit together. -/
structure WellKept (capacity : Nat) (c : BoundedCache α) : Prop where
  /-- There is room for one entry at least. -/
  capacity_eq : c.capacity = max capacity 1
  nodup : (c.recent.map (·.1)).Nodup
  /-- A deadline is kept for a key exactly if an entry with that deadline is held there. -/
  tracked : ∀ key deadline, c.deadlines.find? key = some deadline ↔
    ∃ held, (key, held) ∈ c.recent ∧ held.deadline = some deadline
  counts_eq : c.counts = ⟨c.recent.length, c.capacity, c.recent.countP (·.2.deadline.isSome)⟩
  counts_le : c.counts.withDeadline ≤ c.counts.size ∧ c.counts.size ≤ c.counts.capacity
  /-- Asking for a key, looking at it and getting it find an entry or find none together. -/
  found : ∀ now key,
    c.contains now key = (c.peek? now key).isSome ∧ c.contains now key = (c.get now key).1.isSome
  sweep_count : ∀ now, (c.sweep now).1 = c.recent.countP (·.2.deadline.any (· ≤ now))
  /-- A sweep leaves every other entry as it is, in the order of use. -/
  recent_sweep : ∀ now, (c.sweep now).2.recent = c.recent.filter (!·.2.deadline.any (· ≤ now))
  counts_sweep : ∀ now, (c.sweep now).2.counts.size + (c.sweep now).1 = c.counts.size ∧
    (c.sweep now).2.counts.withDeadline + (c.sweep now).1 = c.counts.withDeadline
  sweep_sweep : ∀ now, ((c.sweep now).2.sweep now).1 = 0

private theorem Consistent.wellKept (h : c.Consistent) {capacity : Nat}
    (hcapacity : c.capacity = max capacity 1) : c.WellKept capacity where
  capacity_eq := hcapacity
  nodup := h.nodup
  tracked := h.tracked_iff
  counts_eq := by rw [← h.withDeadline_eq, counts, size]
  counts_le := ⟨h.withDeadline_eq ▸ List.countP_le_length, h.size_le⟩
  found := h.contains_eq
  sweep_count now := by
    rw [h.sweep_count]
    simp only [Held.isLive_eq_not_any, Bool.not_not]
  recent_sweep now := by
    rw [h.recent_sweep]
    simp only [Held.isLive_eq_not_any]
  counts_sweep now := ⟨h.size_sweep now, h.withDeadline_sweep now⟩
  sweep_sweep := h.sweep_sweep

/-- Whatever the clock does, the parts of a cache fit together after every run of calls to it, and
after every run of the stores and the other users that share it. -/
theorem run_wellKept :
    (∀ (β : Type) capacity (calls : Calls (CacheCall β)),
      WellKept capacity (machine.run (.empty capacity) calls).2) ∧
    ∀ capacity (calls : Calls SharedCall),
      WellKept capacity (SharedCache.machine.run (.empty capacity) calls).2 := by
  have hrun : ∀ (β : Type) capacity (calls : Calls (CacheCall β)),
      WellKept capacity (machine.run (.empty capacity) calls).2 := by
    intro β capacity calls
    obtain ⟨hconsistent, hcapacity⟩ := consistent_run capacity calls
    exact hconsistent.wellKept hcapacity
  refine ⟨hrun, ?_⟩
  intro capacity calls
  rw [SharedCache.run_eq_cacheCalls]
  exact hrun _ _ _

/-- A cache finds at a time whatever another one finds. -/
structure FindsAll (now : Instant) (c d : BoundedCache α) : Prop where
  held : ∀ key held, c.held? key = some held → held.deadline.all (now < ·) →
    d.held? key = some held
  get : ∀ key value, (c.get now key).1 = some value → (d.get now key).1 = some value
  contains : ∀ key, c.contains now key → d.contains now key
  peek : ∀ key held, c.peek? now key = some held → d.peek? now key = some held

private theorem Covers.findsAll {now : Instant} {c d : BoundedCache α} (h : Covers now c d) :
    FindsAll now c d := by
  obtain ⟨e, f, hsmall, hlarge, -⟩ := id h
  have hpeek : ∀ key held, c.peek? now key = some held → d.peek? now key = some held :=
    fun key held => h.peek?_eq_some
  refine ⟨fun key held => h.held?_eq_some, ?_, ?_, hpeek⟩
  · intro key value hget
    rw [hsmall.consistent.get_value, ← hsmall.consistent.peek?_eq, Option.map_eq_some_iff] at hget
    obtain ⟨held, hfound, rfl⟩ := hget
    rw [hlarge.consistent.get_value, ← hlarge.consistent.peek?_eq, hpeek key held hfound,
      Option.map_some]
  · intro key hcontains
    rw [(hsmall.consistent.contains_eq now key).1, Option.isSome_iff_exists] at hcontains
    obtain ⟨held, hfound⟩ := hcontains
    rw [(hlarge.consistent.contains_eq now key).1, hpeek key held hfound, Option.isSome_some]

end BoundedCache

/-- A store that finds an entry in one cache finds the same in another that finds all of the first. -/
theorem LocalStore.retrieve_eq_of_findsAll {now : Instant} {c d : SharedCache}
    (h : c.FindsAll now d) (keyPrefix key : String)
    (hfound : ((localStore keyPrefix).retrieve key now c).1 ≠ .ok none) :
    ((localStore keyPrefix).retrieve key now d).1 = ((localStore keyPrefix).retrieve key now c).1 := by
  by_cases hkey : key = ""
  · simp only [localStore, withKey, if_pos hkey]
  · simp only [localStore, withKey, if_neg hkey] at hfound ⊢
    cases hget : (c.get now (keyPrefix ++ key)).1 with
    | none =>
      rw [hget] at hfound
      exact absurd rfl hfound
    | some value => rw [h.get _ value hget]

/-- While the clock does not go backwards, a cache finds after every run whatever a cache of smaller
capacity finds after the same run, and so do the stores in it. -/
theorem BoundedCache.larger_findsAll {capacity capacity' : Nat} (hpos : 1 ≤ capacity)
    (hle : capacity ≤ capacity') :
    (∀ (β : Type) start (calls : Calls (CacheCall β)) now, ClockForward start calls now →
      FindsAll now (machine.run (.empty capacity) calls).2
        (machine.run (.empty capacity') calls).2) ∧
    ∀ start (calls : Calls SharedCall) now, ClockForward start calls now →
      let small := (SharedCache.machine.run (.empty capacity) calls).2
      let large := (SharedCache.machine.run (.empty capacity') calls).2
      FindsAll now small large ∧
        ∀ keyPrefix key, ((localStore keyPrefix).retrieve key now small).1 ≠ .ok none →
          ((localStore keyPrefix).retrieve key now large).1 =
            ((localStore keyPrefix).retrieve key now small).1 := by
  have hrun : ∀ (β : Type) start (calls : Calls (CacheCall β)) now, ClockForward start calls now →
      FindsAll now (machine.run (.empty capacity) calls).2
        (machine.run (.empty capacity') calls).2 :=
    fun _ _ _ _ hclock => (Covers.run hpos hle hclock).findsAll
  refine ⟨hrun, ?_⟩
  intro start calls now hclock small large
  have hfinds : FindsAll now small large := by
    have hcalls := hrun _ _ _ _ (Machine.clockForward_callsBelow SharedCall.cacheCall? hclock)
    rw [← SharedCache.run_eq_cacheCalls, ← SharedCache.run_eq_cacheCalls] at hcalls
    exact hcalls
  exact ⟨hfinds, LocalStore.retrieve_eq_of_findsAll hfinds⟩

/-- A cache with room for two entries misses a key that one with room for three finds and moves to
the front; both then drop an entry that has expired, and both still serve what came last. -/
theorem BoundedCache.larger_findsAll_reordered :
    let calls : Calls (CacheCall Nat) :=
      [(.onSecond 0, .set "a" 1 none), (.onSecond 0, .set "b" 2 (some (.onSecond 5))),
        (.onSecond 1, .set "c" 3 none), (.onSecond 2, .get "a"), (.onSecond 6, .set "d" 4 none)]
    let small := (machine.run (.empty 2) calls).2
    let large := (machine.run (.empty 3) calls).2
    let ticket := ServiceTicket.lasting (some (.onSecond 9)) "ST-1"
    let storeCalls : Calls SharedCall :=
      [(.onSecond 0, .store "cas-st:" (.store ticket)), (.onSecond 1, .raw (.set "a" (.text "x") none)),
        (.onSecond 2, .store "cas-st:" (.renew "ST-1" ticket))]
    let smallShared := (SharedCache.machine.run (.empty 2) storeCalls).2
    let largeShared := (SharedCache.machine.run (.empty 3) storeCalls).2
    1 ≤ 2 ∧ 2 ≤ 3 ∧ ClockForward (.onSecond 0) calls (.onSecond 7) ∧
      ClockForward (.onSecond 0) storeCalls (.onSecond 8) ∧
      small.recent.map (·.1) = ["d", "c"] ∧ large.recent.map (·.1) = ["d", "a", "c"] ∧
      FindsAll (.onSecond 7) small large ∧
      ((localStore "cas-st:").retrieve "ST-1" (.onSecond 8) smallShared).1 = .ok (some ticket) ∧
      ((localStore "cas-st:").retrieve "ST-1" (.onSecond 8) largeShared).1 = .ok (some ticket) := by
  intro calls small large ticket storeCalls smallShared largeShared
  have hpos : 1 ≤ 2 := by decide
  have hle : 2 ≤ 3 := by decide
  have hclock : ClockForward (.onSecond 0) calls (.onSecond 7) := by decide
  have hstoreClock : ClockForward (.onSecond 0) storeCalls (.onSecond 8) := by decide
  have hserved :
      ((localStore "cas-st:").retrieve "ST-1" (.onSecond 8) smallShared).1 = .ok (some ticket) := by
    simp only [smallShared, storeCalls, ticket]
    rfl
  obtain ⟨hcalls, hstores⟩ := BoundedCache.larger_findsAll hpos hle
  have hsame := (hstores _ storeCalls _ hstoreClock).2 "cas-st:" "ST-1"
    (by rw [hserved]; exact fun h => nomatch h)
  exact ⟨hpos, hle, hclock, hstoreClock, rfl, rfl, hcalls _ _ calls _ hclock, hserved,
    hsame.trans hserved⟩

end SessionTickets
