import SessionTickets.Proofs.Cache.Entries

namespace SessionTickets

open Time

variable {α : Type}

/-- A cache in which nothing outlives its deadline, with the most recently used entry first. -/
structure EagerCache (α : Type) where
  capacity : Nat
  entries : List (String × Held α)

namespace EagerCache

/-- No entries. -/
def empty (capacity : Nat) : EagerCache α := ⟨capacity, []⟩

/-- The entries other than that at a key. -/
def others (e : EagerCache α) (key : String) : List (String × Held α) :=
  e.entries.filter (·.1 ≠ key)

/-- The clock moves on: entries whose deadline has come disappear. -/
def elapse (now : Instant) (e : EagerCache α) : EagerCache α :=
  { e with entries := e.entries.filter (·.2.isLive now) }

/-- The value at a key, whose entry moves to the front. -/
def get (key : String) (e : EagerCache α) : Option α × EagerCache α :=
  match e.entries.lookup key with
  | some held => (some held.value, { e with entries := (key, held) :: e.others key })
  | none => (none, e)

/-- Puts an entry in front. The last entry is dropped only if as many others are held as fit. -/
def set (key : String) (held : Held α) (e : EagerCache α) : EagerCache α :=
  let others := e.others key
  { e with entries := (key, held) :: if others.length < e.capacity then others else others.dropLast }

/-- Drops the entry at a key. -/
def remove (key : String) (e : EagerCache α) : EagerCache α :=
  { e with entries := e.others key }

private theorem entries_elapse (now : Instant) (e : EagerCache α) :
    (e.elapse now).entries = e.entries.filter (·.2.isLive now) :=
  rfl

/-- The new entry stands in front of the others, without the last of them if they do not fit. -/
theorem entries_set (key : String) (held : Held α) (e : EagerCache α) :
    (e.set key held).entries =
      (key, held) ::
        if (e.others key).length < e.capacity then e.others key else (e.others key).dropLast :=
  rfl

end EagerCache

/-- A call to a cache. -/
inductive CacheCall (α : Type) where
  | get (key : String)
  | set (key : String) (value : α) (deadline : Option Instant)
  | remove (key : String)
  | contains (key : String)
  | peek (key : String)
  | sweep

/-- What a call shows of the entries. -/
inductive CacheAnswer (α : Type) where
  | value (value : Option α)
  | presence (present : Bool)
  | entry (held : Option (Held α))
deriving DecidableEq

namespace CacheCall

/-- Whether a call is a sweep. -/
def isSweep : CacheCall α → Bool
  | .sweep => true
  | _ => false

end CacheCall

/-- Calls to a bounded cache. -/
def BoundedCache.machine : Machine (BoundedCache α) (CacheCall α) (Option (CacheAnswer α)) :=
  fun now call c =>
    match call with
    | .get key => (some (.value (c.get now key).1), (c.get now key).2)
    | .set key value deadline => (none, c.set now key value deadline)
    | .remove key => (none, (c.remove key).2)
    | .contains key => (some (.presence (c.contains now key)), c)
    | .peek key => (some (.entry (c.peek? now key)), c)
    | .sweep => (none, (c.sweep now).2)

namespace BoundedCache

variable {c : BoundedCache α}

/-- Every call keeps the invariant. -/
theorem Consistent.step (h : c.Consistent) (now : Instant) (call : CacheCall α) :
    (machine now call c).2.Consistent := by
  cases call with
  | get key => exact h.get now key
  | set key value deadline => exact h.set now key value deadline
  | remove key => exact h.remove key
  | contains key => exact h
  | peek key => exact h
  | sweep => exact h.sweep now

/-- No call changes the capacity. -/
theorem capacity_machine (now : Instant) (call : CacheCall α) (c : BoundedCache α) :
    (machine now call c).2.capacity = c.capacity := by
  cases call with
  | get key => exact c.capacity_get now key
  | set key value deadline => exact c.capacity_makeRoom now key
  | _ => rfl

/-- Every run keeps the invariant and the capacity, whatever the clock does. -/
theorem consistent_run (capacity : Nat) (calls : Calls (CacheCall α)) :
    ((machine.run (empty capacity) calls).2).Consistent ∧
      (machine.run (empty capacity) calls).2.capacity = max capacity 1 := by
  apply Machine.run_invariant (P := fun _ (c : BoundedCache α) => c.Consistent ∧ c.capacity = _)
  · exact ⟨consistent_empty capacity, rfl⟩
  · intro _ c now call h
    exact ⟨h.1.step now call, (capacity_machine now call c).trans h.2⟩

end BoundedCache

/-- Calls to an eager cache. A sweep finds nothing to do, and an entry whose deadline is past
disappears right after it was put in. -/
def EagerCache.machine : Machine (EagerCache α) (CacheCall α) (Option (CacheAnswer α)) :=
  fun now call e =>
    let e := e.elapse now
    match call with
    | .get key => (some (.value (e.get key).1), (e.get key).2)
    | .set key value deadline => (none, (e.set key ⟨value, now, deadline⟩).elapse now)
    | .remove key => (none, e.remove key)
    | .contains key => (some (.presence (e.entries.lookup key).isSome), e)
    | .peek key => (some (.entry (e.entries.lookup key)), e)
    | .sweep => (none, e)

/-- From a time on the two caches hold the same live entries in the same order. -/
structure SameLive (now : Instant) (c : BoundedCache α) (e : EagerCache α) : Prop where
  consistent : c.Consistent
  capacity : e.capacity = c.capacity
  entries : (e.elapse now).entries = c.recent.filter (·.2.isLive now)

/-- What is live later is what is live of the entries that are live now. -/
theorem filter_isLive_filter {now later : Instant} (h : now ≤ later)
    (entries : List (String × Held α)) :
    (entries.filter (·.2.isLive now)).filter (·.2.isLive later) =
      entries.filter (·.2.isLive later) := by
  rw [List.filter_filter]
  apply List.filter_congr
  intro e _
  cases hlater : e.2.isLive later with
  | false => rfl
  | true => simp [Held.isLive_of_le h hlater]

/-- It does not matter whether a key or the expired entries are taken out first. -/
private theorem filter_isLive_others (now : Instant) (key : String) (entries : List (String × Held α)) :
    (entries.filter (·.2.isLive now)).filter (·.1 ≠ key) =
      (entries.filter fun e => e.1 ∉ [key]).filter (·.2.isLive now) := by
  rw [List.filter_filter, List.filter_filter]
  apply List.filter_congr
  intro e _
  simp [Bool.and_comm]

namespace SameLive

variable {now : Instant} {c : BoundedCache α} {e : EagerCache α}

/-- The relation lasts while the clock moves on. -/
theorem later {later : Instant} (hle : now ≤ later) (h : SameLive now c e) : SameLive later c e := by
  refine ⟨h.consistent, h.capacity, ?_⟩
  have hentries := h.entries
  simp only [EagerCache.elapse] at hentries ⊢
  rw [← filter_isLive_filter hle, hentries, filter_isLive_filter hle]

/-- The caches find the same at every key. -/
theorem lookup (h : SameLive now c e) (key : String) :
    (e.elapse now).entries.lookup key = c.peek? now key := by
  rw [h.entries, lookup_filter_of_nodup h.consistent.nodup, BoundedCache.peek?,
    h.consistent.isExpired_eq]
  change (c.held? key).filter _ = _
  cases c.held? key with
  | none => simp
  | some held => cases hlive : held.isLive now <;> simp [hlive, Option.filter]

/-- Without a key the live entries are still the same. -/
private theorem others (h : SameLive now c e) (key : String) :
    (e.elapse now).others key = (c.others [key]).filter (·.2.isLive now) := by
  rw [EagerCache.others, h.entries, filter_isLive_others]
  rfl

/-- A call that leaves the eager cache as it is keeps the relation. -/
theorem elapse (h : SameLive now c e) : SameLive now c (e.elapse now) := by
  refine ⟨h.consistent, h.capacity, ?_⟩
  have hentries := h.entries
  simp only [EagerCache.elapse] at hentries ⊢
  rw [filter_isLive_filter (Instant.le_refl now), hentries]

private theorem remove (h : SameLive now c e) (key : String) :
    SameLive now (c.remove key).2 ((e.elapse now).remove key) := by
  refine ⟨h.consistent.remove key, h.capacity, ?_⟩
  simp only [EagerCache.elapse, EagerCache.remove]
  rw [← EagerCache.elapse, h.others, filter_isLive_filter (Instant.le_refl now)]
  rfl

/-- To look at a key keeps the relation, and finds the same. -/
private theorem get (h : SameLive now c e) (key : String) :
    (c.get now key).1 = ((e.elapse now).get key).1 ∧
      SameLive now (c.get now key).2 ((e.elapse now).get key).2 := by
  have hlookup := h.lookup key
  have hconsistent := h.consistent.get now key
  rw [BoundedCache.get] at hconsistent ⊢
  rw [BoundedCache.peek?] at hlookup
  rw [EagerCache.get]
  by_cases hexpired : c.deadlines.isExpired key now
  · rw [if_pos hexpired] at hlookup hconsistent ⊢
    rw [hlookup]
    refine ⟨rfl, hconsistent, h.capacity, ?_⟩
    -- The entry that is dropped was not among the live ones.
    have hsame : (e.elapse now).others key = (e.elapse now).entries := by
      apply List.filter_eq_self.2
      intro f hf
      have hne : key ≠ f.1 := by
        rintro rfl
        have hsome := lookup_isSome_iff.2 (List.mem_map_of_mem hf)
        rw [hlookup] at hsome
        cases hsome
      simpa using hne.symm
    rw [h.elapse.entries, ← h.entries, ← hsame, h.others]
  · rw [if_neg hexpired] at hlookup hconsistent ⊢
    rw [hlookup]
    cases hheld : c.held? key with
    | none => exact ⟨rfl, h.elapse⟩
    | some held =>
      rw [hheld] at hconsistent
      refine ⟨rfl, hconsistent, h.capacity, ?_⟩
      simp only [EagerCache.elapse, List.filter_cons]
      rw [← EagerCache.elapse, h.others, filter_isLive_filter (Instant.le_refl now)]

private theorem sweep (h : SameLive now c e) : SameLive now (c.sweep now).2 e := by
  refine ⟨h.consistent.sweep now, h.capacity, ?_⟩
  change _ = (c.others (c.deadlines.expired now)).filter _
  rw [h.consistent.others_expired, filter_isLive_filter (Instant.le_refl now), h.entries]

private theorem makeRoom (h : SameLive now c e) (key : String) : SameLive now (c.makeRoom now key) e := by
  rw [BoundedCache.makeRoom]
  split
  · exact h.sweep
  · exact h

end SameLive

namespace BoundedCache

/-- Once room has been made, the other entries fit behind the front with one to spare, or else all
entries are live. -/
theorem Consistent.makeRoom_fits {c : BoundedCache α} (h : c.Consistent) (now : Instant)
    (key : String) :
    ((c.makeRoom now key).others [key]).length < c.capacity ∨
      ∀ e ∈ (c.makeRoom now key).recent, e.2.isLive now := by
  rw [BoundedCache.makeRoom]
  split
  · right
    intro e he
    change e ∈ c.others (c.deadlines.expired now) at he
    rw [h.others_expired] at he
    exact (List.mem_filter.1 he).2
  · next hroom =>
    left
    cases hheld : c.held? key with
    | none =>
      have hlt : c.size < c.capacity := by
        simp only [hheld, Option.isNone_none, and_true, Nat.not_le] at hroom
        exact hroom
      exact Nat.lt_of_le_of_lt (length_others_le c [key]) hlt
    | some held =>
      exact Nat.lt_of_lt_of_le (length_others_lt c (Option.isSome_of_eq_some hheld)) h.size_le

end BoundedCache

namespace SameLive

variable {now : Instant} {c : BoundedCache α} {e : EagerCache α}

/-- To put an entry in front keeps the relation, unless a live entry is dropped before an expired one. -/
private theorem push (h : SameLive now c e) (key : String) (held : Held α)
    (hfits : (c.others [key]).length < c.capacity ∨ ∀ e ∈ c.recent, e.2.isLive now) :
    SameLive now (c.push key held) ((e.elapse now).set key held) := by
  refine ⟨h.consistent.push key held, h.capacity, ?_⟩
  have hkept : (if ((e.elapse now).others key).length < (e.elapse now).capacity
      then (e.elapse now).others key else ((e.elapse now).others key).dropLast).filter (·.2.isLive now) =
        ((c.others [key]).take (c.capacity - 1)).filter (·.2.isLive now) := by
    rw [h.others, h.elapse.capacity]
    rcases hfits with hlt | hlive
    · have hle : ((c.others [key]).filter (·.2.isLive now)).length ≤ (c.others [key]).length :=
        List.length_filter_le _ _
      rw [if_pos (by omega), filter_isLive_filter (Instant.le_refl now),
        List.take_of_length_le (by omega)]
    · have hall : (c.others [key]).filter (·.2.isLive now) = c.others [key] :=
        List.filter_eq_self.2 fun f hf => hlive f (List.mem_filter.1 hf).1
      have hle := Nat.le_trans (c.length_others_le [key]) h.consistent.size_le
      have hpos := h.consistent.capacity_pos
      rw [hall]
      split
      · rw [List.take_of_length_le (by omega)]
      · rw [List.dropLast_eq_take, show (c.others [key]).length = c.capacity by omega]
  rw [EagerCache.entries_elapse, EagerCache.entries_set, BoundedCache.push, List.filter_cons,
    List.filter_cons, hkept]

/-- To set a key keeps the relation: a full cache is swept first, so what is dropped for want of room is live.
-/
private theorem set (h : SameLive now c e) (key : String) (value : α) (deadline : Option Instant) :
    SameLive now (c.set now key value deadline) ((e.elapse now).set key ⟨value, now, deadline⟩) := by
  have hfits := h.consistent.makeRoom_fits now key
  rw [← c.capacity_makeRoom now key] at hfits
  exact (h.makeRoom key).push key _ hfits

/-- The relation lasts over every call, and both caches answer it alike. -/
theorem step (h : SameLive now c e) (call : CacheCall α) :
    (BoundedCache.machine now call c).1 = (EagerCache.machine now call e).1 ∧
      SameLive now (BoundedCache.machine now call c).2 (EagerCache.machine now call e).2 := by
  cases call with
  | get key =>
    obtain ⟨hanswer, hnext⟩ := h.get key
    exact ⟨congrArg (some ∘ CacheAnswer.value) hanswer, hnext⟩
  | set key value deadline => exact ⟨rfl, (h.set key value deadline).elapse⟩
  | remove key => exact ⟨rfl, h.remove key⟩
  | contains key =>
    refine ⟨?_, h.elapse⟩
    have hpresent : c.contains now key = ((e.elapse now).entries.lookup key).isSome := by
      rw [h.lookup, BoundedCache.contains, BoundedCache.peek?]
      cases c.deadlines.isExpired key now <;> simp
    exact congrArg (some ∘ CacheAnswer.presence) hpresent
  | peek key => exact ⟨congrArg (some ∘ CacheAnswer.entry) (h.lookup key).symm, h.elapse⟩
  | sweep => exact ⟨rfl, h.sweep.elapse⟩

/-- Empty caches are related. -/
theorem empty (now : Instant) {capacity : Nat} (h : 1 ≤ capacity) :
    SameLive now (.empty capacity : BoundedCache α) (.empty capacity) :=
  ⟨BoundedCache.consistent_empty capacity, (Nat.max_eq_left h).symm, rfl⟩

end SameLive

namespace EagerCache

private theorem elapse_elapse {now later : Instant} (h : now ≤ later) (e : EagerCache α) :
    (e.elapse now).elapse later = e.elapse later := by
  simp only [elapse, filter_isLive_filter h]

/-- A call sees no more of a cache than what is left once the clock has moved on. -/
theorem machine_eq_of_elapse_eq {now : Instant} {e f : EagerCache α}
    (h : e.elapse now = f.elapse now) (call : CacheCall α) :
    machine now call e = machine now call f := by
  simp only [machine, h]

/-- An eager cache shows the same over a run and over the run without its sweeps. -/
theorem answers_without_sweeps {calls : Calls (CacheCall α)} (h : Forward calls)
    {e f : EagerCache α} (hsame : ∀ c ∈ calls, e.elapse c.1 = f.elapse c.1) :
    (machine.run e calls).1.filterMap (·.2) =
      (machine.run f (calls.filter (!·.2.isSweep))).1.filterMap (·.2) := by
  induction calls generalizing e f with
  | nil => rfl
  | cons call rest ih =>
    obtain ⟨now, call⟩ := call
    obtain ⟨hhead, hrest⟩ := List.pairwise_cons.1 h
    rw [Machine.run_cons]
    cases hsweep : call.isSweep with
    | true =>
      cases call with
      | sweep =>
        rw [List.filter_cons_of_neg (by simp [CacheCall.isSweep])]
        apply ih hrest
        intro c hc
        change (e.elapse now).elapse c.1 = f.elapse c.1
        rw [elapse_elapse (hhead c hc), hsame c (.tail _ hc)]
      | _ => cases hsweep
    | false =>
      have hstep := machine_eq_of_elapse_eq (hsame _ (.head _)) call
      have hlog := ih hrest (e := (machine now call e).2) fun c _ => rfl
      rw [List.filter_cons_of_pos (by simp [hsweep]), Machine.run_cons, ← hstep,
        List.filterMap_cons, List.filterMap_cons, hlog]

end EagerCache

/-- Over a whole run a bounded cache answers as the eager cache does. -/
theorem BoundedCache.log_eq_eager {capacity : Nat} (hcapacity : 1 ≤ capacity)
    {calls : Calls (CacheCall α)} (h : Forward calls) :
    (machine.run (.empty capacity) calls).1 = (EagerCache.machine.run (.empty capacity) calls).1 :=
  Machine.run_log_eq SameLive (fun _ => True)
    (fun _ _ _ _ hle h => h.later hle) (fun _ _ _ call _ h => h.step call) h (fun _ _ => trivial)
    fun now => .empty now hcapacity

/-- Over every run in which the clock does not go backwards, a bounded cache answers as the eager
cache does. Two such runs that differ in their sweeps only show the same. -/
theorem BoundedCache.refines_eager {capacity : Nat} (hcapacity : 1 ≤ capacity) :
    (∀ calls : Calls (CacheCall α), Forward calls →
      (machine.run (.empty capacity) calls).1 =
        (EagerCache.machine.run (.empty capacity) calls).1) ∧
    ∀ calls calls' : Calls (CacheCall α), Forward calls → Forward calls' →
      calls.filter (!·.2.isSweep) = calls'.filter (!·.2.isSweep) →
        (machine.run (.empty capacity) calls).1.filterMap (·.2) =
          (machine.run (.empty capacity) calls').1.filterMap (·.2) := by
  refine ⟨fun calls h => log_eq_eager hcapacity h, ?_⟩
  intro calls calls' h h' hsweeps
  rw [log_eq_eager hcapacity h, log_eq_eager hcapacity h',
    EagerCache.answers_without_sweeps h fun _ _ => rfl,
    EagerCache.answers_without_sweeps h' fun _ _ => rfl, hsweeps]

/-- A full cache takes a third entry when one of its two entries has reached its deadline, with and
without a sweep before. -/
theorem BoundedCache.refines_eager_full :
    let start : Calls (CacheCall Nat) :=
      [(.onSecond 0, .set "a" 1 (some (.onSecond 2))), (.onSecond 1, .set "b" 2 none)]
    let rest : Calls (CacheCall Nat) :=
      [(.onSecond 2, .set "c" 3 (some (.onSecond 9))), (.onSecond 3, .get "a"),
        (.onSecond 3, .peek "b"), (.onSecond 9, .contains "c")]
    let sweep : Instant × CacheCall Nat := (.onSecond 2, .sweep)
    1 ≤ 2 ∧ Forward (start ++ rest) ∧ Forward (start ++ sweep :: rest) ∧
      (machine.run (.empty 2) (start ++ rest)).1 =
        (EagerCache.machine.run (.empty 2) (start ++ rest)).1 ∧
      (machine.run (.empty 2) (start ++ sweep :: rest)).1.filterMap (·.2) =
        (machine.run (.empty 2) (start ++ rest)).1.filterMap (·.2) := by
  intro start rest sweep
  have hcapacity : 1 ≤ 2 := by decide
  have hplain : Forward (start ++ rest) := by decide
  have hswept : Forward (start ++ sweep :: rest) := by decide
  obtain ⟨heager, hsweeps⟩ := BoundedCache.refines_eager (α := Nat) hcapacity
  exact ⟨hcapacity, hplain, hswept, heager _ hplain, hsweeps _ _ hswept hplain rfl⟩

end SessionTickets
