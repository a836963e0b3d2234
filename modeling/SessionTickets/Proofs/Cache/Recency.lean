import SessionTickets.Proofs.Cache.Eager

namespace SessionTickets

open Time

variable {α : Type}

/-- Calls to a cache, with what they showed. -/
abbrev CacheLog (α : Type) := List (CacheCall α × Option (CacheAnswer α))

/-- Whether a call used a key: it put a value there, or found one there. -/
def CacheCall.uses (key : String) : CacheCall α × Option (CacheAnswer α) → Bool
  | (.set k _ _, _) => k = key
  | (.get k, some (.value (some _))) => k = key
  | _ => false

/-- How many calls were made since the last use of a key. All calls count if there was none. -/
def CacheLog.age (log : CacheLog α) (key : String) : Nat :=
  log.reverse.findIdx (CacheCall.uses key)

namespace CacheLog

variable {log : CacheLog α} {entry : CacheCall α × Option (CacheAnswer α)} {key : String}

private theorem age_append_of_uses (h : CacheCall.uses key entry) : age (log ++ [entry]) key = 0 := by
  rw [age, List.reverse_append, List.reverse_singleton, List.singleton_append, List.findIdx_cons, h,
    cond_true]

private theorem age_append_of_not_uses (h : CacheCall.uses key entry = false) :
    age (log ++ [entry]) key = log.age key + 1 := by
  rw [age, List.reverse_append, List.reverse_singleton, List.singleton_append, List.findIdx_cons, h,
    cond_false, age]

end CacheLog

namespace BoundedCache

variable {c next : BoundedCache α} {now : Instant} {key : String}

/-- All keys that are held were used, and the later one was used the nearer to the front it stands. A key is
used when a value is put there or found there, and no other call changes the order. -/
structure InOrder (log : CacheLog α) (c : BoundedCache α) : Prop where
  used : ∀ e ∈ c.recent, log.age e.1 < log.length
  ordered : c.recent.Pairwise fun e f => log.age e.1 < log.age f.1

namespace InOrder

variable {log : CacheLog α} {entry : CacheCall α × Option (CacheAnswer α)}

/-- A call that uses no key may drop entries. -/
theorem idle (h : InOrder log c) (hentry : ∀ k, CacheCall.uses k entry = false)
    (hrecent : next.recent.Sublist c.recent) : InOrder (log ++ [entry]) next := by
  constructor
  · intro e he
    have hused := h.used e (hrecent.subset he)
    rw [CacheLog.age_append_of_not_uses (hentry e.1), List.length_append, List.length_singleton]
    omega
  · apply (h.ordered.sublist hrecent).imp
    intro e f hlt
    rw [CacheLog.age_append_of_not_uses (hentry e.1), CacheLog.age_append_of_not_uses (hentry f.1)]
    omega

/-- A call that uses a key puts its entry in front, and may drop others. -/
theorem use (h : InOrder log c) (hentry : ∀ k, CacheCall.uses k entry = decide (key = k))
    {held : Held α} {rest : List (String × Held α)} (hfront : next.recent = (key, held) :: rest)
    (hrest : rest.Sublist (c.others [key])) : InOrder (log ++ [entry]) next := by
  have hself : CacheLog.age (log ++ [entry]) key = 0 :=
    CacheLog.age_append_of_uses ((hentry key).trans (decide_eq_true rfl))
  -- All others age alike, so their order among themselves stays.
  have hother : ∀ e ∈ rest, CacheLog.age (log ++ [entry]) e.1 = log.age e.1 + 1 := by
    intro e he
    have hne : e.1 ∉ [key] := of_decide_eq_true (List.mem_filter.1 (hrest.subset he)).2
    apply CacheLog.age_append_of_not_uses
    rw [hentry]
    exact decide_eq_false fun hkey => hne (List.mem_singleton.2 hkey.symm)
  have hsublist : rest.Sublist c.recent := hrest.trans List.filter_sublist
  constructor
  · rw [hfront, List.length_append, List.length_singleton]
    intro e he
    obtain rfl | he := List.mem_cons.1 he
    · rw [hself]
      omega
    · have hused := h.used e (hsublist.subset he)
      rw [hother e he]
      omega
  · rw [hfront, List.pairwise_cons]
    constructor
    · intro e he
      rw [hself, hother e he]
      omega
    · apply (h.ordered.sublist hsublist).imp_of_mem
      intro e f he hf hlt
      rw [hother e he, hother f hf]
      omega

end InOrder

/-- Looking for a key where none is found leaves all other entries in their order. -/
theorem recent_get_of_none (h : (c.get now key).1 = none) :
    (c.get now key).2.recent.Sublist c.recent := by
  rw [get] at h ⊢
  split
  · exact List.filter_sublist
  · next hlive =>
    rw [if_neg hlive] at h
    cases hheld : c.held? key with
    | none => exact .refl _
    | some held =>
      rw [hheld] at h
      cases h

/-- Finding a key moves its entry to the front, and does nothing else. -/
theorem get_of_some {value : α} (h : (c.get now key).1 = some value) :
    ∃ held, c.held? key = some held ∧ held.value = value ∧
      (c.get now key).2 = { c with recent := (key, held) :: c.others [key] } := by
  rw [get] at h ⊢
  split at h
  · cases h
  · next hlive =>
    rw [if_neg hlive]
    cases hheld : c.held? key with
    | none =>
      rw [hheld] at h
      cases h
    | some held =>
      rw [hheld, Option.some.injEq] at h
      exact ⟨held, rfl, h, rfl⟩

private theorem recent_makeRoom (c : BoundedCache α) (now : Instant) (key : String) :
    (c.makeRoom now key).recent.Sublist c.recent := by
  rw [makeRoom]
  split
  · exact List.filter_sublist
  · exact .refl _

/-- To set a key puts it in front of as many others as fit, after room was made. -/
private theorem recent_set (c : BoundedCache α) (now : Instant) (key : String) (value : α)
    (deadline : Option Instant) :
    (c.set now key value deadline).recent =
      (key, ⟨value, now, deadline⟩) :: ((c.makeRoom now key).others [key]).take (c.capacity - 1) := by
  rw [set, push, capacity_makeRoom]

/-- A call that uses no key leaves the entries that stay in their order. -/
theorem recent_machine_of_idle {call : CacheCall α}
    (h : ∀ k, CacheCall.uses k (call, (machine now call c).1) = false) :
    (machine now call c).2.recent.Sublist c.recent := by
  cases call with
  | get k =>
    apply recent_get_of_none
    cases hfound : (c.get now k).1 with
    | none => rfl
    | some value =>
      have hused := h k
      simp only [machine, hfound, CacheCall.uses, decide_true] at hused
      cases hused
  | set k value deadline =>
    have hused := h k
    simp only [CacheCall.uses, decide_true] at hused
    cases hused
  | remove k => exact List.filter_sublist
  | contains k => exact .refl _
  | peek k => exact .refl _
  | sweep => exact List.filter_sublist

/-- Every call keeps the order of use. -/
theorem InOrder.step {log : CacheLog α} (h : InOrder log c) (now : Instant) (call : CacheCall α) :
    InOrder (log ++ [(call, (machine now call c).1)]) (machine now call c).2 := by
  cases call with
  | get k =>
    cases hfound : (c.get now k).1 with
    | none =>
      simp only [machine, hfound]
      exact h.idle (fun _ => rfl) (recent_get_of_none hfound)
    | some value =>
      obtain ⟨held, -, -, hfront⟩ := get_of_some hfound
      simp only [machine, hfound]
      exact h.use (fun _ => rfl) (congrArg recent hfront) (.refl _)
  | set k value deadline =>
    refine h.use (fun _ => rfl) (recent_set c now k value deadline) ?_
    exact (List.take_sublist _ _).trans ((recent_makeRoom c now k).filter _)
  | remove k => exact h.idle (fun _ => rfl) List.filter_sublist
  | contains k => exact h.idle (fun _ => rfl) (.refl _)
  | peek k => exact h.idle (fun _ => rfl) (.refl _)
  | sweep => exact h.idle (fun _ => rfl) List.filter_sublist

/-- After every run the entries stand in the order of their last use. -/
private theorem inOrder_run (capacity : Nat) (calls : Calls (CacheCall α)) :
    InOrder (machine.run (empty capacity) calls).1 (machine.run (empty capacity) calls).2 := by
  apply Machine.run_invariant
  · exact ⟨fun e he => (nomatch he), .nil⟩
  · exact fun _ _ now call h => h.step now call

/-- There is no room for a key: the cache is full of other entries, and none of them has expired. -/
structure NoRoom (now : Instant) (key : String) (c : BoundedCache α) : Prop where
  full : c.capacity ≤ c.size
  missing : c.held? key = none
  live : ∀ e ∈ c.recent, e.2.isLive now

private theorem others_set (c : BoundedCache α) (now : Instant) (key : String) (value : α)
    (deadline : Option Instant) :
    (c.set now key value deadline).others [key] =
      ((c.makeRoom now key).others [key]).take (c.capacity - 1) := by
  rw [others, recent_set, List.filter_cons_of_neg (by simp)]
  apply List.filter_eq_self.2
  exact fun e he => (List.mem_filter.1 (List.mem_of_mem_take he)).2

private theorem others_eq_recent (h : c.held? key = none) : c.others [key] = c.recent := by
  apply List.filter_eq_self.2
  intro e he
  have hne : e.1 ≠ key := by
    rintro rfl
    have hheld : (c.held? e.1).isSome := lookup_isSome_iff.2 (List.mem_map_of_mem he)
    rw [h] at hheld
    cases hheld
  exact decide_eq_true fun hmem => hne (List.mem_singleton.1 hmem)

/-- A key that is held, or for which there is room, is set with no loss. -/
theorem Consistent.others_set_of_room (h : c.Consistent) (now : Instant) (value : α)
    (deadline : Option Instant) (hroom : (c.held? key).isSome ∨ c.size < c.capacity) :
    (c.set now key value deadline).others [key] = c.others [key] := by
  have hkept : c.makeRoom now key = c := by
    rw [BoundedCache.makeRoom, if_neg]
    rintro ⟨hfull, hmissing⟩
    obtain hheld | hlt := hroom
    · rw [Option.isNone_iff_eq_none] at hmissing
      rw [hmissing] at hheld
      cases hheld
    · omega
  have hfits : (c.others [key]).length ≤ c.capacity - 1 := by
    have hle := h.size_le
    obtain hheld | hlt := hroom
    · have hothers := c.length_others_lt hheld
      omega
    · have hothers := c.length_others_le [key]
      omega
  rw [others_set, hkept, List.take_of_length_le hfits]

/-- A key that is set in a full cache makes way for itself by a sweep. -/
theorem Consistent.others_set_of_full (h : c.Consistent) (now : Instant) (value : α)
    (deadline : Option Instant) (hfull : c.capacity ≤ c.size) (hmissing : c.held? key = none) :
    (c.set now key value deadline).others [key] =
      (c.recent.filter (·.2.isLive now)).take (c.capacity - 1) := by
  have hswept : (c.makeRoom now key).recent = c.recent.filter (·.2.isLive now) := by
    rw [BoundedCache.makeRoom, if_pos ⟨hfull, Option.isNone_iff_eq_none.2 hmissing⟩]
    exact h.others_expired now
  have hothers : (c.makeRoom now key).others [key] = (c.others [key]).filter (·.2.isLive now) := by
    rw [others, hswept, List.filter_filter, others, List.filter_filter]
    simp only [Bool.and_comm]
  rw [others_set, hothers, others_eq_recent hmissing]

/-- If an entry has expired, room is made by the loss of all that have. -/
theorem Consistent.others_set_of_expired (h : c.Consistent) (value : α) (deadline : Option Instant)
    (hfull : c.capacity ≤ c.size) (hmissing : c.held? key = none)
    (hexpired : ∃ e ∈ c.recent, e.2.isLive now = false) :
    (c.set now key value deadline).others [key] = c.recent.filter (·.2.isLive now) := by
  obtain ⟨e, he, hdead⟩ := hexpired
  have hlt : (c.recent.filter (·.2.isLive now)).length < c.size :=
    List.length_filter_lt_length_iff_exists.2 ⟨e, he, by rw [hdead]; exact Bool.false_ne_true⟩
  have hle := h.size_le
  rw [h.others_set_of_full now value deadline hfull hmissing, List.take_of_length_le (by omega)]

/-- Without room, the entry that was used longest ago goes. -/
theorem Consistent.recent_eq_of_noRoom (h : c.Consistent) (value : α) (deadline : Option Instant)
    (hnone : c.NoRoom now key) :
    ∃ gone, c.recent = (c.set now key value deadline).others [key] ++ [gone] := by
  have hall : c.recent.filter (·.2.isLive now) = c.recent := List.filter_eq_self.2 hnone.live
  have hlength : c.recent.length = c.capacity := Nat.le_antisymm h.size_le hnone.full
  have hne : c.recent ≠ [] := by
    have hpos := h.capacity_pos
    rw [← List.length_pos_iff]
    omega
  refine ⟨c.recent.getLast hne, ?_⟩
  rw [h.others_set_of_full now value deadline hnone.full hnone.missing, hall, ← hlength,
    ← List.dropLast_eq_take, List.dropLast_append_getLast]

end BoundedCache

/-- A call neither writes nor removes what is held at a key, nor evicts it. -/
def CacheCall.Leaves (key : String) (now : Instant) (c : BoundedCache α) : CacheCall α → Prop
  | .set k _ _ => k ≠ key ∧ (c.NoRoom now k → c.recent.getLast?.map (·.1) ≠ some key)
  | .remove k => k ≠ key
  | .get _ | .contains _ | .peek _ | .sweep => True

namespace BoundedCache

variable {c next : BoundedCache α} {now : Instant} {key : String}

/-- An entry stays until its deadline, as long as the calls leave it. -/
theorem Consistent.held?_machine_of_leaves (h : c.Consistent) {held : Held α}
    (hheld : c.held? key = some held) (hlive : held.isLive now) {call : CacheCall α}
    (hcall : call.Leaves key now c) : (machine now call c).2.held? key = some held := by
  have hkept : (c.held? key).filter (·.isLive now) = some held := by
    rw [hheld, Option.filter_some, if_pos hlive]
  cases call with
  | get k =>
    have hget := h.held?_get now k key
    rw [hkept, hheld, ite_self] at hget
    exact hget
  | set k value deadline =>
    obtain ⟨hne, hlast⟩ := hcall
    have hothers : ∀ d : BoundedCache α, (d.others [k]).lookup key = d.held? key := by
      intro d
      rw [lookup_others_singleton, if_neg hne.symm]
    change (c.set now k value deadline).held? key = some held
    rw [← hothers]
    -- Nothing goes, or expired entries do, or the last entry does; each time it is another one.
    by_cases hroom : (c.held? k).isSome ∨ c.size < c.capacity
    · rw [h.others_set_of_room now value deadline hroom, hothers, hheld]
    · rw [not_or, Bool.not_eq_true, Option.isSome_eq_false_iff, Option.isNone_iff_eq_none, Nat.not_lt] at hroom
      by_cases hexpired : ∃ e ∈ c.recent, e.2.isLive now = false
      · rw [h.others_set_of_expired value deadline hroom.2 hroom.1 hexpired,
          lookup_filter_of_nodup h.nodup, ← hkept, held?]
      · have hnone : c.NoRoom now k := by
          refine ⟨hroom.2, hroom.1, fun e he => ?_⟩
          by_contra hdead
          exact hexpired ⟨e, he, (Bool.not_eq_true _).mp hdead⟩
        obtain ⟨gone, hrecent⟩ := h.recent_eq_of_noRoom value deadline hnone
        have hgone : key ≠ gone.1 := by
          rintro rfl
          apply hlast hnone
          rw [hrecent, List.getLast?_append, List.getLast?_singleton, Option.some_or, Option.map_some]
        rw [held?, hrecent, List.lookup_append, SortedMap.lookup_cons_if, if_neg hgone, List.lookup_nil,
          Option.or_none] at hheld
        exact hheld
  | remove k =>
    have hremove := c.held?_remove k key
    rw [if_neg (Ne.symm hcall), hheld] at hremove
    exact hremove
  | contains k => exact hheld
  | peek k => exact hheld
  | sweep =>
    have hsweep := h.held?_sweep now key
    rw [hkept] at hsweep
    exact hsweep

/-- What it does to the entries of a cache with some log to set a key. -/
structure SetsKey (log : CacheLog α) (now : Instant) (key : String) (held : Held α)
    (c next : BoundedCache α) : Prop where
  front : next.recent = (key, held) :: next.recent.filter (·.1 ≠ key)
  room : (c.held? key).isSome ∨ c.size < c.capacity →
    next.recent.filter (·.1 ≠ key) = c.recent.filter (·.1 ≠ key)
  /-- A full cache drops its expired entries, if it has any. -/
  expired : c.capacity ≤ c.size → c.held? key = none →
    (∃ e ∈ c.recent, e.2.deadline.any (· ≤ now)) →
      next.recent.filter (·.1 ≠ key) = c.recent.filter (!·.2.deadline.any (· ≤ now))
  /-- If it has none, it drops the entry whose last use lies furthest back. -/
  evicts : c.capacity ≤ c.size → c.held? key = none →
    (∀ e ∈ c.recent, e.2.deadline.any (· ≤ now) = false) →
      ∃ gone, c.recent = next.recent.filter (·.1 ≠ key) ++ [gone] ∧ log.age gone.1 < log.length ∧
        ∀ e ∈ next.recent.filter (·.1 ≠ key), log.age e.1 < log.age gone.1

/-- After every run, whatever the clock did, this is what it does to set a key; and a call that uses
no key leaves the entries that stay as they are, in the order of their use. -/
theorem set_makes_room (capacity : Nat) (calls : Calls (CacheCall α)) :
    let run := machine.run (.empty capacity) calls
    (∀ now key value deadline,
      SetsKey run.1 now key ⟨value, now, deadline⟩ run.2 (run.2.set now key value deadline)) ∧
    ∀ now call, (∀ key, CacheCall.uses key (call, (machine now call run.2).1) = false) →
      (machine now call run.2).2.recent.Sublist run.2.recent := by
  intro run
  refine ⟨?_, fun now call hidle => recent_machine_of_idle hidle⟩
  intro now key value deadline
  obtain ⟨hconsistent, -⟩ := consistent_run capacity calls
  have horder := inOrder_run capacity calls
  have hlive : ∀ e : String × Held α, e.2.isLive now = !e.2.deadline.any (· ≤ now) :=
    fun e => e.2.isLive_eq_not_any now
  have hothers : ∀ d : BoundedCache α, d.recent.filter (·.1 ≠ key) = d.others [key] :=
    fun d => (others_singleton d key).symm
  constructor
  · rw [hothers, others_set, recent_set]
  · rw [hothers, hothers]
    exact hconsistent.others_set_of_room now value deadline
  · rw [hothers]
    rintro hfull hmissing ⟨e, he, hdead⟩
    have hexpired : ∃ e ∈ run.2.recent, e.2.isLive now = false := ⟨e, he, by rw [hlive, hdead]; rfl⟩
    have hkept := hconsistent.others_set_of_expired value deadline hfull hmissing hexpired
    simp only [hlive] at hkept
    exact hkept
  · rw [hothers]
    intro hfull hmissing halive
    have hnone : run.2.NoRoom now key :=
      ⟨hfull, hmissing, fun e he => by rw [hlive, halive e he]; rfl⟩
    obtain ⟨gone, hrecent⟩ := hconsistent.recent_eq_of_noRoom value deadline hnone
    refine ⟨gone, hrecent, horder.used gone ?_, ?_⟩
    · exact hrecent ▸ List.mem_append_right _ (.head _)
    · have hordered := horder.ordered
      rw [hrecent, List.pairwise_append] at hordered
      exact fun e he => hordered.2.2 e he gone (.head _)

/-- In a full cache the entry that was put in first stays, because it was found since. To look at the
other one is no use of it, and the clock has no say. -/
theorem set_makes_room_found :
    let calls : Calls (CacheCall Nat) :=
      [(.onSecond 5, .set "a" 1 none), (.onSecond 3, .set "b" 2 (some (.onSecond 9))),
        (.onSecond 4, .get "a"), (.onSecond 1, .contains "b")]
    let run := machine.run (.empty 2) calls
    let next := run.2.set (.onSecond 2) "c" 3 none
    (∀ key, CacheCall.uses key (.peek "b", (machine (.onSecond 2) (.peek "b") run.2).1) = false) ∧
      (machine (.onSecond 2) (.peek "b") run.2).2.recent.Sublist run.2.recent ∧
      SetsKey run.1 (.onSecond 2) "c" ⟨3, .onSecond 2, none⟩ run.2 next ∧
      next.recent.map (·.1) = ["c", "a"] ∧ (CacheLog.age run.1 "a", CacheLog.age run.1 "b") = (1, 2) := by
  intro calls run next
  obtain ⟨hsets, hidle⟩ := set_makes_room 2 calls
  have hpeek : ∀ key, CacheCall.uses key
      (.peek "b", (machine (.onSecond 2) (.peek "b") run.2).1) = false := fun _ => rfl
  exact ⟨hpeek, hidle _ _ hpeek, hsets _ "c" 3 none, rfl, rfl⟩

end BoundedCache

end SessionTickets
