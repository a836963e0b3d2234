import Mathlib.Data.List.Induction
import Mathlib.Data.List.Perm.Basic
import SessionTickets.Proofs.Cache.Consistent
import SessionTickets.Proofs.SortedMap

namespace SessionTickets

open Time

/-- A call that changes deadlines. -/
inductive DeadlineCall where
  /-- Gives a key a deadline, or takes its deadline away. -/
  | set (key : String) (deadline : Option Instant)
  | remove (key : String)
  | drain (now : Instant)
  | clear

/-- The deadline that a key has after some calls, the latest of which comes first. -/
def DeadlineCall.latest? (key : String) : List DeadlineCall → Option Instant
  | [] => none
  | .set k deadline :: earlier => if key = k then deadline else latest? key earlier
  | .remove k :: earlier => if key = k then none else latest? key earlier
  | .drain now :: earlier => (latest? key earlier).filter (now < ·)
  | .clear :: _ => none

namespace Deadlines

/-- The deadlines after a call. -/
def call (d : Deadlines) : DeadlineCall → Deadlines
  | .set key deadline => d.alter key deadline
  | .remove key => d.erase key
  | .drain now => (d.drain now).2
  | .clear => .empty

/-- The deadlines after some calls. -/
def reached (calls : List DeadlineCall) : Deadlines :=
  calls.foldl call .empty

variable (d : Deadlines) (now : Instant)

private theorem nodup_drain : (d.drain now).1.Nodup :=
  SortedMap.nodup_keys _

private theorem mem_drain_iff (key : String) :
    key ∈ (d.drain now).1 ↔ ∃ deadline, d.find? key = some deadline ∧ deadline ≤ now := by
  rw [drain, mem_expired, isExpired, Option.any_eq_true]
  simp only [decide_eq_true_eq]

private theorem find?_drain (key : String) : (d.drain now).2.find? key = (d.find? key).filter (now < ·) := by
  rw [drain, SortedMap.find?_filter]
  congr
  funext deadline
  exact decide_eq_decide.2 Instant.not_le

/-- What a drain takes is untracked, and all else is left as it is. -/
theorem find?_drain_eq_if (key : String) :
    (d.drain now).2.find? key = if key ∈ (d.drain now).1 then none else d.find? key := by
  simp only [find?_drain, mem_drain_iff]
  cases d.find? key with
  | none => simp
  | some deadline => by_cases hdue : deadline ≤ now <;> simp [Option.filter, ← Instant.not_le, hdue]

/-- A drain removes the keys that it takes one after the other. -/
theorem drain_eq_foldl_erase : (d.drain now).2 = (d.drain now).1.foldl SortedMap.erase d := by
  apply SortedMap.ext_find?
  intro key
  have hfold := find?_foldl_erase (d.filter fun _ deadline => deadline ≤ now).entries d key
  rw [find?_drain_eq_if]
  exact (List.foldl_map ▸ hfold).symm

/-- A drain leaves the deadlines that are still to come. -/
theorem find?_drain_eq_some_iff {key : String} {deadline : Instant} :
    (d.drain now).2.find? key = some deadline ↔ d.find? key = some deadline ∧ ¬ deadline ≤ now := by
  rw [find?_drain, Option.filter_eq_some_iff, decide_eq_true_eq, Instant.not_le]

/-- No deadline that is left had come by then. -/
theorem isExpired_drain {key : String} {time : Instant} (h : time ≤ now) :
    (d.drain now).2.isExpired key time = false := by
  rw [isExpired, Option.any_eq_false]
  intro deadline hleft
  obtain ⟨-, hlater⟩ := (find?_drain_eq_some_iff d now).1 hleft
  simpa using fun hle : deadline ≤ time => hlater (Instant.le_trans hle h)

section TwoSteps

variable {early late : Instant}

/-- What was drained is not drained again. -/
private theorem disjoint_drains : ((d.drain early).1).Disjoint ((d.drain early).2.drain late).1 := by
  intro key hearly hlate
  obtain ⟨deadline, hfind, -⟩ := (mem_drain_iff _ late key).1 hlate
  rw [find?_drain_eq_if, if_pos hearly] at hfind
  cases hfind

/-- Two drains take what the later one takes alone. -/
private theorem drain_drain_perm (h : early ≤ late) :
    ((d.drain early).1 ++ ((d.drain early).2.drain late).1).Perm (d.drain late).1 := by
  have hnodup : ((d.drain early).1 ++ ((d.drain early).2.drain late).1).Nodup :=
    List.nodup_append'.2 ⟨nodup_drain d early, nodup_drain _ late, disjoint_drains d⟩
  rw [List.perm_ext_iff_of_nodup hnodup (nodup_drain d late)]
  intro key
  rw [List.mem_append, mem_drain_iff _ late, mem_drain_iff _ late, find?_drain_eq_if]
  by_cases hkey : key ∈ (d.drain early).1
  · obtain ⟨deadline, hfind, hdue⟩ := (mem_drain_iff d early key).1 hkey
    simp only [hkey, true_or, true_iff]
    exact ⟨deadline, hfind, Instant.le_trans hdue h⟩
  · simp only [hkey, false_or, if_false]

private theorem drain_drain (h : early ≤ late) : ((d.drain early).2.drain late).2 = (d.drain late).2 := by
  apply SortedMap.ext_find?
  intro key
  apply Option.ext
  intro deadline
  rw [find?_drain_eq_some_iff, find?_drain_eq_some_iff, find?_drain_eq_some_iff, and_assoc]
  have himplied : ¬ deadline ≤ late → ¬ deadline ≤ early :=
    fun hlater hle => hlater (Instant.le_trans hle h)
  simp only [and_iff_right_of_imp himplied]

end TwoSteps

/-- What a call does to the deadline of a key. -/
theorem find?_call {d : Deadlines} {key : String} {earlier : List DeadlineCall}
    (h : d.find? key = DeadlineCall.latest? key earlier) (c : DeadlineCall) :
    (d.call c).find? key = DeadlineCall.latest? key (c :: earlier) := by
  cases c with
  | set k deadline => rw [call, SortedMap.find?_alter, h, DeadlineCall.latest?]
  | remove k => rw [call, SortedMap.find?_erase, h, DeadlineCall.latest?]
  | drain now => rw [call, find?_drain, h, DeadlineCall.latest?]
  | clear => rfl

/-- A key has the deadline that it was given last. -/
private theorem find?_reached (calls : List DeadlineCall) (key : String) :
    (reached calls).find? key = DeadlineCall.latest? key calls.reverse := by
  induction calls using List.reverseRecOn with
  | nil => rfl
  | append_singleton calls c ih =>
    rw [reached, List.foldl_append, List.foldl_cons, List.foldl_nil, List.reverse_append]
    exact find?_call ih c

/-- A drain takes each key whose deadline has come once, and no other. -/
structure Drains (d : Deadlines) (now : Instant) (latest? : String → Option Instant) : Prop where
  nodup : (d.drain now).1.Nodup
  mem_iff : ∀ key, key ∈ (d.drain now).1 ↔ ∃ deadline, latest? key = some deadline ∧ deadline ≤ now
  find?_eq : ∀ key, (d.drain now).2.find? key = if key ∈ (d.drain now).1 then none else latest? key
  /-- The keys might as well be removed one after the other. -/
  left_eq : (d.drain now).2 = (d.drain now).1.foldl SortedMap.erase d
  isExpired_eq : ∀ key time, time ≤ now → (d.drain now).2.isExpired key time = false

/-- After any calls a drain takes exactly the keys whose last deadline has come, and two drains take what the
later one takes alone. -/
theorem drains_exactly (calls : List DeadlineCall) :
    (∀ now, Drains (reached calls) now fun key => DeadlineCall.latest? key calls.reverse) ∧
    ∀ early late, early ≤ late →
      let first := (reached calls).drain early
      let second := first.2.drain late
      let both := (reached calls).drain late
      first.1.Disjoint second.1 ∧ (first.1 ++ second.1).Perm both.1 ∧ second.2 = both.2 := by
  refine ⟨fun now => ?_, fun early late h => ?_⟩
  · have hlatest := find?_reached calls
    refine ⟨nodup_drain _ now, fun key => ?_, fun key => ?_, drain_eq_foldl_erase _ now, ?_⟩
    · rw [mem_drain_iff, hlatest]
    · rw [find?_drain_eq_if, hlatest]
    · exact fun key time hle => isExpired_drain _ now hle
  · exact ⟨disjoint_drains _, drain_drain_perm _ h, drain_drain _ h⟩

/-- One deadline is replaced by a later one and one is taken away. Another one is drained when it comes, before the
first one, which a single drain takes as well. -/
theorem drains_exactly_overwritten :
    let noon : Instant := .onSecond 43200
    let evening : Instant := .onSecond 64800
    let calls : List DeadlineCall := [.set "a" (some noon), .set "b" (some noon), .set "c" (some noon),
      .set "a" (some evening), .set "c" none]
    let first := (reached calls).drain noon
    let second := first.2.drain evening
    let both := (reached calls).drain evening
    noon ≤ evening ∧ first.1 = ["b"] ∧ second.1 = ["a"] ∧ (first.1 ++ second.1).Perm both.1 ∧
      second.2 = both.2 := by
  intro noon evening calls first second both
  obtain ⟨-, hboth⟩ := drains_exactly calls
  have hle : noon ≤ evening := by decide
  obtain ⟨-, hperm, heq⟩ := hboth noon evening hle
  exact ⟨hle, by decide, by decide, hperm, heq⟩

end Deadlines

end SessionTickets
