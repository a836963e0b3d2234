import SessionTickets.Proofs.Cache.Consistent
import SessionTickets.Proofs.SortedMap

namespace SessionTickets

open Time

namespace BoundedCache

variable {α : Type} {c : BoundedCache α}

/-- The entry at a key is the only one that a test of the entries meets there. -/
private theorem mem_keys_filter_iff (h : c.Consistent) (keep : Held α → Bool) (key : String) :
    key ∈ (c.recent.filter fun e => keep e.2).map (·.1) ↔ (c.held? key).any keep := by
  rw [← lookup_isSome_iff, lookup_filter_of_nodup h.nodup, ← held?]
  cases c.held? key with
  | none => simp
  | some held => cases hkeep : keep held <;> simp [hkeep, Option.filter]

/-- The keys that are kept with a deadline of some kind are those of the entries with one. -/
theorem Consistent.keys_perm (h : c.Consistent) (keep : Instant → Bool) :
    (c.deadlines.filter fun _ deadline => keep deadline).keys.Perm
      ((c.recent.filter (·.2.deadline.any keep)).map (·.1)) := by
  have hnodup : ((c.recent.filter (·.2.deadline.any keep)).map (·.1)).Nodup :=
    h.nodup.sublist (List.filter_sublist.map _)
  rw [List.perm_ext_iff_of_nodup (SortedMap.nodup_keys _) hnodup]
  intro key
  rw [mem_keys_filter_iff h fun held => held.deadline.any keep, SortedMap.keys, ← lookup_isSome_iff]
  change ((c.deadlines.filter _).find? key).isSome ↔ _
  rw [SortedMap.find?_filter, h.deadline]
  cases c.held? key with
  | none => simp
  | some held =>
    cases hdeadline : held.deadline with
    | none => simp [hdeadline]
    | some deadline => cases hkeep : keep deadline <;> simp [hdeadline, hkeep, Option.filter]

/-- As many keys are kept with their deadlines as entries are held that have one. -/
theorem Consistent.withDeadline_eq (h : c.Consistent) :
    c.counts.withDeadline = c.recent.countP (·.2.deadline.isSome) := by
  have hall : (c.deadlines.filter fun _ _ => true) = c.deadlines :=
    SortedMap.ext (List.filter_eq_self.2 fun _ _ => rfl)
  have hperm := (h.keys_perm fun _ => true).length_eq
  rw [hall, SortedMap.keys, List.length_map, List.length_map] at hperm
  rw [counts, SortedMap.size, hperm, List.countP_eq_length_filter]
  rfl

/-- A sweep counts the entries whose deadline has come. -/
theorem Consistent.sweep_count (h : c.Consistent) (now : Instant) :
    (c.sweep now).1 = c.recent.countP (!·.2.isLive now) := by
  have hheld : ∀ key ∈ c.deadlines.expired now, (c.held? key).isSome := by
    intro key hkey
    rw [Deadlines.mem_expired, h.isExpired_eq] at hkey
    exact Option.isSome_of_any hkey
  have hperm := (h.keys_perm (· ≤ now)).length_eq
  change ((c.deadlines.expired now).filter _).length = _
  rw [List.filter_eq_self.2 hheld, Deadlines.expired, hperm, List.length_map,
    List.countP_eq_length_filter]
  congr 2
  funext e
  rw [Held.isLive_eq_not_any, Bool.not_not]

/-- A sweep leaves the entries whose deadline is still to come, in the order of their use. -/
theorem Consistent.recent_sweep (h : c.Consistent) (now : Instant) :
    (c.sweep now).2.recent = c.recent.filter (·.2.isLive now) :=
  h.others_expired now

/-- What a sweep counts is what is missing afterwards. -/
theorem Consistent.size_sweep (h : c.Consistent) (now : Instant) :
    (c.sweep now).2.counts.size + (c.sweep now).1 = c.counts.size := by
  have hsplit := List.length_eq_countP_add_countP (fun e : String × Held α => e.2.isLive now)
    (l := c.recent)
  rw [h.sweep_count, counts, counts, size, size, h.recent_sweep, ← List.countP_eq_length_filter,
    hsplit]
  simp

/-- Every entry that a sweep drops had a deadline. -/
theorem Consistent.withDeadline_sweep (h : c.Consistent) (now : Instant) :
    (c.sweep now).2.counts.withDeadline + (c.sweep now).1 = c.counts.withDeadline := by
  have hdropped : (c.recent.filter (!·.2.isLive now)).countP (·.2.deadline.isSome) =
      c.recent.countP (!·.2.isLive now) := by
    rw [List.countP_filter]
    congr 1
    funext e
    cases hdeadline : e.2.deadline <;> simp [Held.isLive, hdeadline]
  rw [(h.sweep now).withDeadline_eq, h.withDeadline_eq, h.sweep_count, h.recent_sweep, ← hdropped]
  exact (List.countP_eq_countP_filter_add c.recent _ _).symm

/-- A second sweep at the same time finds nothing. -/
theorem Consistent.sweep_sweep (h : c.Consistent) (now : Instant) :
    ((c.sweep now).2.sweep now).1 = 0 := by
  rw [(h.sweep now).sweep_count, h.recent_sweep, List.countP_eq_zero]
  intro e he
  simp [(List.mem_filter.1 he).2]

/-- Looking at a key, peeking and asking for it find an entry or find none together. -/
theorem Consistent.contains_eq (h : c.Consistent) (now : Instant) (key : String) :
    c.contains now key = (c.peek? now key).isSome ∧
      c.contains now key = (c.get now key).1.isSome := by
  rw [contains, peek?, BoundedCache.get, h.isExpired_eq]
  cases hheld : c.held? key with
  | none => simp
  | some held => cases hlive : held.isLive now <;> simp [hlive]

/-- A key is kept with a deadline exactly if an entry with that deadline is held. -/
theorem Consistent.tracked_iff (h : c.Consistent) (key : String) (deadline : Instant) :
    c.deadlines.find? key = some deadline ↔
      ∃ held, (key, held) ∈ c.recent ∧ held.deadline = some deadline := by
  rw [h.deadline, Option.bind_eq_some_iff]
  constructor
  · rintro ⟨held, hheld, hdeadline⟩
    obtain ⟨newer, older, hsplit, -⟩ := List.lookup_eq_some_iff.1 hheld
    exact ⟨held, hsplit ▸ List.mem_append_right _ (.head _), hdeadline⟩
  · rintro ⟨held, hmem, hdeadline⟩
    exact ⟨held, lookup_of_mem h.nodup hmem, hdeadline⟩

end BoundedCache

end SessionTickets
