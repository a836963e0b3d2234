import Mathlib.Data.List.Perm.Subperm
import SessionTickets.Proofs.Cache.Consistent

namespace SessionTickets

open Time

namespace BoundedCache

variable {α : Type} {c : BoundedCache α}

/-- All entries but the one at a key. -/
theorem others_singleton (c : BoundedCache α) (key : String) :
    c.others [key] = c.recent.filter (·.1 ≠ key) :=
  List.filter_congr fun _ _ => decide_eq_decide.2 (not_congr List.mem_singleton)

/-- Without the entry at a key, nothing is held there and the same everywhere else. -/
theorem lookup_others_singleton (c : BoundedCache α) (key k : String) :
    (c.others [key]).lookup k = if k = key then none else c.held? k := by
  rw [lookup_others]
  simp only [List.mem_singleton]

/-- To remove a key drops what is held there, and nothing else. -/
theorem held?_remove (c : BoundedCache α) (key k : String) :
    (c.remove key).2.held? k = if k = key then none else c.held? k :=
  lookup_others_singleton c key k

/-- A sweep drops what has expired, at every key. -/
theorem Consistent.held?_sweep (h : c.Consistent) (now : Instant) (k : String) :
    (c.sweep now).2.held? k = (c.held? k).filter (·.isLive now) := by
  change (c.others (c.deadlines.expired now)).lookup k = _
  rw [h.others_expired, lookup_filter_of_nodup h.nodup, held?]

/-- The value at a key is found until the deadline of its entry. -/
theorem Consistent.get_value (h : c.Consistent) (now : Instant) (key : String) :
    (c.get now key).1 = ((c.held? key).filter (·.isLive now)).map (·.value) := by
  rw [BoundedCache.get, h.isExpired_eq]
  cases hheld : c.held? key with
  | none => simp
  | some held => cases hlive : held.isLive now <;> simp [hlive, Option.filter]

/-- Looking at a key drops what has expired there, and nothing else. -/
theorem Consistent.held?_get (h : c.Consistent) (now : Instant) (key k : String) :
    (c.get now key).2.held? k =
      if k = key then (c.held? k).filter (·.isLive now) else c.held? k := by
  have hothers := lookup_others_singleton c key k
  rw [BoundedCache.get, h.isExpired_eq]
  cases hheld : c.held? key with
  | none =>
    simp only [Option.any_none, Bool.false_eq_true, if_false]
    split
    · next hk => rw [hk, hheld, Option.filter_none]
    · rfl
  | some held =>
    cases hlive : held.isLive now with
    | false =>
      simp only [Option.any_some, hlive, Bool.not_false, if_true]
      change (c.others [key]).lookup k = _
      rw [hothers]
      split
      · next hk => simp [hk, hheld, Option.filter, hlive]
      · rfl
    | true =>
      simp only [Option.any_some, hlive, Bool.not_true, Bool.false_eq_true, if_false]
      rw [held?, SortedMap.lookup_cons_if, hothers]
      split
      · next hk => simp [hk, hheld, Option.filter, hlive]
      · rfl

private theorem held?_push_self (c : BoundedCache α) (key : String) (held : Held α) :
    (c.push key held).held? key = some held := by
  rw [push, held?, SortedMap.lookup_cons_if, if_pos rfl]

/-- An entry at another key stays or is dropped to make room. -/
theorem held?_push_of_ne (c : BoundedCache α) {key k : String} (held : Held α) (hne : k ≠ key) :
    (c.push key held).held? k = c.held? k ∨ (c.push key held).held? k = none := by
  have hothers := lookup_others_singleton c key k
  rw [if_neg hne, ← List.take_append_drop (c.capacity - 1) (c.others [key]),
    List.lookup_append] at hothers
  rw [push, held?, SortedMap.lookup_cons_if, if_neg hne]
  cases hkept : ((c.others [key]).take (c.capacity - 1)).lookup k with
  | none => exact .inr rfl
  | some kept =>
    rw [hkept, Option.some_or] at hothers
    exact .inl hothers

/-- Nothing is dropped behind an entry in front as long as all others fit. -/
theorem held?_push_of_fits {key k : String} (held : Held α) (hne : k ≠ key)
    (hfits : (c.others [key]).length < c.capacity) : (c.push key held).held? k = c.held? k := by
  have hothers := lookup_others_singleton c key k
  rw [if_neg hne] at hothers
  rw [push, held?, SortedMap.lookup_cons_if, if_neg hne, List.take_of_length_le (by omega), hothers]

/-- To make room does not change the capacity. -/
theorem capacity_makeRoom (c : BoundedCache α) (now : Instant) (key : String) :
    (c.makeRoom now key).capacity = c.capacity := by
  rw [makeRoom]
  split <;> rfl

/-- To look at a key does not change the capacity. -/
theorem capacity_get (c : BoundedCache α) (now : Instant) (key : String) :
    (c.get now key).2.capacity = c.capacity := by
  rw [get]
  split
  · rfl
  · split <;> rfl

/-- A value that was set is held, with its time and its deadline. -/
theorem held?_set_self (c : BoundedCache α) (now : Instant) (key : String) (value : α)
    (deadline : Option Instant) :
    (c.set now key value deadline).held? key = some ⟨value, now, deadline⟩ :=
  held?_push_self _ key _

/-- At the other keys, to set a key leaves what is held or drops it. -/
theorem Consistent.held?_set_of_ne (h : c.Consistent) (now : Instant) {key k : String} (value : α)
    (deadline : Option Instant) (hne : k ≠ key) :
    (c.set now key value deadline).held? k = c.held? k ∨
      (c.set now key value deadline).held? k = none := by
  have hroom : (c.makeRoom now key).held? k = c.held? k ∨ (c.makeRoom now key).held? k = none := by
    rw [BoundedCache.makeRoom]
    split
    · rw [h.held?_sweep]
      cases c.held? k with
      | none => exact .inr rfl
      | some held => cases hlive : held.isLive now <;> simp [hlive, Option.filter]
    · exact .inl rfl
  rcases held?_push_of_ne (c.makeRoom now key) ⟨value, now, deadline⟩ hne with hpush | hpush
  · rw [BoundedCache.set, hpush]
    exact hroom
  · exact .inr hpush

/-- While there is room for a key, setting it drops nothing. -/
theorem Consistent.held?_set_of_room (h : c.Consistent) (now : Instant) {key k : String} (value : α)
    (deadline : Option Instant) (hroom : c.held? key = none → c.size < c.capacity) (hne : k ≠ key) :
    (c.set now key value deadline).held? k = c.held? k := by
  cases hheld : c.held? key with
  | none =>
    have hlt := hroom hheld
    rw [BoundedCache.set, BoundedCache.makeRoom, if_neg (by omega)]
    exact held?_push_of_fits _ hne (Nat.lt_of_le_of_lt (length_others_le c [key]) hlt)
  | some held =>
    rw [BoundedCache.set, BoundedCache.makeRoom, if_neg (by simp [hheld])]
    exact held?_push_of_fits _ hne
      (Nat.lt_of_lt_of_le (length_others_lt c (Option.isSome_of_eq_some hheld)) h.size_le)

/-- While all keys that are held are among some for which there is room, there is room for any of these
that is not held. -/
theorem Consistent.size_lt_of_held (h : c.Consistent) {keys : List String}
    (hkeys : ∀ k, (c.held? k).isSome → k ∈ keys) (hroom : keys.length ≤ c.capacity) {key : String}
    (hkey : key ∈ keys) (hnone : c.held? key = none) : c.size < c.capacity := by
  have hnew : key ∉ c.recent.map (·.1) := by
    rw [← lookup_isSome_iff, ← held?, hnone]
    exact Bool.false_ne_true
  have hnodup : (key :: c.recent.map (·.1)).Nodup := List.nodup_cons.2 ⟨hnew, h.nodup⟩
  have hsubset : key :: c.recent.map (·.1) ⊆ keys :=
    List.cons_subset.2 ⟨hkey, fun k hk => hkeys k (lookup_isSome_iff.2 hk)⟩
  have hlength := (List.subperm_of_subset hnodup hsubset).length_le
  rw [List.length_cons, List.length_map] at hlength
  exact Nat.lt_of_lt_of_le hlength hroom

end BoundedCache

end SessionTickets
