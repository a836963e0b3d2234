import SessionTickets.Cache.Bounded
import SessionTickets.Proofs.Run

namespace SessionTickets

open Time

variable {α β : Type}

/-- A key is found exactly if it is one of the keys. -/
theorem lookup_isSome_iff {entries : List (String × β)} {key : String} :
    (entries.lookup key).isSome ↔ key ∈ entries.map (·.1) := by
  induction entries with
  | nil => simp
  | cons e rest ih =>
    rw [SortedMap.lookup_cons_if, List.map_cons, List.mem_cons, ← ih]
    by_cases h : key = e.1 <;> simp [h]

private theorem lookup_filter_key (entries : List (String × β)) (keep : String → Bool) (key : String) :
    (entries.filter fun e => keep e.1).lookup key = if keep key then entries.lookup key else none := by
  induction entries with
  | nil => simp
  | cons e rest ih =>
    rw [List.filter_cons]
    by_cases hkey : key = e.1
    · subst hkey
      cases hkeep : keep e.1 with
      | true => simp [SortedMap.lookup_cons_if]
      | false => simp [ih, hkeep]
    · have hne := SortedMap.lookup_cons_if e rest key
      rw [if_neg hkey] at hne
      rw [hne, ← ih]
      split
      · rw [SortedMap.lookup_cons_if, if_neg hkey]
      · rfl

/-- Where no key comes twice, every entry is found at its key. -/
theorem lookup_of_mem {entries : List (String × β)} (h : (entries.map (·.1)).Nodup)
    {e : String × β} (hmem : e ∈ entries) : entries.lookup e.1 = some e.2 := by
  induction entries with
  | nil => cases hmem
  | cons f rest ih =>
    obtain ⟨hnew, hrest⟩ := List.nodup_cons.1 h
    rw [SortedMap.lookup_cons_if]
    rcases List.mem_cons.1 hmem with rfl | hmem
    · rw [if_pos rfl]
    · have hne : e.1 ≠ f.1 := by
        intro heq
        exact hnew (List.mem_map.2 ⟨e, hmem, heq⟩)
      rw [if_neg hne, ih hrest hmem]

/-- Where no key comes twice, a test of the entries leaves what is found and passes it. -/
theorem lookup_filter_of_nodup {entries : List (String × β)} (h : (entries.map (·.1)).Nodup)
    (keep : β → Bool) (key : String) :
    (entries.filter fun e => keep e.2).lookup key = (entries.lookup key).filter keep := by
  induction entries with
  | nil => rfl
  | cons e rest ih =>
    obtain ⟨hnew, hrest⟩ := List.nodup_cons.1 h
    rw [SortedMap.lookup_cons_if, List.filter_cons]
    by_cases hkey : key = e.1
    · subst hkey
      have hnone : rest.lookup e.1 = none := by
        rw [← Option.not_isSome_iff_eq_none, lookup_isSome_iff]
        exact hnew
      cases hkeep : keep e.2 with
      | true => simp [SortedMap.lookup_cons_if, Option.filter, hkeep]
      | false => simp [ih hrest, hnone, Option.filter, hkeep]
    · rw [if_neg hkey, ← ih hrest]
      split
      · rw [SortedMap.lookup_cons_if, if_neg hkey]
      · rfl

namespace Deadlines

/-- The expired keys are those whose deadline has come. -/
theorem mem_expired (d : Deadlines) (key : String) (now : Instant) :
    key ∈ d.expired now ↔ d.isExpired key now := by
  rw [expired, SortedMap.keys, ← lookup_isSome_iff]
  change ((d.filter _).find? key).isSome ↔ _
  rw [SortedMap.find?_filter, isExpired]
  cases d.find? key <;> simp [Option.filter]

/-- The keys that are erased one after the other have no deadline any more. -/
theorem find?_foldl_erase (entries : List (String × β)) (d : Deadlines) (key : String) :
    (entries.foldl (fun d e => d.erase e.1) d).find? key =
      if key ∈ entries.map (·.1) then none else d.find? key := by
  induction entries generalizing d with
  | nil => simp
  | cons e rest ih =>
    rw [List.foldl_cons, ih, SortedMap.find?_erase, List.map_cons]
    by_cases hhead : key = e.1 <;> by_cases hrest : key ∈ rest.map (·.1) <;> simp [hhead, hrest]

end Deadlines

/-- Whether the deadline of an entry is still to come. -/
def Held.isLive (now : Instant) (held : Held α) : Bool :=
  held.deadline.all (now < ·)

/-- An entry is live as long as its deadline, if it has one, has not come. -/
theorem Held.isLive_eq_not_any (now : Instant) (held : Held α) :
    held.isLive now = !held.deadline.any (· ≤ now) := by
  cases h : held.deadline with
  | none => simp [isLive, h]
  | some deadline => simp [isLive, h, ← Instant.not_le]

/-- An entry whose deadline is still to come was live before. -/
theorem Held.isLive_of_le {now later : Instant} (h : now ≤ later) {held : Held α}
    (hlive : held.isLive later) : held.isLive now := by
  cases hdeadline : held.deadline with
  | none => simp [isLive, hdeadline]
  | some deadline =>
    simp only [isLive, hdeadline, Option.all_some, decide_eq_true_eq] at hlive ⊢
    exact Instant.lt_of_le_of_lt h hlive

namespace BoundedCache

/-- The invariant of a cache: each key is held once, no more entries are held than fit, and the deadlines that
are kept apart are those of the entries. -/
structure Consistent (c : BoundedCache α) : Prop where
  nodup : (c.recent.map (·.1)).Nodup
  capacity_pos : 0 < c.capacity
  size_le : c.size ≤ c.capacity
  deadline : ∀ key, c.deadlines.find? key = (c.held? key).bind (·.deadline)

/-- An empty cache keeps the invariant, whatever capacity was asked for. -/
theorem consistent_empty (capacity : Nat) : (empty capacity : BoundedCache α).Consistent where
  nodup := .nil
  capacity_pos := Nat.le_max_right _ _
  size_le := Nat.zero_le _
  deadline _ := rfl

variable {c : BoundedCache α}

/-- Without some keys, nothing is held at them and the same everywhere else. -/
theorem lookup_others (c : BoundedCache α) (keys : List String) (key : String) :
    (c.others keys).lookup key = if key ∈ keys then none else c.held? key := by
  rw [others, lookup_filter_key c.recent (fun k => k ∉ keys)]
  by_cases h : key ∈ keys <;> simp [h, held?]

private theorem nodup_others (h : (c.recent.map (·.1)).Nodup) (keys : List String) :
    ((c.others keys).map (·.1)).Nodup :=
  h.sublist (List.filter_sublist.map _)

/-- A key has expired exactly if an entry is held whose deadline has come. -/
theorem Consistent.isExpired_eq (h : c.Consistent) (key : String) (now : Instant) :
    c.deadlines.isExpired key now = (c.held? key).any fun held => !held.isLive now := by
  rw [Deadlines.isExpired, h.deadline]
  cases c.held? key with
  | none => rfl
  | some held => simp [Held.isLive_eq_not_any]

/-- A sweep leaves the live entries, in the order of their use. -/
theorem Consistent.others_expired (h : c.Consistent) (now : Instant) :
    c.others (c.deadlines.expired now) = c.recent.filter (·.2.isLive now) := by
  apply List.filter_congr
  intro e he
  have hheld : c.held? e.1 = some e.2 := lookup_of_mem h.nodup he
  have hexpired := h.isExpired_eq e.1 now
  rw [hheld, Option.any_some] at hexpired
  by_cases hlive : e.2.isLive now <;> simp [Deadlines.mem_expired, hexpired, hlive]

/-- No entries come in when some are left out. -/
theorem length_others_le (c : BoundedCache α) (keys : List String) :
    (c.others keys).length ≤ c.size :=
  List.length_filter_le _ _

/-- Without a key that is held there are fewer entries. -/
theorem length_others_lt (c : BoundedCache α) {key : String} (h : (c.held? key).isSome) :
    (c.others [key]).length < c.size := by
  rw [held?, lookup_isSome_iff] at h
  obtain ⟨e, he, rfl⟩ := List.mem_map.1 h
  exact List.length_filter_lt_length_iff_exists.2 ⟨e, he, by simp⟩

/-- Dropping entries together with their deadlines keeps the invariant. -/
theorem Consistent.drop (h : c.Consistent) {keys : List String} {deadlines : Deadlines}
    (hdeadlines : ∀ key, deadlines.find? key = if key ∈ keys then none else c.deadlines.find? key) :
    Consistent { c with recent := c.others keys, deadlines } where
  nodup := nodup_others h.nodup keys
  capacity_pos := h.capacity_pos
  size_le := Nat.le_trans (length_others_le c keys) h.size_le
  deadline key := by
    rw [hdeadlines, held?, lookup_others, h.deadline]
    split <;> rfl

/-- To remove a key keeps the invariant. -/
theorem Consistent.remove (h : c.Consistent) (key : String) : (c.remove key).2.Consistent :=
  h.drop fun k => by simp [SortedMap.find?_erase]

/-- A sweep keeps the invariant. -/
theorem Consistent.sweep (h : c.Consistent) (now : Instant) : (c.sweep now).2.Consistent := by
  apply h.drop
  intro key
  rw [SortedMap.find?_filter]
  have hexpired := Deadlines.mem_expired c.deadlines key now
  rw [Deadlines.isExpired] at hexpired
  cases hfind : c.deadlines.find? key with
  | none => simp
  | some deadline =>
    rw [hfind, Option.any_some, decide_eq_true_eq] at hexpired
    by_cases hle : deadline ≤ now <;> simp [hexpired, hle, Option.filter]

/-- To look at a key keeps the invariant. -/
theorem Consistent.get (h : c.Consistent) (now : Instant) (key : String) :
    (c.get now key).2.Consistent := by
  rw [BoundedCache.get]
  split
  · exact (h.remove key)
  · split
    · next held hheld =>
      refine ⟨?_, h.capacity_pos, ?_, ?_⟩
      · rw [List.map_cons, List.nodup_cons]
        exact ⟨by simp [others], nodup_others h.nodup [key]⟩
      · have hlt := length_others_lt c (Option.isSome_of_eq_some hheld)
        exact Nat.le_trans hlt h.size_le
      · intro k
        rw [held?, SortedMap.lookup_cons_if, lookup_others, h.deadline]
        by_cases hk : k = key
        · subst hk
          rw [if_pos rfl, hheld]
        · rw [if_neg hk, if_neg (by simpa using hk)]
    · exact h

private theorem Consistent.makeRoom (h : c.Consistent) (now : Instant) (key : String) :
    (c.makeRoom now key).Consistent := by
  rw [BoundedCache.makeRoom]
  split
  · exact h.sweep now
  · exact h

/-- To put an entry in front keeps the invariant. -/
theorem Consistent.push (h : c.Consistent) (key : String) (held : Held α) :
    (c.push key held).Consistent := by
  have hnodup := nodup_others h.nodup [key]
  have hsplit := List.take_append_drop (c.capacity - 1) (c.others [key])
  refine ⟨?_, h.capacity_pos, ?_, ?_⟩
  · rw [BoundedCache.push, List.map_cons, List.nodup_cons]
    refine ⟨?_, hnodup.sublist ((List.take_sublist _ _).map _)⟩
    intro hmem
    have hkey := (List.take_sublist _ _).map _ |>.subset hmem
    simp [others] at hkey
  · have hpos := h.capacity_pos
    simp only [BoundedCache.push, size, List.length_cons, List.length_take]
    omega
  · intro k
    rw [BoundedCache.push, held?, SortedMap.lookup_cons_if, SortedMap.find?_alter]
    by_cases hk : k = key
    · rw [if_pos hk, if_pos hk, Option.bind_some]
    · have hfind := lookup_others c [key] k
      rw [if_neg (by simpa using hk), ← hsplit, List.lookup_append] at hfind
      rw [if_neg hk, if_neg hk, Deadlines.find?_foldl_erase, h.deadline]
      rw [← hsplit, List.map_append, List.nodup_append] at hnodup
      obtain ⟨_, _, hdisjoint⟩ := hnodup
      -- A key behind the cut was held once, so it is held no longer.
      split
      · next hevicted =>
        have hnone : ((c.others [key]).take (c.capacity - 1)).lookup k = none := by
          rw [← Option.not_isSome_iff_eq_none, lookup_isSome_iff]
          exact fun hkept => hdisjoint k hkept k hevicted rfl
        rw [hnone, Option.bind_none]
      · next hkept =>
        have hnone : ((c.others [key]).drop (c.capacity - 1)).lookup k = none := by
          rw [← Option.not_isSome_iff_eq_none, lookup_isSome_iff]
          exact hkept
        rw [hnone, Option.or_none] at hfind
        rw [hfind]

/-- To set a key keeps the invariant. -/
theorem Consistent.set (h : c.Consistent) (now : Instant) (key : String) (value : α)
    (deadline : Option Instant) : (c.set now key value deadline).Consistent :=
  (h.makeRoom now key).push key _

end BoundedCache

end SessionTickets
