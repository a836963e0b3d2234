import SessionTickets.Proofs.Cache.Eager

namespace SessionTickets

open Time

variable {α : Type}

private theorem dropLast_sublist_dropLast {β : Type} {l l' : List β} (h : l.Sublist l') :
    l.dropLast.Sublist l'.dropLast := by
  rw [← List.reverse_sublist, ← List.tail_reverse, ← List.tail_reverse]
  exact h.reverse.tail

namespace EagerCache

/-- A cache holds the entries of a smaller one, in the same order, and no more others than it has room for
beyond the smaller one's capacity. So whenever the larger one drops its last entry the smaller one drops an
entry as well. -/
structure Inside (e f : EagerCache α) : Prop where
  capacity_pos : 0 < e.capacity
  capacity_le : e.capacity ≤ f.capacity
  nodup : (f.entries.map (·.1)).Nodup
  sublist : e.entries.Sublist f.entries
  length_le : e.entries.length ≤ e.capacity
  length_le' : f.entries.length ≤ f.capacity
  /-- The larger cache holds no more others than its capacity exceeds that of the smaller one. -/
  extra : f.entries.length + e.capacity ≤ e.entries.length + f.capacity

private theorem length_others_lt (e : EagerCache α) {key : String} (h : (e.entries.lookup key).isSome) :
    (e.others key).length < e.entries.length := by
  obtain ⟨entry, hmem, rfl⟩ := List.mem_map.1 (lookup_isSome_iff.1 h)
  exact List.length_filter_lt_length_iff_exists.2 ⟨entry, hmem, by simp⟩

private theorem others_eq_entries (e : EagerCache α) {key : String} (h : e.entries.lookup key = none) :
    e.others key = e.entries := by
  apply List.filter_eq_self.2
  intro entry hmem
  have hne : entry.1 ≠ key := by
    rintro rfl
    have hsome := lookup_isSome_iff.2 (List.mem_map_of_mem hmem)
    rw [h] at hsome
    cases hsome
  simpa using hne

private theorem not_mem_keys_others (e : EagerCache α) (key : String) : key ∉ (e.others key).map (·.1) := by
  simp [others]

namespace Inside

variable {e f : EagerCache α}

private theorem empty {capacity capacity' : Nat} (h : 1 ≤ capacity) (hle : capacity ≤ capacity') :
    Inside (.empty capacity : EagerCache α) (.empty capacity') where
  capacity_pos := h
  capacity_le := hle
  nodup := .nil
  sublist := .slnil
  length_le := Nat.zero_le _
  length_le' := Nat.zero_le _
  extra := by simpa [EagerCache.empty] using hle

/-- What the smaller cache holds at a key the larger one holds there. -/
theorem lookup_eq_some (h : Inside e f) {key : String} {held : Held α}
    (hlookup : e.entries.lookup key = some held) : f.entries.lookup key = some held := by
  obtain ⟨newer, older, hsplit, -⟩ := List.lookup_eq_some_iff.1 hlookup
  have hmem : (key, held) ∈ e.entries := hsplit ▸ List.mem_append_right _ (.head _)
  exact lookup_of_mem h.nodup (h.sublist.subset hmem)

/-- Entries that disappear from both caches leave the rest nested. -/
theorem filter (h : Inside e f) (keep : String × Held α → Bool) :
    Inside { e with entries := e.entries.filter keep } { f with entries := f.entries.filter keep } := by
  have hlength := h.length_le
  have hlength' := h.length_le'
  have hfilter := List.length_filter_le keep e.entries
  have hfilter' := List.length_filter_le keep f.entries
  refine ⟨h.capacity_pos, h.capacity_le, h.nodup.sublist (List.filter_sublist.map _),
    h.sublist.filter keep, by simp only; omega, by simp only; omega, ?_⟩
  have hcount := h.sublist.le_countP keep
  have hsub := h.sublist.length_le
  have hextra := h.extra
  rw [List.countP_eq_length_filter, List.countP_eq_length_filter] at hcount
  simp only
  omega

private theorem elapse (h : Inside e f) (now : Instant) : Inside (e.elapse now) (f.elapse now) :=
  h.filter _

private theorem remove (h : Inside e f) (key : String) : Inside (e.remove key) (f.remove key) :=
  h.filter _

/-- To set a key keeps the relation, whichever of the caches is full. -/
private theorem set (h : Inside e f) (key : String) (held : Held α) :
    Inside (e.set key held) (f.set key held) := by
  have hothers : Inside (e.remove key) (f.remove key) := h.remove key
  have hpos := h.capacity_pos
  have hle := h.capacity_le
  have hnodup : ((f.others key).map (·.1)).Nodup := hothers.nodup
  have hsublist : (e.others key).Sublist (f.others key) := hothers.sublist
  have hlength : (e.others key).length ≤ e.capacity := hothers.length_le
  have hlength' : (f.others key).length ≤ f.capacity := hothers.length_le'
  have hextra : (f.others key).length + e.capacity ≤ (e.others key).length + f.capacity :=
    hothers.extra
  have hdrop := (e.others key).length_dropLast
  have hdrop' := (f.others key).length_dropLast
  refine ⟨hpos, hle, ?_, ?_, ?_, ?_, ?_⟩
  · rw [entries_set, List.map_cons, List.nodup_cons]
    split
    · exact ⟨not_mem_keys_others f key, hnodup⟩
    · refine ⟨?_, hnodup.sublist ((List.dropLast_sublist _).map _)⟩
      exact fun hmem => not_mem_keys_others f key (((List.dropLast_sublist _).map _).subset hmem)
  · rw [entries_set, entries_set]
    apply List.Sublist.cons_cons
    split
    · rw [if_pos (by omega)]
      exact hsublist
    · split
      · exact (List.dropLast_sublist _).trans hsublist
      · exact dropLast_sublist_dropLast hsublist
  · rw [entries_set, List.length_cons]
    change _ ≤ e.capacity
    split <;> omega
  · rw [entries_set, List.length_cons]
    change _ ≤ f.capacity
    split <;> omega
  · rw [entries_set, entries_set, List.length_cons, List.length_cons]
    change _ + e.capacity ≤ _ + f.capacity
    split <;> split <;> omega

private theorem get (h : Inside e f) (key : String) : Inside (e.get key).2 (f.get key).2 := by
  have hothers : Inside (e.remove key) (f.remove key) := h.remove key
  have hnodup : ((f.others key).map (·.1)).Nodup := hothers.nodup
  have hsublist : (e.others key).Sublist (f.others key) := hothers.sublist
  have hextra : (f.others key).length + e.capacity ≤ (e.others key).length + f.capacity :=
    hothers.extra
  have hlength := h.length_le
  have hlength' := h.length_le'
  rw [EagerCache.get, EagerCache.get]
  cases hfound' : f.entries.lookup key with
  | none =>
    cases hfound : e.entries.lookup key with
    | none => exact h
    | some held =>
      rw [h.lookup_eq_some hfound] at hfound'
      cases hfound'
  | some held' =>
    have hlt' := f.length_others_lt (Option.isSome_of_eq_some hfound')
    have hnodup' : (((key, held') :: f.others key).map (·.1)).Nodup :=
      List.nodup_cons.2 ⟨not_mem_keys_others f key, hnodup⟩
    have hfits' : ((key, held') :: f.others key).length ≤ f.capacity := by
      rw [List.length_cons]
      omega
    cases hfound : e.entries.lookup key with
    | none =>
      -- A hit in the larger cache only moves an entry that the smaller one does not hold.
      rw [e.others_eq_entries hfound] at hsublist
      refine ⟨h.capacity_pos, h.capacity_le, hnodup', hsublist.cons _, hlength, hfits', ?_⟩
      have hextra := h.extra
      simp only [List.length_cons]
      omega
    | some held =>
      have hlt := e.length_others_lt (Option.isSome_of_eq_some hfound)
      have hsame := h.lookup_eq_some hfound
      rw [hfound', Option.some.injEq] at hsame
      subst hsame
      refine ⟨h.capacity_pos, h.capacity_le, hnodup', hsublist.cons_cons _, ?_, hfits', ?_⟩
      · simp only [List.length_cons]
        omega
      · simp only [List.length_cons]
        omega

/-- Every call keeps the smaller cache inside the larger one. -/
theorem step (h : Inside e f) (now : Instant) (call : CacheCall α) :
    Inside (machine now call e).2 (machine now call f).2 := by
  have helapsed := h.elapse now
  cases call with
  | get key => exact helapsed.get key
  | set key value deadline => exact (helapsed.set key _).elapse now
  | remove key => exact helapsed.remove key
  | contains key => exact helapsed
  | peek key => exact helapsed
  | sweep => exact helapsed

end Inside

end EagerCache

namespace BoundedCache

/-- What is held at a key is found until its deadline. -/
theorem Consistent.peek?_eq {c : BoundedCache α} (h : c.Consistent) (now : Instant) (key : String) :
    c.peek? now key = (c.held? key).filter (·.isLive now) := by
  rw [peek?, h.isExpired_eq]
  cases c.held? key with
  | none => simp
  | some held => cases hlive : held.isLive now <;> simp [hlive, Option.filter]

/-- From a time on a cache serves whatever a smaller one serves. -/
def Covers (now : Instant) (c d : BoundedCache α) : Prop :=
  ∃ e f, SameLive now c e ∧ SameLive now d f ∧ e.Inside f

namespace Covers

variable {now : Instant} {c d : BoundedCache α}

private theorem later {later : Instant} (hle : now ≤ later) (h : Covers now c d) : Covers later c d := by
  obtain ⟨e, f, hsmall, hlarge, hinside⟩ := h
  exact ⟨e, f, hsmall.later hle, hlarge.later hle, hinside⟩

private theorem step (h : Covers now c d) (call : CacheCall α) :
    Covers now (machine now call c).2 (machine now call d).2 := by
  obtain ⟨e, f, hsmall, hlarge, hinside⟩ := h
  exact ⟨_, _, (hsmall.step call).2, (hlarge.step call).2, hinside.step now call⟩

/-- What the smaller cache holds and has not expired the larger one holds. -/
theorem held?_eq_some (h : Covers now c d) {key : String} {held : Held α}
    (hheld : c.held? key = some held) (hlive : held.isLive now) : d.held? key = some held := by
  obtain ⟨e, f, hsmall, hlarge, hinside⟩ := h
  have hpeek : c.peek? now key = some held := by
    rw [hsmall.consistent.peek?_eq, hheld, Option.filter_some, if_pos hlive]
  rw [← hsmall.lookup] at hpeek
  have hpeek' := (hinside.elapse now).lookup_eq_some hpeek
  rw [hlarge.lookup, hlarge.consistent.peek?_eq] at hpeek'
  exact (Option.filter_eq_some_iff.1 hpeek').1

/-- What the smaller cache serves the larger one serves. -/
theorem peek?_eq_some (h : Covers now c d) {key : String} {held : Held α}
    (hpeek : c.peek? now key = some held) : d.peek? now key = some held := by
  have hcovers := h
  obtain ⟨e, f, hsmall, hlarge, -⟩ := h
  rw [hsmall.consistent.peek?_eq, Option.filter_eq_some_iff] at hpeek
  rw [hlarge.consistent.peek?_eq, Option.filter_eq_some_iff]
  exact ⟨hcovers.held?_eq_some hpeek.1 hpeek.2, hpeek.2⟩

/-- After the same calls, the cache with more capacity serves whatever the other one serves. -/
theorem run {capacity capacity' : Nat} (hpos : 1 ≤ capacity) (hle : capacity ≤ capacity')
    {start stop : Instant} {calls : Calls (CacheCall α)} (hclock : ClockForward start calls stop) :
    Covers stop (machine.run (.empty capacity) calls).2 (machine.run (.empty capacity') calls).2 := by
  have hstart : Covers start (.empty capacity : BoundedCache α) (.empty capacity') :=
    ⟨_, _, .empty start hpos, .empty start (Nat.le_trans hpos hle), .empty hpos hle⟩
  have hcalls := (machine.beside machine).throughout_of_forall (fun _ _ _ _ => trivial) []
    (.empty capacity, .empty capacity') calls
  have hrun := (machine.beside machine).run_lasts (fun now _ s => Covers now s.1 s.2)
    (fun hle h => h.later hle) (fun _ h => h.step _) hclock hcalls hstart
  rw [Machine.run_beside] at hrun
  exact hrun

end Covers

end BoundedCache

end SessionTickets
