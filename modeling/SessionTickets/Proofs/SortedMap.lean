import Mathlib.Data.List.Nodup
import SessionTickets.SortedMap

namespace SessionTickets.SortedMap

variable {α : Type}

/-- Each key has one entry. -/
theorem nodup_keys (m : SortedMap α) : m.keys.Nodup := by
  rw [SortedMap.keys, List.Nodup, List.pairwise_map]
  apply m.increasing.imp
  intro a b hlt heq
  rw [heq] at hlt
  exact String.lt_irrefl _ hlt

private theorem insertEntry_of_lt {key : String} {value : α} {entries : List (String × α)}
    (h : ∀ e ∈ entries, e.1 < key) :
    insertEntry key value entries = entries ++ [(key, value)] := by
  induction entries with
  | nil => rfl
  | cons e rest ih =>
    have hlt := h e (by simp)
    have hnot : ¬ key < e.1 := fun hgt => String.lt_irrefl _ (String.lt_trans hlt hgt)
    rw [insertEntry, if_neg hnot, if_pos hlt, ih fun e he => h e (by simp [he]), List.cons_append]

/-- Entries in increasing order go to the end, one after the other. -/
theorem entries_foldl_insert {entries : List (String × α)} (h : KeysIncrease entries)
    (m : SortedMap α) (hm : ∀ e ∈ m.entries, ∀ f ∈ entries, e.1 < f.1) :
    (entries.foldl (fun m e => m.insert e.1 e.2) m).entries = m.entries ++ entries := by
  induction entries generalizing m with
  | nil => simp
  | cons e rest ih =>
    obtain ⟨hhead, hrest⟩ := List.pairwise_cons.1 h
    have hinsert : (m.insert e.1 e.2).entries = m.entries ++ [e] :=
      insertEntry_of_lt fun f hf => hm f hf e (by simp)
    rw [List.foldl_cons, ih hrest _ _, hinsert, List.append_assoc, List.singleton_append]
    intro f hf g hg
    rw [hinsert, List.mem_append, List.mem_singleton] at hf
    rcases hf with hf | rfl
    · exact hm f hf g (by simp [hg])
    · exact hhead g hg

/-- A map is the map of its entries. -/
theorem ofList_entries (m : SortedMap α) : ofList m.entries = m := by
  apply ext
  rw [ofList, entries_foldl_insert m.increasing _ (by simp [empty])]
  rfl

/-- It does not matter which of two entries with different keys comes in first. -/
private theorem insert_comm (m : SortedMap α) {key key' : String} (hne : key ≠ key') (value value' : α) :
    (m.insert key value).insert key' value' = (m.insert key' value').insert key value := by
  apply ext_find?
  intro k
  simp only [find?_insert]
  split
  · next hk => rw [if_neg (hk ▸ hne.symm)]
  · rfl

/-- A map is the map of its entries in any order. -/
theorem ofList_of_perm {entries : List (String × α)} {m : SortedMap α} (h : entries.Perm m.entries) :
    ofList entries = m := by
  rw [← ofList_entries m, ofList, ofList]
  apply h.foldl_eq'
  intro e he f hf m'
  by_cases hkey : e.1 = f.1
  · rw [List.inj_on_of_nodup_map m.nodup_keys (h.subset he) (h.subset hf) hkey]
  · exact insert_comm m' hkey e.2 f.2

/-- Of the entries with one key the last one counts. -/
theorem find?_ofList (entries : List (String × α)) (key : String) :
    (ofList entries).find? key = entries.reverse.lookup key := by
  have hfold : ∀ (m : SortedMap α), (entries.foldl (fun m e => m.insert e.1 e.2) m).find? key =
      (entries.reverse.lookup key).or (m.find? key) := by
    induction entries with
    | nil => simp
    | cons e rest ih =>
      intro m
      rw [List.foldl_cons, ih, List.reverse_cons, List.lookup_append, find?_insert, lookup_cons_if]
      split <;> simp
  rw [ofList, hfold, find?_empty, Option.or_none]

/-- To change all values and to add an entry go in either order. -/
private theorem insertEntry_map {β : Type} (f : α → β) (key : String) (value : α)
    (entries : List (String × α)) :
    insertEntry key (f value) (entries.map fun e => (e.1, f e.2)) =
      (insertEntry key value entries).map fun e => (e.1, f e.2) := by
  induction entries with
  | nil => rfl
  | cons e rest ih =>
    simp only [List.map_cons, insertEntry, ih]
    split
    · rfl
    · split <;> rfl

/-- The map of a list does not look at the values. -/
theorem entries_ofList_map {β : Type} (f : α → β) (entries : List (String × α)) :
    (ofList (entries.map fun e => (e.1, f e.2))).entries = (ofList entries).entries.map fun e => (e.1, f e.2) := by
  have hfold : ∀ (m : SortedMap α) (m' : SortedMap β), m'.entries = (m.entries.map fun e => (e.1, f e.2)) →
      ((entries.map fun e => (e.1, f e.2)).foldl (fun m e => m.insert e.1 e.2) m').entries =
        (entries.foldl (fun m e => m.insert e.1 e.2) m).entries.map fun e => (e.1, f e.2) := by
    induction entries with
    | nil => exact fun _ _ h => h
    | cons e rest ih =>
      intro m m' h
      apply ih
      change insertEntry e.1 (f e.2) m'.entries = (insertEntry e.1 e.2 m.entries).map _
      rw [h, insertEntry_map]
  exact hfold empty empty rfl

end SessionTickets.SortedMap
