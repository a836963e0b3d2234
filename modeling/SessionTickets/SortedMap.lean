namespace SessionTickets

variable {α : Type}

/-- The entries are in strictly increasing order of their keys. -/
def KeysIncrease (entries : List (String × α)) : Prop :=
  entries.Pairwise (·.1 < ·.1)

/-- A finite map from strings. Its entries are in the order of their keys, which is that of the code points,
and also the order of the bytes in UTF-8. So a map has one representation, and two maps that answer alike are
equal (`ext_find?`). -/
structure SortedMap (α : Type) where
  entries : List (String × α)
  increasing : KeysIncrease entries

namespace SortedMap

/-- Maps with the same entries are equal. -/
theorem ext {m n : SortedMap α} (h : m.entries = n.entries) : m = n := by
  cases m
  cases n
  cases h
  rfl

instance [DecidableEq α] : DecidableEq (SortedMap α) := fun m n =>
  decidable_of_iff (m.entries = n.entries) ⟨ext, congrArg _⟩

def empty : SortedMap α := ⟨[], .nil⟩

instance : Inhabited (SortedMap α) := ⟨empty⟩

def size (m : SortedMap α) : Nat := m.entries.length

/-- Whether there is no entry. -/
def isEmpty (m : SortedMap α) : Bool := m.entries.isEmpty

def keys (m : SortedMap α) : List String := m.entries.map (·.1)

def find? (m : SortedMap α) (key : String) : Option α := m.entries.lookup key

/-- Adds an entry in its place, instead of one with the same key. -/
def insertEntry (key : String) (value : α) : List (String × α) → List (String × α)
  | [] => [(key, value)]
  | (k, v) :: rest =>
    if key < k then (key, value) :: (k, v) :: rest
    else if k < key then (k, v) :: insertEntry key value rest
    else (key, value) :: rest

private theorem eq_of_not_lt {a b : String} (h₁ : ¬ a < b) (h₂ : ¬ b < a) : a = b :=
  String.le_antisymm h₂ h₁

private theorem mem_insertEntry {key : String} {value : α} {entries : List (String × α)} {e : String × α}
    (h : e ∈ insertEntry key value entries) : e = (key, value) ∨ e ∈ entries := by
  induction entries with
  | nil => simpa [insertEntry] using h
  | cons head rest ih =>
    simp only [insertEntry] at h
    split at h
    · simpa using h
    · split at h
      · rcases List.mem_cons.1 h with h | h
        · simp [h]
        · rcases ih h with h | h <;> simp [h]
      · rcases List.mem_cons.1 h with h | h <;> simp [h]

/-- A new entry goes in where its key belongs. -/
private theorem keysIncrease_insertEntry {key : String} {value : α} {entries : List (String × α)}
    (h : KeysIncrease entries) : KeysIncrease (insertEntry key value entries) := by
  induction entries with
  | nil => simp [insertEntry, KeysIncrease]
  | cons head rest ih =>
    have ⟨hhead, hrest⟩ := List.pairwise_cons.1 h
    simp only [insertEntry]
    split
    · next hlt =>
      refine List.pairwise_cons.2 ⟨fun e he => ?_, h⟩
      rcases List.mem_cons.1 he with rfl | he
      · exact hlt
      · exact String.lt_trans hlt (hhead e he)
    · split
      · next hgt =>
        refine List.pairwise_cons.2 ⟨fun e he => ?_, ih hrest⟩
        rcases mem_insertEntry he with rfl | he
        · exact hgt
        · exact hhead e he
      · next hlt hgt =>
        refine List.pairwise_cons.2 ⟨fun e he => ?_, hrest⟩
        rw [show key = head.1 from eq_of_not_lt hlt hgt]
        exact hhead e he

def insert (m : SortedMap α) (key : String) (value : α) : SortedMap α :=
  ⟨insertEntry key value m.entries, keysIncrease_insertEntry m.increasing⟩

def filter (m : SortedMap α) (keep : String → α → Bool) : SortedMap α :=
  ⟨m.entries.filter fun e => keep e.1 e.2, m.increasing.filter _⟩

def erase (m : SortedMap α) (key : String) : SortedMap α :=
  m.filter fun k _ => k ≠ key

/-- The map with a value at a key, or without one. -/
def alter (m : SortedMap α) (key : String) : Option α → SortedMap α
  | some value => m.insert key value
  | none => m.erase key

/-- The map of a list of entries; of two with the same key the later one stays. -/
def ofList (entries : List (String × α)) : SortedMap α :=
  entries.foldl (fun m e => m.insert e.1 e.2) empty

/-- An empty map answers nothing. -/
@[simp] theorem find?_empty (key : String) : (empty : SortedMap α).find? key = none := rfl

/-- The first entry with a key answers for it. -/
theorem lookup_cons_if (e : String × α) (rest : List (String × α)) (k : String) :
    (e :: rest).lookup k = if k = e.1 then some e.2 else rest.lookup k := by
  obtain ⟨key, value⟩ := e
  by_cases h : k = key
  · subst h
    simp
  · have hne : (k == key) = false := by simpa using h
    simp [List.lookup_cons, hne, h]

private theorem lookup_eq_none_of_lt {entries : List (String × α)} {key : String}
    (h : ∀ e ∈ entries, key < e.1) : entries.lookup key = none := by
  induction entries with
  | nil => rfl
  | cons head rest ih =>
    have hne : key ≠ head.1 := by
      rintro rfl
      exact String.lt_irrefl _ (h head (by simp))
    rw [lookup_cons_if, if_neg hne]
    exact ih fun e he => h e (by simp [he])

/-- Only the key of the new entry has another answer. -/
private theorem lookup_insertEntry (key k : String) (value : α) (entries : List (String × α)) :
    (insertEntry key value entries).lookup k = if k = key then some value else entries.lookup k := by
  induction entries with
  | nil => rw [insertEntry, lookup_cons_if]
  | cons head rest ih =>
    simp only [insertEntry]
    split
    · rw [lookup_cons_if]
    · split
      · next hgt =>
        have hne : head.1 ≠ key := by
          rintro rfl
          exact String.lt_irrefl _ hgt
        rw [lookup_cons_if, lookup_cons_if, ih]
        by_cases h : k = head.1 <;> simp [h, hne]
      · next hlt hgt =>
        rw [lookup_cons_if, lookup_cons_if, ← eq_of_not_lt hlt hgt]
        by_cases h : k = key <;> simp [h]

/-- The map answers with the new value at its key, and as before at all others. -/
@[simp] theorem find?_insert (m : SortedMap α) (key k : String) (value : α) :
    (m.insert key value).find? k = if k = key then some value else m.find? k :=
  lookup_insertEntry key k value m.entries

/-- No key has two entries, so what is filtered out at a key leaves nothing there. -/
private theorem lookup_filter {entries : List (String × α)} (h : KeysIncrease entries)
    (keep : String → α → Bool) (k : String) :
    (entries.filter fun e => keep e.1 e.2).lookup k = (entries.lookup k).filter (keep k) := by
  induction entries with
  | nil => rfl
  | cons head rest ih =>
    have ⟨hhead, hrest⟩ := List.pairwise_cons.1 h
    rw [List.filter_cons, lookup_cons_if]
    by_cases hk : k = head.1
    · subst hk
      split
      · next hkeep => simp [lookup_cons_if, Option.filter, hkeep]
      · next hkeep => simp [ih hrest, lookup_eq_none_of_lt hhead, Option.filter, hkeep]
    · rw [if_neg hk, ← ih hrest]
      split
      · rw [lookup_cons_if, if_neg hk]
      · rfl

/-- A filtered map answers with what passes the filter. -/
theorem find?_filter (m : SortedMap α) (keep : String → α → Bool) (k : String) :
    (m.filter keep).find? k = (m.find? k).filter (keep k) :=
  lookup_filter m.increasing keep k

/-- The map answers nothing at the key, and as before at all others. -/
@[simp] theorem find?_erase (m : SortedMap α) (key k : String) :
    (m.erase key).find? k = if k = key then none else m.find? k := by
  rw [erase, find?_filter]
  by_cases h : k = key <;> cases m.find? k <;> simp [h, Option.filter]

/-- The map answers with what was put at the key, and as before at all others. -/
@[simp] theorem find?_alter (m : SortedMap α) (key k : String) (value : Option α) :
    (m.alter key value).find? k = if k = key then value else m.find? k := by
  cases value <;> simp [alter]

/-- Maps that answer alike are equal. -/
theorem ext_find? {m n : SortedMap α} (h : ∀ k, m.find? k = n.find? k) : m = n := by
  apply ext
  obtain ⟨xs, hxs⟩ := m
  obtain ⟨ys, hys⟩ := n
  simp only [find?] at h ⊢
  induction xs generalizing ys with
  | nil =>
    cases ys with
    | nil => rfl
    | cons y ys => simpa [lookup_cons_if] using h y.1
  | cons x xs ih =>
    cases ys with
    | nil => simpa [lookup_cons_if] using h x.1
    | cons y ys =>
      have ⟨hx, hxs⟩ := List.pairwise_cons.1 hxs
      have ⟨hy, hys⟩ := List.pairwise_cons.1 hys
      have hkey : x.1 = y.1 := by
        apply eq_of_not_lt
        · intro hlt
          have hnone : (y :: ys).lookup x.1 = none := lookup_eq_none_of_lt fun e he => by
            rcases List.mem_cons.1 he with rfl | he
            · exact hlt
            · exact String.lt_trans hlt (hy e he)
          have := h x.1
          rw [hnone, lookup_cons_if, if_pos rfl] at this
          cases this
        · intro hlt
          have hnone : (x :: xs).lookup y.1 = none := lookup_eq_none_of_lt fun e he => by
            rcases List.mem_cons.1 he with rfl | he
            · exact hlt
            · exact String.lt_trans hlt (hx e he)
          have := h y.1
          rw [hnone, lookup_cons_if, if_pos rfl] at this
          cases this
      have hvalue : x.2 = y.2 := by simpa [lookup_cons_if, hkey] using h x.1
      rw [Prod.ext hkey hvalue, ih hxs ys hys]
      intro k
      by_cases hk : k = x.1
      · subst hk
        rw [lookup_eq_none_of_lt hx, lookup_eq_none_of_lt (hkey ▸ hy)]
      · simpa [lookup_cons_if, hk, ← hkey] using h k

end SortedMap

end SessionTickets
