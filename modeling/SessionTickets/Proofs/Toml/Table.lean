import SessionTickets.Toml.Table

namespace SessionTickets.Toml

/-- The statements that give their values to the keys of a section. -/
def assignments (fields : Entries) : List Statement :=
  fields.map fun (key, item) => .assign ⟨[], key⟩ item

/-- The statements of a section. -/
def sectionOf (name : String) (fields : Entries) : List Statement :=
  .openTable ⟨[], name⟩ :: assignments fields

def run? (statements : List Statement) (state : List String × Entries) : Option (List String × Entries) :=
  statements.foldlM (fun state s => s.run? state) state

private theorem run?_append (before after : List Statement) (state : List String × Entries) :
    run? (before ++ after) state = (run? before state).bind (run? after) := by
  rw [run?, List.foldlM_append]
  rfl

variable {entries : Entries} {name : String}

private theorem lookup_eq_none (h : name ∉ entries.map (·.1)) : entries.lookup name = none := by
  rw [List.lookup_eq_none_iff]
  intro e he
  exact bne_iff_ne.2 fun heq => h (heq ▸ List.mem_map_of_mem he)

private theorem lookup_append_singleton (h : name ∉ entries.map (·.1)) (item : Item) :
    (entries ++ [(name, item)]).lookup name = some item := by
  rw [List.lookup_append, lookup_eq_none h, Option.none_or, List.lookup_cons_self]

private theorem replace_append_singleton (h : name ∉ entries.map (·.1)) (item item' : Item) :
    Entries.replace name item' (entries ++ [(name, item)]) = entries ++ [(name, item')] := by
  have hothers : Entries.replace name item' entries = entries := by
    refine (List.map_congr_left fun e he => ?_).trans (List.map_id _)
    have hne : e.1 ≠ name := fun heq => h (heq ▸ List.mem_map_of_mem he)
    exact if_neg hne
  rw [Entries.replace, List.map_append, ← Entries.replace, hothers]
  simp

/-- A new key gets its value in the table that was opened last. -/
theorem run?_assign (hname : name ∉ entries.map (·.1)) {fields : Entries} {key : String}
    (hkey : key ∉ fields.map (·.1)) (item : Item) :
    (Statement.assign ⟨[], key⟩ item).run? ([name], entries ++ [(name, .table .header fields)]) =
      some ([name], entries ++ [(name, .table .header (fields ++ [(key, item)]))]) := by
  have hadd : Entries.assign ⟨[], key⟩ item .header fields = some (fields ++ [(key, item)]) := by
    simp [Entries.assign, Entries.within, Entries.add, lookup_eq_none hkey]
  have hwithin : Entries.within .header (Entries.assign ⟨[], key⟩ item) [name] .header
      (entries ++ [(name, .table .header fields)]) =
        some (entries ++ [(name, .table .header (fields ++ [(key, item)]))]) := by
    rw [Entries.within, lookup_append_singleton hname]
    simp only [Passage.passes, Entries.within, hadd, Option.map_some, replace_append_singleton hname]
    rfl
  simp only [Statement.run?, hwithin, Option.map_some]

/-- Keys that are new get their values, in the table that was opened last. -/
private theorem run?_assignments (hname : name ∉ entries.map (·.1)) (before fields : Entries)
    (hkeys : ((before ++ fields).map (·.1)).Nodup) :
    run? (assignments fields) ([name], entries ++ [(name, .table .header before)]) =
      some ([name], entries ++ [(name, .table .header (before ++ fields))]) := by
  induction fields generalizing before with
  | nil =>
    rw [List.append_nil]
    rfl
  | cons field fields ih =>
    have hsplit : before ++ field :: fields = (before ++ [field]) ++ fields := by simp
    have hkey : field.1 ∉ before.map (·.1) := by
      rw [List.map_append, List.map_cons, List.nodup_append] at hkeys
      exact fun hmem => hkeys.2.2 _ hmem _ (.head _) rfl
    rw [hsplit] at hkeys ⊢
    have hrest := ih (before ++ [field]) hkeys
    rw [assignments, List.map_cons, run?, List.foldlM_cons, run?_assign hname hkey]
    exact hrest

private theorem run?_section (hname : name ∉ entries.map (·.1)) {fields : Entries}
    (hkeys : (fields.map (·.1)).Nodup) (here : List String) :
    run? (sectionOf name fields) (here, entries) =
      some ([name], entries ++ [(name, .table .header fields)]) := by
  have hopen : (Statement.openTable ⟨[], name⟩).run? (here, entries) =
      some ([name], entries ++ [(name, .table .header [])]) := by
    simp [Statement.run?, Entries.openTable, Entries.within, lookup_eq_none hname, Path.keys]
  rw [sectionOf, run?, List.foldlM_cons, hopen]
  exact run?_assignments hname [] fields hkeys

/-- The tables of some sections. -/
def tablesOf (sections : List (String × Entries)) : Entries :=
  sections.map fun (name, fields) => (name, .table .header fields)

/-- Sections of new names make one table each, behind those that are there. -/
private theorem run?_sections (before sections : List (String × Entries)) (here : List String)
    (hnames : ((before ++ sections).map (·.1)).Nodup) (hkeys : ∀ s ∈ sections, (s.2.map (·.1)).Nodup) :
    ∃ here', run? (sections.flatMap fun (name, fields) => sectionOf name fields) (here, tablesOf before) =
      some (here', tablesOf (before ++ sections)) := by
  induction sections generalizing before here with
  | nil =>
    rw [List.append_nil]
    exact ⟨here, rfl⟩
  | cons s sections ih =>
    obtain ⟨hs, hsections⟩ := List.forall_mem_cons.1 hkeys
    have hsplit : before ++ s :: sections = (before ++ [s]) ++ sections := by simp
    have hname : s.1 ∉ (tablesOf before).map (·.1) := by
      rw [List.map_append, List.map_cons, List.nodup_append] at hnames
      rw [tablesOf, List.map_map]
      exact fun hmem => hnames.2.2 _ hmem _ (.head _) rfl
    rw [hsplit] at hnames ⊢
    obtain ⟨here', hrest⟩ := ih (before ++ [s]) [s.1] hnames hsections
    refine ⟨here', ?_⟩
    rw [List.flatMap_cons, run?_append, run?_section hname hs, ← hrest, tablesOf, tablesOf, List.map_append]
    rfl

/-- Sections of different names make one table each. -/
theorem entriesOf?_sections {sections : List (String × Entries)} (hnames : (sections.map (·.1)).Nodup)
    (hkeys : ∀ s ∈ sections, (s.2.map (·.1)).Nodup) :
    entriesOf? (sections.flatMap fun (name, fields) => sectionOf name fields) = some (tablesOf sections) := by
  obtain ⟨here, hrun⟩ := run?_sections [] sections [] hnames hkeys
  exact congrArg (Option.map (·.2)) hrun

end SessionTickets.Toml
