import SessionTickets.Config.Load
import SessionTickets.Proofs.Config.Names
import SessionTickets.Proofs.Json.Quoted
import SessionTickets.Proofs.Toml.Reader
import SessionTickets.Proofs.Toml.Table

namespace SessionTickets

open Toml Text

/-- A document can hold the numbers of a section. -/
def StoreSection.Expressible (s : StoreSection) : Prop :=
  s.maxEntries ≤ Number.largest ∧ s.cleanupIntervalSecs ≤ Number.largest ∧
    ∀ n ∈ s.operationTimeoutMs, n ≤ Number.largest

/-- A document can hold the numbers of a configuration. -/
def Config.Expressible (c : Config) : Prop :=
  ∀ s ∈ c.store, s.Expressible

namespace Config

/-- What a section on the ticket store says. Without a timeout there is no entry for it. -/
def storeEntries (s : StoreSection) : Entries := [
    ("backend", .text (backendName s.backend)),
    ("key_prefix", .text s.keyPrefix),
    ("max_entries", .integer s.maxEntries),
    ("cleanup_interval_secs", .integer s.cleanupIntervalSecs)] ++
  (s.operationTimeoutMs.map fun (n : Nat) => ("operation_timeout_ms", .integer n)).toList

def adapterEntries (s : AdapterSection) : Entries :=
  [("synthesize_assertion", .boolean s.synthesizeAssertion)]

def sections (c : Config) : List (String × Entries) :=
  (c.store.map fun s => ("store", storeEntries s)).toList ++
    (c.adapter.map fun s => ("adapter", adapterEntries s)).toList

/-- A section on the ticket store is read back from its entries. -/
private theorem storeSection?_storeEntries (s : StoreSection) (origin : Origin) :
    storeSection? (.table origin (storeEntries s)) = some s := by
  obtain ⟨backend, keyPrefix, maxEntries, interval, timeout⟩ := s
  cases backend <;> cases timeout <;> rfl

private theorem adapterSection?_adapterEntries (s : AdapterSection) (origin : Origin) :
    adapterSection? (.table origin (adapterEntries s)) = some s := by
  rfl

private theorem ofEntries?_sections (c : Config) : ofEntries? (tablesOf c.sections) = some c := by
  obtain ⟨store, adapter⟩ := c
  have hstore : (tablesOf (sections ⟨store, adapter⟩)).lookup "store" =
      store.map fun s => .table .header (storeEntries s) := by
    cases store <;> cases adapter <;> rfl
  have hadapter : (tablesOf (sections ⟨store, adapter⟩)).lookup "adapter" =
      adapter.map fun s => .table .header (adapterEntries s) := by
    cases store <;> cases adapter <;> rfl
  have hreadStore : section? storeSection? (store.map fun s => .table .header (storeEntries s)) = some store := by
    cases store with
    | none => rfl
    | some s => exact congrArg (Option.map some) (storeSection?_storeEntries s .header)
  have hreadAdapter : section? adapterSection? (adapter.map fun s => .table .header (adapterEntries s)) =
      some adapter := by
    cases adapter with
    | none => rfl
    | some s => exact congrArg (Option.map some) (adapterSection?_adapterEntries s .header)
  rw [ofEntries?, hstore, hadapter, hreadStore, hreadAdapter]
  rfl

/-- The names of sections and fields need no quotes. -/
theorem isBareKey_of_mem : ∀ key ∈ ["store", "adapter"] ++ storeFields ++ adapterFields, IsBareKey key.toList := by
  decide +kernel

private theorem lines_line {key : String} {value : List Char} {item : Item} (hkey : IsBareKey key.toList)
    (hvalue : IsValue value item) : Lines (line key value) [.assign ⟨[], key⟩ item] := by
  have hline := Lines.assign hkey hvalue
  rwa [String.ofList_toList] at hline

private theorem isValue_string (s : String) : IsValue (Quoted.write s.toList) (.text s) := by
  have hvalue := isValue_quoted s.toList
  rwa [String.ofList_toList] at hvalue

private theorem natText?_eq_some_iff {n : Nat} {text : List Char} :
    natText? n = some text ↔ n ≤ Number.largest ∧ Decimal.digits n = text := by
  rw [natText?]
  split
  · next hle => simp [hle]
  · next hlt => simp [hlt]

private theorem mapM_natText?_eq_some_iff {timeout : Option Nat} {text : Option (List Char)} :
    timeout.mapM natText? = some text ↔
      (∀ n ∈ timeout, n ≤ Number.largest) ∧ timeout.map Decimal.digits = text := by
  cases timeout with
  | none => simp
  | some n =>
    rw [Option.mapM_some, Option.map_eq_map, Option.map_eq_some_iff]
    simp only [natText?_eq_some_iff]
    constructor
    · rintro ⟨_, ⟨hle, rfl⟩, rfl⟩
      exact ⟨fun _ hn => Option.some.inj hn ▸ hle, rfl⟩
    · rintro ⟨hle, rfl⟩
      exact ⟨_, ⟨hle n rfl, rfl⟩, rfl⟩

/-- A section has lines exactly if a document can hold its numbers. -/
theorem storeText?_eq_some_iff {s : StoreSection} {text : List Char} :
    storeText? s = some text ↔ s.Expressible ∧
      "[store]\n".toList ++
        line "backend" (Quoted.write (backendName s.backend).toList) ++
        line "key_prefix" (Quoted.write s.keyPrefix.toList) ++
        line "max_entries" (Decimal.digits s.maxEntries) ++
        line "cleanup_interval_secs" (Decimal.digits s.cleanupIntervalSecs) ++
        ((s.operationTimeoutMs.map Decimal.digits).map (line "operation_timeout_ms")).getD [] = text := by
  simp only [storeText?, StoreSection.Expressible, Option.bind_eq_bind, Option.bind_eq_some_iff,
    natText?_eq_some_iff, mapM_natText?_eq_some_iff, Option.some.injEq]
  constructor
  · rintro ⟨_, ⟨hmax, rfl⟩, _, ⟨hinterval, rfl⟩, _, ⟨htimeout, rfl⟩, rfl⟩
    exact ⟨⟨hmax, hinterval, htimeout⟩, rfl⟩
  · rintro ⟨⟨hmax, hinterval, htimeout⟩, rfl⟩
    exact ⟨_, ⟨hmax, rfl⟩, _, ⟨hinterval, rfl⟩, _, ⟨htimeout, rfl⟩, rfl⟩

/-- The lines of a section on the ticket store say what the section says. -/
theorem lines_storeText {s : StoreSection} {text : List Char} (htext : storeText? s = some text) :
    Lines text (sectionOf "store" (storeEntries s)) := by
  obtain ⟨⟨hmax, hinterval, htimeout⟩, rfl⟩ := storeText?_eq_some_iff.1 htext
  have hkey := isBareKey_of_mem
  have hheader : Lines "[store]\n".toList [.openTable ⟨[], "store"⟩] := Lines.openTable (hkey "store" (by decide))
  have hbackend := lines_line (hkey "backend" (by decide)) (isValue_string (backendName s.backend))
  have hkeyPrefix := lines_line (hkey "key_prefix" (by decide)) (isValue_string s.keyPrefix)
  have hmax := lines_line (hkey "max_entries" (by decide)) (isValue_digits hmax)
  have hinterval := lines_line (hkey "cleanup_interval_secs" (by decide)) (isValue_digits hinterval)
  have htimeout : Lines (((s.operationTimeoutMs.map Decimal.digits).map (line "operation_timeout_ms")).getD [])
      (assignments (s.operationTimeoutMs.map fun (n : Nat) => ("operation_timeout_ms", .integer n)).toList) := by
    cases hvalue : s.operationTimeoutMs with
    | none => exact .nil
    | some n => exact lines_line (hkey "operation_timeout_ms" (by decide)) (isValue_digits (htimeout n hvalue))
  exact ((((hheader.append hbackend).append hkeyPrefix).append hmax).append hinterval).append htimeout

private theorem lines_adapterText (s : AdapterSection) :
    Lines (adapterText s) (sectionOf "adapter" (adapterEntries s)) := by
  have hkey := isBareKey_of_mem
  have hheader : Lines "[adapter]\n".toList [.openTable ⟨[], "adapter"⟩] :=
    Lines.openTable (hkey "adapter" (by decide))
  have hvalue : IsValue (booleanText s.synthesizeAssertion) (.boolean s.synthesizeAssertion) := isValue_boolean _
  exact hheader.append (lines_line (hkey "synthesize_assertion" (by decide)) hvalue)

/-- A configuration has a document if its section on the ticket store has lines. -/
private theorem render?_eq_some_iff {c : Config} {text : String} :
    c.render? = some text ↔ ∃ store, c.store.mapM storeText? = some store ∧
      String.ofList (['\n'].intercalate (store.toList ++ (c.adapter.map adapterText).toList)) = text := by
  rw [render?, Option.bind_eq_bind, Option.bind_eq_some_iff]
  simp only [Option.some.injEq]

/-- A configuration has a document exactly if a document can hold its numbers. -/
theorem exists_render?_iff (c : Config) : (∃ text, c.render? = some text) ↔ c.Expressible := by
  constructor
  · rintro ⟨text, htext⟩ s hs
    obtain ⟨store, hstore, -⟩ := render?_eq_some_iff.1 htext
    rw [hs, Option.mapM_some, Option.map_eq_map, Option.map_eq_some_iff] at hstore
    obtain ⟨lines, hlines, -⟩ := hstore
    exact (storeText?_eq_some_iff.1 hlines).1
  · intro hnumbers
    have hstore : ∃ store, c.store.mapM storeText? = some store := by
      cases hs : c.store with
      | none => exact ⟨none, rfl⟩
      | some s =>
        have hlines := storeText?_eq_some_iff.2 ⟨hnumbers s hs, rfl⟩
        exact ⟨some _, by rw [Option.mapM_some, hlines]; rfl⟩
    obtain ⟨store, hstore⟩ := hstore
    exact ⟨_, render?_eq_some_iff.2 ⟨store, hstore, rfl⟩⟩

/-- The parts of a document say what the sections say. -/
theorem forall₂_lines {c : Config} {store : Option (List Char)} (h : c.store.mapM storeText? = some store) :
    List.Forall₂ Lines (store.toList ++ (c.adapter.map adapterText).toList)
      (c.sections.map fun (name, fields) => sectionOf name fields) := by
  obtain ⟨storeSection, adapter⟩ := c
  have hstore : List.Forall₂ Lines store.toList
      (storeSection.map fun s => sectionOf "store" (storeEntries s)).toList := by
    cases storeSection with
    | none =>
      cases h
      exact .nil
    | some s =>
      rw [Option.mapM_some, Option.map_eq_map, Option.map_eq_some_iff] at h
      obtain ⟨text, htext, rfl⟩ := h
      exact .cons (lines_storeText htext) .nil
  have hadapter : List.Forall₂ Lines (adapter.map adapterText).toList
      (adapter.map fun s => sectionOf "adapter" (adapterEntries s)).toList := by
    cases adapter with
    | none => exact .nil
    | some s => exact .cons (lines_adapterText s) .nil
  have hparts : (sections ⟨storeSection, adapter⟩).map (fun (name, fields) => sectionOf name fields) =
      (storeSection.map fun s => sectionOf "store" (storeEntries s)).toList ++
        (adapter.map fun s => sectionOf "adapter" (adapterEntries s)).toList := by
    cases storeSection <;> cases adapter <;> rfl
  rw [hparts]
  exact List.rel_append hstore hadapter

private theorem nodup_storeEntries (s : StoreSection) : ((storeEntries s).map (·.1)).Nodup := by
  obtain ⟨backend, keyPrefix, maxEntries, interval, timeout⟩ := s
  cases timeout <;> simp [storeEntries]

private theorem nodup_sections (c : Config) :
    (c.sections.map (·.1)).Nodup ∧ ∀ s ∈ c.sections, (s.2.map (·.1)).Nodup := by
  obtain ⟨store, adapter⟩ := c
  cases store <;> cases adapter <;> simp [sections, nodup_storeEntries, adapterEntries]

/-- A configuration is read back from its document. -/
theorem ofText?_render? {c : Config} {text : String} (h : c.render? = some text) : ofText? text = some c := by
  obtain ⟨store, hstore, rfl⟩ := render?_eq_some_iff.1 h
  obtain ⟨hnames, hkeys⟩ := nodup_sections c
  have hreads := (Lines.intercalate (forall₂_lines hstore)).reads
  rw [ofText?, String.toList_ofList, ofText?_of_reads hreads, ← List.flatMap_def, entriesOf?_sections hnames hkeys]
  exact ofEntries?_sections c

private theorem bytes?_of_write? {files files' : Files} {path : String} {bytes : List UInt8}
    (h : files.write? path bytes = some files') : files'.bytes? path = some bytes := by
  unfold Files.write? at h
  split at h
  · cases h
  · next hpath =>
    have husable : FilePath.isUsable path := by
      simp only [Bool.or_eq_true, Bool.not_eq_true', not_or] at hpath
      simpa using hpath.1
    have hwritten : files' = files.insert (FilePath.normal path) (.file bytes) := by
      split at h
      all_goals cases h
      all_goals rfl
    rw [Files.bytes?, Files.node?, if_pos husable, hwritten, SortedMap.find?_insert]
    simp

/-- What a file system that took a configuration was given: its document, once the directories were made. -/
theorem write?_of_save {c : Config} {path : String} {files files' : Files} (h : c.save path files = .ok files') :
    ∃ text held, c.render? = some text ∧ Files.write? held path (Json.Quoted.utf8 text) = some files' := by
  simp only [save, bind, Except.bind] at h
  cases htext : c.render? with
  | none =>
    simp only [htext] at h
    split at h
    · split at h
      all_goals cases h
    · cases h
  | some text =>
    simp only [htext] at h
    split at h
    · split at h
      · split at h
        · next held _ _ _ hwrite =>
          cases h
          exact ⟨text, held, rfl, hwrite⟩
        · cases h
      · cases h
    · split at h
      · next hwrite =>
        cases h
        exact ⟨text, files, rfl, hwrite⟩
      · cases h

/-- A configuration is read back from its document and from every file that it is saved in, with the sections
that it has and without the others. It has a document exactly if a document can hold its numbers. -/
theorem survives_saving (c : Config) :
    ((∃ text, c.render? = some text) ↔ c.Expressible) ∧
    (∀ text, c.render? = some text → ofText? text = some c) ∧
    ∀ path files files', c.save path files = .ok files' → ofFile files' path = .ok c := by
  refine ⟨exists_render?_iff c, fun _ => ofText?_render?, fun path files files' hsave => ?_⟩
  obtain ⟨text, held, htext, hwrite⟩ := write?_of_save hsave
  rw [ofFile, bytes?_of_write? hwrite, Option.bind_some, Json.Quoted.ofUtf8?_utf8]
  simp only [ofText?_render? htext]

/-- Quotes of both kinds, marks that need escapes and the largest number go through a document. -/
theorem survives_saving_quoted :
    let c : Config := ⟨some ⟨.distributed, "\'\'\'\"\"\"\\\n\t\r\x00\x7fé", 9223372036854775807, 0, some 5⟩, none⟩
    let text := "[store]\nbackend = \"distributed\"\n" ++
      "key_prefix = \"\"\"\n\'\'\'\"\"\\\"\\\\\n\\t\\r\\u0000\\u007Fé\"\"\"\n" ++
      "max_entries = 9223372036854775807\ncleanup_interval_secs = 0\noperation_timeout_ms = 5\n"
    let standard : Config := ⟨none, some .standard⟩
    c.render? = some text ∧ ofText? text = some c ∧
      ∃ files, standard.save "config.toml" .empty = .ok files ∧ ofFile files "config.toml" = .ok standard := by
  intro c text standard
  have htext : c.render? = some text := by decide +kernel
  have hname : FilePath.IsName "config.toml" := ⟨by decide, by decide, by decide⟩
  obtain ⟨document, hdocument⟩ := ((survives_saving standard).1).2 (fun _ hs => nomatch hs)
  have hfree : (SortedMap.empty : Files).find? "config.toml" = none := rfl
  have hwrite := hname.write?_eq (by decide) (by decide) hfree (Json.Quoted.utf8 document)
  have hsave : standard.save "config.toml" .empty =
      .ok (SortedMap.empty.insert "config.toml" (.file (Json.Quoted.utf8 document))) := by
    rw [save, hname.parent?_eq]
    simp only [FilePath.createDirectories?_empty, hdocument, bind, Except.bind, hwrite]
  exact ⟨htext, (survives_saving c).2.1 text htext, _, hsave, (survives_saving standard).2.2 _ _ _ hsave⟩

end Config

end SessionTickets
