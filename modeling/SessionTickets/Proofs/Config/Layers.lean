import Mathlib.Data.List.Forall2
import Mathlib.Data.List.Induction
import SessionTickets.Config.Load
import SessionTickets.Proofs.Config.Names
import SessionTickets.Proofs.Json.Quoted

namespace SessionTickets

open Time

/-- What is found at the path of a layer. -/
inductive Content where
  | absent
  /-- Something that is no file. -/
  | directory
  /-- A file that may not be read, or that holds no text. -/
  | unreadable
  /-- A text that is not the document of a configuration. -/
  | malformed
  | valid (config : Config)

namespace Content

def isValid : Content → Bool
  | .valid _ => true
  | .absent | .directory | .unreadable | .malformed => false

/-- The warning about a file that holds no configuration. -/
def warning? (path : String) : Content → Option String
  | .unreadable =>
    some ("Failed to load " ++ path ++ ": " ++ ("failed to read config file '" ++ path ++ "': "))
  | .malformed => some ("Failed to load " ++ path ++ ": " ++ "failed to parse config: ")
  | .absent | .directory | .valid _ => none

/-- The configuration of a layer. One that cannot be loaded has none of the sections. -/
def config : Content → Config
  | .valid config => config
  | .absent | .directory | .unreadable | .malformed => .empty

/-- What becomes of a layer. -/
def layer (path : String) : Content → Config.Layer
  | .absent | .directory => .absent
  | .unreadable => .failed (.unreadableFile path)
  | .malformed => .failed .malformed
  | .valid config => .loaded config

end Content

/-- What a file system holds at a path. -/
inductive Files.Holds (files : Files) (path : String) : Content → Prop
  | absent (hnode : files.node? path = none) : Holds files path .absent
  | directory (hnode : files.node? path = some .directory) : Holds files path .directory
  | locked (hnode : files.node? path = some .sealedFile) : Holds files path .unreadable
  | noText {bytes : List UInt8} (hnode : files.node? path = some (.file bytes))
    (htext : Json.Quoted.ofUtf8? bytes = none) : Holds files path .unreadable
  | malformed {bytes : List UInt8} {text : String} (hnode : files.node? path = some (.file bytes))
    (htext : Json.Quoted.ofUtf8? bytes = some text) (hconfig : Config.ofText? text = none) :
    Holds files path .malformed
  | valid {bytes : List UInt8} {text : String} {config : Config} (hnode : files.node? path = some (.file bytes))
    (htext : Json.Quoted.ofUtf8? bytes = some text) (hconfig : Config.ofText? text = some config) :
    Holds files path (.valid config)

namespace Files.Holds

variable {files : Files} {path : String} {content : Content}

private theorem layerAt_eq (h : files.Holds path content) : Config.layerAt files path = content.layer path := by
  cases h with
  | absent hnode | directory hnode =>
    simp only [Config.layerAt, isFile, hnode]
    rfl
  | locked hnode =>
    simp only [Config.layerAt, isFile, Config.ofFile, bytes?, hnode]
    rfl
  | noText hnode htext =>
    simp only [Config.layerAt, isFile, Config.ofFile, bytes?, hnode, Option.bind_some, htext]
    rfl
  | malformed hnode htext hconfig | valid hnode htext hconfig =>
    simp only [Config.layerAt, isFile, Config.ofFile, bytes?, hnode, Option.bind_some, htext, hconfig]
    rfl

/-- A file system holds something or nothing at every path. -/
private theorem exists_holds (files : Files) (path : String) : ∃ content, files.Holds path content := by
  cases hnode : files.node? path with
  | none => exact ⟨_, .absent hnode⟩
  | some node =>
    cases node with
    | directory => exact ⟨_, .directory hnode⟩
    | sealedFile => exact ⟨_, .locked hnode⟩
    | file bytes =>
      cases htext : Json.Quoted.ofUtf8? bytes with
      | none => exact ⟨_, .noText hnode htext⟩
      | some text =>
        cases hconfig : Config.ofText? text with
        | none => exact ⟨_, .malformed hnode htext hconfig⟩
        | some config => exact ⟨_, .valid hnode htext hconfig⟩

private theorem unique {content' : Content} (h : files.Holds path content) (h' : files.Holds path content') :
    content = content' := by
  cases h <;> cases h' <;> simp_all

end Files.Holds

namespace Config

variable {files : Files} {paths : List String} {contents : List Content}

/-- Of a section that layers may have, the one of the last layer that has it. -/
def inEffect {α : Type} (part : Config → Option α) (contents : List Content) : Option α :=
  (contents.filterMap fun content => part content.config).getLast?

/-- The layers put on top of each other, the lowest first. -/
def stacked (contents : List Content) : Config :=
  contents.foldl (fun config content => config.merge content.config) .empty

/-- A section of stacked layers comes from one layer as a whole. -/
theorem stacked_eq_inEffect {α : Type} {part : Config → Option α} (hempty : part .empty = none)
    (hmerge : ∀ config layer, part (merge config layer) = (part layer).or (part config)) (contents : List Content) :
    part (stacked contents) = inEffect part contents := by
  induction contents using List.reverseRecOn with
  | nil => exact hempty
  | append_singleton contents content ih =>
    have hstacked : stacked (contents ++ [content]) = (stacked contents).merge content.config := List.foldl_concat ..
    rw [hstacked, hmerge, ih, inEffect, inEffect, List.filterMap_append, List.getLast?_append]
    cases hpart : part content.config <;> simp [hpart]

private theorem merged_eq_stacked (h : List.Forall₂ files.Holds paths contents) :
    merged (paths.map (layerAt files)) = stacked contents := by
  have hfold : ∀ config : Config,
      (paths.map (layerAt files)).foldl (fun config layer => config.merge layer.config) config =
        contents.foldl (fun config content => config.merge content.config) config := by
    induction h with
    | nil => exact fun _ => rfl
    | @cons path content _ _ hholds _ ih =>
      intro config
      have hlayer : (content.layer path).config = content.config := by cases content <;> rfl
      rw [List.map_cons, List.foldl_cons, List.foldl_cons, hholds.layerAt_eq, hlayer, ih]
  exact hfold .empty

end Config

/-- The first value of a section that no store can run with. -/
inductive StoreSection.Refused (s : StoreSection) : InvalidValue → Prop
  | maxEntries (h : s.maxEntries = 0) : Refused s ⟨"store.max_entries", "must be greater than zero"⟩
  | keyPrefix (hentries : s.maxEntries ≠ 0) (h : s.keyPrefix = "") :
    Refused s ⟨"store.key_prefix", "must not be empty"⟩
  | cleanupInterval (hentries : s.maxEntries ≠ 0) (hkey : s.keyPrefix ≠ "") (h : s.cleanupIntervalSecs = 0) :
    Refused s ⟨"store.cleanup_interval_secs", "must be greater than zero"⟩
  | operationTimeout (hentries : s.maxEntries ≠ 0) (hkey : s.keyPrefix ≠ "")
    (hinterval : s.cleanupIntervalSecs ≠ 0) (h : s.operationTimeoutMs = some 0) :
    Refused s ⟨"store.operation_timeout_ms", "must be greater than zero; omit it to disable the timeout"⟩

/-- Settings that a store can run with. -/
structure StoreSettings.Usable (s : StoreSettings) : Prop where
  maxEntries_pos : 0 < s.maxEntries
  keyPrefix_ne : s.keyPrefix ≠ ""
  cleanupInterval_pos : ⟨0⟩ < s.cleanupInterval
  operationTimeout_pos : ∀ limit ∈ s.operationTimeout, ⟨0⟩ < limit

namespace StoreSection

variable {s : StoreSection}

/-- The value that is refused is the first one that no store can run with. -/
private theorem invalid?_eq_some_iff {fault : InvalidValue} : s.invalid? = some fault ↔ s.Refused fault := by
  constructor
  · intro h
    rw [invalid?] at h
    split at h
    · next hentries => exact Option.some.inj h ▸ .maxEntries hentries
    · next hentries =>
      split at h
      · next hkey => exact Option.some.inj h ▸ .keyPrefix hentries hkey
      · next hkey =>
        split at h
        · next hinterval => exact Option.some.inj h ▸ .cleanupInterval hentries hkey hinterval
        · next hinterval =>
          split at h
          · next htimeout => exact Option.some.inj h ▸ .operationTimeout hentries hkey hinterval htimeout
          · cases h
  · rintro (hentries | ⟨hentries, hkey⟩ | ⟨hentries, hkey, hinterval⟩ |
      ⟨hentries, hkey, hinterval, htimeout⟩) <;> simp [invalid?, *]

/-- A section is refused if one of its values is zero or empty that may not be. -/
private theorem exists_refused_iff : (∃ fault, s.Refused fault) ↔
    s.maxEntries = 0 ∨ s.keyPrefix = "" ∨ s.cleanupIntervalSecs = 0 ∨ s.operationTimeoutMs = some 0 := by
  simp only [← invalid?_eq_some_iff, ← Option.isSome_iff_exists, invalid?]
  split
  · next hentries => simp [hentries]
  · next hentries =>
    split
    · next hkey => simp [hkey]
    · next hkey =>
      split
      · next hinterval => simp [hinterval]
      · next hinterval => split <;> simp [*]

/-- A store can run with a section that is not refused. -/
private theorem usable_settings (h : s.invalid? = none) : s.settings.Usable := by
  have hnot : ¬ ∃ fault, s.Refused fault := by
    rintro ⟨fault, hfault⟩
    cases h.symm.trans (invalid?_eq_some_iff.2 hfault)
  rw [exists_refused_iff] at hnot
  obtain ⟨hentries, hkey, hinterval, htimeout⟩ : s.maxEntries ≠ 0 ∧ s.keyPrefix ≠ "" ∧
      s.cleanupIntervalSecs ≠ 0 ∧ s.operationTimeoutMs ≠ some 0 := by
    simpa only [not_or] using hnot
  refine ⟨Nat.pos_of_ne_zero hentries, hkey, ?_, ?_⟩
  · change 0 < 1000000000 * s.cleanupIntervalSecs
    omega
  · intro limit hlimit
    obtain ⟨ms, hms, rfl⟩ := Option.map_eq_some_iff.1 hlimit
    have hne : ms ≠ 0 := by
      rintro rfl
      exact htimeout hms
    change 0 < 1000000 * ms
    omega

end StoreSection

namespace Config

variable {files : Files} {paths : List String} {contents : List Content}

/-- What was looked at, and which of it was loaded. -/
def sourcesOf (paths : List String) (contents : List Content) : List Source :=
  (paths.zip contents).map fun layer => ⟨layer.1, layer.2.isValid⟩

/-- The warnings about files that hold no configuration, one for each. -/
def warningsOf (paths : List String) (contents : List Content) : List String :=
  (paths.zip contents).filterMap fun layer => layer.2.warning? layer.1

private theorem sources_eq (h : List.Forall₂ files.Holds paths contents) :
    (paths.map fun path => (⟨path, (layerAt files path).isLoaded⟩ : Source)) = sourcesOf paths contents := by
  induction h with
  | nil => rfl
  | @cons path content _ _ hholds _ ih =>
    have hloaded : (content.layer path).isLoaded = content.isValid := by cases content <;> rfl
    rw [List.map_cons, ih, hholds.layerAt_eq, hloaded, sourcesOf, sourcesOf, List.zip_cons_cons, List.map_cons]

private theorem warnings_eq (h : List.Forall₂ files.Holds paths contents) :
    (paths.filterMap fun path => (layerAt files path).warning? path) = warningsOf paths contents := by
  induction h with
  | nil => rfl
  | @cons path content _ _ hholds _ ih =>
    have hwarning : (content.layer path).warning? path = content.warning? path := by cases content <;> rfl
    rw [List.filterMap_cons, ih, hholds.layerAt_eq, hwarning, warningsOf, warningsOf, List.zip_cons_cons,
      List.filterMap_cons]

/-- Only the section in effect decides whether layers are loaded. -/
theorem load_eq (h : List.Forall₂ files.Holds paths contents) :
    load files paths = match (inEffect Config.store contents).bind StoreSection.invalid? with
      | some fault => .error (.invalid fault)
      | none => .ok ⟨⟨inEffect Config.store contents, inEffect Config.adapter contents⟩, sourcesOf paths contents,
          warningsOf paths contents⟩ := by
  have hconfig : merged (paths.map (layerAt files)) =
      ⟨inEffect Config.store contents, inEffect Config.adapter contents⟩ := by
    rw [merged_eq_stacked h]
    exact Config.ext (stacked_eq_inEffect rfl (fun _ _ => rfl) contents)
      (stacked_eq_inEffect rfl (fun _ _ => rfl) contents)
  simp only [load, hconfig, sources_eq h, warnings_eq h]
  rfl

/-- A store can run with the settings in effect, if its section is not refused or there is none. -/
private theorem usable_storeSettings {c : Config} (h : c.store.bind StoreSection.invalid? = none) :
    c.storeSettings.Usable := by
  rw [storeSettings]
  cases hstore : c.store with
  | none => exact StoreSection.usable_settings rfl
  | some s => exact StoreSection.usable_settings (by simpa [hstore] using h)

/-- What the files at some paths come to, the lowest layer first. -/
structure LoadsInOrder (files : Files) (paths : List String) (contents : List Content) : Prop where
  fails_iff : (∃ e, load files paths = .error e) ↔ ∃ s, inEffect Config.store contents = some s ∧
    (s.maxEntries = 0 ∨ s.keyPrefix = "" ∨ s.cleanupIntervalSecs = 0 ∨ s.operationTimeoutMs = some 0)
  error_iff : ∀ e, load files paths = .error e ↔
    ∃ s fault, inEffect Config.store contents = some s ∧ s.Refused fault ∧ e = .invalid fault
  loaded : ∀ l, load files paths = .ok l →
    l.config.store = inEffect Config.store contents ∧ l.config.adapter = inEffect Config.adapter contents ∧
    l.sources = sourcesOf paths contents ∧ l.warnings = warningsOf paths contents ∧ l.config.storeSettings.Usable

/-- Whatever is found at the paths of the layers decides what is loaded. -/
private theorem loadsInOrder (h : List.Forall₂ files.Holds paths contents) : LoadsInOrder files paths contents := by
  have herror : ∀ e, load files paths = .error e ↔
      ∃ s fault, inEffect Config.store contents = some s ∧ s.Refused fault ∧ e = .invalid fault := by
    intro e
    rw [load_eq h]
    constructor
    · intro he
      split at he
      · next fault hfault =>
        obtain ⟨s, hs, hinvalid⟩ := Option.bind_eq_some_iff.1 hfault
        cases he
        exact ⟨s, fault, hs, StoreSection.invalid?_eq_some_iff.1 hinvalid, rfl⟩
      · cases he
    · rintro ⟨s, fault, hs, hfault, rfl⟩
      rw [hs, Option.bind_some, StoreSection.invalid?_eq_some_iff.2 hfault]
  refine ⟨?_, herror, fun l hl => ?_⟩
  · simp only [herror, ← StoreSection.exists_refused_iff]
    constructor
    · rintro ⟨_, s, fault, hs, hfault, -⟩
      exact ⟨s, hs, fault, hfault⟩
    · rintro ⟨s, hs, fault, hfault⟩
      exact ⟨_, s, fault, hs, hfault, rfl⟩
  · rw [load_eq h] at hl
    split at hl
    · cases hl
    · next hvalid =>
      cases hl
      exact ⟨rfl, rfl, rfl, rfl, usable_storeSettings hvalid⟩

/-- The layers are the user's file and, on top of it, the file of the project. Whatever is found at their paths,
each section is taken as a whole from the last layer that has it, each file without a configuration leaves one
warning and no section, and only a section in effect can make loading fail. -/
theorem layers_in_order (e : Environment) (files : Files) :
    (∀ projectDir userDir, layerPaths e (some projectDir) (some userDir) =
      [FilePath.join userDir "config.toml", FilePath.join projectDir "cas-session.toml"]) ∧
    (∀ path, ∃! content, files.Holds path content) ∧
    ∀ projectDir userDir contents, List.Forall₂ files.Holds (layerPaths e projectDir userDir) contents →
      LoadsInOrder files (layerPaths e projectDir userDir) contents := by
  refine ⟨fun _ _ => rfl, fun path => ?_, fun _ _ _ h => loadsInOrder h⟩
  obtain ⟨content, hcontent⟩ := Files.Holds.exists_holds files path
  exact ⟨content, hcontent, fun _ h => h.unique hcontent⟩

/-- The user's section on the store is one that no store can run with. It does no harm while the project has a section
of its own, which leaves the user's other section in effect, but it does once the project's file may not be read. -/
theorem layers_in_order_overridden :
    let e : Environment := ⟨none, none, none, none⟩
    let user := "[store]\nmax_entries = 0\n\n[adapter]\nsynthesize_assertion = false\n"
    let project := "[store]\nbackend = 'distributed'\n"
    let files (node : FileNode) : Files := (SortedMap.empty.insert "config.toml" (.file (Json.Quoted.utf8 user))).insert
      "cas-session.toml" node
    let paths := layerPaths e (some "") (some "")
    let both := files (.file (Json.Quoted.utf8 project))
    (∃ l, load both paths = .ok l ∧ l.warnings = [] ∧
      l.config = ⟨some { StoreSection.standard with backend := .distributed }, some ⟨false⟩⟩) ∧
    load (files .sealedFile) paths = .error (.invalid ⟨"store.max_entries", "must be greater than zero"⟩) := by
  intro e user project files paths both
  let userConfig : Config := ⟨some { StoreSection.standard with maxEntries := 0 }, some ⟨false⟩⟩
  let projectConfig : Config := ⟨some { StoreSection.standard with backend := .distributed }, none⟩
  have hname : FilePath.IsName "config.toml" := ⟨by decide, by decide, by decide⟩
  have hname' : FilePath.IsName "cas-session.toml" := ⟨by decide, by decide, by decide⟩
  have huser : ∀ node, (files node).Holds "config.toml" (.valid userConfig) := by
    intro node
    refine .valid ?_ (Json.Quoted.ofUtf8?_utf8 user) (by decide +kernel)
    rw [hname.node?_eq (by decide) (by decide)]
    simp [files]
  have hproject : both.Holds "cas-session.toml" (.valid projectConfig) := by
    refine .valid ?_ (Json.Quoted.ofUtf8?_utf8 project) (by decide +kernel)
    rw [hname'.node?_eq (by decide) (by decide)]
    simp [both, files]
  have hlocked : (files .sealedFile).Holds "cas-session.toml" .unreadable := by
    refine .locked ?_
    rw [hname'.node?_eq (by decide) (by decide)]
    simp [files]
  obtain ⟨-, -, horder⟩ := layers_in_order e both
  obtain ⟨-, -, horder'⟩ := layers_in_order e (files .sealedFile)
  have hboth := horder (some "") (some "") _ (.cons (huser _) (.cons hproject .nil))
  have hfailed := horder' (some "") (some "") _ (.cons (huser _) (.cons hlocked .nil))
  constructor
  · cases hl : load both paths with
    | error e =>
      obtain ⟨s, hs, hinvalid⟩ := hboth.fails_iff.1 ⟨e, hl⟩
      cases hs
      exact absurd hinvalid (by decide)
    | ok l =>
      obtain ⟨hstore, hadapter, -, hwarnings, -⟩ := hboth.loaded l hl
      exact ⟨l, rfl, hwarnings, Config.ext hstore hadapter⟩
  · exact (hfailed.error_iff _).2 ⟨_, _, rfl, .maxEntries rfl, rfl⟩

end Config

end SessionTickets
