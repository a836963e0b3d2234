import SessionTickets.Config.Document
import SessionTickets.Config.Files
import SessionTickets.Json.Quoted

namespace SessionTickets

open FilePath

namespace Config

def projectFile : String := "cas-session.toml"

def userFile : String := "config.toml"

/-- The name of the user's directory among those of all programs. -/
def directoryName : String := "cas-session"

/-- The variables that say where the user's directory is. -/
structure Environment where
  /-- The user's directory itself. -/
  configDir : Option String
  /-- The directory of the configurations of all programs. -/
  configHome : Option String
  home : Option String
  /-- The home directory of the account, for when the variable is not set. -/
  accountHome : Option String

/-- A text that is set and not empty. -/
def nonempty? (text : Option String) : Option String :=
  text.filter (· ≠ "")

/-- The directory of the configurations of all programs. A relative path does not count. -/
def Environment.programsDir? (e : Environment) : Option String :=
  (e.configHome.filter (·.startsWith "/")).or
    (((nonempty? e.home).or e.accountHome).map (join · ".config"))

def Environment.userDir? (e : Environment) : Option String :=
  (nonempty? e.configDir).or (e.programsDir?.map (join · directoryName))

def Environment.userPath? (e : Environment) : Option String :=
  e.userDir?.map (join · userFile)

/-- The paths of the layers, the lowest first. A directory for the user's file may be given; without
one for the project's file, that is looked for in the current directory. -/
def layerPaths (e : Environment) (projectDir userDir : Option String) : List String :=
  let user := match userDir with
    | some dir => some (join dir userFile)
    | none => e.userPath?
  let project := match projectDir with
    | some dir => join dir projectFile
    | none => projectFile
  user.toList ++ [project]

def ofFile (files : Files) (path : String) : Except ConfigError Config :=
  match (files.bytes? path).bind Json.Quoted.ofUtf8? with
  | none => .error (.unreadableFile path)
  | some text =>
    match ofText? text with
    | none => .error .malformed
    | some config => .ok config

/-- What became of a layer. -/
inductive Layer where
  | absent
  | loaded (config : Config)
  | failed (error : ConfigError)
deriving DecidableEq

/-- The layer at a path. A layer that is not there is left out, and one that cannot be loaded has failed. -/
def layerAt (files : Files) (path : String) : Layer :=
  if files.isFile path then
    match ofFile files path with
    | .ok config => .loaded config
    | .error e => .failed e
  else
    .absent

/-- What a layer adds. One that is not loaded adds nothing. -/
def Layer.config : Layer → Config
  | .loaded config => config
  | .absent | .failed _ => .empty

def Layer.isLoaded : Layer → Bool
  | .loaded _ => true
  | .absent | .failed _ => false

/-- A layer that has failed is left out with a warning, and one that is absent without. -/
def Layer.warning? (path : String) : Layer → Option String
  | .failed e => some ("Failed to load " ++ path ++ ": " ++ e.message)
  | .absent | .loaded _ => none

/-- A path that was looked at, and whether it was loaded. -/
structure Source where
  path : String
  isLoaded : Bool
deriving DecidableEq

/-- A configuration with what is known of its layers. -/
structure Loaded where
  config : Config
  sources : List Source
  warnings : List String
deriving DecidableEq

def Loaded.paths (l : Loaded) : List String :=
  (l.sources.filter (·.isLoaded)).map (·.path)

/-- The configuration of layers, the lowest first. -/
def merged (layers : List Layer) : Config :=
  layers.foldl (fun config layer => config.merge layer.config) .empty

/-- Loads the layers at some paths, the lowest first. Only the result is checked for values that no store can
run with. -/
def load (files : Files) (paths : List String) : Except ConfigError Loaded :=
  let config := merged (paths.map (layerAt files))
  match config.invalid? with
  | some value => .error (.invalid value)
  | none =>
    .ok {
      config
      sources := paths.map fun path => ⟨path, (layerAt files path).isLoaded⟩
      warnings := paths.filterMap fun path => (layerAt files path).warning? path }

/-- Saves a configuration in a file, in a directory that is made if it has to be. -/
def save (config : Config) (path : String) (files : Files) : Except ConfigError Files := do
  let files ← match parent? path with
    | some dir =>
      match files.createDirectories? dir with
      | some files => .ok files
      | none => .error (.unwritableFile dir)
    | none => .ok files
  match config.render? with
  | none => .error .inexpressible
  | some text =>
    match files.write? path (Json.Quoted.utf8 text) with
    | some files => .ok files
    | none => .error (.unwritableFile path)

end Config

end SessionTickets
