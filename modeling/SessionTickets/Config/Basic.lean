import SessionTickets.Store.Settings

namespace SessionTickets

open Time

/-- Where tickets are kept. -/
inductive Backend where
  /-- In the process. -/
  | memory
  /-- In a cache that other processes share. -/
  | distributed
deriving DecidableEq

/-- The section on the ticket store. A section that is present counts as a whole. -/
@[ext] structure StoreSection where
  backend : Backend
  keyPrefix : String
  maxEntries : Nat
  cleanupIntervalSecs : Nat
  operationTimeoutMs : Option Nat
deriving DecidableEq

/-- The section on the session store. -/
@[ext] structure AdapterSection where
  synthesizeAssertion : Bool
deriving DecidableEq

/-- A configuration: the settings that a host may choose. Both sections may be absent, so that layers of
configuration can be put on top of each other. -/
@[ext] structure Config where
  store : Option StoreSection
  adapter : Option AdapterSection
deriving DecidableEq

/-- The section on the ticket store with its standard values. -/
def StoreSection.standard : StoreSection :=
  ⟨.memory, "cas-st:", 10000, 60, none⟩

/-- The section on the session store with its standard values. -/
def AdapterSection.standard : AdapterSection :=
  ⟨true⟩

def StoreSection.settings (s : StoreSection) : StoreSettings :=
  ⟨s.keyPrefix, s.maxEntries, .ofSeconds s.cleanupIntervalSecs,
    s.operationTimeoutMs.map Span.ofMillis⟩

def AdapterSection.settings (s : AdapterSection) : SessionSettings :=
  ⟨s.synthesizeAssertion⟩

/-- A field whose value no store can run with, and what it has to be. -/
structure InvalidValue where
  field : String
  reason : String
deriving DecidableEq

/-- The first field of a section with a value that no store can run with. -/
def StoreSection.invalid? (s : StoreSection) : Option InvalidValue :=
  if s.maxEntries = 0 then
    some ⟨"store.max_entries", "must be greater than zero"⟩
  else if s.keyPrefix = "" then
    some ⟨"store.key_prefix", "must not be empty"⟩
  else if s.cleanupIntervalSecs = 0 then
    some ⟨"store.cleanup_interval_secs", "must be greater than zero"⟩
  else if s.operationTimeoutMs = some 0 then
    some ⟨"store.operation_timeout_ms", "must be greater than zero; omit it to disable the timeout"⟩
  else
    none

namespace Config

def empty : Config := ⟨none, none⟩

/-- The configuration with the sections of a layer on top. -/
def merge (c layer : Config) : Config :=
  ⟨layer.store.or c.store, layer.adapter.or c.adapter⟩

/-- The first field with a value that no store can run with. -/
def invalid? (c : Config) : Option InvalidValue :=
  c.store.bind StoreSection.invalid?

/-- The backend in effect: the one of the section on the ticket store, or the standard one. -/
def backend (c : Config) : Backend :=
  (c.store.getD .standard).backend

def storeSettings (c : Config) : StoreSettings :=
  (c.store.getD .standard).settings

def sessionSettings (c : Config) : SessionSettings :=
  (c.adapter.getD .standard).settings

end Config

/-- Why a configuration cannot be had or kept. -/
inductive ConfigError where
  | unreadableFile (path : String)
  | unwritableFile (path : String)
  /-- A text that is not the document of a configuration. -/
  | malformed
  /-- A configuration that has no document. -/
  | inexpressible
  | invalid (value : InvalidValue)
deriving DecidableEq

/-- The wording of a value that no store can run with. -/
def InvalidValue.message (v : InvalidValue) : String :=
  "invalid value for '" ++ v.field ++ "': " ++ v.reason

/-- The wording of a configuration error, without what the file system or the reader adds to it. -/
def ConfigError.message : ConfigError → String
  | .unreadableFile path => "failed to read config file '" ++ path ++ "': "
  | .unwritableFile path => "failed to write config file '" ++ path ++ "': "
  | .malformed => "failed to parse config: "
  | .inexpressible => "failed to serialize config: "
  | .invalid value => value.message

end SessionTickets
