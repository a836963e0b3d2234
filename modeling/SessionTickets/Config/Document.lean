import SessionTickets.Config.Basic
import SessionTickets.Text.Decimal
import SessionTickets.Toml.Reader

namespace SessionTickets

open Toml

namespace Config

/-- The values of the fields with the given names, in order, each if it is there. Fields of other names do not
count. A section may also be an array of the values of its first fields in order. -/
def fields? (names : List String) : Item → Option (List (Option Item))
  | .table _ entries => some (names.map fun name => entries.lookup name)
  | .array items => some (inOrder items)
  | .tables elements => some (inOrder (elements.map (.table .header)))
  | .moment _ => some (names.map fun _ => none)
  | _ => none
where
  /-- The values of an array, as far as there are fields for them. -/
  inOrder (items : List Item) : List (Option Item) :=
    (List.range names.length).map fun index => items[index]?

def defaulted? {α : Type} (value : α) (read : Item → Option α) : Option Item → Option α
  | some item => read item
  | none => some value

/-- A number that is not negative. -/
def natOf? : Item → Option Nat
  | .integer n => if 0 ≤ n then some n.toNat else none
  | _ => none

def stringOf? : Item → Option String
  | .text s => some s
  | _ => none

def booleanOf? : Item → Option Bool
  | .boolean b => some b
  | _ => none

def backendOfName? (name : String) : Option Backend :=
  if name = "memory" then some .memory
  else if name = "distributed" then some .distributed
  else none

/-- A backend: its name, or a table with its name as the only key and with nothing as its value. -/
def backendOf? : Item → Option Backend
  | .text name => backendOfName? name
  | .table _ [(name, .table _ [])] => backendOfName? name
  | .table _ [(name, .array [])] => backendOfName? name
  | _ => none

/-- The names of the fields of the section on the ticket store. -/
def storeFields : List String :=
  ["backend", "key_prefix", "max_entries", "cleanup_interval_secs", "operation_timeout_ms"]

/-- The section on the ticket store. Fields that are left out have their standard values. -/
def storeSection? (item : Item) : Option StoreSection := do
  let [backend, keyPrefix, maxEntries, interval, timeout] ← fields? storeFields item | none
  let standard := StoreSection.standard
  let backend ← defaulted? standard.backend backendOf? backend
  let keyPrefix ← defaulted? standard.keyPrefix stringOf? keyPrefix
  let maxEntries ← defaulted? standard.maxEntries natOf? maxEntries
  let cleanupIntervalSecs ← defaulted? standard.cleanupIntervalSecs natOf? interval
  let operationTimeoutMs ← defaulted? standard.operationTimeoutMs (fun i => (natOf? i).map some) timeout
  some { backend, keyPrefix, maxEntries, cleanupIntervalSecs, operationTimeoutMs }

/-- The names of the fields of the section on the session store. -/
def adapterFields : List String := ["synthesize_assertion"]

def adapterSection? (item : Item) : Option AdapterSection := do
  let [synthesize] ← fields? adapterFields item | none
  let standard := AdapterSection.standard
  let synthesizeAssertion ← defaulted? standard.synthesizeAssertion booleanOf? synthesize
  some { synthesizeAssertion }

def section? {α : Type} (read : Item → Option α) : Option Item → Option (Option α)
  | some item => (read item).map some
  | none => some none

def ofEntries? (entries : Entries) : Option Config := do
  let store ← section? storeSection? (entries.lookup "store")
  let adapter ← section? adapterSection? (entries.lookup "adapter")
  some { store, adapter }

/-- The configuration of a document, each section a table with its fields. -/
def ofText? (text : String) : Option Config :=
  (Toml.ofText? text.toList).bind ofEntries?

def backendName : Backend → String
  | .memory => "memory"
  | .distributed => "distributed"

def line (key : String) (value : List Char) : List Char :=
  key.toList ++ ' ' :: '=' :: ' ' :: value ++ ['\n']

/-- A number, if a document can hold it. -/
def natText? (n : Nat) : Option (List Char) :=
  if n ≤ Number.largest then some (Text.Decimal.digits n) else none

def booleanText (b : Bool) : List Char :=
  if b then "true".toList else "false".toList

/-- The lines of the section on the ticket store, if a document can hold its numbers. -/
def storeText? (s : StoreSection) : Option (List Char) := do
  let maxEntries ← natText? s.maxEntries
  let interval ← natText? s.cleanupIntervalSecs
  let timeout ← s.operationTimeoutMs.mapM natText?
  some <| "[store]\n".toList ++
    line "backend" (Quoted.write (backendName s.backend).toList) ++
    line "key_prefix" (Quoted.write s.keyPrefix.toList) ++
    line "max_entries" maxEntries ++
    line "cleanup_interval_secs" interval ++
    (timeout.map (line "operation_timeout_ms")).getD []

def adapterText (s : AdapterSection) : List Char :=
  "[adapter]\n".toList ++ line "synthesize_assertion" (booleanText s.synthesizeAssertion)

/-- The document of a configuration, if it has one. A blank line parts the sections. -/
def render? (c : Config) : Option String := do
  let store ← c.store.mapM storeText?
  let adapter := c.adapter.map adapterText
  some (String.ofList (['\n'].intercalate (store.toList ++ adapter.toList)))

end Config

end SessionTickets
