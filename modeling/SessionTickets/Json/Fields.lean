import SessionTickets.Json.Quoted
import SessionTickets.SortedMap

namespace SessionTickets.Json

def ofString (s : String) : Json :=
  .text (Quoted.write s)

def ofList {α : Type} (write : α → Json) (xs : List α) : Json :=
  .array (xs.map write)

/-- The document of a map: an object with the entries in the order of their keys. -/
def ofMap {α : Type} (write : α → Json) (m : SortedMap α) : Json :=
  .object (m.entries.map fun (key, value) => (Quoted.write key, write value))

/-- The document of a record: an object with its fields in order. A field without a document is left out. -/
def ofFields (fields : List (String × Option Json)) : Json :=
  .object (fields.filterMap fun (name, value) => value.map (Quoted.write name, ·))

def string? : Json → Option String
  | .text token => Quoted.read? token
  | _ => none

def list? {α : Type} (read : Json → Option α) : Json → Option (List α)
  | .array items => items.mapM read
  | _ => none

/-- The members of an object, with the strings of their keys. -/
def namedMembers? (members : List (List UInt8 × Json)) : Option (List (String × Json)) :=
  members.mapM fun (key, value) => (Quoted.read? key).map (·, value)

/-- The map of a document. Of two members with one key the later one counts. -/
def map? {α : Type} (read : Json → Option α) : Json → Option (SortedMap α)
  | .object members => do
    let members ← namedMembers? members
    let entries ← members.mapM fun (key, value) => (read value).map (key, ·)
    some (.ofList entries)
  | _ => none

/-- The value of the member with a name, if there is one; two members are not allowed. -/
def member? (members : List (String × Json)) (name : String) : Option (Option Json) :=
  match members.filter (·.1 = name) with
  | [] => some none
  | [(_, value)] => some (some value)
  | _ => none

/-- The values of the fields with the given names, in order, each if it is there. A record is read from an
object, whose other members do not count, or from an array of the first fields in order. -/
def fields? (names : List String) : Json → Option (List (Option Json))
  | .array items =>
    if items.length ≤ names.length then
      some (items.map some ++ List.replicate (names.length - items.length) none)
    else
      none
  | .object members => (namedMembers? members).bind fun members => names.mapM (member? members)
  | _ => none

def required? {α : Type} (read : Json → Option α) : Option Json → Option α
  | some j => read j
  | none => none

/-- A field that may be left out or be null. -/
def optional? {α : Type} (read : Json → Option α) : Option Json → Option (Option α)
  | none | some .null => some none
  | some j => (read j).map some

/-- A field that has a value of its own if it is left out. Null does not count as left out. -/
def defaulted? {α : Type} (value : α) (read : Json → Option α) : Option Json → Option α
  | some j => read j
  | none => some value

end SessionTickets.Json
