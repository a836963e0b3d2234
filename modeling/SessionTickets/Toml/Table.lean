import SessionTickets.Toml.Basic

namespace SessionTickets.Toml

/-- A dotted key: the tables that it passes, and the key in the last of them. -/
structure Path where
  parents : List String
  key : String
deriving DecidableEq

/-- The path of some keys, if there are any. -/
def Path.ofKeys? (keys : List String) : Option Path :=
  keys.getLast?.map fun key => ⟨keys.dropLast, key⟩

def Path.keys (p : Path) : List String := p.parents ++ [p.key]

/-- A line of a document, blank lines and comments apart. -/
inductive Statement where
  /-- A header in single brackets. -/
  | openTable (path : Path)
  /-- A header in double brackets. -/
  | openElement (path : Path)
  | assign (path : Path) (item : Item)

/-- Which tables may be passed on the way to another. A header passes any table that no braces closed. A
dotted key passes only those that were implied or made by dotted keys. -/
inductive Passage where
  | header
  | dotted
deriving DecidableEq

namespace Passage

/-- What a table that is missing on the way is made as. -/
def made : Passage → Origin
  | header => .implied
  | dotted => .dotted

def passes : Passage → Origin → Bool
  | header, origin => origin ≠ .inline
  | dotted, origin => origin = .implied ∨ origin = .dotted

end Passage

namespace Entries

/-- Changes the entries of the table at the end of a path, whose origin the change may look at. Tables that
are missing on the way are made. Where a path meets the tables of double brackets, it goes on in the last of
them. -/
def within (passage : Passage) (change : Origin → Entries → Option Entries) :
    List String → Origin → Entries → Option Entries
  | [], origin, entries => change origin entries
  | key :: path, _, entries =>
    match entries.lookup key with
    | none =>
      (within passage change path passage.made []).map fun inner =>
        entries ++ [(key, .table passage.made inner)]
    | some (.table origin inner) =>
      if passage.passes origin then
        (within passage change path origin inner).map fun inner =>
          entries.replace key (.table origin inner)
      else
        none
    | some (.tables elements) =>
      match elements.getLast? with
      | some last =>
        (within passage change path .header last).map fun last =>
          entries.replace key (.tables (elements.dropLast ++ [last]))
      | none => none
    | some _ => none

def add (key : String) (item : Item) (entries : Entries) : Option Entries :=
  if (entries.lookup key).isSome then none else some (entries ++ [(key, item)])

/-- Gives a value to a dotted key, in a table with some origin. -/
def assign (path : Path) (item : Item) (origin : Origin) (entries : Entries) : Option Entries :=
  within .dotted (fun origin entries =>
    if path.parents.isEmpty ∨ origin = .dotted then entries.add path.key item else none)
    path.parents origin entries

/-- Opens a table. One that was only passed by headers is opened late. -/
def openTable (path : Path) (entries : Entries) : Option Entries :=
  within .header (fun _ entries =>
    match entries.lookup path.key with
    | none => some (entries ++ [(path.key, .table .header [])])
    | some (.table .implied inner) => some (entries.replace path.key (.table .header inner))
    | some _ => none)
    path.parents .header entries

def openElement (path : Path) (entries : Entries) : Option Entries :=
  within .header (fun _ entries =>
    match entries.lookup path.key with
    | none => some (entries ++ [(path.key, .tables [[]])])
    | some (.tables elements) => some (entries.replace path.key (.tables (elements ++ [[]])))
    | some _ => none)
    path.parents .header entries

end Entries

/-- Carries out a statement: the path of the table that is open, and the entries of the document. -/
def Statement.run? (statement : Statement) : List String × Entries → Option (List String × Entries)
  | (here, entries) =>
    match statement with
    | .openTable path => (entries.openTable path).map fun entries => (path.keys, entries)
    | .openElement path => (entries.openElement path).map fun entries => (path.keys, entries)
    | .assign path item =>
      (Entries.within .header (Entries.assign path item) here .header entries).map fun entries =>
        (here, entries)

/-- The entries of a document, which its statements build one after the other. -/
def entriesOf? (statements : List Statement) : Option Entries :=
  (statements.foldlM (fun state (s : Statement) => s.run? state) ([], [])).map (·.2)

end SessionTickets.Toml
