namespace SessionTickets.Toml

/-- How a table came about, which decides what may still be added to it. -/
inductive Origin where
  /-- It was opened by a header of its own. -/
  | header
  /-- It was passed by the header of a table within it. -/
  | implied
  /-- It was passed by a dotted key. -/
  | dotted
  /-- It was written between braces. -/
  | inline
deriving DecidableEq

/-- An item of a TOML document. Floats and moments are kept as written. -/
inductive Item where
  | text (value : String)
  | integer (value : Int)
  | float (numeral : List Char)
  | boolean (value : Bool)
  /-- A date, a time of day, or both. -/
  | moment (text : List Char)
  | array (items : List Item)
  | table (origin : Origin) (entries : List (String × Item))
  /-- The tables opened by headers in double brackets, in order. -/
  | tables (elements : List (List (String × Item)))

/-- The entries of a table, in the order of their arrival. -/
abbrev Entries := List (String × Item)

/-- The entries with another item at a key that they have. -/
def Entries.replace (key : String) (item : Item) (entries : Entries) : Entries :=
  entries.map fun e => if e.1 = key then (key, item) else e

/-- A space or a tab. -/
def isBlank (c : Char) : Bool := c = ' ' || c = '\t'

/-- What is left of a text once its leading blanks are gone. -/
def skipBlanks (text : List Char) : List Char := text.dropWhile isBlank

/-- Whether a character may stand in a comment or a text as it is: a tab, or none of the control
characters of ASCII. -/
def isPlain (c : Char) : Bool :=
  c = '\t' || (' ' ≤ c && c ≠ '\x7f')

/-- Reads a line end: a line feed, or a carriage return and a line feed. -/
def newline? : List Char → Option (List Char)
  | '\n' :: rest => some rest
  | '\r' :: '\n' :: rest => some rest
  | _ => none

/-- What is left of a text once a comment at its start is gone. -/
def skipComment : List Char → List Char
  | '#' :: rest => rest.dropWhile isPlain
  | text => text

/-- Reads the end of a line, blanks and a comment before it included. The end of the text is one. -/
def endLine? (text : List Char) : Option (List Char) :=
  match skipComment (skipBlanks text) with
  | [] => some []
  | rest => newline? rest

end SessionTickets.Toml
