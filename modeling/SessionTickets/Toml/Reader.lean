import SessionTickets.Toml.Number
import SessionTickets.Toml.Quoted
import SessionTickets.Toml.Table

namespace SessionTickets.Toml

/-- Whether a character may stand in a key without quotes. -/
def isBare (c : Char) : Bool :=
  c.isAlphanum || c = '_' || c = '-'

/-- Reads one key, with or without quotes. A key is never a long text. -/
def key? : List Char → Option (String × List Char)
  | '"' :: rest => (Quoted.basic? rest).map fun (key, rest) => (String.ofList key, rest)
  | '\'' :: rest => (Quoted.literal? rest).map fun (key, rest) => (String.ofList key, rest)
  | text =>
    match text.takeWhile isBare with
    | [] => none
    | key => some (String.ofList key, text.dropWhile isBare)

/-- Reads keys with points between them and blanks around them, at most `most` keys. -/
def keys? : Nat → List Char → Option (List String × List Char)
  | 0, _ => none
  | most + 1, text => do
    let (key, rest) ← key? (skipBlanks text)
    match skipBlanks rest with
    | '.' :: rest => (keys? most rest).map fun (keys, rest) => (key :: keys, rest)
    | rest => some ([key], rest)

/-- How deep arrays and inline tables may nest, and how many keys a dotted key may have. -/
def depthLimit : Nat := 79

def path? (text : List Char) : Option (Path × List Char) := do
  let (keys, rest) ← keys? depthLimit text
  let path ← Path.ofKeys? keys
  some (path, rest)

/-- What is left of a text once blanks, line ends and comments at its start are gone. A comment ends
with its line. -/
def skipLines : Nat → List Char → Option (List Char)
  | 0, text => some text
  | fuel + 1, text =>
    match skipBlanks text with
    | '#' :: rest => (newline? (rest.dropWhile isPlain)).bind (skipLines fuel)
    | '\n' :: rest => skipLines fuel rest
    | '\r' :: rest => (newline? ('\r' :: rest)).bind (skipLines fuel)
    | text => some text

/-- Reads the items of an array up to its closing bracket. A comma may follow the last. -/
def items? (item? : List Char → Option (Item × List Char)) :
    Nat → List Char → Option (List Item × List Char)
  | 0, _ => none
  | fuel + 1, text => do
    match ← skipLines text.length text with
    | ']' :: rest => some ([], rest)
    | text =>
      let (item, rest) ← item? text
      match ← skipLines rest.length rest with
      | ',' :: rest => (items? item? fuel rest).map fun (items, rest) => (item :: items, rest)
      | ']' :: rest => some ([item], rest)
      | _ => none

/-- Reads a key, an equals sign and a value, with blanks around each. -/
def pair? (item? : List Char → Option (Item × List Char)) (text : List Char) :
    Option ((Path × Item) × List Char) := do
  let (path, rest) ← path? text
  match rest with
  | '=' :: rest =>
    let (item, rest) ← item? (skipBlanks rest)
    some ((path, item), skipBlanks rest)
  | _ => none

/-- Reads the pairs of an inline table up to its closing brace. -/
def pairs? (item? : List Char → Option (Item × List Char)) :
    Nat → List Char → Option (List (Path × Item) × List Char)
  | 0, _ => none
  | fuel + 1, text => do
    let (first, rest) ← pair? item? text
    match rest with
    | ',' :: rest => (pairs? item? fuel rest).map fun (pairs, rest) => (first :: pairs, rest)
    | '}' :: rest => some ([first], rest)
    | _ => none

def inlineTable? (item? : List Char → Option (Item × List Char)) (text : List Char) :
    Option (Item × List Char) :=
  match skipBlanks text with
  | '}' :: rest => some (.table .inline [], rest)
  | text => do
    let (pairs, rest) ← pairs? item? text.length text
    let entries ← pairs.foldlM (fun entries (path, item) => Entries.assign path item .inline entries) []
    some (.table .inline entries, rest)

/-- Reads a value that is neither an array nor an inline table. -/
def scalar? : List Char → Option (Item × List Char)
  | 't' :: 'r' :: 'u' :: 'e' :: rest => some (.boolean true, rest)
  | 'f' :: 'a' :: 'l' :: 's' :: 'e' :: rest => some (.boolean false, rest)
  | '"' :: rest => quoted? ('"' :: rest)
  | '\'' :: rest => quoted? ('\'' :: rest)
  | text => Number.read? text
where
  /-- Reads a quoted text. -/
  quoted? (text : List Char) : Option (Item × List Char) :=
    (Quoted.read? text).map fun (value, rest) => (.text (String.ofList value), rest)

/-- Reads a value with at most some depth of arrays and inline tables. -/
def item? : Nat → List Char → Option (Item × List Char)
  | depth + 1, '[' :: rest =>
    (items? (item? depth) (rest.length + 1) rest).map fun (items, rest) => (.array items, rest)
  | depth + 1, '{' :: rest => inlineTable? (item? depth) rest
  | _, text => scalar? text

/-- Reads the path of a header behind its opening brackets, up to the end of the line. -/
def header? (brackets : List Char) (text : List Char) : Option (Path × List Char) := do
  let (path, rest) ← path? text
  if brackets.isPrefixOf rest then
    let rest ← endLine? (rest.drop brackets.length)
    some (path, rest)
  else
    none

/-- Reads a statement, which opens a table, or gives a value to a key in the table that was opened last. What
the statements mean together is not looked at here. -/
def statement? : List Char → Option (Statement × List Char)
  | '[' :: '[' :: rest => (header? [']', ']'] rest).map fun (path, rest) => (.openElement path, rest)
  | '[' :: rest => (header? [']'] rest).map fun (path, rest) => (.openTable path, rest)
  | text => do
    let ((path, item), rest) ← pair? (item? depthLimit) text
    let rest ← endLine? rest
    some (.assign path item, rest)

/-- Reads the statements of a document, each on lines of its own. -/
def statements? : Nat → List Char → Option (List Statement)
  | 0, text => if text.isEmpty then some [] else none
  | fuel + 1, text =>
    match skipBlanks text with
    | [] => some []
    | '#' :: rest => (endLine? ('#' :: rest)).bind (statements? fuel)
    | '\n' :: rest => statements? fuel rest
    | '\r' :: rest => (newline? ('\r' :: rest)).bind (statements? fuel)
    | text => do
      let (statement, rest) ← statement? text
      let statements ← statements? fuel rest
      some (statement :: statements)

/-- The entries of a document. A byte order mark may stand in front. -/
def ofText? (text : List Char) : Option Entries := do
  let text := if text.head? = some '\ufeff' then text.tail else text
  let statements ← statements? text.length text
  entriesOf? statements

end SessionTickets.Toml
