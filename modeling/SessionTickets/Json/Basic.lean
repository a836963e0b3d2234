namespace SessionTickets

/-- A JSON document as a syntax tree. A number and a quoted text are kept as written: the text between its
quotes may hold escapes, and bytes that are no UTF-8. `Quoted.read?` gives it a meaning. -/
inductive Json where
  | null
  | bool (value : Bool)
  /-- A number, as written. -/
  | number (numeral : List UInt8)
  /-- What stands between the quotes of a text, as written. -/
  | text (token : List UInt8)
  | array (items : List Json)
  /-- Keys, as written between their quotes, and values. -/
  | object (members : List (List UInt8 × Json))

namespace Json

/-- The byte of a character, which is one of ASCII. -/
def byte (c : Char) : UInt8 :=
  c.toNat.toUInt8

def bytes (cs : List Char) : List UInt8 :=
  cs.map byte

def quote (token : List UInt8) : List UInt8 :=
  byte '"' :: token ++ [byte '"']

mutual

/-- The text of a document, without blanks. -/
def write : Json → List UInt8
  | .null => bytes ['n', 'u', 'l', 'l']
  | .bool true => bytes ['t', 'r', 'u', 'e']
  | .bool false => bytes ['f', 'a', 'l', 's', 'e']
  | .number numeral => numeral
  | .text token => quote token
  | .array items => byte '[' :: writeItems items ++ [byte ']']
  | .object members => byte '{' :: writeMembers members ++ [byte '}']

def writeItems : List Json → List UInt8
  | [] => []
  | [item] => write item
  | item :: next :: rest => write item ++ byte ',' :: writeItems (next :: rest)

def writeMembers : List (List UInt8 × Json) → List UInt8
  | [] => []
  | [(key, value)] => quote key ++ byte ':' :: write value
  | (key, value) :: next :: rest =>
    quote key ++ byte ':' :: write value ++ byte ',' :: writeMembers (next :: rest)

end

end Json

end SessionTickets
