import SessionTickets.Toml.Basic

namespace SessionTickets.Toml.Quoted

def hexValue? (c : Char) : Option Nat :=
  if c.isDigit then some (c.toNat - '0'.toNat)
  else if 'a' ≤ c ∧ c ≤ 'f' then some (c.toNat - 'a'.toNat + 10)
  else if 'A' ≤ c ∧ c ≤ 'F' then some (c.toNat - 'A'.toNat + 10)
  else none

/-- The character whose code point is written in hexadecimal digits; surrogates are none. -/
def scalar? (digits : List Char) : Option Char := do
  let values ← digits.mapM hexValue?
  let n := values.foldl (fun n d => 16 * n + d) 0
  if n.isValidChar then some (Char.ofNat n) else none

def named? : Char → Option Char
  | 'b' => some '\x08'
  | 't' => some '\t'
  | 'n' => some '\n'
  | 'f' => some '\x0c'
  | 'r' => some '\r'
  | '"' => some '"'
  | '\\' => some '\\'
  | _ => none

/-- A text that was read up to its end, and what follows it. -/
abbrev Reading := Option (List Char × List Char)

def Reading.cons (c : Char) (r : Reading) : Reading :=
  r.map fun (text, rest) => (c :: text, rest)

/-- Reads a basic text, which stands between double quotes and has escapes, up to its closing quote. -/
def basic? : List Char → Reading
  | [] => none
  | '"' :: rest => some ([], rest)
  | '\\' :: 'u' :: a :: b :: c :: d :: rest =>
    (scalar? [a, b, c, d]).bind fun x => (basic? rest).cons x
  | '\\' :: 'U' :: a :: b :: c :: d :: e :: f :: g :: h :: rest =>
    (scalar? [a, b, c, d, e, f, g, h]).bind fun x => (basic? rest).cons x
  | '\\' :: c :: rest => (named? c).bind fun x => (basic? rest).cons x
  | c :: rest => if isPlain c ∧ c ≠ '\\' then (basic? rest).cons c else none

/-- Reads a literal text, which stands between single quotes and has no escapes, up to its closing quote. -/
def literal? : List Char → Reading
  | [] => none
  | '\'' :: rest => some ([], rest)
  | c :: rest => if isPlain c then (literal? rest).cons c else none

/-- Whether nothing but blanks stands before the end of the line. -/
def lineEnds (text : List Char) : Bool :=
  (newline? (skipBlanks text)).isSome

/-- Reads the quotes that a long text ends with: up to two of them before the closing three. -/
def closing (quote : Char) (rest : List Char) : List Char × List Char :=
  let extra := min 2 (rest.takeWhile (· = quote)).length
  (List.replicate extra quote, rest.drop extra)

/-- Reads a long basic text up to its closing quotes. A backslash at the end of a line takes the line
end and all blanks and line ends after it out of the text; `folding` says that this goes on. -/
def longBasic? (folding : Bool) : List Char → Reading
  | [] => none
  | '"' :: '"' :: '"' :: rest => some (closing '"' rest)
  | '\\' :: 'u' :: a :: b :: c :: d :: rest =>
    (scalar? [a, b, c, d]).bind fun x => (longBasic? false rest).cons x
  | '\\' :: 'U' :: a :: b :: c :: d :: e :: f :: g :: h :: rest =>
    (scalar? [a, b, c, d, e, f, g, h]).bind fun x => (longBasic? false rest).cons x
  | '\\' :: c :: rest =>
    if lineEnds (c :: rest) then longBasic? true (c :: rest)
    else (named? c).bind fun x => (longBasic? false rest).cons x
  | '\r' :: '\n' :: rest =>
    if folding then longBasic? true rest else (longBasic? false rest).cons '\n'
  | c :: rest =>
    if folding ∧ (isBlank c ∨ c = '\n') then longBasic? true rest
    else if c = '\n' ∨ isPlain c ∧ c ≠ '\\' then (longBasic? false rest).cons c
    else none

/-- Reads a long literal text up to its closing quotes. -/
def longLiteral? : List Char → Reading
  | [] => none
  | '\'' :: '\'' :: '\'' :: rest => some (closing '\'' rest)
  | '\r' :: '\n' :: rest => (longLiteral? rest).cons '\n'
  | c :: rest => if c = '\n' ∨ isPlain c then (longLiteral? rest).cons c else none

/-- What is left of a text once a line end at its start is gone. -/
def skipNewline (text : List Char) : List Char :=
  (newline? text).getD text

/-- Reads a text in one of its four forms. A long text stands between three quotes, may hold line ends, and
does not begin with one. -/
def read? : List Char → Reading
  | '"' :: '"' :: '"' :: rest => longBasic? false (skipNewline rest)
  | '"' :: rest => basic? rest
  | '\'' :: '\'' :: '\'' :: rest => longLiteral? (skipNewline rest)
  | '\'' :: rest => literal? rest
  | _ => none

/-- The most times in a row that a character stands in a text. -/
def longestRun (c : Char) (text : List Char) : Nat :=
  (text.foldl (fun (longest, run) d =>
    let run := if d = c then run + 1 else 0
    (max longest run, run)) (0, 0)).1

/-- Whether a character cannot stand in any text without an escape. -/
def needsEscape (c : Char) : Bool :=
  c ≠ '\n' && !isPlain c

/-- The forms of a quoted text. -/
inductive Form where
  | basic
  | literal
  | longBasic
  | longLiteral
deriving DecidableEq

/-- The form of a text. Double quotes come first and long forms last; a form is passed over if the
text would need escapes in it, or could not stand in it at all. -/
def formOf (text : List Char) : Form :=
  let escapes := text.any needsEscape
  let backslash := text.contains '\\'
  let lines := text.contains '\n'
  if !escapes && !backslash && longestRun '"' text = 0 && !lines then .basic
  else if !escapes && longestRun '\'' text = 0 && !lines then .literal
  else if !escapes && !backslash && longestRun '"' text ≤ 2 then .longBasic
  else if !escapes && longestRun '\'' text ≤ 2 then .longLiteral
  else if lines then .longBasic
  else .basic

def hexDigit (n : Nat) : Char :=
  if n < 10 then Char.ofNat (48 + n) else Char.ofNat (55 + n)

/-- The escape of a character that cannot stand in a basic text as it is. -/
def escaped (c : Char) : List Char :=
  match c with
  | '\x08' => ['\\', 'b']
  | '\t' => ['\\', 't']
  | '\n' => ['\\', 'n']
  | '\x0c' => ['\\', 'f']
  | '\r' => ['\\', 'r']
  | '"' => ['\\', '"']
  | '\\' => ['\\', '\\']
  | c => ['\\', 'u', '0', '0', hexDigit (c.toNat / 16), hexDigit (c.toNat % 16)]

/-- The inside of a basic text. No more than `free` double quotes in a row stand as they are, and
`run` of them stand before the text; line ends are kept if `long`. -/
def writeBasic (long : Bool) (free : Nat) : Nat → List Char → List Char
  | _, [] => []
  | run, '"' :: rest =>
    if run < free then '"' :: writeBasic long free (run + 1) rest
    else escaped '"' ++ writeBasic long free 0 rest
  | _, '\n' :: rest =>
    (if long then ['\n'] else escaped '\n') ++ writeBasic long free 0 rest
  | _, c :: rest =>
    (if needsEscape c ∨ c = '\t' ∨ c = '\\' then escaped c else [c]) ++ writeBasic long free 0 rest

/-- A text in a form. A long text that holds a line end begins on a line of its own. -/
def writeAs (form : Form) (text : List Char) : List Char :=
  let start := if text.contains '\n' then ['\n'] else []
  match form with
  | .basic => '"' :: writeBasic false 0 0 text ++ ['"']
  | .literal => '\'' :: text ++ ['\'']
  | .longBasic =>
    ['"', '"', '"'] ++ start ++ writeBasic true 2 0 text ++ ['"', '"', '"']
  | .longLiteral => ['\'', '\'', '\''] ++ start ++ text ++ ['\'', '\'', '\'']

/-- A text in the form that needs the fewest marks. -/
def write (text : List Char) : List Char :=
  writeAs (formOf text) text

end SessionTickets.Toml.Quoted
