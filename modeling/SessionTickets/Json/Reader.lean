import SessionTickets.Json.Basic

namespace SessionTickets.Json

/-- Space, tab, line feed and carriage return. -/
def isBlank (b : UInt8) : Bool :=
  b = byte ' ' || b = 0x09 || b = 0x0A || b = 0x0D

def isDigit (b : UInt8) : Bool :=
  byte '0' ≤ b && b ≤ byte '9'

def isHexDigit (b : UInt8) : Bool :=
  isDigit b || (byte 'a' ≤ b && b ≤ byte 'f') || (byte 'A' ≤ b && b ≤ byte 'F')

/-- The part of a number that has been read last. -/
inductive Numeral where
  | minus
  | zero
  | whole
  | point
  | fraction
  | exponent
  | exponentSign
  | exponentDigits
deriving DecidableEq

namespace Numeral

/-- The start of a number. -/
def first? (b : UInt8) : Option Numeral :=
  if b = byte '-' then some .minus
  else if b = byte '0' then some .zero
  else if isDigit b then some .whole
  else none

def isExponent (b : UInt8) : Bool :=
  b = byte 'e' || b = byte 'E'

/-- The part of a number that one more byte belongs to, if it may follow. -/
def next? (b : UInt8) : Numeral → Option Numeral
  | .minus => if b = byte '0' then some .zero else if isDigit b then some .whole else none
  | .zero =>
    if b = byte '.' then some .point else if isExponent b then some .exponent else none
  | .whole =>
    if isDigit b then some .whole
    else if b = byte '.' then some .point
    else if isExponent b then some .exponent
    else none
  | .point => if isDigit b then some .fraction else none
  | .fraction =>
    if isDigit b then some .fraction else if isExponent b then some .exponent else none
  | .exponent =>
    if isDigit b then some .exponentDigits
    else if b = byte '+' ∨ b = byte '-' then some .exponentSign
    else none
  | .exponentSign | .exponentDigits => if isDigit b then some .exponentDigits else none

/-- Whether a number may end here. -/
def complete : Numeral → Bool
  | .zero | .whole | .fraction | .exponentDigits => true
  | .minus | .point | .exponent | .exponentSign => false

end Numeral

/-- What a quoted text expects: anything, the character after a backslash, or one more hexadecimal
digit than the number given. -/
inductive Escape where
  | none
  | named
  | hex (more : Nat)
deriving DecidableEq

namespace Escape

/-- What a quoted text expects after one more byte, if that may follow. -/
def next? (b : UInt8) : Escape → Option Escape
  | .none =>
    if b = byte '\\' then some .named else if b < 0x20 then Option.none else some .none
  | .named =>
    if b = byte 'u' then some (.hex 3)
    else if (bytes ['"', '\\', '/', 'b', 'f', 'n', 'r', 't']).contains b then some .none
    else Option.none
  | .hex 0 => if isHexDigit b then some .none else Option.none
  | .hex (more + 1) => if isHexDigit b then some (.hex more) else Option.none

end Escape

/-- The members of an object that have been read, the last one first. -/
abbrev Members := List (List UInt8 × Json)

/-- An array or object that is open, with what it holds so far, the last one first. -/
inductive Frame where
  | array (before : List Json)
  | object (before : Members) (key : List UInt8)

/-- What comes next. Tokens that have begun are held backwards. -/
inductive Phase where
  /-- A value. -/
  | value
  /-- A value, or the end of an array. -/
  | firstItem
  /-- A key, or the end of an object. -/
  | firstKey
  /-- A key. -/
  | key (before : Members)
  /-- The rest of a key. -/
  | keyText (before : Members) (escape : Escape) (token : List UInt8)
  /-- The colon after a key. -/
  | colon (before : Members) (key : List UInt8)
  /-- The rest of a quoted text. -/
  | text (escape : Escape) (token : List UInt8)
  /-- The rest of a number, or what follows it. -/
  | number (numeral : Numeral) (token : List UInt8)
  /-- The rest of a word that names a value. -/
  | word (rest : List UInt8) (value : Json)
  /-- What follows a value. -/
  | after (value : Json)

/-- The state of a reader, which takes a document one byte at a time: the arrays and objects that are still
open, the innermost first, and what may come next. Nesting may have any depth. Quoted texts and numbers are
checked for their form only. -/
structure Reader where
  stack : List Frame
  phase : Phase

namespace Reader

def start : Reader := ⟨[], .value⟩

def openValue? (stack : List Frame) (b : UInt8) : Option Reader :=
  if isBlank b then some ⟨stack, .value⟩
  else if b = byte '"' then some ⟨stack, .text .none []⟩
  else if b = byte '[' then some ⟨.array [] :: stack, .firstItem⟩
  else if b = byte '{' then some ⟨stack, .firstKey⟩
  else if b = byte 'n' then some ⟨stack, .word (bytes ['u', 'l', 'l']) .null⟩
  else if b = byte 't' then some ⟨stack, .word (bytes ['r', 'u', 'e']) (.bool true)⟩
  else if b = byte 'f' then some ⟨stack, .word (bytes ['a', 'l', 's', 'e']) (.bool false)⟩
  else (Numeral.first? b).map fun n => ⟨stack, .number n [b]⟩

/-- A byte after a value, which ends there and takes its place in what is open. -/
def afterValue? (stack : List Frame) (value : Json) (b : UInt8) : Option Reader :=
  if isBlank b then some ⟨stack, .after value⟩
  else
    match stack with
    | [] => none
    | .array before :: rest =>
      if b = byte ',' then some ⟨.array (value :: before) :: rest, .value⟩
      else if b = byte ']' then some ⟨rest, .after (.array (value :: before).reverse)⟩
      else none
    | .object before key :: rest =>
      if b = byte ',' then some ⟨rest, .key ((key, value) :: before)⟩
      else if b = byte '}' then some ⟨rest, .after (.object ((key, value) :: before).reverse)⟩
      else none

def openKey? (stack : List Frame) (before : Members) (b : UInt8) : Option Reader :=
  if isBlank b then some ⟨stack, .key before⟩
  else if b = byte '"' then some ⟨stack, .keyText before .none []⟩
  else none

/-- The state after one more byte, if that may follow. -/
def step? (r : Reader) (b : UInt8) : Option Reader :=
  match r.phase with
  | .value => openValue? r.stack b
  | .firstItem =>
    if isBlank b then some r
    else if b = byte ']' then
      match r.stack with
      | .array _ :: rest => some ⟨rest, .after (.array [])⟩
      | _ => none
    else openValue? r.stack b
  | .firstKey =>
    if isBlank b then some r
    else if b = byte '}' then some ⟨r.stack, .after (.object [])⟩
    else openKey? r.stack [] b
  | .key before => openKey? r.stack before b
  | .keyText before escape token =>
    if escape = .none ∧ b = byte '"' then some ⟨r.stack, .colon before token.reverse⟩
    else (escape.next? b).map fun e => ⟨r.stack, .keyText before e (b :: token)⟩
  | .colon before key =>
    if isBlank b then some r
    else if b = byte ':' then some ⟨.object before key :: r.stack, .value⟩
    else none
  | .text escape token =>
    if escape = .none ∧ b = byte '"' then some ⟨r.stack, .after (.text token.reverse)⟩
    else (escape.next? b).map fun e => ⟨r.stack, .text e (b :: token)⟩
  | .number numeral token =>
    match numeral.next? b with
    | some n => some ⟨r.stack, .number n (b :: token)⟩
    | none =>
      if numeral.complete then afterValue? r.stack (.number token.reverse) b else none
  | .word [] _ => none
  | .word (c :: rest) value =>
    if b = c then
      some ⟨r.stack, if rest.isEmpty then .after value else .word rest value⟩
    else
      none
  | .after value => afterValue? r.stack value b

/-- The state after some bytes, if they can begin a document. -/
def run? (r : Reader) : List UInt8 → Option Reader
  | [] => some r
  | b :: rest =>
    match r.step? b with
    | some r => r.run? rest
    | none => none

/-- The document, if it may end here. -/
def result? (r : Reader) : Option Json :=
  match r.stack, r.phase with
  | [], .after value => some value
  | [], .number numeral token => if numeral.complete then some (.number token.reverse) else none
  | _, _ => none

end Reader

/-- The document in some bytes: with blanks around it and nothing else. -/
def ofBytes? (bs : List UInt8) : Option Json :=
  (Reader.start.run? bs).bind Reader.result?

end SessionTickets.Json
