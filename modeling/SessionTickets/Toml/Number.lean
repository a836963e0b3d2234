import SessionTickets.Time.Calendar
import SessionTickets.Toml.Basic

namespace SessionTickets.Toml.Number

/-- Reads a sign: `true` for minus. -/
def sign : List Char → Bool × List Char
  | '-' :: rest => (true, rest)
  | '+' :: rest => (false, rest)
  | text => (false, text)

/-- Reads digits with single underscores between them. The first of them has been read. -/
def moreDigits (isDigit : Char → Bool) : List Char → List Char × List Char
  | [] => ([], [])
  | '_' :: c :: rest =>
    if isDigit c then
      let (digits, rest) := moreDigits isDigit rest
      (c :: digits, rest)
    else
      ([], '_' :: c :: rest)
  | c :: rest =>
    if isDigit c then
      let (digits, rest) := moreDigits isDigit rest
      (c :: digits, rest)
    else
      ([], c :: rest)

/-- Reads digits with single underscores between them. -/
def digits? (isDigit : Char → Bool) : List Char → Option (List Char × List Char)
  | [] => none
  | c :: rest =>
    if isDigit c then
      let (digits, rest) := moreDigits isDigit rest
      some (c :: digits, rest)
    else
      none

/-- Reads the digits of a decimal integer: a zero alone, or digits that do not begin with one. -/
def whole? : List Char → Option (List Char × List Char)
  | '0' :: rest => some (['0'], rest)
  | text => digits? Char.isDigit text

/-- The value of a digit in any base up to sixteen. -/
def digitValue (c : Char) : Nat :=
  if c.isDigit then c.toNat - '0'.toNat
  else if 'a' ≤ c then c.toNat - 'a'.toNat + 10
  else c.toNat - 'A'.toNat + 10

def value (base : Nat) (digits : List Char) : Nat :=
  digits.foldl (fun n d => base * n + digitValue d) 0

def largest : Nat := Nat.pow 2 63 - 1

/-- A number with a sign, if it has 64 bits. -/
def signed? (negative : Bool) (n : Nat) : Option Item :=
  if negative then (if n ≤ largest + 1 then some (.integer (-n)) else none)
  else if n ≤ largest then some (.integer n)
  else none

/-- Reads an integer in a base that is a power of two, behind its mark. -/
def based? (base : Nat) (isDigit : Char → Bool) (text : List Char) : Option (Item × List Char) := do
  let (digits, rest) ← digits? isDigit text
  let item ← signed? false (value base digits)
  some (item, rest)

def isHexDigit (c : Char) : Bool :=
  c.isDigit || ('a' ≤ c && c ≤ 'f') || ('A' ≤ c && c ≤ 'F')

/-- Reads an integer, in decimal or in another base with its mark. -/
def integer? : List Char → Option (Item × List Char)
  | '0' :: 'x' :: rest => based? 16 isHexDigit rest
  | '0' :: 'o' :: rest => based? 8 (fun c => '0' ≤ c && c ≤ '7') rest
  | '0' :: 'b' :: rest => based? 2 (fun c => c = '0' || c = '1') rest
  | text => do
    let (negative, text) := sign text
    let (digits, rest) ← whole? text
    let item ← signed? negative (value 10 digits)
    some (item, rest)

/-- Reads a point and digits, if there is a point. -/
def fraction? : List Char → Option (List Char × List Char)
  | '.' :: rest => digits? Char.isDigit rest
  | text => some ([], text)

/-- Reads an exponent, if there is one. -/
def exponent? : List Char → Option (Int × List Char)
  | c :: rest =>
    if c = 'e' ∨ c = 'E' then do
      let (negative, rest) := sign rest
      let (digits, rest) ← digits? Char.isDigit rest
      let n := value 10 digits
      some (if negative then -(n : Int) else n, rest)
    else
      some (0, c :: rest)
  | [] => some (0, [])

/-- The least number that rounds to infinity in double precision: the midpoint between the largest
finite number and the next power of two. -/
def infinite : Nat := Nat.pow 2 1024 - Nat.pow 2 970

/-- Whether a number with the given digits and decimal exponent rounds to infinity. A number below
`10 ^ 300` does not, and one from `10 ^ 400` on does, so that no large power is formed. -/
def overflows (digits : List Char) (exponent : Int) : Bool :=
  let digits := digits.dropWhile (· = '0')
  let magnitude := exponent + digits.length
  if digits.isEmpty || magnitude ≤ 300 then false
  else if 400 < magnitude then true
  else infinite * Nat.pow 10 (-exponent).toNat ≤ value 10 digits * Nat.pow 10 exponent.toNat

/-- Reads a float in digits: a fraction, an exponent or both follow the whole part. Only the form of a float
matters here, and that it does not round to infinity, which only a negative one may. -/
def decimal? (text : List Char) : Option (List Char) := do
  let (negative, text) := sign text
  let (digits, afterWhole) ← whole? text
  let (fraction, afterFraction) ← fraction? afterWhole
  let (exponent, rest) ← exponent? afterFraction
  if rest.length = afterWhole.length then none
  else if !negative && overflows (digits ++ fraction) (exponent - fraction.length) then none
  else some rest

/-- Reads infinity or the float that is not a number. -/
def special? (text : List Char) : Option (List Char) :=
  match (sign text).2 with
  | 'i' :: 'n' :: 'f' :: rest => some rest
  | 'n' :: 'a' :: 'n' :: rest => some rest
  | _ => none

/-- Reads two digits, for a number between two bounds. -/
def pair? (least most : Nat) : List Char → Option (Nat × List Char)
  | a :: b :: rest =>
    let n := value 10 [a, b]
    if a.isDigit ∧ b.isDigit ∧ least ≤ n ∧ n ≤ most then some (n, rest) else none
  | _ => none

def mark? (c : Char) : List Char → Option (List Char)
  | d :: rest => if d = c then some rest else none
  | [] => none

/-- Reads a date that the calendar has. -/
def date? : List Char → Option (List Char)
  | a :: b :: c :: d :: rest =>
    if [a, b, c, d].all Char.isDigit then do
      let rest ← mark? '-' rest
      let (month, rest) ← pair? 1 12 rest
      let rest ← mark? '-' rest
      let (day, rest) ← pair? 1 31 rest
      if day ≤ Time.daysInMonth (value 10 [a, b, c, d]) month then some rest else none
    else
      none
  | _ => none

def time? (text : List Char) : Option (List Char) := do
  let (_, text) ← pair? 0 23 text
  let text ← mark? ':' text
  let (_, text) ← pair? 0 59 text
  let text ← mark? ':' text
  let (_, text) ← pair? 0 60 text
  match text with
  | '.' :: c :: rest => some (if c.isDigit then rest.dropWhile Char.isDigit else '.' :: c :: rest)
  | text => some text

/-- Reads an offset from Coordinated Universal Time, if there is one. -/
def offset : List Char → List Char
  | 'Z' :: rest => rest
  | 'z' :: rest => rest
  | c :: rest =>
    let clock := do
      let (_, rest) ← pair? 0 23 rest
      let rest ← mark? ':' rest
      let (_, rest) ← pair? 0 59 rest
      some rest
    if c = '+' ∨ c = '-' then clock.getD (c :: rest) else c :: rest
  | [] => []

/-- Reads a date, a date and a time of day with or without an offset, or a time of day. -/
def moment? (text : List Char) : Option (List Char) :=
  match date? text with
  | some rest =>
    match rest with
    | c :: clock =>
      if c = 'T' ∨ c = 't' ∨ c = ' ' then some (((time? clock).map offset).getD rest)
      else some rest
    | [] => some []
  | none => time? text

/-- The part of a text before what is left of it. -/
def taken (text rest : List Char) : List Char :=
  text.take (text.length - rest.length)

/-- Reads a moment, a float or an integer. -/
def read? (text : List Char) : Option (Item × List Char) :=
  match moment? text with
  | some rest => some (.moment (taken text rest), rest)
  | none =>
    match (decimal? text).or (special? text) with
    | some rest => some (.float (taken text rest), rest)
    | none => integer? text

end SessionTickets.Toml.Number
