import SessionTickets.Time.Instant
import SessionTickets.Text.Blank
import SessionTickets.Text.Decimal

namespace SessionTickets.Time

open Text

/-- The difference between a local clock and Coordinated Universal Time, in whole minutes; it is less than a day.
A clock whose difference has seconds of its own, as those of local mean times have, is left out: the text of a
time has no place for them, and every time that is written is in Coordinated Universal Time. -/
@[ext] structure Offset where
  minutes : Int
  bounded : -1440 < minutes ∧ minutes < 1440
deriving DecidableEq

namespace Offset

def utc : Offset := ⟨0, by decide⟩

/-- The offset with a sign, hours and minutes, if it is less than a day. -/
def ofClock? (negative : Bool) (hours minutes : Nat) : Option Offset :=
  let total : Int := 60 * hours + minutes
  if h : total < 1440 then
    some ⟨if negative then -total else total, by split <;> omega⟩
  else
    none

/-- `Z` for no difference, else sign, hours and minutes. -/
def text (o : Offset) : List Char :=
  if o.minutes = 0 then ['Z']
  else
    let size := o.minutes.natAbs
    (if o.minutes < 0 then '-' else '+') ::
      Decimal.fixed 2 (size / 60) ++ ':' :: Decimal.fixed 2 (size % 60)

end Offset

/-- An instant with the offset of the clock that shows it. The local date is one that the calendar's range
holds. -/
@[ext] structure Stamp where
  instant : Instant
  offset : Offset
  local_inRange : Instant.InRange (instant.seconds + 60 * offset.minutes)
deriving DecidableEq

namespace Stamp

/-- An instant as a clock in Coordinated Universal Time shows it. -/
def utc (t : Instant) : Stamp :=
  ⟨t, .utc, by simpa [Offset.utc] using t.inRange⟩

/-- The stamp that a clock with an offset shows as a local time, if both are in range. -/
def ofLocal? (seconds : Int) (nanos : Nat) (offset : Offset) : Option Stamp :=
  match Instant.ofParts? (seconds - 60 * offset.minutes) nanos with
  | some t =>
    if h : Instant.InRange (t.seconds + 60 * offset.minutes) then some ⟨t, offset, h⟩ else none
  | none => none

/-- Four digits for the years 0 to 9999, else a sign and at least four digits. -/
def yearText (year : Int) : List Char :=
  if 0 ≤ year ∧ year ≤ 9999 then Decimal.fixed 4 year.toNat
  else (if year < 0 then '-' else '+') :: Decimal.padded 4 year.natAbs

/-- A point and three, six or nine digits, as few as are exact; nothing for a whole second. -/
def fractionText (nanos : Nat) : List Char :=
  if nanos = 0 then []
  else if nanos % 1000000 = 0 then '.' :: Decimal.fixed 3 (nanos / 1000000)
  else if nanos % 1000 = 0 then '.' :: Decimal.fixed 6 (nanos / 1000)
  else '.' :: Decimal.fixed 9 nanos

/-- The date and the time of day that a clock shows. A leap second is second 60. -/
def faceText (seconds : Int) (nanos : Nat) : List Char :=
  let date := Date.ofDays (seconds / 86400)
  let time := (seconds % 86400).toNat
  yearText date.year ++ '-' :: Decimal.fixed 2 date.month ++ '-' :: Decimal.fixed 2 date.day ++
    'T' :: Decimal.fixed 2 (time / 3600) ++ ':' :: Decimal.fixed 2 (time / 60 % 60) ++
    ':' :: Decimal.fixed 2 (time % 60 + nanos / Instant.nanosPerSecond) ++
    fractionText (nanos % Instant.nanosPerSecond)

def text (s : Stamp) : List Char :=
  faceText (s.instant.seconds + 60 * s.offset.minutes) s.instant.nanos ++ s.offset.text

/-- Reads at least one digit and at most `most`. -/
def number? (most : Nat) (text : List Char) : Option (Nat × List Char) :=
  match (text.takeWhile Char.isDigit).take most with
  | [] => none
  | ds => some (Decimal.value ds, text.drop ds.length)

/-- Reads one or two digits after blanks, for a number no larger than `largest`. -/
def field? (largest : Nat) (text : List Char) : Option (Nat × List Char) := do
  let (n, rest) ← number? 2 (skipBlanks text)
  if n ≤ largest then some (n, rest) else none

def mark? (c : Char) (text : List Char) : Option (List Char) :=
  match skipBlanks text with
  | d :: rest => if d = c then some rest else none
  | [] => none

/-- Reads a year after blanks: a sign and any number of digits, or up to four digits. -/
def year? (text : List Char) : Option (Int × List Char) :=
  match skipBlanks text with
  | '-' :: rest => (number? rest.length rest).map fun (n, rest) => (-(n : Int), rest)
  | '+' :: rest => (number? rest.length rest).map fun (n, rest) => ((n : Int), rest)
  | text => (number? 4 text).map fun (n, rest) => ((n : Int), rest)

/-- Reads a year, a month and a day, parted by hyphens. -/
def date? (text : List Char) : Option (Date × List Char) := do
  let (year, text) ← year? text
  let text ← mark? '-' text
  let (month, text) ← field? 12 text
  let text ← mark? '-' text
  let (day, text) ← field? 31 text
  let date ← Date.ofNumbers? year month day
  some (date, text)

/-- Reads a point and digits as nanoseconds; digits after the ninth do not count. Nothing to read is
no fraction. -/
def fraction? : List Char → Option (Nat × List Char)
  | '.' :: text =>
    match text.takeWhile Char.isDigit with
    | [] => none
    | ds =>
      let ds := ds.take 9
      some (Decimal.value ds * Nat.pow 10 (9 - ds.length), text.dropWhile Char.isDigit)
  | text => some (0, text)

/-- Reads a time of day as a count of seconds and nanoseconds. Second 60 of any minute is taken for a
leap second. -/
def time? (text : List Char) : Option (Nat × Nat × List Char) := do
  let (hour, text) ← field? 23 text
  let text ← mark? ':' text
  let (minute, text) ← field? 59 text
  let text ← mark? ':' text
  let (second, text) ← field? 60 text
  let (nanos, text) ← fraction? text
  if second = 60 then
    some (3600 * hour + 60 * minute + 59, Instant.nanosPerSecond + nanos, text)
  else
    some (3600 * hour + 60 * minute + second, nanos, text)

/-- Reads exactly two digits, for a number no larger than `largest`. -/
def pair? (largest : Nat) : List Char → Option (Nat × List Char)
  | a :: b :: rest =>
    if a.isDigit ∧ b.isDigit ∧ Decimal.value [a, b] ≤ largest then
      some (Decimal.value [a, b], rest)
    else
      none
  | _ => none

/-- Reads two digits of hours and two of minutes, with colons and blanks between them. -/
def clock? (negative : Bool) (text : List Char) : Option (Offset × List Char) := do
  let (hours, text) ← pair? 23 text
  let (minutes, text) ← pair? 59 (text.dropWhile fun c => c = ':' || isBlank c)
  let offset ← Offset.ofClock? negative hours minutes
  some (offset, text)

/-- Reads `Z` or `UTC` in either case, or a sign and a clock; the sign may be a minus sign proper. -/
def offset? : List Char → Option (Offset × List Char)
  | u :: t :: c :: rest =>
    if u.toUpper = 'U' ∧ t.toUpper = 'T' ∧ c.toUpper = 'C' then some (.utc, rest)
    else sign? (u :: t :: c :: rest)
  | text => sign? text
where
  /-- Reads an offset that is not `UTC`. -/
  sign? : List Char → Option (Offset × List Char)
    | '+' :: rest => clock? false rest
    | '-' :: rest => clock? true rest
    | '\u2212' :: rest => clock? true rest
    | 'Z' :: rest => some (.utc, rest)
    | 'z' :: rest => some (.utc, rest)
    | _ => none

/-- Reads a stamp and what follows it. Date and time of day are parted by a `T` or a space. More is read than
is written: blanks around the numbers, fields without leading zeros, any number of fraction digits, and
several spellings of the offset. -/
def read? (text : List Char) : Option (Stamp × List Char) := do
  let (date, text) ← date? text
  let text ← match text with
    | 'T' :: rest | 't' :: rest | ' ' :: rest => some rest
    | _ => none
  let (seconds, nanos, text) ← time? text
  let (offset, text) ← offset? (skipBlanks text)
  let stamp ← ofLocal? (date.toDays * 86400 + seconds) nanos offset
  some (stamp, text)

/-- The stamp that a whole text names; blanks may follow it. -/
def ofText? (text : List Char) : Option Stamp :=
  match read? text with
  | some (stamp, rest) => if rest.all isBlank then some stamp else none
  | none => none

end Stamp

namespace Instant

/-- The text of an instant, with `Z` for its offset. -/
def text (t : Instant) : String :=
  String.ofList (Stamp.utc t).text

def textWithDigits (t : Instant) : String :=
  String.ofList (Stamp.faceText t.seconds t.nanos ++ ['+', '0', '0', ':', '0', '0'])

end Instant

end SessionTickets.Time
