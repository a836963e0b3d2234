import SessionTickets.Text.Decimal

namespace SessionTickets.Time

open Text

/-- A length of time. -/
@[ext] structure Span where
  nanos : Nat
deriving DecidableEq

namespace Span

def ofMillis (ms : Nat) : Span := ⟨1000000 * ms⟩

def ofSeconds (s : Nat) : Span := ⟨1000000000 * s⟩

instance : LT Span := ⟨fun a b => a.nanos < b.nanos⟩

instance (a b : Span) : Decidable (a < b) :=
  inferInstanceAs (Decidable (a.nanos < b.nanos))

/-- A point and the given digits without the zeros at their end; nothing if no digit is left. -/
def pointText (ds : List Char) : List Char :=
  match (ds.reverse.dropWhile (· = '0')).reverse with
  | [] => []
  | ds => '.' :: ds

/-- A number of nanoseconds in the unit of `10 ^ places` of them, exact and without zeros at its
end. -/
def inUnit (places nanos : Nat) : List Char :=
  Decimal.digits (nanos / Nat.pow 10 places) ++ pointText (Decimal.fixed places (nanos % Nat.pow 10 places))

/-- The text of a span in the largest of seconds, milliseconds, microseconds and nanoseconds that does not
exceed it. -/
def text (s : Span) : String :=
  String.ofList <|
    if Nat.pow 10 9 ≤ s.nanos then inUnit 9 s.nanos ++ ['s']
    else if Nat.pow 10 6 ≤ s.nanos then inUnit 6 s.nanos ++ ['m', 's']
    else if Nat.pow 10 3 ≤ s.nanos then inUnit 3 s.nanos ++ ['µ', 's']
    else inUnit 0 s.nanos ++ ['n', 's']

end Span

end SessionTickets.Time
