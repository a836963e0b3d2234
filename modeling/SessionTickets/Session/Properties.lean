import SessionTickets.SortedMap
import SessionTickets.Time.Instant

namespace SessionTickets

open Time

/-- The items that a host attaches to a session, and the session's own window. -/
structure Properties where
  items : SortedMap String
  issued : Option Instant
  expires : Option Instant
deriving DecidableEq

namespace Properties

/-- No items and no window. -/
def empty : Properties := ⟨.empty, none, none⟩

/-- The key of the item that holds the id of the session's ticket. -/
def ticketKey : String := "ServiceTicket"

def withWindow (p : Properties) (issued expires : Option Instant) : Properties :=
  { p with issued, expires }

def withItem (p : Properties) (key value : String) : Properties :=
  { p with items := p.items.insert key value }

/-- The id of the session's ticket; an empty one does not count. -/
def ticketId? (p : Properties) : Option String :=
  (p.items.find? ticketKey).filter (· ≠ "")

/-- The properties with another id for the session's ticket. -/
def withTicketId (p : Properties) (id : String) : Properties :=
  p.withItem ticketKey id

end Properties

end SessionTickets
