import SessionTickets.Ticket.Assertion
import SessionTickets.Ticket.Claim

namespace SessionTickets

open Time

/-- An authenticated session as a ticket store keeps it. It has an id and names the way of authentication;
both hold by construction. It ends with the validity window of its assertion, whatever its own window says. -/
@[ext] structure ServiceTicket where
  id : String
  authenticationType : String
  assertion : Assertion
  claims : List ClaimEntry
  issued : Option Instant
  expires : Option Instant
  id_ne : id ≠ ""
  authenticationType_ne : authenticationType ≠ ""

instance : DecidableEq ServiceTicket := fun _ _ =>
  decidable_of_iff _ ServiceTicket.ext_iff.symm

namespace ServiceTicket

/-- The ticket with the given parts, or the first rule that they break. -/
def create (id authenticationType : String) (assertion : Assertion) (claims : List ClaimEntry)
    (issued expires : Option Instant) : Except TicketError ServiceTicket :=
  if hid : id = "" then .error .emptyTicketId
  else if htype : authenticationType = "" then .error .emptyAuthenticationType
  else .ok ⟨id, authenticationType, assertion, claims, issued, expires, hid, htype⟩

/-- The instant from which a cache must not serve the ticket. -/
def deadline (t : ServiceTicket) : Option Instant :=
  t.assertion.validUntil

/-- Whether the deadline has come. At the deadline itself it has. -/
def isExpiredAt (t : ServiceTicket) (now : Instant) : Bool :=
  t.deadline.any (· ≤ now)

/-- A ticket is created again from its parts. -/
theorem create_self (t : ServiceTicket) :
    create t.id t.authenticationType t.assertion t.claims t.issued t.expires = .ok t := by
  rw [create, dif_neg t.id_ne, dif_neg t.authenticationType_ne]

end ServiceTicket

end SessionTickets
