import SessionTickets.SortedMap
import SessionTickets.Ticket.Error
import SessionTickets.Time.Stamp

namespace SessionTickets

open Time

/-- A window with both ends does not end before it starts. -/
def WindowOrdered (validFrom validUntil : Option Instant) : Prop :=
  ∀ start ∈ validFrom, ∀ stop ∈ validUntil, start ≤ stop

/-- The rule that a window breaks, if it does. -/
def windowFault? : Option Instant → Option Instant → Option TicketError
  | some start, some stop =>
    if start ≤ stop then none
    else some (.invalidWindow start.textWithDigits stop.textWithDigits)
  | _, _ => none

/-- Windows in order have no fault, and no others. -/
theorem windowFault?_eq_none_iff {validFrom validUntil : Option Instant} :
    windowFault? validFrom validUntil = none ↔ WindowOrdered validFrom validUntil := by
  cases validFrom <;> cases validUntil <;> simp [windowFault?, WindowOrdered]

/-- What an authentication server vouched for about a principal. It names its principal, and its validity
window does not end before it starts. Both hold by construction; `Assertion.create` says which rule fails
first. -/
@[ext] structure Assertion where
  principalName : String
  attributes : SortedMap (List String)
  validFrom : Option Instant
  validUntil : Option Instant
  principalName_ne : principalName ≠ ""
  ordered : WindowOrdered validFrom validUntil
deriving DecidableEq

namespace Assertion

/-- The assertion with the given parts, or the first rule that they break. -/
def create (principalName : String) (attributes : SortedMap (List String))
    (validFrom validUntil : Option Instant) : Except TicketError Assertion :=
  if hname : principalName = "" then
    .error .emptyPrincipalName
  else
    match hfault : windowFault? validFrom validUntil with
    | some fault => .error fault
    | none =>
      .ok ⟨principalName, attributes, validFrom, validUntil, hname,
        windowFault?_eq_none_iff.1 hfault⟩

/-- An assertion without attributes that is valid at all times. -/
def ofName (principalName : String) : Except TicketError Assertion :=
  create principalName .empty none none

def withAttributes (a : Assertion) (attributes : SortedMap (List String)) : Assertion :=
  { a with attributes }

/-- The assertion with another validity window, unless that window ends before it starts. -/
def withValidity (a : Assertion) (validFrom validUntil : Option Instant) :
    Except TicketError Assertion :=
  create a.principalName a.attributes validFrom validUntil

/-- The values of an attribute. One that is not there has none. -/
def attributeValues (a : Assertion) (name : String) : List String :=
  (a.attributes.find? name).getD []

def attribute? (a : Assertion) (name : String) : Option String :=
  (a.attributeValues name).head?

/-- Whether an instant lies in the validity window, which holds its start and not its end. -/
def isValidAt (a : Assertion) (now : Instant) : Bool :=
  a.validFrom.all (· ≤ now) && a.validUntil.all (now < ·)

/-- An assertion is created again from its parts. -/
theorem create_self (a : Assertion) :
    create a.principalName a.attributes a.validFrom a.validUntil = .ok a := by
  have hfault := windowFault?_eq_none_iff.2 a.ordered
  rw [create, dif_neg a.principalName_ne]
  split
  · next h => rw [hfault] at h; cases h
  · rfl

end Assertion

end SessionTickets
