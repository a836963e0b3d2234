namespace SessionTickets

/-- The rule that a ticket or an assertion breaks. -/
inductive TicketError where
  | emptyTicketId
  | emptyAuthenticationType
  | emptyPrincipalName
  /-- A validity window that starts after it ends, with the texts of both instants. -/
  | invalidWindow (validFrom validUntil : String)
deriving DecidableEq

def TicketError.message : TicketError → String
  | .emptyTicketId => "service ticket id must not be empty"
  | .emptyAuthenticationType => "authentication type must not be empty"
  | .emptyPrincipalName => "assertion principal name must not be empty"
  | .invalidWindow validFrom validUntil =>
    "invalid validity window: valid_from " ++ validFrom ++ " is after valid_until " ++ validUntil

end SessionTickets
