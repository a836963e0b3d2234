import SessionTickets.Portable.Codec
import SessionTickets.Time.Span

namespace SessionTickets

open Time

/-- What is wrong with a stored entry. -/
inductive Corruption where
  /-- The bytes are not the document of a ticket. -/
  | unreadable (detail : String)
  /-- The ticket breaks a rule. -/
  | invalid (fault : TicketError)
  /-- Another value is held where the ticket with this key should be. -/
  | notATicket (key : String)
deriving DecidableEq

def Corruption.message : Corruption → String
  | .unreadable detail => detail
  | .invalid fault => fault.message
  | .notATicket key => "entry for '" ++ key ++ "' is not a service ticket"

/-- Why an operation fails. -/
inductive StoreError where
  | emptyKey
  | corrupt (cause : Corruption)
  | unwritable (detail : String)
  /-- The cache behind the store fails. -/
  | backend (detail : String)
  | timeout (limit : Span)
  /-- No assertion backs the session, and none may be made for it. -/
  | notBacked (name : String)
  | invalidTicket (fault : TicketError)
deriving DecidableEq

namespace StoreError

def message : StoreError → String
  | .emptyKey => "Invalid key: key must not be empty"
  | .corrupt cause => "Deserialization error: " ++ cause.message
  | .unwritable detail => "Serialization error: " ++ detail
  | .backend detail => "Backend error: " ++ detail
  | .timeout limit => "Operation timed out after " ++ limit.text
  | .notBacked name => "Session for '" ++ name ++ "' is not CAS-backed"
  | .invalidTicket fault => "Invalid ticket: " ++ fault.message

/-- A payload that cannot be decoded is corrupt. -/
def ofCodec : CodecError → StoreError
  | .unwritable detail => .unwritable detail
  | .unreadable detail => .corrupt (.unreadable detail)
  | .invalid fault => .corrupt (.invalid fault)

end StoreError

end SessionTickets
