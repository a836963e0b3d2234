import SessionTickets.Portable.Record

namespace SessionTickets

open Time

/-- A type whose values are encoded as bytes. A value is written as the document of its record. A record that
was read is checked against the rules of the type. -/
class Portable (α : Type) where
  Record : Type
  format : Format Record
  toRecord : α → Record
  /-- The value of a record, or the first rule that the record breaks. -/
  ofRecord : Record → Except TicketError α

def stampOf (t : Option Instant) : Option Stamp :=
  t.map Stamp.utc

/-- The instant of a record's time, whatever the offset of its clock. -/
def instantOf (s : Option Stamp) : Option Instant :=
  s.map Stamp.instant

namespace Assertion

/-- The record of an assertion, with its times in Coordinated Universal Time. -/
def toRecord (a : Assertion) : AssertionRecord :=
  ⟨a.principalName, a.attributes, stampOf a.validFrom, stampOf a.validUntil⟩

/-- The assertion of a record, or the first rule that the record breaks. -/
def ofRecord (r : AssertionRecord) : Except TicketError Assertion :=
  create r.principalName r.attributes (instantOf r.validFrom) (instantOf r.validUntil)

instance : Portable Assertion := ⟨AssertionRecord, inferInstance, toRecord, ofRecord⟩

end Assertion

namespace ServiceTicket

def toRecord (t : ServiceTicket) : TicketRecord :=
  ⟨t.id, t.authenticationType, t.assertion.toRecord, t.claims, stampOf t.issued, stampOf t.expires⟩

/-- The ticket of a record. The assertion in it is looked at first. -/
def ofRecord (r : TicketRecord) : Except TicketError ServiceTicket := do
  let assertion ← Assertion.ofRecord r.assertion
  create r.id r.authenticationType assertion r.claims (instantOf r.issued) (instantOf r.expires)

instance : Portable ServiceTicket := ⟨TicketRecord, inferInstance, toRecord, ofRecord⟩

end ServiceTicket

namespace Identity

/-- The record of an identity, without the properties of its claims. -/
def toRecord (i : Identity) : IdentityRecord :=
  ⟨i.authenticationType, i.claims.map Claim.entry, i.nameClaimType, i.roleClaimType,
    i.assertion.map Assertion.toRecord⟩

/-- The identity of a record, whose assertion is the only part with rules. -/
def ofRecord (r : IdentityRecord) : Except TicketError Identity := do
  let assertion ← r.assertion.mapM Assertion.ofRecord
  return ⟨r.authenticationType, r.claims.map ClaimEntry.toClaim, r.nameClaimType, r.roleClaimType,
    assertion⟩

instance : Portable Identity := ⟨IdentityRecord, inferInstance, toRecord, ofRecord⟩

end Identity

namespace Properties

def toRecord (p : Properties) : PropertiesRecord :=
  ⟨p.items, stampOf p.issued, stampOf p.expires⟩

/-- The properties of a record, which has no rules to break. -/
def ofRecord (r : PropertiesRecord) : Properties :=
  ⟨r.items, instantOf r.issued, instantOf r.expires⟩

instance : Portable Properties := ⟨PropertiesRecord, inferInstance, toRecord, fun r => .ok (ofRecord r)⟩

end Properties

namespace SchemeSession

def toRecord (s : SchemeSession) : SchemeRecord :=
  ⟨s.scheme, s.principal.identities.map Identity.toRecord, s.properties.toRecord⟩

/-- The scheme session of a record. The scheme is looked at before the identities. -/
def ofRecord (r : SchemeRecord) : Except TicketError SchemeSession :=
  if r.scheme = "" then
    .error .emptyAuthenticationType
  else do
    let identities ← r.identities.mapM Identity.ofRecord
    return ⟨r.scheme, ⟨identities⟩, .ofRecord r.properties⟩

instance : Portable SchemeSession := ⟨SchemeRecord, inferInstance, toRecord, ofRecord⟩

end SchemeSession

namespace IdentitySession

def toRecord (s : IdentitySession) : SessionRecord :=
  ⟨s.identity.toRecord, s.properties.toRecord⟩

def ofRecord (r : SessionRecord) : Except TicketError IdentitySession := do
  let identity ← Identity.ofRecord r.identity
  return ⟨identity, .ofRecord r.properties⟩

instance : Portable IdentitySession := ⟨SessionRecord, inferInstance, toRecord, ofRecord⟩

end IdentitySession

/-- Why bytes and a value do not go together. Bytes that are no record, and records that break a rule, are
told apart. -/
inductive CodecError where
  /-- The value cannot be written. -/
  | unwritable (detail : String)
  /-- The bytes are not the document of a record. -/
  | unreadable (detail : String)
  /-- The record breaks a rule. -/
  | invalid (fault : TicketError)
deriving DecidableEq

def CodecError.message : CodecError → String
  | .unwritable detail => "serialization error: " ++ detail
  | .unreadable detail => "deserialization error: " ++ detail
  | .invalid fault => "decoded payload is invalid: " ++ fault.message

namespace Portable

variable {α : Type} [Portable α]

def toJson (a : α) : Json :=
  format.write (toRecord a)

def recordOfJson? (j : Json) : Option (Record α) :=
  format.read? j

/-- The bytes of a value. -/
def encode (a : α) : List UInt8 :=
  (toJson a).write

def record? (bs : List UInt8) : Option (Record α) :=
  (Json.ofBytes? bs).bind recordOfJson?

/-- The value in some bytes: they are read as a record first, and the record is checked against its rules
next. -/
def decode (bs : List UInt8) : Except CodecError α :=
  match record? bs with
  | none => .error (.unreadable "no document of the expected form")
  | some r =>
    match ofRecord r with
    | .error fault => .error (.invalid fault)
    | .ok a => .ok a

end Portable

end SessionTickets
