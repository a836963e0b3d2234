import SessionTickets.Json.Fields
import SessionTickets.Json.Reader
import SessionTickets.Session.Shape

namespace SessionTickets

open Time Json

/-- How records are written as documents and read from them. A record is plain data: it holds its fields
without the rules that tie them, and its times as stamps, which may come from clocks with any offset. Reading
accepts every spelling of a record. -/
class Format (ρ : Type) where
  write : ρ → Json
  read? : Json → Option ρ

/-- The layout of an assertion. -/
@[ext] structure AssertionRecord where
  principalName : String
  attributes : SortedMap (List String)
  validFrom : Option Stamp
  validUntil : Option Stamp
deriving DecidableEq

/-- The layout of a service ticket. -/
@[ext] structure TicketRecord where
  id : String
  authenticationType : String
  assertion : AssertionRecord
  claims : List ClaimEntry
  issued : Option Stamp
  expires : Option Stamp
deriving DecidableEq

/-- The layout of an identity. -/
@[ext] structure IdentityRecord where
  authenticationType : Option String
  claims : List ClaimEntry
  nameClaimType : String
  roleClaimType : String
  assertion : Option AssertionRecord
deriving DecidableEq

/-- The layout of session properties. -/
@[ext] structure PropertiesRecord where
  items : SortedMap String
  issued : Option Stamp
  expires : Option Stamp
deriving DecidableEq

/-- The layout of a scheme session. -/
@[ext] structure SchemeRecord where
  scheme : String
  identities : List IdentityRecord
  properties : PropertiesRecord
deriving DecidableEq

/-- The layout of an identity session. -/
@[ext] structure SessionRecord where
  identity : IdentityRecord
  properties : PropertiesRecord
deriving DecidableEq

def Json.ofStamp (s : Stamp) : Json :=
  ofString (String.ofList s.text)

def Json.stamp? (j : Json) : Option Stamp :=
  j.string?.bind fun s => Stamp.ofText? s.toList

namespace ClaimEntry

/-- The names of the fields, in order. -/
def fieldNames : List String := ["type", "value", "value_type", "issuer", "original_issuer"]

instance : Format ClaimEntry where
  write c := ofFields [
    ("type", some (ofString c.type)),
    ("value", some (ofString c.value)),
    ("value_type", some (ofString c.valueType)),
    ("issuer", some (ofString c.issuer)),
    ("original_issuer", some (ofString c.firstIssuer))]
  read? j := do
    let [type, value, valueType, issuer, firstIssuer] ← j.fields? fieldNames | none
    let type ← required? string? type
    let value ← required? string? value
    let valueType ← required? string? valueType
    let issuer ← required? string? issuer
    let firstIssuer ← required? string? firstIssuer
    some { type, value, valueType, issuer, firstIssuer }

end ClaimEntry

namespace AssertionRecord

/-- The names of the fields, in order. -/
def fieldNames : List String := ["principal_name", "attributes", "valid_from", "valid_until"]

instance : Format AssertionRecord where
  write a := ofFields [
    ("principal_name", some (ofString a.principalName)),
    ("attributes", some (ofMap (ofList ofString) a.attributes)),
    ("valid_from", a.validFrom.map ofStamp),
    ("valid_until", a.validUntil.map ofStamp)]
  read? j := do
    let [principalName, attributes, validFrom, validUntil] ← j.fields? fieldNames | none
    let principalName ← required? string? principalName
    let attributes ← defaulted? .empty (map? (list? string?)) attributes
    let validFrom ← optional? stamp? validFrom
    let validUntil ← optional? stamp? validUntil
    some { principalName, attributes, validFrom, validUntil }

end AssertionRecord

namespace TicketRecord

/-- The names of the fields, in order. -/
def fieldNames : List String :=
  ["ticket_id", "authentication_type", "assertion", "claims", "issued_utc", "expires_utc"]

instance : Format TicketRecord where
  write t := ofFields [
    ("ticket_id", some (ofString t.id)),
    ("authentication_type", some (ofString t.authenticationType)),
    ("assertion", some (Format.write t.assertion)),
    ("claims", some (ofList Format.write t.claims)),
    ("issued_utc", t.issued.map ofStamp),
    ("expires_utc", t.expires.map ofStamp)]
  read? j := do
    let [id, authenticationType, assertion, claims, issued, expires] ← j.fields? fieldNames | none
    let id ← required? string? id
    let authenticationType ← required? string? authenticationType
    let assertion ← required? Format.read? assertion
    let claims ← defaulted? [] (list? Format.read?) claims
    let issued ← optional? stamp? issued
    let expires ← optional? stamp? expires
    some { id, authenticationType, assertion, claims, issued, expires }

end TicketRecord

namespace IdentityRecord

/-- The names of the fields, in order. -/
def fieldNames : List String :=
  ["authentication_type", "claims", "name_claim_type", "role_claim_type", "assertion"]

instance : Format IdentityRecord where
  write i := ofFields [
    ("authentication_type", i.authenticationType.map ofString),
    ("claims", some (ofList Format.write i.claims)),
    ("name_claim_type", some (ofString i.nameClaimType)),
    ("role_claim_type", some (ofString i.roleClaimType)),
    ("assertion", i.assertion.map Format.write)]
  read? j := do
    let [authenticationType, claims, nameClaimType, roleClaimType, assertion] ←
      j.fields? fieldNames | none
    let authenticationType ← optional? string? authenticationType
    let claims ← defaulted? [] (list? Format.read?) claims
    let nameClaimType ← required? string? nameClaimType
    let roleClaimType ← required? string? roleClaimType
    let assertion ← optional? Format.read? assertion
    some { authenticationType, claims, nameClaimType, roleClaimType, assertion }

end IdentityRecord

namespace PropertiesRecord

def empty : PropertiesRecord := ⟨.empty, none, none⟩

/-- The names of the fields, in order. -/
def fieldNames : List String := ["items", "issued_utc", "expires_utc"]

instance : Format PropertiesRecord where
  write p := ofFields [
    ("items", some (ofMap ofString p.items)),
    ("issued_utc", p.issued.map ofStamp),
    ("expires_utc", p.expires.map ofStamp)]
  read? j := do
    let [items, issued, expires] ← j.fields? fieldNames | none
    let items ← defaulted? .empty (map? string?) items
    let issued ← optional? stamp? issued
    let expires ← optional? stamp? expires
    some { items, issued, expires }

end PropertiesRecord

namespace SchemeRecord

/-- The names of the fields, in order. -/
def fieldNames : List String := ["authentication_scheme", "identities", "properties"]

instance : Format SchemeRecord where
  write s := ofFields [
    ("authentication_scheme", some (ofString s.scheme)),
    ("identities", some (ofList Format.write s.identities)),
    ("properties", some (Format.write s.properties))]
  read? j := do
    let [scheme, identities, properties] ← j.fields? fieldNames | none
    let scheme ← required? string? scheme
    let identities ← required? (list? Format.read?) identities
    let properties ← defaulted? .empty Format.read? properties
    some { scheme, identities, properties }

end SchemeRecord

namespace SessionRecord

/-- The names of the fields, in order. -/
def fieldNames : List String := ["identity", "properties"]

instance : Format SessionRecord where
  write s := ofFields [
    ("identity", some (Format.write s.identity)),
    ("properties", some (Format.write s.properties))]
  read? j := do
    let [identity, properties] ← j.fields? fieldNames | none
    let identity ← required? Format.read? identity
    let properties ← defaulted? .empty Format.read? properties
    some { identity, properties }

end SessionRecord

end SessionTickets
