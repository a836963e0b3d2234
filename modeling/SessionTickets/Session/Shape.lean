import SessionTickets.Session.Identity
import SessionTickets.Session.Properties

namespace SessionTickets

/-- A session that names its scheme, apart from a principal with any number of identities. -/
@[ext] structure SchemeSession where
  scheme : String
  principal : Principal
  properties : Properties
deriving DecidableEq

/-- A session of one identity, whose authentication type is the scheme. -/
@[ext] structure IdentitySession where
  identity : Identity
  properties : Properties
deriving DecidableEq

/-- A session that a ticket can stand for: how it is turned into a ticket and restored from one. -/
class HostSession (σ : Type) where
  /-- The way of authentication. -/
  authenticationType? : σ → Option String
  principalName? : σ → Option String
  assertion? : σ → Option Assertion
  /-- The portable parts of all claims, in order. -/
  claimEntries : σ → List ClaimEntry
  properties : σ → Properties
  /-- The session that a ticket found under a key stands for. -/
  ofTicket : String → ServiceTicket → σ

/-- The properties of a session restored from a ticket: the window of its assertion, and the key. -/
def restoredProperties (key : String) (assertion : Assertion) : Properties :=
  (Properties.empty.withWindow assertion.validFrom assertion.validUntil).withTicketId key

def restoredIdentity (ticket : ServiceTicket) : Identity :=
  .ofAssertion ticket.assertion ticket.authenticationType (ticket.claims.map ClaimEntry.toClaim)

instance : HostSession SchemeSession where
  authenticationType? s := some s.scheme
  principalName? s := s.principal.name?
  assertion? s := s.principal.assertion?
  claimEntries s := s.principal.claims.map Claim.entry
  properties s := s.properties
  ofTicket key ticket :=
    ⟨ticket.authenticationType, ⟨[restoredIdentity ticket]⟩,
      restoredProperties key ticket.assertion⟩

instance : HostSession IdentitySession where
  authenticationType? s := s.identity.authenticationType
  principalName? s := s.identity.name?
  assertion? s := s.identity.assertion
  claimEntries s := s.identity.claims.map Claim.entry
  properties s := s.properties
  ofTicket key ticket := ⟨restoredIdentity ticket, restoredProperties key ticket.assertion⟩

end SessionTickets
