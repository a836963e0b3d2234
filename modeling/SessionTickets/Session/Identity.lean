import SessionTickets.Ticket.ServiceTicket

namespace SessionTickets

open Time

/-- An identity: claims, and the assertion that they come from, if there is one. -/
@[ext] structure Identity where
  authenticationType : Option String
  claims : List Claim
  /-- The type of the claims that name the identity. -/
  nameClaimType : String
  /-- The type of the claims that give it roles. -/
  roleClaimType : String
  assertion : Option Assertion
deriving DecidableEq

namespace Identity

/-- The identity that an assertion vouches for, with the standard claim types. -/
def ofAssertion (assertion : Assertion) (authenticationType : String) (claims : List Claim) :
    Identity :=
  ⟨some authenticationType, claims, Claim.nameType, Claim.roleType, some assertion⟩

/-- Whether the identity names the way of its authentication. -/
def isAuthenticated (i : Identity) : Bool :=
  i.authenticationType.any (· ≠ "")

/-- The name in the assertion, or else in the first claim that names the identity. -/
def name? (i : Identity) : Option String :=
  match i.assertion with
  | some a => some a.principalName
  | none => (i.claims.find? (·.type = i.nameClaimType)).map (·.value)

/-- The roles, in the order of their claims. -/
def roles (i : Identity) : List String :=
  (i.claims.filter (·.type = i.roleClaimType)).map (·.value)

end Identity

/-- The identities that one user presents. -/
@[ext] structure Principal where
  identities : List Identity
deriving DecidableEq

namespace Principal

/-- The first identity that carries an assertion, or else the first of all. -/
def primary? (p : Principal) : Option Identity :=
  (p.identities.find? (·.assertion.isSome)).or p.identities.head?

/-- The name of the primary identity. -/
def name? (p : Principal) : Option String :=
  p.primary?.bind Identity.name?

def assertion? (p : Principal) : Option Assertion :=
  p.identities.findSome? (·.assertion)

/-- The claims of all identities, in order. -/
def claims (p : Principal) : List Claim :=
  p.identities.flatMap (·.claims)

end Principal

end SessionTickets
