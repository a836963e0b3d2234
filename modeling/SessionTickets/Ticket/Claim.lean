import SessionTickets.SortedMap

namespace SessionTickets

/-- A typed statement about a principal as a host holds it, with properties of its own. -/
@[ext] structure Claim where
  type : String
  value : String
  valueType : String
  issuer : String
  firstIssuer : String
  properties : SortedMap String
deriving DecidableEq

/-- The portable part of a claim: what outlives the host. -/
@[ext] structure ClaimEntry where
  type : String
  value : String
  valueType : String
  issuer : String
  firstIssuer : String
deriving DecidableEq

namespace Claim

/-- The type of values that are texts. -/
def stringType : String := "http://www.w3.org/2001/XMLSchema#string"

/-- The issuer of claims that name none. -/
def localIssuer : String := "LOCAL AUTHORITY"

def nameType : String := "http://schemas.xmlsoap.org/ws/2005/05/identity/claims/name"

def roleType : String := "http://schemas.microsoft.com/ws/2008/06/identity/claims/role"

/-- A claim of text by the local issuer. -/
def ofValue (type value : String) : Claim :=
  ⟨type, value, stringType, localIssuer, localIssuer, .empty⟩

/-- The claim by another issuer, who then counts as its first issuer too. -/
def withIssuer (c : Claim) (issuer : String) : Claim :=
  { c with issuer, firstIssuer := issuer }

def entry (c : Claim) : ClaimEntry :=
  ⟨c.type, c.value, c.valueType, c.issuer, c.firstIssuer⟩

def bare (c : Claim) : Claim :=
  { c with properties := .empty }

end Claim

namespace ClaimEntry

/-- The claim with this portable part and no properties. -/
def toClaim (e : ClaimEntry) : Claim :=
  ⟨e.type, e.value, e.valueType, e.issuer, e.firstIssuer, .empty⟩

end ClaimEntry

/-- What is left of a claim once only its portable part was kept. -/
theorem Claim.toClaim_entry (c : Claim) : c.entry.toClaim = c.bare := rfl

end SessionTickets
