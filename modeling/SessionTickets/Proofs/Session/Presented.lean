import SessionTickets.Session.Store

namespace SessionTickets

/-- What a session of either shape says of its user: how the user was authenticated, as which identities,
and what the host has attached to the session. -/
structure Presented where
  authenticationType? : Option String
  identities : List Identity
  properties : Properties

/-- A scheme session names its scheme and has a principal with any number of identities. -/
def SchemeSession.presented (s : SchemeSession) : Presented :=
  ⟨some s.scheme, s.principal.identities, s.properties⟩

/-- An identity session has one identity, which says how it was authenticated. -/
def IdentitySession.presented (s : IdentitySession) : Presented :=
  ⟨s.identity.authenticationType, [s.identity], s.properties⟩

/-- The name that identities without assertions claim: the value of the first claim of the first identity
that has the type by which this identity is named. -/
def claimedName? : List Identity → Option String
  | [] => none
  | first :: _ => ((first.claims.filter (·.type = first.nameClaimType)).map (·.value)).head?

/-- The key of a session: the id of its ticket if it has one that is not empty, or else a fresh one. -/
def Properties.keyOr (fresh : String) (p : Properties) : String :=
  (p.items.find? "ServiceTicket").elim fresh fun id => if id = "" then fresh else id

/-- The accessors of a session tell what it says. The name counts only where there is no assertion. -/
structure Presents {η : Type} [HostSession η] (session : η) (p : Presented) : Prop where
  authenticationType : HostSession.authenticationType? session = p.authenticationType?
  assertion : HostSession.assertion? session = (p.identities.filterMap (·.assertion)).head?
  name : (∀ i ∈ p.identities, i.assertion = none) →
    HostSession.principalName? session = claimedName? p.identities
  properties : HostSession.properties session = p.properties

private theorem name?_eq_claimedName? {i : Identity} (h : i.assertion = none) (others : List Identity) :
    i.name? = claimedName? (i :: others) := by
  rw [Identity.name?, h, claimedName?, List.head?_map, List.head?_filter]

/-- The name of a principal whose identities have no assertions is that of the first identity. -/
theorem SchemeSession.presents (s : SchemeSession) : Presents s s.presented := by
  refine ⟨rfl, List.head?_filterMap.symm, fun hnone => ?_, rfl⟩
  change ∀ i ∈ s.principal.identities, i.assertion = none at hnone
  change s.principal.primary?.bind Identity.name? = claimedName? s.principal.identities
  have hfound : s.principal.identities.find? (·.assertion.isSome) = none := by
    rw [List.find?_eq_none]
    intro i hi
    rw [hnone i hi]
    exact Bool.false_ne_true
  rw [Principal.primary?, hfound, Option.none_or]
  cases hidentities : s.principal.identities with
  | nil => rfl
  | cons first others =>
    rw [hidentities, List.forall_mem_cons] at hnone
    exact name?_eq_claimedName? hnone.1 others

/-- The one identity of a session has its name, its assertion and its way of authentication. -/
theorem IdentitySession.presents (s : IdentitySession) : Presents s s.presented := by
  refine ⟨rfl, ?_, fun hnone => name?_eq_claimedName? (hnone _ (.head _)) [], rfl⟩
  change s.identity.assertion = _
  cases hassertion : s.identity.assertion <;> simp [IdentitySession.presented, hassertion]

namespace Presents

variable {η : Type} [HostSession η] {session : η} {p : Presented}

/-- A session has no assertion if none of its identities has one. -/
theorem assertion?_eq_none_iff (h : Presents session p) :
    HostSession.assertion? session = none ↔ ∀ i ∈ p.identities, i.assertion = none := by
  rw [h.assertion, List.head?_eq_none_iff, List.filterMap_eq_nil_iff]

/-- A session is kept under the key that its properties name, or else under a fresh one. -/
theorem keyOf_eq (h : Presents session p) (fresh : String) :
    SessionStore.keyOf fresh session = p.properties.keyOr fresh := by
  rw [SessionStore.keyOf, h.properties, Properties.ticketId?, Properties.keyOr, Properties.ticketKey]
  cases p.properties.items.find? "ServiceTicket" with
  | none => rfl
  | some id => by_cases hid : id = "" <;> simp [hid, Option.filter]

end Presents

end SessionTickets
