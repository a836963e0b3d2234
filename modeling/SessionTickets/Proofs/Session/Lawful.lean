import SessionTickets.Proofs.Session.Storage

namespace SessionTickets

open Time

/-- The ticket that is made of a session which was restored from a ticket. It differs from that ticket in its
id and its own window at most, and neither has a part in what is restored. -/
def ServiceTicket.putBack (t : ServiceTicket) (key : String) (h : key ≠ "") : ServiceTicket :=
  { t with id := key, issued := t.assertion.validFrom, expires := t.assertion.validUntil, id_ne := h }

/-- A session that is put back has the assertion that it was restored with. -/
@[simp] theorem ServiceTicket.assertion_putBack (t : ServiceTicket) (key : String) (h : key ≠ "") :
    (t.putBack key h).assertion = t.assertion := rfl

/-- Two tickets say the same of a session. -/
structure ServiceTicket.SameSession (t u : ServiceTicket) : Prop where
  authenticationType : u.authenticationType = t.authenticationType
  assertion : u.assertion = t.assertion
  claims : u.claims = t.claims

/-- A shape of session that keeps what a ticket says of it. -/
class LawfulSession (η : Type) [HostSession η] : Prop where
  authenticationType?_ofTicket (key : String) (t : ServiceTicket) :
    HostSession.authenticationType? (HostSession.ofTicket key t : η) = some t.authenticationType
  assertion?_ofTicket (key : String) (t : ServiceTicket) :
    HostSession.assertion? (HostSession.ofTicket key t : η) = some t.assertion
  claimEntries_ofTicket (key : String) (t : ServiceTicket) :
    HostSession.claimEntries (HostSession.ofTicket key t : η) = t.claims
  properties_ofTicket (key : String) (t : ServiceTicket) :
    HostSession.properties (HostSession.ofTicket key t : η) = restoredProperties key t.assertion
  ofTicket_putBack (key : String) (h : key ≠ "") (t : ServiceTicket) :
    (HostSession.ofTicket key (t.putBack key h) : η) = HostSession.ofTicket key t

private theorem restoredIdentity_claims (t : ServiceTicket) :
    (restoredIdentity t).claims.map Claim.entry = t.claims := by
  rw [restoredIdentity, Identity.ofAssertion, List.map_map]
  exact List.map_id t.claims

instance : LawfulSession SchemeSession where
  authenticationType?_ofTicket _ _ := rfl
  assertion?_ofTicket _ _ := rfl
  claimEntries_ofTicket _ t := by
    have hclaims := congrArg (List.map Claim.entry) (List.append_nil (restoredIdentity t).claims)
    exact hclaims.trans (restoredIdentity_claims t)
  properties_ofTicket _ _ := rfl
  ofTicket_putBack _ _ _ := rfl

instance : LawfulSession IdentitySession where
  authenticationType?_ofTicket _ _ := rfl
  assertion?_ofTicket _ _ := rfl
  claimEntries_ofTicket _ t := restoredIdentity_claims t
  properties_ofTicket _ _ := rfl
  ofTicket_putBack _ _ _ := rfl

section PuttingBack

variable {η : Type} [HostSession η] [LawfulSession η] {key : String}

/-- A restored session names the key at which it was found. -/
theorem ticketId?_ofTicket (hkey : key ≠ "") (t : ServiceTicket) :
    (HostSession.properties (HostSession.ofTicket key t : η)).ticketId? = some key := by
  rw [LawfulSession.properties_ofTicket, restoredProperties, Properties.ticketId?,
    Properties.withTicketId, Properties.withItem, SortedMap.find?_insert, if_pos rfl,
    Option.filter_some, if_pos (decide_eq_true hkey)]

namespace SessionStore

private theorem keyOf_ofTicket (fresh : String) (hkey : key ≠ "") (t : ServiceTicket) :
    keyOf fresh (HostSession.ofTicket key t : η) = key := by
  rw [keyOf, ticketId?_ofTicket hkey, Option.getD_some]

/-- A restored session can be made a ticket of, whatever the settings are. -/
theorem ticketOf_ofTicket (settings : SessionSettings) (hkey : key ≠ "") (t : ServiceTicket) :
    ticketOf settings key (HostSession.ofTicket key t : η) = .ok (t.putBack key hkey) := by
  have hbacking : backing settings (HostSession.ofTicket key t : η) = .ok t.assertion := by
    rw [backing, LawfulSession.assertion?_ofTicket]
  unfold ticketOf
  rw [hbacking, LawfulSession.authenticationType?_ofTicket, LawfulSession.claimEntries_ofTicket,
    LawfulSession.properties_ofTicket]
  exact congrArg (Except.mapError _) (t.putBack key hkey).create_self

end SessionStore

namespace Storage

variable {b : Storage} {c : b.State}

/-- A restored session is renewed by its ticket. -/
theorem renew_ofTicket (hsound : b.Sound c) (hreached : b.Reached c) (settings : SessionSettings)
    (hkey : key ≠ "") (t : ServiceTicket) (now : Instant) :
    ((b.sessions settings).renew key (HostSession.ofTicket key t : η) now c).1 = .ok () ∧
      b.Keeps key (t.putBack key hkey)
        ((b.sessions settings).renew key (HostSession.ofTicket key t : η) now c).2 := by
  simp only [SessionStore.renew, withKey, if_neg hkey, sessions_settings,
    SessionStore.ticketOf_ofTicket settings hkey]
  exact renew_keeps hsound hreached hkey (t.putBack key hkey) now

/-- A restored session is stored under the key at which it was found, and kept there. -/
theorem store_ofTicket (hsound : b.Sound c) (hreached : b.Reached c) (settings : SessionSettings)
    (fresh : String) (hkey : key ≠ "") (t : ServiceTicket) (now : Instant) :
    ((b.sessions settings).store fresh (HostSession.ofTicket key t : η) now c).1 = .ok key ∧
      b.Keeps key (t.putBack key hkey)
        ((b.sessions settings).store fresh (HostSession.ofTicket key t : η) now c).2 := by
  simp only [SessionStore.store, SessionStore.keyOf_ofTicket fresh hkey, sessions_settings,
    SessionStore.ticketOf_ofTicket settings hkey]
  exact store_keeps hsound hreached (t.putBack key hkey) now

end Storage

end PuttingBack

/-- The shapes of a host's session. -/
inductive SessionShape where
  | scheme
  | identity

namespace SessionShape

/-- The sessions of a shape. -/
def Session : SessionShape → Type
  | scheme => SchemeSession
  | identity => IdentitySession

instance : (shape : SessionShape) → HostSession shape.Session
  | scheme => inferInstanceAs (HostSession SchemeSession)
  | identity => inferInstanceAs (HostSession IdentitySession)

instance : (shape : SessionShape) → LawfulSession shape.Session
  | scheme => inferInstanceAs (LawfulSession SchemeSession)
  | identity => inferInstanceAs (LawfulSession IdentitySession)

end SessionShape

end SessionTickets
