import SessionTickets.Proofs.Session.Presented
import SessionTickets.Proofs.Session.Storage

namespace SessionTickets

open Time

private theorem Assertion.create_eq_ok {name : String} {attributes : SortedMap (List String)}
    {validFrom validUntil : Option Instant} {a : Assertion}
    (h : create name attributes validFrom validUntil = .ok a) :
    a.principalName = name ∧ a.attributes = attributes ∧ a.validFrom = validFrom ∧
      a.validUntil = validUntil := by
  unfold create at h
  split at h
  · cases h
  · split at h
    · cases h
    · cases h
      exact ⟨rfl, rfl, rfl, rfl⟩

/-- The assertion that vouches for a session: the first one among its identities, or, if none carries
one, that of the name which the first identity claims and of the session's own window. -/
def Vouches (a : Assertion) (identities : List Identity) (p : Properties) : Prop :=
  (identities.filterMap (·.assertion)).head? = some a ∨
    (∀ i ∈ identities, i.assertion = none) ∧ claimedName? identities = some a.principalName ∧
      a.attributes = .empty ∧ a.validFrom = p.issued ∧ a.validUntil = p.expires

namespace SessionStore

variable {η : Type} [HostSession η] {settings : SessionSettings} {session : η} {a : Assertion}

/-- An assertion that is made for a session has the name of its principal, which is not empty, and its
window. -/
theorem synthesize_eq_ok (h : synthesize settings session = .ok a) :
    HostSession.principalName? session = some a.principalName ∧ a.attributes = .empty ∧
      a.validFrom = (HostSession.properties session).issued ∧
      a.validUntil = (HostSession.properties session).expires := by
  simp only [synthesize] at h
  split at h
  · cases hcreate : Assertion.create ((HostSession.principalName? session).getD "") .empty
        (HostSession.properties session).issued (HostSession.properties session).expires with
    | error fault =>
      rw [hcreate] at h
      cases h
    | ok made =>
      rw [hcreate] at h
      cases h
      obtain ⟨hname, hrest⟩ := Assertion.create_eq_ok hcreate
      refine ⟨?_, hrest⟩
      cases hprincipal : HostSession.principalName? session with
      | none =>
        rw [hprincipal, Option.getD_none] at hname
        exact absurd hname a.principalName_ne
      | some name =>
        rw [hprincipal, Option.getD_some] at hname
        rw [hname]
  · cases h

/-- The assertion behind a session is its own, or one was made because it has none. -/
private theorem backing_eq_ok (h : backing settings session = .ok a) :
    HostSession.assertion? session = some a ∨
      HostSession.assertion? session = none ∧ synthesize settings session = .ok a := by
  unfold backing at h
  cases hassertion : HostSession.assertion? session with
  | none =>
    rw [hassertion] at h
    exact .inr ⟨rfl, h⟩
  | some assertion =>
    rw [hassertion] at h
    cases h
    exact .inl rfl

/-- What backs a session is an assertion that vouches for it. -/
theorem vouches_of_backing {p : Presented} (hpresents : Presents session p)
    (h : backing settings session = .ok a) : Vouches a p.identities p.properties := by
  rcases backing_eq_ok h with hfirst | ⟨hnone, hmade⟩
  · exact .inl (hpresents.assertion ▸ hfirst)
  · have hassertions := hpresents.assertion?_eq_none_iff.1 hnone
    obtain ⟨hname, hattributes, hfrom, huntil⟩ := synthesize_eq_ok hmade
    rw [hpresents.name hassertions] at hname
    rw [hpresents.properties] at hfrom huntil
    exact .inr ⟨hassertions, hname, hattributes, hfrom, huntil⟩

/-- The identity that is restored from a ticket with the portable parts of claims. -/
theorem restoredIdentity_eq {ticket : ServiceTicket} {claims : List Claim}
    (h : ticket.claims = claims.map Claim.entry) :
    restoredIdentity ticket = ⟨some ticket.authenticationType, claims.map Claim.bare, Claim.nameType,
      Claim.roleType, some ticket.assertion⟩ := by
  have hclaims : ticket.claims.map ClaimEntry.toClaim = claims.map Claim.bare := by
    rw [h, List.map_map]
    exact List.map_congr_left fun c _ => c.toClaim_entry
  rw [restoredIdentity, Identity.ofAssertion, hclaims]

/-- What is restored of the properties: the key and the window of the assertion. -/
theorem restoredProperties_eq (key : String) (a : Assertion) :
    restoredProperties key a = ⟨.ofList [("ServiceTicket", key)], a.validFrom, a.validUntil⟩ :=
  rfl

end SessionStore

namespace Storage

variable {b : Storage} {η : Type} [HostSession η] {settings : SessionSettings} {fresh key : String}
  {session : η} {now : Instant} {c : b.State}

/-- A session that was stored is found as long as its ticket has not expired. -/
theorem Stored.retrieve_eq (h : b.Stored settings fresh session key now c) :
    ∃ ticket, SessionStore.ticketOf settings (SessionStore.keyOf fresh session) session = .ok ticket ∧
      key = SessionStore.keyOf fresh session ∧
      ((b.sessions settings).retrieve key now c).1 =
        .ok (if ticket.assertion.validUntil.any (· ≤ now) then none
          else some (HostSession.ofTicket (σ := η) key ticket)) := by
  obtain ⟨before, between, stored, hstore, hclock, hcalls, rfl⟩ := h
  obtain ⟨ticket, hticket, hoperation⟩ := SessionStore.store_eq_ok hstore
  rw [hoperation] at hstore hcalls ⊢
  obtain ⟨hanswer, hkeeps⟩ :=
    store_keeps (sound_run b before) (reached_of_store hstore) ticket stored
  have hid : ticket.id = key := Except.ok.inj (hanswer.symm.trans hstore)
  rw [hid] at hkeeps
  refine ⟨ticket, hticket, ?_, ?_⟩
  · rw [← hid, (SessionStore.ticketOf_eq_ok hticket).1]
  · have hserved := (retrieve_run hkeeps.sound hkeeps.reached hclock hcalls).trans (hkeeps.served now)
    refine SessionStore.retrieve_eq_ok.2 ⟨_, hserved, ?_⟩
    split <;> rfl

end Storage

/-- A session that was stored under a key, which is its own or else fresh, is found there until the
assertion that vouches for it ends, as long as no call touches the key. It then has one identity, with
that assertion and all claims without their host properties, and its properties are the key and the
window of the assertion. -/
theorem SessionStore.retrieve_stored (b : Storage) (settings : SessionSettings) (fresh key : String)
    (now : Instant) (c : b.State) :
    (∀ s : SchemeSession, b.Stored settings fresh s key now c →
      key = s.properties.keyOr fresh ∧
      ∃ a, Vouches a s.principal.identities s.properties ∧
        ((b.sessions settings).retrieve key now c).1 =
          .ok (if a.validUntil.any (· ≤ now) then none
            else some (SchemeSession.mk s.scheme
              ⟨[⟨some s.scheme, (s.principal.identities.flatMap (·.claims)).map Claim.bare,
                Claim.nameType, Claim.roleType, some a⟩]⟩
              ⟨.ofList [("ServiceTicket", key)], a.validFrom, a.validUntil⟩))) ∧
    ∀ s : IdentitySession, b.Stored settings fresh s key now c →
      key = s.properties.keyOr fresh ∧
      ∃ a, Vouches a [s.identity] s.properties ∧
        ((b.sessions settings).retrieve key now c).1 =
          .ok (if a.validUntil.any (· ≤ now) then none
            else some (IdentitySession.mk
              ⟨s.identity.authenticationType, s.identity.claims.map Claim.bare,
                Claim.nameType, Claim.roleType, some a⟩
              ⟨.ofList [("ServiceTicket", key)], a.validFrom, a.validUntil⟩)) := by
  constructor
  · intro s hstored
    obtain ⟨ticket, hticket, hkey, hfound⟩ := hstored.retrieve_eq
    obtain ⟨-, hbacking, htype, hclaims⟩ := ticketOf_eq_ok hticket
    have hscheme : ticket.authenticationType = s.scheme := htype
    have hidentity := restoredIdentity_eq hclaims
    rw [hscheme] at hidentity
    have hrestored : HostSession.ofTicket key ticket = SchemeSession.mk s.scheme
        ⟨[⟨some s.scheme, s.principal.claims.map Claim.bare, Claim.nameType, Claim.roleType,
          some ticket.assertion⟩]⟩
        ⟨.ofList [("ServiceTicket", key)], ticket.assertion.validFrom, ticket.assertion.validUntil⟩ := by
      rw [← restoredProperties_eq, ← hidentity, ← hscheme]
      rfl
    rw [hrestored] at hfound
    exact ⟨hkey.trans (s.presents.keyOf_eq fresh), ticket.assertion,
      vouches_of_backing s.presents hbacking, hfound⟩
  · intro s hstored
    obtain ⟨ticket, hticket, hkey, hfound⟩ := hstored.retrieve_eq
    obtain ⟨-, hbacking, htype, hclaims⟩ := ticketOf_eq_ok hticket
    have hname : some ticket.authenticationType = s.identity.authenticationType := by
      have hgiven : ticket.authenticationType = s.identity.authenticationType.getD "" := htype
      cases htype? : s.identity.authenticationType with
      | none =>
        rw [htype?, Option.getD_none] at hgiven
        exact absurd hgiven ticket.authenticationType_ne
      | some name => rw [hgiven, htype?, Option.getD_some]
    have hidentity := restoredIdentity_eq hclaims
    rw [hname] at hidentity
    have hrestored : HostSession.ofTicket key ticket = IdentitySession.mk
        ⟨s.identity.authenticationType, s.identity.claims.map Claim.bare, Claim.nameType,
          Claim.roleType, some ticket.assertion⟩
        ⟨.ofList [("ServiceTicket", key)], ticket.assertion.validFrom, ticket.assertion.validUntil⟩ := by
      rw [← restoredProperties_eq, ← hidentity]
      rfl
    rw [hrestored] at hfound
    exact ⟨hkey.trans (s.presents.keyOf_eq fresh), ticket.assertion,
      vouches_of_backing s.presents hbacking, hfound⟩

/-- A session of two identities comes back with the one assertion among them and the claims of both,
after another user has put a text into the cache and a sweep. A session without an assertion comes back
under the first name that its first identity claims, and is gone once its own window has ended. -/
theorem SessionStore.retrieve_stored_shared :
    let a := (ServiceTicket.lasting (some (.onSecond 9)) "ST-1").assertion
    let role := Claim.ofValue "role" "admin"
    let bob := Claim.ofValue Claim.nameType "bob"
    let robert := Claim.ofValue Claim.nameType "robert"
    let user : Identity := ⟨some "Cookies", [role, bob, robert], Claim.nameType, Claim.roleType, none⟩
    let backed : Identity := .ofAssertion a "CAS" [{ role with properties := .ofList [("x", "y")] }]
    let s : SchemeSession :=
      ⟨"Cookies", ⟨[user, backed]⟩, ⟨.ofList [("ServiceTicket", "ST-1")], none, none⟩⟩
    let made : Assertion := ⟨"bob", .empty, none, some (.onSecond 5), by decide, by simp [WindowOrdered]⟩
    let guest : Identity := ⟨none, [role], "role", "role", none⟩
    let plain : SchemeSession := ⟨"Cookies", ⟨[user, guest]⟩, ⟨.empty, none, some (.onSecond 5)⟩⟩
    let single : IdentitySession := ⟨user, ⟨.empty, none, some (.onSecond 5)⟩⟩
    let shared := Storage.bounded "cas-st:" 2
    let remote := Storage.payloads none true (.ofSeconds 0)
    let between : Calls (UserCall shared SchemeSession) :=
      [(.onSecond 1, .other (SharedCall.raw (.set "x" (.text "y") none))),
        (.onSecond 2, .other (SharedCall.raw .sweep))]
    let c := (shared.machine.run
      ((shared.sessions .standard).store "" s (.onSecond 0) shared.start).2 between).2
    let d := ((shared.sessions .standard).store "ST-2" plain (.onSecond 0) shared.start).2
    let e := ((remote.sessions .standard).store "ST-2" single (.onSecond 0) remote.start).2
    let restored (claims : List Claim) (assertion : Assertion) : Identity :=
      ⟨some "Cookies", claims, Claim.nameType, Claim.roleType, some assertion⟩
    let properties : Properties := ⟨.ofList [("ServiceTicket", "ST-2")], none, some (.onSecond 5)⟩
    (shared.Stored .standard "" s "ST-1" (.onSecond 4) c ∧
      ((shared.sessions .standard).retrieve "ST-1" (.onSecond 4) c).1 =
        .ok (some (SchemeSession.mk "Cookies" ⟨[restored [role, bob, robert, role] a]⟩
          ⟨.ofList [("ServiceTicket", "ST-1")], none, some (.onSecond 9)⟩))) ∧
    (shared.Stored .standard "ST-2" plain "ST-2" (.onSecond 4) d ∧
      ((shared.sessions .standard).retrieve "ST-2" (.onSecond 4) d).1 =
        .ok (some (SchemeSession.mk "Cookies" ⟨[restored [role, bob, robert, role] made]⟩ properties))) ∧
    (remote.Stored .standard "ST-2" single "ST-2" (.onSecond 4) e ∧
      ((remote.sessions .standard).retrieve "ST-2" (.onSecond 4) e).1 =
        .ok (some (IdentitySession.mk (restored [role, bob, robert] made) properties))) ∧
    remote.Stored .standard "ST-2" single "ST-2" (.onSecond 5) e ∧
      ((remote.sessions .standard).retrieve "ST-2" (.onSecond 5) e).1 =
        .ok (none : Option IdentitySession) := by
  intro a role bob robert user backed s made guest plain single shared remote between c d e restored properties
  have hshared : shared.Stored .standard "" s "ST-1" (.onSecond 4) c := by
    refine ⟨[], between, .onSecond 0, rfl, by decide, ⟨?_, ?_, trivial⟩, rfl⟩
    · intro use huse call hcall
      cases huse
      cases hcall
      have hfits : ¬ BoundedCache.PushesOut (α := SharedValue) (.onSecond 1) "x"
          ((shared.sessions .standard).store "" s (.onSecond 0) shared.start).2 := by
        unfold BoundedCache.PushesOut
        decide
      exact ⟨by decide, hfits⟩
    · intro use huse call hcall
      cases huse
      cases hcall
      trivial
  have hplain : shared.Stored .standard "ST-2" plain "ST-2" (.onSecond 4) d :=
    ⟨[], [], .onSecond 0, rfl, by decide, trivial, rfl⟩
  have hsingle : remote.Stored .standard "ST-2" single "ST-2" (.onSecond 4) e :=
    ⟨[], [], .onSecond 0, rfl, by decide, trivial, rfl⟩
  have hlate : remote.Stored .standard "ST-2" single "ST-2" (.onSecond 5) e :=
    ⟨[], [], .onSecond 0, rfl, by decide, trivial, rfl⟩
  obtain ⟨-, a', hvouches, hfound⟩ :=
    (SessionStore.retrieve_stored shared .standard "" "ST-1" (.onSecond 4) c).1 s hshared
  obtain ⟨-, b, hvouchesPlain, hfoundPlain⟩ :=
    (SessionStore.retrieve_stored shared .standard "ST-2" "ST-2" (.onSecond 4) d).1 plain hplain
  obtain ⟨-, b', hvouchesSingle, hfoundSingle⟩ :=
    (SessionStore.retrieve_stored remote .standard "ST-2" "ST-2" (.onSecond 4) e).2 single hsingle
  obtain ⟨-, b'', hvouchesLate, hfoundLate⟩ :=
    (SessionStore.retrieve_stored remote .standard "ST-2" "ST-2" (.onSecond 5) e).2 single hlate
  have hmade : ∀ {identities b}, claimedName? identities = some "bob" →
      (identities.filterMap (·.assertion)).head? = none →
      Vouches b identities ⟨.empty, none, some (.onSecond 5)⟩ → b = made := by
    rintro identities b hname hnone (hfirst | ⟨-, hclaimed, hattributes, hfrom, huntil⟩)
    · cases hnone.symm.trans hfirst
    · exact Assertion.ext (Option.some.inj (hclaimed.symm.trans hname)) hattributes hfrom huntil
  refine ⟨⟨hshared, ?_⟩, ⟨hplain, ?_⟩, ⟨hsingle, ?_⟩, hlate, ?_⟩
  · rcases hvouches with hfirst | ⟨hnone, -⟩
    · cases hfirst
      exact hfound
    · exact nomatch hnone _ (.tail _ (.head _))
  · rw [hmade rfl rfl hvouchesPlain] at hfoundPlain
    exact hfoundPlain
  · rw [hmade rfl rfl hvouchesSingle] at hfoundSingle
    exact hfoundSingle
  · rw [hmade rfl rfl hvouchesLate] at hfoundLate
    exact hfoundLate

end SessionTickets
