import SessionTickets.Proofs.Session.Presented
import SessionTickets.Proofs.Session.Storage

namespace SessionTickets

open Time

/-- A window that breaks the rule ends before it starts, and the fault names both instants. -/
private theorem windowFault?_eq_some {validFrom validUntil : Option Instant} {fault : TicketError}
    (h : windowFault? validFrom validUntil = some fault) :
    ∃ start stop, validFrom = some start ∧ validUntil = some stop ∧ stop < start ∧
      fault = .invalidWindow start.textWithDigits stop.textWithDigits := by
  unfold windowFault? at h
  split at h
  · next start stop =>
    split at h
    · cases h
    · next hle =>
      cases h
      exact ⟨start, stop, rfl, rfl, Instant.not_le.1 hle, rfl⟩
  · cases h

/-- An assertion is made unless its name is empty, or else its window ends before it starts. -/
theorem Assertion.create_cases (name : String) (attributes : SortedMap (List String))
    (validFrom validUntil : Option Instant) :
    (∃ a, create name attributes validFrom validUntil = .ok a ∧ name ≠ "" ∧
        WindowOrdered validFrom validUntil) ∨
      create name attributes validFrom validUntil = .error .emptyPrincipalName ∧ name = "" ∨
      ∃ start stop, create name attributes validFrom validUntil =
          .error (.invalidWindow start.textWithDigits stop.textWithDigits) ∧
        name ≠ "" ∧ validFrom = some start ∧ validUntil = some stop ∧ stop < start := by
  unfold create
  by_cases hname : name = ""
  · rw [dif_pos hname]
    exact .inr (.inl ⟨rfl, hname⟩)
  · rw [dif_neg hname]
    split
    · next fault hfault =>
      obtain ⟨start, stop, hstart, hstop, hlt, rfl⟩ := windowFault?_eq_some hfault
      exact .inr (.inr ⟨start, stop, rfl, hname, hstart, hstop, hlt⟩)
    · next hfault => exact .inl ⟨_, rfl, hname, windowFault?_eq_none_iff.1 hfault⟩

namespace Presented

/-- The name that is claimed where no identity has an assertion, empty if none is claimed. -/
def claimedName (p : Presented) : String :=
  (claimedName? p.identities).getD ""

/-- The way of authentication, empty if none is named. -/
def authenticationType (p : Presented) : String :=
  p.authenticationType?.getD ""

/-- A session has an assertion, or one may be made of its name and its window, and keeps the rules. -/
def Backed (settings : SessionSettings) (p : Presented) : Prop :=
  (∀ i ∈ p.identities, i.assertion = none) →
    settings.synthesizeAssertion = true ∧ p.claimedName ≠ "" ∧
      WindowOrdered p.properties.issued p.properties.expires

/-- Why no ticket can be made of a session. Each reason counts only where those before it do not. -/
inductive Refusal (settings : SessionSettings) (p : Presented) : StoreError → Prop
  /-- There is no assertion, and none may be made. -/
  | notBacked (hnone : ∀ i ∈ p.identities, i.assertion = none)
    (hsettings : settings.synthesizeAssertion = false) :
    Refusal settings p (.notBacked p.claimedName)
  /-- An assertion would have no name in it. -/
  | nameless (hnone : ∀ i ∈ p.identities, i.assertion = none)
    (hsettings : settings.synthesizeAssertion = true) (hname : p.claimedName = "") :
    Refusal settings p (.invalidTicket .emptyPrincipalName)
  /-- An assertion would end before it starts. -/
  | reversed {start stop : Instant} (hnone : ∀ i ∈ p.identities, i.assertion = none)
    (hsettings : settings.synthesizeAssertion = true) (hname : p.claimedName ≠ "")
    (hissued : p.properties.issued = some start) (hexpires : p.properties.expires = some stop)
    (hlt : stop < start) :
    Refusal settings p (.invalidTicket (.invalidWindow start.textWithDigits stop.textWithDigits))
  /-- The way of authentication is not named. -/
  | untyped (hbacked : p.Backed settings) (htype : p.authenticationType = "") :
    Refusal settings p (.invalidTicket .emptyAuthenticationType)

variable {settings : SessionSettings} {p : Presented} {e e' : StoreError}

/-- No assertion is made that ends before it starts. -/
theorem not_backed_of_reversed {start stop : Instant} (hnone : ∀ i ∈ p.identities, i.assertion = none)
    (hissued : p.properties.issued = some start) (hexpires : p.properties.expires = some stop)
    (hlt : stop < start) : ¬ p.Backed settings :=
  fun hbacked => Instant.not_le.2 hlt ((hbacked hnone).2.2 _ hissued _ hexpires)

/-- There is a reason against a session only if it has no assertion, or does not say how its user was
authenticated. -/
theorem Refusal.not_kept (h : p.Refusal settings e) : ¬ (p.Backed settings ∧ p.authenticationType ≠ "") := by
  rintro ⟨hbacked, hne⟩
  cases h with
  | notBacked hnone hsettings => exact absurd (hbacked hnone).1 (by simp [hsettings])
  | nameless hnone hsettings hname => exact (hbacked hnone).2.1 hname
  | reversed hnone hsettings hname hissued hexpires hlt =>
    exact not_backed_of_reversed hnone hissued hexpires hlt hbacked
  | untyped hbacked htype => exact hne htype

/-- There is one reason at most. -/
theorem Refusal.unique (h : p.Refusal settings e) (h' : p.Refusal settings e') : e = e' := by
  cases h with
  | notBacked hnone hsettings => cases h' <;> simp_all [Backed]
  | nameless hnone hsettings hname => cases h' <;> simp_all [Backed]
  | reversed hnone hsettings hname hissued hexpires hlt =>
    cases h' with
    | untyped hbacked htype => exact absurd hbacked (not_backed_of_reversed hnone hissued hexpires hlt)
    | _ => simp_all
  | untyped hbacked htype =>
    cases h' with
    | reversed hnone hsettings hname hissued hexpires hlt =>
      exact absurd hbacked (not_backed_of_reversed hnone hissued hexpires hlt)
    | _ => simp_all [Backed]

end Presented

namespace SessionStore

open Presented

variable {η : Type} [HostSession η] {session : η} {p : Presented} {id : String}

/-- An assertion is found or made for a session, or there is a reason against that. -/
theorem backing_cases (hpresents : Presents session p) (settings : SessionSettings) :
    (∃ a, backing settings session = .ok a ∧ p.Backed settings) ∨
      ∃ e, backing settings session = .error e ∧ p.Refusal settings e := by
  unfold backing
  cases hassertion : HostSession.assertion? session with
  | some a =>
    refine .inl ⟨a, rfl, fun hnone => ?_⟩
    cases hassertion.symm.trans (hpresents.assertion?_eq_none_iff.2 hnone)
  | none =>
    have hnone := hpresents.assertion?_eq_none_iff.1 hassertion
    have hname : (HostSession.principalName? session).getD "" = p.claimedName := by
      rw [hpresents.name hnone, claimedName]
    cases hsettings : settings.synthesizeAssertion with
    | false =>
      refine .inr ⟨_, ?_, .notBacked hnone hsettings⟩
      simp only [synthesize, hsettings, Bool.false_eq_true, if_false, hname]
    | true =>
      have hmade : synthesize settings session = (Assertion.create p.claimedName .empty
          p.properties.issued p.properties.expires).mapError .invalidTicket := by
        simp only [synthesize, hsettings, if_true, hname, hpresents.properties]
      simp only [hmade]
      obtain ⟨a, hcreate, hne, hordered⟩ | ⟨hcreate, hempty⟩ |
          ⟨start, stop, hcreate, hne, hstart, hstop, hlt⟩ :=
        Assertion.create_cases p.claimedName .empty p.properties.issued p.properties.expires
      · exact .inl ⟨a, congrArg _ hcreate, fun _ => ⟨hsettings, hne, hordered⟩⟩
      · exact .inr ⟨_, congrArg _ hcreate, .nameless hnone hsettings hempty⟩
      · exact .inr ⟨_, congrArg _ hcreate, .reversed hnone hsettings hne hstart hstop hlt⟩

/-- A ticket is made of a session, or there is a reason against that. -/
theorem ticketOf_cases (hpresents : Presents session p) (settings : SessionSettings) (hid : id ≠ "") :
    (∃ ticket, ticketOf settings id session = .ok ticket ∧ ∀ e, ¬ p.Refusal settings e) ∨
      ∃ e, ticketOf settings id session = .error e ∧ p.Refusal settings e := by
  unfold ticketOf
  rw [hpresents.authenticationType]
  obtain ⟨a, hbacking, hbacked⟩ | ⟨e, hbacking, hrefusal⟩ := backing_cases hpresents settings
  · rw [hbacking]
    by_cases htype : p.authenticationType = ""
    · refine .inr ⟨_, ?_, .untyped hbacked htype⟩
      rw [Presented.authenticationType] at htype
      simp only [bind, Except.bind, ServiceTicket.create, dif_neg hid, dif_pos htype]
      rfl
    · refine .inl ?_
      have hkept : ∀ e, ¬ p.Refusal settings e := fun e h => h.not_kept ⟨hbacked, htype⟩
      rw [Presented.authenticationType] at htype
      simp only [bind, Except.bind, ServiceTicket.create, dif_neg hid, dif_neg htype]
      exact ⟨_, rfl, hkept⟩
  · rw [hbacking]
    exact .inr ⟨e, rfl, hrefusal⟩

/-- A key that is not empty is chosen for each session. -/
theorem keyOr_ne {fresh : String} (hfresh : fresh ≠ "") (properties : Properties) :
    properties.keyOr fresh ≠ "" := by
  unfold Properties.keyOr
  cases properties.items.find? "ServiceTicket" with
  | none => exact hfresh
  | some id =>
    rw [Option.elim_some]
    split
    · exact hfresh
    · assumption

end SessionStore

/-- The error says that a call did not get through. -/
def StoreError.IsOutage : StoreError → Prop
  | .backend _ | .timeout _ => True
  | _ => False

/-- A call that fails did not get through, and says so. -/
private theorem RemoteStore.outage_of_bounded {α : Type} {limit : Option Span} {c : PayloadCache}
    {operation : PayloadCache → α × PayloadCache} {e : StoreError}
    (h : (bounded limit (PayloadCache.call operation) c).1 = .error e) : ¬ Reaches limit c ∧ e.IsOutage := by
  constructor
  · intro hreaches
    rw [hreaches.bounded_call] at h
    cases h
  · have hcall : (PayloadCache.call operation c).1 = .error e → e.IsOutage := by
      intro hfailed
      unfold PayloadCache.call at hfailed
      split at hfailed
      · cases hfailed
        trivial
      · cases hfailed
    unfold bounded at h
    split at h
    · split at h
      · cases h
        trivial
      · exact hcall h
    · exact hcall h

namespace Storage

variable {α : Type} {b : Storage}

/-- An operation succeeds if calls get through, and says so if they do not. -/
structure Writes (b : Storage) (operation : Operation b.State α) (answer : α) : Prop where
  answered : ∀ now c, b.Reached c → (operation now c).1 = .ok answer
  outage : ∀ now c e, (operation now c).1 = .error e → ¬ b.Reached c ∧ e.IsOutage

private theorem writes_store (ticket : ServiceTicket) : b.Writes (b.tickets.store ticket) ticket.id := by
  cases b with
  | bounded keyPrefix capacity => exact ⟨fun _ _ _ => rfl, fun _ _ _ herror => nomatch herror⟩
  | payloads limit honorsDeadlines latency =>
    refine ⟨fun now c hreached => ?_, fun now c e herror => ?_⟩
    · simp only [tickets, remoteStore, RemoteStore.write_eq hreached ticket.id ticket]
    · simp only [tickets, remoteStore] at herror
      split at herror
      · cases herror
      · next hwrite =>
        cases herror
        exact RemoteStore.outage_of_bounded (congrArg Prod.fst hwrite)

private theorem writes_renew {key : String} (hkey : key ≠ "") (ticket : ServiceTicket) :
    b.Writes (b.tickets.renew key ticket) () := by
  cases b with
  | bounded keyPrefix capacity =>
    have hrenew : ∀ now c, ((localStore keyPrefix).renew key ticket now c).1 = .ok () := by
      intro now c
      simp only [localStore, withKey, if_neg hkey]
    refine ⟨fun now c _ => hrenew now c, fun now c e herror => ?_⟩
    have hok := (hrenew now c).symm.trans herror
    cases hok
  | payloads limit honorsDeadlines latency =>
    refine ⟨fun now c hreached => ?_, fun now c e herror => ?_⟩
    · simp only [tickets, remoteStore, withKey, if_neg hkey, RemoteStore.write_eq hreached key ticket]
    · simp only [tickets, remoteStore, withKey, if_neg hkey] at herror
      exact RemoteStore.outage_of_bounded herror

end Storage

namespace SessionStore

open Presented

variable {α η : Type} [HostSession η] {b : Storage} {settings : SessionSettings} {session : η} {p : Presented}

/-- An operation keeps a session under a key, unless there is a reason against that. Then it is refused for
this reason, whatever is held and whether calls get through or not, and nothing is changed. The key is never
at fault, and neither is the window of a session that has an assertion. A bounded cache is always reached, so
nothing else fails there. -/
structure KeepsOrRefuses (b : Storage) (settings : SessionSettings) (η : Type) [HostSession η] (p : Presented)
    (key : String) (put : ServiceTicket → Operation b.State α) (answer : α) (operation : Operation b.State α) :
    Prop where
  refused : ∀ e, p.Refusal settings e → ∀ now c, operation now c = (.error e, c)
  found_as_before : ∀ e, p.Refusal settings e → ∀ now c k later,
    (b.sessions settings).retrieve k later (operation now c).2 (η := η) =
      (b.sessions settings).retrieve k later c
  kept : (∀ e, ¬ p.Refusal settings e) →
    b.Writes operation answer ∧ ∃ ticket : ServiceTicket, ticket.id = key ∧ operation = put ticket
  error_cases : ∀ now c e, (operation now c).1 = .error e →
    p.Refusal settings e ∨ ¬ b.Reached c ∧ e.IsOutage
  id_accepted : ∀ now c, (operation now c).1 ≠ .error (.invalidTicket .emptyTicketId)
  window_accepted : (∃ i ∈ p.identities, i.assertion ≠ none) → ∀ now c start stop,
    (operation now c).1 ≠ .error (.invalidTicket (.invalidWindow start stop))

/-- It is enough that a ticket of the session is put under the key, if one can be made. -/
theorem keepsOrRefuses {key : String} (hpresents : Presents session p) (hkey : key ≠ "")
    {put : ServiceTicket → Operation b.State α} {answer : α} {operation : Operation b.State α}
    (hmade : ∀ ticket, ticketOf settings key session = .ok ticket → operation = put ticket)
    (hrefused : ∀ e, ticketOf settings key session = .error e → ∀ now c, operation now c = (.error e, c))
    (hput : ∀ ticket : ServiceTicket, ticket.id = key → b.Writes (put ticket) answer) :
    KeepsOrRefuses b settings η p key put answer operation := by
  have hcases : (b.Writes operation answer ∧
        (∃ ticket : ServiceTicket, ticket.id = key ∧ operation = put ticket) ∧
          ∀ e, ¬ p.Refusal settings e) ∨
      ∃ e, p.Refusal settings e ∧ ∀ now c, operation now c = (.error e, c) := by
    obtain ⟨ticket, hticket, hkept⟩ | ⟨e, herror, hrefusal⟩ := ticketOf_cases hpresents settings hkey
    · have hid := (ticketOf_eq_ok hticket).1
      rw [hmade ticket hticket]
      exact .inl ⟨hput ticket hid, ⟨ticket, hid, rfl⟩, hkept⟩
    · exact .inr ⟨e, hrefusal, hrefused e herror⟩
  have herrors : ∀ now c e, (operation now c).1 = .error e →
      p.Refusal settings e ∨ ¬ b.Reached c ∧ e.IsOutage := by
    intro now c e h
    obtain ⟨hwrites, -, -⟩ | ⟨e', hrefusal, hoperation⟩ := hcases
    · exact .inr (hwrites.outage now c e h)
    · rw [hoperation] at h
      cases h
      exact .inl hrefusal
  have hrefuses : ∀ e, p.Refusal settings e → ∀ now c, operation now c = (.error e, c) := by
    intro e h now c
    obtain ⟨-, -, hkept⟩ | ⟨e', hrefusal, hoperation⟩ := hcases
    · exact absurd h (hkept e)
    · rw [hoperation, h.unique hrefusal]
  refine ⟨hrefuses, ?_, ?_, herrors, ?_, ?_⟩
  · intro e h now c k later
    rw [hrefuses e h]
  · intro hkept
    obtain ⟨hwrites, hticket, -⟩ | ⟨e, hrefusal, -⟩ := hcases
    · exact ⟨hwrites, hticket⟩
    · exact absurd hrefusal (hkept e)
  · intro now c h
    obtain hrefusal | ⟨-, houtage⟩ := herrors now c _ h
    · cases hrefusal
    · exact houtage
  · rintro ⟨i, hi, hassertion⟩ now c start stop h
    obtain hrefusal | ⟨-, houtage⟩ := herrors now c _ h
    · cases hrefusal with
      | reversed hnone => exact hassertion (hnone i hi)
    · exact houtage

/-- To store or to renew a session keeps it under its key, or fails for the one reason against it, which can
be read off what the session presents and the settings. Nothing is kept under an empty key. -/
structure KeptOrRefused (b : Storage) (settings : SessionSettings) (session : η) (p : Presented) : Prop where
  store : ∀ fresh, fresh ≠ "" →
    KeepsOrRefuses b settings η p (p.properties.keyOr fresh) b.tickets.store (p.properties.keyOr fresh)
      ((b.sessions settings).store fresh session)
  renew : ∀ key, key ≠ "" →
    KeepsOrRefuses b settings η p key (b.tickets.renew key) () ((b.sessions settings).renew key session)
  renew_empty : ∀ now c, (b.sessions settings).renew "" session now c = (.error .emptyKey, c)
  unique : ∀ e e', p.Refusal settings e → p.Refusal settings e' → e = e'

/-- It is enough that the session presents what it is judged by. -/
theorem keptOrRefused (b : Storage) (settings : SessionSettings) (hpresents : Presents session p) :
    KeptOrRefused b settings session p := by
  refine ⟨?_, ?_, fun now c => rfl, fun e e' => Refusal.unique⟩
  · intro fresh hfresh
    have hkey := hpresents.keyOf_eq fresh
    refine keepsOrRefuses hpresents (keyOr_ne hfresh p.properties) ?_ ?_ ?_
    · intro ticket hticket
      funext now c
      simp only [SessionStore.store, Storage.sessions, hkey, hticket]
    · intro e herror now c
      simp only [SessionStore.store, Storage.sessions, hkey, herror]
    · intro ticket hid
      exact hid ▸ Storage.writes_store ticket
  · intro key hkey
    refine keepsOrRefuses hpresents hkey ?_ ?_ fun ticket _ => Storage.writes_renew hkey ticket
    · intro ticket hticket
      funext now c
      simp only [SessionStore.renew, withKey, if_neg hkey, Storage.sessions, hticket]
    · intro e herror now c
      simp only [SessionStore.renew, withKey, if_neg hkey, Storage.sessions, herror]

/-- Whether a ticket can be made of a session depends on the session and on the settings alone. If none can
be made, there is one reason for it, and the session is refused before anything behind the store is looked
at or changed. All other sessions reach the ticket store. -/
theorem kept_or_refused (b : Storage) (settings : SessionSettings) :
    (∀ s : SchemeSession, KeptOrRefused b settings s s.presented) ∧
      ∀ s : IdentitySession, KeptOrRefused b settings s s.presented :=
  ⟨fun s => keptOrRefused b settings s.presents, fun s => keptOrRefused b settings s.presents⟩

/-- A session without an assertion ends before it starts, and names no scheme either: that is not looked at
any more. It is refused while the cache fails, and the session that is held under its key is found as before
once the cache works again. With an assertion the same window does no harm. Without a name of the right type
nothing is made, and where nothing may be made the name is reported. -/
theorem kept_or_refused_reversed :
    let name := Claim.ofValue Claim.nameType "bob"
    let email := Claim.ofValue "email" "b@x"
    let bob : Identity := ⟨none, [email, name], Claim.nameType, Claim.roleType, none⟩
    let properties : Properties := ⟨.ofList [("ServiceTicket", "ST-1")], some (.onSecond 9), some (.onSecond 4)⟩
    let plain : SchemeSession := ⟨"", ⟨[bob, bob]⟩, properties⟩
    let nameless : SchemeSession := ⟨"", ⟨[{ bob with claims := [email] }, bob]⟩, properties⟩
    let ticket := ServiceTicket.lasting (some (.onSecond 7)) "ST-1"
    let backed : IdentitySession := ⟨.ofAssertion ticket.assertion "CAS" [name], properties⟩
    let e := StoreError.invalidTicket (.invalidWindow (Instant.onSecond 9).textWithDigits
      (Instant.onSecond 4).textWithDigits)
    let remote := Storage.payloads (some (.ofSeconds 1)) true (.ofMillis 5)
    let c : PayloadCache :=
      ⟨.ofList [("ST-1", ⟨Portable.encode ticket, ticket.deadline⟩)], true, true, .ofMillis 5⟩
    let shared := Storage.bounded "cas-st:" 1
    (plain.presented.Refusal .standard e ∧
      (remote.sessions .standard).store "new" plain (.onSecond 1) c = (.error e, c) ∧
      (remote.sessions .standard).renew "ST-1" plain (.onSecond 1) c = (.error e, c)) ∧
    (remote.sessions .standard).renew "ST-1" nameless (.onSecond 1) c =
      (.error (.invalidTicket .emptyPrincipalName), c) ∧
    (remote.sessions ⟨false⟩).renew "ST-1" plain (.onSecond 1) c = (.error (.notBacked "bob"), c) ∧
    (∀ e, ¬ backed.presented.Refusal .standard e) ∧
      ((shared.sessions .standard).store "new" backed (.onSecond 1) shared.start).1 = .ok "ST-1" := by
  intro name email bob properties plain nameless ticket backed e remote c shared
  have hnone : ∀ i ∈ plain.presented.identities, i.assertion = none := by
    simp [SchemeSession.presented, plain, bob]
  have hnone' : ∀ i ∈ nameless.presented.identities, i.assertion = none := by
    simp [SchemeSession.presented, nameless, bob]
  have hreversed : plain.presented.Refusal .standard e := .reversed hnone rfl (by decide) rfl rfl (by decide)
  have hnameless : nameless.presented.Refusal .standard (.invalidTicket .emptyPrincipalName) :=
    .nameless hnone' rfl rfl
  have hunbacked : plain.presented.Refusal ⟨false⟩ (.notBacked "bob") := .notBacked hnone rfl
  obtain ⟨hscheme, -⟩ := kept_or_refused remote .standard
  obtain ⟨hstrict, -⟩ := kept_or_refused remote ⟨false⟩
  obtain ⟨-, hidentity⟩ := kept_or_refused shared .standard
  have hbacked : backed.presented.Backed .standard := by
    intro hnone
    cases hnone _ (.head _)
  have hkept : ∀ e, ¬ backed.presented.Refusal .standard e := fun e h => h.not_kept ⟨hbacked, by decide⟩
  have hanswered :=
    (((hidentity backed).store "new" (by decide)).kept hkept).1.answered (.onSecond 1) shared.start trivial
  refine ⟨⟨hreversed, ?_, ?_⟩, ?_, ?_, hkept, hanswered⟩
  · exact ((hscheme plain).store "new" (by decide)).refused e hreversed _ c
  · exact ((hscheme plain).renew "ST-1" (by decide)).refused e hreversed _ c
  · exact ((hscheme nameless).renew "ST-1" (by decide)).refused _ hnameless _ c
  · exact ((hstrict plain).renew "ST-1" (by decide)).refused _ hunbacked _ c

end SessionStore

end SessionTickets
