import SessionTickets.Proofs.Session.Storage

namespace SessionTickets

open Time

/-- Sessions of one shape are turned into sessions of another that say the same: a session store looks
at no more of them. -/
structure HostSession.Translates {η ζ : Type} [HostSession η] [HostSession ζ] (f : η → ζ) : Prop where
  authenticationType (s : η) :
    (HostSession.authenticationType? (f s)).getD "" = (HostSession.authenticationType? s).getD ""
  principalName? (s : η) : HostSession.principalName? (f s) = HostSession.principalName? s
  assertion? (s : η) : HostSession.assertion? (f s) = HostSession.assertion? s
  claimEntries (s : η) : HostSession.claimEntries (f s) = HostSession.claimEntries s
  properties (s : η) : HostSession.properties (f s) = HostSession.properties s
  ofTicket (key : String) (t : ServiceTicket) :
    f (HostSession.ofTicket key t) = HostSession.ofTicket key t

section Map

variable {η ζ : Type} (f : η → ζ)

def SessionCall.map : SessionCall η → SessionCall ζ
  | .store fresh session => .store fresh (f session)
  | .retrieve key => .retrieve key
  | .renew key session => .renew key (f session)
  | .remove key => .remove key
  | .signOut key => .signOut key

def SessionAnswer.map : SessionAnswer η → SessionAnswer ζ
  | .key answer => .key answer
  | .session answer => .session (answer.map (Option.map f))
  | .done answer => .done answer

def UserCall.map {b : Storage} : UserCall b η → UserCall b ζ
  | .session settings call => .session settings (call.map f)
  | .other use => .other use

def UserAnswer.map {b : Storage} : UserAnswer b η → UserAnswer b ζ
  | .session answer => .session (answer.map f)
  | .other answer => .other answer

end Map

namespace HostSession.Translates

variable {σ η ζ : Type} [HostSession η] [HostSession ζ] {f : η → ζ}

private theorem backing (h : Translates f) (settings : SessionSettings) (s : η) :
    SessionStore.backing settings (f s) = SessionStore.backing settings s := by
  simp only [SessionStore.backing, SessionStore.synthesize, h.principalName?, h.assertion?, h.properties]

private theorem ticketOf (h : Translates f) (settings : SessionSettings) (id : String) (s : η) :
    SessionStore.ticketOf settings id (f s) = SessionStore.ticketOf settings id s := by
  simp only [SessionStore.ticketOf, h.backing, h.authenticationType, h.claimEntries, h.properties]

private theorem keyOf (h : Translates f) (fresh : String) (s : η) :
    SessionStore.keyOf fresh (f s) = SessionStore.keyOf fresh s := by
  rw [SessionStore.keyOf, h.properties, SessionStore.keyOf]

private theorem comp_ofTicket (h : Translates f) (key : String) :
    f ∘ HostSession.ofTicket key = HostSession.ofTicket key :=
  funext (h.ofTicket key)

/-- A session store does with translated sessions what it does with the sessions. -/
theorem machine (h : Translates f) (s : SessionStore σ) (now : Instant) (call : SessionCall η) (c : σ) :
    s.machine now (call.map f) c = ((s.machine now call c).1.map f, (s.machine now call c).2) := by
  cases call with
  | store fresh session =>
    simp only [SessionCall.map, SessionStore.machine, SessionStore.store, h.keyOf, h.ticketOf]
    rfl
  | retrieve key =>
    simp only [SessionCall.map, SessionStore.machine, SessionStore.retrieve_eq, SessionAnswer.map]
    cases (s.tickets.retrieve key now c).1 with
    | error e => rfl
    | ok ticket => simp only [Except.map, Option.map_map, h.comp_ofTicket]
  | renew key session =>
    simp only [SessionCall.map, SessionStore.machine, SessionStore.renew, h.ticketOf]
    rfl
  | remove key => rfl
  | signOut key => rfl

/-- Over a whole run, whoever else uses what is behind the store, translated sessions get translated
answers, and leave the same behind. -/
theorem run (h : Translates f) (b : Storage) (c : b.State) (calls : Calls (UserCall b η)) :
    b.machine.run c (calls.map (Prod.map id (UserCall.map f))) =
      ((b.machine.run c calls).1.map (Prod.map (UserCall.map f) (UserAnswer.map f)),
        (b.machine.run c calls).2) := by
  apply Machine.run_map
  intro now call c
  cases call with
  | session settings call =>
    have hcall := h.machine (b.sessions settings) now call c
    simp only [UserCall.map, Storage.machine, hcall]
    rfl
  | other use => rfl

end HostSession.Translates

/-- The scheme session that an identity session stands for: its principal is the identity alone, and its
scheme is the authentication type of the identity, if it has one. -/
def IdentitySession.toScheme (s : IdentitySession) : SchemeSession :=
  ⟨s.identity.authenticationType.getD "", ⟨[s.identity]⟩, s.properties⟩

namespace Principal

/-- The only identity of a principal is its primary one, with an assertion or without. -/
theorem primary?_singleton (i : Identity) : (Principal.mk [i]).primary? = some i := by
  rw [primary?, List.find?_singleton, List.head?_cons]
  cases i.assertion.isSome <;> rfl

private theorem name?_singleton (i : Identity) : (Principal.mk [i]).name? = i.name? := by
  rw [name?, primary?_singleton, Option.bind_some]

private theorem assertion?_singleton (i : Identity) : (Principal.mk [i]).assertion? = i.assertion := by
  rw [assertion?, List.findSome?_cons, List.findSome?_nil]
  cases i.assertion <;> rfl

private theorem claims_singleton (i : Identity) : (Principal.mk [i]).claims = i.claims := by
  rw [claims, List.flatMap_singleton]

end Principal

/-- A scheme session says the same as the identity session that stands for it. -/
private theorem IdentitySession.translates_toScheme : HostSession.Translates IdentitySession.toScheme where
  authenticationType _ := rfl
  principalName? s := Principal.name?_singleton s.identity
  assertion? s := Principal.assertion?_singleton s.identity
  claimEntries s := congrArg (List.map Claim.entry) (Principal.claims_singleton s.identity)
  properties _ := rfl
  ofTicket _ _ := rfl

/-- The two shapes do alike. The same ticket, or the same error, comes of an identity session and of the
scheme session with its identity alone. What is restored from a ticket is one identity with one scheme
and one set of properties, in either shape. So stores for the two shapes give paired answers over
every run, and leave the same behind. -/
theorem SessionStore.shapes_alike (b : Storage) :
    (∀ (settings : SessionSettings) (id : String) (i : Identity) (p : Properties),
      ticketOf settings id (SchemeSession.mk (i.authenticationType.getD "") ⟨[i]⟩ p) =
        ticketOf settings id (IdentitySession.mk i p)) ∧
    (∀ (key : String) (t : ServiceTicket), ∃ (j : Identity) (scheme : String) (r : Properties),
      j.authenticationType = some scheme ∧
        (HostSession.ofTicket key t : IdentitySession) = ⟨j, r⟩ ∧
        (HostSession.ofTicket key t : SchemeSession) = ⟨scheme, ⟨[j]⟩, r⟩) ∧
    ∀ (c : b.State) (calls : Calls (UserCall b IdentitySession)),
      b.machine.run c (calls.map (Prod.map id (UserCall.map IdentitySession.toScheme))) =
        ((b.machine.run c calls).1.map
            (Prod.map (UserCall.map IdentitySession.toScheme) (UserAnswer.map IdentitySession.toScheme)),
          (b.machine.run c calls).2) := by
  refine ⟨?_, ?_, ?_⟩
  · intro settings id i p
    exact IdentitySession.translates_toScheme.ticketOf settings id ⟨i, p⟩
  · intro key t
    exact ⟨restoredIdentity t, t.authenticationType, restoredProperties key t.assertion, rfl, rfl, rfl⟩
  · exact IdentitySession.translates_toScheme.run b

end SessionTickets
