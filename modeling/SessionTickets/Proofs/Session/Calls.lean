import SessionTickets.Proofs.Store.Calls
import SessionTickets.Session.Store

namespace SessionTickets

open Time

/-- A call to a session store. A session without a key of its own is stored under a fresh one. -/
inductive SessionCall (η : Type) where
  | store (fresh : String) (session : η)
  | retrieve (key : String)
  | renew (key : String) (session : η)
  | remove (key : String)
  | signOut (key : String)

inductive SessionAnswer (η : Type) where
  | key (answer : Except StoreError String)
  | session (answer : Except StoreError (Option η))
  | done (answer : Except StoreError Unit)

def SessionAnswer.error? {η : Type} : SessionAnswer η → Option StoreError
  | .key answer => StoreError.of? answer
  | .session answer => StoreError.of? answer
  | .done answer => StoreError.of? answer

variable {σ η : Type} [HostSession η]

/-- Calls to a session store. -/
def SessionStore.machine (s : SessionStore σ) : Machine σ (SessionCall η) (SessionAnswer η) :=
  fun now call c =>
    match call with
    | .store fresh session =>
      (.key (s.store fresh session now c).1, (s.store fresh session now c).2)
    | .retrieve key => (.session (s.retrieve key now c).1, (s.retrieve key now c (η := η)).2)
    | .renew key session => (.done (s.renew key session now c).1, (s.renew key session now c).2)
    | .remove key => (.done (s.remove key now c).1, (s.remove key now c).2)
    | .signOut key => (.done (s.signOut key now c).1, (s.signOut key now c).2)

/-- The call to the ticket store that a call comes to. A session that no ticket can be made of is
refused before. -/
def SessionCall.storeCall? (settings : SessionSettings) : SessionCall η → Option StoreCall
  | .store fresh session =>
    (SessionStore.ticketOf settings (SessionStore.keyOf fresh session) session).toOption.map .store
  | .retrieve key => some (.retrieve key)
  | .renew key session => (SessionStore.ticketOf settings key session).toOption.map (.renew key)
  | .remove key => some (.remove key)
  | .signOut key => if key = "" then none else some (.remove key)

namespace SessionStore

/-- What a ticket of a session is made of. -/
theorem ticketOf_eq_ok {settings : SessionSettings} {id : String} {session : η}
    {ticket : ServiceTicket} (h : ticketOf settings id session = .ok ticket) :
    ticket.id = id ∧ backing settings session = .ok ticket.assertion ∧
      ticket.authenticationType = (HostSession.authenticationType? session).getD "" ∧
      ticket.claims = HostSession.claimEntries session := by
  unfold ticketOf at h
  cases hbacking : backing settings session with
  | error e =>
    rw [hbacking] at h
    cases h
  | ok assertion =>
    rw [hbacking] at h
    change (ServiceTicket.create _ _ _ _ _ _).mapError _ = _ at h
    unfold ServiceTicket.create at h
    split at h
    · cases h
    · split at h
      · cases h
      · cases h
        exact ⟨rfl, rfl, rfl, rfl⟩

/-- A session of which no ticket can be made has no assertion, or breaks a rule of tickets. -/
theorem error_of_ticketOf {settings : SessionSettings} {id : String} {session : η} {e : StoreError}
    (h : ticketOf settings id session = .error e) :
    (∃ name, e = .notBacked name) ∨ ∃ fault, e = .invalidTicket fault := by
  have hfault : ∀ {α : Type} {made : Except TicketError α} {e : StoreError},
      made.mapError .invalidTicket = .error e → ∃ fault, e = .invalidTicket fault := by
    intro α made e hmade
    cases made with
    | ok made => cases hmade
    | error fault =>
      cases hmade
      exact ⟨fault, rfl⟩
  unfold ticketOf at h
  cases hbacking : backing settings session with
  | ok assertion =>
    rw [hbacking] at h
    exact .inr (hfault h)
  | error e' =>
    rw [hbacking] at h
    cases h
    unfold backing synthesize at hbacking
    split at hbacking
    · cases hbacking
    · split at hbacking
      · exact .inr (hfault hbacking)
      · cases hbacking
        exact .inl ⟨_, rfl⟩

/-- A session that is stored is stored as its ticket. -/
theorem store_eq_ok {s : SessionStore σ} {fresh key : String} {session : η} {now : Instant} {c : σ}
    (h : (s.store fresh session now c).1 = .ok key) :
    ∃ ticket, ticketOf s.settings (keyOf fresh session) session = .ok ticket ∧
      s.store fresh session now c = s.tickets.store ticket now c := by
  unfold store at h ⊢
  cases hticket : ticketOf s.settings (keyOf fresh session) session with
  | error e =>
    rw [hticket] at h
    cases h
  | ok ticket => exact ⟨ticket, rfl, rfl⟩

/-- What is looked for is the session that a ticket stands for. -/
theorem retrieve_eq (s : SessionStore σ) (key : String) (now : Instant) (c : σ) :
    s.retrieve key now c =
      ((s.tickets.retrieve key now c).1.map (Option.map (HostSession.ofTicket key : ServiceTicket → η)),
        (s.tickets.retrieve key now c).2) := by
  unfold retrieve
  rcases s.tickets.retrieve key now c with ⟨answer, c'⟩
  cases answer <;> rfl

/-- A session is found exactly if a ticket is, and it is the one that the ticket stands for. -/
theorem retrieve_eq_ok {s : SessionStore σ} {key : String} {now : Instant} {c : σ} {found : Option η} :
    (s.retrieve key now c).1 = .ok found ↔ ∃ ticket : Option ServiceTicket,
      (s.tickets.retrieve key now c).1 = .ok ticket ∧ ticket.map (HostSession.ofTicket key) = found := by
  rw [retrieve_eq]
  cases (s.tickets.retrieve key now c).1 with
  | error e => simp [Except.map]
  | ok ticket => simp [Except.map]

/-- Each call comes to one call of the ticket store or to none. -/
theorem machine_eq_storeCall (s : SessionStore σ) (now : Instant) (call : SessionCall η) (c : σ) :
    (s.machine now call c).2 =
      (call.storeCall? s.settings).elim c fun call => (s.tickets.machine now call c).2 := by
  cases call with
  | store fresh session =>
    simp only [machine, store, SessionCall.storeCall?]
    cases ticketOf s.settings (keyOf fresh session) session <;> rfl
  | retrieve key =>
    simp only [machine, retrieve_eq]
    rfl
  | renew key session =>
    simp only [machine, renew, withKey, SessionCall.storeCall?]
    cases hticket : ticketOf s.settings key session with
    | error e => split <;> rfl
    | ok ticket =>
      have hkey : key ≠ "" := (ticketOf_eq_ok hticket).1 ▸ ticket.id_ne
      rw [if_neg hkey]
      rfl
  | remove key => rfl
  | signOut key =>
    simp only [machine, signOut, withKey, SessionCall.storeCall?]
    split <;> rfl

/-- A call fails exactly if the call of the ticket store that it comes to does. -/
theorem error?_machine (s : SessionStore σ) (now : Instant) {call : SessionCall η} {storeCall : StoreCall}
    (h : call.storeCall? s.settings = some storeCall) (c : σ) :
    (s.machine now call c).1.error? = (s.tickets.machine now storeCall c).1.error? := by
  cases call with
  | store fresh session =>
    obtain ⟨made, hmade, rfl⟩ := Option.map_eq_some_iff.1 h
    simp only [machine, store]
    cases hticket : ticketOf s.settings (keyOf fresh session) session with
    | error e =>
      rw [hticket] at hmade
      cases hmade
    | ok ticket =>
      rw [hticket] at hmade
      cases hmade
      rfl
  | retrieve key =>
    cases h
    simp only [machine, retrieve_eq, TicketStore.machine]
    cases (s.tickets.retrieve key now c).1 <;> rfl
  | renew key session =>
    obtain ⟨made, hmade, rfl⟩ := Option.map_eq_some_iff.1 h
    simp only [machine, renew, withKey]
    cases hticket : ticketOf s.settings key session with
    | error e =>
      rw [hticket] at hmade
      cases hmade
    | ok ticket =>
      rw [hticket] at hmade
      cases hmade
      have hkey : key ≠ "" := (ticketOf_eq_ok hticket).1 ▸ made.id_ne
      rw [if_neg hkey]
      rfl
  | remove key =>
    cases h
    rfl
  | signOut key =>
    rw [SessionCall.storeCall?] at h
    split at h
    · cases h
    · next hkey =>
      cases h
      simp only [machine, signOut, withKey, if_neg hkey]
      rfl

/-- A call that comes to no call of the ticket store does not look at what is held. -/
theorem ne_corrupt_of_storeCall?_eq_none (s : SessionStore σ) {now : Instant} {call : SessionCall η} {c : σ}
    {e : StoreError} (hcall : call.storeCall? s.settings = none) (h : (s.machine now call c).1.error? = some e)
    (cause : Corruption) : e ≠ .corrupt cause := by
  have hmade : ∀ {id : String} {session : η}, (ticketOf s.settings id session).toOption = none →
      ∃ e', ticketOf s.settings id session = .error e' ∧ e' ≠ .corrupt cause := by
    intro id session hnone
    cases hticket : ticketOf s.settings id session with
    | ok ticket =>
      rw [hticket] at hnone
      cases hnone
    | error e' =>
      refine ⟨e', rfl, ?_⟩
      obtain ⟨name, rfl⟩ | ⟨fault, rfl⟩ := error_of_ticketOf hticket
      · exact fun h => StoreError.noConfusion h
      · exact fun h => StoreError.noConfusion h
  cases call with
  | store fresh session =>
    obtain ⟨e', hticket, hne⟩ := hmade (Option.map_eq_none_iff.1 hcall)
    simp only [machine, store, hticket] at h
    cases h
    exact hne
  | retrieve key => cases hcall
  | renew key session =>
    obtain ⟨e', hticket, hne⟩ := hmade (Option.map_eq_none_iff.1 hcall)
    by_cases hkey : key = ""
    · simp only [machine, renew, withKey, if_pos hkey] at h
      cases h
      exact fun h => StoreError.noConfusion h
    · simp only [machine, renew, withKey, if_neg hkey, hticket] at h
      cases h
      exact hne
  | remove key => cases hcall
  | signOut key =>
    by_cases hkey : key = ""
    · simp only [machine, signOut, withKey, if_pos hkey] at h
      cases h
      exact fun h => StoreError.noConfusion h
    · rw [SessionCall.storeCall?, if_neg hkey] at hcall
      cases hcall

/-- A call that fails was refused before anything was looked at, or the call of the ticket store that it
comes to fails. -/
theorem machine_of_error (s : SessionStore σ) {now : Instant} {call : SessionCall η} {c : σ} {e : StoreError}
    (h : (s.machine now call c).1.error? = some e) :
    (∀ cause, e ≠ .corrupt cause) ∧ (s.machine now call c).2 = c ∨
      ∃ storeCall, call.storeCall? s.settings = some storeCall ∧
        (s.tickets.machine now storeCall c).1.error? = some e ∧
        (s.machine now call c).2 = (s.tickets.machine now storeCall c).2 := by
  have hnext := s.machine_eq_storeCall now call c
  cases hcall : call.storeCall? s.settings with
  | none =>
    rw [hcall] at hnext
    exact .inl ⟨s.ne_corrupt_of_storeCall?_eq_none hcall h, hnext⟩
  | some storeCall =>
    rw [hcall] at hnext
    exact .inr ⟨storeCall, rfl, (s.error?_machine now hcall c).symm.trans h, hnext⟩

/-- Session stores answer alike, and end in related states, where their ticket stores do. -/
theorem machine_agree {τ : Type} {R : σ → τ → Prop} {tickets : TicketStore σ} {tickets' : TicketStore τ}
    {now : Instant} {c : σ} {d : τ} (hrelated : R c d)
    (h : ∀ call, (tickets.machine now call c).1 = (tickets'.machine now call d).1 ∧
      R (tickets.machine now call c).2 (tickets'.machine now call d).2)
    (settings : SessionSettings) (call : SessionCall η) :
    ((mk tickets settings).machine now call c).1 = ((mk tickets' settings).machine now call d).1 ∧
      R ((mk tickets settings).machine now call c).2 ((mk tickets' settings).machine now call d).2 := by
  constructor
  · have hremove : ∀ key, (tickets.remove key now c).1 = (tickets'.remove key now d).1 :=
      fun key => StoreAnswer.done.inj (h (.remove key)).1
    cases call with
    | store fresh session =>
      simp only [machine, store]
      cases ticketOf settings (keyOf fresh session) session with
      | error e => rfl
      | ok ticket => exact congrArg SessionAnswer.key (StoreAnswer.key.inj (h (.store ticket)).1)
    | retrieve key =>
      have hretrieve : (tickets.retrieve key now c).1 = (tickets'.retrieve key now d).1 :=
        StoreAnswer.ticket.inj (h (.retrieve key)).1
      simp only [machine, retrieve_eq, hretrieve]
    | renew key session =>
      simp only [machine, renew, withKey]
      split
      · rfl
      · cases ticketOf settings key session with
        | error e => rfl
        | ok ticket => exact congrArg SessionAnswer.done (StoreAnswer.done.inj (h (.renew key ticket)).1)
    | remove key => exact congrArg SessionAnswer.done (hremove key)
    | signOut key =>
      simp only [machine, signOut, withKey]
      split
      · rfl
      · exact congrArg SessionAnswer.done (hremove key)
  · rw [machine_eq_storeCall, machine_eq_storeCall]
    cases call.storeCall? settings with
    | none => exact hrelated
    | some call => exact (h call).2

end SessionStore

end SessionTickets
