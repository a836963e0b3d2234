import SessionTickets.Proofs.Session.Storage

namespace SessionTickets

open Time

namespace Storage

variable {b : Storage} {c : b.State} {now : Instant}

/-- Every ticket that is held is kept under its id, as a session store writes it. -/
def KeepsOwn (b : Storage) (c : b.State) : Prop :=
  ∀ key t, b.ticket? c key = some t → t.id = key ∧ b.Keeps key t c

private theorem keepsOwn_start (b : Storage) : b.KeepsOwn b.start := by
  intro key t hticket
  cases b with
  | bounded keyPrefix capacity => cases hticket
  | payloads limit honorsDeadlines latency => cases hticket

/-- A call that writes tickets under their ids keeps it so. -/
theorem KeepsOwn.machine (h : b.KeepsOwn c) (hsound : b.Sound c) {call : StoreCall}
    (hcall : ∀ {key t}, call.Writes key t → t.id = key) :
    b.KeepsOwn (b.tickets.machine now call c).2 := by
  intro key t hticket
  have hsound' : b.Sound (b.tickets.machine now call c).2 := by
    rw [← uses_ofStore]
    exact sound_uses hsound _
  have hwritten : call.Writes key t → key ≠ "" := fun hwrites => hcall hwrites ▸ t.id_ne
  cases b with
  | bounded keyPrefix capacity =>
    rcases LocalStore.ticket?_machine hsound hticket with hsame | ⟨hwrites, hholds⟩
    · obtain ⟨hid, hkeeps⟩ := h key t ((congrArg (Option.bind · _) hsame).symm.trans hticket)
      obtain ⟨held, hheld, hrest⟩ := hkeeps.holds
      exact ⟨hid, hsound', trivial, hkeeps.key_ne, held, hsame.trans hheld, hrest⟩
    · exact ⟨hcall hwrites, hsound', trivial, hwritten hwrites, hholds⟩
  | payloads limit honorsDeadlines latency =>
    obtain hsame | ⟨hreaches, hwrites, hholds⟩ := RemoteStore.ticket?_machine hticket
    · obtain ⟨hid, hkeeps⟩ := h key t ((congrArg (Option.bind · _) hsame).symm.trans hticket)
      exact ⟨hid, hsound', RemoteStore.reaches_machine hkeeps.reached now call, hkeeps.key_ne,
        hsame.trans hkeeps.holds⟩
    · exact ⟨hcall hwrites, hsound', RemoteStore.reaches_machine hreaches now call, hwritten hwrites,
        hholds⟩

end Storage

/-- A session store writes tickets under their ids. -/
theorem SessionCall.id_of_writes {η : Type} [HostSession η] {settings : SessionSettings}
    {call : SessionCall η} {storeCall : StoreCall} (h : call.storeCall? settings = some storeCall)
    {key : String} {t : ServiceTicket} (hwrites : storeCall.Writes key t) : t.id = key := by
  cases storeCall with
  | store ticket =>
    obtain ⟨rfl, hid⟩ := hwrites
    exact hid
  | retrieve k => exact hwrites.elim
  | renew k ticket =>
    obtain ⟨rfl, rfl⟩ := hwrites
    cases call with
    | store fresh session =>
      obtain ⟨made, -, hmade⟩ := Option.map_eq_some_iff.1 h
      cases hmade
    | renew k' session =>
      rw [SessionCall.storeCall?] at h
      cases hmade : SessionStore.ticketOf settings k' session with
      | error e =>
        rw [hmade] at h
        cases h
      | ok made =>
        rw [hmade] at h
        cases h
        exact (SessionStore.ticketOf_eq_ok hmade).1
    | retrieve k' => cases h
    | remove k' => cases h
    | signOut k' =>
      rw [SessionCall.storeCall?] at h
      split at h <;> cases h
  | remove k => exact hwrites.elim

namespace Storage

variable {b : Storage} {η : Type} [HostSession η]

/-- The calls of one session store keep every ticket under its id. -/
theorem keepsOwn_run (settings : SessionSettings) (calls : Calls (SessionCall η)) :
    b.KeepsOwn ((b.sessions settings).machine.run b.start calls).2 := by
  have hrun : b.Sound ((b.sessions settings).machine.run b.start calls).2 ∧
      b.KeepsOwn ((b.sessions settings).machine.run b.start calls).2 := by
    apply Machine.run_invariant (P := fun _ c => b.Sound c ∧ b.KeepsOwn c)
    · exact ⟨sound_start b, keepsOwn_start b⟩
    · rintro _ c now call ⟨hsound, hown⟩
      have hsound' : b.Sound (b.machine now (.session settings call) c).2 := sound_machine hsound _
      refine ⟨hsound', ?_⟩
      rw [SessionStore.machine_eq_storeCall]
      cases hcall : call.storeCall? (b.sessions settings).settings with
      | none => exact hown
      | some storeCall => exact hown.machine hsound (SessionCall.id_of_writes hcall)
  exact hrun.2

end Storage

end SessionTickets
