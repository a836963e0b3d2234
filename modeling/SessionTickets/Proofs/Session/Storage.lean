import SessionTickets.Proofs.Session.Calls
import SessionTickets.Proofs.Store.Held

namespace SessionTickets

open Time

/-- What is behind a session store: a bounded cache, in which the keys begin with a prefix, or a cache of
payloads, whose calls may take a limited time. All that a session store sees of it is what its ticket store
answers for a key. That answer stays over every call that spares the key, and a call that writes the key sets
it. -/
inductive Storage where
  | bounded (keyPrefix : String) (capacity : Nat)
  | payloads (limit : Option Span) (honorsDeadlines : Bool) (latency : Span)

namespace Storage

def State : Storage → Type
  | bounded .. => SharedCache
  | payloads .. => PayloadCache

/-- What is behind the store when nothing was kept yet. -/
def start : (b : Storage) → b.State
  | bounded _ capacity => BoundedCache.empty capacity
  | payloads _ honorsDeadlines latency => PayloadCache.empty honorsDeadlines latency

def tickets : (b : Storage) → TicketStore b.State
  | bounded keyPrefix _ => localStore keyPrefix
  | payloads limit .. => remoteStore limit

/-- A call of anyone who uses what is behind the store. -/
def Use : Storage → Type
  | bounded .. => SharedCall
  | payloads .. => PayloadCall

def UseAnswer : Storage → Type
  | bounded .. => SharedAnswer
  | payloads .. => Option StoreAnswer

def uses : (b : Storage) → Machine b.State b.Use b.UseAnswer
  | bounded .. => SharedCache.machine
  | payloads limit .. => PayloadCache.machine limit

/-- A call of the ticket store itself. -/
def ofStore : (b : Storage) → StoreCall → b.Use
  | bounded keyPrefix _ => SharedCall.store keyPrefix
  | payloads .. => PayloadCall.store

/-- A use leaves a key of the store alone. It pushes nothing out of a bounded cache, and makes no calls
to a cache of payloads fail. -/
def Spares : (b : Storage) → String → Instant → b.State → b.Use → Prop
  | bounded keyPrefix _, key, now, c, use =>
    ∀ call ∈ SharedCall.cacheCall? use, CacheCall.Spares (keyPrefix ++ key) now c call
  | payloads .., key, _, c, use => PayloadCall.Spares key c use

/-- The ticket that is held under a key, whether it has expired or not. -/
def ticket? : (b : Storage) → b.State → String → Option ServiceTicket
  | bounded keyPrefix _ => LocalStore.ticket? keyPrefix
  | payloads .. => RemoteStore.ticket?

/-- A ticket is held under a key with its own deadline. -/
def Holds : (b : Storage) → b.State → String → ServiceTicket → Prop
  | bounded keyPrefix _ => LocalStore.Holds keyPrefix
  | payloads .. => RemoteStore.Holds

end Storage

/-- A call of a session store, or another use of what is behind it. -/
inductive UserCall (b : Storage) (η : Type) where
  | session (settings : SessionSettings) (call : SessionCall η)
  | other (use : b.Use)

inductive UserAnswer (b : Storage) (η : Type) where
  | session (answer : SessionAnswer η)
  | other (answer : b.UseAnswer)

namespace Storage

variable {b : Storage} {η : Type} [HostSession η]

/-- A session store over what is behind it. -/
def sessions (b : Storage) (settings : SessionSettings) : SessionStore b.State :=
  ⟨b.tickets, settings⟩

/-- A session store has the settings that it was made with. -/
@[simp] theorem sessions_settings (b : Storage) (settings : SessionSettings) :
    (b.sessions settings).settings = settings := rfl

/-- Calls of session stores and other uses of what is behind them. -/
def machine (b : Storage) : Machine b.State (UserCall b η) (UserAnswer b η) := fun now call c =>
  match call with
  | .session settings call =>
    (.session ((b.sessions settings).machine now call c).1,
      ((b.sessions settings).machine now call c).2)
  | .other use => (.other (b.uses now use c).1, (b.uses now use c).2)

end Storage

/-- What a call of a user comes to. -/
def UserCall.use? {b : Storage} {η : Type} [HostSession η] : UserCall b η → Option b.Use
  | .session settings call => (call.storeCall? settings).map b.ofStore
  | .other use => some use

/-- A call leaves a key of the store alone, as a use of what is behind it. -/
def UserCall.Spares {b : Storage} {η : Type} [HostSession η] (key : String) (now : Instant)
    (c : b.State) (call : UserCall b η) : Prop :=
  ∀ use ∈ call.use?, b.Spares key now c use

namespace Storage

variable {b : Storage} {η : Type} [HostSession η] {c : b.State} {now later : Instant} {key : String}

/-- A call of the ticket store is one of the uses of what is behind it. -/
theorem uses_ofStore (b : Storage) (now : Instant) (call : StoreCall) (c : b.State) :
    (b.uses now (b.ofStore call) c).2 = (b.tickets.machine now call c).2 := by
  cases b <;> rfl

/-- A call of a user comes to one use or to none. -/
private theorem machine_eq_use (now : Instant) (call : UserCall b η) (c : b.State) :
    (b.machine now call c).2 = call.use?.elim c fun use => (b.uses now use c).2 := by
  cases call with
  | session settings call =>
    have hcall := (b.sessions settings).machine_eq_storeCall now call c
    simp only [machine, UserCall.use?]
    rw [hcall, sessions_settings]
    cases call.storeCall? settings with
    | none => rfl
    | some call => exact (b.uses_ofStore now call c).symm
  | other use => rfl

/-- The invariant of what is behind a store. -/
def Sound : (b : Storage) → b.State → Prop
  | bounded .., c => BoundedCache.Consistent c
  | payloads .., _ => True

/-- The calls of the store get through. -/
def Reached : (b : Storage) → b.State → Prop
  | bounded .., _ => True
  | payloads limit .., c => RemoteStore.Reaches limit c

/-- Every use keeps the invariant. -/
theorem sound_uses (h : b.Sound c) (use : b.Use) : b.Sound (b.uses now use c).2 := by
  cases b with
  | bounded keyPrefix capacity => exact BoundedCache.Consistent.sharedStep h now use
  | payloads limit honorsDeadlines latency => trivial

/-- Every call of a user keeps the invariant. -/
theorem sound_machine (h : b.Sound c) (call : UserCall b η) : b.Sound (b.machine now call c).2 := by
  rw [machine_eq_use]
  cases call.use? with
  | none => exact h
  | some use => exact sound_uses h use

/-- The invariant holds at first. -/
theorem sound_start (b : Storage) : b.Sound b.start := by
  cases b with
  | bounded keyPrefix capacity => exact BoundedCache.consistent_empty capacity
  | payloads limit honorsDeadlines latency => trivial

/-- The invariant holds after every run. -/
theorem sound_run (b : Storage) (calls : Calls (UserCall b η)) :
    b.Sound (b.machine.run b.start calls).2 :=
  Machine.run_invariant (P := fun _ c => b.Sound c) (sound_start b)
    (fun _ _ _ call h => sound_machine h call) calls

/-- A store that has kept a ticket gets its calls through. -/
theorem reached_of_store {ticket : ServiceTicket}
    (h : (b.tickets.store ticket now c).1 = .ok key) : b.Reached c := by
  cases b with
  | bounded keyPrefix capacity => trivial
  | payloads limit honorsDeadlines latency => exact RemoteStore.reaches_of_store h

/-- A store that answers for a key gets its calls through. -/
theorem reached_of_retrieve {answer : Option ServiceTicket}
    (h : (b.tickets.retrieve key now c).1 = .ok answer) : b.Reached c := by
  cases b with
  | bounded keyPrefix capacity => trivial
  | payloads limit honorsDeadlines latency => exact RemoteStore.reaches_of_retrieve h

/-- A store does not answer for an empty key. -/
theorem key_ne_of_retrieve {answer : Option ServiceTicket}
    (h : (b.tickets.retrieve key now c).1 = .ok answer) : key ≠ "" := by
  intro hkey
  cases b with
  | bounded keyPrefix capacity =>
    simp only [tickets, localStore, withKey, if_pos hkey] at h
    cases h
  | payloads limit honorsDeadlines latency =>
    simp only [tickets, remoteStore, withKey, if_pos hkey] at h
    cases h

/-- What a store answers for a key stays over every use that spares it. -/
theorem retrieve_uses (hsound : b.Sound c) (hreached : b.Reached c) {use : b.Use}
    (h : b.Spares key now c use) (hle : now ≤ later) :
    b.Reached (b.uses now use c).2 ∧
      (b.tickets.retrieve key later (b.uses now use c).2).1 = (b.tickets.retrieve key later c).1 := by
  cases b with
  | bounded keyPrefix capacity =>
    exact ⟨trivial, LocalStore.retrieve_sharedMachine hsound h hle⟩
  | payloads limit honorsDeadlines latency =>
    have hsame : PayloadCache.SameAt key now c (PayloadCache.machine limit now use c).2 :=
      PayloadCache.sameAt_machine h
    exact ⟨RemoteStore.reaches_of_sameAt hreached hsame,
      RemoteStore.retrieve_eq_of_sameAt hreached hle hsame⟩

/-- What a store answers for a key stays over a call that spares it. -/
theorem retrieve_machine (hsound : b.Sound c) (hreached : b.Reached c) {call : UserCall b η}
    (h : call.Spares key now c) (hle : now ≤ later) :
    b.Reached (b.machine now call c).2 ∧
      (b.tickets.retrieve key later (b.machine now call c).2).1 = (b.tickets.retrieve key later c).1 := by
  rw [machine_eq_use]
  cases huse : call.use? with
  | none => exact ⟨hreached, rfl⟩
  | some use => exact retrieve_uses hsound hreached (h use huse) hle

/-- A ticket that is served is held. -/
theorem ticket?_of_retrieve (hsound : b.Sound c) {ticket : ServiceTicket}
    (hserved : (b.tickets.retrieve key now c).1 = .ok (some ticket)) :
    b.ticket? c key = some ticket := by
  cases b with
  | bounded keyPrefix capacity => exact LocalStore.ticket?_of_retrieve hsound hserved
  | payloads limit honorsDeadlines latency => exact RemoteStore.ticket?_of_retrieve hserved

/-- A ticket that is served now is served later, or nothing is. -/
theorem retrieve_later (hsound : b.Sound c) (hle : now ≤ later) {ticket : ServiceTicket}
    (hserved : (b.tickets.retrieve key now c).1 = .ok (some ticket)) :
    (b.tickets.retrieve key later c).1 = .ok (some ticket) ∨
      (b.tickets.retrieve key later c).1 = .ok none := by
  cases b with
  | bounded keyPrefix capacity => exact LocalStore.retrieve_later hsound hle hserved
  | payloads limit honorsDeadlines latency => exact RemoteStore.retrieve_later later hserved

/-- A ticket is held under a key with its own deadline, and calls get through to it. -/
structure Keeps (b : Storage) (key : String) (ticket : ServiceTicket) (c : b.State) : Prop where
  sound : b.Sound c
  reached : b.Reached c
  key_ne : key ≠ ""
  holds : b.Holds c key ticket

/-- A ticket that is kept is held. -/
theorem Keeps.ticket? {ticket : ServiceTicket} (h : b.Keeps key ticket c) :
    b.ticket? c key = some ticket := by
  cases b with
  | bounded keyPrefix capacity => exact LocalStore.Holds.ticket? h.holds
  | payloads limit honorsDeadlines latency => exact RemoteStore.Holds.ticket? h.holds

/-- A ticket that is kept is served until its assertion ends. -/
theorem Keeps.served {ticket : ServiceTicket} (h : b.Keeps key ticket c) (later : Instant) :
    (b.tickets.retrieve key later c).1 =
      .ok (if ticket.assertion.validUntil.any (· ≤ later) then none else some ticket) := by
  cases b with
  | bounded keyPrefix capacity => exact LocalStore.Holds.retrieve h.holds h.sound h.key_ne later
  | payloads limit honorsDeadlines latency =>
    exact RemoteStore.Holds.retrieve h.holds h.reached h.key_ne later

private theorem keeps_put {keyPrefix : String} {capacity : Nat} {c : SharedCache} (h : c.Consistent)
    (hkey : key ≠ "") (ticket : ServiceTicket) (now : Instant) :
    (bounded keyPrefix capacity).Keeps key ticket (LocalStore.put keyPrefix key ticket now c) where
  sound := h.set now _ _ _
  reached := trivial
  key_ne := hkey
  holds := LocalStore.holds_put keyPrefix key ticket now c

private theorem keeps_write {limit : Option Span} {honorsDeadlines : Bool} {latency : Span} {c : PayloadCache}
    (h : RemoteStore.Reaches limit c) (hkey : key ≠ "") (ticket : ServiceTicket) :
    (payloads limit honorsDeadlines latency).Keeps key ticket
      (RemoteStore.write limit key ticket c).2 where
  sound := trivial
  reached := by
    rw [RemoteStore.write_eq h]
    exact ⟨h.working, h.patient⟩
  key_ne := hkey
  holds := RemoteStore.holds_write h key ticket

/-- A ticket that is put under a key is kept there. -/
theorem renew_keeps (hsound : b.Sound c) (hreached : b.Reached c) (hkey : key ≠ "")
    (ticket : ServiceTicket) (now : Instant) :
    (b.tickets.renew key ticket now c).1 = .ok () ∧
      b.Keeps key ticket (b.tickets.renew key ticket now c).2 := by
  cases b with
  | bounded keyPrefix capacity =>
    simp only [tickets, localStore, withKey, if_neg hkey]
    exact ⟨trivial, keeps_put hsound hkey ticket now⟩
  | payloads limit honorsDeadlines latency =>
    simp only [tickets, remoteStore, withKey, if_neg hkey]
    exact ⟨congrArg Prod.fst (RemoteStore.write_eq hreached key ticket),
      keeps_write hreached hkey ticket⟩

/-- A ticket that is stored is kept under its id. -/
theorem store_keeps (hsound : b.Sound c) (hreached : b.Reached c) (ticket : ServiceTicket)
    (now : Instant) :
    (b.tickets.store ticket now c).1 = .ok ticket.id ∧
      b.Keeps ticket.id ticket (b.tickets.store ticket now c).2 := by
  cases b with
  | bounded keyPrefix capacity => exact ⟨rfl, keeps_put hsound ticket.id_ne ticket now⟩
  | payloads limit honorsDeadlines latency =>
    have hkeeps : (payloads limit honorsDeadlines latency).Keeps ticket.id ticket _ :=
      keeps_write hreached ticket.id_ne ticket
    have hstate := RemoteStore.state_store limit ticket now c
    refine ⟨?_, ?_⟩
    · simp only [tickets, remoteStore, RemoteStore.write_eq hreached ticket.id ticket]
    · simp only [tickets]
      rw [hstate]
      exact hkeeps

/-- A session was stored under a key, and from then up to a time no call has touched the key or pushed
it out, while calls got through and the clock did not go backwards. -/
def Stored (b : Storage) (settings : SessionSettings) (fresh : String) (session : η) (key : String)
    (now : Instant) (c : b.State) : Prop :=
  ∃ (before between : Calls (UserCall b η)) (stored : Instant),
    let operation := (b.sessions settings).store fresh session stored (b.machine.run b.start before).2
    operation.1 = .ok key ∧ ClockForward stored between now ∧
      b.machine.Throughout (fun _ time call c => call.Spares key time c) [] operation.2 between ∧
      c = (b.machine.run operation.2 between).2

/-- What a store answers for a key stays over a run of calls that spare it. -/
theorem retrieve_run (hsound : b.Sound c) (hreached : b.Reached c) {start stop : Instant}
    {calls : Calls (UserCall b η)} (hclock : ClockForward start calls stop)
    (hcalls : b.machine.Throughout (fun _ time call c => call.Spares key time c) [] c calls) :
    (b.tickets.retrieve key stop (b.machine.run c calls).2).1 = (b.tickets.retrieve key stop c).1 := by
  have hrun := b.machine.run_lasts
    (fun now _ c' => b.Sound c' ∧ b.Reached c' ∧ ∀ later, now ≤ later →
      (b.tickets.retrieve key later c').1 = (b.tickets.retrieve key later c).1)
    (fun hle h => ⟨h.1, h.2.1, fun _ hlater => h.2.2 _ (Instant.le_trans hle hlater)⟩)
    (fun hspares h => ⟨sound_machine h.1 _, (retrieve_machine h.1 h.2.1 hspares (Instant.le_refl _)).1,
      fun later hlater => (retrieve_machine h.1 h.2.1 hspares hlater).2.trans (h.2.2 later hlater)⟩)
    hclock hcalls ⟨hsound, hreached, fun _ _ => rfl⟩
  exact hrun.2.2 stop (Instant.le_refl stop)

end Storage

end SessionTickets
