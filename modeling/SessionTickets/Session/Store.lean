import SessionTickets.Session.Shape
import SessionTickets.Store.Basic
import SessionTickets.Store.Settings

namespace SessionTickets

open Time

/-- A session store keeps sessions of a host as tickets in a ticket store. -/
structure SessionStore (σ : Type) where
  tickets : TicketStore σ
  settings : SessionSettings

namespace SessionStore

variable {σ η : Type} [HostSession η]

/-- The assertion that is made for a session without one, if the settings allow that: of its principal's name
and its own window. A session whose principal has no name is refused. -/
def synthesize (settings : SessionSettings) (session : η) : Except StoreError Assertion :=
  let name := (HostSession.principalName? session).getD ""
  if settings.synthesizeAssertion then
    let window := HostSession.properties session
    (Assertion.create name .empty window.issued window.expires).mapError .invalidTicket
  else
    .error (.notBacked name)

/-- The assertion behind a session: its own, or else one that is made for it. -/
def backing (settings : SessionSettings) (session : η) : Except StoreError Assertion :=
  match HostSession.assertion? session with
  | some assertion => .ok assertion
  | none => synthesize settings session

/-- The ticket with an id that stands for a session. -/
def ticketOf (settings : SessionSettings) (id : String) (session : η) :
    Except StoreError ServiceTicket := do
  let assertion ← backing settings session
  let properties := HostSession.properties session
  (ServiceTicket.create id ((HostSession.authenticationType? session).getD "") assertion
    (HostSession.claimEntries session) properties.issued properties.expires).mapError .invalidTicket

/-- The key under which a session is stored: its own, or else a fresh one. -/
def keyOf (fresh : String) (session : η) : String :=
  (HostSession.properties session).ticketId?.getD fresh

/-- Keeps a session, and answers with its key. -/
def store (s : SessionStore σ) (fresh : String) (session : η) : Operation σ String := fun now c =>
  match ticketOf s.settings (keyOf fresh session) session with
  | .ok ticket => s.tickets.store ticket now c
  | .error e => (.error e, c)

/-- The session under a key, unless there is none or it has expired. -/
def retrieve (s : SessionStore σ) (key : String) : Operation σ (Option η) := fun now c =>
  match s.tickets.retrieve key now c with
  | (.ok ticket, c) => (.ok (ticket.map (HostSession.ofTicket key)), c)
  | (.error e, c) => (.error e, c)

def renew (s : SessionStore σ) (key : String) (session : η) : Operation σ Unit :=
  withKey key fun now c =>
    match ticketOf s.settings key session with
    | .ok ticket => s.tickets.renew key ticket now c
    | .error e => (.error e, c)

def remove (s : SessionStore σ) (key : String) : Operation σ Unit :=
  s.tickets.remove key

/-- Drops the session under a key, which is the id of its ticket. -/
def signOut (s : SessionStore σ) (key : String) : Operation σ Unit :=
  withKey key (s.tickets.remove key)

end SessionStore

end SessionTickets
