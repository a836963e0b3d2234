import SessionTickets.Store.Error

namespace SessionTickets

open Time

/-- An operation at a time on a state: an answer or an error, and the next state. -/
abbrev Operation (σ α : Type) := Instant → σ → Except StoreError α × σ

/-- The operations of a ticket store with states of one type. -/
structure TicketStore (σ : Type) where
  /-- Keeps a ticket under its own id, and answers with that key. -/
  store : ServiceTicket → Operation σ String
  /-- The ticket under a key, unless there is none or it has expired. -/
  retrieve : String → Operation σ (Option ServiceTicket)
  /-- Keeps a ticket under a key. -/
  renew : String → ServiceTicket → Operation σ Unit
  /-- Drops the ticket under a key, if there is one. -/
  remove : String → Operation σ Unit

/-- An operation that takes no empty key. -/
def withKey {σ α : Type} (key : String) (operation : Operation σ α) : Operation σ α := fun now s =>
  if key = "" then (.error .emptyKey, s) else operation now s

end SessionTickets
