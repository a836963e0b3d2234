import SessionTickets.Cache.Bounded
import SessionTickets.Store.Basic

namespace SessionTickets

open Time

/-- A value in a shared cache: a ticket, or a text of another user. -/
inductive SharedValue where
  | ticket (ticket : ServiceTicket)
  | text (text : String)
deriving DecidableEq

/-- A bounded cache that several users share. -/
abbrev SharedCache := BoundedCache SharedValue

namespace LocalStore

/-- Puts a ticket at its key in the cache, until its deadline. -/
def put (keyPrefix key : String) (ticket : ServiceTicket) (now : Instant) (c : SharedCache) :
    SharedCache :=
  c.set now (keyPrefix ++ key) (.ticket ticket) ticket.deadline

/-- Takes a value for a ticket, which a value of another user is not. -/
def ticketOf (key : String) : Option SharedValue → Except StoreError (Option ServiceTicket)
  | none => .ok none
  | some (.ticket ticket) => .ok (some ticket)
  | some (.text _) => .error (.corrupt (.notATicket key))

end LocalStore

/-- The ticket store in a bounded cache that other users may share. Its keys begin with its prefix in the
cache, and its tickets are held as they are. -/
def localStore (keyPrefix : String) : TicketStore SharedCache where
  store ticket := fun now c => (.ok ticket.id, LocalStore.put keyPrefix ticket.id ticket now c)
  retrieve key := withKey key fun now c =>
    let (value, c) := c.get now (keyPrefix ++ key)
    (LocalStore.ticketOf key value, c)
  renew key ticket := withKey key fun now c => (.ok (), LocalStore.put keyPrefix key ticket now c)
  remove key := withKey key fun _ c => (.ok (), (c.remove (keyPrefix ++ key)).2)

end SessionTickets
