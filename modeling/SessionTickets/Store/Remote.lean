import SessionTickets.Cache.Payload
import SessionTickets.Store.Basic

namespace SessionTickets

open Time

namespace RemoteStore

/-- Makes a call that may take a limited time. A call that takes longer is given up before it has
done anything. -/
def bounded {α : Type} (limit : Option Span) (call : PayloadCache → Except StoreError α × PayloadCache)
    (c : PayloadCache) : Except StoreError α × PayloadCache :=
  match limit with
  | some span => if span < c.latency then (.error (.timeout span), c) else call c
  | none => call c

/-- Writes a ticket in encoded form, with its deadline for the cache to record. -/
def write (limit : Option Span) (key : String) (ticket : ServiceTicket) (c : PayloadCache) :
    Except StoreError Unit × PayloadCache :=
  bounded limit (PayloadCache.set key ⟨Portable.encode ticket, ticket.deadline⟩) c

/-- Takes bytes for a ticket that has not expired. -/
def ticketOf (now : Instant) (bytes : List UInt8) : Except StoreError (Option ServiceTicket) :=
  match Portable.decode (α := ServiceTicket) bytes with
  | .error e => .error (.ofCodec e)
  | .ok ticket => .ok (if ticket.isExpiredAt now then none else some ticket)

end RemoteStore

/-- The ticket store over a cache of byte payloads. Tickets are kept under their own keys in encoded form. The
store looks at the deadline of a decoded ticket itself, so it does not depend on the cache to drop payloads. A
corrupt payload is reported and stays where it is. -/
def remoteStore (limit : Option Span) : TicketStore PayloadCache where
  store ticket := fun _ c =>
    match RemoteStore.write limit ticket.id ticket c with
    | (.ok (), c) => (.ok ticket.id, c)
    | (.error e, c) => (.error e, c)
  retrieve key := withKey key fun now c =>
    match RemoteStore.bounded limit (PayloadCache.get now key) c with
    | (.ok none, c) => (.ok none, c)
    | (.ok (some bytes), c) => (RemoteStore.ticketOf now bytes, c)
    | (.error e, c) => (.error e, c)
  renew key ticket := withKey key fun _ c => RemoteStore.write limit key ticket c
  remove key := withKey key fun _ c => RemoteStore.bounded limit (PayloadCache.remove key) c

end SessionTickets
