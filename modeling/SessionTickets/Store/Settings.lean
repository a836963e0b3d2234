import SessionTickets.Time.Span

namespace SessionTickets

open Time

/-- Settings of a ticket store. -/
structure StoreSettings where
  /-- What the keys of a local store begin with in the shared cache. -/
  keyPrefix : String
  /-- The capacity of the cache of a local store. -/
  maxEntries : Nat
  /-- The interval between sweeps of a local store. -/
  cleanupInterval : Span
  /-- The longest that a call of a remote store may take. -/
  operationTimeout : Option Span
deriving DecidableEq

def StoreSettings.standard : StoreSettings :=
  ⟨"cas-st:", 10000, .ofSeconds 60, none⟩

/-- Settings of a session store. -/
structure SessionSettings where
  /-- Whether an assertion is made for sessions that have none. -/
  synthesizeAssertion : Bool
deriving DecidableEq

def SessionSettings.standard : SessionSettings :=
  ⟨true⟩

end SessionTickets
