import SessionTickets.SortedMap
import SessionTickets.Store.Error

namespace SessionTickets

open Time

/-- Bytes with a deadline. -/
@[ext] structure Payload where
  bytes : List UInt8
  deadline : Option Instant
deriving DecidableEq

/-- A cache of byte payloads that stands for one in another process. Each call takes a fixed time and may be
made to fail. The cache may or may not drop payloads at their deadlines; it records them in either case. -/
@[ext] structure PayloadCache where
  entries : SortedMap Payload
  /-- Whether payloads are dropped at their deadlines. -/
  honorsDeadlines : Bool
  /-- Whether calls fail. -/
  failing : Bool
  /-- How long a call takes. -/
  latency : Span

namespace PayloadCache

def empty (honorsDeadlines : Bool) (latency : Span) : PayloadCache :=
  ⟨.empty, honorsDeadlines, false, latency⟩

/-- Makes a call, which leaves the cache as it is if the cache fails. -/
def call {α : Type} (operation : PayloadCache → α × PayloadCache) (c : PayloadCache) :
    Except StoreError α × PayloadCache :=
  if c.failing then
    (.error (.backend "injected cache failure"), c)
  else
    let (answer, c) := operation c
    (.ok answer, c)

/-- Whether a payload is past its deadline in the eyes of the cache. -/
def isExpired (now : Instant) (p : Payload) (c : PayloadCache) : Bool :=
  c.honorsDeadlines && p.deadline.any (· ≤ now)

/-- The bytes at a key; a payload past its deadline is dropped. -/
def get (now : Instant) (key : String) : PayloadCache → Except StoreError (Option (List UInt8)) × PayloadCache :=
  call fun c =>
    match c.entries.find? key with
    | some p =>
      if c.isExpired now p then (none, { c with entries := c.entries.erase key })
      else (some p.bytes, c)
    | none => (none, c)

/-- Puts a payload at a key, in place of any other. -/
def set (key : String) (p : Payload) : PayloadCache → Except StoreError Unit × PayloadCache :=
  call fun c => ((), { c with entries := c.entries.insert key p })

def remove (key : String) : PayloadCache → Except StoreError Unit × PayloadCache :=
  call fun c => ((), { c with entries := c.entries.erase key })

/-- Plants bytes without a deadline, past all calls. -/
def plant (key : String) (bytes : List UInt8) (c : PayloadCache) : PayloadCache :=
  { c with entries := c.entries.insert key ⟨bytes, none⟩ }

/-- The payload at a key, past its deadline or not. -/
def payload? (key : String) (c : PayloadCache) : Option Payload :=
  c.entries.find? key

end PayloadCache

end SessionTickets
