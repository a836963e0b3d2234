namespace SessionTickets

/-- A periodic sweep: its interval and when it is due next. A sweep that starts at some time falls due an
interval later and after every further interval. -/
structure Periodic where
  interval : Nat
  next : Nat
  interval_pos : 0 < interval

/-- The sweeps that have started, and the time, in milliseconds, on a clock that moves only while its owner
waits. -/
structure Schedule where
  now : Nat
  sweeps : List Periodic

namespace Periodic

/-- The sweep once a time has come: its next turn is the first one later. -/
def passed (now : Nat) (p : Periodic) : Periodic :=
  if p.next ≤ now then
    { p with next := p.next + ((now - p.next) / p.interval + 1) * p.interval }
  else
    p

end Periodic

namespace Schedule

/-- No sweep has started, and no time has passed. -/
def idle : Schedule := ⟨0, []⟩

/-- Starts a sweep. Without an interval there is none. -/
def start (interval : Nat) (s : Schedule) : Schedule :=
  if h : 0 < interval then
    { s with sweeps := ⟨interval, s.now + interval, h⟩ :: s.sweeps }
  else
    s

/-- No sweep falls due any more. The time goes on. -/
def stop (s : Schedule) : Schedule :=
  { s with sweeps := [] }

/-- Lets time pass, and says whether a sweep fell due on the way; one that is due at the very end
has run. -/
def wait (ms : Nat) (s : Schedule) : Bool × Schedule :=
  let now := s.now + ms
  (s.sweeps.any (·.next ≤ now), ⟨now, s.sweeps.map (·.passed now)⟩)

end Schedule

end SessionTickets
