import SessionTickets.SortedMap
import SessionTickets.Time.Instant

namespace SessionTickets

open Time

/-- The deadlines of keys. A key without a deadline is not kept and never expires. -/
abbrev Deadlines := SortedMap Instant

namespace Deadlines

/-- Whether the deadline of a key has come. At the deadline itself it has. -/
def isExpired (d : Deadlines) (key : String) (now : Instant) : Bool :=
  (d.find? key).any (· ≤ now)

/-- The keys whose deadline has come, in order. -/
def expired (d : Deadlines) (now : Instant) : List String :=
  (d.filter fun _ deadline => deadline ≤ now).keys

/-- The keys whose deadline has come, and the deadlines of the others. -/
def drain (d : Deadlines) (now : Instant) : List String × Deadlines :=
  (d.expired now, d.filter fun _ deadline => ¬ deadline ≤ now)

end Deadlines

end SessionTickets
