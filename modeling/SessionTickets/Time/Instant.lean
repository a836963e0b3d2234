import SessionTickets.Time.Calendar

namespace SessionTickets.Time

namespace Instant

/-- The first second of the year -262143. -/
def firstSecond : Int := -8334601228800

/-- The last second of the year 262142. -/
def lastSecond : Int := 8210266876799

/-- Whether a second lies in the years that an instant can name. -/
def InRange (seconds : Int) : Prop :=
  firstSecond ≤ seconds ∧ seconds ≤ lastSecond

instance (seconds : Int) : Decidable (InRange seconds) :=
  inferInstanceAs (Decidable (_ ∧ _))

def nanosPerSecond : Nat := 1000000000

end Instant

/-- A point in Coordinated Universal Time, to the nanosecond, leap seconds included. The seconds since the start
of 1970 do not count leap seconds: an instant inside one has the count of the second before it and a fraction of
one second or more. Only the last second of a minute is followed by a leap second. A clock that gives such a
fraction to any other second shows no instant of this type, and no text of a time does so. -/
@[ext] structure Instant where
  seconds : Int
  nanos : Nat
  inRange : Instant.InRange seconds
  nanos_lt : nanos < 2 * Instant.nanosPerSecond
  last_of_leap : Instant.nanosPerSecond ≤ nanos → seconds % 60 = 59
deriving DecidableEq

namespace Instant

/-- The instant with the given parts, if there is one. -/
def ofParts? (seconds : Int) (nanos : Nat) : Option Instant :=
  if h : InRange seconds ∧ nanos < 2 * nanosPerSecond ∧ (nanosPerSecond ≤ nanos → seconds % 60 = 59) then
    some ⟨seconds, nanos, h.1, h.2.1, h.2.2⟩
  else
    none

/-- Parts make an instant exactly if they are its own. -/
theorem ofParts?_eq_some_iff {seconds : Int} {nanos : Nat} {t : Instant} :
    ofParts? seconds nanos = some t ↔ t.seconds = seconds ∧ t.nanos = nanos := by
  constructor
  · intro h
    rw [ofParts?] at h
    split at h
    · cases h
      exact ⟨rfl, rfl⟩
    · cases h
  · rintro ⟨rfl, rfl⟩
    rw [ofParts?, dif_pos ⟨t.inRange, t.nanos_lt, t.last_of_leap⟩]

/-- One number that orders instants: by their seconds first, and by their fractions next. -/
def ticks (t : Instant) : Int :=
  t.seconds * (2 * nanosPerSecond) + t.nanos

instance : LE Instant := ⟨fun a b => a.ticks ≤ b.ticks⟩

instance : LT Instant := ⟨fun a b => a.ticks < b.ticks⟩

instance (a b : Instant) : Decidable (a ≤ b) :=
  inferInstanceAs (Decidable (a.ticks ≤ b.ticks))

instance (a b : Instant) : Decidable (a < b) :=
  inferInstanceAs (Decidable (a.ticks < b.ticks))

/-- The order of instants is that of their ticks. -/
theorem le_iff_ticks {a b : Instant} : a ≤ b ↔ a.ticks ≤ b.ticks := .rfl

/-- The strict order of instants is that of their ticks. -/
theorem lt_iff_ticks {a b : Instant} : a < b ↔ a.ticks < b.ticks := .rfl

/-- The order looks at the count of seconds first and at the fraction next. -/
theorem lt_iff {a b : Instant} :
    a < b ↔ a.seconds < b.seconds ∨ a.seconds = b.seconds ∧ a.nanos < b.nanos := by
  have ha := a.nanos_lt
  have hb := b.nanos_lt
  simp only [lt_iff_ticks, ticks, nanosPerSecond] at *
  omega

/-- The order of instants is total. -/
theorem not_le {a b : Instant} : ¬ a ≤ b ↔ b < a := by
  simp only [le_iff_ticks, lt_iff_ticks]
  omega

/-- The instant a number of milliseconds later, or earlier when it is negative.

A step inside a leap second stays in it while it does not pass its end. A step that leaves a leap
second forwards counts it as a repetition of the second before it, and one that leaves it backwards
counts it as the second after it. -/
def advance? (ms : Int) (t : Instant) : Option Instant :=
  let whole := ms.tdiv 1000
  let part := ms.tmod 1000 * 1000000
  if nanosPerSecond ≤ t.nanos ∧ whole = 0 ∧ t.nanos + part < 2 * nanosPerSecond then
    ofParts? t.seconds (t.nanos + part).toNat
  else
    let base := if nanosPerSecond ≤ t.nanos ∧ ms < 0 then t.seconds + 1 else t.seconds
    let nanos := (t.nanos % nanosPerSecond : Nat) + part
    ofParts? (base + whole + nanos / nanosPerSecond) (nanos % nanosPerSecond).toNat

end Instant

end SessionTickets.Time
