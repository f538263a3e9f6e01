import Metering.Time.Date
import Metering.Time.Duration

/-!
# Instants

An instant is a second, counted from 1970-01-01T00:00:00Z, and a number of nanoseconds after its
start.  A minute may end in a leap second.  It has no number of its own: it belongs to the last
second of its minute, whose nanoseconds then run on beyond a whole second.  So instants are ordered
by second and then by nanoseconds.

Leap seconds are not tabled: only an instant that lies in one knows of it.  A sum counts the leap
second that it starts in when it moves forward out of it; a difference compares times of day to
decide whether it counts the one that an end of it lies in.

Only the instants of the calendar range exist: a sum that leaves the range has no result, and where
a caller wants the nearest instant instead, that is a function of its own.
-/

namespace Metering

/-- A moment in time. -/
structure Instant where
  /-- Seconds since 1970-01-01T00:00:00Z, without leap seconds. -/
  second : Int
  /-- Nanoseconds since the start of the second.  From a whole second on they lie in the leap second
  that follows. -/
  nano : Nat
  /-- Only the last second of a minute is followed by a leap second. -/
  fits : nano < 1000000000 ∨ (nano < 2000000000 ∧ second % 60 = 59)
  deriving DecidableEq, Repr

namespace Instant

def secondsPerDay : Nat := 86400

def nanosPerDay : Nat := secondsPerDay * Duration.nanosPerSecond

/-- The start of a second. -/
def ofSecond (second : Int) : Instant := ⟨second, 0, by simp⟩

/-- The instant a number of nanoseconds after 1970-01-01T00:00:00Z, without leap seconds. -/
def ofNanoseconds (n : Int) : Instant :=
  ⟨n / 1000000000, (n % 1000000000).toNat, by omega⟩

/-- Midnight at the start of a date. -/
def ofDate (d : Date) : Instant := ofSecond (d.toDayNumber * secondsPerDay)

/-- The first instant of the calendar range. -/
def earliest : Instant := ofSecond (-8334601228800)

/-- The last instant of the calendar range that is not in a leap second. -/
def latest : Instant := ⟨8210266876799, 999999999, by simp⟩

def epoch : Instant := ofSecond 0

/-- The instant lies in the calendar range. -/
def Exists (t : Instant) : Prop :=
  earliest.second ≤ t.second ∧ t.second ≤ latest.second

instance (t : Instant) : Decidable t.Exists := inferInstanceAs (Decidable (_ ∧ _))

/-- The instant, if it lies in the calendar range. -/
def existing? (t : Instant) : Option Instant := if t.Exists then some t else none

/-- The instant of a second and the nanoseconds after its start, if there is one. -/
def of? (second : Int) (nano : Nat) : Option Instant :=
  if h : nano < 1000000000 ∨ (nano < 2000000000 ∧ second % 60 = 59) then
    existing? ⟨second, nano, h⟩
  else none

/-- Nanoseconds since 1970-01-01T00:00:00Z.  A leap second lies on the same stretch as the second
after it. -/
def nanoseconds (t : Instant) : Int := t.second * Duration.nanosPerSecond + t.nano

/-- The instant lies in a leap second. -/
def IsLeap (t : Instant) : Prop := Duration.nanosPerSecond ≤ t.nano

instance (t : Instant) : Decidable t.IsLeap := inferInstanceAs (Decidable (_ ≤ _))

/-- Days since 1970-01-01. -/
def dayNumber (t : Instant) : Int := t.second / secondsPerDay

/-- Seconds since midnight. -/
def timeOfDay (t : Instant) : Nat := (t.second % secondsPerDay).toNat

/-- The date on which the instant falls. -/
def date (t : Instant) : Date := Date.ofDayNumber t.dayNumber

/-- The midnight that starts the instant's day. -/
def startOfDay (t : Instant) : Instant := ofSecond (t.dayNumber * secondsPerDay)

/-- The instant a signed number of nanoseconds later.  From within a leap second a sum may stay in
it, leave it forward and have counted it, or leave it backward. -/
def shift (t : Instant) (nanoseconds : Int) : Instant :=
  let moved := t.nano + nanoseconds
  if h : t.IsLeap ∧ 1000000000 ≤ moved then
    if inside : moved < 2000000000 then
      ⟨t.second, moved.toNat, by
        have leap := h.1
        unfold IsLeap Duration.nanosPerSecond at leap
        have := t.fits
        omega⟩
    else ofNanoseconds (t.nanoseconds + nanoseconds - Duration.nanosPerSecond)
  else ofNanoseconds (t.nanoseconds + nanoseconds)

/-- The instant a signed number of nanoseconds later, if it exists. -/
def add? (t : Instant) (nanoseconds : Int) : Option Instant := (t.shift nanoseconds).existing?

/-- The instant a signed number of nanoseconds later, or the last one. -/
def addToLatest (t : Instant) (nanoseconds : Int) : Instant :=
  (t.add? nanoseconds).getD latest

/-- Signed nanoseconds from one instant to a later one.  The way from a leap second to a later time
of day is a second longer, because it leads through the rest of that leap second; the days of the
two do not matter for this. -/
def since (t earlier : Instant) : Int :=
  let onAxis := t.nanoseconds - earlier.nanoseconds
  if earlier.timeOfDay < t.timeOfDay ∧ earlier.IsLeap then onAxis + Duration.nanosPerSecond
  else if t.timeOfDay < earlier.timeOfDay ∧ t.IsLeap then onAxis - Duration.nanosPerSecond
  else onAxis

/-- The time since an earlier instant; zero if it lies ahead. -/
def elapsedSince (t earlier : Instant) : Duration := Duration.ofSpan (t.since earlier)

instance : LT Instant :=
  ⟨fun a b => a.second < b.second ∨ (a.second = b.second ∧ a.nano < b.nano)⟩
instance : LE Instant :=
  ⟨fun a b => a.second < b.second ∨ (a.second = b.second ∧ a.nano ≤ b.nano)⟩
instance (a b : Instant) : Decidable (a < b) :=
  inferInstanceAs (Decidable (a.second < b.second ∨ (a.second = b.second ∧ a.nano < b.nano)))
instance (a b : Instant) : Decidable (a ≤ b) :=
  inferInstanceAs (Decidable (a.second < b.second ∨ (a.second = b.second ∧ a.nano ≤ b.nano)))

theorem lt_def {a b : Instant} :
    a < b ↔ a.second < b.second ∨ (a.second = b.second ∧ a.nano < b.nano) := Iff.rfl

theorem le_def {a b : Instant} :
    a ≤ b ↔ a.second < b.second ∨ (a.second = b.second ∧ a.nano ≤ b.nano) := Iff.rfl

theorem nanoseconds_ofNanoseconds (n : Int) : (ofNanoseconds n).nanoseconds = n := by
  unfold nanoseconds ofNanoseconds Duration.nanosPerSecond
  dsimp only
  omega

/-- Outside leap seconds the order of instants is the order of their nanoseconds. -/
theorem lt_iff_nanoseconds_lt {a b : Instant} (ha : ¬a.IsLeap) (hb : ¬b.IsLeap) :
    a < b ↔ a.nanoseconds < b.nanoseconds := by
  unfold IsLeap Duration.nanosPerSecond at ha hb
  unfold nanoseconds Duration.nanosPerSecond
  rw [lt_def]
  omega

/-- From an instant outside leap seconds a shift moves exactly as far as it says. -/
theorem nanoseconds_shift {t : Instant} (ht : ¬t.IsLeap) (n : Int) :
    (t.shift n).nanoseconds = t.nanoseconds + n := by
  simp [shift, ht, nanoseconds_ofNanoseconds]

/-- The fraction of a second: nothing when zero, otherwise the first of three, six and nine
digits that is exact. -/
def fractionText (nanos : Nat) : String :=
  if nanos = 0 then ""
  else if nanos % 1000000 = 0 then "." ++ Date.padded 3 (nanos / 1000000)
  else if nanos % 1000 = 0 then "." ++ Date.padded 6 (nanos / 1000)
  else "." ++ Date.padded 9 nanos

/-- Hours, minutes and seconds, joined by colons, and the fraction.  A leap second is the second
with the number sixty. -/
def clockText (t : Instant) : String :=
  let seconds := t.timeOfDay
  Date.padded 2 (seconds / 3600) ++ ":" ++ Date.padded 2 (seconds / 60 % 60) ++ ":" ++
    Date.padded 2 (seconds % 60 + t.nano / Duration.nanosPerSecond) ++
    fractionText (t.nano % Duration.nanosPerSecond)

/-- The interchange form of an instant, in universal time. -/
def stamp (t : Instant) : String := t.date.text ++ "T" ++ t.clockText ++ "Z"

/-- The form that stands in messages. -/
def text (t : Instant) : String := t.date.text ++ " " ++ t.clockText ++ " UTC"

end Instant
end Metering
