/-!
# Timestamps

A moment, counted in nanoseconds since the beginning of 1970.
-/

namespace ObjectStore

/-- A moment, as the number of nanoseconds since the beginning of 1970. -/
structure Timestamp where
  nanoseconds : Int
deriving DecidableEq, Repr, Inhabited

namespace Timestamp

/-- How many nanoseconds a second has. -/
def perSecond : Int := 1000000000

/-- The moment a number of seconds after the beginning of 1970. -/
def ofSeconds (seconds : Int) : Timestamp :=
  ⟨seconds * perSecond⟩

/-- The number of whole seconds, rounded down. -/
def seconds (t : Timestamp) : Int :=
  t.nanoseconds / perSecond

/-- The moment a number of seconds later. -/
def addSeconds (t : Timestamp) (seconds : Int) : Timestamp :=
  ⟨t.nanoseconds + seconds * perSecond⟩

instance : LT Timestamp := ⟨fun s t => s.nanoseconds < t.nanoseconds⟩

instance (s t : Timestamp) : Decidable (s < t) :=
  inferInstanceAs (Decidable (s.nanoseconds < t.nanoseconds))

end Timestamp

end ObjectStore
