/-!
# Lengths of time and points in time

Both are counted in nanoseconds, points in time from a fixed one.
-/

namespace RemoteAgent

structure Duration where
  nanoseconds : Nat
  deriving DecidableEq, Repr

namespace Duration

def nanosecondsPerSecond : Nat := 1000000000

def ofSeconds (n : Nat) : Duration :=
  ⟨n * nanosecondsPerSecond⟩

def ofMilliseconds (n : Nat) : Duration :=
  ⟨n * 1000000⟩

def seconds (d : Duration) : Nat :=
  d.nanoseconds / nanosecondsPerSecond

/-- The nanoseconds beyond the whole seconds. -/
def subsecond (d : Duration) : Nat :=
  d.nanoseconds % nanosecondsPerSecond

end Duration

structure Timestamp where
  nanoseconds : Int
  deriving DecidableEq, Repr

namespace Timestamp

def ofSeconds (seconds : Int) (nanoseconds : Nat) : Timestamp :=
  ⟨seconds * Duration.nanosecondsPerSecond + nanoseconds⟩

/-- How long a time has been past; no time for one that is still to come. -/
def since (now earlier : Timestamp) : Duration :=
  ⟨(now.nanoseconds - earlier.nanoseconds).toNat⟩

def before (t : Timestamp) (d : Duration) : Timestamp :=
  ⟨t.nanoseconds - d.nanoseconds⟩

end Timestamp

end RemoteAgent
