import LatencyObservatory.Core.Ids

/-!
# Time

Durations and readings are 64-bit signed nanoseconds; a reading keeps the clock domain it was taken
in. Differences are taken in `Int64`, whose wrap-around stands for the source's unchecked subtraction.
-/

namespace LatencyObservatory.Core

abbrev Nanos := Int64

structure Timestamp where
  ns : Nanos
  domain : ClockDomainId
deriving DecidableEq, Repr

namespace Timestamp

instance : Inhabited Timestamp := ⟨⟨0, .none⟩⟩

def valid (t : Timestamp) : Bool :=
  t.domain.valid

end Timestamp

/-- A local monotonic reading; it is never persisted. -/
structure MonoTime where
  ns : Nanos
deriving DecidableEq, Repr

instance : Inhabited MonoTime := ⟨⟨0⟩⟩

def referenceClockDomainName : Bytes := text "lobs.clock.reference.utc"

def referenceClockDomain : ClockDomainId :=
  .deriveFrom referenceClockDomainName

end LatencyObservatory.Core
