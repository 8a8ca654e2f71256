import LatencyObservatory.Core.Checked
import LatencyObservatory.Core.Json
import LatencyObservatory.Core.Policy

/-!
# Distributions

The deterministic aggregate of a bounded set of values: counts, exact sum and floor mean, an explicit
histogram and nearest-rank quantiles.
-/

namespace LatencyObservatory.Stats

open LatencyObservatory.Core

/-- An exact rational quantile; `make` is its only constructor besides the default. -/
structure QuantileProbe where
  numerator : UInt32 := 0
  denominator : UInt32 := 1
deriving DecidableEq, Repr

namespace QuantileProbe

def make (numerator denominator : UInt32) : Except Error QuantileProbe :=
  if denominator = 0 then .error ⟨.invalidArgument, "quantile denominator must not be zero", []⟩
  else if numerator = 0 ∨ numerator > denominator then
    .error ⟨.invalidArgument, "quantile must satisfy 0 < numerator <= denominator", []⟩
  else .ok ⟨numerator, denominator⟩

/-- `to_string`. -/
def render (probe : QuantileProbe) : Bytes :=
  decimal probe.numerator.toNat ++ text "/" ++ decimal probe.denominator.toNat

end QuantileProbe

def defaultQuantileProbes : List QuantileProbe :=
  [⟨50, 100⟩, ⟨90, 100⟩, ⟨99, 100⟩, ⟨999, 1000⟩]

structure HistogramSpec where
  bounds : List Nanos
deriving DecidableEq, Repr

namespace HistogramSpec

/-- The bound loop of `make`; `previous` is the bound before. -/
def checkBounds (previous : Option Nanos) : List Nanos → Status
  | [] => .ok ()
  | bound :: bounds =>
    if bound < 0 then
      .error ⟨.invalidArgument, "histogram bounds must not be negative", decimalInt bound.toInt⟩
    else if previous.any (bound ≤ ·) then
      .error ⟨.invalidArgument, "histogram bounds must be strictly increasing", decimalInt bound.toInt⟩
    else checkBounds (some bound) bounds

def make (bounds : List Nanos) (limits : Limits) : Except Error HistogramSpec :=
  if bounds.length > limits.maxHistogramBuckets then
    .error ⟨.outOfRange, "histogram bound count exceeds the configured limit", decimal bounds.length⟩
  else (checkBounds none bounds).map fun _ => ⟨bounds⟩

def latencyDefault : HistogramSpec :=
  ⟨[1000, 2000, 5000, 10000, 20000, 50000, 100000, 200000, 500000, 1000000, 2000000, 5000000, 10000000,
    20000000, 50000000, 100000000, 200000000, 500000000, 1000000000, 2000000000, 5000000000, 10000000000]⟩

def bucketCount (spec : HistogramSpec) : Nat :=
  spec.bounds.length + 1

def canonicalText (spec : HistogramSpec) : Bytes :=
  text "histogram.bounds=" ++ ((spec.bounds.map fun bound => decimalInt bound.toInt).intersperse [44]).flatten ++
    text "\n"

def digest (spec : HistogramSpec) : Bytes :=
  sha256Hex spec.canonicalText

end HistogramSpec

structure Histogram where
  spec : HistogramSpec := ⟨[]⟩
  buckets : List Nat := []
  underflow : Nat := 0
deriving DecidableEq, Repr

namespace Histogram

def empty (spec : HistogramSpec) : Histogram :=
  { spec, buckets := List.replicate spec.bucketCount 0 }

/-- The bucket loop of `add`: the number of leading bounds that are at most `value`. -/
def bucketIndex (value : Nanos) : List Nanos → Nat
  | [] => 0
  | bound :: bounds => if value ≥ bound then bucketIndex value bounds + 1 else 0

def add (h : Histogram) (value : Nanos) : Histogram :=
  let buckets := if h.buckets.length ≠ h.spec.bucketCount then List.replicate h.spec.bucketCount 0 else h.buckets
  if value < 0 then { h with buckets, underflow := h.underflow + 1 }
  else { h with buckets := buckets.modify (bucketIndex value h.spec.bounds) (· + 1) }

end Histogram

structure Distribution where
  count : Nat := 0
  minNs : Option Nanos := none
  maxNs : Option Nanos := none
  sumNs : Option Nanos := none
  meanNs : Option Nanos := none
  meanRemainderNs : Nat := 0
  sumOverflowed : Bool := false
  histogram : Histogram := {}
  probes : List QuantileProbe := []
  quantiles : List (Option Nanos) := []
deriving DecidableEq, Repr

/-- The exact signed sum, held as two unsigned magnitudes. -/
structure SignedSum where
  positive : UInt128 := ⟨0, 0⟩
  negative : UInt128 := ⟨0, 0⟩
deriving DecidableEq, Repr

namespace SignedSum

def add (sum : SignedSum) (value : Nanos) : SignedSum :=
  if value ≥ 0 then { sum with positive := sum.positive.add (.ofU64 value.toUInt64) }
  else { sum with negative := sum.negative.add (.ofU64 (0 - value.toUInt64)) }

def overflowed (sum : SignedSum) : Bool :=
  sum.positive.isSaturated || sum.negative.isSaturated

def toI64 (sum : SignedSum) : Option Nanos :=
  if sum.overflowed then none
  else if sum.positive.isZero && sum.negative.isZero then some 0
  else if !sum.positive.less sum.negative then
    let diff := sum.positive.sub sum.negative
    if !diff.fitsU64 || diff.lo > 0x7FFFFFFFFFFFFFFF then none else some diff.lo.toInt64
  else
    let diff := sum.negative.sub sum.positive
    if !diff.fitsU64 || diff.lo > 0x8000000000000000 then none
    else if diff.lo = 0x8000000000000000 then some Int64.minValue
    else some (-diff.lo.toInt64)

end SignedSum

/-- `floor_mean`: the quotient and the remainder of a floor division. -/
def floorMean (sum : SignedSum) (count : Nat) : Option Nanos × Nat :=
  if count = 0 then (none, 0)
  else match sum.toI64 with
    | none => (none, 0)
    | some value =>
      let divisor := Int64.ofNat count
      let quotient := value / divisor
      let rest := value % divisor
      if rest < 0 then (some (quotient - 1), (rest + divisor).toUInt64.toNat)
      else (some quotient, rest.toUInt64.toNat)

/-- `nearest_rank` in a sorted list. -/
def nearestRank (sorted : List Nanos) (probe : QuantileProbe) : Option Nanos :=
  if sorted.isEmpty then none
  else
    let count := UInt64.ofNat sorted.length
    let (quotient, remainder) := (UInt128.mulU64 probe.numerator.toUInt64 count).divmod probe.denominator.toUInt64
    let rank := if remainder ≠ 0 then quotient.lo + 1 else quotient.lo
    let rank := if rank = 0 then 1 else rank
    let rank := if rank > count then count else rank
    sorted[(rank - 1).toNat]?

/-- `stats::aggregate`. -/
def aggregate (values : List Nanos) (spec : HistogramSpec) (probes : List QuantileProbe) (limits : Limits) :
    Except Error Distribution :=
  if values.length > limits.maxSamplesPerPath then
    .error ⟨.outOfRange, "aggregation input exceeds the configured sample limit", decimal values.length⟩
  else if probes.length > limits.maxQuantileProbes then
    .error ⟨.outOfRange, "quantile probe count exceeds the configured limit", decimal probes.length⟩
  else if values.isEmpty then
    .ok {
      histogram := .empty spec
      probes
      quantiles := List.replicate probes.length none }
  else
    let sorted := values.insertionSort (· ≤ ·)
    let sum := sorted.foldl SignedSum.add {}
    let (mean, remainder) := floorMean sum values.length
    .ok {
      count := values.length
      minNs := sorted.head?
      maxNs := sorted.getLast?
      sumNs := sum.toI64
      meanNs := mean
      meanRemainderNs := remainder
      sumOverflowed := sum.overflowed || sum.toI64.isNone
      histogram := sorted.foldl Histogram.add (.empty spec)
      probes
      quantiles := probes.map (nearestRank sorted) }

end LatencyObservatory.Stats
