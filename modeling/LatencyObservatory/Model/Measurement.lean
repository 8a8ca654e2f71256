import LatencyObservatory.Core.Time
import LatencyObservatory.Core.Evidence

/-!
# Measurement records

One observed exchange with its hops, as submitted and as enriched by the gate. A dwell that could not
be computed is absent, never zero.
-/

namespace LatencyObservatory.Model

open LatencyObservatory.Core

structure ObservationStamp where
  observedAt : Timestamp := default
  receivedAt : Timestamp := default
  receivedMono : MonoTime := default
deriving DecidableEq, Repr

structure HopObservation where
  index : HopIndex := default
  hop : HopId := .none
  link : LinkId := .none
  queue : QueueId := .none
  entryDomain : ClockDomainId := .none
  exitDomain : ClockDomainId := .none
  entry : Timestamp := default
  exit : Timestamp := default
  queueEntry : Timestamp := default
  queueExit : Timestamp := default
  dwellNs : Option Nanos := none
  queueDwellNs : Option Nanos := none
  dwellUncertaintyNs : Option Nanos := none
  queueDwellUncertaintyNs : Option Nanos := none
  evidence : Evidence := default
deriving DecidableEq

structure MeasurementRecord where
  id : MeasurementId := .none
  path : PathId := .none
  generation : GenerationId := .none
  source : SourceId := .none
  epoch : EpochId := .none
  incarnation : IncarnationId := .none
  sourceRevision : Revision := default
  sequence : Sequence := 0
  domain : ClockDomainId := .none
  request : Timestamp := default
  response : Timestamp := default
  rttNs : Nanos := 0
  hops : List HopObservation := []
  stamp : ObservationStamp := {}
  evidence : Evidence := default
  synthetic : Bool := false
deriving DecidableEq

/-- `hop_at`: the first observation with this index. -/
def MeasurementRecord.hopAt (record : MeasurementRecord) (index : HopIndex) : Option HopObservation :=
  record.hops.find? fun hop => hop.index == index

/-- `measurement_identity_text`. -/
def measurementIdentityText (source : SourceId) (epoch : EpochId) (incarnation : IncarnationId)
    (sequence : Sequence) : Bytes :=
  text "measurement|" ++ source.toHex ++ text "|" ++ epoch.toHex ++ text "|" ++ incarnation.toHex ++
    text "|" ++ decimal sequence.toNat

def deriveMeasurementId (source : SourceId) (epoch : EpochId) (incarnation : IncarnationId)
    (sequence : Sequence) : MeasurementId :=
  .deriveFrom (measurementIdentityText source epoch incarnation sequence)

end LatencyObservatory.Model
