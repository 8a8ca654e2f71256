import LatencyObservatory.Ingest.Fence
import LatencyObservatory.Model.Codec

/-!
# Fence state codec

The record that carries a source's fence state across a restart. The remembered sequences are written
in arrival order; the set beside them is rebuilt from that list.
-/

namespace LatencyObservatory.Ingest

open LatencyObservatory.Core LatencyObservatory.Model

def writeSession (w : JsonWriter) (entry : SessionKey × SessionState) : JsonWriter :=
  let session := entry.2
  let w := w.beginObject
  let w := w.fieldString "epoch" entry.1.1.toHex
  let w := w.fieldString "incarnation" entry.1.2.toHex
  let w := w.fieldUint "ordinal" session.ordinal
  let w := w.fieldUint "source_revision" session.sourceRevision.value.toNat
  let w := w.fieldBool "has_last_sequence" session.hasLastSequence
  let w := w.fieldUint "last_sequence" session.lastSequence.toNat
  let w := w.fieldUint "accepted_current" session.acceptedCurrent
  let w := w.fieldUint "accepted_historical" session.acceptedHistorical
  let w := w.fieldUint "rejected" session.rejected
  let w := (session.recentOrder.foldl (fun w sequence => w.valueUint sequence.toNat)
    (w.fieldArray "recent_sequences")).endArray
  w.endObject

def writeFenceState (w : JsonWriter) (source : SourceId) (state : SourceFenceState) : JsonWriter :=
  let w := w.beginObject
  let w := w.fieldString "kind" (text "fence_state")
  let w := w.fieldString "source" source.toHex
  let w := w.fieldUint "next_ordinal" state.nextOrdinal
  let w := w.fieldString "current_epoch" (optionalHex state.currentEpoch)
  let w := w.fieldString "current_incarnation" (optionalHex state.currentIncarnation)
  let w := w.fieldUint "current_ordinal" state.currentOrdinal
  let w := w.fieldUint "evicted_sessions" state.evictedSessions
  let w := w.fieldUint "seen_revision" (if state.currentOrdinal = 0 then 0 else 1)
  let w := (state.sessions.toList.foldl writeSession (w.fieldArray "sessions")).endArray
  w.endObject

def decodeSequences (items : List JsonValue) : Except Error (List UInt64) :=
  decodeAll (fun item => do return UInt64.ofNat (← item.asUint64)) items

def decodeSession (entry : JsonValue) : Except Error (SessionKey × SessionState) := do
  let epoch ← jsonId entry "epoch"
  let incarnation ← jsonId entry "incarnation"
  let ordinal ← entry.requireUint "ordinal"
  let sourceRevision ← jsonRevision entry "source_revision"
  let hasLastSequence ← entry.requireBool "has_last_sequence"
  let lastSequence ← entry.requireUint "last_sequence"
  let acceptedCurrent ← entry.requireUint "accepted_current"
  let acceptedHistorical ← entry.requireUint "accepted_historical"
  let rejected ← entry.requireUint "rejected"
  let recentOrder ← decodeSequences (← entry.requireArray "recent_sequences")
  return ((epoch, incarnation), {
    ordinal, sourceRevision, hasLastSequence, acceptedCurrent, acceptedHistorical, rejected, recentOrder
    lastSequence := UInt64.ofNat lastSequence
    recentSequences := recentOrder.foldl (fun recent sequence => recent.insert sequence) ∅ })

def decodeFenceState (value : JsonValue) : Except Error (SourceId × SourceFenceState) := do
  guardObject value "fence state must be an object"
  let source ← jsonId value "source"
  let nextOrdinal ← value.requireUint "next_ordinal"
  let currentOrdinal ← value.requireUint "current_ordinal"
  let evictedSessions ← value.requireUint "evicted_sessions"
  let currentEpoch ← jsonOptionalId value "current_epoch"
  let currentIncarnation ← jsonOptionalId value "current_incarnation"
  let sessions ← decodeAll decodeSession (← value.requireArray "sessions")
  return (source, {
    nextOrdinal, currentOrdinal, evictedSessions, currentEpoch, currentIncarnation
    -- `emplace`: a key that is listed twice keeps its first session.
    sessions := sessions.foldl (fun map entry => map.insertIfNew entry.1 entry.2) ∅ })

end LatencyObservatory.Ingest
