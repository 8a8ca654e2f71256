import LatencyObservatory.Core.Json
import LatencyObservatory.Model.Clock
import LatencyObservatory.Model.Measurement

/-!
# Canonical codecs

`write_json` and the decoders of `model/codec.cpp`: one writer and one decoder for each domain object.
A decoder ignores unknown members, refuses missing or ill typed ones and recomputes the identity of a
definition from its name.
-/

namespace LatencyObservatory.Model

open LatencyObservatory.Core

/-! ### Name tables -/

def sourceKinds : List (SourceKind × Bytes) :=
  [(.synthetic, text "synthetic"), (.probe, text "probe"), (.telemetryAgent, text "telemetry_agent"),
    (.derivedAggregate, text "derived_aggregate"), (.unknown, text "unknown")]

def authorityClasses : List (AuthorityClass × Bytes) :=
  [(.primary, text "primary"), (.secondary, text "secondary"), (.derived, text "derived"),
    (.synthetic, text "synthetic"), (.unknown, text "unknown")]

def hopKinds : List (HopKind × Bytes) :=
  [(.endpoint, text "endpoint"), (.link, text "link"), (.forwardingStage, text "forwarding_stage"),
    (.queueingStage, text "queueing_stage"), (.application, text "application"), (.unknown, text "unknown")]

def endpointRoles : List (EndpointRole × Bytes) :=
  [(.client, text "client"), (.server, text "server"), (.intermediate, text "intermediate"),
    (.unknown, text "unknown")]

def semanticsProfiles : List (SemanticsProfile × Bytes) :=
  [(.unknown, text "unknown"), (.endToEndRequestResponse, text "end_to_end_request_response"),
    (.hopDwell, text "hop_dwell"), (.queueDwell, text "queue_dwell")]

def clockSyncStates : List (ClockSyncState × Bytes) :=
  [(.unknown, text "unknown"), (.unsynced, text "unsynced"), (.synchronized, text "synchronized"),
    (.holdover, text "holdover")]

/-- `to_string` of a semantics mask: the names of its flags, separated by bars. -/
def semanticsText (profile : SemanticsProfile) : Bytes :=
  let names := (semanticsProfiles.filter fun row => row.1.bits != 0 && profile.has row.1).map (·.2)
  if names.isEmpty then text "unknown" else (names.intersperse [124]).flatten

/-- `parse_semantics_list`: empty tokens are skipped, an unknown one refuses the whole list. -/
def parseSemanticsList (input : Bytes) : Option SemanticsProfile :=
  if input.isEmpty then none
  else (input.splitOn 124).foldl (fun mask token =>
    if token.isEmpty then mask
    else mask.bind fun (mask : SemanticsProfile) =>
      (parseNamed semanticsProfiles token).map fun parsed => ⟨mask.bits ||| parsed.bits⟩) (some .unknown)

/-! ### Writers -/

/-- An identity that may be absent: the invalid one is written as the empty text. -/
def optionalHex {tag : Tag} (id : StrongId tag) : Bytes :=
  if id.valid then id.toHex else []

def writeTimestamp (w : JsonWriter) (timestamp : Timestamp) : JsonWriter :=
  let w := w.beginObject
  let w := w.fieldInt "ns" timestamp.ns.toInt
  let w := w.fieldString "domain" (optionalHex timestamp.domain)
  w.endObject

def writeReason (w : JsonWriter) (reason : Reason) : JsonWriter :=
  let w := w.beginObject
  let w := w.fieldString "code" (nameOf reasonCodes (text "unknown_reason") reason.code)
  let w := w.fieldString "detail" reason.detail
  w.endObject

def writeEvidence (w : JsonWriter) (evidence : Evidence) : JsonWriter :=
  let w := w.beginObject
  let w := w.fieldString "state" (nameOf states (text "unknown") evidence.state)
  let w := w.fieldString "freshness" (nameOf freshnesses (text "unknown") evidence.freshness)
  let w := w.fieldString "confidence" (nameOf confidences (text "none") evidence.confidence)
  let w := w.fieldBool "reasons_truncated" evidence.reasonsTruncated
  let w := (evidence.reasons.foldl writeReason (w.fieldArray "reasons")).endArray
  w.endObject

def writeObservationStamp (w : JsonWriter) (stamp : ObservationStamp) : JsonWriter :=
  let w := w.beginObject
  let w := writeTimestamp (w.key "observed_at") stamp.observedAt
  let w := writeTimestamp (w.key "received_at") stamp.receivedAt
  w.endObject

def writeHopObservation (w : JsonWriter) (hop : HopObservation) : JsonWriter :=
  let w := w.beginObject
  let w := w.fieldUint "index" hop.index.value.toNat
  let w := w.fieldString "hop" hop.hop.toHex
  let w := w.fieldString "link" (optionalHex hop.link)
  let w := w.fieldString "queue" (optionalHex hop.queue)
  let w := writeTimestamp (w.key "entry") hop.entry
  let w := writeTimestamp (w.key "exit") hop.exit
  let w := writeTimestamp (w.key "queue_entry") hop.queueEntry
  let w := writeTimestamp (w.key "queue_exit") hop.queueExit
  let w := w.fieldOptionalInt "dwell_ns" (hop.dwellNs.map Int64.toInt)
  let w := w.fieldOptionalInt "queue_dwell_ns" (hop.queueDwellNs.map Int64.toInt)
  let w := w.fieldOptionalInt "dwell_uncertainty_ns" (hop.dwellUncertaintyNs.map Int64.toInt)
  let w := w.fieldOptionalInt "queue_dwell_uncertainty_ns" (hop.queueDwellUncertaintyNs.map Int64.toInt)
  let w := writeEvidence (w.key "evidence") hop.evidence
  w.endObject

/-- The identity of a record as it is written: derived when the record does not carry one yet. -/
def writtenId (record : MeasurementRecord) : MeasurementId :=
  if record.id.valid then record.id
  else deriveMeasurementId record.source record.epoch record.incarnation record.sequence

def writeMeasurement (w : JsonWriter) (record : MeasurementRecord) : JsonWriter :=
  let w := w.beginObject
  let w := w.fieldString "kind" (text "measurement")
  let w := w.fieldString "id" (writtenId record).toHex
  let w := w.fieldBool "identity_derived" (!record.id.valid)
  let w := w.fieldString "path" record.path.toHex
  let w := w.fieldString "generation" record.generation.toHex
  let w := w.fieldString "source" record.source.toHex
  let w := w.fieldString "epoch" record.epoch.toHex
  let w := w.fieldString "incarnation" record.incarnation.toHex
  let w := w.fieldUint "source_revision" record.sourceRevision.value.toNat
  let w := w.fieldUint "sequence" record.sequence.toNat
  let w := w.fieldBool "synthetic" record.synthetic
  let w := writeTimestamp (w.key "request") record.request
  let w := writeTimestamp (w.key "response") record.response
  let w := w.fieldInt "rtt_ns" record.rttNs.toInt
  let w := writeObservationStamp (w.key "stamp") record.stamp
  let w := writeEvidence (w.key "evidence") record.evidence
  let w := (record.hops.foldl writeHopObservation (w.fieldArray "hops")).endArray
  w.endObject

def writeSource (w : JsonWriter) (source : SourceDescriptor) : JsonWriter :=
  let w := w.beginObject
  let w := w.fieldString "kind" (text "source")
  let w := w.fieldString "id" source.id.toHex
  let w := w.fieldString "name" source.name.str
  let w := w.fieldString "source_kind" (nameOf sourceKinds (text "unknown") source.kind)
  let w := w.fieldString "authority" (nameOf authorityClasses (text "unknown") source.authority)
  let w := w.fieldString "semantics" (semanticsText source.semantics)
  let w := w.fieldUint "revision" source.revision.value.toNat
  let w := w.fieldString "description" source.description
  w.endObject

def writeEndpoint (w : JsonWriter) (endpoint : EndpointDef) : JsonWriter :=
  let w := w.beginObject
  let w := w.fieldString "kind" (text "endpoint")
  let w := w.fieldString "id" endpoint.id.toHex
  let w := w.fieldString "name" endpoint.name.str
  let w := w.fieldString "role" (nameOf endpointRoles (text "unknown") endpoint.role)
  let w := w.fieldUint "revision" endpoint.revision.value.toNat
  w.endObject

def writeLink (w : JsonWriter) (link : LinkDef) : JsonWriter :=
  let w := w.beginObject
  let w := w.fieldString "kind" (text "link")
  let w := w.fieldString "id" link.id.toHex
  let w := w.fieldString "name" link.name.str
  let w := w.fieldString "from" (optionalHex link.source)
  let w := w.fieldString "to" (optionalHex link.target)
  let w := w.fieldUint "revision" link.revision.value.toNat
  w.endObject

def writeQueue (w : JsonWriter) (queue : QueueDef) : JsonWriter :=
  let w := w.beginObject
  let w := w.fieldString "kind" (text "queue")
  let w := w.fieldString "id" queue.id.toHex
  let w := w.fieldString "name" queue.name.str
  let w := w.fieldString "link" (optionalHex queue.link)
  let w := w.fieldString "semantics" (semanticsText queue.semantics)
  let w := w.fieldUint "revision" queue.revision.value.toNat
  w.endObject

def writeHop (w : JsonWriter) (hop : HopDef) : JsonWriter :=
  let w := w.beginObject
  let w := w.fieldString "kind" (text "hop")
  let w := w.fieldString "id" hop.id.toHex
  let w := w.fieldString "name" hop.name.str
  let w := w.fieldString "hop_kind" (nameOf hopKinds (text "unknown") hop.kind)
  let w := w.fieldString "link" (optionalHex hop.link)
  let w := w.fieldString "queue" (optionalHex hop.queue)
  let w := w.fieldUint "revision" hop.revision.value.toNat
  w.endObject

def writeGeneration (w : JsonWriter) (generation : GenerationDef) : JsonWriter :=
  let w := w.beginObject
  let w := w.fieldString "kind" (text "generation")
  let w := w.fieldString "id" generation.id.toHex
  let w := w.fieldString "name" generation.name.str
  let w := w.fieldUint "revision" generation.revision.value.toNat
  let w := w.fieldString "supersedes" (optionalHex generation.supersedes)
  let w := w.fieldString "description" generation.description
  w.endObject

def writePath (w : JsonWriter) (path : PathDef) : JsonWriter :=
  let w := w.beginObject
  let w := w.fieldString "kind" (text "path")
  let w := w.fieldString "id" path.id.toHex
  let w := w.fieldString "name" path.name.str
  let w := w.fieldString "generation" path.generation.toHex
  let w := w.fieldUint "revision" path.revision.value.toNat
  let w := (path.hops.foldl (fun w hop => w.valueString hop.toHex) (w.fieldArray "hops")).endArray
  w.endObject

def writeClockDomain (w : JsonWriter) (domain : ClockDomainDef) : JsonWriter :=
  let w := w.beginObject
  let w := w.fieldString "kind" (text "clock_domain")
  let w := w.fieldString "id" domain.id.toHex
  let w := w.fieldString "name" domain.name.str
  let w := w.fieldBool "is_reference" domain.isReference
  let w := w.fieldString "description" domain.description
  w.endObject

def writeClockSync (w : JsonWriter) (sync : ClockSync) : JsonWriter :=
  let w := w.beginObject
  let w := w.fieldString "kind" (text "clock_sync")
  let w := w.fieldString "domain" sync.domain.toHex
  let w := w.fieldString "reference" (optionalHex sync.reference)
  let w := w.fieldString "state" (nameOf clockSyncStates (text "unknown") sync.state)
  let w := w.fieldInt "offset_ns" sync.offsetNs.toInt
  let w := w.fieldInt "skew_ppb" sync.skewPpb.toInt
  let w := w.fieldInt "uncertainty_ns" sync.uncertaintyNs.toInt
  let w := w.fieldInt "valid_for_ns" sync.validForNs.toInt
  let w := w.fieldInt "observed_at_ns" sync.observedAt.ns.toInt
  let w := w.fieldString "observed_at_domain" (optionalHex sync.observedAt.domain)
  let w := w.fieldString "reported_by" (optionalHex sync.reportedBy)
  let w := w.fieldString "generation" (optionalHex sync.generation)
  let w := w.fieldString "epoch" (optionalHex sync.epoch)
  let w := w.fieldString "incarnation" (optionalHex sync.incarnation)
  let w := w.fieldUint "revision" sync.revision.value.toNat
  w.endObject

/-! ### Decoders -/

def jsonName (object : JsonValue) (field : String) : Except Error Name := do
  Name.parse (← object.requireString field)

def jsonRevision (object : JsonValue) (field : String) : Except Error Revision := do
  let value ← object.requireUint field
  if value = 0 ∨ value > 0xFFFFFFFF then
    .error ⟨.outOfRange, "revision is outside the supported range", text field⟩
  else .ok ⟨UInt32.ofNat value⟩

def jsonId {tag : Tag} (object : JsonValue) (field : String) : Except Error (StrongId tag) := do
  StrongId.parseHex (← object.requireString field)

/-- `json_optional_id_hex`: an absent, null, ill typed or empty member is no identity. -/
def jsonOptionalIdHex (object : JsonValue) (field : String) : Option Bytes :=
  match object.find field with
  | some (.string input) => if input.isEmpty then none else some input
  | _ => none

/-- The identity an optional member stands for. -/
def jsonOptionalId {tag : Tag} (object : JsonValue) (field : String) : Except Error (StrongId tag) :=
  match jsonOptionalIdHex object field with
  | none => .ok .none
  | some input => StrongId.parseHex input

/-- A domain written as text: empty for none. -/
def parseDomain (input : Bytes) : Except Error ClockDomainId :=
  if input.isEmpty then .ok .none else StrongId.parseHex input

/-- An enumeration member: the text has to be in its table. -/
def jsonNamed {α : Type} (table : List (α × Bytes)) (message : String) (object : JsonValue) (field : String) :
    Except Error α := do
  let input ← object.requireString field
  match parseNamed table input with
  | some value => .ok value
  | none => .error ⟨.parseError, message, input⟩

/-- An optional text: anything that is not a string is ignored. -/
def jsonText (object : JsonValue) (field : String) : Bytes :=
  match object.find field with
  | some (.string input) => input
  | _ => []

def jsonSemantics (object : JsonValue) : Except Error SemanticsProfile := do
  let input ← object.requireString "semantics"
  match parseSemanticsList input with
  | some profile => .ok profile
  | none => .error ⟨.parseError, "unknown semantics profile", input⟩

/-- The `is_object` guard that most decoders start with. -/
def guardObject (value : JsonValue) (message : String) : Status :=
  if value.isObject then .ok () else .error ⟨.parseError, message, []⟩

def decodeTimestamp (value : JsonValue) : Except Error Timestamp := do
  guardObject value "timestamp must be an object"
  let ns ← value.requireInt "ns"
  let domain ← parseDomain (← value.requireString "domain")
  return ⟨Int64.ofInt ns, domain⟩

/-- An enumeration member that may be absent, but not ill typed or unknown. -/
def jsonOptionalNamed {α : Type} (table : List (α × Bytes)) (message : String) (value : JsonValue)
    (field : String) (fallback : α) : Except Error α :=
  match value.find field with
  | none => .ok fallback
  | some member => do
    let input ← member.asString
    match parseNamed table input with
    | some parsed => .ok parsed
    | none => .error ⟨.parseError, message, input⟩

def decodeReason (entry : JsonValue) : Except Error Reason := do
  let code ← jsonNamed reasonCodes "unknown reason code" entry "code"
  return ⟨code, jsonText entry "detail"⟩

/-- The reason loop: reasons are added one by one, as `add_reason` keeps them. -/
def decodeReasons : List JsonValue → Evidence → Except Error Evidence
  | [], evidence => .ok evidence
  | entry :: entries, evidence => do
    let reason ← decodeReason entry
    decodeReasons entries (evidence.addReason reason.code reason.detail)

def decodeEvidence (value : JsonValue) : Except Error Evidence := do
  guardObject value "evidence must be an object"
  let state ← jsonNamed states "unknown evidence state" value "state"
  let freshness ← jsonOptionalNamed freshnesses "unknown freshness" value "freshness" .unknown
  let confidence ← jsonOptionalNamed confidences "unknown confidence" value "confidence" .none
  let evidence : Evidence := ((default : Evidence).setState state |>.setFreshness freshness).setConfidence confidence
  match value.find "reasons" with
  | none => return evidence
  | some reasons => decodeReasons (← reasons.asArray) evidence

def decodeObservationStamp (value : JsonValue) : Except Error ObservationStamp := do
  guardObject value "observation stamp must be an object"
  let observed ← value.requireObject "observed_at"
  let received ← value.requireObject "received_at"
  let observedAt ← decodeTimestamp observed
  let receivedAt ← decodeTimestamp received
  return { observedAt, receivedAt }

/-- A member that is decoded only when it is an object. -/
def decodeOptional {α : Type} (value : JsonValue) (field : String) (decode : JsonValue → Except Error α)
    (fallback : α) : Except Error α :=
  match value.find field with
  | some member => if member.isObject then decode member else .ok fallback
  | none => .ok fallback

def jsonOptionalNanos (value : JsonValue) (field : String) : Except Error (Option Nanos) := do
  return (← value.optionalInt field).map Int64.ofInt

def decodeHopObservation (value : JsonValue) : Except Error HopObservation := do
  guardObject value "hop observation must be an object"
  let indexValue ← value.requireUint "index"
  if indexValue > 0xFFFFFFFF then throw ⟨.outOfRange, "hop index is outside the supported range", []⟩
  let index ← HopIndex.fromValue (UInt32.ofNat indexValue)
  let hop ← jsonId value "hop"
  let link ← jsonOptionalId value "link"
  let queue ← jsonOptionalId value "queue"
  let entryObject ← value.requireObject "entry"
  let exitObject ← value.requireObject "exit"
  let entry ← decodeTimestamp entryObject
  let exit ← decodeTimestamp exitObject
  let queueEntry ← decodeOptional value "queue_entry" decodeTimestamp default
  let queueExit ← decodeOptional value "queue_exit" decodeTimestamp default
  let dwellNs ← jsonOptionalNanos value "dwell_ns"
  let queueDwellNs ← jsonOptionalNanos value "queue_dwell_ns"
  let dwellUncertaintyNs ← jsonOptionalNanos value "dwell_uncertainty_ns"
  let queueDwellUncertaintyNs ← jsonOptionalNanos value "queue_dwell_uncertainty_ns"
  let evidence ← decodeOptional value "evidence" decodeEvidence default
  return {
    index, hop, link, queue, entry, exit, queueEntry, queueExit, dwellNs, queueDwellNs,
    dwellUncertaintyNs, queueDwellUncertaintyNs, evidence
    entryDomain := entry.domain
    exitDomain := exit.domain }

/-- A decoder applied to every item of an array, stopping at the first failure. -/
def decodeAll {α : Type} (decode : JsonValue → Except Error α) : List JsonValue → Except Error (List α)
  | [] => .ok []
  | entry :: entries => do
    let value ← decode entry
    let values ← decodeAll decode entries
    return value :: values

def decodeMeasurement (value : JsonValue) : Except Error MeasurementRecord := do
  guardObject value "measurement must be an object"
  let id : MeasurementId ← jsonOptionalId value "id"
  let path ← jsonId value "path"
  let generation ← jsonId value "generation"
  let source ← jsonId value "source"
  let epoch ← jsonId value "epoch"
  let incarnation ← jsonId value "incarnation"
  let sourceRevision ← jsonRevision value "source_revision"
  let sequence : Sequence := UInt64.ofNat (← value.requireUint "sequence")
  let synthetic ← value.requireBool "synthetic"
  let requestObject ← value.requireObject "request"
  let responseObject ← value.requireObject "response"
  let request ← decodeTimestamp requestObject
  let response ← decodeTimestamp responseObject
  if !request.domain.valid || request.domain != response.domain then
    throw ⟨.parseError, "request and response must share one clock domain", []⟩
  let rtt ← value.requireInt "rtt_ns"
  let stampObject ← value.requireObject "stamp"
  let stamp ← decodeObservationStamp stampObject
  let evidence ← decodeOptional value "evidence" decodeEvidence default
  let hops ← match value.find "hops" with
    | none => pure []
    | some hops => do decodeAll decodeHopObservation (← hops.asArray)
  return {
    id := if id.valid then id else deriveMeasurementId source epoch incarnation sequence
    path, generation, source, epoch, incarnation, sourceRevision, sequence, synthetic, request, response,
    stamp, evidence, hops
    domain := request.domain
    rttNs := Int64.ofInt rtt }

def decodeSource (value : JsonValue) : Except Error SourceDescriptor := do
  guardObject value "source must be an object"
  let name ← jsonName value "name"
  let kind ← jsonNamed sourceKinds "unknown source kind" value "source_kind"
  let authority ← jsonNamed authorityClasses "unknown authority class" value "authority"
  let semantics ← jsonSemantics value
  let revision ← jsonRevision value "revision"
  return {
    id := .deriveFrom name.str
    name, kind, authority, semantics, revision
    description := jsonText value "description" }

def decodeEndpoint (value : JsonValue) : Except Error EndpointDef := do
  let name ← jsonName value "name"
  let role ← jsonNamed endpointRoles "unknown endpoint role" value "role"
  let revision ← jsonRevision value "revision"
  return { id := .deriveFrom name.str, name, role, revision }

def decodeLink (value : JsonValue) : Except Error LinkDef := do
  let name ← jsonName value "name"
  let source ← jsonOptionalId value "from"
  let target ← jsonOptionalId value "to"
  let revision ← jsonRevision value "revision"
  return { id := .deriveFrom name.str, name, source, target, revision }

def decodeQueue (value : JsonValue) : Except Error QueueDef := do
  let name ← jsonName value "name"
  let link ← jsonOptionalId value "link"
  let semantics ← jsonSemantics value
  let revision ← jsonRevision value "revision"
  return { id := .deriveFrom name.str, name, link, semantics, revision }

def decodeHop (value : JsonValue) : Except Error HopDef := do
  let name ← jsonName value "name"
  let kind ← jsonNamed hopKinds "unknown hop kind" value "hop_kind"
  let link ← jsonOptionalId value "link"
  let queue ← jsonOptionalId value "queue"
  let revision ← jsonRevision value "revision"
  return { id := .deriveFrom name.str, name, kind, link, queue, revision }

def decodeGeneration (value : JsonValue) : Except Error GenerationDef := do
  let name ← jsonName value "name"
  let revision ← jsonRevision value "revision"
  let supersedes ← jsonOptionalId value "supersedes"
  return {
    id := .deriveFrom name.str
    name, revision, supersedes
    description := jsonText value "description" }

def decodePath (value : JsonValue) : Except Error PathDef := do
  let name ← jsonName value "name"
  let generation ← jsonId value "generation"
  let revision ← jsonRevision value "revision"
  let items ← value.requireArray "hops"
  let hops ← decodeAll (fun entry => do StrongId.parseHex (← entry.asString)) items
  return { id := .deriveFrom name.str, name, generation, revision, hops }

def decodeClockDomain (value : JsonValue) : Except Error ClockDomainDef := do
  let name ← jsonName value "name"
  let isReference ← value.requireBool "is_reference"
  return {
    id := .deriveFrom name.str
    name, isReference
    description := jsonText value "description" }

/-- The revision of a sync report may be absent, but a present zero is refused. -/
def jsonOptionalRevision (value : JsonValue) : Except Error Revision :=
  match value.find "revision" with
  | none => .ok default
  | some member => if member.isNull then .ok default else jsonRevision value "revision"

def decodeClockSync (value : JsonValue) : Except Error ClockSync := do
  let domain ← jsonId value "domain"
  let reference ← jsonOptionalId value "reference"
  let state ← jsonNamed clockSyncStates "unknown clock sync state" value "state"
  let offset ← value.requireInt "offset_ns"
  let skew ← value.requireInt "skew_ppb"
  let uncertainty ← value.requireInt "uncertainty_ns"
  let validFor ← value.requireInt "valid_for_ns"
  let observedNs ← value.requireInt "observed_at_ns"
  let observedDomain ← parseDomain (← value.requireString "observed_at_domain")
  let reportedBy ← jsonOptionalId value "reported_by"
  let generation ← jsonOptionalId value "generation"
  let epoch ← jsonOptionalId value "epoch"
  let incarnation ← jsonOptionalId value "incarnation"
  let revision ← jsonOptionalRevision value
  return {
    domain, reference, state, reportedBy, generation, epoch, incarnation, revision
    offsetNs := Int64.ofInt offset
    skewPpb := Int64.ofInt skew
    uncertaintyNs := Int64.ofInt uncertainty
    validForNs := Int64.ofInt validFor
    observedAt := ⟨Int64.ofInt observedNs, observedDomain⟩ }

end LatencyObservatory.Model
