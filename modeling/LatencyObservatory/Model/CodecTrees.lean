import LatencyObservatory.Core.JsonFields
import LatencyObservatory.Core.Merge
import LatencyObservatory.Model.Codec

/-!
# The trees of the codecs

The tree that each `write_json` function of `model/codec.cpp` writes for timestamps, evidence, hops and records.
Each is well formed, and its decoder gives back the value. What a decoder reads of an object is stated once for
each kind of member.
-/

namespace LatencyObservatory.Model

open LatencyObservatory.Core JsonValue

/-! ### Name tables -/

/-- Every value has a name, and no name stands for two. -/
structure NamesAll {α : Type} (table : List (α × Bytes)) : Prop where
  distinct : (table.map Prod.snd).Nodup
  all : ∀ value, value ∈ table.map Prod.fst

theorem sourceKinds_all : NamesAll sourceKinds :=
  ⟨by decide, by intro value; cases value <;> decide⟩

theorem authorityClasses_all : NamesAll authorityClasses :=
  ⟨by decide, by intro value; cases value <;> decide⟩

theorem hopKinds_all : NamesAll hopKinds :=
  ⟨by decide, by intro value; cases value <;> decide⟩

theorem endpointRoles_all : NamesAll endpointRoles :=
  ⟨by decide, by intro value; cases value <;> decide⟩

theorem states_all : NamesAll states :=
  ⟨by decide, by intro value; cases value <;> decide⟩

theorem freshnesses_all : NamesAll freshnesses :=
  ⟨by decide, by intro value; cases value <;> decide⟩

theorem confidences_all : NamesAll confidences :=
  ⟨by decide, by intro value; cases value <;> decide⟩

/-- Literals by their characters: many names are compared without decoding each of them again and again. -/
inductive Spelled : List Bytes → List (List Char) → Prop
  | nil : Spelled [] []
  | cons {chars : List Char} {names : List Bytes} {spellings : List (List Char)} (h : Spelled names spellings) :
    Spelled (text (String.ofList chars) :: names) (chars :: spellings)

theorem Spelled.nodup {names : List Bytes} {spellings : List (List Char)} (h : Spelled names spellings)
    (hdistinct : (spellings.map (List.map fun c => UInt8.ofNat c.toNat)).Nodup) : names.Nodup := by
  have hnames : names = spellings.map (List.map fun c => UInt8.ofNat c.toNat) := by
    clear hdistinct
    induction h with
    | nil => rfl
    | cons _ ih => rw [List.map_cons, ← ih, text, String.toList_ofList]
  rw [hnames]
  exact hdistinct

theorem reasonCodes_all : NamesAll reasonCodes := by
  constructor
  · apply Spelled.nodup
    · unfold reasonCodes
      simp only [List.map]
      repeat (first | exact .nil | apply Spelled.cons)
    · decide +kernel
  · intro value
    cases value <;> decide

/-! ### Members -/

section Members

variable {members : List (Bytes × JsonValue)} {name : String}

theorem jsonId_eq {tag : Tag} {id : StrongId tag} (h : (object members).find name = some (.string id.toHex)) :
    jsonId (object members) name = .ok id := by
  unfold jsonId
  rw [requireString_eq h]
  exact id.parseHex_toHex

theorem toHex_ne_nil {tag : Tag} (id : StrongId tag) : id.toHex.isEmpty = false := by
  rw [List.isEmpty_eq_false_iff_exists_mem]
  have hlength : 0 < id.toHex.length := by
    rw [StrongId.toHex, hexFixed_length]
    decide
  exact List.exists_mem_of_length_pos hlength

theorem eq_none_of_not_valid {tag : Tag} {id : StrongId tag} (h : ¬id.valid = true) : id = .none := by
  obtain ⟨value⟩ := id
  unfold StrongId.valid at h
  rw [bne_iff_ne, ne_eq, not_not] at h
  exact congrArg StrongId.mk h

theorem jsonOptionalId_eq {tag : Tag} {id : StrongId tag}
    (h : (object members).find name = some (.string (optionalHex id))) :
    jsonOptionalId (object members) name = .ok id := by
  unfold jsonOptionalId jsonOptionalIdHex
  rw [h]
  unfold optionalHex
  by_cases hvalid : id.valid = true
  · rw [if_pos hvalid]
    simp only [toHex_ne_nil, Bool.false_eq_true, if_false]
    exact id.parseHex_toHex
  · rw [if_neg hvalid, eq_none_of_not_valid hvalid]
    rfl

theorem parseDomain_optionalHex (domain : ClockDomainId) : parseDomain (optionalHex domain) = .ok domain := by
  unfold parseDomain optionalHex
  by_cases hvalid : domain.valid = true
  · rw [if_pos hvalid, toHex_ne_nil, if_neg Bool.false_ne_true]
    exact domain.parseHex_toHex
  · rw [if_neg hvalid, eq_none_of_not_valid hvalid]
    rfl

theorem jsonNamed_eq {α : Type} [DecidableEq α] {table : List (α × Bytes)} (hall : NamesAll table) {fallback : Bytes}
    {value : α} {message : String} (h : (object members).find name = some (.string (nameOf table fallback value))) :
    jsonNamed table message (object members) name = .ok value := by
  unfold jsonNamed
  rw [requireString_eq h]
  dsimp only [bind, Except.bind]
  rw [parseNamed_nameOf hall.distinct (hall.all value)]

theorem jsonOptionalNamed_eq {α : Type} [DecidableEq α] {table : List (α × Bytes)} (hall : NamesAll table)
    {fallback : Bytes} {value other : α} {message : String}
    (h : (object members).find name = some (.string (nameOf table fallback value))) :
    jsonOptionalNamed table message (object members) name other = .ok value := by
  unfold jsonOptionalNamed
  rw [h]
  dsimp only [JsonValue.asString, bind, Except.bind]
  rw [parseNamed_nameOf hall.distinct (hall.all value)]

theorem jsonText_eq {s : Bytes} (h : (object members).find name = some (.string s)) :
    jsonText (object members) name = s := by
  unfold jsonText
  rw [h]

theorem jsonName_eq {known : Name} (hname : Name.parse known.str = .ok known)
    (h : (object members).find name = some (.string known.str)) : jsonName (object members) name = .ok known := by
  unfold jsonName
  rw [requireString_eq h]
  exact hname

theorem jsonRevision_eq {revision : Revision} (hvalid : revision.valid = true)
    (h : (object members).find name = some (.number revision.value.toNat)) :
    jsonRevision (object members) name = .ok revision := by
  obtain ⟨value⟩ := revision
  have hpositive : value.toNat ≠ 0 := by
    intro hzero
    have hvalue : value = 0 := UInt32.toNat_inj.mp hzero
    rw [hvalue] at hvalid
    cases hvalid
  have hlt := value.toNat_lt
  unfold jsonRevision
  rw [requireUint_eq h]
  show (if value.toNat = 0 ∨ value.toNat > 0xFFFFFFFF then _ else Except.ok (⟨UInt32.ofNat value.toNat⟩ : Revision)) = _
  rw [if_neg (by omega), UInt32.ofNat_toNat]

theorem jsonOptionalNanos_eq {value : Option Nanos}
    (h : (object members).find name = some (ofOption (value.map Int64.toInt))) :
    jsonOptionalNanos (object members) name = .ok value := by
  unfold jsonOptionalNanos
  rw [optionalInt_eq h]
  cases value with
  | none => rfl
  | some n => exact congrArg (fun n => Except.ok (some n)) n.ofInt_toInt

theorem decodeOptional_eq {α : Type} {decode : JsonValue → Except Error α} {others : List (Bytes × JsonValue)}
    {value fallback : α} (hdecode : decode (object others) = .ok value)
    (h : (object members).find name = some (object others)) :
    decodeOptional (object members) name decode fallback = .ok value := by
  unfold decodeOptional
  rw [h]
  exact hdecode

theorem decodeAll_map_map {α β : Type} {decode : JsonValue → Except Error β} {json : α → JsonValue} {restored : α → β}
    {items : List α} (h : ∀ a ∈ items, decode (json a) = .ok (restored a)) :
    decodeAll decode (items.map json) = .ok (items.map restored) := by
  induction items with
  | nil => rfl
  | cons a items ih =>
    rw [List.forall_mem_cons] at h
    rw [List.map_cons, decodeAll, h.1, ih h.2]
    rfl

theorem decodeAll_map {α : Type} {decode : JsonValue → Except Error α} {json : α → JsonValue} {items : List α}
    (h : ∀ a ∈ items, decode (json a) = .ok a) : decodeAll decode (items.map json) = .ok items := by
  have hall := decodeAll_map_map h
  rwa [List.map_id'] at hall

theorem decodeAll_map_ok {α β : Type} {decode : JsonValue → Except Error β} {json : α → JsonValue} {items : List α}
    {values : List β} (h : decodeAll decode (items.map json) = .ok values) :
    ∀ a ∈ items, ∃ value, decode (json a) = .ok value := by
  induction items generalizing values with
  | nil => exact List.forall_mem_nil _
  | cons a items ih =>
    rw [List.map_cons, decodeAll] at h
    obtain ⟨value, hvalue, h⟩ := bind_eq_ok_iff.mp h
    obtain ⟨rest, hrest, -⟩ := bind_eq_ok_iff.mp h
    exact List.forall_mem_cons.mpr ⟨⟨value, hvalue⟩, ih hrest⟩

end Members

theorem representable_toInt (n : Nanos) : Representable n.toInt := by
  have hlow := n.le_toInt
  have hhigh := n.toInt_lt
  unfold Representable
  omega

theorem representable_natCast {n : Nat} (h : n < 2 ^ 63) : Representable n := by
  unfold Representable
  omega

/-! ### Timestamps -/

def timestampJson (timestamp : Timestamp) : JsonValue :=
  .object [(text "ns", .number timestamp.ns.toInt), (text "domain", .string (optionalHex timestamp.domain))]

theorem writeTimestamp_eq (w : JsonWriter) (timestamp : Timestamp) :
    writeTimestamp w timestamp = w.writeValue (timestampJson timestamp) := rfl

theorem timestampJson_wellFormed (timestamp : Timestamp) : (timestampJson timestamp).WellFormed :=
  ⟨by simp only [List.map]; decide, representable_toInt _, trivial, trivial⟩

theorem timestampJson_nesting (timestamp : Timestamp) : (timestampJson timestamp).nesting = 1 := rfl

theorem decodeTimestamp_json (timestamp : Timestamp) : decodeTimestamp (timestampJson timestamp) = .ok timestamp := by
  have hns : (timestampJson timestamp).requireInt "ns" = .ok timestamp.ns.toInt := requireInt_eq rfl
  have hdomain : (timestampJson timestamp).requireString "domain" = .ok (optionalHex timestamp.domain) :=
    requireString_eq rfl
  unfold decodeTimestamp
  rw [hns, hdomain]
  show (parseDomain (optionalHex timestamp.domain)).bind
    (fun domain => Except.ok (⟨Int64.ofInt timestamp.ns.toInt, domain⟩ : Timestamp)) = _
  rw [parseDomain_optionalHex, Int64.ofInt_toInt]
  rfl

/-! ### Evidence -/

def reasonJson (reason : Reason) : JsonValue :=
  .object [(text "code", .string (nameOf reasonCodes (text "unknown_reason") reason.code)),
    (text "detail", .string reason.detail)]

def evidenceJson (evidence : Evidence) : JsonValue :=
  .object [(text "state", .string (nameOf states (text "unknown") evidence.state)),
    (text "freshness", .string (nameOf freshnesses (text "unknown") evidence.freshness)),
    (text "confidence", .string (nameOf confidences (text "none") evidence.confidence)),
    (text "reasons_truncated", .bool evidence.reasonsTruncated),
    (text "reasons", .array (evidence.reasons.map reasonJson))]

theorem writeReason_eq (w : JsonWriter) (reason : Reason) :
    writeReason w reason = w.writeValue (reasonJson reason) := rfl

theorem writeEvidence_eq (w : JsonWriter) (evidence : Evidence) :
    writeEvidence w evidence = w.writeValue (evidenceJson evidence) := by
  simp only [writeEvidence, JsonWriter.foldl_writes writeReason_eq]
  rfl

theorem evidenceJson_wellFormed (evidence : Evidence) : (evidenceJson evidence).WellFormed := by
  refine ⟨by simp only [List.map]; decide, trivial, trivial, trivial, trivial, ?_, trivial⟩
  rw [WellFormed, itemsWellFormed_map]
  exact fun reason _ => ⟨by simp only [List.map]; decide, trivial, trivial, trivial⟩

theorem evidenceJson_nesting (evidence : Evidence) : (evidenceJson evidence).nesting ≤ 3 := by
  have hreasons := itemsNesting_map_le (fun reason (_ : reason ∈ evidence.reasons) =>
    show (reasonJson reason).nesting ≤ 1 from Nat.le_refl _)
  simp only [evidenceJson, nesting, membersNesting]
  omega

theorem decodeReason_json (reason : Reason) : decodeReason (reasonJson reason) = .ok reason := by
  unfold decodeReason
  rw [reasonJson, jsonNamed_eq reasonCodes_all rfl, jsonText_eq rfl]
  rfl

theorem decodeReasons_json (reasons : List Reason) (evidence : Evidence) :
    decodeReasons (reasons.map reasonJson) evidence = .ok (evidence.addReasons reasons) := by
  induction reasons generalizing evidence with
  | nil => rfl
  | cons reason reasons ih =>
    rw [List.map_cons, decodeReasons, decodeReason_json]
    exact ih _

theorem addReasons_parts (evidence : Evidence) :
    ((((default : Evidence).setState evidence.state).setFreshness evidence.freshness).setConfidence
      evidence.confidence).addReasons evidence.reasons = { evidence with reasonsTruncated := false } := by
  apply Evidence.ext_noted
  · rw [Evidence.addReasons_standing]
    rfl
  · rw [Evidence.addReasons_noted]
    exact Evidence.addAll_reasons evidence false

theorem decodeEvidence_json (evidence : Evidence) :
    decodeEvidence (evidenceJson evidence) = .ok { evidence with reasonsTruncated := false } := by
  have hreasons : (evidenceJson evidence).find "reasons" = some (.array (evidence.reasons.map reasonJson)) := rfl
  unfold decodeEvidence
  rw [hreasons, evidenceJson, jsonNamed_eq states_all rfl, jsonOptionalNamed_eq freshnesses_all rfl,
    jsonOptionalNamed_eq confidences_all rfl, ← addReasons_parts evidence]
  exact decodeReasons_json evidence.reasons _

theorem decodeEvidence_json_eq {evidence : Evidence} (h : evidence.reasonsTruncated = false) :
    decodeEvidence (evidenceJson evidence) = .ok evidence := by
  rw [decodeEvidence_json]
  congr 1
  apply Evidence.ext_noted
  · rfl
  · exact congrArg (Prod.mk evidence.reasons) h.symm

/-! ### Hops and records -/

def observationStampJson (stamp : ObservationStamp) : JsonValue :=
  .object [(text "observed_at", timestampJson stamp.observedAt), (text "received_at", timestampJson stamp.receivedAt)]

def hopObservationJson (hop : HopObservation) : JsonValue :=
  .object [(text "index", .number hop.index.value.toNat),
    (text "hop", .string hop.hop.toHex),
    (text "link", .string (optionalHex hop.link)),
    (text "queue", .string (optionalHex hop.queue)),
    (text "entry", timestampJson hop.entry),
    (text "exit", timestampJson hop.exit),
    (text "queue_entry", timestampJson hop.queueEntry),
    (text "queue_exit", timestampJson hop.queueExit),
    (text "dwell_ns", ofOption (hop.dwellNs.map Int64.toInt)),
    (text "queue_dwell_ns", ofOption (hop.queueDwellNs.map Int64.toInt)),
    (text "dwell_uncertainty_ns", ofOption (hop.dwellUncertaintyNs.map Int64.toInt)),
    (text "queue_dwell_uncertainty_ns", ofOption (hop.queueDwellUncertaintyNs.map Int64.toInt)),
    (text "evidence", evidenceJson hop.evidence)]

def measurementJson (record : MeasurementRecord) : JsonValue :=
  .object [(text "kind", .string (text "measurement")),
    (text "id", .string (writtenId record).toHex),
    (text "identity_derived", .bool (!record.id.valid)),
    (text "path", .string record.path.toHex),
    (text "generation", .string record.generation.toHex),
    (text "source", .string record.source.toHex),
    (text "epoch", .string record.epoch.toHex),
    (text "incarnation", .string record.incarnation.toHex),
    (text "source_revision", .number record.sourceRevision.value.toNat),
    (text "sequence", .number record.sequence.toNat),
    (text "synthetic", .bool record.synthetic),
    (text "request", timestampJson record.request),
    (text "response", timestampJson record.response),
    (text "rtt_ns", .number record.rttNs.toInt),
    (text "stamp", observationStampJson record.stamp),
    (text "evidence", evidenceJson record.evidence),
    (text "hops", .array (record.hops.map hopObservationJson))]

theorem writeObservationStamp_eq (w : JsonWriter) (stamp : ObservationStamp) :
    writeObservationStamp w stamp = w.writeValue (observationStampJson stamp) := rfl

theorem writeHopObservation_eq (w : JsonWriter) (hop : HopObservation) :
    writeHopObservation w hop = w.writeValue (hopObservationJson hop) := by
  simp only [writeHopObservation, writeTimestamp_eq, writeEvidence_eq, JsonWriter.fieldUint_eq,
    JsonWriter.fieldOptionalInt_eq]
  rfl

theorem writeMeasurement_eq (w : JsonWriter) (record : MeasurementRecord) :
    writeMeasurement w record = w.writeValue (measurementJson record) := by
  simp only [writeMeasurement, writeTimestamp_eq, writeEvidence_eq, writeObservationStamp_eq, JsonWriter.fieldUint_eq,
    JsonWriter.foldl_writes writeHopObservation_eq]
  rfl

theorem ofOption_nanos_wellFormed (value : Option Nanos) : (ofOption (value.map Int64.toInt)).WellFormed := by
  apply ofOption_wellFormed
  intro n hn
  obtain ⟨nanos, -, rfl⟩ := Option.map_eq_some_iff.mp hn
  exact representable_toInt nanos

theorem representable_uint32 (n : UInt32) : Representable n.toNat :=
  representable_natCast (Nat.lt_trans n.toNat_lt (by decide))

theorem hopObservationJson_wellFormed (hop : HopObservation) : (hopObservationJson hop).WellFormed := by
  have hstamps := timestampJson_wellFormed
  have hdwells := ofOption_nanos_wellFormed
  refine ⟨by simp only [List.map]; decide, representable_uint32 _, trivial, trivial, trivial, hstamps _, hstamps _,
    hstamps _, hstamps _, hdwells _, hdwells _, hdwells _, hdwells _, evidenceJson_wellFormed _, trivial⟩

theorem measurementJson_wellFormed {record : MeasurementRecord} (h : record.sequence.toNat < 2 ^ 63) :
    (measurementJson record).WellFormed := by
  have hstamps := timestampJson_wellFormed
  have hhops : (JsonValue.array (record.hops.map hopObservationJson)).WellFormed := by
    rw [WellFormed, itemsWellFormed_map]
    exact fun hop _ => hopObservationJson_wellFormed hop
  have hstamp : (observationStampJson record.stamp).WellFormed :=
    ⟨by simp only [List.map]; decide, hstamps _, hstamps _, trivial⟩
  exact ⟨by simp only [List.map]; decide, trivial, trivial, trivial, trivial, trivial, trivial, trivial, trivial,
    representable_uint32 _, representable_natCast h, trivial, hstamps _, hstamps _, representable_toInt _, hstamp,
    evidenceJson_wellFormed _, hhops, trivial⟩

theorem hopObservationJson_nesting (hop : HopObservation) : (hopObservationJson hop).nesting ≤ 4 := by
  have hevidence := evidenceJson_nesting hop.evidence
  simp only [hopObservationJson, nesting, membersNesting, timestampJson_nesting, ofOption_nesting]
  omega

theorem measurementJson_nesting (record : MeasurementRecord) : (measurementJson record).nesting ≤ 6 := by
  have hevidence := evidenceJson_nesting record.evidence
  have hhops := itemsNesting_map_le (fun hop (_ : hop ∈ record.hops) => hopObservationJson_nesting hop)
  simp only [measurementJson, nesting, membersNesting, timestampJson_nesting, observationStampJson]
  omega

theorem decodeObservationStamp_json (stamp : ObservationStamp) :
    decodeObservationStamp (observationStampJson stamp) = .ok { stamp with receivedMono := default } := by
  have hobserved : (observationStampJson stamp).requireObject "observed_at" = .ok (timestampJson stamp.observedAt) :=
    requireObject_eq rfl
  have hreceived : (observationStampJson stamp).requireObject "received_at" = .ok (timestampJson stamp.receivedAt) :=
    requireObject_eq rfl
  unfold decodeObservationStamp
  rw [hobserved, hreceived]
  show (decodeTimestamp (timestampJson stamp.observedAt)).bind (fun observedAt =>
    (decodeTimestamp (timestampJson stamp.receivedAt)).bind fun receivedAt =>
      Except.ok ({ observedAt, receivedAt } : ObservationStamp)) = _
  rw [decodeTimestamp_json, decodeTimestamp_json]
  rfl

theorem fromValue_toNat (index : HopIndex) : HopIndex.fromValue (UInt32.ofNat index.value.toNat) = .ok index := by
  obtain ⟨value, hlt⟩ := index
  show HopIndex.fromValue (UInt32.ofNat value.toNat) = _
  rw [UInt32.ofNat_toNat]
  exact dif_pos hlt

/-- What the decoder takes the domains of a hop from, and the flag that it does not read. -/
structure HopObservation.Written (hop : HopObservation) : Prop where
  entryDomain : hop.entryDomain = hop.entry.domain
  exitDomain : hop.exitDomain = hop.exit.domain
  evidence : hop.evidence.reasonsTruncated = false

theorem decodeHopObservation_json {hop : HopObservation} (h : hop.Written) :
    decodeHopObservation (hopObservationJson hop) = .ok hop := by
  have hindex : (hopObservationJson hop).requireUint "index" = .ok hop.index.value.toNat := requireUint_eq rfl
  have hrange : ¬hop.index.value.toNat > 0xFFFFFFFF := by
    have hlt := hop.index.lt_maxExclusive
    omega
  have hhop : jsonId (hopObservationJson hop) "hop" = .ok hop.hop := jsonId_eq rfl
  have hlink : jsonOptionalId (hopObservationJson hop) "link" = .ok hop.link := jsonOptionalId_eq rfl
  have hqueue : jsonOptionalId (hopObservationJson hop) "queue" = .ok hop.queue := jsonOptionalId_eq rfl
  have hentry : (hopObservationJson hop).requireObject "entry" = .ok (timestampJson hop.entry) := requireObject_eq rfl
  have hexit : (hopObservationJson hop).requireObject "exit" = .ok (timestampJson hop.exit) := requireObject_eq rfl
  have hqueueEntry : decodeOptional (hopObservationJson hop) "queue_entry" decodeTimestamp default =
      .ok hop.queueEntry := decodeOptional_eq (decodeTimestamp_json hop.queueEntry) rfl
  have hqueueExit : decodeOptional (hopObservationJson hop) "queue_exit" decodeTimestamp default =
      .ok hop.queueExit := decodeOptional_eq (decodeTimestamp_json hop.queueExit) rfl
  have hdwell : jsonOptionalNanos (hopObservationJson hop) "dwell_ns" = .ok hop.dwellNs := jsonOptionalNanos_eq rfl
  have hqueueDwell : jsonOptionalNanos (hopObservationJson hop) "queue_dwell_ns" = .ok hop.queueDwellNs :=
    jsonOptionalNanos_eq rfl
  have huncertainty : jsonOptionalNanos (hopObservationJson hop) "dwell_uncertainty_ns" =
      .ok hop.dwellUncertaintyNs := jsonOptionalNanos_eq rfl
  have hqueueUncertainty : jsonOptionalNanos (hopObservationJson hop) "queue_dwell_uncertainty_ns" =
      .ok hop.queueDwellUncertaintyNs := jsonOptionalNanos_eq rfl
  have hevidence : decodeOptional (hopObservationJson hop) "evidence" decodeEvidence default = .ok hop.evidence :=
    decodeOptional_eq (decodeEvidence_json_eq h.evidence) rfl
  have hguard : guardObject (hopObservationJson hop) "hop observation must be an object" = .ok () := rfl
  unfold decodeHopObservation
  simp only [hguard, hindex, hrange, hhop, hlink, hqueue, hentry, hexit, hqueueEntry, hqueueExit, hdwell, hqueueDwell,
    huncertainty, hqueueUncertainty, hevidence, decodeTimestamp_json, fromValue_toNat, bind, Except.bind, pure,
    Except.pure, if_false, ← h.entryDomain, ← h.exitDomain]

/-- What a record has to be for its text to say all of it but the monotonic time of its receipt. -/
structure MeasurementRecord.Written (record : MeasurementRecord) : Prop where
  id : record.id.valid = true
  revision : record.sourceRevision.valid = true
  request : record.request.domain = record.domain
  response : record.response.domain = record.domain
  domain : record.domain.valid = true
  evidence : record.evidence.reasonsTruncated = false
  hops : ∀ hop ∈ record.hops, hop.Written

/-- The record without the monotonic time. -/
def MeasurementRecord.persisted (record : MeasurementRecord) : MeasurementRecord :=
  { record with stamp := { record.stamp with receivedMono := default } }

theorem decodeMeasurement_json {record : MeasurementRecord} (h : record.Written) :
    decodeMeasurement (measurementJson record) = .ok record.persisted := by
  have hguard : guardObject (measurementJson record) "measurement must be an object" = .ok () := rfl
  have hwritten : writtenId record = record.id := if_pos h.id
  have hid : jsonOptionalId (measurementJson record) "id" = .ok record.id := by
    apply jsonOptionalId_eq
    unfold optionalHex
    rw [if_pos h.id, ← hwritten]
    rfl
  have hpath : jsonId (measurementJson record) "path" = .ok record.path := jsonId_eq rfl
  have hgeneration : jsonId (measurementJson record) "generation" = .ok record.generation := jsonId_eq rfl
  have hsource : jsonId (measurementJson record) "source" = .ok record.source := jsonId_eq rfl
  have hepoch : jsonId (measurementJson record) "epoch" = .ok record.epoch := jsonId_eq rfl
  have hincarnation : jsonId (measurementJson record) "incarnation" = .ok record.incarnation := jsonId_eq rfl
  have hrevision : jsonRevision (measurementJson record) "source_revision" = .ok record.sourceRevision :=
    jsonRevision_eq h.revision rfl
  have hsequence : (measurementJson record).requireUint "sequence" = .ok record.sequence.toNat := requireUint_eq rfl
  have hsynthetic : (measurementJson record).requireBool "synthetic" = .ok record.synthetic := requireBool_eq rfl
  have hrequest : (measurementJson record).requireObject "request" = .ok (timestampJson record.request) :=
    requireObject_eq rfl
  have hresponse : (measurementJson record).requireObject "response" = .ok (timestampJson record.response) :=
    requireObject_eq rfl
  have hrtt : (measurementJson record).requireInt "rtt_ns" = .ok record.rttNs.toInt := requireInt_eq rfl
  have hstamp : (measurementJson record).requireObject "stamp" = .ok (observationStampJson record.stamp) :=
    requireObject_eq rfl
  have hevidence : decodeOptional (measurementJson record) "evidence" decodeEvidence default = .ok record.evidence :=
    decodeOptional_eq (decodeEvidence_json_eq h.evidence) rfl
  have hfind : (measurementJson record).find "hops" = some (.array (record.hops.map hopObservationJson)) := rfl
  have hhops := decodeAll_map fun hop hhop => decodeHopObservation_json (h.hops hop hhop)
  have hexchange : (!record.domain.valid || record.domain != record.response.domain) = false := by
    rw [h.response, h.domain]
    simp
  have harray : (JsonValue.array (record.hops.map hopObservationJson)).asArray =
      .ok (record.hops.map hopObservationJson) := rfl
  unfold decodeMeasurement
  simp only [hguard, hid, hpath, hgeneration, hsource, hepoch, hincarnation, hrevision, hsequence, hsynthetic, hrequest,
    hresponse, hrtt, hstamp, hevidence, hfind, harray, hhops, decodeTimestamp_json, decodeObservationStamp_json,
    hexchange, bind, Except.bind, pure, Except.pure, Bool.false_eq_true, if_false, h.id, if_true, h.request,
    UInt64.ofNat_toNat, Int64.ofInt_toInt]
  rfl

theorem decodeMeasurement_written {record : MeasurementRecord} (h : record.Written)
    (hsequence : record.sequence.toNat < 2 ^ 63) {maxDepth : Nat} (hdepth : 16 ≤ maxDepth) (pretty : Bool) :
    parseJson (writeMeasurement { pretty := pretty } record).out maxDepth = .ok (measurementJson record) ∧
      decodeMeasurement (measurementJson record) = .ok record.persisted := by
  have hnesting := measurementJson_nesting record
  refine ⟨?_, decodeMeasurement_json h⟩
  rw [writeMeasurement_eq]
  exact parse_written (measurementJson_wellFormed hsequence) (by omega) pretty

end LatencyObservatory.Model
