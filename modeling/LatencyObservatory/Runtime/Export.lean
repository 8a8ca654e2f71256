import LatencyObservatory.Core.PolicyText
import LatencyObservatory.Core.Sha256
import LatencyObservatory.Lib.Listing
import LatencyObservatory.Lib.Separated
import LatencyObservatory.Runtime.Explain

/-!
# Exports of the samples

The stored records as a table. Its columns are keyed by the hop index: a hop that a record did not report leaves two
empty fields, so no row is shifted.
-/

namespace LatencyObservatory.Runtime

open LatencyObservatory.Core LatencyObservatory.Model LatencyObservatory.Ingest

/-! ### The export -/

inductive ExportFormat where
  | json
  | csv
deriving DecidableEq, Repr

/-- The request of an export of the samples. -/
structure ExportRequest where
  format : ExportFormat := .json
  path : PathId := .none
  generation : GenerationId := .none
  start : Timestamp := default
  stop : Timestamp := default
  limit : Nat := 1000
  pretty : Bool := false
deriving DecidableEq

structure ExportResult where
  content : Bytes
  recordsExported : Nat := 0
  recordsSkipped : Nat := 0
  truncated : Bool := false
  contentDigest : Bytes := []
  notes : List Bytes := []
deriving DecidableEq

/-- `csv_escape`: a field with a separator, a quote or a line end is quoted, and its quotes are doubled. -/
def csvEscape (field : Bytes) : Bytes :=
  if field.any fun c => c == 44 || c == 34 || c == 10 || c == 13 then
    34 :: (field.flatMap fun c => if c == 34 then [34, c] else [c]) ++ [34]
  else field

/-- `optional_nanos_text`: an unknown quantity is an empty field. -/
def optionalNanosText : Option Nanos → Bytes
  | some value => decimalInt value.toInt
  | none => []

/-- The local predicate `matches` of `export_locked`. -/
def ExportRequest.matches (request : ExportRequest) (record : MeasurementRecord) : Bool :=
  !(request.path.valid && record.path != request.path) &&
    !(request.generation.valid && record.generation != request.generation) &&
    !(request.start.valid && record.stamp.receivedAt.ns < request.start.ns) &&
    !(request.stop.valid && record.stamp.receivedAt.ns ≥ request.stop.ns)

/-- `max_hops`: one more than the largest index of a hop, over all records. -/
def maxHops (records : List MeasurementRecord) : Nat :=
  records.foldl (fun most record => record.hops.foldl (fun most hop => max most (hop.index.value.toNat + 1)) most) 0

def csvHeader (columns : Nat) : Bytes :=
  text "measurement,path,generation,source,epoch,incarnation,sequence,observed_at_ns," ++
    text "observed_at_domain,received_at_ns,state,freshness,confidence,rtt_ns" ++
    (List.range columns).flatMap fun index =>
      text ",hop" ++ decimal index ++ text "_dwell_ns,hop" ++ decimal index ++ text "_queue_dwell_ns"

/-- `record.hop_at` of an index, where the index is in range. -/
def observationAt (record : MeasurementRecord) (index : Nat) : Option HopObservation :=
  match HopIndex.fromValue (UInt32.ofNat index) with
  | .ok index => record.hopAt index
  | .error _ => none

/-- The two columns of a hop index, with the separator before them. -/
def csvHop (record : MeasurementRecord) (index : Nat) : Bytes :=
  44 :: match observationAt record index with
    | some observation => optionalNanosText observation.dwellNs ++ [44] ++ optionalNanosText observation.queueDwellNs
    -- The hop was not reported: two empty fields.
    | none => [44]

def csvRow (columns : Nat) (record : MeasurementRecord) : Bytes :=
  csvEscape record.id.toHex ++ [44] ++ csvEscape record.path.toHex ++ [44] ++ csvEscape record.generation.toHex ++ [44] ++
    csvEscape record.source.toHex ++ [44] ++ csvEscape record.epoch.toHex ++ [44] ++
    csvEscape record.incarnation.toHex ++ [44] ++ decimal record.sequence.toNat ++ [44] ++
    decimalInt record.stamp.observedAt.ns.toInt ++ [44] ++ csvEscape record.stamp.observedAt.domain.toHex ++ [44] ++
    decimalInt record.stamp.receivedAt.ns.toInt ++ [44] ++ nameOf states (text "unknown") record.evidence.state ++ [44] ++
    nameOf freshnesses (text "unknown") record.evidence.freshness ++ [44] ++
    nameOf confidences (text "none") record.evidence.confidence ++ [44] ++ decimalInt record.rttNs.toInt ++
    (List.range columns).flatMap (csvHop record)

/-- `finish_export` of the output of a record loop. -/
def finishExport (output : Lib.Output Bytes) (request : ExportRequest) : ExportResult :=
  { content := output.out
    recordsExported := output.taken
    recordsSkipped := output.skipped
    truncated := output.truncated
    contentDigest := sha256Hex output.out
    notes := [text "unknown quantities are exported as null or an empty field, never as zero"] ++
      (if output.truncated then
        [text "the export stopped at the requested limit; records_skipped reports how many matched records were left out"]
        else []) ++
      (if request.format = .csv then [text "csv columns are positional and stable for this format version"] else []) }

namespace Engine

def exportLimit (e : Engine) (request : ExportRequest) : Nat :=
  min request.limit e.policy.limits.maxExportRecords

def exportCsv (e : Engine) (request : ExportRequest) : Lib.Output Bytes :=
  let columns := maxHops e.records
  e.records.foldl
    (Lib.outputStep (e.exportLimit request) request.matches fun content record => content ++ csvRow columns record ++ [10])
    { out := csvHeader columns ++ [10] }

def exportJson (e : Engine) (request : ExportRequest) : Lib.Output Bytes :=
  let w : JsonWriter := ({ pretty := request.pretty } : JsonWriter).beginObject
  let w := w.fieldString "kind" (text "samples")
  let w := w.fieldString "policy_digest" e.policy.digest
  let w := w.fieldArray "measurements"
  let output := e.records.foldl (Lib.outputStep (e.exportLimit request) request.matches writeMeasurement) { out := w }
  { output with out := output.out.endArray.endObject.out }

/-- `export_locked` for the samples. -/
def exportSamples (e : Engine) (request : ExportRequest) : Except Error ExportResult :=
  if request.limit = 0 then
    .error { code := .invalidArgument, message := "an export limit of zero would export nothing" }
  else match request.format with
    | .csv => .ok (finishExport (e.exportCsv request) request)
    | .json => .ok (finishExport (e.exportJson request) request)

end Engine

/-! ### The fields of a row -/

/-- A byte that neither ends a field nor asks for quotes. -/
def bare (c : UInt8) : Bool :=
  !(c == 44 || c == 34 || c == 10 || c == 13)

def Bare (field : Bytes) : Prop :=
  ∀ c ∈ field, bare c = true

theorem Bare.csvEscape_eq {field : Bytes} (h : Bare field) : csvEscape field = field := by
  have hnone : (field.any fun c => c == 44 || c == 34 || c == 10 || c == 13) = false := by
    rw [List.any_eq_false]
    intro c hc
    have hbare := h c hc
    rw [bare, Bool.not_eq_true'] at hbare
    rw [hbare]
    exact Bool.false_ne_true
  rw [csvEscape, hnone]
  rfl

theorem Bare.notMem {field : Bytes} (h : Bare field) : (44 : UInt8) ∉ field ∧ (10 : UInt8) ∉ field :=
  ⟨fun hc => absurd (h 44 hc) (by decide), fun hc => absurd (h 10 hc) (by decide)⟩

theorem Bare.append {field other : Bytes} (h : Bare field) (hother : Bare other) : Bare (field ++ other) := by
  intro c hc
  rcases List.mem_append.mp hc with hleft | hright
  · exact h c hleft
  · exact hother c hright

theorem bare_of_isDigit {c : UInt8} (h : isDigit c = true) : bare c = true := by
  have hall : ∀ n < 256, isDigit (UInt8.ofNat n) = true → bare (UInt8.ofNat n) = true := by decide +kernel
  have hread := hall c.toNat c.toNat_lt
  rw [UInt8.ofNat_toNat] at hread
  exact hread h

theorem bare_decimal (n : Nat) : Bare (decimal n) := fun c hc => bare_of_isDigit (decimal_digits n c hc)

theorem bare_decimalInt (i : Int) : Bare (decimalInt i) := by
  intro c hc
  rcases decimalInt_characters i c hc with hdigit | rfl
  · exact bare_of_isDigit hdigit
  · decide

theorem bare_toHex {tag : Tag} (id : StrongId tag) : Bare id.toHex := by
  intro c hc
  obtain ⟨i, -, rfl⟩ := List.mem_map.mp hc
  have hall : ∀ d < 16, bare (hexDigit d) = true := by decide
  exact hall _ (Nat.mod_lt _ (by decide))

theorem bare_optionalNanosText (value : Option Nanos) : Bare (optionalNanosText value) := by
  cases value with
  | none => exact fun _ hc => absurd hc List.not_mem_nil
  | some value => exact bare_decimalInt value.toInt

theorem bare_nameOf {α : Type} [DecidableEq α] {table : List (α × Bytes)} {fallback : Bytes}
    (htable : ∀ row ∈ table, Bare row.2) (hfallback : Bare fallback) (value : α) : Bare (nameOf table fallback value) := by
  unfold nameOf
  split
  · rename_i row hrow
    exact htable row (List.mem_of_find?_eq_some hrow)
  · exact hfallback

/-- The fields of a record that do not depend on its hops. -/
def recordFields (record : MeasurementRecord) : List Bytes :=
  [record.id.toHex, record.path.toHex, record.generation.toHex, record.source.toHex, record.epoch.toHex,
    record.incarnation.toHex, decimal record.sequence.toNat, decimalInt record.stamp.observedAt.ns.toInt,
    record.stamp.observedAt.domain.toHex, decimalInt record.stamp.receivedAt.ns.toInt,
    nameOf states (text "unknown") record.evidence.state, nameOf freshnesses (text "unknown") record.evidence.freshness,
    nameOf confidences (text "none") record.evidence.confidence, decimalInt record.rttNs.toInt]

/-- The two fields of a hop index. -/
def hopFields (record : MeasurementRecord) (index : Nat) : List Bytes :=
  [optionalNanosText ((observationAt record index).bind (·.dwellNs)),
    optionalNanosText ((observationAt record index).bind (·.queueDwellNs))]

def rowFields (columns : Nat) (record : MeasurementRecord) : List Bytes :=
  recordFields record ++ (List.range columns).flatMap (hopFields record)

def headerFields (columns : Nat) : List Bytes :=
  [text "measurement", text "path", text "generation", text "source", text "epoch", text "incarnation", text "sequence",
    text "observed_at_ns", text "observed_at_domain", text "received_at_ns", text "state", text "freshness",
    text "confidence", text "rtt_ns"] ++
    (List.range columns).flatMap fun index =>
      [text "hop" ++ decimal index ++ text "_dwell_ns", text "hop" ++ decimal index ++ text "_queue_dwell_ns"]

theorem csvHop_eq (record : MeasurementRecord) (index : Nat) :
    csvHop record index = (hopFields record index).flatMap fun field => 44 :: field := by
  unfold csvHop hopFields
  cases observationAt record index <;> simp [optionalNanosText]

theorem csvRow_eq (columns : Nat) (record : MeasurementRecord) :
    csvRow columns record = ([44] : Bytes).intercalate (rowFields columns record) := by
  have hhops : (List.range columns).flatMap (csvHop record) =
      ((List.range columns).flatMap (hopFields record)).flatMap fun field => 44 :: field := by
    rw [List.flatMap_assoc, List.flatMap_congr fun index _ => csvHop_eq record index]
  unfold csvRow rowFields recordFields
  rw [(bare_toHex _).csvEscape_eq, (bare_toHex _).csvEscape_eq, (bare_toHex _).csvEscape_eq, (bare_toHex _).csvEscape_eq,
    (bare_toHex _).csvEscape_eq, (bare_toHex _).csvEscape_eq, (bare_toHex _).csvEscape_eq, hhops, List.cons_append,
    Lib.intercalate_cons]
  simp only [List.cons_append, List.nil_append, List.flatMap_cons, List.append_assoc]

theorem csvHeader_eq (columns : Nat) : csvHeader columns = ([44] : Bytes).intercalate (headerFields columns) := by
  have hhops : (List.range columns).flatMap (fun index =>
      text ",hop" ++ decimal index ++ text "_dwell_ns,hop" ++ decimal index ++ text "_queue_dwell_ns") =
      ((List.range columns).flatMap fun index =>
        [text "hop" ++ decimal index ++ text "_dwell_ns", text "hop" ++ decimal index ++ text "_queue_dwell_ns"]).flatMap
          fun field => 44 :: field := by
    rw [List.flatMap_assoc]
    apply List.flatMap_congr
    intro index _
    have hopen : text ",hop" = 44 :: text "hop" := by decide
    have hnext : text "_dwell_ns,hop" = text "_dwell_ns" ++ 44 :: text "hop" := by decide
    rw [hopen, hnext]
    simp only [List.flatMap_cons, List.flatMap_nil, List.cons_append, List.append_assoc, List.append_nil]
  have hfixed : text "measurement,path,generation,source,epoch,incarnation,sequence,observed_at_ns," ++
      text "observed_at_domain,received_at_ns,state,freshness,confidence,rtt_ns" =
      text "measurement" ++ ([text "path", text "generation", text "source", text "epoch", text "incarnation",
        text "sequence", text "observed_at_ns", text "observed_at_domain", text "received_at_ns", text "state",
        text "freshness", text "confidence", text "rtt_ns"] : List Bytes).flatMap fun field => 44 :: field := by
    decide +kernel
  rw [csvHeader, hhops, hfixed, headerFields, List.cons_append, Lib.intercalate_cons, List.flatMap_append,
    List.append_assoc]

theorem bare_table {α : Type} {table : List (α × Bytes)} (h : (table.all fun row => row.2.all bare) = true) :
    ∀ row ∈ table, Bare row.2 := by
  intro row hrow c hc
  exact List.all_eq_true.mp (List.all_eq_true.mp h row hrow) c hc

theorem bare_text {s : String} (h : (text s).all bare = true) : Bare (text s) :=
  fun c hc => List.all_eq_true.mp h c hc

theorem recordFields_bare (record : MeasurementRecord) : ∀ field ∈ recordFields record, Bare field := by
  have hstate := bare_nameOf (@bare_table _ states (by decide)) (bare_text (s := "unknown") (by decide))
  have hfreshness := bare_nameOf (@bare_table _ freshnesses (by decide)) (bare_text (s := "unknown") (by decide))
  have hconfidence := bare_nameOf (@bare_table _ confidences (by decide)) (bare_text (s := "none") (by decide))
  simp only [recordFields, List.forall_mem_cons]
  exact ⟨bare_toHex _, bare_toHex _, bare_toHex _, bare_toHex _, bare_toHex _, bare_toHex _, bare_decimal _,
    bare_decimalInt _, bare_toHex _, bare_decimalInt _, hstate _, hfreshness _, hconfidence _, bare_decimalInt _,
    fun _ hnone => absurd hnone List.not_mem_nil⟩

theorem rowFields_bare (columns : Nat) (record : MeasurementRecord) : ∀ field ∈ rowFields columns record, Bare field := by
  intro field hfield
  rcases List.mem_append.mp hfield with hfixed | hhop
  · exact recordFields_bare record field hfixed
  · obtain ⟨index, -, hin⟩ := List.mem_flatMap.mp hhop
    rcases List.mem_cons.mp hin with rfl | hlast
    · exact bare_optionalNanosText _
    · rw [List.mem_singleton.mp hlast]
      exact bare_optionalNanosText _

theorem headerFields_bare (columns : Nat) : ∀ field ∈ headerFields columns, Bare field := by
  intro field hfield
  rcases List.mem_append.mp hfield with hfixed | hhop
  · have hall : (([text "measurement", text "path", text "generation", text "source", text "epoch", text "incarnation",
        text "sequence", text "observed_at_ns", text "observed_at_domain", text "received_at_ns", text "state",
        text "freshness", text "confidence", text "rtt_ns"] : List Bytes).all fun field => field.all bare) = true := by
      decide +kernel
    exact fun c hc => List.all_eq_true.mp (List.all_eq_true.mp hall field hfixed) c hc
  · obtain ⟨index, -, hin⟩ := List.mem_flatMap.mp hhop
    have hhead : Bare (text "hop" ++ decimal index) := (bare_text (by decide)).append (bare_decimal index)
    rcases List.mem_cons.mp hin with rfl | hlast
    · exact hhead.append (bare_text (by decide))
    · rw [List.mem_singleton.mp hlast]
      exact hhead.append (bare_text (by decide))

/-! ### The columns -/

theorem foldl_max_spec {α : Type} (f : α → Nat) (items : List α) (start : Nat) :
    start ≤ items.foldl (fun most a => max most (f a)) start ∧
      (∀ a ∈ items, f a ≤ items.foldl (fun most a => max most (f a)) start) ∧
      (items.foldl (fun most a => max most (f a)) start = start ∨
        ∃ a ∈ items, items.foldl (fun most a => max most (f a)) start = f a) := by
  induction items generalizing start with
  | nil => exact ⟨Nat.le_refl _, fun _ h => absurd h List.not_mem_nil, Or.inl rfl⟩
  | cons a rest ih =>
    obtain ⟨hstart, hall, hreached⟩ := ih (max start (f a))
    rw [List.foldl_cons, List.forall_mem_cons]
    refine ⟨(Nat.le_max_left _ _).trans hstart, ⟨(Nat.le_max_right _ _).trans hstart, hall⟩, ?_⟩
    rcases hreached with hmax | ⟨b, hb, heq⟩
    · rcases Nat.le_total (f a) start with hle | hle
      · exact Or.inl (hmax.trans (Nat.max_eq_left hle))
      · exact Or.inr ⟨a, List.mem_cons_self, hmax.trans (Nat.max_eq_right hle)⟩
    · exact Or.inr ⟨b, List.mem_cons_of_mem _ hb, heq⟩

theorem maxHops_spec (records : List MeasurementRecord) :
    (∀ record ∈ records, ∀ hop ∈ record.hops, hop.index.value.toNat < maxHops records) ∧
      (maxHops records = 0 ∨
        ∃ record ∈ records, ∃ hop ∈ record.hops, maxHops records = hop.index.value.toNat + 1) := by
  have hflat : maxHops records =
      (records.flatMap (·.hops)).foldl (fun most hop => max most (hop.index.value.toNat + 1)) 0 := by
    rw [maxHops, List.foldl_flatMap]
  obtain ⟨-, hall, hreached⟩ := foldl_max_spec (fun hop : HopObservation => hop.index.value.toNat + 1)
    (records.flatMap (·.hops)) 0
  rw [← hflat] at hall hreached
  refine ⟨fun record hrecord hop hhop => hall hop (List.mem_flatMap.mpr ⟨record, hrecord, hhop⟩), ?_⟩
  rcases hreached with hnone | ⟨hop, hhop, heq⟩
  · exact Or.inl hnone
  · obtain ⟨record, hrecord, hin⟩ := List.mem_flatMap.mp hhop
    exact Or.inr ⟨record, hrecord, hop, hin, heq⟩

theorem maxHops_le (records : List MeasurementRecord) : maxHops records ≤ HopIndex.maxExclusive := by
  rcases (maxHops_spec records).2 with hnone | ⟨record, -, hop, -, heq⟩
  · rw [hnone]
    exact Nat.zero_le _
  · rw [heq]
    exact hop.index.lt_maxExclusive

theorem observationAt_eq (record : MeasurementRecord) {index : Nat} (h : index < HopIndex.maxExclusive) :
    observationAt record index = record.hops.find? fun hop => hop.index.value.toNat == index := by
  have hread : (UInt32.ofNat index).toNat = index := UInt32.toNat_ofNat_of_lt' (Nat.lt_trans h (by decide))
  have hvalue : HopIndex.fromValue (UInt32.ofNat index) = .ok ⟨UInt32.ofNat index, by rw [hread]; exact h⟩ := by
    rw [HopIndex.fromValue, dif_pos (by rw [hread]; exact h)]
  rw [observationAt, hvalue]
  simp only [MeasurementRecord.hopAt]
  congr 1
  funext hop
  rw [Bool.eq_iff_iff, beq_iff_eq, beq_iff_eq, HopIndex.mk.injEq, ← UInt32.toNat_inj, hread]

theorem pairs_spec {α : Type} (first second : Nat → α) (columns : Nat) :
    ((List.range columns).flatMap fun i => [first i, second i]).length = 2 * columns ∧
      ∀ index < columns,
        ((List.range columns).flatMap fun i => [first i, second i])[2 * index]? = some (first index) ∧
        ((List.range columns).flatMap fun i => [first i, second i])[2 * index + 1]? = some (second index) := by
  induction columns with
  | zero => exact ⟨rfl, fun _ h => absurd h (Nat.not_lt_zero _)⟩
  | succ columns ih =>
    obtain ⟨hlength, hplaces⟩ := ih
    rw [List.range_succ, List.flatMap_append, List.flatMap_singleton]
    refine ⟨?_, fun index h => ?_⟩
    · rw [List.length_append, hlength]
      simp only [List.length_cons, List.length_nil]
      omega
    · rcases Nat.lt_or_eq_of_le (Nat.le_of_lt_succ h) with hlt | rfl
      · rw [List.getElem?_append_left (by omega), List.getElem?_append_left (by omega)]
        exact hplaces index hlt
      · rw [List.getElem?_append_right (by omega), List.getElem?_append_right (by omega), hlength, Nat.sub_self,
          Nat.add_sub_cancel_left]
        exact ⟨rfl, rfl⟩

theorem optionalNanosText_eq_nil_iff (value : Option Nanos) : optionalNanosText value = [] ↔ value = none := by
  cases value with
  | none => exact iff_of_true rfl rfl
  | some value => exact iff_of_false (decimalInt_ne_nil _) (Option.some_ne_none value)

/-! ### The table -/

theorem Engine.exportCsv_eq (e : Engine) (request : ExportRequest) :
    e.exportCsv request =
      { out := (headerFields (maxHops e.records) :: ((e.records.filter request.matches).take (e.exportLimit request)).map
          (rowFields (maxHops e.records))).flatMap fun row => ([44] : Bytes).intercalate row ++ [10]
        taken := min (e.exportLimit request) (e.records.filter request.matches).length
        skipped := (e.records.filter request.matches).length - e.exportLimit request
        truncated := decide (e.exportLimit request < (e.records.filter request.matches).length) } := by
  unfold Engine.exportCsv
  simp only [Lib.foldl_outputStep, Nat.sub_zero, Nat.zero_add, Bool.false_or, csvHeader_eq, csvRow_eq, List.append_assoc,
    List.foldl_append_eq_append, List.flatMap_cons, List.flatMap_map]
  rw [List.flatMap_def]

/-- An export in CSV is a table with two columns for each hop index up to the largest of any record. Its rows are the
first matching records, each field of a hop holds what the record observed at that index, and what is left out is
counted. -/
theorem Engine.exportSamples_csv (e : Engine) (request : ExportRequest) (hformat : request.format = .csv) :
    ((∃ result, e.exportSamples request = .ok result) ↔ request.limit ≠ 0) ∧
    ∀ result, e.exportSamples request = .ok result →
      Lib.table 44 10 result.content = headerFields (maxHops e.records) ::
          ((e.records.filter request.matches).take (e.exportLimit request)).map (rowFields (maxHops e.records)) ++ [[[]]] ∧
        ((∀ record ∈ e.records, ∀ hop ∈ record.hops, hop.index.value.toNat < maxHops e.records) ∧
          (maxHops e.records = 0 ∨
            ∃ record ∈ e.records, ∃ hop ∈ record.hops, maxHops e.records = hop.index.value.toNat + 1)) ∧
        (headerFields (maxHops e.records)).length = 14 + 2 * maxHops e.records ∧
        (∀ record, (rowFields (maxHops e.records) record).length = 14 + 2 * maxHops e.records ∧
          ∀ index < maxHops e.records,
            let observation := record.hops.find? fun hop => hop.index.value.toNat == index
            (rowFields (maxHops e.records) record)[14 + 2 * index]? =
                some (optionalNanosText (observation.bind (·.dwellNs))) ∧
              (rowFields (maxHops e.records) record)[15 + 2 * index]? =
                some (optionalNanosText (observation.bind (·.queueDwellNs)))) ∧
        (∀ value, optionalNanosText value = [] ↔ value = none) ∧
        result.recordsExported = ((e.records.filter request.matches).take (e.exportLimit request)).length ∧
        result.recordsExported + result.recordsSkipped = (e.records.filter request.matches).length ∧
        (result.truncated = true ↔ 0 < result.recordsSkipped) := by
  constructor
  · rw [Engine.exportSamples, hformat]
    by_cases hzero : request.limit = 0
    · rw [if_pos hzero]
      refine iff_of_false ?_ (fun h => h hzero)
      rintro ⟨result, h⟩
      cases h
    · rw [if_neg hzero]
      exact iff_of_true ⟨_, rfl⟩ hzero
  · intro result h
    rw [Engine.exportSamples, hformat] at h
    split_ifs at h with hzero
    simp only [Except.ok.injEq] at h
    subst h
    simp only [finishExport, Engine.exportCsv_eq]
    refine ⟨?_, maxHops_spec e.records, ?_, ?_, optionalNanosText_eq_nil_iff, ?_, ?_, ?_⟩
    · apply Lib.table_lines
      · rw [List.forall_mem_cons]
        refine ⟨List.cons_ne_nil _ _, ?_⟩
        intro row hrow
        obtain ⟨record, -, rfl⟩ := List.mem_map.mp hrow
        exact List.cons_ne_nil _ _
      · rw [List.forall_mem_cons]
        refine ⟨fun field hfield => (headerFields_bare _ field hfield).notMem, ?_⟩
        intro row hrow field hfield
        obtain ⟨record, -, rfl⟩ := List.mem_map.mp hrow
        exact (rowFields_bare _ record field hfield).notMem
      · decide
    · rw [headerFields, List.length_append, (pairs_spec _ _ _).1]
      rfl
    · intro record
      obtain ⟨hlength, hplaces⟩ := pairs_spec
        (fun index => optionalNanosText ((observationAt record index).bind (·.dwellNs)))
        (fun index => optionalNanosText ((observationAt record index).bind (·.queueDwellNs))) (maxHops e.records)
      refine ⟨?_, fun index hindex => ?_⟩
      · rw [rowFields, List.length_append]
        exact congrArg (14 + ·) hlength
      · have hread := observationAt_eq record (Nat.lt_of_lt_of_le hindex (maxHops_le e.records))
        obtain ⟨hdwell, hqueue⟩ := hplaces index hindex
        rw [hread] at hdwell hqueue
        have hwidth : (recordFields record).length = 14 := rfl
        rw [rowFields, List.getElem?_append_right (by omega), List.getElem?_append_right (by omega), hwidth,
          Nat.add_sub_cancel_left, (by omega : 15 + 2 * index - 14 = 2 * index + 1)]
        exact ⟨hdwell, hqueue⟩
    · rw [List.length_take]
    · omega
    · rw [decide_eq_true_eq]
      omega

/-- One of three stored exchanges is exported, and the others are counted. -/
theorem Engine.one_exchange_exported :
    ∃ result, (fullSystem 2).engine.exportSamples { format := .csv, limit := 1 } = .ok result ∧
      result.recordsExported = 1 ∧ result.truncated = true := by
  obtain ⟨hok, htable⟩ := (fullSystem 2).engine.exportSamples_csv { format := .csv, limit := 1 } rfl
  obtain ⟨result, hresult⟩ := hok.mpr (by decide)
  obtain ⟨-, -, -, -, -, hexported, hcounted, htruncated⟩ := htable result hresult
  have hone : (((fullSystem 2).engine.records.filter (ExportRequest.matches { format := .csv, limit := 1 })).take
      ((fullSystem 2).engine.exportLimit { format := .csv, limit := 1 })).length = 1 := by decide +kernel
  have hmatched : ((fullSystem 2).engine.records.filter
      (ExportRequest.matches { format := .csv, limit := 1 })).length = 3 := by decide +kernel
  rw [hone] at hexported
  rw [hmatched] at hcounted
  exact ⟨result, hresult, hexported, htruncated.mpr (by omega)⟩

end LatencyObservatory.Runtime
