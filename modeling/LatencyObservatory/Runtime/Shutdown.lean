import LatencyObservatory.Core.JsonFields
import LatencyObservatory.Core.JsonSpelling
import LatencyObservatory.Core.Policy
import LatencyObservatory.Runtime.Transport

/-!
# Stopping the server

The service parses a request line and dispatches on its `op`; the connection loop decides whether to stop by
looking for the quoted word in the line. `stop_agrees_iff` says on which lines the two decide alike.
-/

namespace LatencyObservatory.Runtime

open LatencyObservatory.Core

/-! ### Dispatch -/

inductive Operation where
  | capabilities
  | status
  | operations
  | defineSource
  | defineGeneration
  | defineEndpoint
  | defineLink
  | defineQueue
  | defineHop
  | definePath
  | defineClockDomain
  | clockSync
  | ingest
  | summarize
  | history
  | baselineCreate
  | baselineList
  | attribution
  | explain
  | «export»
  | flush
  | shutdown
deriving DecidableEq, Repr

/-- `supported_operations`, with the operation each name stands for. -/
def supportedOperations : List (String × Operation) :=
  [("capabilities", .capabilities), ("status", .status), ("operations", .operations),
    ("define_source", .defineSource), ("define_generation", .defineGeneration), ("define_endpoint", .defineEndpoint),
    ("define_link", .defineLink), ("define_queue", .defineQueue), ("define_hop", .defineHop),
    ("define_path", .definePath), ("define_clock_domain", .defineClockDomain), ("clock_sync", .clockSync),
    ("ingest", .ingest), ("summarize", .summarize), ("history", .history), ("baseline_create", .baselineCreate),
    ("baseline_list", .baselineList), ("attribute", .attribution), ("explain", .explain), ("export", .export),
    ("flush", .flush), ("shutdown", .shutdown)]

namespace Service

/-- `dispatch` up to the branch it takes. -/
def dispatch (request : JsonValue) : Except Error Operation :=
  if !request.isObject then .error ⟨.parseError, "a request must be a JSON object", []⟩
  else do
    let op ← request.requireString "op"
    match supportedOperations.find? (text ·.1 = op) with
    | some (_, operation) => .ok operation
    | none => .error ⟨.unsupported, "unknown operation", op⟩

/-- The document that `execute` hands on. -/
def document (limits : Limits) (line : Bytes) : Except Error JsonValue :=
  if line.length > limits.maxJsonBytes then
    .error ⟨.outOfRange, "the request exceeds the configured maximum size", decimal line.length⟩
  else parseJson line limits.maxJsonDepth

/-- The operation that `execute` runs for a line, or the error it answers with. -/
def execute (limits : Limits) (line : Bytes) : Except Error Operation :=
  document limits line >>= dispatch

end Service

/-! ### The two decisions -/

section Stop

variable {limits : Limits} {line : Bytes} {request : JsonValue}

theorem document_eq_ok (h : Service.document limits line = .ok request) :
    parseJson line limits.maxJsonDepth = .ok request := by
  unfold Service.document at h
  exact (guard_eq_ok_iff.mp h).2

theorem dispatch_shutdown_iff :
    Service.dispatch request = .ok .shutdown ↔ request.find "op" = some (.string (text "shutdown")) := by
  constructor
  · intro h
    unfold Service.dispatch at h
    obtain ⟨hobject, h⟩ := guard_eq_ok_iff.mp h
    obtain ⟨op, hop, hfound⟩ := bind_eq_ok_iff.mp h
    have hname : op = text "shutdown" := by
      split at hfound
      · rename_i name operation hfind
        cases hfound
        have hmem := List.mem_of_find?_eq_some hfind
        have heq := List.find?_some hfind
        rw [decide_eq_true_eq] at heq
        simp only [supportedOperations, List.mem_cons, Prod.mk.injEq, reduceCtorEq, and_false, false_or,
          List.not_mem_nil, or_false, and_true] at hmem
        rw [← heq, hmem]
      · cases hfound
    obtain ⟨value, hvalue, hstring⟩ := bind_eq_ok_iff.mp hop
    unfold JsonValue.require at hvalue
    rw [if_neg hobject] at hvalue
    split at hvalue
    · rename_i found hfind
      cases hvalue
      cases value with
      | string found =>
        cases hstring
        rw [hfind, hname]
      | _ => cases hstring
    · cases hvalue
  · intro hfind
    cases request with
    | object members =>
      have hop := JsonValue.requireString_eq hfind
      have hentry : supportedOperations.find? (text ·.1 = text "shutdown") = some ("shutdown", .shutdown) := by
        decide +kernel
      unfold Service.dispatch
      rw [if_neg (show ¬(!(JsonValue.object members).isObject) = true from Bool.false_ne_true), hop]
      dsimp only [bind, Except.bind]
      rw [hentry]
    | _ => cases hfind

theorem mem_texts_of_find {value : Bytes} {name : String} (h : request.find name = some (.string value)) :
    value ∈ request.texts := by
  cases request with
  | object members =>
    rw [JsonValue.texts]
    apply JsonValue.mem_memberTexts_of_lookup h
    rw [JsonValue.texts]
    exact List.mem_singleton_self _
  | _ => cases h

/-- The quoted word stands in a well-formed line exactly if one of its names and strings shows it. -/
theorem stopsServer_iff (h : parseJson line limits.maxJsonDepth = .ok request) :
    stopsServer line = true ↔ ∃ source ∈ spellings line, Shows (text "shutdown") source := by
  have hquoted : text "\"shutdown\"" = quote :: (text "shutdown" ++ [quote]) := by decide +kernel
  unfold stopsServer
  rw [decide_eq_true_eq, hquoted]
  have hletters : ¬∀ c ∈ text "shutdown", isGap c = true := by
    rw [← List.all_eq_true]
    decide +kernel
  exact (parseJson_spelled h).quoted_infix_iff (by decide +kernel) (by decide +kernel) hletters

/-- A line that is refused does not have the quoted word. If the first member of a document that is named `op` is the
string `shutdown`, one of its names and strings shows the word as it is written; of any other document none does. -/
def Unambiguous (limits : Limits) (line : Bytes) : Prop :=
  match Service.document limits line with
  | .error _ => ¬text "\"shutdown\"" <:+: line
  | .ok request =>
    (request.find "op" = some (.string (text "shutdown")) → ∃ source ∈ spellings line, Shows (text "shutdown") source) ∧
      (request.find "op" ≠ some (.string (text "shutdown")) → ∀ source ∈ spellings line, ¬Shows (text "shutdown") source)

/-- The server stops for the shutdown requests and for no other line exactly on the lines where the quoted word is
not in the way. -/
theorem stop_agrees_iff (limits : Limits) (line : Bytes) :
    (stopsServer line = true ↔ Service.execute limits line = .ok .shutdown) ↔ Unambiguous limits line := by
  unfold Service.execute Unambiguous
  cases hdocument : Service.document limits line with
  | error e =>
    have hrefused : (Except.error e >>= Service.dispatch) ≠ .ok .shutdown := by
      intro h
      cases h
    rw [iff_false_right hrefused, stopsServer, decide_eq_true_eq]
  | ok request =>
    have hdispatched : (Except.ok request >>= Service.dispatch) = Service.dispatch request := rfl
    rw [hdispatched, stopsServer_iff (document_eq_ok hdocument), dispatch_shutdown_iff]
    dsimp only
    by_cases hshutdown : request.find "op" = some (.string (text "shutdown"))
    · rw [iff_true_right hshutdown, and_iff_left (absurd hshutdown ·), imp_iff_right hshutdown]
    · rw [iff_false_right hshutdown, and_iff_right (absurd · hshutdown), imp_iff_right hshutdown]
      simp only [not_exists, not_and]

/-- In a line without escapes a shutdown request is never in doubt, and another request exactly if the word is one of its
names and strings. -/
theorem unambiguous_of_plain (hplain : backslash ∉ line) (h : Service.document limits line = .ok request) :
    Unambiguous limits line ↔
      request.find "op" = some (.string (text "shutdown")) ∨ text "shutdown" ∉ request.texts := by
  have hspelled := parseJson_spelled (document_eq_ok h)
  have hshows : (∃ source ∈ spellings line, Shows (text "shutdown") source) ↔ text "shutdown" ∈ request.texts := by
    rw [← hspelled.texts_of_plain hplain]
    constructor
    · rintro ⟨source, hsource, rfl | hsuffix⟩
      · exact hsource
      · -- A quote within a string would be escaped.
        obtain ⟨before, rfl⟩ := hsuffix
        have hlast := hspelled.quotesEscaped _ hsource before (text "shutdown") rfl
        exact absurd (hspelled.subset _ hsource (List.mem_append_left _ (List.mem_of_getLast? hlast))) hplain
    · intro hmem
      exact ⟨_, hmem, Or.inl rfl⟩
  unfold Unambiguous
  rw [h]
  dsimp only
  rw [hshows]
  by_cases hshutdown : request.find "op" = some (.string (text "shutdown"))
  · exact iff_of_true ⟨fun _ => mem_texts_of_find hshutdown, (absurd hshutdown ·)⟩ (Or.inl hshutdown)
  · rw [and_iff_right (absurd · hshutdown), imp_iff_right hshutdown, or_iff_right hshutdown, ← hshows]
    simp only [not_exists, not_and]

/-- A flush that mentions the word stops the server, and an escaped spelling of the operation does not. -/
theorem stop_disagrees :
    (stopsServer (text "\x7b\"op\":\"flush\",\"note\":\"shutdown\"\x7d") = true ∧
      Service.execute {} (text "\x7b\"op\":\"flush\",\"note\":\"shutdown\"\x7d") = .ok .flush) ∧
    (stopsServer (text "\x7b\"op\":\"shut\\u0064own\"\x7d") = false ∧
      Service.execute {} (text "\x7b\"op\":\"shut\\u0064own\"\x7d") = .ok .shutdown) := by
  refine ⟨⟨?_, ?_⟩, ?_, ?_⟩
  · decide +kernel
  · decide +kernel
  · decide +kernel
  · decide +kernel

end Stop

end LatencyObservatory.Runtime
