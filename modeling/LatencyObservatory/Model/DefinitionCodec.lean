import LatencyObservatory.Model.CodecTrees

/-!
# The definitions in JSON

Source, endpoint, link, queue, hop, generation, path and clock domain: the tree that each `write_json` writes, and what
its decoder makes of it. An absent reference is the empty text, a mask of semantics is the list of its flags. The
identity is written but not read: a decoder derives it from the name.
-/

namespace LatencyObservatory.Model

open LatencyObservatory.Core JsonValue

/-- The text of a value is parsed, at any depth limit that admits its one array, and decoded to the other value. -/
def RoundTrips {α : Type} (write : JsonWriter → α → JsonWriter) (decode : JsonValue → Except Error α)
    (value decoded : α) : Prop :=
  ∀ maxDepth, 2 ≤ maxDepth → ∀ pretty : Bool, ∃ tree,
    parseJson (write { pretty := pretty } value).out maxDepth = .ok tree ∧ decode tree = .ok decoded

theorem RoundTrips.of_tree {α : Type} {write : JsonWriter → α → JsonWriter} {decode : JsonValue → Except Error α}
    {value decoded : α} {tree : JsonValue} (hwrites : Writes (write · value) tree) (hwellFormed : tree.WellFormed)
    (hnesting : tree.nesting ≤ 2) (hdecode : decode tree = .ok decoded) : RoundTrips write decode value decoded :=
  fun _ hdepth pretty => ⟨tree, hwrites.parse hwellFormed (hnesting.trans hdepth) pretty, hdecode⟩

/-! ### Members of definitions -/

theorem parseSemanticsList_text (profile : SemanticsProfile) :
    parseSemanticsList (semanticsText profile) = some profile := by
  have hmasks : ∀ bits : Fin 8, parseSemanticsList (semanticsText ⟨⟨bits⟩⟩) = some ⟨⟨bits⟩⟩ := by decide +kernel
  obtain ⟨⟨bits⟩⟩ := profile
  exact hmasks bits

section Members

variable {members : List (Bytes × JsonValue)} {name : String}

theorem jsonSemantics_eq {profile : SemanticsProfile}
    (h : (object members).find "semantics" = some (.string (semanticsText profile))) :
    jsonSemantics (object members) = .ok profile := by
  unfold jsonSemantics
  rw [requireString_eq h]
  dsimp only [bind, Except.bind]
  rw [parseSemanticsList_text]

theorem decodeHopIds_map (hops : List HopId) :
    decodeAll (fun entry => do StrongId.parseHex (← entry.asString)) (hops.map fun hop => .string hop.toHex) =
      .ok hops :=
  decodeAll_map fun hop _ => hop.parseHex_toHex

end Members

/-! ### Trees -/

def sourceJson (source : SourceDescriptor) : JsonValue :=
  .object [(text "kind", .string (text "source")),
    (text "id", .string source.id.toHex),
    (text "name", .string source.name.str),
    (text "source_kind", .string (nameOf sourceKinds (text "unknown") source.kind)),
    (text "authority", .string (nameOf authorityClasses (text "unknown") source.authority)),
    (text "semantics", .string (semanticsText source.semantics)),
    (text "revision", .number source.revision.value.toNat),
    (text "description", .string source.description)]

def endpointJson (endpoint : EndpointDef) : JsonValue :=
  .object [(text "kind", .string (text "endpoint")),
    (text "id", .string endpoint.id.toHex),
    (text "name", .string endpoint.name.str),
    (text "role", .string (nameOf endpointRoles (text "unknown") endpoint.role)),
    (text "revision", .number endpoint.revision.value.toNat)]

def linkJson (link : LinkDef) : JsonValue :=
  .object [(text "kind", .string (text "link")),
    (text "id", .string link.id.toHex),
    (text "name", .string link.name.str),
    (text "from", .string (optionalHex link.source)),
    (text "to", .string (optionalHex link.target)),
    (text "revision", .number link.revision.value.toNat)]

def queueJson (queue : QueueDef) : JsonValue :=
  .object [(text "kind", .string (text "queue")),
    (text "id", .string queue.id.toHex),
    (text "name", .string queue.name.str),
    (text "link", .string (optionalHex queue.link)),
    (text "semantics", .string (semanticsText queue.semantics)),
    (text "revision", .number queue.revision.value.toNat)]

def hopJson (hop : HopDef) : JsonValue :=
  .object [(text "kind", .string (text "hop")),
    (text "id", .string hop.id.toHex),
    (text "name", .string hop.name.str),
    (text "hop_kind", .string (nameOf hopKinds (text "unknown") hop.kind)),
    (text "link", .string (optionalHex hop.link)),
    (text "queue", .string (optionalHex hop.queue)),
    (text "revision", .number hop.revision.value.toNat)]

def generationJson (generation : GenerationDef) : JsonValue :=
  .object [(text "kind", .string (text "generation")),
    (text "id", .string generation.id.toHex),
    (text "name", .string generation.name.str),
    (text "revision", .number generation.revision.value.toNat),
    (text "supersedes", .string (optionalHex generation.supersedes)),
    (text "description", .string generation.description)]

def pathJson (path : PathDef) : JsonValue :=
  .object [(text "kind", .string (text "path")),
    (text "id", .string path.id.toHex),
    (text "name", .string path.name.str),
    (text "generation", .string path.generation.toHex),
    (text "revision", .number path.revision.value.toNat),
    (text "hops", .array (path.hops.map fun hop => .string hop.toHex))]

def clockDomainJson (domain : ClockDomainDef) : JsonValue :=
  .object [(text "kind", .string (text "clock_domain")),
    (text "id", .string domain.id.toHex),
    (text "name", .string domain.name.str),
    (text "is_reference", .bool domain.isReference),
    (text "description", .string domain.description)]

/-! ### Writing the trees -/

theorem writeSource_eq (w : JsonWriter) (source : SourceDescriptor) : writeSource w source = w.writeValue (sourceJson source) := by
  simp only [writeSource, JsonWriter.fieldUint_eq]
  rfl

theorem writeEndpoint_eq (w : JsonWriter) (endpoint : EndpointDef) : writeEndpoint w endpoint = w.writeValue (endpointJson endpoint) := by
  simp only [writeEndpoint, JsonWriter.fieldUint_eq]
  rfl

theorem writeLink_eq (w : JsonWriter) (link : LinkDef) : writeLink w link = w.writeValue (linkJson link) := by
  simp only [writeLink, JsonWriter.fieldUint_eq]
  rfl

theorem writeQueue_eq (w : JsonWriter) (queue : QueueDef) : writeQueue w queue = w.writeValue (queueJson queue) := by
  simp only [writeQueue, JsonWriter.fieldUint_eq]
  rfl

theorem writeHop_eq (w : JsonWriter) (hop : HopDef) : writeHop w hop = w.writeValue (hopJson hop) := by
  simp only [writeHop, JsonWriter.fieldUint_eq]
  rfl

theorem writeGeneration_eq (w : JsonWriter) (generation : GenerationDef) : writeGeneration w generation = w.writeValue (generationJson generation) := by
  simp only [writeGeneration, JsonWriter.fieldUint_eq]
  rfl

theorem writePath_eq (w : JsonWriter) (path : PathDef) : writePath w path = w.writeValue (pathJson path) := by
  have hhop : ∀ (w : JsonWriter) (hop : HopId), w.valueString hop.toHex = w.writeValue (.string hop.toHex) :=
    fun _ _ => rfl
  simp only [writePath, JsonWriter.fieldUint_eq, JsonWriter.foldl_writes hhop]
  rfl

theorem writeClockDomain_eq (w : JsonWriter) (domain : ClockDomainDef) :
    writeClockDomain w domain = w.writeValue (clockDomainJson domain) := rfl

/-! ### Round trips -/

theorem source_roundTrips {source : SourceDescriptor} (hname : Name.parse source.name.str = .ok source.name)
    (hrevision : source.revision.valid = true) :
    RoundTrips writeSource decodeSource source { source with id := .deriveFrom source.name.str } := by
  refine .of_tree (writeSource_eq · source) ⟨by simp only [List.map]; decide, trivial, trivial, trivial, trivial, trivial, trivial,
    representable_uint32 _, trivial, trivial⟩ (Nat.le_succ 1) ?_
  have hguard : guardObject (sourceJson source) "source must be an object" = .ok () := rfl
  have hfound : jsonName (sourceJson source) "name" = .ok source.name := jsonName_eq hname rfl
  have hkind : jsonNamed sourceKinds "unknown source kind" (sourceJson source) "source_kind" = .ok source.kind :=
    jsonNamed_eq sourceKinds_all rfl
  have hauthority : jsonNamed authorityClasses "unknown authority class" (sourceJson source) "authority" =
      .ok source.authority := jsonNamed_eq authorityClasses_all rfl
  have hsemantics : jsonSemantics (sourceJson source) = .ok source.semantics := jsonSemantics_eq rfl
  have hread : jsonRevision (sourceJson source) "revision" = .ok source.revision := jsonRevision_eq hrevision rfl
  have hdescription : jsonText (sourceJson source) "description" = source.description := jsonText_eq rfl
  simp only [decodeSource, hguard, hfound, hkind, hauthority, hsemantics, hread, hdescription, bind, Except.bind, pure,
    Except.pure]

theorem endpoint_roundTrips {endpoint : EndpointDef} (hname : Name.parse endpoint.name.str = .ok endpoint.name)
    (hrevision : endpoint.revision.valid = true) :
    RoundTrips writeEndpoint decodeEndpoint endpoint { endpoint with id := .deriveFrom endpoint.name.str } := by
  refine .of_tree (writeEndpoint_eq · endpoint) ⟨by simp only [List.map]; decide, trivial, trivial, trivial, trivial,
    representable_uint32 _, trivial⟩ (Nat.le_succ 1) ?_
  have hfound : jsonName (endpointJson endpoint) "name" = .ok endpoint.name := jsonName_eq hname rfl
  have hrole : jsonNamed endpointRoles "unknown endpoint role" (endpointJson endpoint) "role" = .ok endpoint.role :=
    jsonNamed_eq endpointRoles_all rfl
  have hread : jsonRevision (endpointJson endpoint) "revision" = .ok endpoint.revision := jsonRevision_eq hrevision rfl
  simp only [decodeEndpoint, hfound, hrole, hread, bind, Except.bind, pure, Except.pure]

theorem link_roundTrips {link : LinkDef} (hname : Name.parse link.name.str = .ok link.name)
    (hrevision : link.revision.valid = true) :
    RoundTrips writeLink decodeLink link { link with id := .deriveFrom link.name.str } := by
  refine .of_tree (writeLink_eq · link) ⟨by simp only [List.map]; decide, trivial, trivial, trivial, trivial, trivial,
    representable_uint32 _, trivial⟩ (Nat.le_succ 1) ?_
  have hfound : jsonName (linkJson link) "name" = .ok link.name := jsonName_eq hname rfl
  have hsource : jsonOptionalId (linkJson link) "from" = .ok link.source := jsonOptionalId_eq rfl
  have htarget : jsonOptionalId (linkJson link) "to" = .ok link.target := jsonOptionalId_eq rfl
  have hread : jsonRevision (linkJson link) "revision" = .ok link.revision := jsonRevision_eq hrevision rfl
  simp only [decodeLink, hfound, hsource, htarget, hread, bind, Except.bind, pure, Except.pure]

theorem queue_roundTrips {queue : QueueDef} (hname : Name.parse queue.name.str = .ok queue.name)
    (hrevision : queue.revision.valid = true) :
    RoundTrips writeQueue decodeQueue queue { queue with id := .deriveFrom queue.name.str } := by
  refine .of_tree (writeQueue_eq · queue) ⟨by simp only [List.map]; decide, trivial, trivial, trivial, trivial, trivial,
    representable_uint32 _, trivial⟩ (Nat.le_succ 1) ?_
  have hfound : jsonName (queueJson queue) "name" = .ok queue.name := jsonName_eq hname rfl
  have hlink : jsonOptionalId (queueJson queue) "link" = .ok queue.link := jsonOptionalId_eq rfl
  have hsemantics : jsonSemantics (queueJson queue) = .ok queue.semantics := jsonSemantics_eq rfl
  have hread : jsonRevision (queueJson queue) "revision" = .ok queue.revision := jsonRevision_eq hrevision rfl
  simp only [decodeQueue, hfound, hlink, hsemantics, hread, bind, Except.bind, pure, Except.pure]

theorem hop_roundTrips {hop : HopDef} (hname : Name.parse hop.name.str = .ok hop.name)
    (hrevision : hop.revision.valid = true) :
    RoundTrips writeHop decodeHop hop { hop with id := .deriveFrom hop.name.str } := by
  refine .of_tree (writeHop_eq · hop) ⟨by simp only [List.map]; decide, trivial, trivial, trivial, trivial, trivial, trivial,
    representable_uint32 _, trivial⟩ (Nat.le_succ 1) ?_
  have hfound : jsonName (hopJson hop) "name" = .ok hop.name := jsonName_eq hname rfl
  have hkind : jsonNamed hopKinds "unknown hop kind" (hopJson hop) "hop_kind" = .ok hop.kind :=
    jsonNamed_eq hopKinds_all rfl
  have hlink : jsonOptionalId (hopJson hop) "link" = .ok hop.link := jsonOptionalId_eq rfl
  have hqueue : jsonOptionalId (hopJson hop) "queue" = .ok hop.queue := jsonOptionalId_eq rfl
  have hread : jsonRevision (hopJson hop) "revision" = .ok hop.revision := jsonRevision_eq hrevision rfl
  simp only [decodeHop, hfound, hkind, hlink, hqueue, hread, bind, Except.bind, pure, Except.pure]

theorem generation_roundTrips {generation : GenerationDef}
    (hname : Name.parse generation.name.str = .ok generation.name) (hrevision : generation.revision.valid = true) :
    RoundTrips writeGeneration decodeGeneration generation
      { generation with id := .deriveFrom generation.name.str } := by
  refine .of_tree (writeGeneration_eq · generation) ⟨by simp only [List.map]; decide, trivial, trivial, trivial, representable_uint32 _, trivial,
    trivial, trivial⟩ (Nat.le_succ 1) ?_
  have hfound : jsonName (generationJson generation) "name" = .ok generation.name := jsonName_eq hname rfl
  have hread : jsonRevision (generationJson generation) "revision" = .ok generation.revision :=
    jsonRevision_eq hrevision rfl
  have hsupersedes : jsonOptionalId (generationJson generation) "supersedes" = .ok generation.supersedes :=
    jsonOptionalId_eq rfl
  have hdescription : jsonText (generationJson generation) "description" = generation.description := jsonText_eq rfl
  simp only [decodeGeneration, hfound, hread, hsupersedes, hdescription, bind, Except.bind, pure, Except.pure]

theorem path_roundTrips {path : PathDef} (hname : Name.parse path.name.str = .ok path.name)
    (hrevision : path.revision.valid = true) :
    RoundTrips writePath decodePath path { path with id := .deriveFrom path.name.str } := by
  have hhops : (JsonValue.array (path.hops.map fun hop => .string hop.toHex)).WellFormed := by
    rw [WellFormed, itemsWellFormed_map]
    exact fun hop _ => trivial
  have hnesting : (pathJson path).nesting ≤ 2 := by
    have hitems := itemsNesting_map_le (fun hop (_ : hop ∈ path.hops) =>
      show (JsonValue.string hop.toHex).nesting ≤ 0 from Nat.le_refl 0)
    simp only [pathJson, nesting, membersNesting]
    omega
  refine .of_tree (writePath_eq · path) ⟨by simp only [List.map]; decide, trivial, trivial, trivial, trivial, representable_uint32 _,
    hhops, trivial⟩ hnesting ?_
  have hfound : jsonName (pathJson path) "name" = .ok path.name := jsonName_eq hname rfl
  have hgeneration : jsonId (pathJson path) "generation" = .ok path.generation := jsonId_eq rfl
  have hread : jsonRevision (pathJson path) "revision" = .ok path.revision := jsonRevision_eq hrevision rfl
  have hitems : (pathJson path).requireArray "hops" = .ok (path.hops.map fun hop => .string hop.toHex) :=
    requireArray_eq rfl
  unfold decodePath
  rw [hfound, hgeneration, hread, hitems]
  show (decodeAll _ (path.hops.map fun hop => .string hop.toHex)).bind _ = _
  rw [decodeHopIds_map]
  rfl

theorem clockDomain_roundTrips {domain : ClockDomainDef} (hname : Name.parse domain.name.str = .ok domain.name) :
    RoundTrips writeClockDomain decodeClockDomain domain { domain with id := .deriveFrom domain.name.str } := by
  refine .of_tree (writeClockDomain_eq · domain) ⟨by simp only [List.map]; decide, trivial, trivial, trivial, trivial, trivial, trivial⟩
    (Nat.le_succ 1) ?_
  have hfound : jsonName (clockDomainJson domain) "name" = .ok domain.name := jsonName_eq hname rfl
  have hreference : (clockDomainJson domain).requireBool "is_reference" = .ok domain.isReference := requireBool_eq rfl
  have hdescription : jsonText (clockDomainJson domain) "description" = domain.description := jsonText_eq rfl
  simp only [decodeClockDomain, hfound, hreference, hdescription, bind, Except.bind, pure, Except.pure]

/-- The name was parsed, and the identity is the one derived from it or not set. -/
structure Identified {tag : Tag} (id : StrongId tag) (name : Name) : Prop where
  parsed : Name.parse name.str = .ok name
  id : id = .deriveFrom name.str ∨ id = .none

/-- **Definitions outlive the process.** Every definition with a parsed name and a valid revision is read back from
its text as it is, with the identity derived from its name. -/
theorem definitions_roundTrip :
    (∀ source : SourceDescriptor, Identified source.id source.name → source.revision.valid = true →
      RoundTrips writeSource decodeSource source { source with id := .deriveFrom source.name.str }) ∧
    (∀ endpoint : EndpointDef, Identified endpoint.id endpoint.name → endpoint.revision.valid = true →
      RoundTrips writeEndpoint decodeEndpoint endpoint { endpoint with id := .deriveFrom endpoint.name.str }) ∧
    (∀ link : LinkDef, Identified link.id link.name → link.revision.valid = true →
      RoundTrips writeLink decodeLink link { link with id := .deriveFrom link.name.str }) ∧
    (∀ queue : QueueDef, Identified queue.id queue.name → queue.revision.valid = true →
      RoundTrips writeQueue decodeQueue queue { queue with id := .deriveFrom queue.name.str }) ∧
    (∀ hop : HopDef, Identified hop.id hop.name → hop.revision.valid = true →
      RoundTrips writeHop decodeHop hop { hop with id := .deriveFrom hop.name.str }) ∧
    (∀ generation : GenerationDef, Identified generation.id generation.name → generation.revision.valid = true →
      RoundTrips writeGeneration decodeGeneration generation
        { generation with id := .deriveFrom generation.name.str }) ∧
    (∀ path : PathDef, Identified path.id path.name → path.revision.valid = true →
      RoundTrips writePath decodePath path { path with id := .deriveFrom path.name.str }) ∧
    ∀ domain : ClockDomainDef, Identified domain.id domain.name →
      RoundTrips writeClockDomain decodeClockDomain domain { domain with id := .deriveFrom domain.name.str } := by
  refine ⟨?_, ?_, ?_, ?_, ?_, ?_, ?_, ?_⟩
  · exact fun _ hidentified => source_roundTrips hidentified.parsed
  · exact fun _ hidentified => endpoint_roundTrips hidentified.parsed
  · exact fun _ hidentified => link_roundTrips hidentified.parsed
  · exact fun _ hidentified => queue_roundTrips hidentified.parsed
  · exact fun _ hidentified => hop_roundTrips hidentified.parsed
  · exact fun _ hidentified => generation_roundTrips hidentified.parsed
  · exact fun _ hidentified => path_roundTrips hidentified.parsed
  · exact fun _ hidentified => clockDomain_roundTrips hidentified.parsed

/-- A path over the same hop twice, with its identity not set. -/
def loopPath : PathDef where
  name := ⟨text "loop"⟩
  generation := .deriveFrom (text "blue")
  revision := ⟨3⟩
  hops := [.deriveFrom (text "edge"), .deriveFrom (text "edge")]

theorem loopPath_roundTrip :
    RoundTrips writePath decodePath loopPath { loopPath with id := .deriveFrom (text "loop") } := by
  obtain ⟨-, -, -, -, -, -, hpath, -⟩ := definitions_roundTrip
  exact hpath loopPath ⟨by decide +kernel, Or.inr rfl⟩ (by decide)

end LatencyObservatory.Model
