import LatencyObservatory.Core.Policy

/-!
# The definition registry

Sources, endpoints, links, queues, hops, generations and paths, each stored under the identity derived
from its name. All seven tables are filled by one `upsert`: a fresh identity is inserted within its
limit, identical content is idempotent, and other content needs a newer revision. An operation returns
its result and the catalog it leaves behind.
-/

namespace LatencyObservatory.Model

open LatencyObservatory.Core

inductive SourceKind where
  | synthetic
  | probe
  | telemetryAgent
  | derivedAggregate
  | unknown
deriving DecidableEq, Repr

inductive AuthorityClass where
  | primary
  | secondary
  | derived
  | synthetic
  | unknown
deriving DecidableEq, Repr

inductive HopKind where
  | endpoint
  | link
  | forwardingStage
  | queueingStage
  | application
  | unknown
deriving DecidableEq, Repr

inductive EndpointRole where
  | client
  | server
  | intermediate
  | unknown
deriving DecidableEq, Repr

/-- The declared measurement semantics: a mask of the three flags. -/
structure SemanticsProfile where
  bits : BitVec 3
deriving DecidableEq, Repr

namespace SemanticsProfile

def unknown : SemanticsProfile := ⟨0⟩
def endToEndRequestResponse : SemanticsProfile := ⟨1⟩
def hopDwell : SemanticsProfile := ⟨2⟩
def queueDwell : SemanticsProfile := ⟨4⟩

/-- `has_semantics`. -/
def has (value flag : SemanticsProfile) : Bool :=
  value.bits &&& flag.bits != 0

end SemanticsProfile

structure SourceDescriptor where
  id : SourceId := .none
  name : Name
  kind : SourceKind := .unknown
  authority : AuthorityClass := .unknown
  semantics : SemanticsProfile := .unknown
  revision : Revision
  description : Bytes := []
deriving DecidableEq, Repr

structure EndpointDef where
  id : EndpointId := .none
  name : Name
  role : EndpointRole := .unknown
  revision : Revision
deriving DecidableEq, Repr

structure LinkDef where
  id : LinkId := .none
  name : Name
  source : EndpointId := .none
  target : EndpointId := .none
  revision : Revision
deriving DecidableEq, Repr

structure QueueDef where
  id : QueueId := .none
  name : Name
  link : LinkId := .none
  semantics : SemanticsProfile := .unknown
  revision : Revision
deriving DecidableEq, Repr

structure HopDef where
  id : HopId := .none
  name : Name
  kind : HopKind := .unknown
  link : LinkId := .none
  queue : QueueId := .none
  revision : Revision
deriving DecidableEq, Repr

def HopDef.hasQueue (hop : HopDef) : Bool :=
  hop.queue.valid

structure GenerationDef where
  id : GenerationId := .none
  name : Name
  revision : Revision
  supersedes : GenerationId := .none
  description : Bytes := []
deriving DecidableEq, Repr

structure PathDef where
  id : PathId := .none
  name : Name
  generation : GenerationId
  revision : Revision
  hops : List HopId
deriving DecidableEq, Repr

/-- A table keyed by identity, in identity order. -/
abbrev IdMap (tag : Tag) (α : Type) := Std.ExtTreeMap (StrongId tag) α compare

structure Catalog where
  limits : Limits
  sources : IdMap .source SourceDescriptor := ∅
  endpoints : IdMap .endpoint EndpointDef := ∅
  links : IdMap .link LinkDef := ∅
  queues : IdMap .queue QueueDef := ∅
  hops : IdMap .hop HopDef := ∅
  generations : IdMap .generation GenerationDef := ∅
  paths : IdMap .path PathDef := ∅
  generationNames : Std.ExtTreeMap Bytes GenerationId compare := ∅
  pathNames : Std.ExtTreeMap Bytes PathId compare := ∅
  sourceNames : Std.ExtTreeMap Bytes SourceId compare := ∅
deriving DecidableEq

/-- What `upsert` reads of a stored definition. -/
class Definition (α : Type) where
  name : α → Name
  revision : α → Revision

instance : Definition SourceDescriptor := ⟨SourceDescriptor.name, SourceDescriptor.revision⟩
instance : Definition EndpointDef := ⟨EndpointDef.name, EndpointDef.revision⟩
instance : Definition LinkDef := ⟨LinkDef.name, LinkDef.revision⟩
instance : Definition QueueDef := ⟨QueueDef.name, QueueDef.revision⟩
instance : Definition HopDef := ⟨HopDef.name, HopDef.revision⟩
instance : Definition GenerationDef := ⟨GenerationDef.name, GenerationDef.revision⟩
instance : Definition PathDef := ⟨PathDef.name, PathDef.revision⟩

namespace Catalog

/-- `Catalog::upsert`. -/
def upsert {tag : Tag} {α : Type} [DecidableEq α] [Definition α] (table : IdMap tag α) (id : StrongId tag) (value : α)
    (name : Name) (limit : Nat) (what : String) : Except Error (IdMap tag α) :=
  match table[id]? with
  | none =>
    if table.size ≥ limit then
      .error ⟨.capacityExceeded, what ++ " registry is at capacity", name.str⟩
    else .ok (table.insert id value)
  | some existing =>
    if Definition.name existing ≠ name then
      .error ⟨.conflict, what ++ " identity collides with a different name", name.str⟩
    else if existing = value then .ok table
    else if (Definition.revision value).value ≤ (Definition.revision existing).value then
      .error ⟨.conflict, what ++ " is already defined with different content at the same or a newer revision",
        name.str⟩
    else .ok (table.insert id value)

/-- The name index kept beside the source, generation and path tables. -/
def indexName {tag : Tag} (names : Std.ExtTreeMap Bytes (StrongId tag) compare) (name : Name)
    (id : StrongId tag) (what : String) : Except Error (Std.ExtTreeMap Bytes (StrongId tag) compare) :=
  match names[name.str]? with
  | some existing =>
    if existing ≠ id then .error ⟨.conflict, what ++ " name maps to a different identity", name.str⟩
    else .ok (names.insert name.str id)
  | none => .ok (names.insert name.str id)

def defineSource (c : Catalog) (descriptor : SourceDescriptor) : Except Error SourceId × Catalog :=
  let name := descriptor.name
  let id : SourceId := .deriveFrom name.str
  if descriptor.id.valid && descriptor.id != id then
    (.error ⟨.conflict, "source id does not match its canonical name", name.str⟩, c)
  else if !descriptor.revision.valid then
    (.error ⟨.invalidArgument, "source revision must be at least 1", name.str⟩, c)
  else match upsert c.sources id { descriptor with id := id } name c.limits.maxSources "source" with
    | .error e => (.error e, c)
    | .ok sources =>
      -- The table is already written when the name index is checked.
      match indexName c.sourceNames name id "source" with
      | .error e => (.error e, { c with sources := sources })
      | .ok names => (.ok id, { c with sources := sources, sourceNames := names })

def defineEndpoint (c : Catalog) (definition : EndpointDef) : Except Error EndpointId × Catalog :=
  let name := definition.name
  let id : EndpointId := .deriveFrom name.str
  if !definition.revision.valid then
    (.error ⟨.invalidArgument, "endpoint revision must be at least 1", name.str⟩, c)
  else match upsert c.endpoints id { definition with id := id } name c.limits.maxEndpoints "endpoint" with
    | .error e => (.error e, c)
    | .ok endpoints => (.ok id, { c with endpoints := endpoints })

def defineLink (c : Catalog) (definition : LinkDef) : Except Error LinkId × Catalog :=
  let name := definition.name
  let id : LinkId := .deriveFrom name.str
  if !definition.revision.valid then
    (.error ⟨.invalidArgument, "link revision must be at least 1", name.str⟩, c)
  else if definition.source.valid && !c.endpoints.contains definition.source then
    (.error ⟨.notFound, "link references an unknown source endpoint", name.str⟩, c)
  else if definition.target.valid && !c.endpoints.contains definition.target then
    (.error ⟨.notFound, "link references an unknown destination endpoint", name.str⟩, c)
  else match upsert c.links id { definition with id := id } name c.limits.maxLinks "link" with
    | .error e => (.error e, c)
    | .ok links => (.ok id, { c with links := links })

def defineQueue (c : Catalog) (definition : QueueDef) : Except Error QueueId × Catalog :=
  let name := definition.name
  let id : QueueId := .deriveFrom name.str
  if !definition.revision.valid then
    (.error ⟨.invalidArgument, "queue revision must be at least 1", name.str⟩, c)
  else if definition.link.valid && !c.links.contains definition.link then
    (.error ⟨.notFound, "queue references an unknown link", name.str⟩, c)
  else match upsert c.queues id { definition with id := id } name c.limits.maxQueues "queue" with
    | .error e => (.error e, c)
    | .ok queues => (.ok id, { c with queues := queues })

def defineHop (c : Catalog) (definition : HopDef) : Except Error HopId × Catalog :=
  let name := definition.name
  let id : HopId := .deriveFrom name.str
  if !definition.revision.valid then
    (.error ⟨.invalidArgument, "hop revision must be at least 1", name.str⟩, c)
  else if definition.link.valid && !c.links.contains definition.link then
    (.error ⟨.notFound, "hop references an unknown link", name.str⟩, c)
  else if definition.queue.valid && !c.queues.contains definition.queue then
    (.error ⟨.notFound, "hop references an unknown queue", name.str⟩, c)
  else match upsert c.hops id { definition with id := id } name (c.limits.maxHopsPerPath * 64) "hop" with
    | .error e => (.error e, c)
    | .ok hops => (.ok id, { c with hops := hops })

def defineGeneration (c : Catalog) (definition : GenerationDef) : Except Error GenerationId × Catalog :=
  let name := definition.name
  let id : GenerationId := .deriveFrom name.str
  if !definition.revision.valid then
    (.error ⟨.invalidArgument, "generation revision must be at least 1", name.str⟩, c)
  else if definition.supersedes.valid && !c.generations.contains definition.supersedes then
    (.error ⟨.notFound, "generation supersedes an unknown generation", name.str⟩, c)
  else if definition.supersedes = id then
    (.error ⟨.invalidArgument, "a generation cannot supersede itself", name.str⟩, c)
  else match upsert c.generations id { definition with id := id } name c.limits.maxGenerations "generation" with
    | .error e => (.error e, c)
    | .ok generations =>
      match indexName c.generationNames name id "generation" with
      | .error e => (.error e, { c with generations := generations })
      | .ok names => (.ok id, { c with generations := generations, generationNames := names })

def definePath (c : Catalog) (definition : PathDef) : Except Error PathId × Catalog :=
  let name := definition.name
  let id : PathId := .deriveFrom name.str
  if !definition.revision.valid then
    (.error ⟨.invalidArgument, "path revision must be at least 1", name.str⟩, c)
  else if !definition.generation.valid || !c.generations.contains definition.generation then
    (.error ⟨.notFound, "path references an unknown generation", name.str⟩, c)
  else if definition.hops.isEmpty then
    (.error ⟨.invalidArgument, "path must define at least one hop", name.str⟩, c)
  else if definition.hops.length > c.limits.maxHopsPerPath then
    (.error ⟨.outOfRange, "path exceeds the hop limit", name.str⟩, c)
  else if !definition.hops.all c.hops.contains then
    (.error ⟨.notFound, "path references an unknown hop", name.str⟩, c)
  else match upsert c.paths id { definition with id := id } name c.limits.maxPaths "path" with
    | .error e => (.error e, c)
    | .ok paths =>
      match indexName c.pathNames name id "path" with
      | .error e => (.error e, { c with paths := paths })
      | .ok names => (.ok id, { c with paths := paths, pathNames := names })

/-! ### Lookups -/

/-- The lookups of the registry: an unknown identity is named by its hexadecimal text. -/
def lookup {tag : Tag} {α : Type} (table : IdMap tag α) (message : String) (id : StrongId tag) :
    Except Error α :=
  match table[id]? with
  | some value => .ok value
  | none => .error ⟨.notFound, message, id.toHex⟩

def source (c : Catalog) (id : SourceId) : Except Error SourceDescriptor :=
  lookup c.sources "unknown source" id

def queue (c : Catalog) (id : QueueId) : Except Error QueueDef :=
  lookup c.queues "unknown queue" id

def hop (c : Catalog) (id : HopId) : Except Error HopDef :=
  lookup c.hops "unknown hop" id

def generation (c : Catalog) (id : GenerationId) : Except Error GenerationDef :=
  lookup c.generations "unknown generation" id

def path (c : Catalog) (id : PathId) : Except Error PathDef :=
  lookup c.paths "unknown path" id

/-- `is_superseded`: another defined generation declares `id` as superseded. -/
def isSuperseded (c : Catalog) (id : GenerationId) : Bool :=
  c.generations.toList.any fun entry => entry.2.supersedes == id

/-- `current_generation`: the only generation nothing supersedes, if there is exactly one. -/
def currentGeneration (c : Catalog) : GenerationId :=
  match c.generations.toList.filter fun entry => !c.isSuperseded entry.1 with
  | [tip] => tip.1
  | _ => .none

theorem lookup_ok_iff {tag : Tag} {α : Type} {table : IdMap tag α} {message : String} {id : StrongId tag}
    {value : α} : lookup table message id = .ok value ↔ table[id]? = some value := by
  unfold lookup
  cases table[id]? <;> simp

end Catalog

end LatencyObservatory.Model
