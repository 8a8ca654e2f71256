import LatencyObservatory.Model.Integrity
import LatencyObservatory.Model.Registry

/-!
# Lookups by name

Sources, generations and paths have a name index beside their table; the clock domains are searched in identity
order. Whatever is defined is found under its own name, and it carries the identity it is stored under.
-/

namespace LatencyObservatory.Model

open LatencyObservatory.Core

namespace Catalog

/-! ### The lookups -/

def link (c : Catalog) (id : LinkId) : Except Error LinkDef :=
  lookup c.links "unknown link" id

def endpoint (c : Catalog) (id : EndpointId) : Except Error EndpointDef :=
  lookup c.endpoints "unknown endpoint" id

/-- The lookups by name: the index first, then the table. -/
def lookupName {tag : Tag} {α : Type} (names : Std.ExtTreeMap Bytes (StrongId tag) compare) (message : String)
    (find : StrongId tag → Except Error α) (name : Bytes) : Except Error α :=
  match names[name]? with
  | some id => find id
  | none => .error ⟨.notFound, message, name⟩

def pathByName (c : Catalog) (name : Bytes) : Except Error PathDef :=
  lookupName c.pathNames "unknown path name" c.path name

def generationByName (c : Catalog) (name : Bytes) : Except Error GenerationDef :=
  lookupName c.generationNames "unknown generation name" c.generation name

def sourceByName (c : Catalog) (name : Bytes) : Except Error SourceDescriptor :=
  lookupName c.sourceNames "unknown source name" c.source name

theorem lookupName_eq {tag : Tag} {α : Type} [Definition α] {table : IdMap tag α}
    {names : Std.ExtTreeMap Bytes (StrongId tag) compare} (hnames : Indexed table names) {id : StrongId tag} {value : α}
    (hvalue : table[id]? = some value) (message unknown : String) :
    lookupName names message (lookup table unknown) (Definition.name value).str = .ok value := by
  have hid : names[(Definition.name value).str]? = some id := (hnames _ _).mpr ⟨value, hvalue, rfl⟩
  unfold lookupName
  rw [hid]
  exact lookup_ok_iff.mpr hvalue

theorem lookup_derived {tag : Tag} {α : Type} [Definition α] {limit : Nat} {table : IdMap tag α}
    (htable : Tabled limit table) {id : StrongId tag} {value : α} (hvalue : table[id]? = some value) (message : String) :
    lookup table message (.deriveFrom (Definition.name value).str) = .ok value := by
  have hid : id = .deriveFrom (Definition.name value).str := htable.identity id value hvalue
  rw [lookup_ok_iff, ← hid]
  exact hvalue

section Found

variable {c : Catalog} (h : c.Integral)

include h

theorem pathByName_eq {id : PathId} {path : PathDef} (hpath : c.paths[id]? = some path) :
    c.pathByName path.name.str = .ok path :=
  lookupName_eq h.pathNames hpath "unknown path name" "unknown path"

theorem generationByName_eq {id : GenerationId} {generation : GenerationDef}
    (hgeneration : c.generations[id]? = some generation) : c.generationByName generation.name.str = .ok generation :=
  lookupName_eq h.generationNames hgeneration "unknown generation name" "unknown generation"

theorem sourceByName_eq {id : SourceId} {source : SourceDescriptor} (hsource : c.sources[id]? = some source) :
    c.sourceByName source.name.str = .ok source :=
  lookupName_eq h.sourceNames hsource "unknown source name" "unknown source"

theorem hop_derived {id : HopId} {hop : HopDef} (hhop : c.hops[id]? = some hop) :
    c.hop (.deriveFrom hop.name.str) = .ok hop :=
  lookup_derived h.hops hhop "unknown hop"

theorem queue_derived {id : QueueId} {queue : QueueDef} (hqueue : c.queues[id]? = some queue) :
    c.queue (.deriveFrom queue.name.str) = .ok queue :=
  lookup_derived h.queues hqueue "unknown queue"

theorem link_derived {id : LinkId} {link : LinkDef} (hlink : c.links[id]? = some link) :
    c.link (.deriveFrom link.name.str) = .ok link :=
  lookup_derived h.links hlink "unknown link"

theorem endpoint_derived {id : EndpointId} {endpoint : EndpointDef} (hendpoint : c.endpoints[id]? = some endpoint) :
    c.endpoint (.deriveFrom endpoint.name.str) = .ok endpoint :=
  lookup_derived h.endpoints hendpoint "unknown endpoint"

end Found

/-! ### Stored identities -/

/-- Every definition carries the identity it is stored under. -/
structure Keyed (c : Catalog) : Prop where
  sources : ∀ (id : SourceId) (source : SourceDescriptor), c.sources[id]? = some source → source.id = id
  endpoints : ∀ (id : EndpointId) (endpoint : EndpointDef), c.endpoints[id]? = some endpoint → endpoint.id = id
  links : ∀ (id : LinkId) (link : LinkDef), c.links[id]? = some link → link.id = id
  queues : ∀ (id : QueueId) (queue : QueueDef), c.queues[id]? = some queue → queue.id = id
  hops : ∀ (id : HopId) (hop : HopDef), c.hops[id]? = some hop → hop.id = id
  generations : ∀ (id : GenerationId) (generation : GenerationDef),
    c.generations[id]? = some generation → generation.id = id
  paths : ∀ (id : PathId) (path : PathDef), c.paths[id]? = some path → path.id = id

theorem keyed_empty (limits : Limits) : ({ limits := limits } : Catalog).Keyed := by
  constructor <;> simp

section Calls

variable {c : Catalog} (h : c.Keyed)

include h

theorem defineSource_keyed (descriptor : SourceDescriptor) : (c.defineSource descriptor).2.Keyed := by
  unfold defineSource
  simp only
  split_ifs
  · exact h
  · exact h
  · split
    · exact h
    · rename_i sources hupsert
      have hu := @upsert_ok _ _ _ _ _ _ { descriptor with id := .deriveFrom descriptor.name.str } _ _ hupsert
      have hsources := hu.forall_entries h.sources rfl
      split
      · exact { h with sources := hsources }
      · exact { h with sources := hsources }

theorem defineEndpoint_keyed (definition : EndpointDef) : (c.defineEndpoint definition).2.Keyed := by
  unfold defineEndpoint
  simp only
  split_ifs
  · exact h
  · split
    · exact h
    · rename_i endpoints hupsert
      have hu := @upsert_ok _ _ _ _ _ _ { definition with id := .deriveFrom definition.name.str } _ _ hupsert
      exact { h with endpoints := hu.forall_entries h.endpoints rfl }

theorem defineLink_keyed (definition : LinkDef) : (c.defineLink definition).2.Keyed := by
  unfold defineLink
  simp only
  split_ifs
  · exact h
  · exact h
  · exact h
  · split
    · exact h
    · rename_i links hupsert
      have hu := @upsert_ok _ _ _ _ _ _ { definition with id := .deriveFrom definition.name.str } _ _ hupsert
      exact { h with links := hu.forall_entries h.links rfl }

theorem defineQueue_keyed (definition : QueueDef) : (c.defineQueue definition).2.Keyed := by
  unfold defineQueue
  simp only
  split_ifs
  · exact h
  · exact h
  · split
    · exact h
    · rename_i queues hupsert
      have hu := @upsert_ok _ _ _ _ _ _ { definition with id := .deriveFrom definition.name.str } _ _ hupsert
      exact { h with queues := hu.forall_entries h.queues rfl }

theorem defineHop_keyed (definition : HopDef) : (c.defineHop definition).2.Keyed := by
  unfold defineHop
  simp only
  split_ifs
  · exact h
  · exact h
  · exact h
  · split
    · exact h
    · rename_i hops hupsert
      have hu := @upsert_ok _ _ _ _ _ _ { definition with id := .deriveFrom definition.name.str } _ _ hupsert
      exact { h with hops := hu.forall_entries h.hops rfl }

theorem defineGeneration_keyed (definition : GenerationDef) : (c.defineGeneration definition).2.Keyed := by
  unfold defineGeneration
  simp only
  split_ifs
  · exact h
  · exact h
  · exact h
  · split
    · exact h
    · rename_i generations hupsert
      have hu := @upsert_ok _ _ _ _ _ _ { definition with id := .deriveFrom definition.name.str } _ _ hupsert
      have hgenerations := hu.forall_entries h.generations rfl
      split
      · exact { h with generations := hgenerations }
      · exact { h with generations := hgenerations }

theorem definePath_keyed (definition : PathDef) : (c.definePath definition).2.Keyed := by
  unfold definePath
  simp only
  split_ifs
  · exact h
  · exact h
  · exact h
  · exact h
  · exact h
  · split
    · exact h
    · rename_i paths hupsert
      have hu := @upsert_ok _ _ _ _ _ _ { definition with id := .deriveFrom definition.name.str } _ _ hupsert
      have hpaths := hu.forall_entries h.paths rfl
      split
      · exact { h with paths := hpaths }
      · exact { h with paths := hpaths }

theorem call_keyed (x : DefineCall) : (c.call x).2.Keyed := by
  cases x with
  | source descriptor => exact defineSource_keyed h descriptor
  | endpoint definition => exact defineEndpoint_keyed h definition
  | link definition => exact defineLink_keyed h definition
  | queue definition => exact defineQueue_keyed h definition
  | hop definition => exact defineHop_keyed h definition
  | generation definition => exact defineGeneration_keyed h definition
  | path definition => exact definePath_keyed h definition

end Calls

end Catalog

/-! ### Clock domains -/

namespace ClockRegistry

/-- `domains`: the definitions in identity order. -/
def domainList (r : ClockRegistry) : List ClockDomainDef :=
  r.domains.toList.map (·.2)

/-- Every domain is stored under the identity of its name and carries it. -/
def Keyed (r : ClockRegistry) : Prop :=
  ∀ (id : ClockDomainId) (domain : ClockDomainDef), r.domains[id]? = some domain →
    domain.id = id ∧ id = .deriveFrom domain.name.str

theorem call_keyed (r : ClockRegistry) (c : Call) (h : r.Keyed) : (r.call c).Keyed := by
  cases c with
  | defineDomain definition =>
    show (r.defineDomain definition).2.Keyed
    rcases r.defineDomain_cases definition with heq | heq
    · rw [heq]
      exact h
    · rw [heq]
      intro id domain hdomain
      dsimp only at hdomain
      rw [Std.ExtTreeMap.getElem?_insert] at hdomain
      split_ifs at hdomain with hid
      · rw [Std.LawfulEqOrd.compare_eq_iff_eq] at hid
        rw [Option.some.injEq] at hdomain
        subst hid hdomain
        exact ⟨rfl, rfl⟩
      · exact h id domain hdomain
  | recordSync sync =>
    show (r.recordSync sync).2.Keyed
    rcases r.recordSync_cases sync with heq | ⟨-, heq⟩
    · rw [heq]
      exact h
    · rw [heq]
      exact h

theorem after_keyed (policy : RuntimePolicy) (calls : List Call) : (after policy calls).Keyed := by
  refine Lib.foldl_inv call_keyed ?_ calls
  intro id domain hdomain
  simp at hdomain

theorem find_domain {r : ClockRegistry} (h : r.Keyed) {id : ClockDomainId} {domain : ClockDomainDef}
    (hdomain : r.domains[id]? = some domain) :
    r.domainList.find? (fun other => other.name.str == domain.name.str) = some domain := by
  have hmem : domain ∈ r.domainList :=
    List.mem_map.mpr ⟨(id, domain), Std.ExtTreeMap.mem_toList_iff_getElem?_eq_some.mpr hdomain, rfl⟩
  cases hfound : r.domainList.find? (fun other => other.name.str == domain.name.str) with
  | none =>
    have hother := List.find?_eq_none.mp hfound domain hmem
    simp at hother
  | some other =>
    have hname : other.name.str = domain.name.str := by
      simpa using List.find?_some hfound
    obtain ⟨⟨otherId, _⟩, hentry, rfl⟩ := List.mem_map.mp (List.mem_of_find?_eq_some hfound)
    have hother := Std.ExtTreeMap.mem_toList_iff_getElem?_eq_some.mp hentry
    -- Equal names have equal identities.
    have hsame : otherId = id := by
      rw [(h otherId _ hother).2, (h id domain hdomain).2, hname]
    rw [hsame, hdomain] at hother
    exact hother.symm

end ClockRegistry

end LatencyObservatory.Model
