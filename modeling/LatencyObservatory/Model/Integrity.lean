import LatencyObservatory.Model.Entities
import LatencyObservatory.Lib.Steps

/-!
# Integrity of the registry

Every table is written by `upsert` alone, and `Upserted` says all it can do: one value is stored under
the identity of its name, nothing else moves, a replaced entry had the same name and an older revision,
and the limit holds. The invariant of the whole catalog, the growth of its tables and the name indexes
follow from that; the conflict branch of the name index is never taken, so a failing call changes nothing.
-/

namespace LatencyObservatory.Model

open LatencyObservatory.Core

section Tables

variable {tag : Tag} {α : Type} [Definition α]

/-- The identity a definition is stored under. -/
def identityOf (value : α) : StrongId tag := .deriveFrom (Definition.name value).str

/-- Every entry is stored under the identity of its own name, and the table is within its limit. -/
structure Tabled (limit : Nat) (table : IdMap tag α) : Prop where
  identity : ∀ (id : StrongId tag) (value : α), table[id]? = some value → id = identityOf value
  bounded : table.size ≤ limit

/-- The index maps exactly the stored names to their identities. -/
def Indexed (table : IdMap tag α) (names : Std.ExtTreeMap Bytes (StrongId tag) compare) : Prop :=
  ∀ (name : Bytes) (id : StrongId tag),
    names[name]? = some id ↔ ∃ value, table[id]? = some value ∧ (Definition.name value).str = name

/-- No entry is lost, and an entry changes only together with a larger revision. -/
def Evolved (before after : IdMap tag α) : Prop :=
  ∀ (id : StrongId tag) (value : α), before[id]? = some value →
    ∃ value', after[id]? = some value' ∧
      (value' = value ∨ (Definition.revision value).value < (Definition.revision value').value)

/-- Everything a successful `upsert` of a value does. -/
structure Upserted (limit : Nat) (value : α) (before after : IdMap tag α) : Prop where
  stored : after[(identityOf value : StrongId tag)]? = some value
  others : ∀ id : StrongId tag, id ≠ identityOf value → after[id]? = before[id]?
  revised : ∀ existing, before[(identityOf value : StrongId tag)]? = some existing →
    Definition.name existing = Definition.name value ∧
      (value = existing ∨ (Definition.revision existing).value < (Definition.revision value).value)
  bounded : before.size ≤ limit → after.size ≤ limit

theorem upsert_ok [DecidableEq α] {table table' : IdMap tag α} {value : α} {limit : Nat} {what : String}
    (h : Catalog.upsert table (identityOf value) value (Definition.name value) limit what = .ok table') :
    Upserted limit value table table' := by
  have hinsert : ∀ id : StrongId tag, id ≠ identityOf value →
      (table.insert (identityOf value) value)[id]? = table[id]? := by
    intro id hid
    rw [Std.ExtTreeMap.getElem?_insert, if_neg]
    rw [Std.LawfulEqOrd.compare_eq_iff_eq]
    exact hid.symm
  unfold Catalog.upsert at h
  split at h
  · rename_i hnew
    split_ifs at h with hfull
    cases h
    refine ⟨Std.ExtTreeMap.getElem?_insert_self, hinsert, ?_, ?_⟩
    · intro existing hexisting
      rw [hnew] at hexisting
      cases hexisting
    · intro _
      have hsize := @Std.ExtTreeMap.size_insert_le _ _ _ table _ (identityOf value) value
      omega
  · rename_i existing hexisting
    split_ifs at h with hname hsame hrevision
    · cases h
      subst hsame
      refine ⟨hexisting, fun _ _ => rfl, ?_, id⟩
      intro other hother
      rw [hexisting, Option.some.injEq] at hother
      exact ⟨by rw [← hother], Or.inl hother⟩
    · cases h
      refine ⟨Std.ExtTreeMap.getElem?_insert_self, hinsert, ?_, ?_⟩
      · intro other hother
        rw [hexisting, Option.some.injEq] at hother
        subst hother
        exact ⟨not_not.mp hname, Or.inr (UInt32.not_le.mp hrevision)⟩
      · intro hbound
        rw [Std.ExtTreeMap.size_insert, if_pos]
        · exact hbound
        · rw [Std.ExtTreeMap.contains_eq_isSome_getElem?, hexisting]
          rfl

namespace Upserted

variable {limit : Nat} {value : α} {before after : IdMap tag α}

theorem forall_entries (h : Upserted limit value before after) {P : StrongId tag → α → Prop}
    (hold : ∀ id v, before[id]? = some v → P id v) (hnew : P (identityOf value) value) :
    ∀ id v, after[id]? = some v → P id v := by
  intro id v hv
  by_cases hid : id = identityOf value
  · subst hid
    rw [h.stored, Option.some.injEq] at hv
    rw [← hv]
    exact hnew
  · rw [h.others id hid] at hv
    exact hold id v hv

theorem tabled (h : Upserted limit value before after) (hbefore : Tabled limit before) : Tabled limit after :=
  ⟨h.forall_entries hbefore.identity rfl, h.bounded hbefore.bounded⟩

theorem evolved (h : Upserted limit value before after) : Evolved before after := by
  intro id v hv
  by_cases hid : id = identityOf value
  · subst hid
    exact ⟨value, h.stored, (h.revised v hv).2⟩
  · exact ⟨v, (h.others id hid).trans hv, Or.inl rfl⟩

theorem indexed (h : Upserted limit value before after) (hbefore : Tabled limit before)
    {names : Std.ExtTreeMap Bytes (StrongId tag) compare} (hnames : Indexed before names) :
    Indexed after (names.insert (Definition.name value).str (identityOf value)) := by
  intro name id
  rw [Std.ExtTreeMap.getElem?_insert]
  have hafter := (h.tabled hbefore).identity
  by_cases hname : (Definition.name value).str = name
  · rw [if_pos (Std.LawfulEqOrd.compare_eq_iff_eq.mpr hname), Option.some.injEq]
    constructor
    · rintro rfl
      exact ⟨value, h.stored, hname⟩
    · rintro ⟨v, hv, hvname⟩
      rw [hafter id v hv, identityOf, identityOf, hname, hvname]
  · rw [if_neg (fun heq => hname (Std.LawfulEqOrd.compare_eq_iff_eq.mp heq)), hnames name id]
    -- The entry that was written has another name, before and after.
    by_cases hid : id = identityOf value
    · subst hid
      constructor
      · rintro ⟨v, hv, hvname⟩
        rw [(h.revised v hv).1] at hvname
        exact absurd hvname hname
      · rintro ⟨v, hv, hvname⟩
        rw [h.stored, Option.some.injEq] at hv
        rw [← hv] at hvname
        exact absurd hvname hname
    · rw [h.others id hid]

end Upserted

theorem Evolved.refl (table : IdMap tag α) : Evolved table table :=
  fun _ v hv => ⟨v, hv, Or.inl rfl⟩

theorem Evolved.contains {before after : IdMap tag α} (h : Evolved before after) {id : StrongId tag}
    (hid : before.contains id = true) : after.contains id = true := by
  rw [Std.ExtTreeMap.contains_eq_isSome_getElem?, Option.isSome_iff_exists] at hid ⊢
  obtain ⟨v, hv⟩ := hid
  obtain ⟨v', hv', -⟩ := h id v hv
  exact ⟨v', hv'⟩

theorem indexName_ok {limit : Nat} {table : IdMap tag α} (htable : Tabled limit table)
    {names : Std.ExtTreeMap Bytes (StrongId tag) compare} (hnames : Indexed table names) (name : Name) (what : String) :
    Catalog.indexName names name (.deriveFrom name.str) what = .ok (names.insert name.str (.deriveFrom name.str)) := by
  unfold Catalog.indexName
  split
  · rename_i existing hexisting
    obtain ⟨v, hv, hname⟩ := (hnames _ _).mp hexisting
    have hid : existing = .deriveFrom name.str := by
      rw [htable.identity existing v hv, identityOf, hname]
    rw [if_neg (not_not.mpr hid)]
  · rfl

theorem upsert_eq_self_iff [DecidableEq α] {table table' : IdMap tag α} {value : α} {limit : Nat} {what : String}
    (h : Catalog.upsert table (identityOf value) value (Definition.name value) limit what = .ok table') :
    table' = table ↔ table[(identityOf value : StrongId tag)]? = some value := by
  constructor
  · intro hsame
    rw [← hsame]
    exact (upsert_ok h).stored
  · intro hknown
    unfold Catalog.upsert at h
    rw [hknown] at h
    simp only [ne_eq, not_true_eq_false, if_false, if_true, Except.ok.injEq] at h
    exact h.symm

theorem Indexed.insert_known {table : IdMap tag α} {names : Std.ExtTreeMap Bytes (StrongId tag) compare}
    (hnames : Indexed table names) {value : α} (h : table[(identityOf value : StrongId tag)]? = some value) :
    names.insert (Definition.name value).str (identityOf value) = names := by
  apply Std.ExtTreeMap.ext_getElem?
  intro name
  rw [Std.ExtTreeMap.getElem?_insert]
  split_ifs with hname
  · rw [Std.LawfulEqOrd.compare_eq_iff_eq] at hname
    exact ((hnames name _).mpr ⟨value, h, hname⟩).symm
  · rfl

/-- A reference is to a stored entry, unless it refers to nothing. -/
def Resolves (table : IdMap tag α) (id : StrongId tag) : Prop :=
  id.valid = true → table.contains id = true

theorem Resolves.mono {before after : IdMap tag α} {id : StrongId tag} (h : Resolves before id)
    (hevolved : Evolved before after) : Resolves after id :=
  fun hvalid => hevolved.contains (h hvalid)

end Tables

theorem resolves_of_check {tag : Tag} {α : Type} {table : IdMap tag α} {id : StrongId tag}
    (h : ¬ (id.valid && !table.contains id) = true) : Resolves table id := by
  intro hvalid
  simpa [hvalid] using h

/-! ### The catalog -/

namespace Catalog

/-- The invariant of the registry. -/
structure Integral (c : Catalog) : Prop where
  sources : Tabled c.limits.maxSources c.sources
  endpoints : Tabled c.limits.maxEndpoints c.endpoints
  links : Tabled c.limits.maxLinks c.links
  queues : Tabled c.limits.maxQueues c.queues
  hops : Tabled (c.limits.maxHopsPerPath * 64) c.hops
  generations : Tabled c.limits.maxGenerations c.generations
  paths : Tabled c.limits.maxPaths c.paths
  linkEnds : ∀ (id : LinkId) (link : LinkDef), c.links[id]? = some link →
    Resolves c.endpoints link.source ∧ Resolves c.endpoints link.target
  queueLink : ∀ (id : QueueId) (queue : QueueDef), c.queues[id]? = some queue → Resolves c.links queue.link
  hopParts : ∀ (id : HopId) (hop : HopDef), c.hops[id]? = some hop →
    Resolves c.links hop.link ∧ Resolves c.queues hop.queue
  supersedes : ∀ (id : GenerationId) (generation : GenerationDef), c.generations[id]? = some generation →
    Resolves c.generations generation.supersedes
  pathParts : ∀ (id : PathId) (path : PathDef), c.paths[id]? = some path →
    c.generations.contains path.generation = true ∧ ∀ hop ∈ path.hops, c.hops.contains hop = true
  sourceNames : Indexed c.sources c.sourceNames
  generationNames : Indexed c.generations c.generationNames
  pathNames : Indexed c.paths c.pathNames

/-- No entry of any table is lost, and contents change with larger revisions only. -/
structure Grown (before after : Catalog) : Prop where
  limits : after.limits = before.limits
  sources : Evolved before.sources after.sources
  endpoints : Evolved before.endpoints after.endpoints
  links : Evolved before.links after.links
  queues : Evolved before.queues after.queues
  hops : Evolved before.hops after.hops
  generations : Evolved before.generations after.generations
  paths : Evolved before.paths after.paths

theorem Grown.refl (c : Catalog) : c.Grown c :=
  ⟨rfl, .refl _, .refl _, .refl _, .refl _, .refl _, .refl _, .refl _⟩

theorem integral_empty (limits : Limits) : ({ limits := limits } : Catalog).Integral := by
  constructor <;> (try constructor) <;> simp [Indexed]

/-- One call of the registry's writer interface. -/
inductive DefineCall where
  | source (descriptor : SourceDescriptor)
  | endpoint (definition : EndpointDef)
  | link (definition : LinkDef)
  | queue (definition : QueueDef)
  | hop (definition : HopDef)
  | generation (definition : GenerationDef)
  | path (definition : PathDef)

/-- The outcome of a call, without the identity it returns. -/
def settle {tag : Tag} (result : Except Error (StrongId tag) × Catalog) : Status × Catalog :=
  (result.1.map fun _ => (), result.2)

def call (c : Catalog) : DefineCall → Status × Catalog
  | .source descriptor => settle (c.defineSource descriptor)
  | .endpoint definition => settle (c.defineEndpoint definition)
  | .link definition => settle (c.defineLink definition)
  | .queue definition => settle (c.defineQueue definition)
  | .hop definition => settle (c.defineHop definition)
  | .generation definition => settle (c.defineGeneration definition)
  | .path definition => settle (c.definePath definition)

/-- A call keeps the invariant, grows the catalog, and changes nothing when it fails. -/
structure Sound (c : Catalog) (result : Status × Catalog) : Prop where
  integral : result.2.Integral
  grown : c.Grown result.2
  atomic : result.1 ≠ .ok () → result.2 = c

theorem Sound.refused {tag : Tag} {c : Catalog} (h : c.Integral) (e : Error) :
    c.Sound (@settle tag (.error e, c)) :=
  ⟨h, .refl c, fun _ => rfl⟩

section Calls

variable {c : Catalog} (h : c.Integral)

include h

theorem defineSource_sound (descriptor : SourceDescriptor) : c.Sound (settle (c.defineSource descriptor)) := by
  unfold defineSource
  simp only
  split_ifs
  · exact .refused h _
  · exact .refused h _
  · split
    · exact .refused h _
    · rename_i sources hupsert
      have hu := @upsert_ok _ _ _ _ _ _ { descriptor with id := .deriveFrom descriptor.name.str } _ _ hupsert
      rw [indexName_ok h.sources h.sourceNames]
      exact ⟨{ h with
        sources := hu.tabled h.sources
        sourceNames := hu.indexed h.sources h.sourceNames },
        { Grown.refl c with sources := hu.evolved }, fun herror => absurd rfl herror⟩

theorem defineEndpoint_sound (definition : EndpointDef) : c.Sound (settle (c.defineEndpoint definition)) := by
  unfold defineEndpoint
  simp only
  split_ifs
  · exact .refused h _
  · split
    · exact .refused h _
    · rename_i endpoints hupsert
      have hu := @upsert_ok _ _ _ _ _ _ { definition with id := .deriveFrom definition.name.str } _ _ hupsert
      refine ⟨{ h with
        endpoints := hu.tabled h.endpoints
        linkEnds := ?_ }, { Grown.refl c with endpoints := hu.evolved }, fun herror => absurd rfl herror⟩
      intro id link hlink
      exact ⟨(h.linkEnds id link hlink).1.mono hu.evolved, (h.linkEnds id link hlink).2.mono hu.evolved⟩

theorem defineLink_sound (definition : LinkDef) : c.Sound (settle (c.defineLink definition)) := by
  unfold defineLink
  simp only
  split_ifs with _ hsource htarget
  · exact .refused h _
  · exact .refused h _
  · exact .refused h _
  · split
    · exact .refused h _
    · rename_i links hupsert
      have hu := @upsert_ok _ _ _ _ _ _ { definition with id := .deriveFrom definition.name.str } _ _ hupsert
      refine ⟨{ h with
        links := hu.tabled h.links
        linkEnds := hu.forall_entries h.linkEnds ⟨resolves_of_check hsource, resolves_of_check htarget⟩
        queueLink := ?_
        hopParts := ?_ }, { Grown.refl c with links := hu.evolved }, fun herror => absurd rfl herror⟩
      · intro id queue hqueue
        exact (h.queueLink id queue hqueue).mono hu.evolved
      · intro id hop hhop
        exact ⟨(h.hopParts id hop hhop).1.mono hu.evolved, (h.hopParts id hop hhop).2⟩

theorem defineQueue_sound (definition : QueueDef) : c.Sound (settle (c.defineQueue definition)) := by
  unfold defineQueue
  simp only
  split_ifs with _ hlink
  · exact .refused h _
  · exact .refused h _
  · split
    · exact .refused h _
    · rename_i queues hupsert
      have hu := @upsert_ok _ _ _ _ _ _ { definition with id := .deriveFrom definition.name.str } _ _ hupsert
      refine ⟨{ h with
        queues := hu.tabled h.queues
        queueLink := hu.forall_entries h.queueLink (resolves_of_check hlink)
        hopParts := ?_ }, { Grown.refl c with queues := hu.evolved }, fun herror => absurd rfl herror⟩
      intro id hop hhop
      exact ⟨(h.hopParts id hop hhop).1, (h.hopParts id hop hhop).2.mono hu.evolved⟩

theorem defineHop_sound (definition : HopDef) : c.Sound (settle (c.defineHop definition)) := by
  unfold defineHop
  simp only
  split_ifs with _ hlink hqueue
  · exact .refused h _
  · exact .refused h _
  · exact .refused h _
  · split
    · exact .refused h _
    · rename_i hops hupsert
      have hu := @upsert_ok _ _ _ _ _ _ { definition with id := .deriveFrom definition.name.str } _ _ hupsert
      refine ⟨{ h with
        hops := hu.tabled h.hops
        hopParts := hu.forall_entries h.hopParts ⟨resolves_of_check hlink, resolves_of_check hqueue⟩
        pathParts := ?_ }, { Grown.refl c with hops := hu.evolved }, fun herror => absurd rfl herror⟩
      intro id path hpath
      refine ⟨(h.pathParts id path hpath).1, ?_⟩
      intro hop hhop
      exact hu.evolved.contains ((h.pathParts id path hpath).2 hop hhop)

theorem defineGeneration_sound (definition : GenerationDef) :
    c.Sound (settle (c.defineGeneration definition)) := by
  unfold defineGeneration
  simp only
  split_ifs with _ hsupersedes
  · exact .refused h _
  · exact .refused h _
  · exact .refused h _
  · split
    · exact .refused h _
    · rename_i generations hupsert
      have hu := @upsert_ok _ _ _ _ _ _ { definition with id := .deriveFrom definition.name.str } _ _ hupsert
      rw [indexName_ok h.generations h.generationNames]
      have hresolves := resolves_of_check hsupersedes
      refine ⟨{ h with
        generations := hu.tabled h.generations
        supersedes := hu.forall_entries (fun id g hg => (h.supersedes id g hg).mono hu.evolved)
          (hresolves.mono hu.evolved)
        pathParts := ?_
        generationNames := hu.indexed h.generations h.generationNames },
        { Grown.refl c with generations := hu.evolved }, fun herror => absurd rfl herror⟩
      intro id path hpath
      exact ⟨hu.evolved.contains (h.pathParts id path hpath).1, (h.pathParts id path hpath).2⟩

theorem definePath_sound (definition : PathDef) : c.Sound (settle (c.definePath definition)) := by
  unfold definePath
  simp only
  split_ifs with _ hgeneration _ _ hhops
  · exact .refused h _
  · exact .refused h _
  · exact .refused h _
  · exact .refused h _
  · exact .refused h _
  · split
    · exact .refused h _
    · rename_i paths hupsert
      have hu := @upsert_ok _ _ _ _ _ _ { definition with id := .deriveFrom definition.name.str } _ _ hupsert
      rw [indexName_ok h.paths h.pathNames]
      simp only [Bool.or_eq_true, Bool.not_eq_true', not_or, Bool.not_eq_false] at hgeneration
      simp only [Bool.not_eq_true', Bool.not_eq_false, List.all_eq_true] at hhops
      exact ⟨{ h with
        paths := hu.tabled h.paths
        pathParts := hu.forall_entries h.pathParts ⟨hgeneration.2, hhops⟩
        pathNames := hu.indexed h.paths h.pathNames },
        { Grown.refl c with paths := hu.evolved }, fun herror => absurd rfl herror⟩

theorem call_sound (x : DefineCall) : c.Sound (c.call x) := by
  cases x with
  | source descriptor => exact defineSource_sound h descriptor
  | endpoint definition => exact defineEndpoint_sound h definition
  | link definition => exact defineLink_sound h definition
  | queue definition => exact defineQueue_sound h definition
  | hop definition => exact defineHop_sound h definition
  | generation definition => exact defineGeneration_sound h definition
  | path definition => exact definePath_sound h definition

end Calls

/-! ### Definitions that are known already -/

section Known

variable {c : Catalog} (h : c.Integral)

/-- A catalog in which one table was upserted is the same exactly if the value was known. -/
theorem eq_self_iff_of_upsert {tag : Tag} {α : Type} [DecidableEq α] [Definition α] {c' : Catalog}
    {table : Catalog → IdMap tag α} {value : α} {limit : Nat} {what : String}
    (hupsert : upsert (table c) (identityOf value) value (Definition.name value) limit what = .ok (table c'))
    (hrest : table c' = table c → (table c)[(identityOf value : StrongId tag)]? = some value → c' = c) :
    c' = c ↔ (table c)[(identityOf value : StrongId tag)]? = some value := by
  constructor
  · intro hsame
    exact (upsert_eq_self_iff hupsert).mp (congrArg table hsame)
  · intro hknown
    exact hrest ((upsert_eq_self_iff hupsert).mpr hknown) hknown

theorem defineEndpoint_eq_self_iff {definition : EndpointDef} {id : EndpointId} (hok : (c.defineEndpoint definition).1 = .ok id) :
    (c.defineEndpoint definition).2 = c ↔
      c.endpoints[(.deriveFrom definition.name.str : EndpointId)]? =
        some { definition with id := .deriveFrom definition.name.str } := by
  unfold defineEndpoint at hok ⊢
  simp only at hok ⊢
  split_ifs at hok ⊢
  split at hok
  · cases hok
  · rename_i endpoints hupsert
    refine @eq_self_iff_of_upsert c _ _ _ _ { c with endpoints := endpoints } Catalog.endpoints
      { definition with id := .deriveFrom definition.name.str } _ _ hupsert ?_
    rintro rfl -
    rfl

theorem defineLink_eq_self_iff {definition : LinkDef} {id : LinkId} (hok : (c.defineLink definition).1 = .ok id) :
    (c.defineLink definition).2 = c ↔
      c.links[(.deriveFrom definition.name.str : LinkId)]? =
        some { definition with id := .deriveFrom definition.name.str } := by
  unfold defineLink at hok ⊢
  simp only at hok ⊢
  split_ifs at hok ⊢
  split at hok
  · cases hok
  · rename_i links hupsert
    refine @eq_self_iff_of_upsert c _ _ _ _ { c with links := links } Catalog.links
      { definition with id := .deriveFrom definition.name.str } _ _ hupsert ?_
    rintro rfl -
    rfl

theorem defineQueue_eq_self_iff {definition : QueueDef} {id : QueueId} (hok : (c.defineQueue definition).1 = .ok id) :
    (c.defineQueue definition).2 = c ↔
      c.queues[(.deriveFrom definition.name.str : QueueId)]? =
        some { definition with id := .deriveFrom definition.name.str } := by
  unfold defineQueue at hok ⊢
  simp only at hok ⊢
  split_ifs at hok ⊢
  split at hok
  · cases hok
  · rename_i queues hupsert
    refine @eq_self_iff_of_upsert c _ _ _ _ { c with queues := queues } Catalog.queues
      { definition with id := .deriveFrom definition.name.str } _ _ hupsert ?_
    rintro rfl -
    rfl

theorem defineHop_eq_self_iff {definition : HopDef} {id : HopId} (hok : (c.defineHop definition).1 = .ok id) :
    (c.defineHop definition).2 = c ↔
      c.hops[(.deriveFrom definition.name.str : HopId)]? =
        some { definition with id := .deriveFrom definition.name.str } := by
  unfold defineHop at hok ⊢
  simp only at hok ⊢
  split_ifs at hok ⊢
  split at hok
  · cases hok
  · rename_i hops hupsert
    refine @eq_self_iff_of_upsert c _ _ _ _ { c with hops := hops } Catalog.hops
      { definition with id := .deriveFrom definition.name.str } _ _ hupsert ?_
    rintro rfl -
    rfl

include h

theorem defineSource_eq_self_iff {descriptor : SourceDescriptor} {id : SourceId} (hok : (c.defineSource descriptor).1 = .ok id) :
    (c.defineSource descriptor).2 = c ↔
      c.sources[(.deriveFrom descriptor.name.str : SourceId)]? =
        some { descriptor with id := .deriveFrom descriptor.name.str } := by
  unfold defineSource at hok ⊢
  simp only at hok ⊢
  split_ifs at hok ⊢
  split at hok
  · cases hok
  · rename_i sources hupsert
    rw [indexName_ok h.sources h.sourceNames]
    refine @eq_self_iff_of_upsert c _ _ _ _
      { c with sources := sources, sourceNames := c.sourceNames.insert descriptor.name.str (.deriveFrom descriptor.name.str) } Catalog.sources
      { descriptor with id := .deriveFrom descriptor.name.str } _ _ hupsert ?_
    rintro rfl hknown
    exact congrArg (fun names => { c with sourceNames := names }) (@Indexed.insert_known _ _ _ _ _ h.sourceNames _ hknown)

theorem defineGeneration_eq_self_iff {definition : GenerationDef} {id : GenerationId} (hok : (c.defineGeneration definition).1 = .ok id) :
    (c.defineGeneration definition).2 = c ↔
      c.generations[(.deriveFrom definition.name.str : GenerationId)]? =
        some { definition with id := .deriveFrom definition.name.str } := by
  unfold defineGeneration at hok ⊢
  simp only at hok ⊢
  split_ifs at hok ⊢
  split at hok
  · cases hok
  · rename_i generations hupsert
    rw [indexName_ok h.generations h.generationNames]
    refine @eq_self_iff_of_upsert c _ _ _ _
      { c with generations := generations, generationNames := c.generationNames.insert definition.name.str (.deriveFrom definition.name.str) } Catalog.generations
      { definition with id := .deriveFrom definition.name.str } _ _ hupsert ?_
    rintro rfl hknown
    exact congrArg (fun names => { c with generationNames := names }) (@Indexed.insert_known _ _ _ _ _ h.generationNames _ hknown)

theorem definePath_eq_self_iff {definition : PathDef} {id : PathId} (hok : (c.definePath definition).1 = .ok id) :
    (c.definePath definition).2 = c ↔
      c.paths[(.deriveFrom definition.name.str : PathId)]? =
        some { definition with id := .deriveFrom definition.name.str } := by
  unfold definePath at hok ⊢
  simp only at hok ⊢
  split_ifs at hok ⊢
  split at hok
  · cases hok
  · rename_i paths hupsert
    rw [indexName_ok h.paths h.pathNames]
    refine @eq_self_iff_of_upsert c _ _ _ _
      { c with paths := paths, pathNames := c.pathNames.insert definition.name.str (.deriveFrom definition.name.str) } Catalog.paths
      { definition with id := .deriveFrom definition.name.str } _ _ hupsert ?_
    rintro rfl hknown
    exact congrArg (fun names => { c with pathNames := names }) (@Indexed.insert_known _ _ _ _ _ h.pathNames _ hknown)

end Known

/-- The paths and the generations have one writer each; the other calls leave both alone. -/
theorem call_frame (c : Catalog) {x : DefineCall} (hpath : ∀ definition, x ≠ .path definition)
    (hgeneration : ∀ definition, x ≠ .generation definition) :
    (c.call x).2.paths = c.paths ∧ (c.call x).2.generations = c.generations := by
  cases x with
  | source descriptor =>
    show (c.defineSource descriptor).2.paths = c.paths ∧ (c.defineSource descriptor).2.generations = c.generations
    unfold defineSource
    simp only
    split_ifs
    · exact ⟨rfl, rfl⟩
    · exact ⟨rfl, rfl⟩
    · split
      · exact ⟨rfl, rfl⟩
      · split <;> exact ⟨rfl, rfl⟩
  | endpoint definition =>
    show (c.defineEndpoint definition).2.paths = c.paths ∧ (c.defineEndpoint definition).2.generations = c.generations
    unfold defineEndpoint
    simp only
    split_ifs
    · exact ⟨rfl, rfl⟩
    · split <;> exact ⟨rfl, rfl⟩
  | link definition =>
    show (c.defineLink definition).2.paths = c.paths ∧ (c.defineLink definition).2.generations = c.generations
    unfold defineLink
    simp only
    split_ifs
    · exact ⟨rfl, rfl⟩
    · exact ⟨rfl, rfl⟩
    · exact ⟨rfl, rfl⟩
    · split <;> exact ⟨rfl, rfl⟩
  | queue definition =>
    show (c.defineQueue definition).2.paths = c.paths ∧ (c.defineQueue definition).2.generations = c.generations
    unfold defineQueue
    simp only
    split_ifs
    · exact ⟨rfl, rfl⟩
    · exact ⟨rfl, rfl⟩
    · split <;> exact ⟨rfl, rfl⟩
  | hop definition =>
    show (c.defineHop definition).2.paths = c.paths ∧ (c.defineHop definition).2.generations = c.generations
    unfold defineHop
    simp only
    split_ifs
    · exact ⟨rfl, rfl⟩
    · exact ⟨rfl, rfl⟩
    · exact ⟨rfl, rfl⟩
    · split <;> exact ⟨rfl, rfl⟩
  | generation definition => exact absurd rfl (hgeneration definition)
  | path definition => exact absurd rfl (hpath definition)

theorem defineGeneration_paths (c : Catalog) (definition : GenerationDef) :
    (c.defineGeneration definition).2.paths = c.paths := by
  unfold defineGeneration
  simp only
  split_ifs
  · rfl
  · rfl
  · rfl
  · split
    · rfl
    · split <;> rfl

theorem definePath_generations (c : Catalog) (definition : PathDef) :
    (c.definePath definition).2.generations = c.generations := by
  unfold definePath
  simp only
  split_ifs
  · rfl
  · rfl
  · rfl
  · rfl
  · rfl
  · split
    · rfl
    · split <;> rfl

theorem call_paths (c : Catalog) {x : DefineCall} (hx : ∀ definition, x ≠ .path definition) :
    (c.call x).2.paths = c.paths := by
  cases x with
  | generation definition => exact c.defineGeneration_paths definition
  | path definition => exact absurd rfl (hx definition)
  | _ => exact (c.call_frame hx (by intro definition heq; cases heq)).1

theorem call_generations (c : Catalog) {x : DefineCall} (hx : ∀ definition, x ≠ .generation definition) :
    (c.call x).2.generations = c.generations := by
  cases x with
  | generation definition => exact absurd rfl (hx definition)
  | path definition => exact c.definePath_generations definition
  | _ => exact (c.call_frame (by intro definition heq; cases heq) hx).2

theorem definePath_paths (c : Catalog) (definition : PathDef) {id : PathId} {stored : PathDef}
    (hstored : c.paths[id]? = some stored) :
    (c.definePath definition).2.paths[id]? = some stored ∨
      (id = .deriveFrom definition.name.str ∧
        (c.definePath definition).2.paths[id]? = some { definition with id := .deriveFrom definition.name.str }) := by
  have hupserted : ∀ {paths : IdMap .path PathDef},
      upsert c.paths (.deriveFrom definition.name.str) { definition with id := .deriveFrom definition.name.str }
        definition.name c.limits.maxPaths "path" = .ok paths →
      paths[id]? = some stored ∨ (id = .deriveFrom definition.name.str ∧
        paths[id]? = some { definition with id := .deriveFrom definition.name.str }) := by
    intro paths hupsert
    have hu := @upsert_ok _ _ _ _ _ _ { definition with id := .deriveFrom definition.name.str } _ _ hupsert
    by_cases hid : id = .deriveFrom definition.name.str
    · exact Or.inr ⟨hid, by rw [hid]; exact hu.stored⟩
    · exact Or.inl ((hu.others id hid).trans hstored)
  unfold definePath
  simp only
  split_ifs
  · exact Or.inl hstored
  · exact Or.inl hstored
  · exact Or.inl hstored
  · exact Or.inl hstored
  · exact Or.inl hstored
  · split
    · exact Or.inl hstored
    · rename_i paths hupsert
      split
      · exact hupserted hupsert
      · exact hupserted hupsert

/-- The catalog after a sequence of calls on an empty one. -/
def afterCalls (limits : Limits) (calls : List DefineCall) : Catalog :=
  calls.foldl (fun c x => (c.call x).2) { limits := limits }

theorem afterCalls_inv (limits : Limits) (calls : List DefineCall) :
    (afterCalls limits calls).limits = limits ∧ (afterCalls limits calls).Integral := by
  refine @Lib.foldl_inv Catalog DefineCall (fun c x => (c.call x).2)
    (fun c => c.limits = limits ∧ c.Integral) ?_ _ ⟨rfl, integral_empty limits⟩ calls
  intro c x hc
  have hsound := call_sound hc.2 x
  exact ⟨hsound.grown.limits.trans hc.1, hsound.integral⟩

/-- **Catalog integrity.** After every sequence of calls on an empty catalog the invariant holds under the
configured limits, and every further call keeps it, changes contents with larger revisions only, and leaves
the catalog as it was when it fails. -/
theorem afterCalls_integral (limits : Limits) (calls : List DefineCall) :
    (afterCalls limits calls).limits = limits ∧ (afterCalls limits calls).Integral ∧
      ∀ x, (afterCalls limits calls).Sound ((afterCalls limits calls).call x) := by
  obtain ⟨hlimits, hintegral⟩ := afterCalls_inv limits calls
  exact ⟨hlimits, hintegral, call_sound hintegral⟩

end Catalog

end LatencyObservatory.Model
