import LatencyObservatory.Core.JsonFields
import LatencyObservatory.Model.Lookup
import LatencyObservatory.Runtime.Reachable

/-!
# Resolution of request fields

A field of a request names a definition or spells its identity in hexadecimal. The shape of the text decides which,
before anything is looked up, and a legal name can have that shape: such a name is found only if it happens to
spell the identity that is derived from it.
-/

namespace LatencyObservatory.Runtime

open LatencyObservatory.Core LatencyObservatory.Model LatencyObservatory.Ingest

/-! ### The resolvers -/

/-- `looks_like_identity`: sixteen hexadecimal characters of either case. -/
def looksLikeIdentity (name : Bytes) : Bool :=
  name.length == 16 && name.all fun c => (48 ≤ c && c ≤ 57) || (97 ≤ c && c ≤ 102) || (65 ≤ c && c ≤ 70)

/-- What the resolvers share: the shape of the text is tested before the lookup. -/
def resolveText {tag : Tag} (name : Bytes) (find : Except Error (StrongId tag)) : Except Error (StrongId tag) :=
  if looksLikeIdentity name then StrongId.parseHex name else find

def resolvePath (e : Engine) (request : JsonValue) (field : String) : Except Error PathId := do
  let name ← request.requireString field
  resolveText name ((e.catalog.pathByName name).map (·.id))

def resolveGeneration (e : Engine) (request : JsonValue) (field : String) : Except Error GenerationId := do
  let name ← request.requireString field
  resolveText name ((e.catalog.generationByName name).map (·.id))

def resolveSource (e : Engine) (request : JsonValue) (field : String) : Except Error SourceId := do
  let name ← request.requireString field
  resolveText name ((e.catalog.sourceByName name).map (·.id))

def resolveHop (e : Engine) (name : Bytes) : Except Error HopId :=
  resolveText name ((e.catalog.hop (.deriveFrom name)).map (·.id))

def resolveQueue (e : Engine) (name : Bytes) : Except Error QueueId :=
  resolveText name ((e.catalog.queue (.deriveFrom name)).map (·.id))

def resolveLink (e : Engine) (name : Bytes) : Except Error LinkId :=
  resolveText name ((e.catalog.link (.deriveFrom name)).map (·.id))

def resolveEndpoint (e : Engine) (name : Bytes) : Except Error EndpointId :=
  resolveText name ((e.catalog.endpoint (.deriveFrom name)).map (·.id))

def resolveClockDomain (e : Engine) (name : Bytes) : Except Error ClockDomainId :=
  resolveText name <|
    match e.clocks.domainList.find? (fun domain => domain.name.str == name) with
    | some domain => .ok domain.id
    | none => .error ⟨.notFound, "unknown clock domain", name⟩

/-! ### Names that spell an identity -/

/-- The lower case form of a hexadecimal character. -/
def lowerHex (c : UInt8) : UInt8 :=
  if 65 ≤ c && c ≤ 70 then c + 32 else c

theorem hexValue_lowerHex (c : UInt8) : StrongId.hexValue (lowerHex c) = StrongId.hexValue c := by
  have hall : ∀ n < 256, StrongId.hexValue (lowerHex (UInt8.ofNat n)) = StrongId.hexValue (UInt8.ofNat n) := by
    decide +kernel
  have hc := hall c.toNat c.toNat_lt
  rwa [UInt8.ofNat_toNat] at hc

theorem lowerHex_of_hexValue {c : UInt8} {d : Nat} (h : StrongId.hexValue c = some d) :
    d < 16 ∧ lowerHex c = hexDigit d := by
  have hall : ∀ n < 256, ((StrongId.hexValue (UInt8.ofNat n)).all fun d =>
      decide (d < 16 ∧ lowerHex (UInt8.ofNat n) = hexDigit d)) = true := by
    decide +kernel
  have hc := hall c.toNat c.toNat_lt
  rw [UInt8.ofNat_toNat, h] at hc
  simpa using hc

theorem parseHexDigits_lowerHex (name : Bytes) (value : Nat) :
    StrongId.parseHexDigits (name.map lowerHex) value = StrongId.parseHexDigits name value := by
  induction name generalizing value with
  | nil => rfl
  | cons c name ih =>
    rw [List.map_cons, StrongId.parseHexDigits, StrongId.parseHexDigits, hexValue_lowerHex]
    cases StrongId.hexValue c with
    | none => rfl
    | some d => exact ih _

theorem parseHexDigits_spells {name : Bytes} {value n : Nat} (h : StrongId.parseHexDigits name value = some n) :
    n / 16 ^ name.length = value ∧ hexFixed name.length n = name.map lowerHex := by
  induction name generalizing value with
  | nil =>
    rw [StrongId.parseHexDigits, Option.some.injEq] at h
    exact ⟨by simpa using h.symm, rfl⟩
  | cons c name ih =>
    rw [StrongId.parseHexDigits] at h
    cases hdigit : StrongId.hexValue c with
    | none =>
      rw [hdigit] at h
      cases h
    | some d =>
      rw [hdigit] at h
      obtain ⟨hquotient, hrest⟩ := ih h
      obtain ⟨hd, hlower⟩ := lowerHex_of_hexValue hdigit
      rw [List.length_cons, List.map_cons, hexFixed_succ, hquotient, hrest, hlower]
      constructor
      · rw [Nat.pow_succ, ← Nat.div_div_eq_div_mul, hquotient]
        omega
      · congr 2
        omega

theorem parseHex_eq_iff {tag : Tag} {name : Bytes} (hlength : name.length = 16) (id : StrongId tag) :
    StrongId.parseHex name = .ok id ↔ name.map lowerHex = id.toHex := by
  constructor
  · intro h
    unfold StrongId.parseHex at h
    rw [if_neg (not_not.mpr hlength)] at h
    cases hdigits : StrongId.parseHexDigits name 0 with
    | none =>
      rw [hdigits] at h
      cases h
    | some n =>
      rw [hdigits] at h
      have hspells := (parseHexDigits_spells hdigits).2
      rw [hlength] at hspells
      simp only [Except.ok.injEq] at h
      rw [← hspells, ← h, StrongId.toHex, UInt64.toNat_ofNat']
      exact (hexFixed_mod 16 n).symm
  · intro h
    have hid := id.parseHex_toHex
    unfold StrongId.parseHex at hid ⊢
    rw [← h, parseHexDigits_lowerHex, List.length_map] at hid
    exact hid

/-- The name does not look like an identity, or it spells this one. -/
def Unmistaken {tag : Tag} (name : Name) (id : StrongId tag) : Prop :=
  looksLikeIdentity name.str = true → name.str.map lowerHex = id.toHex

/-- A resolver whose lookup finds the identity answers with it exactly if the name is not mistaken for another. -/
theorem resolveText_eq_iff {tag : Tag} {name : Name} {id : StrongId tag} {find : Except Error (StrongId tag)}
    (hfind : find = .ok id) : resolveText name.str find = .ok id ↔ Unmistaken name id := by
  unfold resolveText Unmistaken
  by_cases hlooks : looksLikeIdentity name.str = true
  · have hlength : name.str.length = 16 := by
      simp only [looksLikeIdentity, Bool.and_eq_true, beq_iff_eq] at hlooks
      exact hlooks.1
    rw [if_pos hlooks, parseHex_eq_iff hlength]
    exact ⟨fun h _ => h, fun h => h hlooks⟩
  · rw [if_neg hlooks]
    exact ⟨fun _ h => absurd h hlooks, fun _ => hfind⟩

/-! ### Reachable engines -/

theorem reachable_keyed {config : RuntimeConfig} {now : Nanos} {d : Store.Directory} {start : System}
    (h : create config now d = .ok start) (calls : List (Nanos × Call)) :
    (calls.foldl System.step start).engine.catalog.Keyed := by
  refine (@System.run_inv (fun m => m.catalog.Keyed) _ _ _ _ h ?_ ?_ ?_ calls).1
  · exact Catalog.keyed_empty config.policy.limits
  · intro e m _ hload hkeyed
    cases hload with
    | definition x => exact Catalog.call_keyed hkeyed x
    | _ => exact hkeyed
  · intro e c m _ hchange hkeyed
    cases hchange with
    | definition _ x => exact Catalog.call_keyed hkeyed x
    | _ => exact hkeyed

/-- Every defined object, by kind: its name resolves to its identity exactly if it is not mistaken for another. -/
structure Engine.Addressed (e : Engine) : Prop where
  paths : ∀ (id : PathId) (path : PathDef), e.catalog.paths[id]? = some path →
    ∀ (request : JsonValue) (field : String), request.requireString field = .ok path.name.str →
      (resolvePath e request field = .ok id ↔ Unmistaken path.name id)
  generations : ∀ (id : GenerationId) (generation : GenerationDef), e.catalog.generations[id]? = some generation →
    ∀ (request : JsonValue) (field : String), request.requireString field = .ok generation.name.str →
      (resolveGeneration e request field = .ok id ↔ Unmistaken generation.name id)
  sources : ∀ (id : SourceId) (source : SourceDescriptor), e.catalog.sources[id]? = some source →
    ∀ (request : JsonValue) (field : String), request.requireString field = .ok source.name.str →
      (resolveSource e request field = .ok id ↔ Unmistaken source.name id)
  hops : ∀ (id : HopId) (hop : HopDef), e.catalog.hops[id]? = some hop →
    (resolveHop e hop.name.str = .ok id ↔ Unmistaken hop.name id)
  queues : ∀ (id : QueueId) (queue : QueueDef), e.catalog.queues[id]? = some queue →
    (resolveQueue e queue.name.str = .ok id ↔ Unmistaken queue.name id)
  links : ∀ (id : LinkId) (link : LinkDef), e.catalog.links[id]? = some link →
    (resolveLink e link.name.str = .ok id ↔ Unmistaken link.name id)
  endpoints : ∀ (id : EndpointId) (endpoint : EndpointDef), e.catalog.endpoints[id]? = some endpoint →
    (resolveEndpoint e endpoint.name.str = .ok id ↔ Unmistaken endpoint.name id)
  clockDomains : ∀ (id : ClockDomainId) (domain : ClockDomainDef), e.clocks.domains[id]? = some domain →
    (resolveClockDomain e domain.name.str = .ok id ↔ Unmistaken domain.name id)

/-- In every state of every run, and whatever the directory held, a defined object's name resolves to its identity
exactly if it does not look like an identity or spells its own. -/
theorem reachable_addressed {config : RuntimeConfig} {now : Nanos} {d : Store.Directory} {start : System}
    (h : create config now d = .ok start) (calls : List (Nanos × Call)) :
    (calls.foldl System.step start).engine.Addressed := by
  have hintegral := reachable_integral h calls
  have hkeyed := reachable_keyed h calls
  obtain ⟨clockCalls, hclocks⟩ := reachable_clocks h calls
  have hdomains := ClockRegistry.after_keyed config.policy clockCalls
  rw [← hclocks] at hdomains
  constructor
  · intro id path hpath request field hfield
    unfold resolvePath
    rw [hfield]
    refine resolveText_eq_iff ?_
    rw [Catalog.pathByName_eq hintegral hpath]
    exact congrArg Except.ok (hkeyed.paths id path hpath)
  · intro id generation hgeneration request field hfield
    unfold resolveGeneration
    rw [hfield]
    refine resolveText_eq_iff ?_
    rw [Catalog.generationByName_eq hintegral hgeneration]
    exact congrArg Except.ok (hkeyed.generations id generation hgeneration)
  · intro id source hsource request field hfield
    unfold resolveSource
    rw [hfield]
    refine resolveText_eq_iff ?_
    rw [Catalog.sourceByName_eq hintegral hsource]
    exact congrArg Except.ok (hkeyed.sources id source hsource)
  · intro id hop hhop
    refine resolveText_eq_iff ?_
    rw [Catalog.hop_derived hintegral hhop]
    exact congrArg Except.ok (hkeyed.hops id hop hhop)
  · intro id queue hqueue
    refine resolveText_eq_iff ?_
    rw [Catalog.queue_derived hintegral hqueue]
    exact congrArg Except.ok (hkeyed.queues id queue hqueue)
  · intro id link hlink
    refine resolveText_eq_iff ?_
    rw [Catalog.link_derived hintegral hlink]
    exact congrArg Except.ok (hkeyed.links id link hlink)
  · intro id endpoint hendpoint
    refine resolveText_eq_iff ?_
    rw [Catalog.endpoint_derived hintegral hendpoint]
    exact congrArg Except.ok (hkeyed.endpoints id endpoint hendpoint)
  · intro id domain hdomain
    refine resolveText_eq_iff ?_
    rw [ClockRegistry.find_domain hdomains hdomain]
    exact congrArg Except.ok (hdomains id domain hdomain).1

/-- A request for a generation by name. -/
def generationRequest (name : Bytes) : JsonValue := .object [(text "generation", .string name)]

theorem release_addressed :
    resolveGeneration ([(0, .defineGeneration sampleGeneration)].foldl System.step (storeless false)).engine
        (generationRequest (text "release-1")) "generation" =
      .ok (.deriveFrom sampleGeneration.name.str) := by
  refine ((reachable_addressed (storeless_created false) [(0, .defineGeneration sampleGeneration)]).generations
    (.deriveFrom sampleGeneration.name.str) { sampleGeneration with id := .deriveFrom sampleGeneration.name.str }
    (by decide +kernel) (generationRequest (text "release-1")) "generation" (by decide +kernel)).mpr ?_
  intro hlooks
  revert hlooks
  decide +kernel

/-- The only definition there is cannot be addressed: its name reads as an identity that nothing has. -/
theorem deadbeef_mistaken :
    create { readonly := false } 0 ⟨.missing, none, []⟩ = .ok (storeless false) ∧
      Name.parse (text "deadbeefdeadbeef") = .ok ⟨text "deadbeefdeadbeef"⟩ ∧
      ∃ s, [(0, .defineGeneration { name := ⟨text "deadbeefdeadbeef"⟩, revision := .first })].foldl System.step
          (storeless false) = s ∧
        s.engine.catalog.generations.toList.map (·.2.name) = [⟨text "deadbeefdeadbeef"⟩] ∧
        s.engine.catalog.generations.contains (.deriveFrom (text "deadbeefdeadbeef")) = true ∧
        resolveGeneration s.engine (generationRequest (text "deadbeefdeadbeef")) "generation" =
          .ok ⟨0xdeadbeefdeadbeef⟩ ∧
        (⟨0xdeadbeefdeadbeef⟩ : GenerationId) ≠ .deriveFrom (text "deadbeefdeadbeef") := by
  refine ⟨storeless_created false, by decide +kernel, _, rfl, ?_⟩
  decide +kernel

end LatencyObservatory.Runtime
