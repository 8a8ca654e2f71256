import LatencyObservatory.Model.Integrity
import LatencyObservatory.Lib.Acyclic

/-!
# The lineage of generations

`define_generation` checks that the superseded generation exists and is not the generation itself. The first
definition of a generation therefore cannot close a cycle: nothing supersedes it yet. A redefinition replaces
its edge, and `Lib.Redirected` says when that closes one: exactly when the lineage of the newly superseded
generation runs through the redefined one.
-/

namespace LatencyObservatory.Model

open LatencyObservatory.Core Relation

namespace Catalog

/-- The stored generation `child` declares that it supersedes `parent`. -/
def Supersedes (c : Catalog) (child parent : GenerationId) : Prop :=
  ∃ generation, c.generations[child]? = some generation ∧ generation.supersedes = parent

/-- The law of the lineage: no generation succeeds itself, and something is not superseded. -/
structure Lineage (c : Catalog) : Prop where
  acyclic : Lib.Acyclic c.Supersedes
  tip : c.generations.isEmpty = false →
    ∃ id, c.generations.contains id = true ∧ c.isSuperseded id = false

/-- The definition redefines a stored generation, which its new predecessor already descends from. -/
def ClosesCycle (c : Catalog) (definition : GenerationDef) : Prop :=
  ∃ existing, c.generations[(identityOf definition : GenerationId)]? = some existing ∧
    existing.name = definition.name ∧ existing.revision.value < definition.revision.value ∧
    TransGen c.Supersedes definition.supersedes (identityOf definition)

theorem isSuperseded_iff {c : Catalog} {id : GenerationId} :
    c.isSuperseded id = true ↔ ∃ child, c.Supersedes child id := by
  unfold isSuperseded Supersedes
  rw [List.any_eq_true]
  constructor
  · rintro ⟨⟨child, generation⟩, hmem, hsupersedes⟩
    rw [Std.ExtTreeMap.mem_toList_iff_getElem?_eq_some] at hmem
    exact ⟨child, generation, hmem, beq_iff_eq.mp hsupersedes⟩
  · rintro ⟨child, generation, hmem, hsupersedes⟩
    refine ⟨(child, generation), ?_, beq_iff_eq.mpr hsupersedes⟩
    rw [Std.ExtTreeMap.mem_toList_iff_getElem?_eq_some]
    exact hmem

theorem lineage_iff_acyclic {c : Catalog} : c.Lineage ↔ Lib.Acyclic c.Supersedes := by
  refine ⟨Lineage.acyclic, fun hacyclic => ⟨hacyclic, fun hnonempty => ?_⟩⟩
  have hfinite : {id : GenerationId | c.generations.contains id = true}.Finite := by
    refine (c.generations.keys.finite_toSet).subset fun id hid => ?_
    simpa using hid
  have hsome : {id : GenerationId | c.generations.contains id = true}.Nonempty := by
    rw [← Std.ExtTreeMap.isEmpty_toList, List.isEmpty_eq_false_iff] at hnonempty
    obtain ⟨⟨id, generation⟩, hmem⟩ := List.exists_mem_of_ne_nil _ hnonempty
    rw [Std.ExtTreeMap.mem_toList_iff_getElem?_eq_some] at hmem
    refine ⟨id, ?_⟩
    show c.generations.contains id = true
    rw [Std.ExtTreeMap.contains_eq_isSome_getElem?, hmem]
    rfl
  obtain ⟨id, hid, hsource⟩ := hacyclic.exists_source hfinite hsome
  refine ⟨id, hid, ?_⟩
  by_contra hsuperseded
  obtain ⟨child, hchild⟩ := isSuperseded_iff.mp (Bool.not_eq_false _ ▸ hsuperseded)
  refine hsource child ?_ hchild
  obtain ⟨generation, hstored, -⟩ := hchild
  show c.generations.contains child = true
  rw [Std.ExtTreeMap.contains_eq_isSome_getElem?, hstored]
  rfl

/-! ### One definition -/

section Step

variable {c : Catalog} {definition : GenerationDef}

theorem redirected {c' : Catalog} {limit : Nat} {value : GenerationDef}
    (h : Upserted limit value c.generations c'.generations) :
    Lib.Redirected c.Supersedes c'.Supersedes (identityOf value) value.supersedes where
  others := by
    intro a b ha
    unfold Supersedes
    rw [h.others a ha]
  edge := by
    intro b
    unfold Supersedes
    rw [h.stored]
    constructor
    · rintro ⟨generation, hsame, rfl⟩
      rw [Option.some.inj hsame]
    · rintro rfl
      exact ⟨value, rfl, rfl⟩

/-- `define_generation` leaves the generations alone, or stores one that does not supersede itself. -/
theorem defineGeneration_cases (h : c.Integral) :
    (c.defineGeneration definition).2.generations = c.generations ∨
      definition.supersedes ≠ identityOf definition ∧
        Upserted c.limits.maxGenerations { definition with id := .deriveFrom definition.name.str } c.generations
          (c.defineGeneration definition).2.generations := by
  unfold defineGeneration
  simp only
  split_ifs with _ _ hself
  · exact Or.inl rfl
  · exact Or.inl rfl
  · exact Or.inl rfl
  · split
    · exact Or.inl rfl
    · rename_i generations hupsert
      have hu := @upsert_ok _ _ _ _ _ _ { definition with id := .deriveFrom definition.name.str } _ _ hupsert
      rw [indexName_ok h.generations h.generationNames]
      exact Or.inr ⟨hself, hu⟩

/-- A redefinition at a newer revision is stored if its predecessor is known and another one. -/
theorem defineGeneration_redefines (h : c.Integral) {existing : GenerationDef}
    (hexisting : c.generations[(identityOf definition : GenerationId)]? = some existing)
    (hname : existing.name = definition.name) (hrevision : existing.revision.value < definition.revision.value)
    (hknown : c.generations.contains definition.supersedes = true)
    (hself : definition.supersedes ≠ identityOf definition) :
    Upserted c.limits.maxGenerations { definition with id := .deriveFrom definition.name.str } c.generations
      (c.defineGeneration definition).2.generations := by
  set value : GenerationDef := { definition with id := .deriveFrom definition.name.str } with hvalue
  have hvalid : ¬ (!definition.revision.valid) = true := by
    have hpos : definition.revision.value ≠ 0 := by
      intro hzero
      rw [hzero] at hrevision
      exact absurd hrevision (UInt32.not_lt.mpr (UInt32.zero_le))
    simpa [Revision.valid] using hpos
  have hresolves : ¬ (definition.supersedes.valid && !c.generations.contains definition.supersedes) = true := by
    simp [hknown]
  have hupsert : upsert c.generations (.deriveFrom definition.name.str) value definition.name c.limits.maxGenerations
      "generation" = .ok (c.generations.insert (.deriveFrom definition.name.str) value) := by
    have hexisting : c.generations[(StrongId.deriveFrom definition.name.str : GenerationId)]? = some existing :=
      hexisting
    have hdiffers : existing ≠ value := by
      rintro rfl
      exact absurd hrevision (UInt32.lt_irrefl _)
    have hsameName : ¬ Definition.name existing ≠ definition.name := not_not.mpr hname
    have hnewer : ¬ (Definition.revision value).value ≤ (Definition.revision existing).value :=
      UInt32.not_le.mpr hrevision
    unfold upsert
    rw [hexisting]
    dsimp only
    rw [if_neg hsameName, if_neg hdiffers, if_neg hnewer]
  have hgenerations : (c.defineGeneration definition).2.generations =
      c.generations.insert (.deriveFrom definition.name.str) value := by
    have hother : definition.supersedes ≠ .deriveFrom definition.name.str := hself
    unfold defineGeneration
    dsimp only
    rw [if_neg hvalid, if_neg hresolves, if_neg hother, hupsert]
    dsimp only
    rw [indexName_ok h.generations h.generationNames]
  rw [hgenerations]
  exact @upsert_ok _ _ _ _ _ _ value _ _ hupsert

/-- A redefinition closes a cycle exactly when the lineage of its predecessor runs through it. -/
theorem defineGeneration_acyclic_iff (h : c.Integral) (hacyclic : Lib.Acyclic c.Supersedes) :
    Lib.Acyclic (c.defineGeneration definition).2.Supersedes ↔ ¬ c.ClosesCycle definition := by
  constructor
  · rintro hafter ⟨existing, hexisting, hname, hrevision, hpath⟩
    obtain ⟨next, hnext, -⟩ := TransGen.head'_iff.mp hpath
    obtain ⟨parent, hparent, -⟩ := hnext
    have hknown : c.generations.contains definition.supersedes = true := by
      rw [Std.ExtTreeMap.contains_eq_isSome_getElem?, hparent]
      rfl
    have hself : definition.supersedes ≠ identityOf definition := by
      intro heq
      rw [heq] at hpath
      exact hacyclic _ hpath
    have hredirected := redirected (defineGeneration_redefines h hexisting hname hrevision hknown hself)
    exact (hredirected.acyclic_iff hacyclic).mp hafter hpath.to_reflTransGen
  · intro hopen
    rcases @defineGeneration_cases c definition h with hsame | ⟨hself, hupserted⟩
    · have hunchanged : (c.defineGeneration definition).2.Supersedes = c.Supersedes := by
        unfold Supersedes
        rw [hsame]
      rw [hunchanged]
      exact hacyclic
    · refine ((redirected hupserted).acyclic_iff hacyclic).mpr fun hback => ?_
      -- The way back is not empty, so its last step supersedes the generation, which is therefore stored.
      have hpath : TransGen c.Supersedes definition.supersedes (identityOf definition) := by
        rcases Relation.reflTransGen_iff_eq_or_transGen.mp hback with heq | hpath
        · exact absurd heq.symm hself
        · exact hpath
      obtain ⟨child, -, generation, hgeneration, hsupersedes⟩ := TransGen.tail'_iff.mp hpath
      have hstored := h.supersedes child generation hgeneration
      rw [hsupersedes] at hstored
      have hcontains := hstored (StrongId.deriveFrom_valid _)
      rw [Std.ExtTreeMap.contains_eq_isSome_getElem?, Option.isSome_iff_exists] at hcontains
      obtain ⟨existing, hexisting⟩ := hcontains
      obtain ⟨hname, hsame | hrevision⟩ := hupserted.revised existing hexisting
      · -- The very same definition again: the way back was a cycle before.
        refine hacyclic (identityOf definition) (TransGen.head ?_ hpath)
        refine ⟨existing, hexisting, ?_⟩
        rw [← hsame]
      · exact hopen ⟨existing, hexisting, hname, hrevision, hpath⟩

end Step

/-! ### Every sequence of calls -/

def DefineCall.ClosesCycle (c : Catalog) : DefineCall → Prop
  | .generation definition => c.ClosesCycle definition
  | _ => False

theorem call_lineage_iff {c : Catalog} (h : c.Integral) (hlineage : c.Lineage) (x : DefineCall) :
    (c.call x).2.Lineage ↔ ¬ x.ClosesCycle c := by
  have hother : (∀ definition, x ≠ .generation definition) → (c.call x).2.Lineage := by
    intro hx
    have hunchanged : (c.call x).2.Supersedes = c.Supersedes := by
      unfold Supersedes
      rw [c.call_generations hx]
    rw [lineage_iff_acyclic, hunchanged]
    exact hlineage.acyclic
  cases x with
  | generation definition =>
    rw [lineage_iff_acyclic]
    exact defineGeneration_acyclic_iff h hlineage.acyclic
  | _ => exact iff_of_true (hother (by intro definition heq; cases heq)) not_false

/-- Along a sequence of calls the lineage stays acyclic, and keeps a tip, exactly as long as no redefinition of
a generation supersedes one of its own descendants. -/
theorem afterCalls_lineage_iff (limits : Limits) (calls : List DefineCall) :
    (∀ n, (afterCalls limits (calls.take n)).Lineage) ↔
      ∀ p ∈ Lib.steps (fun c x => (c.call x).2) { limits := limits } calls, ¬ p.2.ClosesCycle p.1 := by
  have hempty : ({ limits := limits } : Catalog).Lineage := by
    rw [lineage_iff_acyclic]
    intro id hcycle
    obtain ⟨next, ⟨generation, hstored, -⟩, -⟩ := TransGen.head'_iff.mp hcycle
    simp at hstored
  refine @Lib.take_foldl_iff Catalog DefineCall (fun c x => (c.call x).2) Integral Lineage
    (fun c x => ¬ x.ClosesCycle c) ?_ ?_ _ (integral_empty limits) hempty calls
  · intro c x h
    exact (call_sound h x).integral
  · intro c x h hlineage
    exact call_lineage_iff h hlineage x

/-! A generation is redefined to supersede its own successor. -/

def lineageOne : GenerationDef := { name := ⟨text "lineage.one"⟩, revision := .first }

def lineageTwo : GenerationDef :=
  { name := ⟨text "lineage.two"⟩, revision := .first, supersedes := .deriveFrom lineageOne.name.str }

def lineageOneAgain : GenerationDef :=
  { lineageOne with revision := ⟨2⟩, supersedes := .deriveFrom lineageTwo.name.str }

/-- All three calls succeed, and every generation is superseded. -/
theorem lineage_cycle :
    ¬ (afterCalls {} [.generation lineageOne, .generation lineageTwo, .generation lineageOneAgain]).Lineage := by
  intro h
  have hone : (afterCalls {} [.generation lineageOne, .generation lineageTwo,
      .generation lineageOneAgain]).generations[(identityOf lineageOne : GenerationId)]? =
        some { lineageOneAgain with id := identityOf lineageOne } := by decide +kernel
  have htwo : (afterCalls {} [.generation lineageOne, .generation lineageTwo,
      .generation lineageOneAgain]).generations[(identityOf lineageTwo : GenerationId)]? =
        some { lineageTwo with id := identityOf lineageTwo } := by decide +kernel
  exact h.acyclic (identityOf lineageOne) (TransGen.tail (.single ⟨_, hone, rfl⟩) ⟨_, htwo, rfl⟩)

end Catalog

end LatencyObservatory.Model
