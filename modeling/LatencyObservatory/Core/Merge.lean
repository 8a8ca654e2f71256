import LatencyObservatory.Core.Evidence
import LatencyObservatory.Lib.Capped
import LatencyObservatory.Lib.Sorting

/-!
# Merging evidence in any order

State, freshness and confidence take the worse value, so a fold of merges does not depend on its order.
Reasons are a set with a cap: a fold is order independent as long as all reasons together fit. Reasons that
are added after a merge stay unsorted until the next one.
-/

namespace LatencyObservatory.Core

namespace Reason

theorem cmp_eq_iff (a b : Reason) : cmp a b = .eq ↔ a = b := by
  unfold cmp
  rw [Ordering.then_eq_eq, Std.LawfulEqOrd.compare_eq_iff_eq, Std.LawfulEqOrd.compare_eq_iff_eq]
  constructor
  · rintro ⟨hcode, hdetail⟩
    obtain ⟨code, detail⟩ := a
    obtain ⟨code', detail'⟩ := b
    have hsame : code = code' := by
      rw [← ReasonCode.ofNat_ctorIdx code, ← ReasonCode.ofNat_ctorIdx code']
      exact congrArg ReasonCode.ofNat hcode
    rw [hsame, show detail = detail' from hdetail]
  · rintro rfl
    exact ⟨rfl, rfl⟩

instance : Std.TransCmp cmp := by
  have hlex : cmp = compareLex (compareOn fun a : Reason => a.code.ctorIdx) (compareOn Reason.detail) := rfl
  rw [hlex]
  infer_instance

instance : Std.Total le := by
  refine ⟨fun a b => ?_⟩
  unfold le
  rw [@Std.OrientedCmp.eq_swap _ cmp _ b a]
  cases cmp a b <;> simp

instance : IsTrans Reason le := ⟨fun _ _ _ hab hbc => Std.TransCmp.isLE_trans hab hbc⟩

instance : Std.Antisymm le := by
  refine ⟨fun a b hab hba => ?_⟩
  rw [← cmp_eq_iff]
  unfold le at hab hba
  rw [@Std.OrientedCmp.eq_swap _ cmp _ b a] at hba
  cases hcmp : cmp a b with
  | eq => rfl
  | lt =>
    rw [hcmp] at hba
    cases hba
  | gt =>
    rw [hcmp] at hab
    cases hab

end Reason

namespace Evidence

/-! ### State, freshness and confidence -/

/-- How much the evidence is worth, without the reasons. -/
def standing (e : Evidence) : EvidenceState × Freshness × Confidence :=
  (e.state, e.freshness, e.confidence)

def mergeStanding (left right : EvidenceState × Freshness × Confidence) : EvidenceState × Freshness × Confidence :=
  (mergeState left.1 right.1, mergeFreshness left.2.1 right.2.1, mergeConfidence left.2.2 right.2.2)

theorem mergeState_right_comm (s a b : EvidenceState) :
    mergeState (mergeState s a) b = mergeState (mergeState s b) a := by
  cases s <;> cases a <;> cases b <;> rfl

theorem mergeFreshness_right_comm (s a b : Freshness) :
    mergeFreshness (mergeFreshness s a) b = mergeFreshness (mergeFreshness s b) a := by
  cases s <;> cases a <;> cases b <;> rfl

theorem mergeConfidence_right_comm (s a b : Confidence) :
    mergeConfidence (mergeConfidence s a) b = mergeConfidence (mergeConfidence s b) a := by
  cases s <;> cases a <;> cases b <;> rfl

theorem mergeConfidence_comm (a b : Confidence) : mergeConfidence a b = mergeConfidence b a := by
  cases a <;> cases b <;> rfl

theorem mergeConfidence_high (a : Confidence) : mergeConfidence .high a = a := by
  cases a <;> rfl

theorem mergeStanding_right_comm (s a b : EvidenceState × Freshness × Confidence) :
    mergeStanding (mergeStanding s a) b = mergeStanding (mergeStanding s b) a := by
  unfold mergeStanding
  rw [mergeState_right_comm, mergeFreshness_right_comm, mergeConfidence_right_comm]

theorem addReason_standing (e : Evidence) (code : ReasonCode) (detail : Bytes) :
    (e.addReason code detail).standing = e.standing := by
  unfold addReason
  split_ifs <;> rfl

theorem addReasons_standing (e : Evidence) (reasons : List Reason) :
    (e.addReasons reasons).standing = e.standing := by
  induction reasons generalizing e with
  | nil => rfl
  | cons reason rest ih => exact (ih _).trans (addReason_standing e _ _)

theorem merge_standing (left right : Evidence) :
    (merge left right).standing = mergeStanding left.standing right.standing := by
  show (((ofState _ _ _).addReasons left.reasons).addReasons right.reasons).standing = _
  rw [addReasons_standing, addReasons_standing]
  rfl

/-! ### Reasons -/

/-- The reasons with the flag that some did not fit. -/
def noted (e : Evidence) : List Reason × Bool :=
  (e.reasons, e.reasonsTruncated)

theorem ext_noted {e₁ e₂ : Evidence} (hstanding : e₁.standing = e₂.standing) (hnoted : e₁.noted = e₂.noted) :
    e₁ = e₂ := by
  obtain ⟨s₁, f₁, c₁, r₁, t₁, _, _⟩ := e₁
  obtain ⟨s₂, f₂, c₂, r₂, t₂, _, _⟩ := e₂
  simp only [standing, noted, Prod.mk.injEq] at hstanding hnoted
  obtain ⟨rfl, rfl, rfl⟩ := hstanding
  obtain ⟨rfl, rfl⟩ := hnoted
  rfl

theorem addReason_noted (e : Evidence) (code : ReasonCode) (detail : Bytes) :
    (e.addReason code detail).noted = Lib.addCapped maxReasons e.noted ⟨code, detail⟩ := by
  unfold addReason Lib.addCapped noted
  split_ifs <;> rfl

theorem addReasons_noted (e : Evidence) (reasons : List Reason) :
    (e.addReasons reasons).noted = Lib.addAll maxReasons e.noted reasons := by
  induction reasons generalizing e with
  | nil => rfl
  | cons reason rest ih =>
    rw [Lib.addAll_cons, ← addReason_noted]
    exact ih _

theorem addReasons_kept (e : Evidence) (reasons : List Reason) : e.reasons <+: (e.addReasons reasons).reasons := by
  have hpre := @Lib.addAll_kept _ _ maxReasons e.noted reasons
  rwa [← addReasons_noted] at hpre

theorem addAll_reasons (e : Evidence) (flag : Bool) :
    Lib.addAll maxReasons ([], flag) e.reasons = (e.reasons, flag) := by
  have hfits := @Lib.addAll_of_fits _ _ maxReasons ([], flag) e.reasons
    (by simpa using e.reasons_nodup) (by simpa using e.reasons_bounded)
  simpa using hfits

theorem merge_noted (left right : Evidence) :
    (merge left right).noted =
      ((Lib.addAll maxReasons (left.reasons, false) right.reasons).1.insertionSort Reason.le,
        left.reasonsTruncated || right.reasonsTruncated ||
          (Lib.addAll maxReasons (left.reasons, false) right.reasons).2) := by
  have hfirst : ((ofState (mergeState left.state right.state) (mergeFreshness left.freshness right.freshness)
      (mergeConfidence left.confidence right.confidence)).addReasons left.reasons).noted = (left.reasons, false) := by
    rw [addReasons_noted]
    exact addAll_reasons left false
  have hjoined := addReasons_noted ((ofState (mergeState left.state right.state)
    (mergeFreshness left.freshness right.freshness) (mergeConfidence left.confidence right.confidence)).addReasons
      left.reasons) right.reasons
  rw [hfirst] at hjoined
  rw [← hjoined]
  rfl

theorem merge_sorted (left right : Evidence) : (merge left right).reasons.Pairwise Reason.le :=
  List.pairwise_insertionSort _ _

theorem merge_subset (left right : Evidence) : left.reasons ⊆ (merge left right).reasons := by
  intro reason hreason
  have hnoted := congrArg Prod.fst (merge_noted left right)
  show reason ∈ (merge left right).noted.1
  rw [hnoted, List.mem_insertionSort]
  exact (Lib.addAll_kept (left.reasons, false) right.reasons).subset hreason

/-! ### Contributions

A summary merges the evidence of one exchange and then adds some reasons of its own. -/

/-- Merges one evidence value and adds some reasons after it. -/
def absorb (e : Evidence) (c : Evidence × List Reason) : Evidence :=
  (merge e c.1).addReasons c.2

/-- The reasons that one contribution gives by itself: those of the evidence, then those added while there
is room. -/
def gathered (c : Evidence × List Reason) : List Reason × Bool :=
  Lib.addAll maxReasons c.1.noted c.2

/-- The reasons that some contributions give, each by itself. -/
def reasonSet (cs : List (Evidence × List Reason)) : Finset Reason :=
  (cs.flatMap fun c => (gathered c).1).toFinset

theorem mem_reasonSet {cs : List (Evidence × List Reason)} {reason : Reason} :
    reason ∈ reasonSet cs ↔ ∃ c ∈ cs, reason ∈ (gathered c).1 := by
  unfold reasonSet
  rw [List.mem_toFinset, List.mem_flatMap]

theorem reasonSet_eq_of_perm {cs cs' : List (Evidence × List Reason)} (h : cs.Perm cs') :
    reasonSet cs = reasonSet cs' := by
  ext reason
  simp only [mem_reasonSet, h.mem_iff]

theorem reasons_subset_gathered (c : Evidence × List Reason) : c.1.reasons ⊆ (gathered c).1 :=
  (Lib.addAll_kept c.1.noted c.2).subset

theorem gathered_length (c : Evidence × List Reason) : (gathered c).1.length ≤ maxReasons :=
  Lib.addAll_length c.1.reasons_bounded c.2

theorem absorb_subset (e : Evidence) (c : Evidence × List Reason) : e.reasons ⊆ (absorb e c).reasons :=
  fun _ hreason => (addReasons_kept _ _).subset (merge_subset e c.1 hreason)

theorem foldl_absorb_subset (e : Evidence) (cs : List (Evidence × List Reason)) :
    e.reasons ⊆ (cs.foldl absorb e).reasons := by
  induction cs generalizing e with
  | nil => exact List.Subset.refl _
  | cons c cs ih => exact List.Subset.trans (absorb_subset e c) (ih _)

section Fits

variable {K : Finset Reason} (hK : K.card ≤ maxReasons) {e : Evidence} (he : ∀ reason ∈ e.reasons, reason ∈ K)
include hK he

theorem merge_noted_of_fits {right : Evidence} (hright : ∀ reason ∈ right.reasons, reason ∈ K) :
    (∀ reason, reason ∈ (merge e right).reasons ↔ reason ∈ e.reasons ∨ reason ∈ right.reasons) ∧
      (merge e right).reasonsTruncated = (e.reasonsTruncated || right.reasonsTruncated) := by
  have hadd := @Lib.addAll_extends _ _ maxReasons K e.reasons false hK ([], false) List.nodup_nil e.reasons_nodup he
    right.reasons (by rw [addAll_reasons]; exact hright)
  rw [addAll_reasons] at hadd
  simp only [List.filter_nil, List.append_nil, Bool.or_false] at hadd
  have hnoted := merge_noted e right
  rw [hadd] at hnoted
  have hreasons := congrArg Prod.fst hnoted
  have hflag := congrArg Prod.snd hnoted
  constructor
  · intro reason
    show reason ∈ (merge e right).noted.1 ↔ _
    rw [hreasons, List.mem_insertionSort, List.mem_append, List.mem_filter]
    by_cases hmem : reason ∈ e.reasons <;> simp [hmem]
  · exact hflag.trans (Bool.or_false _)

/-- A contribution whose reasons fit: the merged reasons come first, sorted, then those added after. -/
theorem absorb_noted_of_fits {c : Evidence × List Reason} (hc : ∀ reason ∈ (gathered c).1, reason ∈ K) :
    (absorb e c).noted =
      ((merge e c.1).reasons ++ (gathered c).1.filter (· ∉ (merge e c.1).reasons),
        e.reasonsTruncated || (gathered c).2) := by
  obtain ⟨hmem, hflag⟩ := merge_noted_of_fits hK he fun reason hreason => hc reason (reasons_subset_gathered c hreason)
  have hbase : ∀ reason ∈ (merge e c.1).reasons, reason ∈ K := by
    intro reason hreason
    rcases (hmem reason).mp hreason with h | h
    · exact he reason h
    · exact hc reason (reasons_subset_gathered c h)
  have hadd := @Lib.addAll_extends _ _ maxReasons K (merge e c.1).reasons e.reasonsTruncated hK c.1.noted
    c.1.reasons_nodup (merge e c.1).reasons_nodup hbase c.2 hc
  have hknown : c.1.reasons.filter (· ∉ (merge e c.1).reasons) = [] := by
    rw [List.filter_eq_nil_iff]
    intro reason hreason
    simp [(hmem reason).mpr (Or.inr hreason)]
  have hstart : (merge e c.1).noted =
      ((merge e c.1).reasons ++ c.1.noted.1.filter (· ∉ (merge e c.1).reasons), e.reasonsTruncated || c.1.noted.2) := by
    unfold noted
    rw [hknown, hflag, List.append_nil]
  unfold absorb
  rw [addReasons_noted, hstart]
  exact hadd

theorem absorb_mem_of_fits {c : Evidence × List Reason} (hc : ∀ reason ∈ (gathered c).1, reason ∈ K)
    (reason : Reason) : reason ∈ (absorb e c).reasons ↔ reason ∈ e.reasons ∨ reason ∈ (gathered c).1 := by
  obtain ⟨hmem, -⟩ := merge_noted_of_fits hK he fun reason hreason => hc reason (reasons_subset_gathered c hreason)
  have hnoted := congrArg Prod.fst (absorb_noted_of_fits hK he hc)
  show reason ∈ (absorb e c).noted.1 ↔ _
  rw [hnoted, List.mem_append, List.mem_filter]
  have hown := @reasons_subset_gathered c reason
  by_cases hmerged : reason ∈ (merge e c.1).reasons
  · rcases (hmem reason).mp hmerged with hleft | hright
    · simp [hmerged, hleft]
    · simp [hmerged, hown hright]
  · have hleft : reason ∉ e.reasons := fun h => hmerged ((hmem reason).mpr (Or.inl h))
    simp [hmerged, hleft]

theorem foldl_absorb_of_fits {cs : List (Evidence × List Reason)} (hcs : ∀ reason ∈ reasonSet cs, reason ∈ K) :
    (∀ reason, reason ∈ (cs.foldl absorb e).reasons ↔ reason ∈ e.reasons ∨ reason ∈ reasonSet cs) ∧
      (cs.foldl absorb e).reasonsTruncated = (e.reasonsTruncated || cs.any fun c => (gathered c).2) := by
  induction cs generalizing e with
  | nil => simp [reasonSet]
  | cons c cs ih =>
    have hc : ∀ reason ∈ (gathered c).1, reason ∈ K :=
      fun reason hreason => hcs reason (mem_reasonSet.mpr ⟨c, List.mem_cons_self, hreason⟩)
    have hrest : ∀ reason ∈ reasonSet cs, reason ∈ K := by
      intro reason hreason
      obtain ⟨other, hother, hmem⟩ := mem_reasonSet.mp hreason
      exact hcs reason (mem_reasonSet.mpr ⟨other, List.mem_cons_of_mem _ hother, hmem⟩)
    have hstep := absorb_mem_of_fits hK he hc
    have hkept : ∀ reason ∈ (absorb e c).reasons, reason ∈ K := by
      intro reason hreason
      rcases (hstep reason).mp hreason with h | h
      · exact he reason h
      · exact hc reason h
    obtain ⟨hmem, hflag⟩ := ih hkept hrest
    have hflag' : (absorb e c).reasonsTruncated = (e.reasonsTruncated || (gathered c).2) :=
      congrArg Prod.snd (absorb_noted_of_fits hK he hc)
    constructor
    · intro reason
      rw [List.foldl_cons, hmem, hstep, mem_reasonSet, mem_reasonSet]
      simp only [List.mem_cons, exists_eq_or_imp, or_assoc]
    · rw [List.foldl_cons, hflag, hflag', List.any_cons, Bool.or_assoc]

end Fits

/-! ### Orders of contributions -/

theorem foldl_absorb_standing (e : Evidence) (cs : List (Evidence × List Reason)) :
    (cs.foldl absorb e).standing = cs.foldl (fun s c => mergeStanding s c.1.standing) e.standing := by
  induction cs generalizing e with
  | nil => rfl
  | cons c cs ih =>
    rw [List.foldl_cons, List.foldl_cons, ih, absorb, addReasons_standing, merge_standing]

/-- The reasons that the last contribution adds after its merge and that no other one gives. -/
def trailing (rest : List (Evidence × List Reason)) (last : Evidence × List Reason) : List Reason :=
  (gathered last).1.filter fun reason => reason ∉ last.1.reasons ∧ reason ∉ reasonSet rest

/-- Whichever contribution comes last, the reasons that only it adds are in order, after all others. -/
def InOrder (cs : List (Evidence × List Reason)) : Prop :=
  ∀ rest last, (rest ++ [last]).Perm cs →
    (trailing rest last).Pairwise Reason.le ∧
      ∀ late ∈ trailing rest last, ∀ reason ∈ reasonSet cs, reason ∉ trailing rest last → Reason.le reason late

section Start

variable {e : Evidence} (he : e.reasons = []) {cs : List (Evidence × List Reason)}
include he

theorem start_inside (K : Finset Reason) : ∀ reason ∈ e.reasons, reason ∈ K := by
  rw [he]
  simp

theorem foldl_absorb_gathers (hfits : (reasonSet cs).card ≤ maxReasons) :
    (∀ reason, reason ∈ (cs.foldl absorb e).reasons ↔ reason ∈ reasonSet cs) ∧
      (cs.foldl absorb e).reasonsTruncated = (e.reasonsTruncated || cs.any fun c => (gathered c).2) := by
  obtain ⟨hmem, hflag⟩ := foldl_absorb_of_fits hfits (start_inside he (reasonSet cs)) fun _ h => h
  refine ⟨?_, hflag⟩
  intro reason
  rw [hmem, he]
  simp

theorem foldl_absorb_last {rest : List (Evidence × List Reason)} {last : Evidence × List Reason}
    (hfits : (reasonSet (rest ++ [last])).card ≤ maxReasons) :
    ((rest ++ [last]).foldl absorb e).reasons =
      (merge (rest.foldl absorb e) last.1).reasons ++ trailing rest last := by
  have hrest : ∀ reason ∈ reasonSet rest, reason ∈ reasonSet (rest ++ [last]) := by
    intro reason hreason
    obtain ⟨c, hc, hmem⟩ := mem_reasonSet.mp hreason
    exact mem_reasonSet.mpr ⟨c, List.mem_append_left _ hc, hmem⟩
  have hlast : ∀ reason ∈ (gathered last).1, reason ∈ reasonSet (rest ++ [last]) :=
    fun reason hreason => mem_reasonSet.mpr ⟨last, by simp, hreason⟩
  obtain ⟨hmem, -⟩ := foldl_absorb_gathers he ((Finset.card_le_card hrest).trans hfits)
  have hinside : ∀ reason ∈ (rest.foldl absorb e).reasons, reason ∈ reasonSet (rest ++ [last]) :=
    fun reason hreason => hrest reason ((hmem reason).mp hreason)
  obtain ⟨hmerged, -⟩ := merge_noted_of_fits hfits hinside
    fun reason hreason => hlast reason (reasons_subset_gathered last hreason)
  have hnoted := congrArg Prod.fst (absorb_noted_of_fits hfits hinside hlast)
  have hfilter : (gathered last).1.filter (· ∉ (merge (rest.foldl absorb e) last.1).reasons) = trailing rest last := by
    unfold trailing
    apply List.filter_congr
    intro reason _
    rw [decide_eq_decide, hmerged, hmem]
    tauto
  rw [List.foldl_append]
  show (absorb (rest.foldl absorb e) last).noted.1 = _
  rw [hnoted, ← hfilter]

theorem foldl_absorb_sorted (hfits : (reasonSet cs).card ≤ maxReasons) (horder : InOrder cs) :
    (cs.foldl absorb e).reasons.Pairwise Reason.le := by
  rcases List.eq_nil_or_concat cs with rfl | ⟨rest, last, rfl⟩
  · rw [List.foldl_nil, he]
    exact List.Pairwise.nil
  · rw [List.concat_eq_append] at *
    obtain ⟨hown, hlate⟩ := horder rest last (List.Perm.refl _)
    have hlist := foldl_absorb_last he hfits
    obtain ⟨hmem, -⟩ := foldl_absorb_gathers he hfits
    have hnodup := ((rest ++ [last]).foldl absorb e).reasons_nodup
    rw [hlist] at hnodup ⊢
    refine List.pairwise_append.mpr ⟨merge_sorted _ _, hown, ?_⟩
    intro reason hreason late hlater
    refine hlate late hlater reason ?_ ?_
    · rw [← hmem, hlist]
      exact List.mem_append_left _ hreason
    · intro hmem'
      exact (List.nodup_append.mp hnodup).2.2 reason hreason reason hmem' rfl

/-- **Contributions that fit and stay in order may come in any order.** -/
theorem foldl_absorb_eq_of_perm {cs' : List (Evidence × List Reason)} (h : cs'.Perm cs)
    (hfits : (reasonSet cs).card ≤ maxReasons) (horder : InOrder cs) :
    cs'.foldl absorb e = cs.foldl absorb e := by
  have hfits' : (reasonSet cs').card ≤ maxReasons := by rwa [reasonSet_eq_of_perm h]
  have horder' : InOrder cs' := by
    intro rest last hperm
    rw [reasonSet_eq_of_perm h]
    exact horder rest last (hperm.trans h)
  obtain ⟨hmem, hflag⟩ := foldl_absorb_gathers he hfits
  obtain ⟨hmem', hflag'⟩ := foldl_absorb_gathers he hfits'
  have hreasons : (cs'.foldl absorb e).reasons = (cs.foldl absorb e).reasons := by
    apply List.Perm.eq_of_pairwise' (foldl_absorb_sorted he hfits' horder') (foldl_absorb_sorted he hfits horder)
    rw [List.perm_ext_iff_of_nodup (cs'.foldl absorb e).reasons_nodup (cs.foldl absorb e).reasons_nodup]
    intro reason
    rw [hmem, hmem', reasonSet_eq_of_perm h]
  apply ext_noted
  · rw [foldl_absorb_standing, foldl_absorb_standing]
    exact h.foldl_eq' (fun a _ b _ s => mergeStanding_right_comm s _ _) _
  · unfold noted
    rw [hreasons, hflag, hflag']
    have hany : (cs'.any fun c => (gathered c).2) = cs.any fun c => (gathered c).2 := by
      rw [Bool.eq_iff_iff, List.any_eq_true, List.any_eq_true]
      simp only [h.mem_iff]
    rw [hany]

/-- If every contribution can come first and the fold ends inside the same evidence, the reasons fit. -/
theorem reasonSet_fits {final : Evidence}
    (h : ∀ c ∈ cs, ∃ rest : List (Evidence × List Reason), ((c :: rest).foldl absorb e).reasons ⊆ final.reasons) :
    (reasonSet cs).card ≤ maxReasons := by
  have hsub : reasonSet cs ⊆ final.reasons.toFinset := by
    intro reason hreason
    obtain ⟨c, hc, hmem⟩ := mem_reasonSet.mp hreason
    -- The first contribution is kept whole.
    have hfirst : ∀ r, r ∈ (absorb e c).reasons ↔ r ∈ e.reasons ∨ r ∈ (gathered c).1 := by
      apply @absorb_mem_of_fits (gathered c).1.toFinset
      · exact (List.toFinset_card_le _).trans (gathered_length c)
      · exact start_inside he _
      · intro r hr
        exact List.mem_toFinset.mpr hr
    obtain ⟨rest, hrest⟩ := h c hc
    rw [List.mem_toFinset]
    apply hrest
    exact foldl_absorb_subset (absorb e c) rest ((hfirst reason).mpr (Or.inr hmem))
  exact (Finset.card_le_card hsub).trans ((List.toFinset_card_le _).trans final.reasons_bounded)

theorem inOrder_of_agree (hfits : (reasonSet cs).card ≤ maxReasons) (hseveral : 2 ≤ cs.length)
    (h : ∀ other : List (Evidence × List Reason), other.Perm cs →
      (other.foldl absorb e).reasons = (cs.foldl absorb e).reasons) : InOrder cs := by
  intro rest last hperm
  have hset := reasonSet_eq_of_perm hperm
  have hlist := @foldl_absorb_last e he rest last (hset ▸ hfits)
  obtain ⟨hmem, -⟩ := @foldl_absorb_gathers e he _ (hset ▸ hfits)
  -- Another contribution comes last, and ends with the same list.
  obtain ⟨c, others, rfl⟩ : ∃ c others, rest = c :: others := by
    cases rest with
    | nil =>
      have hlength := hperm.length_eq
      simp at hlength
      omega
    | cons c others => exact ⟨c, others, rfl⟩
  have hswapped : ((others ++ [last]) ++ [c]).Perm cs := (List.perm_append_singleton c _).trans hperm
  have hlist' := @foldl_absorb_last e he (others ++ [last]) c (reasonSet_eq_of_perm hswapped ▸ hfits)
  have hsame : (merge ((c :: others).foldl absorb e) last.1).reasons ++ trailing (c :: others) last =
      (merge ((others ++ [last]).foldl absorb e) c.1).reasons ++ trailing (others ++ [last]) c := by
    rw [← hlist, ← hlist', h _ hperm, h _ hswapped]
  have hsorted : (trailing (c :: others) last) = [] ∨
      ((merge ((c :: others).foldl absorb e) last.1).reasons ++ trailing (c :: others) last).Pairwise Reason.le := by
    rcases List.eq_nil_or_concat (trailing (others ++ [last]) c) with hnone | ⟨init, late, hlate⟩
    · right
      rw [hsame, hnone, List.append_nil]
      exact merge_sorted _ _
    · left
      rcases List.eq_nil_or_concat (trailing (c :: others) last) with hnone | ⟨init', late', hlate'⟩
      · exact hnone
      · -- The last reason of the list would be one that only `c` gives and one that `c` does not give.
        rw [hlate, hlate', List.concat_eq_append, List.concat_eq_append, ← List.append_assoc,
          ← List.append_assoc] at hsame
        have hequal := congrArg List.getLast? hsame
        rw [List.getLast?_concat, List.getLast?_concat, Option.some.injEq] at hequal
        have hfrom : late ∈ trailing (others ++ [last]) c := by rw [hlate]; simp
        have hnot : late' ∈ trailing (c :: others) last := by rw [hlate']; simp
        have hgiven : late ∈ (gathered c).1 := (List.mem_filter.mp hfrom).1
        have hexcluded : late' ∉ reasonSet (c :: others) := by
          have := (List.mem_filter.mp hnot).2
          simp only [decide_eq_true_eq] at this
          exact this.2
        exact absurd (mem_reasonSet.mpr ⟨c, List.mem_cons_self, hequal ▸ hgiven⟩) hexcluded
  rcases hsorted with hnone | hsorted
  · rw [hnone]
    exact ⟨List.Pairwise.nil, by simp⟩
  · obtain ⟨-, hown, hcross⟩ := List.pairwise_append.mp hsorted
    refine ⟨hown, ?_⟩
    intro late hlate reason hreason hother
    refine hcross reason ?_ late hlate
    rw [← hset, ← hmem, hlist] at hreason
    exact (List.mem_append.mp hreason).resolve_right hother

end Start

theorem inOrder_of_bare {cs : List (Evidence × List Reason)} (h : ∀ c ∈ cs, c.2 = []) : InOrder cs := by
  intro rest last hperm
  have hlast : last.2 = [] := h last (hperm.mem_iff.mp (by simp))
  have hnone : trailing rest last = [] := by
    unfold trailing gathered
    rw [hlast, List.filter_eq_nil_iff]
    intro reason hreason
    have hown : reason ∈ last.1.reasons := hreason
    simp [hown]
  rw [hnone]
  exact ⟨List.Pairwise.nil, by simp⟩

end Evidence

end LatencyObservatory.Core
