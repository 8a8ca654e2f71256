import LatencyObservatory.Core.Merge
import LatencyObservatory.Lib.Bracketing

/-!
# Merging evidence in any bracketing

Evidence whose reasons fit together is merged to the same result along every binary tree over the same values:
state, freshness and confidence combine by associative and commutative operations, and the reasons of a tree are
the union of those of its leaves, sorted by the last merge.
-/

namespace LatencyObservatory.Core

namespace Evidence

theorem mergeState_comm (a b : EvidenceState) : mergeState a b = mergeState b a := by
  cases a <;> cases b <;> rfl

theorem mergeFreshness_comm (a b : Freshness) : mergeFreshness a b = mergeFreshness b a := by
  cases a <;> cases b <;> rfl

theorem mergeStanding_comm (a b : EvidenceState × Freshness × Confidence) : mergeStanding a b = mergeStanding b a := by
  unfold mergeStanding
  rw [mergeState_comm, mergeFreshness_comm, mergeConfidence_comm]

theorem mergeStanding_assoc (a b c : EvidenceState × Freshness × Confidence) :
    mergeStanding (mergeStanding a b) c = mergeStanding a (mergeStanding b c) := by
  calc mergeStanding (mergeStanding a b) c = mergeStanding (mergeStanding b a) c := by rw [mergeStanding_comm a b]
    _ = mergeStanding (mergeStanding b c) a := mergeStanding_right_comm b a c
    _ = mergeStanding a (mergeStanding b c) := mergeStanding_comm _ _

instance : Std.Commutative mergeStanding := ⟨mergeStanding_comm⟩
instance : Std.Associative mergeStanding := ⟨mergeStanding_assoc⟩

open Lib (Bracketing)

/-- The distinct reasons of some evidence values. -/
def distinctReasons (es : List Evidence) : Finset Reason :=
  (es.flatMap Evidence.reasons).toFinset

theorem mem_distinctReasons {es : List Evidence} {reason : Reason} :
    reason ∈ distinctReasons es ↔ ∃ e ∈ es, reason ∈ e.reasons := by
  unfold distinctReasons
  rw [List.mem_toFinset, List.mem_flatMap]

theorem distinctReasons_eq_of_perm {es es' : List Evidence} (h : es.Perm es') :
    distinctReasons es = distinctReasons es' := by
  ext reason
  simp only [mem_distinctReasons, h.mem_iff]

theorem fold_merge_standing (t : Bracketing Evidence) :
    (t.fold merge).standing = (t.map standing).fold mergeStanding :=
  Bracketing.fold_map merge_standing t

theorem fold_merge_of_fits {K : Finset Reason} (hK : K.card ≤ maxReasons) {t : Bracketing Evidence}
    (ht : ∀ reason ∈ distinctReasons t.leaves, reason ∈ K) :
    (∀ reason, reason ∈ (t.fold merge).reasons ↔ reason ∈ distinctReasons t.leaves) ∧
      (t.fold merge).reasonsTruncated = t.leaves.any reasonsTruncated := by
  induction t with
  | leaf e => simp [Bracketing.fold, Bracketing.leaves, distinctReasons]
  | node left right ihl ihr =>
    have hunion : ∀ reason, reason ∈ distinctReasons (Bracketing.node left right).leaves ↔
        reason ∈ distinctReasons left.leaves ∨ reason ∈ distinctReasons right.leaves := by
      intro reason
      simp only [mem_distinctReasons, Bracketing.leaves, List.mem_append, or_and_right, exists_or]
    have hleft : ∀ reason ∈ distinctReasons left.leaves, reason ∈ K :=
      fun reason hreason => ht reason ((hunion reason).mpr (Or.inl hreason))
    have hright : ∀ reason ∈ distinctReasons right.leaves, reason ∈ K :=
      fun reason hreason => ht reason ((hunion reason).mpr (Or.inr hreason))
    obtain ⟨hmeml, hflagl⟩ := ihl hleft
    obtain ⟨hmemr, hflagr⟩ := ihr hright
    obtain ⟨hmem, hflag⟩ := merge_noted_of_fits hK (fun reason hreason => hleft reason ((hmeml reason).mp hreason))
      (fun reason hreason => hright reason ((hmemr reason).mp hreason))
    rw [Bracketing.fold]
    constructor
    · intro reason
      rw [hmem, hmeml, hmemr, hunion]
    · rw [hflag, hflagl, hflagr, Bracketing.leaves, List.any_append]

theorem fold_merge_reasons {t t' : Bracketing Evidence} (h : t.leaves.Perm t'.leaves)
    (hfits : (distinctReasons t.leaves).card ≤ maxReasons) : (t.fold merge).reasons = (t'.fold merge).reasons := by
  have hsame := distinctReasons_eq_of_perm h
  obtain ⟨hmem, -⟩ := fold_merge_of_fits hfits fun _ hreason => hreason
  obtain ⟨hmem', -⟩ := fold_merge_of_fits (hsame ▸ hfits) fun _ hreason => hreason
  have hperm : (t.fold merge).reasons.Perm (t'.fold merge).reasons := by
    rw [List.perm_ext_iff_of_nodup (Evidence.reasons_nodup _) (Evidence.reasons_nodup _)]
    intro reason
    rw [hmem, hmem', hsame]
  -- A single value is not merged and keeps the order of its reasons; every merge sorts.
  cases t with
  | leaf e => rw [Bracketing.eq_leaf_of_perm h.symm]
  | node left right =>
    cases t' with
    | leaf e => rw [Bracketing.eq_leaf_of_perm h]
    | node left' right' => exact hperm.eq_of_pairwise' (merge_sorted _ _) (merge_sorted _ _)

/-- **Evidence whose reasons fit together may be merged in any order and any bracketing.** -/
theorem fold_merge_eq_of_perm {t t' : Bracketing Evidence} (h : t.leaves.Perm t'.leaves)
    (hfits : (distinctReasons t.leaves).card ≤ maxReasons) : t.fold merge = t'.fold merge := by
  apply ext_noted
  · rw [fold_merge_standing, fold_merge_standing]
    apply Bracketing.fold_eq_of_perm
    rw [Bracketing.leaves_map, Bracketing.leaves_map]
    exact h.map standing
  · obtain ⟨-, hflag⟩ := fold_merge_of_fits hfits fun _ hreason => hreason
    obtain ⟨-, hflag'⟩ := fold_merge_of_fits (distinctReasons_eq_of_perm h ▸ hfits) fun _ hreason => hreason
    unfold noted
    rw [fold_merge_reasons h hfits, hflag, hflag', h.any_eq]

/-- Three values of mixed kinds, bracketed in two ways. -/
theorem mixed_fold_merge_eq :
    (Bracketing.node (.node (.leaf (missing .hopMissing)) (.leaf (stale .evidenceExpired (text "x"))))
        (.leaf observedFresh)).fold merge =
      (Bracketing.node (.leaf observedFresh)
        (.node (.leaf (stale .evidenceExpired (text "x"))) (.leaf (missing .hopMissing)))).fold merge := by
  apply fold_merge_eq_of_perm
  · exact List.reverse_perm [observedFresh, stale .evidenceExpired (text "x"), missing .hopMissing]
  · decide +kernel

end Evidence

end LatencyObservatory.Core
