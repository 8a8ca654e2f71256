import LatencyObservatory.Core.PolicyText
import LatencyObservatory.Stats.Distribution

/-!
# Canonical texts identify their objects

The digests in baselines, answers and explanations stand for a policy and for a bucketing. The text under a digest
determines every field of the policy, and every bound of the bucketing.
-/

namespace LatencyObservatory.Stats

open LatencyObservatory.Core

theorem HistogramSpec.canonicalText_injective : Function.Injective HistogramSpec.canonicalText := by
  have hbody : Function.Injective fun bound : Nanos => decimalInt bound.toInt := by
    intro a b h
    exact Int64.toInt_inj.mp (decimalInt_injective h)
  have hfree : ∀ (bound : Nanos) (c : UInt8), isDigit c = false → c ≠ 45 → c ∉ decimalInt bound.toInt := by
    intro bound c hdigit hminus hmem
    rcases decimalInt_characters bound.toInt c hmem with hc | hc
    · rw [hdigit] at hc
      cases hc
    · exact hminus hc
  have hbounds := @Lib.selfDelimiting_separated _ _ _ 44 10 hbody
    (fun bound => hfree bound 44 (by decide) (by decide)) (fun bound => hfree bound 10 (by decide) (by decide))
    (by decide) (fun bound => decimalInt_ne_nil bound.toInt)
  rintro ⟨bounds⟩ ⟨others⟩ h
  unfold HistogramSpec.canonicalText at h
  rw [newline_eq, List.append_assoc, List.append_assoc, List.append_cancel_left_eq] at h
  exact congrArg HistogramSpec.mk (hbounds.injective h)

/-- The canonical texts of policies and of bucketings are injective, so equal digests mean equal objects or a collision
of the digest. -/
theorem canonicalText_identifies :
    Function.Injective RuntimePolicy.canonicalText ∧ Function.Injective HistogramSpec.canonicalText ∧
      (∀ p q : RuntimePolicy, p.digest = q.digest ↔
        p = q ∨ (p.canonicalText ≠ q.canonicalText ∧ sha256Hex p.canonicalText = sha256Hex q.canonicalText)) ∧
      ∀ s t : HistogramSpec, s.digest = t.digest ↔
        s = t ∨ (s.canonicalText ≠ t.canonicalText ∧ sha256Hex s.canonicalText = sha256Hex t.canonicalText) := by
  have hpolicy := RuntimePolicy.canonicalText_delimited.injective
  have hspec := HistogramSpec.canonicalText_injective
  refine ⟨hpolicy, hspec, ?_, ?_⟩
  · intro p q
    unfold RuntimePolicy.digest
    constructor
    · intro h
      by_cases hsame : p.canonicalText = q.canonicalText
      · exact Or.inl (hpolicy hsame)
      · exact Or.inr ⟨hsame, h⟩
    · rintro (rfl | ⟨-, h⟩)
      · rfl
      · exact h
  · intro s t
    unfold HistogramSpec.digest
    constructor
    · intro h
      by_cases hsame : s.canonicalText = t.canonicalText
      · exact Or.inl (hspec hsame)
      · exact Or.inr ⟨hsame, h⟩
    · rintro (rfl | ⟨-, h⟩)
      · rfl
      · exact h

end LatencyObservatory.Stats
