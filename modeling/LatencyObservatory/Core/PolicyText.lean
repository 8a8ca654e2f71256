import LatencyObservatory.Core.JsonRoundTrip
import LatencyObservatory.Core.Policy
import LatencyObservatory.Lib.SelfDelimiting

/-!
# Canonical texts identify policies

Every line of a canonical text has a fixed key and ends where its value does, so the texts of the parts are
self-delimiting and the text of the whole policy loses no field. Equal digests then mean equal policies, or two texts
with the same SHA-256 digest.
-/

namespace LatencyObservatory.Core

open Lib

/-! ### Numerals -/

theorem decimal_digits (n : Nat) : ∀ c ∈ decimal n, isDigit c = true := (decimal_derives n).1.1.2

theorem decimal_injective : Function.Injective decimal := by
  intro a b h
  rw [← (decimal_derives a).2, ← (decimal_derives b).2, h]

theorem decimalInt_characters (i : Int) : ∀ c ∈ decimalInt i, isDigit c = true ∨ c = 45 := by
  intro c hc
  unfold decimalInt at hc
  split_ifs at hc
  · rcases List.mem_cons.mp hc with rfl | hdigit
    · exact Or.inr rfl
    · exact Or.inl (decimal_digits _ c hdigit)
  · exact Or.inl (decimal_digits _ c hc)

theorem decimalInt_ne_nil (i : Int) : decimalInt i ≠ [] := by
  unfold decimalInt
  split_ifs
  · exact List.cons_ne_nil _ _
  · exact (decimal_derives i.natAbs).1.1.1

theorem decimalInt_injective : Function.Injective decimalInt := by
  have hsign : ∀ (n : Nat) (rest : Bytes), decimal n ≠ 45 :: rest := by
    intro n rest h
    have hminus := decimal_digits n 45 (by rw [h]; exact List.mem_cons_self)
    revert hminus
    decide
  intro a b h
  unfold decimalInt at h
  split_ifs at h with ha hb hb
  · have hsame := decimal_injective (List.cons.inj h).2
    omega
  · exact absurd h.symm (hsign _ _)
  · exact absurd h (hsign _ _)
  · have hsame := decimal_injective h
    omega

/-! ### Lines -/

theorem newline_eq : text "\n" = [10] := by decide

theorem line_delimited (key : String) : SelfDelimiting (line key) := by
  have hstop : ∀ n, (10 : UInt8) ∉ decimal n := by
    intro n hmem
    have hdigit := decimal_digits n 10 hmem
    revert hdigit
    decide
  have hfield := (selfDelimiting_terminated decimal_injective hstop).prepend (text key ++ text "=")
  intro a b xs ys h
  refine hfield a b xs ys ?_
  simpa only [line, newline_eq, List.append_assoc] using h

theorem lineSigned_delimited (key : String) : SelfDelimiting (lineSigned key) := by
  have hstop : ∀ value : Nanos, (10 : UInt8) ∉ decimalInt value.toInt := by
    intro value hmem
    have hcharacter := decimalInt_characters value.toInt 10 hmem
    revert hcharacter
    decide
  have hbody : Function.Injective fun value : Nanos => decimalInt value.toInt := by
    intro a b h
    exact Int64.toInt_inj.mp (decimalInt_injective h)
  have hfield := (selfDelimiting_terminated hbody hstop).prepend (text key ++ text "=")
  intro a b xs ys h
  refine hfield a b xs ys ?_
  simpa only [lineSigned, newline_eq, List.append_assoc] using h

theorem lineFlag_delimited (key : String) : SelfDelimiting (lineFlag key) := by
  have hbody : Function.Injective fun value : Bool => text (if value then "true" else "false") := by
    intro a b h
    revert h
    cases a <;> cases b <;> decide
  have hstop : ∀ value : Bool, (10 : UInt8) ∉ text (if value then "true" else "false") := by
    intro value
    cases value <;> decide
  have hfield := (selfDelimiting_terminated hbody hstop).prepend (text key ++ text "=")
  intro a b xs ys h
  refine hfield a b xs ys ?_
  simpa only [lineFlag, newline_eq, List.append_assoc] using h

/-! ### Policies -/

theorem Limits.canonicalText_delimited : SelfDelimiting Limits.canonicalText := by
  intro a b xs ys h
  unfold Limits.canonicalText at h
  simp only [List.append_assoc, (line_delimited _).append_inj_iff] at h
  cases a
  cases b
  simp only [Limits.mk.injEq, and_assoc]
  exact h

theorem FreshnessPolicy.canonicalText_delimited : SelfDelimiting FreshnessPolicy.canonicalText := by
  intro a b xs ys h
  unfold FreshnessPolicy.canonicalText at h
  simp only [List.append_assoc, (lineSigned_delimited _).append_inj_iff] at h
  cases a
  cases b
  simp only [FreshnessPolicy.mk.injEq, and_assoc]
  exact h

theorem ComparabilityPolicy.canonicalText_delimited : SelfDelimiting ComparabilityPolicy.canonicalText := by
  intro a b xs ys h
  unfold ComparabilityPolicy.canonicalText at h
  simp only [List.append_assoc, (lineSigned_delimited _).append_inj_iff,
    (lineFlag_delimited _).append_inj_iff] at h
  cases a
  cases b
  simp only [ComparabilityPolicy.mk.injEq, and_assoc]
  exact h

theorem AttributionPolicy.canonicalText_delimited : SelfDelimiting AttributionPolicy.canonicalText := by
  intro a b xs ys h
  unfold AttributionPolicy.canonicalText at h
  simp only [List.append_assoc, (lineSigned_delimited _).append_inj_iff,
    (lineFlag_delimited _).append_inj_iff, (line_delimited _).append_inj_iff] at h
  cases a
  cases b
  simp only [AttributionPolicy.mk.injEq, and_assoc]
  exact h

theorem AnomalyPolicy.canonicalText_delimited : SelfDelimiting AnomalyPolicy.canonicalText := by
  intro a b xs ys h
  unfold AnomalyPolicy.canonicalText at h
  simp only [List.append_assoc, (lineSigned_delimited _).append_inj_iff,
    (line_delimited _).append_inj_iff] at h
  cases a
  cases b
  simp only [AnomalyPolicy.mk.injEq, and_assoc]
  exact h

theorem RuntimePolicy.canonicalText_delimited : SelfDelimiting RuntimePolicy.canonicalText := by
  intro a b xs ys h
  unfold RuntimePolicy.canonicalText at h
  simp only [List.append_assoc, List.append_cancel_left_eq,
    Limits.canonicalText_delimited.append_inj_iff, FreshnessPolicy.canonicalText_delimited.append_inj_iff,
    ComparabilityPolicy.canonicalText_delimited.append_inj_iff,
    AttributionPolicy.canonicalText_delimited.append_inj_iff, AnomalyPolicy.canonicalText_delimited.append_inj_iff] at h
  cases a
  cases b
  simp only [RuntimePolicy.mk.injEq, and_assoc]
  exact h

end LatencyObservatory.Core
