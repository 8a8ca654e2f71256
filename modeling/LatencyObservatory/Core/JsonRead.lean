import LatencyObservatory.Core.Json
import Mathlib.Data.List.TakeWhile
import Mathlib.Tactic.Common

/-!
# What the JSON parser has read

A successful parse has used up the beginning of the unread bytes, and the outcome predicates say what stands there.
-/

namespace LatencyObservatory.Core

open JsonValue

/-! ### Tokens -/

section Tokens

variable {doc rest after : Bytes}

theorem skipWs_read (rest : Bytes) : ∃ gap, rest = gap ++ skipWs rest ∧ ∀ c ∈ gap, isWs c = true :=
  ⟨rest.takeWhile isWs, List.takeWhile_append_dropWhile.symm, fun _ hc => List.mem_takeWhile_imp hc⟩

theorem parseDigitRun_read {message : String} (h : parseDigitRun doc message rest = .ok after) :
    rest.takeWhile isDigit ≠ [] ∧ after = rest.dropWhile isDigit := by
  unfold parseDigitRun at h
  split_ifs at h with hnone
  cases h
  exact ⟨hnone, rfl⟩

theorem parseFraction_read (h : parseFraction doc rest = .ok (true, after)) : after = rest := by
  unfold parseFraction at h
  split at h
  · cases hrun : parseDigitRun doc "number fraction has no digits" _ with
    | error e =>
      rw [hrun] at h
      cases h
    | ok run =>
      rw [hrun] at h
      cases h
  · cases h
    rfl

theorem parseExponent_read (h : parseExponent doc rest = .ok (true, after)) : after = rest := by
  unfold parseExponent at h
  cases rest with
  | nil =>
    cases h
    rfl
  | cons c rest =>
    dsimp only at h
    split_ifs at h
    · cases hrun : parseDigitRun doc "number exponent has no digits" _ with
      | error e =>
        rw [hrun] at h
        cases h
      | ok run =>
        rw [hrun] at h
        cases h
    · cases h
      rfl

theorem parseNumber_read {value : JsonValue} (h : parseNumber doc rest = .ok (value, after)) :
    ∃ digits literal number, rest = literal ++ after ∧ value = .number number ∧ digits ≠ [] ∧
      (∀ c ∈ digits, isDigit c = true) ∧ (literal = digits ∨ literal = 45 :: digits) ∧ literal.length ≤ 20 ∧
      parseI64 literal = some number := by
  unfold parseNumber at h
  extract_lets unsigned at h
  obtain ⟨afterDigits, hdigits, hrest⟩ := bind_eq_ok_iff.mp h
  obtain ⟨⟨noFraction, afterFraction⟩, hfraction, htail⟩ := bind_eq_ok_iff.mp hrest
  obtain ⟨⟨noExponent, last⟩, hexponent, hvalue⟩ := bind_eq_ok_iff.mp htail
  dsimp only at hvalue
  split_ifs at hvalue with hwhole
  simp only [Bool.and_eq_true, decide_eq_true_eq] at hwhole
  obtain ⟨⟨rfl, rfl⟩, hshort⟩ := hwhole
  clear htail hrest h
  obtain ⟨hsome, hafterDigits⟩ := parseDigitRun_read hdigits
  have hlast : last = unsigned.dropWhile isDigit := by
    rw [parseExponent_read hexponent, parseFraction_read hfraction, hafterDigits]
  obtain ⟨sign, hsign, hsigned⟩ : ∃ sign, rest = sign ++ unsigned ∧ (sign = [] ∨ sign = [45]) := by
    subst unsigned
    split
    · exact ⟨[45], rfl, Or.inr rfl⟩
    · exact ⟨[], rfl, Or.inl rfl⟩
  have hsplit : rest = (sign ++ unsigned.takeWhile isDigit) ++ last := by
    rw [hlast, List.append_assoc, List.takeWhile_append_dropWhile]
    exact hsign
  have hliteral : rest.take (rest.length - last.length) = sign ++ unsigned.takeWhile isDigit := by
    have hlength : rest.length - last.length = (sign ++ unsigned.takeWhile isDigit).length := by
      have := congrArg List.length hsplit
      rw [List.length_append] at this
      omega
    rw [hlength]
    conv_lhs => rw [hsplit]
    exact List.take_left
  rw [hliteral] at hvalue hshort
  split at hvalue
  · rename_i number hnumber
    cases hvalue
    refine ⟨unsigned.takeWhile isDigit, sign ++ unsigned.takeWhile isDigit, number, hsplit, rfl, hsome,
      fun c hc => List.mem_takeWhile_imp hc, ?_, hshort, hnumber⟩
    rcases hsigned with rfl | rfl
    · exact Or.inl rfl
    · exact Or.inr rfl
  · cases hvalue

theorem parseLiteral_read {literal : String} {value read : JsonValue}
    (h : parseLiteral doc literal value rest = .ok (read, after)) : rest = text literal ++ after ∧ read = value := by
  unfold parseLiteral at h
  split_ifs at h with htext
  cases h
  refine ⟨?_, rfl⟩
  rw [not_not] at htext
  calc
    rest = rest.take (text literal).length ++ rest.drop (text literal).length := (List.take_append_drop _ _).symm
    _ = text literal ++ rest.drop (text literal).length := by rw [htext]

end Tokens

/-! ### Values -/

section Values

variable (doc : Bytes) (maxDepth : Nat)

/-- What stands at the beginning of the bytes that a successful `parseValue` was given. -/
inductive ValueRead (fuel depth : Nat) : Bytes → JsonValue → Bytes → Prop
  | noMembers {tail after : Bytes} (hclose : skipWs tail = 125 :: after) :
    ValueRead fuel depth (123 :: tail) (.object []) after
  | members {tail after : Bytes} {value : JsonValue}
    (hread : parseMembers doc maxDepth fuel depth [] (skipWs tail) = .ok (value, after)) :
    ValueRead fuel depth (123 :: tail) value after
  | noItems {tail after : Bytes} (hclose : skipWs tail = 93 :: after) :
    ValueRead fuel depth (91 :: tail) (.array []) after
  | items {tail after : Bytes} {value : JsonValue}
    (hread : parseItems doc maxDepth fuel depth [] (skipWs tail) = .ok (value, after)) :
    ValueRead fuel depth (91 :: tail) value after
  | string {tail chars after : Bytes} (hread : parseString doc tail = .ok (chars, after)) :
    ValueRead fuel depth (34 :: tail) (.string chars) after
  | literal {name : String} {value : JsonValue} {after : Bytes}
    (hname : (name, value) ∈ [("true", .bool true), ("false", .bool false), ("null", .null)]) :
    ValueRead fuel depth (text name ++ after) value after
  | number {rest after : Bytes} {value : JsonValue} (hread : parseNumber doc rest = .ok (value, after)) :
    ValueRead fuel depth rest value after

/-- One member of an object, with a name that is not yet in use. -/
inductive MemberRead (fuel depth : Nat) (members : List (Bytes × JsonValue)) : Bytes → Bytes → JsonValue → Bytes → Prop
  | member {rest tail name afterName tail' after : Bytes} {value : JsonValue}
    (hopen : skipWs rest = 34 :: tail) (hname : parseString doc tail = .ok (name, afterName))
    (hfresh : lookup name members = none) (hcolon : skipWs afterName = 58 :: tail')
    (hvalue : parseValue doc maxDepth fuel (depth + 1) (skipWs tail') = .ok (value, after)) :
    MemberRead fuel depth members rest name value after

variable {doc maxDepth} {fuel depth : Nat} {rest after : Bytes} {value : JsonValue}

theorem parseValue_read (h : parseValue doc maxDepth (fuel + 1) depth rest = .ok (value, after)) :
    depth ≤ maxDepth ∧ ValueRead doc maxDepth fuel depth rest value after := by
  unfold parseValue at h
  rw [guard_eq_ok_iff, Nat.not_lt] at h
  refine ⟨h.1, ?_⟩
  replace h := h.2
  cases rest with
  | nil => cases h
  | cons c tail =>
    dsimp only at h
    by_cases hobject : c = 123
    · rw [if_pos hobject] at h
      subst hobject
      split at h
      · rename_i hclose
        cases h
        exact .noMembers hclose
      · exact .members h
    rw [if_neg hobject] at h
    by_cases harray : c = 91
    · rw [if_pos harray] at h
      subst harray
      split at h
      · rename_i hclose
        cases h
        exact .noItems hclose
      · exact .items h
    rw [if_neg harray] at h
    by_cases hstring : c = 34
    · rw [if_pos hstring] at h
      subst hstring
      cases hread : parseString doc tail with
      | error e =>
        rw [hread] at h
        cases h
      | ok parsed =>
        rw [hread] at h
        cases h
        exact .string hread
    rw [if_neg hstring] at h
    by_cases htrue : c = 116
    · rw [if_pos htrue] at h
      obtain ⟨heq, rfl⟩ := parseLiteral_read h
      rw [heq]
      exact .literal (by simp)
    rw [if_neg htrue] at h
    by_cases hfalse : c = 102
    · rw [if_pos hfalse] at h
      obtain ⟨heq, rfl⟩ := parseLiteral_read h
      rw [heq]
      exact .literal (by simp)
    rw [if_neg hfalse] at h
    by_cases hnull : c = 110
    · rw [if_pos hnull] at h
      obtain ⟨heq, rfl⟩ := parseLiteral_read h
      rw [heq]
      exact .literal (by simp)
    rw [if_neg hnull] at h
    split_ifs at h
    exact .number h

theorem parseMembers_read {members : List (Bytes × JsonValue)}
    (h : parseMembers doc maxDepth (fuel + 1) depth members rest = .ok (value, after)) :
    ∃ name member afterMember, MemberRead doc maxDepth fuel depth members rest name member afterMember ∧
      ((∃ tail, skipWs afterMember = 44 :: tail ∧
          parseMembers doc maxDepth fuel depth (members ++ [(name, member)]) tail = .ok (value, after)) ∨
        skipWs afterMember = 125 :: after ∧ value = .object (members ++ [(name, member)])) := by
  unfold parseMembers at h
  split at h
  · rename_i hopen
    split at h
    · cases h
    · rename_i hname
      split_ifs at h with hknown
      rw [Bool.not_eq_true, Option.isSome_eq_false_iff, Option.isNone_iff_eq_none] at hknown
      split at h
      · rename_i hcolon
        split at h
        · cases h
        · rename_i hvalue
          refine ⟨_, _, _, .member hopen hname hknown hcolon hvalue, ?_⟩
          split at h
          · cases h
          · rename_i hsep
            split_ifs at h with hcomma hclose
            · rw [hcomma] at hsep
              exact Or.inl ⟨_, hsep, h⟩
            · rw [hclose] at hsep
              cases h
              exact Or.inr ⟨hsep, rfl⟩
      · cases h
  · cases h

theorem parseItems_read {items : List JsonValue}
    (h : parseItems doc maxDepth (fuel + 1) depth items rest = .ok (value, after)) :
    ∃ item afterItem, parseValue doc maxDepth fuel (depth + 1) (skipWs rest) = .ok (item, afterItem) ∧
      ((∃ tail, skipWs afterItem = 44 :: tail ∧
          parseItems doc maxDepth fuel depth (items ++ [item]) tail = .ok (value, after)) ∨
        skipWs afterItem = 93 :: after ∧ value = .array (items ++ [item])) := by
  unfold parseItems at h
  split at h
  · cases h
  · rename_i hvalue
    refine ⟨_, _, hvalue, ?_⟩
    split at h
    · cases h
    · rename_i hsep
      split_ifs at h with hcomma hclose
      · rw [hcomma] at hsep
        exact Or.inl ⟨_, hsep, h⟩
      · rw [hclose] at hsep
        cases h
        exact Or.inr ⟨hsep, rfl⟩

end Values

end LatencyObservatory.Core
