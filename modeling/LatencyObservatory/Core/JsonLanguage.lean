import LatencyObservatory.Core.JsonTokens
import Mathlib.Data.List.DropRight

/-!
# The language of the JSON parser

`parse_json` accepts what the grammar derives, with integers of at most twenty bytes for its numbers: a successful
parse leaves a derivation of what it has read, and a derivation is read back as far as it goes.
-/

namespace LatencyObservatory.Core

open JsonValue JsonGrammar

/-! ### Values -/

theorem JsonValue.lookup_eq_none {name : Bytes} {members : List (Bytes × JsonValue)} :
    lookup name members = none ↔ name ∉ members.map Prod.fst := by
  induction members with
  | nil => simp [lookup]
  | cons member members ih =>
    rw [lookup, List.map_cons, List.mem_cons, not_or]
    by_cases hname : member.1 = name
    · simp [hname]
    · rw [if_neg hname, ih]
      exact ⟨fun h => ⟨Ne.symm hname, h⟩, fun h => h.2⟩

theorem not_mem_of_nodup {name : Bytes} {value : JsonValue} {read members : List (Bytes × JsonValue)}
    (h : ((read ++ (name, value) :: members).map Prod.fst).Nodup) : name ∉ read.map Prod.fst := by
  rw [List.map_append, List.nodup_append] at h
  intro hmem
  exact h.2.2 name hmem name List.mem_cons_self rfl

section Values

variable {doc : Bytes} {maxDepth fuel depth room : Nat} {rest after body : Bytes} {value : JsonValue}

/-- The values that a fuel is enough for are derived. -/
def ValuesDerive (doc : Bytes) (maxDepth fuel : Nat) : Prop :=
  ∀ ⦃depth room : Nat⦄ ⦃rest after : Bytes⦄ ⦃value : JsonValue⦄, depth + room = maxDepth →
    parseValue doc maxDepth fuel depth rest = .ok (value, after) →
      ∃ body, rest = body ++ after ∧ Derives PaddedInteger room (.value value) body

theorem ValuesDerive.below (hvalues : ValuesDerive doc maxDepth fuel) (hroom : depth + room = maxDepth)
    (h : parseValue doc maxDepth fuel (depth + 1) rest = .ok (value, after)) :
    ∃ less body, room = less + 1 ∧ rest = body ++ after ∧ Derives PaddedInteger less (.value value) body := by
  cases fuel with
  | zero =>
    unfold parseValue at h
    cases h
  | succ fuel =>
    have hdepth := (parseValue_read h).1
    obtain ⟨less, rfl⟩ : ∃ less, room = less + 1 := ⟨room - 1, by omega⟩
    obtain ⟨body, hsplit, hbody⟩ := hvalues (show depth + 1 + less = maxDepth by omega) h
    exact ⟨less, body, rfl, hsplit, hbody⟩

theorem parseItems_sound (hvalues : ∀ fuel' < fuel, ValuesDerive doc maxDepth fuel') (hroom : depth + room = maxDepth)
    {items : List JsonValue} (h : parseItems doc maxDepth fuel depth items rest = .ok (value, after)) :
    ∃ less more body, room = less + 1 ∧ value = .array (items ++ more) ∧ rest = body ++ 93 :: after ∧
      Derives PaddedInteger less (.items more) body := by
  induction fuel generalizing items rest with
  | zero =>
    unfold parseItems at h
    cases h
  | succ fuel ih =>
    obtain ⟨item, afterItem, hread, hnext⟩ := parseItems_read h
    obtain ⟨less, body, hless, hbody, hitem⟩ := (hvalues fuel (Nat.lt_succ_self fuel)).below hroom hread
    obtain ⟨before, hbefore, hgap⟩ := skipWs_split rest
    obtain ⟨gap, hafterItem, hgap'⟩ := skipWs_split afterItem
    rcases hnext with ⟨tail, hcomma, htail⟩ | ⟨hclose, hvalue⟩
    · obtain ⟨less', more, body', hless', hvalue, hsplit, hmore⟩ :=
        ih (fun fuel' hfuel => hvalues fuel' (Nat.lt_succ_of_lt hfuel)) htail
      obtain rfl : less = less' := by omega
      refine ⟨less, item :: more, before ++ (body ++ (gap ++ 44 :: body')), hless, ?_, ?_, .item hgap hitem hgap' hmore⟩
      · rw [hvalue, List.append_assoc, List.singleton_append]
      · rw [hbefore, hbody, hafterItem, hcomma, hsplit]
        simp
    · refine ⟨less, [item], before ++ (body ++ gap), hless, hvalue, ?_, .lastItem hgap hitem hgap'⟩
      rw [hbefore, hbody, hafterItem, hclose]
      simp

theorem parseMembers_sound (hvalues : ∀ fuel' < fuel, ValuesDerive doc maxDepth fuel')
    (hroom : depth + room = maxDepth) {members : List (Bytes × JsonValue)} (hdistinct : (members.map Prod.fst).Nodup)
    (h : parseMembers doc maxDepth fuel depth members rest = .ok (value, after)) :
    ∃ less more body, room = less + 1 ∧ value = .object (members ++ more) ∧ rest = body ++ 125 :: after ∧
      Derives PaddedInteger less (.members more) body ∧ ((members ++ more).map Prod.fst).Nodup := by
  induction fuel generalizing members rest with
  | zero =>
    unfold parseMembers at h
    cases h
  | succ fuel ih =>
    obtain ⟨name, member, afterMember, hread, hnext⟩ := parseMembers_read h
    cases hread with
    | @member tail _ afterName tail' _ _ hopen hname hfresh hcolon hmember =>
      obtain ⟨less, body, hless, hbody, hitem⟩ := (hvalues fuel (Nat.lt_succ_self fuel)).below hroom hmember
      obtain ⟨source, hsource, hchars⟩ := parseString_sound hname
      obtain ⟨before, hbefore, hgap⟩ := skipWs_split rest
      obtain ⟨gap, hafterName, hgap'⟩ := skipWs_split afterName
      obtain ⟨before', htail', hgap''⟩ := skipWs_split tail'
      obtain ⟨last, hafterMember, hlast⟩ := skipWs_split afterMember
      have hknown : ((members ++ [(name, member)]).map Prod.fst).Nodup := by
        rw [List.map_append, List.nodup_append]
        refine ⟨hdistinct, List.nodup_singleton _, ?_⟩
        rintro known hmem _ hnew rfl
        rw [List.map_singleton, List.mem_singleton] at hnew
        rw [hnew] at hmem
        exact lookup_eq_none.mp hfresh hmem
      have hsplit : rest =
          before ++ 34 :: (source ++ 34 :: (gap ++ 58 :: (before' ++ (body ++ (last ++ skipWs afterMember))))) := by
        rw [← hafterMember, ← hbody, ← htail', ← hcolon, ← hafterName, ← hsource, ← hopen]
        exact hbefore
      rcases hnext with ⟨tail, hcomma, htail⟩ | ⟨hclose, hvalue⟩
      · obtain ⟨less', more, body', hless', hvalue, hrest, hmore, hnodup⟩ :=
          ih (fun fuel' hfuel => hvalues fuel' (Nat.lt_succ_of_lt hfuel)) hknown htail
        obtain rfl : less = less' := by omega
        rw [List.append_assoc, List.singleton_append] at hvalue hnodup
        refine ⟨less, (name, member) :: more, _, hless, hvalue, ?_,
          .member hgap hchars hgap' hgap'' hitem hlast hmore, hnodup⟩
        rw [hsplit, hcomma, hrest]
        simp
      · refine ⟨less, [(name, member)], _, hless, hvalue, ?_, .lastMember hgap hchars hgap' hgap'' hitem hlast, hknown⟩
        rw [hsplit, hclose]
        simp

theorem parseValue_sound (fuel : Nat) : ValuesDerive doc maxDepth fuel := by
  induction fuel using Nat.strong_induction_on with
  | _ fuel ih =>
    intro depth room rest after value hroom h
    cases fuel with
    | zero =>
      unfold parseValue at h
      cases h
    | succ fuel =>
      have hvalues : ∀ fuel' < fuel, ValuesDerive doc maxDepth fuel' :=
        fun fuel' hfuel => ih fuel' (Nat.lt_succ_of_lt hfuel)
      cases (parseValue_read h).2 with
      | @noMembers tail _ hclose =>
        obtain ⟨gap, htail, hgap⟩ := skipWs_split tail
        refine ⟨123 :: (gap ++ [125]), ?_, .emptyObject hgap⟩
        rw [htail, hclose]
        simp
      | @members tail _ _ hread =>
        obtain ⟨less, more, body, rfl, rfl, hsplit, hmore, hdistinct⟩ :=
          @parseMembers_sound _ _ _ _ _ _ _ _ hvalues hroom [] List.nodup_nil hread
        obtain ⟨gap, htail, hgap⟩ := skipWs_split tail
        refine ⟨123 :: ((gap ++ body) ++ [125]), ?_, .object (hmore.gap_append_members hgap) hdistinct⟩
        rw [htail, hsplit]
        simp
      | @noItems tail _ hclose =>
        obtain ⟨gap, htail, hgap⟩ := skipWs_split tail
        refine ⟨91 :: (gap ++ [93]), ?_, .emptyArray hgap⟩
        rw [htail, hclose]
        simp
      | @items tail _ _ hread =>
        obtain ⟨less, more, body, rfl, rfl, hsplit, hmore⟩ := parseItems_sound hvalues hroom hread
        obtain ⟨gap, htail, hgap⟩ := skipWs_split tail
        refine ⟨91 :: ((gap ++ body) ++ [93]), ?_, .array (hmore.gap_append_items hgap)⟩
        rw [htail, hsplit]
        simp
      | @string tail _ _ hread =>
        obtain ⟨source, hsource, hchars⟩ := parseString_sound hread
        refine ⟨34 :: (source ++ [34]), ?_, .string hchars⟩
        rw [hsource]
        simp
      | literal hname =>
        simp only [List.mem_cons, Prod.mk.injEq, List.not_mem_nil, or_false] at hname
        rcases hname with ⟨rfl, rfl⟩ | ⟨rfl, rfl⟩ | ⟨rfl, rfl⟩
        · exact ⟨_, rfl, .bool⟩
        · exact ⟨_, rfl, .bool⟩
        · exact ⟨_, rfl, .null⟩
      | number hread =>
        obtain ⟨literal, number, hsplit, rfl, hnumber⟩ := parseNumber_sound hread
        exact ⟨literal, hsplit, .number hnumber⟩

end Values

/-! ### Derived values are read -/

theorem JsonGrammar.PaddedInteger.head {literal : Bytes} {value : Int} (h : PaddedInteger literal value) :
    ∃ c tail, literal = c :: tail ∧ (c = 45 ∨ isDigit c = true) := by
  obtain ⟨hsigned, -, -⟩ := h
  cases hsigned with
  | plus hdigits =>
    obtain ⟨c, tail, rfl⟩ := List.exists_cons_of_ne_nil hdigits.1
    exact ⟨c, tail, rfl, Or.inr (hdigits.2 c List.mem_cons_self)⟩
  | minus _ => exact ⟨45, _, rfl, Or.inl rfl⟩

/-- The bytes that a value can start with. -/
def isStart (c : UInt8) : Bool :=
  c == 123 || c == 91 || c == 34 || c == 116 || c == 102 || c == 110 || c == 45 || isDigit c

theorem isStart_not {c : UInt8} (h : isStart c = true) : isWs c = false ∧ c ≠ 93 := by
  constructor
  · rw [Bool.eq_false_iff]
    intro hspace
    rcases (isWs_iff c).mp hspace with rfl | rfl | rfl | rfl <;> exact absurd h (by decide)
  · rintro rfl
    exact absurd h (by decide)

theorem JsonGrammar.Derives.head {room : Nat} {value : JsonValue} {body : Bytes}
    (h : Derives PaddedInteger room (.value value) body) : ∃ c tail, body = c :: tail ∧ isStart c = true := by
  cases h with
  | null => exact ⟨110, _, rfl, by decide⟩
  | @bool _ value =>
    cases value
    · exact ⟨102, _, rfl, by decide⟩
    · exact ⟨116, _, rfl, by decide⟩
  | number hnumber =>
    obtain ⟨c, tail, rfl, hc⟩ := hnumber.head
    refine ⟨c, tail, rfl, ?_⟩
    unfold isStart
    rcases hc with rfl | hdigit
    · rfl
    · rw [hdigit, Bool.or_true]
  | string _ => exact ⟨34, _, rfl, by decide⟩
  | emptyArray _ => exact ⟨91, _, rfl, by decide⟩
  | array _ => exact ⟨91, _, rfl, by decide⟩
  | emptyObject _ => exact ⟨123, _, rfl, by decide⟩
  | object _ _ => exact ⟨123, _, rfl, by decide⟩

theorem skipWs_skipWs (rest : Bytes) : skipWs (skipWs rest) = skipWs rest :=
  List.dropWhile_idempotent _ _

section Complete

variable {doc : Bytes} {maxDepth fuel depth room : Nat} {rest after tail body : Bytes} {value : JsonValue}

theorem JsonGrammar.Derives.skipWs {before : Bytes} (h : Derives PaddedInteger room (.value value) body)
    (hbefore : Whitespace before) (rest : Bytes) : Core.skipWs (before ++ (body ++ rest)) = body ++ rest := by
  obtain ⟨c, tail, rfl, hc⟩ := h.head
  exact skipWs_append hbefore (isStart_not hc).1 (tail ++ rest)

theorem parseItems_skipWs (items : List JsonValue) (hfuel : 0 < fuel) :
    parseItems doc maxDepth fuel depth items (Core.skipWs rest) = parseItems doc maxDepth fuel depth items rest := by
  obtain ⟨fuel, rfl⟩ : ∃ n, fuel = n + 1 := ⟨fuel - 1, by omega⟩
  rw [parseItems, parseItems, skipWs_skipWs]

theorem parseMembers_skipWs (members : List (Bytes × JsonValue)) (hfuel : 0 < fuel) :
    parseMembers doc maxDepth fuel depth members (Core.skipWs rest) =
      parseMembers doc maxDepth fuel depth members rest := by
  obtain ⟨fuel, rfl⟩ : ∃ n, fuel = n + 1 := ⟨fuel - 1, by omega⟩
  rw [parseMembers, parseMembers, skipWs_skipWs]

/-! #### What `parse_value` does at each first byte -/

theorem parseValue_array (hdepth : depth ≤ maxDepth) (hfuel : 0 < fuel) (hopen : ∀ after, Core.skipWs tail ≠ 93 :: after) :
    parseValue doc maxDepth (fuel + 1) depth (91 :: tail) = parseItems doc maxDepth fuel depth [] tail := by
  rw [parseValue, if_neg (Nat.not_lt.mpr hdepth)]
  rw [if_neg (by decide), if_pos rfl]
  split
  · exact absurd ‹_› (hopen _)
  · exact parseItems_skipWs [] hfuel

theorem parseValue_object (hdepth : depth ≤ maxDepth) (hfuel : 0 < fuel)
    (hopen : ∀ after, Core.skipWs tail ≠ 125 :: after) :
    parseValue doc maxDepth (fuel + 1) depth (123 :: tail) = parseMembers doc maxDepth fuel depth [] tail := by
  rw [parseValue, if_neg (Nat.not_lt.mpr hdepth)]
  rw [if_pos rfl]
  split
  · exact absurd ‹_› (hopen _)
  · exact parseMembers_skipWs [] hfuel

theorem parseValue_emptyArray (hdepth : depth ≤ maxDepth) {gap : Bytes} (hgap : Whitespace gap) :
    parseValue doc maxDepth (fuel + 1) depth (91 :: (gap ++ 93 :: rest)) = .ok (.array [], rest) := by
  rw [parseValue, if_neg (Nat.not_lt.mpr hdepth)]
  rw [if_neg (by decide), if_pos rfl, skipWs_append hgap (by decide)]
  rfl

theorem parseValue_emptyObject (hdepth : depth ≤ maxDepth) {gap : Bytes} (hgap : Whitespace gap) :
    parseValue doc maxDepth (fuel + 1) depth (123 :: (gap ++ 125 :: rest)) = .ok (.object [], rest) := by
  rw [parseValue, if_neg (Nat.not_lt.mpr hdepth)]
  rw [if_pos rfl, skipWs_append hgap (by decide)]
  rfl

theorem JsonGrammar.Derives.skipWs_items {items : List JsonValue} (h : Derives PaddedInteger room (.items items) body)
    (rest : Bytes) : ∀ after, Core.skipWs (body ++ rest) ≠ 93 :: after := by
  obtain ⟨before, value, first, more, hsplit, hbefore, hvalue⟩ : ∃ before value first more,
      body = before ++ (first ++ more) ∧ Whitespace before ∧ Derives PaddedInteger room (.value value) first := by
    cases h with
    | lastItem hbefore hvalue _ => exact ⟨_, _, _, _, rfl, hbefore, hvalue⟩
    | item hbefore hvalue _ _ => exact ⟨_, _, _, _, rfl, hbefore, hvalue⟩
  intro after hclose
  obtain ⟨c, tail, hfirst, hc⟩ := hvalue.head
  rw [hsplit, List.append_assoc, List.append_assoc, hvalue.skipWs hbefore, hfirst, List.cons_append] at hclose
  exact (isStart_not hc).2 (List.cons.inj hclose).1

theorem JsonGrammar.Derives.skipWs_members {members : List (Bytes × JsonValue)}
    (h : Derives PaddedInteger room (.members members) body) (rest : Bytes) :
    ∀ after, Core.skipWs (body ++ rest) ≠ 125 :: after := by
  obtain ⟨before, more, hsplit, hbefore⟩ : ∃ before more, body = before ++ 34 :: more ∧ Whitespace before := by
    cases h with
    | lastMember hbefore _ _ _ _ _ => exact ⟨_, _, rfl, hbefore⟩
    | member hbefore _ _ _ _ _ _ => exact ⟨_, _, rfl, hbefore⟩
  intro after hclose
  rw [hsplit, List.append_assoc, List.cons_append, skipWs_append hbefore (by decide)] at hclose
  exact absurd (List.cons.inj hclose).1 (by decide)

theorem parseValue_string (hdepth : depth ≤ maxDepth) {source chars : Bytes} (hchars : Chars source chars) :
    parseValue doc maxDepth (fuel + 1) depth (34 :: (source ++ 34 :: rest)) = .ok (.string chars, rest) := by
  rw [parseValue, if_neg (Nat.not_lt.mpr hdepth)]
  show (parseString doc (source ++ 34 :: rest)).map _ = _
  rw [parseString_complete hchars]
  rfl

theorem parseValue_literal (hdepth : depth ≤ maxDepth) {name : String}
    (hname : (name, value) ∈ [("true", JsonValue.bool true), ("false", .bool false), ("null", .null)]) :
    parseValue doc maxDepth (fuel + 1) depth (text name ++ rest) = .ok (value, rest) := by
  simp only [List.mem_cons, Prod.mk.injEq, List.not_mem_nil, or_false] at hname
  rw [parseValue.eq_def]
  show (if depth > maxDepth then _ else _) = _
  rw [if_neg (Nat.not_lt.mpr hdepth)]
  rcases hname with ⟨rfl, rfl⟩ | ⟨rfl, rfl⟩ | ⟨rfl, rfl⟩ <;> rfl

theorem parseValue_number (hdepth : depth ≤ maxDepth) {literal : Bytes} {number : Int}
    (hnumber : PaddedInteger literal number) (hrest : Ends rest) :
    parseValue doc maxDepth (fuel + 1) depth (literal ++ rest) = .ok (.number number, rest) := by
  obtain ⟨c, tail, hliteral, hc⟩ := hnumber.head
  have hother : c ≠ 123 ∧ c ≠ 91 ∧ c ≠ 34 ∧ c ≠ 116 ∧ c ≠ 102 ∧ c ≠ 110 := by
    refine ⟨?_, ?_, ?_, ?_, ?_, ?_⟩ <;>
    · rintro rfl
      exact absurd hc (by decide)
  obtain ⟨h1, h2, h3, h4, h5, h6⟩ := hother
  rw [← @parseNumber_complete doc rest literal number hnumber hrest, hliteral, List.cons_append, parseValue,
    if_neg (Nat.not_lt.mpr hdepth)]
  simp only [h1, h2, h3, h4, h5, h6, hc, if_false, if_true]

end Complete

/-! #### The parser on a derivation -/

/-- How the parser goes over what a phrase derives. Every round of its loops has fuel of its own. -/
def Reads (doc : Bytes) (maxDepth room : Nat) : Phrase → Bytes → Prop
  | .value value, body => ∀ ⦃fuel depth : Nat⦄ ⦃rest : Bytes⦄, 2 * body.length ≤ fuel → depth + room ≤ maxDepth →
      Ends rest → parseValue doc maxDepth fuel depth (body ++ rest) = .ok (value, rest)
  | .items items, body => ∀ ⦃fuel depth : Nat⦄ ⦃rest : Bytes⦄ (read : List JsonValue), 2 * body.length + 1 ≤ fuel →
      depth + 1 + room ≤ maxDepth →
        parseItems doc maxDepth fuel depth read (body ++ 93 :: rest) = .ok (.array (read ++ items), rest)
  | .members members, body => ∀ ⦃fuel depth : Nat⦄ ⦃rest : Bytes⦄ (read : List (Bytes × JsonValue)),
      2 * body.length + 1 ≤ fuel → depth + 1 + room ≤ maxDepth → ((read ++ members).map Prod.fst).Nodup →
        parseMembers doc maxDepth fuel depth read (body ++ 125 :: rest) = .ok (.object (read ++ members), rest)

section Reads

variable {doc : Bytes} {maxDepth room : Nat} {before gap body last more : Bytes} {value : JsonValue}

theorem Reads.parseItem (hbefore : Whitespace before) (hbody : Derives PaddedInteger room (.value value) body)
    (hvalue : Reads doc maxDepth room (.value value) body) (hlast : Whitespace last) {c : UInt8} (hc : c = 44 ∨ c = 93)
    {fuel depth : Nat} (hfuel : 2 * body.length ≤ fuel) (hdepth : depth + 1 + room ≤ maxDepth)
    (items : List JsonValue) :
    parseItems doc maxDepth (fuel + 1) depth items (before ++ (body ++ (last ++ c :: more))) =
      if c = 44 then parseItems doc maxDepth fuel depth (items ++ [value]) more
      else .ok (.array (items ++ [value]), more) := by
  have hends : Ends (last ++ c :: more) := Ends.append hlast (Ends.cons (by tauto) more)
  have hspace : isWs c = false := by
    rcases hc with rfl | rfl <;> decide
  rw [parseItems, hbody.skipWs hbefore, hvalue hfuel hdepth hends]
  simp only [skipWs_append hlast hspace]
  rcases hc with rfl | rfl <;> rfl

theorem Reads.parseMember {source name before' : Bytes} (hbefore : Whitespace before) (hname : Chars source name)
    (hgap : Whitespace gap) (hbefore' : Whitespace before')
    (hbody : Derives PaddedInteger room (.value value) body) (hvalue : Reads doc maxDepth room (.value value) body)
    (hlast : Whitespace last) {c : UInt8} (hc : c = 44 ∨ c = 125) {fuel depth : Nat} (hfuel : 2 * body.length ≤ fuel)
    (hdepth : depth + 1 + room ≤ maxDepth) {members : List (Bytes × JsonValue)}
    (hfresh : name ∉ members.map Prod.fst) :
    parseMembers doc maxDepth (fuel + 1) depth members
        (before ++ 34 :: (source ++ 34 :: (gap ++ 58 :: (before' ++ (body ++ (last ++ c :: more)))))) =
      if c = 44 then parseMembers doc maxDepth fuel depth (members ++ [(name, value)]) more
      else .ok (.object (members ++ [(name, value)]), more) := by
  have hends : Ends (last ++ c :: more) := Ends.append hlast (Ends.cons (by tauto) more)
  have hspace : isWs c = false := by
    rcases hc with rfl | rfl <;> decide
  have hunknown : (lookup name members).isSome = false := by
    rw [lookup_eq_none.mpr hfresh]
    rfl
  rw [parseMembers, skipWs_append hbefore (by decide)]
  simp only [parseString_complete hname, hunknown, skipWs_append hgap (show isWs 58 = false by decide),
    hbody.skipWs hbefore', hvalue hfuel hdepth hends, skipWs_append hlast hspace]
  rcases hc with rfl | rfl <;> rfl

theorem JsonGrammar.Derives.reads {phrase : Phrase} (h : Derives PaddedInteger room phrase body) :
    Reads doc maxDepth room phrase body := by
  induction h with
  | null =>
    intro fuel depth rest hfuel hdepth _
    obtain ⟨fuel, rfl⟩ : ∃ n, fuel = n + 1 := ⟨fuel - 1, by simp [text] at hfuel; omega⟩
    exact parseValue_literal (by omega) (by simp)
  | @bool room value =>
    intro fuel depth rest hfuel hdepth _
    cases value
    · obtain ⟨fuel, rfl⟩ : ∃ n, fuel = n + 1 := ⟨fuel - 1, by simp [text] at hfuel; omega⟩
      exact parseValue_literal (by omega) (by simp)
    · obtain ⟨fuel, rfl⟩ : ∃ n, fuel = n + 1 := ⟨fuel - 1, by simp [text] at hfuel; omega⟩
      exact parseValue_literal (by omega) (by simp)
  | number hnumber =>
    intro fuel depth rest hfuel hdepth hrest
    obtain ⟨c, tail, rfl, -⟩ := hnumber.head
    rw [List.length_cons] at hfuel
    obtain ⟨fuel, rfl⟩ : ∃ n, fuel = n + 1 := ⟨fuel - 1, by omega⟩
    exact parseValue_number (by omega) hnumber hrest
  | string hchars =>
    intro fuel depth rest hfuel hdepth _
    rw [List.length_cons] at hfuel
    obtain ⟨fuel, rfl⟩ : ∃ n, fuel = n + 1 := ⟨fuel - 1, by omega⟩
    rw [List.cons_append, List.append_assoc]
    exact parseValue_string (by omega) hchars
  | emptyArray hgap =>
    intro fuel depth rest hfuel hdepth _
    rw [List.length_cons] at hfuel
    obtain ⟨fuel, rfl⟩ : ∃ n, fuel = n + 1 := ⟨fuel - 1, by omega⟩
    rw [List.cons_append, List.append_assoc]
    exact parseValue_emptyArray (by omega) hgap
  | @array room body items hitems ih =>
    intro fuel depth rest hfuel hdepth _
    rw [List.length_cons, List.length_append, List.length_singleton] at hfuel
    obtain ⟨fuel, rfl⟩ : ∃ n, fuel = n + 1 := ⟨fuel - 1, by omega⟩
    rw [List.cons_append, List.append_assoc, List.singleton_append,
      parseValue_array (by omega) (by omega) (hitems.skipWs_items _), ih [] (by omega) (by omega), List.nil_append]
  | emptyObject hgap =>
    intro fuel depth rest hfuel hdepth _
    rw [List.length_cons] at hfuel
    obtain ⟨fuel, rfl⟩ : ∃ n, fuel = n + 1 := ⟨fuel - 1, by omega⟩
    rw [List.cons_append, List.append_assoc]
    exact parseValue_emptyObject (by omega) hgap
  | @object room body members hmembers hdistinct ih =>
    intro fuel depth rest hfuel hdepth _
    rw [List.length_cons, List.length_append, List.length_singleton] at hfuel
    obtain ⟨fuel, rfl⟩ : ∃ n, fuel = n + 1 := ⟨fuel - 1, by omega⟩
    rw [List.cons_append, List.append_assoc, List.singleton_append,
      parseValue_object (by omega) (by omega) (hmembers.skipWs_members _),
      ih [] (by omega) (by omega) (by rwa [List.nil_append]), List.nil_append]
  | lastItem hbefore hvalue hafter ih =>
    intro fuel depth rest read hfuel hdepth
    simp only [List.length_append] at hfuel
    obtain ⟨fuel, rfl⟩ : ∃ n, fuel = n + 1 := ⟨fuel - 1, by omega⟩
    rw [List.append_assoc, List.append_assoc,
      Reads.parseItem hbefore hvalue ih hafter (Or.inr rfl) (by omega) hdepth]
    rfl
  | @item room before body after more value items hbefore hvalue hafter _ ih ihrest =>
    intro fuel depth rest read hfuel hdepth
    simp only [List.length_append, List.length_cons] at hfuel
    obtain ⟨fuel, rfl⟩ : ∃ n, fuel = n + 1 := ⟨fuel - 1, by omega⟩
    rw [List.append_assoc, List.append_assoc, List.append_assoc, List.cons_append,
      Reads.parseItem hbefore hvalue ih hafter (Or.inl rfl) (by omega) hdepth, if_pos rfl,
      ihrest _ (by omega) hdepth, List.append_assoc, List.singleton_append]
  | lastMember hbefore hname hgap hbefore' hvalue hafter ih =>
    intro fuel depth rest read hfuel hdepth hdistinct
    simp only [List.length_append, List.length_cons] at hfuel
    obtain ⟨fuel, rfl⟩ : ∃ n, fuel = n + 1 := ⟨fuel - 1, by omega⟩
    have hfresh := not_mem_of_nodup hdistinct
    simp only [List.append_assoc, List.cons_append]
    rw [Reads.parseMember hbefore hname hgap hbefore' hvalue ih hafter (Or.inr rfl) (by omega) hdepth hfresh]
    rfl
  | @member room before source name gap before' body after more value members hbefore hname hgap hbefore' hvalue hafter _
      ih ihrest =>
    intro fuel depth rest read hfuel hdepth hdistinct
    simp only [List.length_append, List.length_cons] at hfuel
    obtain ⟨fuel, rfl⟩ : ∃ n, fuel = n + 1 := ⟨fuel - 1, by omega⟩
    have hfresh := not_mem_of_nodup hdistinct
    have hassoc : read ++ (name, value) :: members = (read ++ [(name, value)]) ++ members := by
      rw [List.append_assoc, List.singleton_append]
    rw [hassoc] at hdistinct
    simp only [List.append_assoc, List.cons_append]
    rw [Reads.parseMember hbefore hname hgap hbefore' hvalue ih hafter (Or.inl rfl) (by omega) hdepth hfresh,
      if_pos rfl, ihrest _ (by omega) hdepth hdistinct, hassoc]

end Reads

/-! ### Documents -/

theorem parseJson_iff {doc : Bytes} {maxDepth : Nat} {value : JsonValue} :
    parseJson doc maxDepth = .ok value ↔ Document PaddedInteger maxDepth doc value := by
  constructor
  · intro h
    unfold parseJson at h
    obtain ⟨⟨parsed, rest⟩, hread, hend⟩ := bind_eq_ok_iff.mp h
    dsimp only at hend
    split_ifs at hend with htrailing
    cases hend
    obtain ⟨before, hbefore, hgap⟩ := skipWs_split doc
    obtain ⟨after, hafter, hgap'⟩ := skipWs_split rest
    obtain ⟨body, hbody, hvalue⟩ := parseValue_sound _ (Nat.zero_add maxDepth) hread
    rw [not_not.mp htrailing, List.append_nil] at hafter
    refine ⟨before, body, after, ?_, hgap, hgap', hvalue⟩
    rw [← hafter, ← hbody]
    exact hbefore
  · rintro ⟨before, body, after, rfl, hbefore, hafter, hvalue⟩
    unfold parseJson
    rw [hvalue.skipWs hbefore, hvalue.reads (by simp only [List.length_append]; omega) (by omega)
      (Ends.whitespace hafter)]
    show (if skipWs after ≠ [] then _ else _) = _
    rw [skipWs_all hafter, if_neg (not_not.mpr rfl)]

end LatencyObservatory.Core
