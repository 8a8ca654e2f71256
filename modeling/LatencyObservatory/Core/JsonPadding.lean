import LatencyObservatory.Core.JsonLanguage

/-!
# Numbers padded with zeros

`parse_number` takes any run of digits for the integer part, so a number may start with zeros that RFC 8259 does not
allow. A scan over the bytes of a document finds such a number, and on the documents without one the parser accepts
exactly the language of the RFC.
-/

namespace LatencyObservatory.Core

open JsonValue JsonGrammar

/-! ### The scan -/

/-- Where the scan stands: outside of strings and numbers, behind the zero or the other digits that a number starts
with, in a string, or behind a backslash. -/
inductive NumberScan where
  | gap
  | zero
  | digits
  | string
  | escape
deriving DecidableEq, Repr

namespace NumberScan

def outside (c : UInt8) : NumberScan :=
  if c = 34 then .string else if c = 48 then .zero else if isDigit c then .digits else .gap

/-- Whether a digit follows a zero that a number starts with. -/
@[grind =]
def finds : NumberScan → Bytes → Bool
  | _, [] => false
  | .gap, c :: rest => finds (outside c) rest
  | .zero, c :: rest => isDigit c || finds (outside c) rest
  | .digits, c :: rest => finds (if isDigit c then .digits else outside c) rest
  | .string, c :: rest => finds (if c = 92 then .escape else if c = 34 then .gap else .string) rest
  | .escape, _ :: rest => finds .string rest

end NumberScan

/-- A number of the document is padded with zeros. -/
def hasPaddedNumber (doc : Bytes) : Bool :=
  NumberScan.finds .gap doc

def paddedDigits : Bytes → Bool
  | 48 :: _ :: _ => true
  | _ => false

def paddedLiteral : Bytes → Bool
  | 45 :: digits => paddedDigits digits
  | digits => paddedDigits digits

theorem paddedLiteral_digits {digits : Bytes} (h : Digits digits) : paddedLiteral digits = paddedDigits digits := by
  rw [paddedLiteral]
  rintro digits rfl
  exact absurd (h.2 45 List.mem_cons_self) (by decide)

/-! ### Tokens -/

namespace NumberScan

section Tokens

variable {rest : Bytes}

theorem finds_whitespace {gap : Bytes} (h : Whitespace gap) (rest : Bytes) :
    finds .gap (gap ++ rest) = finds .gap rest := by
  induction gap with
  | nil => rfl
  | cons c gap ih =>
    have hc : outside c = .gap := by
      rcases h c List.mem_cons_self with rfl | rfl | rfl | rfl <;> decide
    rw [List.cons_append, finds, hc]
    exact ih fun c hc => h c (List.mem_cons_of_mem _ hc)

theorem finds_hex4 {digits : Bytes} {code : Nat} (h : Hex4 digits code) (rest : Bytes) :
    finds .string (digits ++ rest) = finds .string rest := by
  have hplain : ∀ {c : UInt8} {d : Nat}, HexDigit c d → c ≠ 92 ∧ c ≠ 34 := by
    intro c d hc
    cases hc with
    | @digit d h =>
      have hall : ∀ d < 10, UInt8.ofNat (48 + d) ≠ 92 ∧ UInt8.ofNat (48 + d) ≠ 34 := by decide
      exact hall d h
    | @lower d h =>
      have hall : ∀ d < 6, UInt8.ofNat (97 + d) ≠ 92 ∧ UInt8.ofNat (97 + d) ≠ 34 := by decide
      exact hall d h
    | @upper d h =>
      have hall : ∀ d < 6, UInt8.ofNat (65 + d) ≠ 92 ∧ UInt8.ofNat (65 + d) ≠ 34 := by decide
      exact hall d h
  cases h with
  | digits ha hb hc hd =>
    obtain ⟨ha, ha'⟩ := hplain ha
    obtain ⟨hb, hb'⟩ := hplain hb
    obtain ⟨hc, hc'⟩ := hplain hc
    obtain ⟨hd, hd'⟩ := hplain hd
    simp only [List.cons_append, List.nil_append, finds, ha, ha', hb, hb', hc, hc', hd, hd', if_false]

theorem finds_string {source chars : Bytes} (h : Chars source chars) (rest : Bytes) :
    finds .gap (34 :: (source ++ 34 :: rest)) = finds .gap rest := by
  show finds .string (source ++ 34 :: rest) = finds .gap rest
  induction h with
  | nil => rfl
  | @unescaped c _ _ hcontrol hquote hescape _ ih =>
    rw [List.cons_append, finds, if_neg hescape, if_neg hquote]
    exact ih
  | short _ _ ih => exact ih
  | unicode hdigits _ _ _ ih =>
    show finds .string ((_ ++ _) ++ 34 :: rest) = _
    rw [List.append_assoc, finds_hex4 hdigits]
    exact ih
  | pair hdigits _ hdigits' _ _ ih =>
    show finds .string ((_ ++ _) ++ 34 :: rest) = _
    rw [List.append_assoc, finds_hex4 hdigits]
    show finds .string ((_ ++ _) ++ 34 :: rest) = _
    rw [List.append_assoc, finds_hex4 hdigits']
    exact ih

theorem finds_ends (h : Ends rest) :
    finds .zero rest = finds .gap rest ∧ finds .digits rest = finds .gap rest := by
  cases rest with
  | nil => exact ⟨rfl, rfl⟩
  | cons c rest =>
    have hdigit := h.head.1
    constructor
    · rw [finds, finds, hdigit, Bool.false_or]
    · rw [finds, finds, hdigit]
      rfl

theorem finds_digits {digits : Bytes} (h : ∀ c ∈ digits, isDigit c = true) (hrest : Ends rest) :
    finds .digits (digits ++ rest) = finds .gap rest := by
  induction digits with
  | nil => exact (finds_ends hrest).2
  | cons c digits ih =>
    rw [List.cons_append, finds, h c List.mem_cons_self, if_pos rfl]
    exact ih fun c hc => h c (List.mem_cons_of_mem _ hc)

theorem finds_number {digits : Bytes} (h : Digits digits) (hrest : Ends rest) :
    finds .gap (digits ++ rest) = (paddedDigits digits || finds .gap rest) := by
  obtain ⟨hsome, hdigits⟩ := h
  obtain ⟨c, tail, rfl⟩ := List.exists_cons_of_ne_nil hsome
  rw [List.forall_mem_cons] at hdigits
  by_cases hzero : c = 48
  · subst hzero
    cases tail with
    | nil => exact (finds_ends hrest).1
    | cons d tail =>
      show (isDigit d || _) = true
      rw [hdigits.2 d List.mem_cons_self, Bool.true_or]
  · have hquote : c ≠ 34 := by
      rintro rfl
      exact absurd hdigits.1 (by decide)
    have hfirst : outside c = .digits := by
      unfold outside
      rw [if_neg hquote, if_neg hzero, if_pos hdigits.1]
    have hplain : paddedDigits (c :: tail) = false := by
      rw [paddedDigits]
      exact fun d more heq => hzero (List.cons.inj heq).1
    rw [List.cons_append, finds, hfirst, finds_digits hdigits.2 hrest, hplain, Bool.false_or]

theorem finds_literal {literal : Bytes} {value : Int} (h : Signed Digits literal value) (hrest : Ends rest) :
    finds .gap (literal ++ rest) = (paddedLiteral literal || finds .gap rest) := by
  cases h with
  | plus hdigits =>
    rw [paddedLiteral_digits hdigits]
    exact finds_number hdigits hrest
  | minus hdigits => exact finds_number hdigits hrest

end Tokens

end NumberScan

/-! ### Documents -/

theorem wholeNumber_iff {digits : Bytes} (h : Digits digits) : WholeNumber digits ↔ paddedDigits digits = false := by
  unfold WholeNumber
  obtain ⟨c, tail, rfl⟩ := List.exists_cons_of_ne_nil h.1
  by_cases hzero : c = 48
  · subst hzero
    cases tail with
    | nil => simp [h, paddedDigits]
    | cons d tail => simp [paddedDigits]
  · have hplain : paddedDigits (c :: tail) = false := by
      rw [paddedDigits]
      exact fun d more heq => hzero (List.cons.inj heq).1
    simp [h, hzero, hplain]

theorem JsonGrammar.Signed.form {form : Bytes → Prop} {literal : Bytes} {value : Int} (h : Signed form literal value) :
    form literal ∨ ∃ digits, literal = 45 :: digits ∧ form digits := by
  cases h with
  | plus hdigits => exact Or.inl hdigits
  | minus hdigits => exact Or.inr ⟨_, rfl, hdigits⟩

theorem signed_whole_iff {literal : Bytes} {value : Int} (h : Signed Digits literal value) :
    Signed WholeNumber literal value ↔ paddedLiteral literal = false := by
  cases h with
  | plus hdigits =>
    rw [paddedLiteral_digits hdigits, ← wholeNumber_iff hdigits]
    constructor
    · intro h
      rcases h.form with hwhole | ⟨digits, rfl, -⟩
      · exact hwhole
      · exact absurd (hdigits.2 45 List.mem_cons_self) (by decide)
    · exact .plus
  | @minus digits hdigits =>
    show _ ↔ paddedDigits digits = false
    rw [← wholeNumber_iff hdigits]
    constructor
    · intro h
      rcases h.form with hwhole | ⟨digits', heq, hwhole⟩
      · exact absurd (hwhole.1.2 45 List.mem_cons_self) (by decide)
      · rw [(List.cons.inj heq).2]
        exact hwhole
    · exact .minus

theorem foldl_digits_ge (digits : Bytes) (value : Nat) :
    value * 10 ^ digits.length ≤ digits.foldl (fun value c => value * 10 + (c.toNat - 48)) value := by
  induction digits generalizing value with
  | nil => simp
  | cons c rest ih =>
    rw [List.foldl_cons, List.length_cons]
    calc
      value * 10 ^ (rest.length + 1) = value * 10 * 10 ^ rest.length := by rw [Nat.pow_succ]; ring
      _ ≤ (value * 10 + (c.toNat - 48)) * 10 ^ rest.length := Nat.mul_le_mul_right _ (Nat.le_add_right _ _)
      _ ≤ _ := ih _

theorem WholeNumber.length_le {digits : Bytes} (h : WholeNumber digits) (hvalue : digitsValue digits ≤ 2 ^ 63) :
    digits.length ≤ 19 := by
  obtain ⟨⟨hsome, hdigits⟩, hzero⟩ := h
  obtain ⟨c, tail, rfl⟩ := List.exists_cons_of_ne_nil hsome
  by_cases hc : c = 48
  · rw [hzero (congrArg some hc)]
    decide
  · have hdigit := hdigits c List.mem_cons_self
    simp only [isDigit, Bool.and_eq_true, decide_eq_true_eq, UInt8.le_iff_toNat_le] at hdigit
    have hlow : (48 : UInt8).toNat = 48 := rfl
    have hpositive : 1 ≤ c.toNat - 48 := by
      have hne : c.toNat ≠ 48 := fun heq => hc (UInt8.toNat_inj.mp heq)
      omega
    have hgrows := foldl_digits_ge tail (c.toNat - 48)
    have hfirst : digitsValue (c :: tail) = tail.foldl (fun value c => value * 10 + (c.toNat - 48)) (c.toNat - 48) := by
      simp [digitsValue]
    have hpower : 10 ^ tail.length ≤ 2 ^ 63 := by
      calc
        10 ^ tail.length ≤ (c.toNat - 48) * 10 ^ tail.length := Nat.le_mul_of_pos_left _ hpositive
        _ ≤ digitsValue (c :: tail) := by rw [hfirst]; exact hgrows
        _ ≤ 2 ^ 63 := hvalue
    have hlength : tail.length < 19 := by
      by_contra hlong
      have hmore : 10 ^ 19 ≤ 10 ^ tail.length := Nat.pow_le_pow_right (by decide) (by omega)
      have : (2 : Nat) ^ 63 < 10 ^ 19 := by decide
      omega
    rw [List.length_cons]
    omega

theorem integer_iff {literal : Bytes} {value : Int} :
    Integer literal value ↔ PaddedInteger literal value ∧ paddedLiteral literal = false := by
  constructor
  · rintro ⟨hsigned, hrange⟩
    have hdigits : Signed Digits literal value := by
      cases hsigned with
      | plus hwhole => exact .plus hwhole.1
      | minus hwhole => exact .minus hwhole.1
    refine ⟨⟨hdigits, hrange, ?_⟩, (signed_whole_iff hdigits).mp hsigned⟩
    unfold Representable at hrange
    cases hsigned with
    | plus hwhole =>
      have hlength := WholeNumber.length_le hwhole (by omega)
      omega
    | minus hwhole =>
      have hlength := WholeNumber.length_le hwhole (by omega)
      rw [List.length_cons]
      omega
  · rintro ⟨⟨hsigned, hrange, -⟩, hplain⟩
    exact ⟨(signed_whole_iff hsigned).mpr hplain, hrange⟩

/-- The number literals of a phrase: what the scan finds in the phrase, and what the phrase needs of its numbers. -/
structure HasLiterals (number : Bytes → Int → Prop) (room : Nat) (phrase : Phrase) (body : Bytes)
    (literals : List Bytes) : Prop where
  numbers : ∀ literal ∈ literals, ∃ value, number literal value
  scan : ∀ rest, Ends rest →
    NumberScan.finds .gap (body ++ rest) = (literals.any paddedLiteral || NumberScan.finds .gap rest)
  derives : ∀ number' : Bytes → Int → Prop,
    (∀ literal ∈ literals, ∀ value, number literal value → number' literal value) → Derives number' room phrase body

section Literals

variable {number : Bytes → Int → Prop} {room : Nat} {phrase : Phrase} {body : Bytes}

theorem HasLiterals.none (hscan : ∀ rest, NumberScan.finds .gap (body ++ rest) = NumberScan.finds .gap rest)
    (hderives : ∀ number', Derives number' room phrase body) : HasLiterals number room phrase body [] := by
  refine ⟨fun _ hmem => absurd hmem List.not_mem_nil, ?_, fun number' _ => hderives number'⟩
  intro rest _
  rw [hscan]
  rfl

theorem exists_literals (hsigned : ∀ literal value, number literal value → Signed Digits literal value)
    (h : Derives number room phrase body) : ∃ literals, HasLiterals number room phrase body literals := by
  induction h with
  | null => exact ⟨[], .none (fun _ => rfl) fun _ => .null⟩
  | @bool _ value =>
    cases value
    · exact ⟨[], .none (fun _ => rfl) fun _ => .bool⟩
    · exact ⟨[], .none (fun _ => rfl) fun _ => .bool⟩
  | @number _ literal value hnumber =>
    refine ⟨[literal], ?_, ?_, ?_⟩
    · intro literal' hmem
      rw [List.mem_singleton.mp hmem]
      exact ⟨value, hnumber⟩
    · intro rest hrest
      rw [NumberScan.finds_literal (hsigned _ _ hnumber) hrest, List.any_cons, List.any_nil, Bool.or_false]
    · intro number' hnumber'
      exact .number (hnumber' literal List.mem_cons_self value hnumber)
  | @string _ source chars hchars =>
    refine ⟨[], .none (fun rest => ?_) fun _ => .string hchars⟩
    rw [List.cons_append, List.append_assoc]
    exact NumberScan.finds_string hchars rest
  | @emptyArray _ gap hgap =>
    refine ⟨[], .none (fun rest => ?_) fun _ => .emptyArray hgap⟩
    rw [List.cons_append, List.append_assoc]
    exact NumberScan.finds_whitespace hgap _
  | @array _ body items _ ih =>
    obtain ⟨literals, hnumbers, hscan, hderives⟩ := ih
    refine ⟨literals, hnumbers, ?_, fun number' h => .array (hderives number' h)⟩
    intro rest _
    rw [List.cons_append, List.append_assoc]
    exact hscan (93 :: rest) (Ends.cons (by tauto) rest)
  | @emptyObject _ gap hgap =>
    refine ⟨[], .none (fun rest => ?_) fun _ => .emptyObject hgap⟩
    rw [List.cons_append, List.append_assoc]
    exact NumberScan.finds_whitespace hgap _
  | @object _ body members _ hdistinct ih =>
    obtain ⟨literals, hnumbers, hscan, hderives⟩ := ih
    refine ⟨literals, hnumbers, ?_, fun number' h => .object (hderives number' h) hdistinct⟩
    intro rest _
    rw [List.cons_append, List.append_assoc]
    exact hscan (125 :: rest) (Ends.cons (by tauto) rest)
  | @lastItem _ before body after value hbefore _ hafter ih =>
    obtain ⟨literals, hnumbers, hscan, hderives⟩ := ih
    refine ⟨literals, hnumbers, ?_, fun number' h => .lastItem hbefore (hderives number' h) hafter⟩
    intro rest hrest
    rw [List.append_assoc, List.append_assoc, NumberScan.finds_whitespace hbefore,
      hscan _ (Ends.append hafter hrest), NumberScan.finds_whitespace hafter]
  | @item _ before body after more value items hbefore _ hafter _ ih ihrest =>
    obtain ⟨literals, hnumbers, hscan, hderives⟩ := ih
    obtain ⟨literals', hnumbers', hscan', hderives'⟩ := ihrest
    refine ⟨literals ++ literals', List.forall_mem_append.mpr ⟨hnumbers, hnumbers'⟩, ?_, ?_⟩
    · intro rest hrest
      have hcomma : Ends (44 :: (more ++ rest)) := Ends.cons (by tauto) _
      rw [List.append_assoc, List.append_assoc, List.append_assoc, List.cons_append,
        NumberScan.finds_whitespace hbefore, hscan _ (Ends.append hafter hcomma), NumberScan.finds_whitespace hafter,
        List.any_append, Bool.or_assoc, ← hscan' rest hrest]
      rfl
    · intro number' h
      obtain ⟨hfirst, hmore⟩ := List.forall_mem_append.mp h
      exact .item hbefore (hderives number' hfirst) hafter (hderives' number' hmore)
  | @lastMember _ before source name gap before' body after value hbefore hname hgap hbefore' _ hafter ih =>
    obtain ⟨literals, hnumbers, hscan, hderives⟩ := ih
    refine ⟨literals, hnumbers, ?_, fun number' h => .lastMember hbefore hname hgap hbefore' (hderives number' h) hafter⟩
    intro rest hrest
    simp only [List.append_assoc, List.cons_append]
    rw [NumberScan.finds_whitespace hbefore, NumberScan.finds_string hname, NumberScan.finds_whitespace hgap]
    show NumberScan.finds .gap (before' ++ (body ++ (after ++ rest))) = _
    rw [NumberScan.finds_whitespace hbefore', hscan _ (Ends.append hafter hrest), NumberScan.finds_whitespace hafter]
  | @member _ before source name gap before' body after more value members hbefore hname hgap hbefore' _ hafter _ ih
      ihrest =>
    obtain ⟨literals, hnumbers, hscan, hderives⟩ := ih
    obtain ⟨literals', hnumbers', hscan', hderives'⟩ := ihrest
    refine ⟨literals ++ literals', List.forall_mem_append.mpr ⟨hnumbers, hnumbers'⟩, ?_, ?_⟩
    · intro rest hrest
      have hcomma : Ends (44 :: (more ++ rest)) := Ends.cons (by tauto) _
      simp only [List.append_assoc, List.cons_append]
      rw [NumberScan.finds_whitespace hbefore, NumberScan.finds_string hname, NumberScan.finds_whitespace hgap]
      show NumberScan.finds .gap (before' ++ (body ++ (after ++ 44 :: (more ++ rest)))) = _
      rw [NumberScan.finds_whitespace hbefore', hscan _ (Ends.append hafter hcomma),
        NumberScan.finds_whitespace hafter, List.any_append, Bool.or_assoc, ← hscan' rest hrest]
      rfl
    · intro number' h
      obtain ⟨hfirst, hmore⟩ := List.forall_mem_append.mp h
      exact .member hbefore hname hgap hbefore' (hderives number' hfirst) hafter (hderives' number' hmore)

end Literals

section Documents

variable {doc : Bytes} {maxDepth : Nat} {value : JsonValue}

/-- A derivation over one kind of numbers, for a document whose numbers are all of another kind. -/
theorem Document.literals {number : Bytes → Int → Prop}
    (hsigned : ∀ literal value, number literal value → Signed Digits literal value)
    (h : Document number maxDepth doc value) :
    ∃ literals : List Bytes, (∀ literal ∈ literals, ∃ value, number literal value) ∧
      hasPaddedNumber doc = literals.any paddedLiteral ∧
      ∀ number' : Bytes → Int → Prop, (∀ literal ∈ literals, ∀ value, number literal value → number' literal value) →
        Document number' maxDepth doc value := by
  obtain ⟨before, body, after, rfl, hbefore, hafter, hbody⟩ := h
  obtain ⟨literals, hnumbers, hscan, hderives⟩ := exists_literals hsigned hbody
  refine ⟨literals, hnumbers, ?_, fun number' h => ⟨before, body, after, rfl, hbefore, hafter, hderives number' h⟩⟩
  have hend : NumberScan.finds .gap after = false := by
    have hgap := NumberScan.finds_whitespace hafter []
    rw [List.append_nil] at hgap
    exact hgap
  unfold hasPaddedNumber
  rw [NumberScan.finds_whitespace hbefore, hscan _ (Ends.whitespace hafter), hend, Bool.or_false]

/-- The documents of the RFC are those that the parser accepts and that have no padded number. -/
theorem document_integer_iff : Document Integer maxDepth doc value ↔
    Document PaddedInteger maxDepth doc value ∧ hasPaddedNumber doc = false := by
  constructor
  · intro h
    obtain ⟨literals, hnumbers, hpadded, hderives⟩ := Document.literals (fun _ _ h => (integer_iff.mp h).1.1) h
    refine ⟨hderives PaddedInteger fun _ _ _ h => (integer_iff.mp h).1, ?_⟩
    rw [hpadded, List.any_eq_false]
    intro literal hmem
    obtain ⟨value, hnumber⟩ := hnumbers literal hmem
    simp [(integer_iff.mp hnumber).2]
  · rintro ⟨h, hplain⟩
    obtain ⟨literals, -, hpadded, hderives⟩ := Document.literals (fun _ _ h => h.1) h
    apply hderives Integer
    intro literal hmem value hnumber
    rw [hpadded, List.any_eq_false] at hplain
    exact integer_iff.mpr ⟨hnumber, by simpa using hplain literal hmem⟩

/-- `parse_json` accepts exactly its language, but for numbers that are padded with zeros. -/
theorem parseJson_exact_iff (doc : Bytes) (maxDepth : Nat) :
    (∀ value, parseJson doc maxDepth = .ok value ↔ Document Integer maxDepth doc value) ↔
      ¬(hasPaddedNumber doc = true ∧ ∃ value, Document PaddedInteger maxDepth doc value) := by
  constructor
  · rintro h ⟨hpadded, value, hvalue⟩
    have hplain := (document_integer_iff.mp ((h value).mp (parseJson_iff.mpr hvalue))).2
    rw [hpadded] at hplain
    cases hplain
  · intro h value
    rw [parseJson_iff, document_integer_iff]
    constructor
    · intro hvalue
      refine ⟨hvalue, ?_⟩
      rw [Bool.eq_false_iff]
      exact fun hpadded => h ⟨hpadded, value, hvalue⟩
    · exact And.left

/-- `01` is read as one. -/
theorem parseJson_accepts_padded :
    ¬∀ (doc : Bytes) (maxDepth : Nat) (value : JsonValue),
      parseJson doc maxDepth = .ok value ↔ Document Integer maxDepth doc value := by
  intro h
  have hread : parseJson (text "01") 64 = .ok (.number 1) := by rfl
  have hplain := (document_integer_iff.mp ((h (text "01") 64 (.number 1)).mp hread)).2
  exact absurd hplain (by decide)

end Documents

end LatencyObservatory.Core
