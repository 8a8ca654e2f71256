import LatencyObservatory.Core.JsonLanguage

/-!
# How a document spells its texts

The strings and member names of a document stand between quotes, spelled with or without escapes, and apart from them a
document has no quote and no letter that is not in a literal. A scan over the bytes finds the spellings, and a word
stands between two quotes exactly if a spelling is that word or ends with an escaped quote and that word.
-/

namespace LatencyObservatory.Core

open JsonValue JsonGrammar

def quote : UInt8 := 34

def backslash : UInt8 := 92

/-! ### The texts of a document -/

namespace JsonValue

mutual

/-- The strings and member names of a value, in the order of the document. -/
def texts : JsonValue → List Bytes
  | .null => []
  | .bool _ => []
  | .number _ => []
  | .string text => [text]
  | .array items => itemTexts items
  | .object members => memberTexts members

def itemTexts : List JsonValue → List Bytes
  | [] => []
  | item :: items => item.texts ++ itemTexts items

def memberTexts : List (Bytes × JsonValue) → List Bytes
  | [] => []
  | (name, value) :: members => name :: (value.texts ++ memberTexts members)

end

theorem mem_memberTexts_of_lookup {name : Bytes} {members : List (Bytes × JsonValue)} {value : JsonValue}
    (h : lookup name members = some value) : ∀ text ∈ value.texts, text ∈ memberTexts members := by
  intro text htext
  induction members with
  | nil => cases h
  | cons member members ih =>
    rw [lookup] at h
    rw [memberTexts, List.mem_cons, List.mem_append]
    split_ifs at h with hname
    · rw [Option.some.inj h]
      exact Or.inr (Or.inl htext)
    · exact Or.inr (Or.inr (ih h))

end JsonValue

def JsonGrammar.Phrase.texts : Phrase → List Bytes
  | .value v => v.texts
  | .items list => itemTexts list
  | .members list => memberTexts list

/-! ### The scan -/

/-- Where the scan stands: outside of the strings, or in one of which it has read these bytes, possibly right behind a
backslash. -/
inductive StringScan where
  | gap
  | string (read : Bytes) (escaped : Bool)
deriving DecidableEq, Repr

/-- The spellings of the strings that end in these bytes. -/
def StringScan.spellings : StringScan → Bytes → List Bytes
  | _, [] => []
  | .gap, c :: rest => spellings (if c = quote then .string [] false else .gap) rest
  | .string read true, c :: rest => spellings (.string (read ++ [c]) false) rest
  | .string read false, c :: rest =>
    if c = quote then read :: spellings .gap rest else spellings (.string (read ++ [c]) (decide (c = backslash))) rest

/-- The names and strings of a document as they are written. -/
def spellings (doc : Bytes) : List Bytes :=
  StringScan.gap.spellings doc

/-- Between its quotes the spelling shows the word: it is the word, or the word stands at its end behind an escaped
quote. -/
def Shows (word source : Bytes) : Prop :=
  source = word ∨ quote :: word <:+ source

/-! ### Spellings and gaps -/

/-- What can stand outside the strings of a document. -/
def isGap (c : UInt8) : Bool :=
  isWs c || isDigit c || (text "-\x7b\x7d[],:truefalsn").contains c

/-- Bytes with the texts between their quotes, and their spellings. -/
inductive Spelled : Bytes → List Bytes → List Bytes → Prop
  | gap {gap : Bytes} (hgap : ∀ c ∈ gap, isGap c = true) : Spelled gap [] []
  | text {gap source chars rest : Bytes} {sources texts : List Bytes} (hgap : ∀ c ∈ gap, isGap c = true)
    (hsource : Chars source chars) (hrest : Spelled rest sources texts) :
    Spelled (gap ++ quote :: (source ++ quote :: rest)) (source :: sources) (chars :: texts)

section Spelled

variable {bytes gap source chars word rest : Bytes} {sources texts : List Bytes}

theorem quote_not_mem_gap (h : ∀ c ∈ gap, isGap c = true) : quote ∉ gap := by
  intro hmem
  exact absurd (h quote hmem) (by decide)

theorem gap_of_whitespace (h : Whitespace gap) : ∀ c ∈ gap, isGap c = true := by
  intro c hc
  unfold isGap
  rw [(isWs_iff c).mpr (h c hc)]
  rfl

theorem Spelled.gap_append (hgap : ∀ c ∈ gap, isGap c = true) (h : Spelled bytes sources texts) :
    Spelled (gap ++ bytes) sources texts := by
  cases h with
  | gap hbytes => exact .gap (List.forall_mem_append.mpr ⟨hgap, hbytes⟩)
  | text hbytes hsource hrest =>
    rw [← List.append_assoc]
    exact .text (List.forall_mem_append.mpr ⟨hgap, hbytes⟩) hsource hrest

theorem Spelled.byte {c : UInt8} (hc : isGap c = true) (h : Spelled bytes sources texts) :
    Spelled (c :: bytes) sources texts :=
  h.gap_append (List.forall_mem_singleton.mpr hc)

theorem Spelled.append {others : Bytes} {otherSources otherTexts : List Bytes} (h : Spelled bytes sources texts)
    (hothers : Spelled others otherSources otherTexts) :
    Spelled (bytes ++ others) (sources ++ otherSources) (texts ++ otherTexts) := by
  induction h with
  | gap hgap => exact hothers.gap_append hgap
  | text hgap hsource _ ih =>
    simp only [List.append_assoc, List.cons_append]
    exact .text hgap hsource ih

theorem Spelled.append_gap (h : Spelled bytes sources texts) (hgap : ∀ c ∈ gap, isGap c = true) :
    Spelled (bytes ++ gap) sources texts := by
  have hall := h.append (.gap hgap)
  rwa [List.append_nil, List.append_nil] at hall

theorem Spelled.string (hsource : Chars source chars) (h : Spelled rest sources texts) :
    Spelled (quote :: (source ++ quote :: rest)) (source :: sources) (chars :: texts) :=
  .text (List.forall_mem_nil _) hsource h

theorem Spelled.denotes (h : Spelled bytes sources texts) : List.Forall₂ Chars sources texts := by
  induction h with
  | gap => exact .nil
  | text _ hsource _ ih => exact .cons hsource ih

/-! ### The scan finds the spellings -/

theorem spellings_gap (h : quote ∉ gap) (rest : Bytes) :
    StringScan.gap.spellings (gap ++ rest) = StringScan.gap.spellings rest := by
  induction gap with
  | nil => rfl
  | cons c gap ih =>
    rw [List.mem_cons, not_or] at h
    rw [List.cons_append, StringScan.spellings, if_neg (Ne.symm h.1), ih h.2]

theorem spellings_plain (h : ∀ c ∈ source, c ≠ quote ∧ c ≠ backslash) (read rest : Bytes) :
    (StringScan.string read false).spellings (source ++ rest) =
      (StringScan.string (read ++ source) false).spellings rest := by
  induction source generalizing read with
  | nil => rw [List.nil_append, List.append_nil]
  | cons c source ih =>
    rw [List.forall_mem_cons] at h
    rw [List.cons_append, StringScan.spellings, if_neg h.1.1, decide_eq_false h.1.2, ih h.2, List.append_assoc,
      List.singleton_append]

theorem spellings_escape (letter : UInt8) (read rest : Bytes) :
    (StringScan.string read false).spellings (backslash :: letter :: rest) =
      (StringScan.string (read ++ [backslash, letter]) false).spellings rest := by
  rw [StringScan.spellings, if_neg (by decide), decide_eq_true rfl, StringScan.spellings, List.append_assoc]
  rfl

theorem JsonGrammar.Hex4.plain {digits : Bytes} {code : Nat} (h : Hex4 digits code) :
    ∀ c ∈ digits, c ≠ quote ∧ c ≠ backslash := by
  have hdigit : ∀ {c : UInt8} {d : Nat}, HexDigit c d → c ≠ quote ∧ c ≠ backslash := by
    intro c d hc
    have hvalue := (hexValue_iff c d).mpr hc
    constructor
    · rintro rfl
      cases hvalue
    · rintro rfl
      cases hvalue
  cases h with
  | digits ha hb hc hd =>
    simp only [List.forall_mem_cons]
    exact ⟨hdigit ha, hdigit hb, hdigit hc, hdigit hd, List.forall_mem_nil _⟩

theorem JsonGrammar.Chars.spellings (h : Chars source chars) (read rest : Bytes) :
    (StringScan.string read false).spellings (source ++ quote :: rest) =
      (read ++ source) :: StringScan.gap.spellings rest := by
  induction h generalizing read with
  | nil => rw [List.nil_append, StringScan.spellings, if_pos rfl, List.append_nil]
  | @unescaped c source chars hcontrol hquote hescape hrest ih =>
    rw [List.cons_append, StringScan.spellings, if_neg (show ¬c = quote from hquote),
      decide_eq_false (show ¬c = backslash from hescape), ih, List.append_assoc]
    rfl
  | @short letter c source chars hescape hrest ih =>
    have hletter := spellings_escape letter read (source ++ quote :: rest)
    rw [ih, List.append_assoc] at hletter
    exact hletter
  | @unicode digits source chars code hdigits hhigh hlow hrest ih =>
    have hletter := spellings_escape 117 read (digits ++ (source ++ quote :: rest))
    rw [spellings_plain hdigits.plain, ih] at hletter
    simp only [List.append_assoc, List.cons_append, List.nil_append] at hletter ⊢
    exact hletter
  | @pair digits digits' source chars high low hdigits hhigh hdigits' hlow hrest ih =>
    have hletter := spellings_escape 117 read (digits ++ 92 :: 117 :: (digits' ++ (source ++ quote :: rest)))
    have hsecond := spellings_escape 117 (read ++ [backslash, 117] ++ digits) (digits' ++ (source ++ quote :: rest))
    rw [spellings_plain hdigits.plain] at hletter
    rw [spellings_plain hdigits'.plain, ih] at hsecond
    have hboth := hletter.trans hsecond
    simp only [List.append_assoc, List.cons_append, List.nil_append] at hboth ⊢
    exact hboth

theorem Spelled.spellings (h : Spelled bytes sources texts) : spellings bytes = sources := by
  induction h with
  | gap hgap =>
    have hnone := spellings_gap (quote_not_mem_gap hgap) []
    rw [List.append_nil] at hnone
    exact hnone
  | text hgap hsource _ ih =>
    unfold Core.spellings at ih ⊢
    rw [spellings_gap (quote_not_mem_gap hgap), StringScan.spellings, if_pos rfl, hsource.spellings, List.nil_append, ih]

/-! ### A quoted word -/

/-- A quote within these bytes stands behind a backslash. -/
def QuotesEscaped (bytes : Bytes) : Prop :=
  ∀ before after, bytes = before ++ quote :: after → backslash ∈ before.getLast?

theorem QuotesEscaped.append (hgap : quote ∉ gap) (h : QuotesEscaped rest) : QuotesEscaped (gap ++ rest) := by
  intro before after heq
  rcases List.append_eq_append_iff.mp heq with ⟨more, rfl, hmore⟩ | ⟨more, rfl, hmore⟩
  · have hlast := h more after hmore
    rw [List.getLast?_append, Option.mem_def.mp hlast]
    rfl
  · cases more with
    | nil =>
      have hlast := h [] after hmore.symm
      cases hlast
    | cons c more =>
      rw [← (List.cons.inj hmore).1] at hgap
      exact absurd (List.mem_append_right _ List.mem_cons_self) hgap

theorem JsonGrammar.Chars.quotesEscaped (h : Chars source chars) : QuotesEscaped source := by
  have hunicode : ∀ {digits source : Bytes} {code : Nat}, Hex4 digits code → QuotesEscaped source →
      QuotesEscaped (92 :: 117 :: (digits ++ source)) := by
    intro digits source code hdigits hsource
    have hplain : quote ∉ (92 :: 117 :: digits : Bytes) := by
      simp only [List.mem_cons, not_or]
      exact ⟨by decide, by decide, fun hmem => (hdigits.plain quote hmem).1 rfl⟩
    exact hsource.append hplain
  induction h with
  | nil =>
    intro before after heq
    exact absurd heq.symm (List.append_ne_nil_of_right_ne_nil _ (List.cons_ne_nil _ _))
  | @unescaped c source chars hcontrol hquote hescape hrest ih =>
    have hplain : quote ∉ [c] := fun hmem => hquote (List.mem_singleton.mp hmem).symm
    exact ih.append hplain
  | @short letter c source chars hescape hrest ih =>
    by_cases hletter : letter = quote
    · subst hletter
      intro before after heq
      match before, heq with
      | [], heq => cases heq
      | [_], heq =>
        rw [← (List.cons.inj heq).1]
        rfl
      | first :: second :: before, heq =>
        obtain ⟨-, hsecond⟩ := List.cons.inj heq
        obtain ⟨-, hrest⟩ := List.cons.inj hsecond
        have hlast := ih before after hrest
        rw [List.getLast?_cons_cons]
        cases before with
        | nil => cases hlast
        | cons third before => exact hlast
    · have hplain : quote ∉ [92, letter] := by
        simp only [List.mem_cons, List.not_mem_nil, or_false, not_or]
        exact ⟨by decide, Ne.symm hletter⟩
      exact ih.append hplain
  | unicode hdigits _ _ _ ih => exact hunicode hdigits ih
  | pair hdigits _ hdigits' _ _ ih => exact hunicode hdigits (hunicode hdigits' ih)

theorem quoted_infix_append (h : quote ∉ gap) : quote :: word <:+: gap ++ rest ↔ quote :: word <:+: rest := by
  induction gap with
  | nil => rw [List.nil_append]
  | cons c gap ih =>
    rw [List.mem_cons, not_or] at h
    rw [List.cons_append, List.infix_cons_iff, ih h.2]
    constructor
    · rintro (hstarts | hinside)
      · exact absurd (List.cons_prefix_cons.mp hstarts).1 h.1
      · exact hinside
    · exact Or.inr

/-- The end of a spelling and the quote behind it: the word is read up to there, as no quote is in it and none behind it
is escaped. -/
theorem quoted_prefix_iff (hne : word ≠ []) (hword : quote ∉ word) (hplain : backslash ∉ word) {before : Bytes}
    (h : QuotesEscaped (before ++ source)) : word ++ [quote] <+: source ++ quote :: rest ↔ source = word := by
  constructor
  · rintro ⟨others, heq⟩
    rw [List.append_assoc, List.singleton_append] at heq
    rcases List.append_eq_append_iff.mp heq with ⟨more, rfl, hmore⟩ | ⟨more, rfl, hmore⟩
    · cases more with
      | nil => rw [List.append_nil]
      | cons c more =>
        -- The quote behind the word would have to be escaped.
        rw [← (List.cons.inj hmore).1] at h
        have hlast := h (before ++ word) more (List.append_assoc _ _ _).symm
        rw [List.getLast?_append_of_ne_nil _ hne] at hlast
        exact absurd (List.mem_of_getLast? hlast) hplain
    · cases more with
      | nil => rw [List.append_nil]
      | cons c more =>
        rw [← (List.cons.inj hmore).1] at hword
        exact absurd (List.mem_append_right _ List.mem_cons_self) hword
  · rintro rfl
    exact ⟨rest, by rw [List.append_assoc, List.singleton_append]⟩

theorem quoted_infix_spelling (hne : word ≠ []) (hword : quote ∉ word) (hplain : backslash ∉ word) {before : Bytes}
    (h : QuotesEscaped (before ++ source)) :
    quote :: (word ++ [quote]) <:+: source ++ quote :: rest ↔
      quote :: word <:+ source ∨ quote :: (word ++ [quote]) <:+: quote :: rest := by
  induction source generalizing before with
  | nil =>
    rw [List.nil_append]
    refine (or_iff_right fun hsuffix => ?_).symm
    cases List.suffix_nil.mp hsuffix
  | cons c source ih =>
    have hnext : QuotesEscaped ((before ++ [c]) ++ source) := by
      rw [List.append_assoc]
      exact h
    have hstarts : quote :: (word ++ [quote]) <+: c :: (source ++ quote :: rest) ↔ quote :: word = c :: source := by
      rw [List.cons_prefix_cons, quoted_prefix_iff hne hword hplain hnext, List.cons.injEq, eq_comm (a := word)]
    rw [List.cons_append, List.infix_cons_iff, hstarts, ih hnext, List.suffix_cons_iff, or_assoc]

/-- A word that cannot be a gap stands between two quotes exactly if one of the spellings shows it. -/
theorem Spelled.quoted_infix_iff (hword : quote ∉ word) (hplain : backslash ∉ word)
    (hgap : ¬∀ c ∈ word, isGap c = true) (h : Spelled bytes sources texts) :
    quote :: (word ++ [quote]) <:+: bytes ↔ ∃ source ∈ sources, Shows word source := by
  have hne : word ≠ [] := by
    rintro rfl
    exact hgap (List.forall_mem_nil _)
  induction h with
  | gap hbytes =>
    refine iff_of_false (fun hinside => ?_) (by simp)
    exact quote_not_mem_gap hbytes (hinside.subset List.mem_cons_self)
  | @text gap source chars rest sources texts hbytes hsource hrest ih =>
    have hescaped : QuotesEscaped ([] ++ source) := hsource.quotesEscaped
    have hclosing : ¬word ++ [quote] <+: rest := by
      intro hstarts
      cases hrest with
      | gap hnone => exact quote_not_mem_gap hnone (hstarts.subset (List.mem_append_right _ List.mem_cons_self))
      | @text gap _ _ _ _ _ hnext _ _ =>
        have hfree : QuotesEscaped ([] ++ gap) := by
          intro before after heq
          rw [List.nil_append] at heq
          rw [heq] at hnext
          exact absurd (List.mem_append_right _ List.mem_cons_self) (quote_not_mem_gap hnext)
        rw [quoted_prefix_iff hne hword hplain hfree] at hstarts
        subst hstarts
        exact hgap hnext
    have hinside : quote :: (word ++ [quote]) <:+: quote :: rest ↔ quote :: (word ++ [quote]) <:+: rest := by
      rw [List.infix_cons_iff, List.cons_prefix_cons, and_iff_right rfl, or_iff_right hclosing]
    calc
      quote :: (word ++ [quote]) <:+: gap ++ quote :: (source ++ quote :: rest)
      _ ↔ word ++ [quote] <+: source ++ quote :: rest ∨ quote :: (word ++ [quote]) <:+: source ++ quote :: rest := by
        rw [quoted_infix_append (quote_not_mem_gap hbytes), List.infix_cons_iff, List.cons_prefix_cons,
          and_iff_right rfl]
      _ ↔ source = word ∨ quote :: word <:+ source ∨ quote :: (word ++ [quote]) <:+: rest := by
        rw [quoted_prefix_iff hne hword hplain hescaped, quoted_infix_spelling hne hword hplain hescaped, hinside]
      _ ↔ Shows word source ∨ ∃ source ∈ sources, Shows word source :=
        or_assoc.symm.trans (or_congr Iff.rfl ih)
      _ ↔ ∃ source' ∈ source :: sources, Shows word source' := (List.exists_mem_cons_iff _ _ _).symm

theorem Spelled.quotesEscaped (h : Spelled bytes sources texts) : ∀ source ∈ sources, QuotesEscaped source := by
  induction h with
  | gap => exact List.forall_mem_nil _
  | text _ hsource _ ih => exact List.forall_mem_cons.mpr ⟨hsource.quotesEscaped, ih⟩

theorem Spelled.subset (h : Spelled bytes sources texts) : ∀ source ∈ sources, source ⊆ bytes := by
  induction h with
  | gap => exact List.forall_mem_nil _
  | @text gap source chars rest sources texts _ _ _ ih =>
    have htail : quote :: (source ++ quote :: rest) ⊆ gap ++ quote :: (source ++ quote :: rest) :=
      List.subset_append_right _ _
    refine List.forall_mem_cons.mpr ⟨fun c hc => ?_, fun other hother c hc => ?_⟩
    · exact htail (List.mem_cons_of_mem _ (List.mem_append_left _ hc))
    · exact htail (List.mem_cons_of_mem _ (List.mem_append_right _ (List.mem_cons_of_mem _ (ih other hother hc))))

theorem Spelled.texts_of_plain (h : Spelled bytes sources texts) (hplain : backslash ∉ bytes) : sources = texts := by
  have hchars : ∀ {source chars : Bytes}, Chars source chars → backslash ∉ source → source = chars := by
    intro source chars hsource
    induction hsource with
    | nil => exact fun _ => rfl
    | @unescaped c _ _ _ _ _ _ ih =>
      intro hfree
      rw [List.mem_cons, not_or] at hfree
      exact congrArg (c :: ·) (ih hfree.2)
    | _ => exact fun hfree => absurd List.mem_cons_self hfree
  have hfree : ∀ source ∈ sources, backslash ∉ source := fun source hsource hmem => hplain (h.subset source hsource hmem)
  have hdenotes := h.denotes
  clear h
  induction hdenotes with
  | nil => rfl
  | cons hfirst _ ih =>
    rw [List.forall_mem_cons] at hfree
    rw [hchars hfirst hfree.1, ih hfree.2]

end Spelled

/-! ### Documents -/

section Documents

variable {doc body : Bytes} {maxDepth room : Nat} {value : JsonValue}

theorem JsonGrammar.PaddedInteger.gap {literal : Bytes} {value : Int} (h : PaddedInteger literal value) :
    ∀ c ∈ literal, isGap c = true := by
  have hdigits : ∀ {digits : Bytes}, Digits digits → ∀ c ∈ digits, isGap c = true := by
    intro digits h c hc
    unfold isGap
    rw [h.2 c hc, Bool.or_true, Bool.true_or]
  obtain ⟨hsigned, -, -⟩ := h
  cases hsigned with
  | plus hvalue => exact hdigits hvalue
  | minus hvalue => exact List.forall_mem_cons.mpr ⟨rfl, hdigits hvalue⟩

theorem JsonGrammar.Derives.spelled {phrase : Phrase} (h : Derives PaddedInteger room phrase body) :
    ∃ sources, Spelled body sources phrase.texts := by
  induction h with
  | null => exact ⟨[], .gap (List.all_eq_true.mp (by decide))⟩
  | @bool _ value =>
    refine ⟨[], .gap (List.all_eq_true.mp ?_)⟩
    cases value <;> decide
  | number hnumber => exact ⟨[], .gap hnumber.gap⟩
  | string hchars => exact ⟨_, .string hchars (.gap (List.forall_mem_nil _))⟩
  | emptyArray hgap =>
    exact ⟨[], .byte (by decide) ((Spelled.gap (gap_of_whitespace hgap)).append_gap
      (List.forall_mem_singleton.mpr (by decide)))⟩
  | array _ ih =>
    obtain ⟨sources, hitems⟩ := ih
    exact ⟨sources, .byte (by decide) (hitems.append_gap (List.forall_mem_singleton.mpr (by decide)))⟩
  | emptyObject hgap =>
    exact ⟨[], .byte (by decide) ((Spelled.gap (gap_of_whitespace hgap)).append_gap
      (List.forall_mem_singleton.mpr (by decide)))⟩
  | object _ _ ih =>
    obtain ⟨sources, hmembers⟩ := ih
    exact ⟨sources, .byte (by decide) (hmembers.append_gap (List.forall_mem_singleton.mpr (by decide)))⟩
  | lastItem hbefore _ hafter ih =>
    obtain ⟨sources, hvalue⟩ := ih
    refine ⟨sources, ?_⟩
    rw [Phrase.texts, itemTexts, itemTexts, List.append_nil]
    exact (hvalue.append_gap (gap_of_whitespace hafter)).gap_append (gap_of_whitespace hbefore)
  | item hbefore _ hafter _ ih ihrest =>
    obtain ⟨sources, hvalue⟩ := ih
    obtain ⟨others, hrest⟩ := ihrest
    refine ⟨sources ++ others, ?_⟩
    rw [Phrase.texts, itemTexts]
    exact (hvalue.append ((hrest.byte (by decide)).gap_append (gap_of_whitespace hafter))).gap_append
      (gap_of_whitespace hbefore)
  | lastMember hbefore hname hgap hbefore' _ hafter ih =>
    obtain ⟨sources, hvalue⟩ := ih
    rw [Phrase.texts, memberTexts, memberTexts, List.append_nil]
    have hbody := (hvalue.append_gap (gap_of_whitespace hafter)).gap_append (gap_of_whitespace hbefore')
    exact ⟨_, .text (gap_of_whitespace hbefore) hname ((hbody.byte (by decide)).gap_append (gap_of_whitespace hgap))⟩
  | member hbefore hname hgap hbefore' _ hafter _ ih ihrest =>
    obtain ⟨sources, hvalue⟩ := ih
    obtain ⟨others, hrest⟩ := ihrest
    rw [Phrase.texts, memberTexts]
    have hbody := (hvalue.append ((hrest.byte (c := 44) (by decide)).gap_append (gap_of_whitespace hafter))).gap_append
      (gap_of_whitespace hbefore')
    exact ⟨_, .text (gap_of_whitespace hbefore) hname ((hbody.byte (by decide)).gap_append (gap_of_whitespace hgap))⟩

/-- A document that is accepted has its texts between quotes, each in a spelling that denotes it. -/
theorem parseJson_spelled (h : parseJson doc maxDepth = .ok value) : Spelled doc (spellings doc) value.texts := by
  obtain ⟨before, body, after, rfl, hbefore, hafter, hvalue⟩ := parseJson_iff.mp h
  obtain ⟨sources, hbody⟩ := hvalue.spelled
  have hdoc := (hbody.append_gap (gap_of_whitespace hafter)).gap_append (gap_of_whitespace hbefore)
  rw [hdoc.spellings]
  exact hdoc

end Documents

end LatencyObservatory.Core
