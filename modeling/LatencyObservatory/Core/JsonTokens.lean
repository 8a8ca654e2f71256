import LatencyObservatory.Core.JsonGrammar
import LatencyObservatory.Core.JsonRead

/-!
# The tokens of the JSON parser

White space, strings and numbers: what a scanner has read is derived by its production, and what a production
derives is read as far as it goes.
-/

namespace LatencyObservatory.Core

open JsonValue JsonGrammar

/-! ### White space -/

theorem isWs_iff (c : UInt8) : isWs c = true ↔ c = 32 ∨ c = 9 ∨ c = 10 ∨ c = 13 := by
  simp only [isWs, Bool.or_eq_true, beq_iff_eq, or_assoc]

theorem skipWs_split (rest : Bytes) : ∃ gap, rest = gap ++ skipWs rest ∧ Whitespace gap := by
  obtain ⟨gap, hsplit, hgap⟩ := skipWs_read rest
  exact ⟨gap, hsplit, fun c hc => (isWs_iff c).mp (hgap c hc)⟩

theorem skipWs_append {gap : Bytes} (h : Whitespace gap) {c : UInt8} (hc : isWs c = false) (rest : Bytes) :
    skipWs (gap ++ c :: rest) = c :: rest := by
  unfold skipWs
  rw [List.dropWhile_append_of_pos fun c hc => (isWs_iff c).mpr (h c hc), List.dropWhile_cons_of_neg (by simp [hc])]

theorem skipWs_all {gap : Bytes} (h : Whitespace gap) : skipWs gap = [] := by
  unfold skipWs
  rw [List.dropWhile_eq_nil_iff]
  exact fun c hc => (isWs_iff c).mpr (h c hc)

/-! ### Hexadecimal digits -/

theorem hexValue_iff (c : UInt8) (d : Nat) : StrongId.hexValue c = some d ↔ HexDigit c d := by
  constructor
  · intro h
    unfold StrongId.hexValue at h
    simp only [Bool.and_eq_true, decide_eq_true_eq, UInt8.le_iff_toNat_le] at h
    have hdigit : (48 : UInt8).toNat = 48 ∧ (57 : UInt8).toNat = 57 := ⟨rfl, rfl⟩
    have hlower : (97 : UInt8).toNat = 97 ∧ (102 : UInt8).toNat = 102 := ⟨rfl, rfl⟩
    have hupper : (65 : UInt8).toNat = 65 ∧ (70 : UInt8).toNat = 70 := ⟨rfl, rfl⟩
    have hread : ∀ base d, c.toNat = base + d → c = UInt8.ofNat (base + d) := by
      intro base d hd
      rw [← hd, UInt8.ofNat_toNat]
    split_ifs at h with h1 h2 h3
    · cases h
      obtain ⟨d, hd⟩ : ∃ d, c.toNat = 48 + d := ⟨c.toNat - 48, by omega⟩
      rw [hd, Nat.add_sub_cancel_left, hread 48 d hd]
      exact .digit (by omega)
    · cases h
      obtain ⟨d, hd⟩ : ∃ d, c.toNat = 97 + d := ⟨c.toNat - 97, by omega⟩
      rw [hd, Nat.add_sub_cancel_left, hread 97 d hd, Nat.add_comm d]
      exact .lower (by omega)
    · cases h
      obtain ⟨d, hd⟩ : ∃ d, c.toNat = 65 + d := ⟨c.toNat - 65, by omega⟩
      rw [hd, Nat.add_sub_cancel_left, hread 65 d hd, Nat.add_comm d]
      exact .upper (by omega)
  · intro h
    cases h with
    | @digit d h =>
      have hall : ∀ d < 10, StrongId.hexValue (UInt8.ofNat (48 + d)) = some d := by decide
      exact hall d h
    | @lower d h =>
      have hall : ∀ d < 6, StrongId.hexValue (UInt8.ofNat (97 + d)) = some (10 + d) := by decide
      exact hall d h
    | @upper d h =>
      have hall : ∀ d < 6, StrongId.hexValue (UInt8.ofNat (65 + d)) = some (10 + d) := by decide
      exact hall d h

theorem parseHexDigits_cons {c : UInt8} {rest : Bytes} {value n : Nat} :
    StrongId.parseHexDigits (c :: rest) value = some n ↔
      ∃ d, HexDigit c d ∧ StrongId.parseHexDigits rest (value * 16 + d) = some n := by
  rw [StrongId.parseHexDigits]
  cases hfound : StrongId.hexValue c with
  | none =>
    simp only [reduceCtorEq, false_iff, not_exists, not_and]
    intro d hd
    rw [← hexValue_iff, hfound] at hd
    cases hd
  | some d =>
    have hd := (hexValue_iff c d).mp hfound
    constructor
    · intro h
      exact ⟨d, hd, h⟩
    · rintro ⟨d', hd', h⟩
      rw [← hexValue_iff, hfound, Option.some.injEq] at hd'
      rw [hd']
      exact h

theorem parseHex4_iff {rest : Bytes} {code : Nat} :
    parseHex4 rest = some code ↔ ∃ digits, rest = digits ++ rest.drop 4 ∧ Hex4 digits code := by
  unfold parseHex4
  constructor
  · intro h
    split_ifs at h with hlength
    match rest, hlength, h with
    | a :: b :: c :: d :: rest, _, h =>
      simp only [List.take_succ_cons, List.take_zero, parseHexDigits_cons] at h
      obtain ⟨i, hi, j, hj, k, hk, l, hl, hcode⟩ := h
      simp only [StrongId.parseHexDigits, Option.some.injEq, Nat.zero_mul, Nat.zero_add] at hcode
      subst hcode
      exact ⟨[a, b, c, d], rfl, .digits hi hj hk hl⟩
    | [], hlength, _ => exact absurd (by decide) hlength
    | [_], hlength, _ => exact absurd (by simp) hlength
    | [_, _], hlength, _ => exact absurd (by simp) hlength
    | [_, _, _], hlength, _ => exact absurd (by simp) hlength
  · rintro ⟨digits, hsplit, hdigits⟩
    cases hdigits with
    | @digits a b c d i j k l ha hb hc hd =>
      rw [hsplit]
      simp only [List.cons_append, List.nil_append, List.length_cons, List.take_succ_cons, List.take_zero]
      rw [if_neg (by omega)]
      simp only [parseHexDigits_cons]
      exact ⟨i, ha, j, hb, k, hc, l, hd, by simp [StrongId.parseHexDigits]⟩

theorem JsonGrammar.Hex4.length {digits : Bytes} {code : Nat} (h : Hex4 digits code) : digits.length = 4 := by
  cases h
  rfl

theorem JsonGrammar.Hex4.code_lt {digits : Bytes} {code : Nat} (h : Hex4 digits code) : code < 0x10000 := by
  have hdigit : ∀ {c : UInt8} {d : Nat}, HexDigit c d → d < 16 := by
    intro c d hd
    cases hd <;> omega
  cases h with
  | digits ha hb hc hd =>
    have hi := hdigit ha
    have hj := hdigit hb
    have hk := hdigit hc
    have hl := hdigit hd
    omega

theorem appendUtf8_eq {code : Nat} (h : code < 0xD800 ∨ 0xDFFF < code ∧ code < 0x110000) :
    appendUtf8 code = utf8 code := by
  have hvalid : code.isValidChar := by
    unfold Nat.isValidChar
    omega
  have hval : (Char.ofNat code).val.toNat = code := by
    rw [Char.ofNat, dif_pos hvalid]
    rfl
  unfold appendUtf8 utf8 String.utf8EncodeChar
  rw [hval]
  simp only
  split_ifs
  · rfl
  · rw [Nat.mod_eq_of_lt (show code / 64 < 32 by omega), Nat.add_comm 0xC0, Nat.add_comm 0x80]
  · rw [Nat.mod_eq_of_lt (show code / 4096 < 16 by omega), Nat.add_comm 0xE0, Nat.add_comm 0x80, Nat.add_comm 0x80]
  · rw [Nat.mod_eq_of_lt (show code / 262144 < 8 by omega), Nat.add_comm 0xF0, Nat.add_comm 0x80, Nat.add_comm 0x80,
      Nat.add_comm 0x80]

/-! ### Strings -/

section Strings

variable {doc rest after chars : Bytes}

theorem parseHex4_append {digits : Bytes} {code : Nat} (h : Hex4 digits code) (rest : Bytes) :
    parseHex4 (digits ++ rest) = some code ∧ (digits ++ rest).drop 4 = rest := by
  have hdrop : (digits ++ rest).drop 4 = rest := by
    rw [← h.length, List.drop_left]
  refine ⟨parseHex4_iff.mpr ⟨digits, ?_, h⟩, hdrop⟩
  rw [hdrop]

theorem appendUtf8_pair {high low : Nat} (hhigh : HighSurrogate high) (hlow : LowSurrogate low) :
    appendUtf8 (0x10000 + (high - 0xD800) * 1024 + (low - 0xDC00)) = utf8 (pairCode high low) := by
  unfold HighSurrogate LowSurrogate at *
  unfold pairCode
  generalize hcode : 0x10000 + (high - 0xD800) * 1024 + (low - 0xDC00) = code
  apply appendUtf8_eq
  omega

theorem appendUtf8_scalar {digits : Bytes} {code : Nat} (h : Hex4 digits code) (hhigh : ¬HighSurrogate code)
    (hlow : ¬LowSurrogate code) : appendUtf8 code = utf8 code := by
  have hlt := h.code_lt
  unfold HighSurrogate LowSurrogate at *
  apply appendUtf8_eq
  omega

theorem parseLowSurrogate_iff {high : Nat} (hhigh : HighSurrogate high) :
    parseLowSurrogate doc high rest = .ok (chars, after) ↔ ∃ digits low, rest = 92 :: 117 :: (digits ++ after) ∧
      Hex4 digits low ∧ LowSurrogate low ∧ chars = utf8 (pairCode high low) := by
  constructor
  · intro h
    unfold parseLowSurrogate at h
    split at h
    · rename_i rest
      split at h
      · cases h
      · rename_i low hlow
        obtain ⟨digits, hsplit, hdigits⟩ := parseHex4_iff.mp hlow
        split_ifs at h with hrange
        simp only [Except.ok.injEq, Prod.mk.injEq] at h
        obtain ⟨hchars, hafter⟩ := h
        have hlowRange : LowSurrogate low := by
          unfold LowSurrogate
          omega
        rw [appendUtf8_pair hhigh hlowRange] at hchars
        rw [hafter] at hsplit
        exact ⟨digits, low, congrArg (92 :: 117 :: ·) hsplit, hdigits, hlowRange, hchars.symm⟩
    · cases h
  · rintro ⟨digits, low, hrest, hdigits, hlow, hchars⟩
    rw [hrest, hchars]
    obtain ⟨hcode, hdrop⟩ := parseHex4_append hdigits after
    unfold parseLowSurrogate
    simp only [hcode, hdrop]
    rw [if_neg (by unfold LowSurrogate at hlow; omega), appendUtf8_pair hhigh hlow]

theorem parseUnicode_sound (h : parseUnicode doc rest = .ok (chars, after)) :
    ∃ escape, rest = escape ++ after ∧
      ∀ source more, Chars source more → Chars (92 :: 117 :: (escape ++ source)) (chars ++ more) := by
  unfold parseUnicode at h
  split at h
  · cases h
  · rename_i code hcode
    obtain ⟨digits, hsplit, hdigits⟩ := parseHex4_iff.mp hcode
    change (if HighSurrogate code then _ else if LowSurrogate code then _ else _) = _ at h
    by_cases hhigh : HighSurrogate code
    · rw [if_pos hhigh, parseLowSurrogate_iff hhigh] at h
      obtain ⟨digits', low, hrest, hdigits', hlow, hchars⟩ := h
      refine ⟨digits ++ 92 :: 117 :: digits', ?_, ?_⟩
      · rw [hsplit, hrest]
        simp
      · intro source more hmore
        rw [hchars, List.append_assoc, List.cons_append, List.cons_append]
        exact .pair hdigits hhigh hdigits' hlow hmore
    · rw [if_neg hhigh] at h
      by_cases hlow : LowSurrogate code
      · rw [if_pos hlow] at h
        cases h
      · rw [if_neg hlow] at h
        cases h
        refine ⟨digits, hsplit, ?_⟩
        intro source more hmore
        rw [appendUtf8_scalar hdigits hhigh hlow]
        exact .unicode hdigits hhigh hlow hmore

theorem parseEscape_sound (h : parseEscape doc rest = .ok (chars, after)) :
    ∃ escape, rest = escape ++ after ∧
      ∀ source more, Chars source more → Chars (92 :: (escape ++ source)) (chars ++ more) := by
  unfold parseEscape at h
  split at h
  · cases h
  · rename_i letter tail
    have hshort : ∀ c, (letter, c) ∈ shortEscapes → (.ok ([c], tail) : Except Error (Bytes × Bytes)) = .ok (chars, after) →
        ∃ escape, letter :: tail = escape ++ after ∧
          ∀ source more, Chars source more → Chars (92 :: (escape ++ source)) (chars ++ more) := by
      intro c hc hread
      cases hread
      exact ⟨[letter], rfl, fun source more hmore => .short hc hmore⟩
    split_ifs at h with h1 h2 h3 h4 h5 h6 h7 h8 h9
    · exact hshort 34 (by rw [h1]; decide) h
    · exact hshort 92 (by rw [h2]; decide) h
    · exact hshort 47 (by rw [h3]; decide) h
    · exact hshort 8 (by rw [h4]; decide) h
    · exact hshort 12 (by rw [h5]; decide) h
    · exact hshort 10 (by rw [h6]; decide) h
    · exact hshort 13 (by rw [h7]; decide) h
    · exact hshort 9 (by rw [h8]; decide) h
    · obtain ⟨escape, hsplit, hescape⟩ := parseUnicode_sound h
      rw [h9]
      exact ⟨117 :: escape, congrArg (117 :: ·) hsplit, hescape⟩

theorem parseChars_sound {fuel : Nat} (h : parseChars doc fuel rest = .ok (chars, after)) :
    ∃ source, rest = source ++ 34 :: after ∧ Chars source chars := by
  induction fuel generalizing rest chars with
  | zero => cases h
  | succ fuel ih =>
    cases rest with
    | nil => cases h
    | cons c rest =>
      rw [parseChars] at h
      by_cases hquote : c = 34
      · rw [if_pos hquote] at h
        cases h
        exact ⟨[], congrArg (· :: after) hquote, .nil⟩
      · rw [if_neg hquote] at h
        by_cases hcontrol : c < 32
        · rw [if_pos hcontrol] at h
          cases h
        · rw [if_neg hcontrol] at h
          by_cases hescape : c = 92
          · rw [if_neg (not_not.mpr hescape)] at h
            cases hread : parseEscape doc rest with
            | error e =>
              rw [hread] at h
              cases h
            | ok found =>
              obtain ⟨bytes, last⟩ := found
              rw [hread] at h
              cases hmore : parseChars doc fuel last with
              | error e =>
                simp only [hmore] at h
                cases h
              | ok parsed =>
                simp only [hmore] at h
                cases h
                obtain ⟨escape, hsplit, hbefore⟩ := parseEscape_sound hread
                obtain ⟨source, hrest, hchars⟩ := ih hmore
                refine ⟨92 :: (escape ++ source), ?_, hbefore source _ hchars⟩
                rw [hescape, hsplit, hrest]
                simp
          · rw [if_pos hescape] at h
            cases hmore : parseChars doc fuel rest with
            | error e =>
              rw [hmore] at h
              cases h
            | ok parsed =>
              rw [hmore] at h
              cases h
              obtain ⟨source, hrest, hchars⟩ := ih hmore
              exact ⟨c :: source, congrArg (c :: ·) hrest, .unescaped hcontrol hquote hescape hchars⟩

theorem parseChars_complete {source : Bytes} (h : Chars source chars) {fuel : Nat} (hfuel : source.length < fuel)
    (after : Bytes) : parseChars doc fuel (source ++ 34 :: after) = .ok (chars, after) := by
  induction h generalizing fuel with
  | nil =>
    obtain ⟨fuel, rfl⟩ := Nat.exists_eq_add_of_lt hfuel
    rfl
  | @unescaped c source chars hcontrol hquote hescape hrest ih =>
    obtain ⟨fuel, rfl⟩ := Nat.exists_eq_add_of_lt hfuel
    have hmore := @ih (source.length + 1 + fuel) (by omega)
    rw [List.length_cons, show source.length + 1 + fuel + 1 = (source.length + 1 + fuel) + 1 from rfl, List.cons_append,
      parseChars, if_neg hquote, if_neg hcontrol, if_pos hescape, hmore]
    rfl
  | @short letter c source chars hescape hrest ih =>
    rw [List.length_cons, List.length_cons] at hfuel
    obtain ⟨fuel, rfl⟩ := Nat.exists_eq_add_of_lt hfuel
    have hmore := @ih (source.length + 1 + 1 + fuel) (by omega)
    have hread : parseEscape doc (letter :: (source ++ 34 :: after)) = .ok ([c], source ++ 34 :: after) := by
      simp only [shortEscapes, List.mem_cons, Prod.mk.injEq, List.not_mem_nil, or_false] at hescape
      rcases hescape with ⟨rfl, rfl⟩ | ⟨rfl, rfl⟩ | ⟨rfl, rfl⟩ | ⟨rfl, rfl⟩ | ⟨rfl, rfl⟩ | ⟨rfl, rfl⟩ | ⟨rfl, rfl⟩ |
        ⟨rfl, rfl⟩ <;> rfl
    rw [List.cons_append, List.cons_append, parseChars, if_neg (by decide), if_neg (by decide), if_neg (by decide),
      hread]
    simp only [hmore]
    rfl
  | @unicode digits source chars code hdigits hhigh hlow hrest ih =>
    rw [List.length_cons, List.length_cons, List.length_append] at hfuel
    obtain ⟨fuel, rfl⟩ := Nat.exists_eq_add_of_lt hfuel
    have hmore := @ih (digits.length + source.length + 1 + 1 + fuel) (by omega)
    obtain ⟨hcode, hdrop⟩ := parseHex4_append hdigits (source ++ 34 :: after)
    have hread : parseEscape doc (117 :: (digits ++ (source ++ 34 :: after))) =
        .ok (utf8 code, source ++ 34 :: after) := by
      show parseUnicode doc _ = _
      unfold parseUnicode
      simp only [hcode, hdrop]
      change (if HighSurrogate code then _ else if LowSurrogate code then _ else _) = _
      rw [if_neg hhigh, if_neg hlow, appendUtf8_scalar hdigits hhigh hlow]
    rw [List.cons_append, List.cons_append, List.append_assoc, parseChars, if_neg (by decide), if_neg (by decide),
      if_neg (by decide), hread]
    simp only [hmore]
    rfl
  | @pair digits digits' source chars high low hdigits hhigh hdigits' hlow hrest ih =>
    simp only [List.length_cons, List.length_append] at hfuel
    obtain ⟨fuel, rfl⟩ := Nat.exists_eq_add_of_lt hfuel
    have hmore := @ih (digits.length + (digits'.length + source.length + 1 + 1) + 1 + 1 + fuel) (by omega)
    obtain ⟨hcode, hdrop⟩ := parseHex4_append hdigits (92 :: 117 :: (digits' ++ (source ++ 34 :: after)))
    have hread : parseEscape doc (117 :: (digits ++ (92 :: 117 :: (digits' ++ (source ++ 34 :: after))))) =
        .ok (utf8 (pairCode high low), source ++ 34 :: after) := by
      show parseUnicode doc _ = _
      unfold parseUnicode
      simp only [hcode, hdrop]
      change (if HighSurrogate high then _ else if LowSurrogate high then _ else _) = _
      rw [if_pos hhigh, parseLowSurrogate_iff hhigh]
      exact ⟨digits', low, rfl, hdigits', hlow, rfl⟩
    simp only [List.cons_append, List.append_assoc]
    rw [parseChars, if_neg (by decide), if_neg (by decide), if_neg (by decide), hread]
    simp only [hmore]
    rfl

theorem parseString_sound (h : parseString doc rest = .ok (chars, after)) :
    ∃ source, rest = source ++ 34 :: after ∧ Chars source chars :=
  parseChars_sound h

theorem parseString_complete {source : Bytes} (h : Chars source chars) (after : Bytes) :
    parseString doc (source ++ 34 :: after) = .ok (chars, after) := by
  apply parseChars_complete h
  rw [List.length_append]
  omega

end Strings

/-! ### Numbers -/

theorem le_foldl_digits (digits : Bytes) (value : Nat) :
    value ≤ digits.foldl (fun value c => value * 10 + (c.toNat - 48)) value := by
  induction digits generalizing value with
  | nil => exact Nat.le_refl _
  | cons c rest ih =>
    rw [List.foldl_cons]
    have hrest := ih (value * 10 + (c.toNat - 48))
    omega

theorem parseDigits_iff {digits : Bytes} (h : ∀ c ∈ digits, isDigit c = true) {value : Nat} (hvalue : value < 2 ^ 64)
    (n : Nat) : parseDigits value digits = some n ↔
      n = digits.foldl (fun value c => value * 10 + (c.toNat - 48)) value ∧ n < 2 ^ 64 := by
  induction digits generalizing value with
  | nil =>
    simp only [parseDigits, Option.some.injEq, List.foldl_nil]
    omega
  | cons c rest ih =>
    rw [List.forall_mem_cons] at h
    have hdigit := h.1
    simp only [isDigit, Bool.and_eq_true, decide_eq_true_eq, UInt8.le_iff_toNat_le] at hdigit
    have hlow : (48 : UInt8).toNat = 48 := rfl
    have hhigh : (57 : UInt8).toNat = 57 := rfl
    rw [parseDigits, if_neg (by rw [UInt8.lt_iff_toNat_lt, UInt8.lt_iff_toNat_lt]; omega), List.foldl_cons]
    by_cases hover : value > (2 ^ 64 - 1 - (c.toNat - 48)) / 10
    · rw [if_pos hover]
      have hgrows := le_foldl_digits rest (value * 10 + (c.toNat - 48))
      simp only [reduceCtorEq, false_iff, not_and]
      omega
    · rw [if_neg hover, ih h.2 (by omega)]

theorem parseI64_iff {digits literal : Bytes} (h : Digits digits) (hliteral : literal = digits ∨ literal = 45 :: digits)
    (value : Int) : parseI64 literal = some value ↔ Signed Digits literal value ∧ Representable value := by
  obtain ⟨hsome, hdigits⟩ := h
  have hfirst : ∀ {c : UInt8} {rest : Bytes}, digits = c :: rest → c ≠ 45 ∧ c ≠ 43 := by
    rintro c rest rfl
    have hdigit := hdigits c List.mem_cons_self
    constructor
    · rintro rfl
      exact absurd hdigit (by decide)
    · rintro rfl
      exact absurd hdigit (by decide)
  have hread := parseDigits_iff hdigits (show 0 < 2 ^ 64 by decide)
  have hbind : ∀ (f : Nat → Option Int), (parseDigits 0 digits).bind f = some value ↔
      digitsValue digits < 2 ^ 64 ∧ f (digitsValue digits) = some value := by
    intro f
    rw [Option.bind_eq_some_iff]
    constructor
    · rintro ⟨n, hn, hvalue⟩
      obtain ⟨rfl, hlt⟩ := (hread n).mp hn
      exact ⟨hlt, hvalue⟩
    · rintro ⟨hlt, hvalue⟩
      exact ⟨_, (hread _).mpr ⟨rfl, hlt⟩, hvalue⟩
  rcases hliteral with rfl | rfl
  · obtain ⟨c, rest, rfl⟩ := List.exists_cons_of_ne_nil hsome
    obtain ⟨hminus, hplus⟩ := hfirst rfl
    have hparse : parseI64 (c :: rest) = (parseDigits 0 (c :: rest)).bind fun magnitude =>
        if magnitude > 2 ^ 63 - 1 then none else some (magnitude : Int) := by
      rw [parseI64, parseU64]
      · exact fun heq => List.cons_ne_nil _ _ heq
      · exact fun cs heq => hplus (List.cons.inj heq).1
      · exact fun heq => List.cons_ne_nil _ _ heq
      · exact fun cs heq => hminus (List.cons.inj heq).1
    rw [hparse, hbind]
    constructor
    · rintro ⟨-, hvalue⟩
      split_ifs at hvalue
      cases hvalue
      exact ⟨.plus ⟨hsome, hdigits⟩, by unfold Representable; omega⟩
    · rintro ⟨hsigned, hrange⟩
      unfold Representable at hrange
      cases hsigned with
      | plus _ => exact ⟨by omega, if_neg (by omega)⟩
      | minus _ => exact absurd rfl hminus
  · have hparse : parseI64 (45 :: digits) = (parseDigits 0 digits).bind fun magnitude =>
        if magnitude > 2 ^ 63 then none else some (-(magnitude : Int)) := by
      rw [parseI64, if_neg (by simpa using hsome)]
    rw [hparse, hbind]
    constructor
    · rintro ⟨-, hvalue⟩
      split_ifs at hvalue
      cases hvalue
      exact ⟨.minus ⟨hsome, hdigits⟩, by unfold Representable; omega⟩
    · rintro ⟨hsigned, hrange⟩
      unfold Representable at hrange
      cases hsigned with
      | plus hwhole => exact absurd (hwhole.2 45 List.mem_cons_self) (by decide)
      | minus _ => exact ⟨by omega, if_neg (by omega)⟩

/-- What may follow a value. -/
def Ends (rest : Bytes) : Prop :=
  ∀ c, rest.head? = some c → isWs c = true ∨ c = 44 ∨ c = 93 ∨ c = 125

theorem Ends.nil : Ends [] := by
  intro c hc
  cases hc

theorem Ends.cons {c : UInt8} (h : isWs c = true ∨ c = 44 ∨ c = 93 ∨ c = 125) (rest : Bytes) : Ends (c :: rest) := by
  intro c' hc'
  cases hc'
  exact h

theorem Ends.append {gap : Bytes} (hgap : Whitespace gap) {rest : Bytes} (hrest : Ends rest) : Ends (gap ++ rest) := by
  cases gap with
  | nil => exact hrest
  | cons c gap => exact Ends.cons (Or.inl ((isWs_iff c).mpr (hgap c List.mem_cons_self))) _

theorem Ends.whitespace {gap : Bytes} (hgap : Whitespace gap) : Ends gap := by
  have hends := Ends.append hgap Ends.nil
  rwa [List.append_nil] at hends

theorem Ends.head {c : UInt8} {rest : Bytes} (h : Ends (c :: rest)) :
    isDigit c = false ∧ c ≠ 46 ∧ c ≠ 101 ∧ c ≠ 69 := by
  rcases h c rfl with hspace | rfl | rfl | rfl
  · rcases (isWs_iff c).mp hspace with rfl | rfl | rfl | rfl <;> decide
  · decide
  · decide
  · decide

section Numbers

variable {doc rest after literal : Bytes} {value : Int}

theorem parseNumber_sound {read : JsonValue} (h : parseNumber doc rest = .ok (read, after)) :
    ∃ literal value, rest = literal ++ after ∧ read = .number value ∧ PaddedInteger literal value := by
  obtain ⟨digits, literal, value, hsplit, hread, hsome, hdigits, hliteral, hshort, hvalue⟩ := parseNumber_read h
  obtain ⟨hsigned, hrange⟩ := (parseI64_iff ⟨hsome, hdigits⟩ hliteral value).mp hvalue
  exact ⟨literal, value, hsplit, hread, hsigned, hrange, hshort⟩

theorem takeWhile_digits {digits : Bytes} (h : ∀ c ∈ digits, isDigit c = true) (hrest : Ends rest) :
    (digits ++ rest).takeWhile isDigit = digits ∧ (digits ++ rest).dropWhile isDigit = rest := by
  rw [List.takeWhile_append_of_pos h, List.dropWhile_append_of_pos h]
  cases rest with
  | nil => exact ⟨List.append_nil _, rfl⟩
  | cons c rest =>
    have hc := hrest.head.1
    rw [List.takeWhile_cons_of_neg (by simp [hc]), List.dropWhile_cons_of_neg (by simp [hc])]
    exact ⟨List.append_nil _, rfl⟩

theorem parseNumber_complete (h : PaddedInteger literal value) (hrest : Ends rest) :
    parseNumber doc (literal ++ rest) = .ok (.number value, rest) := by
  obtain ⟨hsigned, hrange, hshort⟩ := h
  obtain ⟨digits, hdigits, hliteral⟩ : ∃ digits, Digits digits ∧ (literal = digits ∨ literal = 45 :: digits) := by
    cases hsigned with
    | plus hdigits => exact ⟨_, hdigits, Or.inl rfl⟩
    | minus hdigits => exact ⟨_, hdigits, Or.inr rfl⟩
  have hvalue := (parseI64_iff hdigits hliteral value).mpr ⟨hsigned, hrange⟩
  obtain ⟨htake, hdrop⟩ := takeWhile_digits hdigits.2 hrest
  have hrun : parseDigitRun doc "number has no digits" (digits ++ rest) = .ok rest := by
    unfold parseDigitRun
    rw [htake, hdrop, if_neg hdigits.1]
  have hfraction : parseFraction doc rest = .ok (true, rest) := by
    unfold parseFraction
    cases rest with
    | nil => rfl
    | cons c rest =>
      have hdot := hrest.head.2.1
      simp [hdot]
  have hexponent : parseExponent doc rest = .ok (true, rest) := by
    unfold parseExponent
    cases rest with
    | nil => rfl
    | cons c rest =>
      obtain ⟨-, -, hlower, hupper⟩ := hrest.head
      show (if c = 101 ∨ c = 69 then _ else _) = _
      rw [if_neg (not_or.mpr ⟨hlower, hupper⟩)]
  have htaken : (literal ++ rest).take ((literal ++ rest).length - rest.length) = literal := by
    rw [List.length_append, Nat.add_sub_cancel, List.take_left]
  unfold parseNumber
  extract_lets unsigned
  have hunsigned : unsigned = digits ++ rest := by
    rcases hliteral with rfl | rfl
    · obtain ⟨c, tail, rfl⟩ := List.exists_cons_of_ne_nil hdigits.1
      have hminus : c ≠ 45 := by
        rintro rfl
        exact absurd (hdigits.2 45 List.mem_cons_self) (by decide)
      simp [unsigned, hminus]
    · rfl
  rw [hunsigned]
  simp only [hrun, hfraction, hexponent, bind, Except.bind, htaken, hvalue, Bool.and_self, Bool.true_and,
    decide_eq_true_eq, if_pos hshort]

end Numbers

end LatencyObservatory.Core
