import LatencyObservatory.Core.JsonText

/-!
# Trees are read back

The text of a tree is derived by the grammar, in both modes and at every depth, so that `parse_json` gives back the
tree that was written. In the compact mode the text has no control character.
-/

namespace LatencyObservatory.Core

open JsonGrammar

/-! ### Trees -/

namespace JsonValue

mutual

/-- Numbers fit into 64 bits and no object has a name twice. -/
def WellFormed : JsonValue → Prop
  | .null => True
  | .bool _ => True
  | .number value => Representable value
  | .string _ => True
  | .array items => ItemsWellFormed items
  | .object members => (members.map Prod.fst).Nodup ∧ MembersWellFormed members

def ItemsWellFormed : List JsonValue → Prop
  | [] => True
  | item :: items => item.WellFormed ∧ ItemsWellFormed items

def MembersWellFormed : List (Bytes × JsonValue) → Prop
  | [] => True
  | (_, value) :: members => value.WellFormed ∧ MembersWellFormed members

end

mutual

/-- How many levels stand below a value. -/
def nesting : JsonValue → Nat
  | .null => 0
  | .bool _ => 0
  | .number _ => 0
  | .string _ => 0
  | .array items => itemsNesting items
  | .object members => membersNesting members

def itemsNesting : List JsonValue → Nat
  | [] => 0
  | item :: items => max (item.nesting + 1) (itemsNesting items)

def membersNesting : List (Bytes × JsonValue) → Nat
  | [] => 0
  | (_, value) :: members => max (value.nesting + 1) (membersNesting members)

end

end JsonValue

open JsonValue

/-! ### Tokens -/

theorem hexDigit_derives {d : Nat} (h : d < 16) : HexDigit (hexDigit d) d := by
  have hall : ∀ d < 16, StrongId.hexValue (hexDigit d) = some d := by decide
  exact (hexValue_iff _ d).mp (hall d h)

theorem escapeByte_derives (c : UInt8) {source chars : Bytes} (h : Chars source chars) :
    Chars (escapeByte c ++ source) (c :: chars) := by
  unfold escapeByte
  split_ifs with h1 h2 h3 h4 h5 h6 h7 h8
  · exact .short (by rw [h1]; decide) h
  · exact .short (by rw [h2]; decide) h
  · exact .short (by rw [h3]; decide) h
  · exact .short (by rw [h4]; decide) h
  · exact .short (by rw [h5]; decide) h
  · exact .short (by rw [h6]; decide) h
  · exact .short (by rw [h7]; decide) h
  · have hlt : c.toNat < 32 := UInt8.lt_iff_toNat_lt.mp h8
    have hdigits : Hex4 [48, 48, hexDigit (c.toNat / 16), hexDigit (c.toNat % 16)] c.toNat := by
      have hcode : ((0 * 16 + 0) * 16 + c.toNat / 16) * 16 + c.toNat % 16 = c.toNat := by omega
      have hzero : HexDigit 48 0 := @HexDigit.digit 0 (by decide)
      have hall := Hex4.digits hzero hzero (hexDigit_derives (show c.toNat / 16 < 16 by omega))
        (hexDigit_derives (show c.toNat % 16 < 16 by omega))
      rwa [hcode] at hall
    have hutf8 : utf8 c.toNat = [c] := by
      rw [← appendUtf8_eq (Or.inl (by omega)), appendUtf8, if_pos (by omega)]
      exact congrArg (fun c => [c]) UInt8.ofNat_toNat
    have hchars := Chars.unicode hdigits (by unfold HighSurrogate; omega) (by unfold LowSurrogate; omega) h
    rw [hutf8] at hchars
    exact hchars
  · exact .unescaped h8 h1 h2 h

theorem escaped_derives (s : Bytes) : Chars (s.flatMap escapeByte) s := by
  induction s with
  | nil => exact .nil
  | cons c s ih =>
    rw [List.flatMap_cons]
    exact escapeByte_derives c ih

theorem quoted_eq (s : Bytes) : quoted s = 34 :: (s.flatMap escapeByte ++ [34]) := rfl

theorem decimal_derives (n : Nat) : WholeNumber (decimal n) ∧ digitsValue (decimal n) = n := by
  unfold decimal
  by_cases hzero : n = 0
  · rw [if_pos hzero, hzero]
    exact ⟨⟨⟨by decide, List.forall_mem_singleton.mpr (by decide)⟩, by decide⟩, by decide⟩
  · rw [if_neg hzero]
    have hdigit : ∀ d ∈ Nat.digits 10 n, d < 10 := fun d hd => Nat.digits_lt_base (by decide) hd
    have hsome : Nat.digits 10 n ≠ [] := Nat.digits_ne_nil_iff_ne_zero.mpr hzero
    have hvalue : ∀ digits : List Nat, (∀ d ∈ digits, d < 10) →
        digitsValue (digits.reverse.map fun d => UInt8.ofNat (48 + d)) = Nat.ofDigits 10 digits := by
      intro digits
      induction digits with
      | nil => exact fun _ => rfl
      | cons d digits ih =>
        intro hall
        rw [List.forall_mem_cons] at hall
        have hmore := ih hall.2
        have hread : (UInt8.ofNat (48 + d)).toNat = 48 + d := by
          rw [UInt8.toNat_ofNat']
          omega
        unfold digitsValue at hmore ⊢
        rw [List.reverse_cons, List.map_append, List.foldl_append, hmore, Nat.ofDigits_cons, List.map_singleton,
          List.foldl_cons, List.foldl_nil, hread]
        omega
    refine ⟨⟨⟨by simpa using hsome, ?_⟩, ?_⟩, ?_⟩
    · intro c hc
      obtain ⟨d, hd, rfl⟩ := List.mem_map.mp hc
      have hall : ∀ d < 10, isDigit (UInt8.ofNat (48 + d)) = true := by decide
      exact hall d (hdigit d (List.mem_reverse.mp hd))
    · intro hhead
      exfalso
      rw [List.head?_map, List.head?_reverse, List.getLast?_eq_some_getLast hsome, Option.map_some,
        Option.some.injEq] at hhead
      have hall : ∀ d < 10, UInt8.ofNat (48 + d) = 48 → d = 0 := by decide
      exact Nat.getLast_digit_ne_zero 10 hzero (hall _ (hdigit _ (List.getLast_mem hsome)) hhead)
    · rw [hvalue _ hdigit, Nat.ofDigits_digits]

theorem decimalInt_derives {value : Int} (h : Representable value) : Integer (decimalInt value) value := by
  obtain ⟨hwhole, hvalue⟩ := decimal_derives value.natAbs
  refine ⟨?_, h⟩
  unfold decimalInt
  split_ifs with hneg
  · have hsigned := Signed.minus hwhole
    rwa [hvalue, show -(value.natAbs : Int) = value by omega] at hsigned
  · have hsigned := Signed.plus hwhole
    rwa [hvalue, show (value.natAbs : Int) = value by omega] at hsigned

theorem newLine_whitespace (pretty : Bool) (depth : Nat) : Whitespace (newLine pretty depth) := by
  intro c hc
  cases pretty
  · exact absurd hc List.not_mem_nil
  · rcases List.mem_cons.mp hc with rfl | hspace
    · tauto
    · rw [List.eq_of_mem_replicate hspace]
      tauto

theorem space_whitespace (pretty : Bool) : Whitespace (if pretty then [32] else []) := by
  intro c hc
  cases pretty
  · exact absurd hc List.not_mem_nil
  · rw [List.mem_singleton.mp hc]
    exact Or.inl rfl

/-! ### Trees in the grammar -/

mutual

theorem render_derives (pretty : Bool) : ∀ (value : JsonValue) (depth room : Nat), value.WellFormed →
    value.nesting ≤ room → Derives Integer room (.value value) (render pretty depth value)
  | .null, _, _, _, _ => by
    rw [render]
    exact .null
  | .bool _, _, _, _, _ => by
    rw [render]
    exact .bool
  | .number value, _, _, h, _ => by
    rw [render]
    rw [WellFormed] at h
    exact .number (decimalInt_derives h)
  | .string chars, _, _, _, _ => by
    rw [render, quoted_eq]
    exact .string (escaped_derives chars)
  | .array [], depth, room, _, _ => by
    rw [render, renderItems]
    exact .emptyArray (List.forall_mem_nil _)
  | .array (item :: items), depth, room, h, hnesting => by
    rw [WellFormed] at h
    rw [nesting, itemsNesting] at hnesting
    obtain ⟨less, rfl⟩ : ∃ less, room = less + 1 := ⟨room - 1, by omega⟩
    rw [render, List.isEmpty_cons, if_neg (by decide), ← List.append_assoc]
    refine .array (renderItems_derives pretty (item :: items) (depth + 1) less (List.cons_ne_nil _ _) h ?_
      (newLine_whitespace pretty depth))
    rw [itemsNesting]
    exact hnesting
  | .object [], depth, room, _, _ => by
    rw [render, renderMembers]
    exact .emptyObject (List.forall_mem_nil _)
  | .object (member :: members), depth, room, h, hnesting => by
    rw [WellFormed] at h
    rw [nesting, membersNesting] at hnesting
    obtain ⟨less, rfl⟩ : ∃ less, room = less + 1 := ⟨room - 1, by omega⟩
    rw [render, List.isEmpty_cons, if_neg (by decide), ← List.append_assoc]
    refine .object
      (renderMembers_derives pretty (member :: members) (depth + 1) less (List.cons_ne_nil _ _) h.2 ?_
        (newLine_whitespace pretty depth)) h.1
    rw [membersNesting]
    exact hnesting

theorem renderItems_derives (pretty : Bool) : ∀ (items : List JsonValue) (depth room : Nat), items ≠ [] →
    ItemsWellFormed items → itemsNesting items ≤ room + 1 → ∀ {last : Bytes}, Whitespace last →
      Derives Integer room (.items items) (renderItems pretty depth true items ++ last)
  | [], _, _, hsome, _, _, _, _ => absurd rfl hsome
  | [item], depth, room, _, h, hnesting, last, hlast => by
    rw [ItemsWellFormed] at h
    rw [itemsNesting] at hnesting
    have hitem := render_derives pretty item depth room h.1 (by omega)
    simp only [renderItems, comma, if_true, List.nil_append, List.append_nil, List.append_assoc]
    exact .lastItem (newLine_whitespace pretty depth) hitem hlast
  | item :: next :: items, depth, room, _, h, hnesting, last, hlast => by
    rw [ItemsWellFormed] at h
    rw [itemsNesting] at hnesting
    have hitem := render_derives pretty item depth room h.1 (by omega)
    have hmore := renderItems_derives pretty (next :: items) depth room (List.cons_ne_nil _ _) h.2 (by omega) hlast
    have hall := Derives.item (newLine_whitespace pretty depth) hitem (List.forall_mem_nil _) hmore
    simp only [renderItems, comma, if_true, List.nil_append, List.append_assoc] at hall ⊢
    exact hall

theorem renderMembers_derives (pretty : Bool) : ∀ (members : List (Bytes × JsonValue)) (depth room : Nat),
    members ≠ [] → MembersWellFormed members → membersNesting members ≤ room + 1 →
      ∀ {last : Bytes}, Whitespace last →
        Derives Integer room (.members members) (renderMembers pretty depth true members ++ last)
  | [], _, _, hsome, _, _, _, _ => absurd rfl hsome
  | [(name, value)], depth, room, _, h, hnesting, last, hlast => by
    rw [MembersWellFormed] at h
    rw [membersNesting] at hnesting
    have hvalue := render_derives pretty value depth room h.1 (by omega)
    have hall := Derives.lastMember (newLine_whitespace pretty depth) (escaped_derives name) (List.forall_mem_nil _)
      (space_whitespace pretty) hvalue hlast
    simp only [renderMembers, comma, quoted_eq, if_true, List.nil_append, List.append_nil, List.append_assoc,
      List.cons_append] at hall ⊢
    exact hall
  | (name, value) :: next :: members, depth, room, _, h, hnesting, last, hlast => by
    rw [MembersWellFormed] at h
    rw [membersNesting] at hnesting
    have hvalue := render_derives pretty value depth room h.1 (by omega)
    have hmore := renderMembers_derives pretty (next :: members) depth room (List.cons_ne_nil _ _) h.2 (by omega) hlast
    have hall := Derives.member (newLine_whitespace pretty depth) (escaped_derives name) (List.forall_mem_nil _)
      (space_whitespace pretty) hvalue (List.forall_mem_nil _) hmore
    simp only [renderMembers, comma, quoted_eq, if_true, List.nil_append, List.append_assoc, List.cons_append] at hall ⊢
    exact hall

end

/-! ### The compact mode -/

/-- No byte of a text is a control character. -/
def Printable (bytes : Bytes) : Prop :=
  ∀ c ∈ bytes, ¬c < 32

instance (bytes : Bytes) : Decidable (Printable bytes) :=
  List.decidableBAll (fun c => ¬c < 32) bytes

theorem printable_append {bytes more : Bytes} : Printable (bytes ++ more) ↔ Printable bytes ∧ Printable more :=
  List.forall_mem_append

theorem printable_cons {c : UInt8} {bytes : Bytes} : Printable (c :: bytes) ↔ ¬c < 32 ∧ Printable bytes :=
  List.forall_mem_cons

theorem printable_nil : Printable [] :=
  List.forall_mem_nil _

theorem printable_escapeByte (c : UInt8) : Printable (escapeByte c) := by
  have hdigit : ∀ d < 16, ¬hexDigit d < 32 := by decide
  unfold escapeByte
  split_ifs with h1 h2 h3 h4 h5 h6 h7 h8
  · decide
  · decide
  · decide
  · decide
  · decide
  · decide
  · decide
  · have hlt : c.toNat < 32 := UInt8.lt_iff_toNat_lt.mp h8
    simp only [printable_cons]
    exact ⟨by decide, by decide, by decide, by decide, hdigit _ (by omega), hdigit _ (by omega), printable_nil⟩
  · exact printable_cons.mpr ⟨h8, printable_nil⟩

theorem printable_quoted (s : Bytes) : Printable (quoted s) := by
  rw [quoted_eq, printable_cons, printable_append]
  refine ⟨by decide, ?_, by decide⟩
  intro c hc
  obtain ⟨byte, -, hbyte⟩ := List.mem_flatMap.mp hc
  exact printable_escapeByte byte c hbyte

theorem printable_decimalInt (value : Int) : Printable (decimalInt value) := by
  have hdigits : Printable (decimal value.natAbs) := by
    intro c hc hlt
    have hdigit := (decimal_derives value.natAbs).1.1.2 c hc
    simp only [isDigit, Bool.and_eq_true, decide_eq_true_eq] at hdigit
    exact absurd (UInt8.lt_of_le_of_lt hdigit.1 hlt) (by decide)
  unfold decimalInt
  split_ifs
  · exact printable_cons.mpr ⟨by decide, hdigits⟩
  · exact hdigits

mutual

theorem printable_render : ∀ (value : JsonValue) (depth : Nat), Printable (render false depth value)
  | .null, _ => by
    rw [render]
    decide
  | .bool value, _ => by
    rw [render]
    cases value <;> decide
  | .number value, _ => by
    rw [render]
    exact printable_decimalInt value
  | .string chars, _ => by
    rw [render]
    exact printable_quoted chars
  | .array items, depth => by
    have hitems := printable_renderItems items (depth + 1) true
    have hline : Printable (if items.isEmpty then [] else newLine false depth) := by
      split_ifs <;> exact printable_nil
    rw [render, printable_cons, printable_append, printable_append]
    exact ⟨by decide, hitems, hline, by decide⟩
  | .object members, depth => by
    have hmembers := printable_renderMembers members (depth + 1) true
    have hline : Printable (if members.isEmpty then [] else newLine false depth) := by
      split_ifs <;> exact printable_nil
    rw [render, printable_cons, printable_append, printable_append]
    exact ⟨by decide, hmembers, hline, by decide⟩

theorem printable_renderItems : ∀ (items : List JsonValue) (depth : Nat) (first : Bool),
    Printable (renderItems false depth first items)
  | [], _, _ => by
    rw [renderItems]
    exact printable_nil
  | item :: items, depth, first => by
    have hitem := printable_render item depth
    have hmore := printable_renderItems items depth false
    have hcomma : Printable (comma first) := by
      cases first <;> decide
    rw [renderItems, printable_append, printable_append, printable_append]
    exact ⟨hcomma, printable_nil, hitem, hmore⟩

theorem printable_renderMembers : ∀ (members : List (Bytes × JsonValue)) (depth : Nat) (first : Bool),
    Printable (renderMembers false depth first members)
  | [], _, _ => by
    rw [renderMembers]
    exact printable_nil
  | (name, value) :: members, depth, first => by
    have hvalue := printable_render value depth
    have hmore := printable_renderMembers members depth false
    have hcomma : Printable (comma first) := by
      cases first <;> decide
    rw [renderMembers, printable_append, printable_append, printable_append, printable_cons, printable_append,
      printable_append]
    exact ⟨hcomma, printable_nil, printable_quoted name, by decide, printable_nil, hvalue, hmore⟩

end

/-! ### The round trip -/

theorem parse_written {value : JsonValue} (h : value.WellFormed) {maxDepth : Nat} (hnesting : value.nesting ≤ maxDepth)
    (pretty : Bool) : parseJson (value.write pretty) maxDepth = .ok value := by
  have hbody := render_derives pretty value 0 maxDepth h hnesting
  have hdocument : Document Integer maxDepth (value.write pretty) value :=
    ⟨[], _, [], by rw [write_eq, List.nil_append, List.append_nil], List.forall_mem_nil _, List.forall_mem_nil _, hbody⟩
  exact parseJson_iff.mpr (document_integer_iff.mp hdocument).1

/-- Every tree survives its text, and a compact text stays on its line. -/
theorem json_roundTrip (value : JsonValue) (maxDepth : Nat) (h : value.WellFormed)
    (hnesting : value.nesting ≤ maxDepth) :
    (∀ pretty, parseJson (value.write pretty) maxDepth = .ok value) ∧ ∀ c ∈ value.write false, ¬c < 0x20 := by
  refine ⟨parse_written h hnesting, ?_⟩
  rw [write_eq]
  exact printable_render value 0

/-- A tree with a quote, a control character and an empty container. -/
def sampleTree : JsonValue :=
  .object [(text "a\"b", .array [.number (-7), .array []]), ([1], .bool true)]

theorem json_roundTrip_sample :
    (∀ pretty, parseJson (sampleTree.write pretty) 2 = .ok sampleTree) ∧ ∀ c ∈ sampleTree.write false, ¬c < 0x20 := by
  refine json_roundTrip sampleTree 2 ?_ ?_
  · refine ⟨by decide, ⟨?_, trivial, trivial⟩, trivial, trivial⟩
    show Representable (-7)
    decide
  · decide

end LatencyObservatory.Core
