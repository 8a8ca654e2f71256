import LatencyObservatory.Core.PolicyText
import LatencyObservatory.Core.UtcText
import LatencyObservatory.Store.Directory

/-!
# The manifest is read back

`StoreReader::open` finds the fields of the manifest by searching for their names, and the integrity check by searching
from the end. None of the searches is misled by what the fields hold, so every manifest that the writer makes passes.
-/

namespace LatencyObservatory.Store
open LatencyObservatory.Core LatencyObservatory.Lib

/-! ### Searches -/

theorem afterFirst_append {c : UInt8} {before : Bytes} (h : c ∉ before) (key rest : Bytes) :
    afterFirst (c :: key) (before ++ rest) = afterFirst (c :: key) rest := by
  induction before with
  | nil => rfl
  | cons b before ih =>
    rw [List.mem_cons, not_or] at h
    have hhead : (c :: key).isPrefixOf (b :: (before ++ rest)) = false := by
      simp [List.isPrefixOf, h.1]
    rw [List.cons_append, afterFirst, hhead, if_neg Bool.false_ne_true, ih h.2]

theorem afterFirst_self (c : UInt8) (key rest : Bytes) : afterFirst (c :: key) (c :: key ++ rest) = some rest := by
  have hhead : (c :: key).isPrefixOf (c :: (key ++ rest)) = true :=
    List.isPrefixOf_iff_prefix.mpr (List.prefix_append (c :: key) rest)
  rw [List.cons_append, afterFirst, hhead, if_pos rfl, List.length_cons, List.drop_succ_cons, List.drop_left]

theorem splitLast_cons (key : Bytes) (b : UInt8) (bs : Bytes) :
    splitLast key (b :: bs) =
      match splitLast key bs with
      | some (before, after) => some (b :: before, after)
      | none => if key.isPrefixOf (b :: bs) then some ([], (b :: bs).drop key.length) else none := rfl

theorem splitLast_none {c d : UInt8} (key : Bytes) {bs : Bytes} (h : d ∉ bs.tail) : splitLast (c :: d :: key) bs = none := by
  induction bs with
  | nil => rfl
  | cons b bs ih =>
    rw [List.tail_cons] at h
    have hhead : (c :: d :: key).isPrefixOf (b :: bs) = false := by
      cases bs with
      | nil => simp [List.isPrefixOf]
      | cons b' bs =>
        have hne : d ≠ b' := fun heq => h (heq ▸ List.mem_cons_self)
        simp [List.isPrefixOf, hne]
    rw [splitLast_cons, ih fun hmem => h (List.mem_of_mem_tail hmem), hhead]
    rfl

theorem splitLast_append {c d : UInt8} {key after : Bytes} (before : Bytes) (h : d ∉ key ++ after) :
    splitLast (c :: d :: key) (before ++ (c :: d :: key ++ after)) = some (before, after) := by
  induction before with
  | nil =>
    have hrest : splitLast (c :: d :: key) (d :: (key ++ after)) = none := splitLast_none key h
    have hhead : (c :: d :: key).isPrefixOf (c :: d :: (key ++ after)) = true :=
      List.isPrefixOf_iff_prefix.mpr (List.prefix_append (c :: d :: key) after)
    rw [List.nil_append, List.cons_append, List.cons_append, splitLast_cons, hrest, hhead]
    simp
  | cons b before ih =>
    rw [List.cons_append, splitLast_cons, ih]

theorem takeWhile_line {value : Bytes} (h : (10 : UInt8) ∉ value) (rest : Bytes) :
    (value ++ 10 :: rest).takeWhile (· ≠ 10) = value := by
  rw [List.takeWhile_append_of_pos]
  · simp
  · intro c hc
    simp only [ne_eq, decide_eq_true_eq]
    rintro rfl
    exact h hc

theorem manifestField_eq {name before value rest : Bytes} {c : UInt8} (h : c ∉ before) (hvalue : (10 : UInt8) ∉ value) :
    manifestField (before ++ (c :: name ++ text "=" ++ value ++ 10 :: rest)) (c :: name) = some value := by
  have hkey : afterFirst (c :: name ++ text "=") (before ++ (c :: name ++ text "=" ++ value ++ 10 :: rest)) =
      some (value ++ 10 :: rest) := by
    rw [List.append_assoc (c :: name ++ text "=") value, List.cons_append, afterFirst_append h, afterFirst_self]
  rw [manifestField, hkey, Option.map_some, takeWhile_line hvalue]

/-! ### The text of the writer -/

theorem hexFixed_characters (width n : Nat) : ∀ c ∈ hexFixed width n, (48 ≤ c ∧ c ≤ 57) ∨ (97 ≤ c ∧ c ≤ 102) := by
  have hall : ∀ d < 16, (48 ≤ hexDigit d ∧ hexDigit d ≤ 57) ∨ (97 ≤ hexDigit d ∧ hexDigit d ≤ 102) := by decide
  intro c hc
  obtain ⟨i, -, rfl⟩ := List.mem_map.mp hc
  exact hall _ (Nat.mod_lt _ (by decide))

theorem not_mem_hexFixed {c : UInt8} (h : ¬((48 ≤ c ∧ c ≤ 57) ∨ (97 ≤ c ∧ c ≤ 102))) (width n : Nat) :
    c ∉ hexFixed width n :=
  fun hc => h (hexFixed_characters width n c hc)

theorem not_mem_decimalInt {c : UInt8} (hdigit : isDigit c = false) (hminus : c ≠ 45) (i : Int) : c ∉ decimalInt i := by
  intro hc
  rcases decimalInt_characters i c hc with h | h
  · rw [hdigit] at h
    cases h
  · exact hminus h

theorem decimalInt_length_le (ns : Nanos) : (decimalInt ns.toInt).length ≤ 20 := by
  have hlow := ns.le_toInt
  have hhigh := ns.toInt_lt
  have hdigits : (decimal ns.toInt.natAbs).length ≤ 19 := decimal_length_le (by decide) (by omega)
  unfold decimalInt
  split_ifs
  · rw [List.length_cons]
    omega
  · omega

/-- What the writer puts into a manifest for the policy: one short line. -/
structure PlainDigest (digest : Bytes) : Prop where
  line : (10 : UInt8) ∉ digest
  length : digest.length ≤ 64

theorem toHex_characters (data : Bytes) : ∀ c ∈ toHex data, (48 ≤ c ∧ c ≤ 57) ∨ (97 ≤ c ∧ c ≤ 102) := by
  have hall : ∀ d < 16, (48 ≤ hexDigit d ∧ hexDigit d ≤ 57) ∨ (97 ≤ hexDigit d ∧ hexDigit d ≤ 102) := by decide
  intro c hc
  obtain ⟨byte, -, hdigit⟩ := List.mem_flatMap.mp hc
  have hbyte := byte.toNat_lt
  rcases List.mem_cons.mp hdigit with rfl | hlow
  · exact hall _ (by omega)
  · rw [List.mem_singleton.mp hlow]
    exact hall _ (Nat.mod_lt _ (by decide))

theorem toHex_length (data : Bytes) : (toHex data).length = 2 * data.length := by
  induction data with
  | nil => rfl
  | cons byte data ih =>
    have hcons : toHex (byte :: data) =
        hexDigit (byte.toNat / 16) :: hexDigit (byte.toNat % 16) :: toHex data := rfl
    rw [hcons, List.length_cons, List.length_cons, List.length_cons, ih]
    omega

theorem policy_digest_plain (policy : RuntimePolicy) : PlainDigest policy.digest where
  line := by
    intro hmem
    have hcharacter := toHex_characters _ _ hmem
    revert hcharacter
    decide
  length := by
    show (toHex _).length ≤ 64
    rw [toHex_length]
    rfl

/-! ### Reading the manifest -/

section Fields

variable {now : Nanos} {digest : Bytes}

theorem manifestBody_eq (now : Nanos) (digest : Bytes) :
    manifestBody now digest = text "magic=" ++ storeMagic ++ 10 :: (text "format=" ++ decimal formatVersion ++
      10 :: (text "created_ns=" ++ decimalInt now.toInt ++ 10 :: (text "policy_digest=" ++ digest ++ [10]))) := by
  unfold manifestBody
  rw [newline_eq]
  simp only [List.append_assoc, List.cons_append, List.nil_append]

theorem manifest_magic : manifestField (manifestBody now digest) (text "magic") = some storeMagic := by
  rw [manifestBody_eq]
  exact @manifestField_eq (text "agic") [] storeMagic _ 109 (by simp) (by decide)

theorem manifest_format : manifestField (manifestBody now digest) (text "format") = some (decimal formatVersion) := by
  have hsplit : manifestBody now digest = (text "magic=" ++ storeMagic ++ [10]) ++ (text "format" ++ text "=" ++
      decimal formatVersion ++ 10 :: (text "created_ns=" ++ decimalInt now.toInt ++
        10 :: (text "policy_digest=" ++ digest ++ [10]))) := by
    rw [manifestBody_eq, show text "format=" = text "format" ++ text "=" by decide]
    simp only [List.append_assoc, List.cons_append, List.nil_append]
  rw [hsplit]
  exact @manifestField_eq (text "ormat") _ _ _ 102 (by decide) (by decide)

theorem manifest_policyDigest (h : (10 : UInt8) ∉ digest) :
    manifestField (manifestBody now digest) (text "policy_digest") = some digest := by
  have hsplit : manifestBody now digest = (text "magic=" ++ storeMagic ++ 10 :: (text "format=" ++
      decimal formatVersion ++ 10 :: (text "created_ns=" ++ decimalInt now.toInt ++ [10]))) ++
        (text "policy_digest" ++ text "=" ++ digest ++ 10 :: []) := by
    rw [manifestBody_eq, show text "policy_digest=" = text "policy_digest" ++ text "=" by decide]
    simp only [List.append_assoc, List.cons_append, List.nil_append]
  have hbefore : (112 : UInt8) ∉ text "magic=" ++ storeMagic ++ 10 :: (text "format=" ++ decimal formatVersion ++
      10 :: (text "created_ns=" ++ decimalInt now.toInt ++ [10])) := by
    have hdigits := not_mem_decimalInt (by decide : isDigit 112 = false) (by decide) now.toInt
    have hlines : (112 : UInt8) ∉ text "magic=" ++ storeMagic ++ 10 :: (text "format=" ++ decimal formatVersion ++
        10 :: text "created_ns=") := by decide
    simp only [List.mem_append, List.mem_cons, not_or, List.not_mem_nil, not_false_eq_true, and_true] at hlines ⊢
    obtain ⟨hmagic, hend, hformat, hend', hcreated⟩ := hlines
    exact ⟨hmagic, hend, hformat, hend', ⟨hcreated, hdigits⟩, hend⟩
  rw [hsplit]
  exact @manifestField_eq (text "olicy_digest") _ _ _ 112 hbefore h

/-- The last line is found from the end: its value has no letter that could start the name again. -/
theorem manifest_crc : splitLast (text "crc32c=") (manifestText now digest) =
    some (manifestBody now digest, crcText (manifestBody now digest) ++ [10]) := by
  have hrest : (114 : UInt8) ∉ text "c32c=" ++ (crcText (manifestBody now digest) ++ [10]) := by
    have hdigits := not_mem_hexFixed (by decide : ¬((48 ≤ (114 : UInt8) ∧ (114 : UInt8) ≤ 57) ∨
      (97 ≤ (114 : UInt8) ∧ (114 : UInt8) ≤ 102))) 8 (crc32c (manifestBody now digest)).toNat
    simp only [List.mem_append, not_or]
    exact ⟨by decide, hdigits, by decide⟩
  have hsplit := @splitLast_append 99 114 (text "c32c=") _ (manifestBody now digest) hrest
  unfold manifestText
  rw [newline_eq]
  simp only [List.append_assoc]
  exact hsplit

theorem stripped_crc (now : Nanos) (digest : Bytes) :
    (((crcText (manifestBody now digest) ++ [10]).reverse.dropWhile fun c => c = 10 ∨ c = 13).reverse) =
      crcText (manifestBody now digest) := by
  have hkept : (crcText (manifestBody now digest)).reverse.dropWhile (fun c => c = 10 ∨ c = 13) =
      (crcText (manifestBody now digest)).reverse := by
    have hfirst : ∀ c ∈ (crcText (manifestBody now digest)).reverse, ¬(c = 10 ∨ c = 13) := by
      intro c hc
      have hcharacter := hexFixed_characters _ _ c (List.mem_reverse.mp hc)
      rintro (rfl | rfl) <;> revert hcharacter <;> decide
    generalize (crcText (manifestBody now digest)).reverse = bytes at hfirst
    cases bytes with
    | nil => rfl
    | cons c bytes =>
      apply List.dropWhile_cons_of_neg
      simpa using hfirst c List.mem_cons_self
  rw [List.reverse_append, List.reverse_singleton, List.singleton_append, List.dropWhile_cons_of_pos (by simp), hkept,
    List.reverse_reverse]

theorem manifestText_length (h : PlainDigest digest) : (manifestText now digest).length ≤ 4096 := by
  have hnow := decimalInt_length_le now
  have hdigest := h.length
  have hcrc : (crcText (manifestBody now digest)).length = 8 := by
    unfold crcText hexFixed
    rw [List.length_map, List.length_range]
  unfold manifestText
  rw [List.length_append, List.length_append, List.length_append, hcrc, manifestBody_eq]
  simp only [List.length_append, List.length_cons, List.length_nil]
  have hfixed : (text "magic=").length = 6 ∧ storeMagic.length = 12 ∧ (text "format=").length = 7 ∧
      (decimal formatVersion).length = 1 ∧ (text "created_ns=").length = 11 ∧ (text "policy_digest=").length = 14 ∧
        (text "crc32c=").length = 7 ∧ (text "\n").length = 1 := by decide
  omega

end Fields

/-- Every manifest of the writer passes the checks of the reader, and names the policy it was made for. -/
theorem readManifest_manifestText (config : StoreConfig) (now : Nanos) {digest : Bytes} (h : PlainDigest digest) :
    readManifest config (manifestText now digest) = .ok ⟨config, digest, formatVersion⟩ := by
  have hversion : parseU64 (decimal formatVersion) = some formatVersion := by decide
  have hlength := @manifestText_length now digest h
  unfold readManifest
  rw [if_neg (by omega), manifest_crc]
  dsimp only
  rw [stripped_crc, if_neg (by simp), manifest_magic, if_neg (by simp), manifest_format, manifest_policyDigest h.line,
    Option.bind_some, hversion]
  rfl

end LatencyObservatory.Store
