import LatencyObservatory.Core.Sha256
import LatencyObservatory.Lib.BlockStream

/-!
# The incremental digest is SHA-256

FIPS 180-4 pads the message to whole blocks and compresses them one after the other. The source buffers what does not
fill a block, and pads through its own `update`. Its state after any sequence of updates is that of the blocks of
the whole input so far, and the buffer is what is left over.
-/

namespace LatencyObservatory.Core

/-! ## The standard -/

namespace Sha256Standard

def ch (x y z : UInt32) : UInt32 := (x &&& y) ^^^ (~~~x &&& z)

def maj (x y z : UInt32) : UInt32 := (x &&& y) ^^^ (x &&& z) ^^^ (y &&& z)

def bigSigma0 (x : UInt32) : UInt32 := rotr x 2 ^^^ rotr x 13 ^^^ rotr x 22

def bigSigma1 (x : UInt32) : UInt32 := rotr x 6 ^^^ rotr x 11 ^^^ rotr x 25

def smallSigma0 (x : UInt32) : UInt32 := rotr x 7 ^^^ rotr x 18 ^^^ (x >>> 3)

def smallSigma1 (x : UInt32) : UInt32 := rotr x 17 ^^^ rotr x 19 ^^^ (x >>> 10)

/-- The message schedule: the words of the block, and then a recursion over sixteen words. -/
def schedule (block : Bytes) (t : Nat) : UInt32 :=
  if _h : t < 16 then (blockWords block).getD t 0
  else
    smallSigma1 (schedule block (t - 2)) + schedule block (t - 7) + smallSigma0 (schedule block (t - 15)) +
      schedule block (t - 16)
termination_by t

/-- One round, with its two temporary words. -/
def step (v : Sha256State) (k w : UInt32) : Sha256State :=
  let t1 := v.h + bigSigma1 v.e + ch v.e v.f v.g + k + w
  let t2 := bigSigma0 v.a + maj v.a v.b v.c
  ⟨t1 + t2, v.a, v.b, v.c, v.d + t1, v.e, v.f, v.g⟩

/-- The hash value after one more block. -/
def compress (hash : Sha256State) (block : Bytes) : Sha256State :=
  hash.add ((List.range 64).foldl (fun v t => step v (sha256K.getD t 0) (schedule block t)) hash)

/-- The number of zero bytes in the padding, the least that completes a block with the length. -/
def zeros (length : Nat) : Nat := (119 - length % 64) % 64

/-- The bits of the length, as eight bytes. -/
def lengthBytes (length : Nat) : Bytes :=
  (List.range 8).map fun i => UInt8.ofNat (8 * length / 256 ^ (7 - i))

def padded (message : Bytes) : Bytes :=
  message ++ 0x80 :: List.replicate (zeros message.length) 0 ++ lengthBytes message.length

/-- The digest: the final hash value, most significant byte of each word first. -/
def digest (message : Bytes) : Bytes :=
  (Lib.consume 64 compress .initial (padded message)).1.words.flatMap fun (word : UInt32) =>
    [(word >>> 24).toUInt8, (word >>> 16).toUInt8, (word >>> 8).toUInt8, word.toUInt8]

theorem zeros_spec (length : Nat) : (length + 1 + zeros length) % 64 = 56 ∧ zeros length < 64 := by
  unfold zeros
  omega

/-- The first 64 primes. -/
def primes : List Nat :=
  (List.range 312).filter fun n => 2 ≤ n ∧ (List.range n).all fun d => d < 2 || n % d ≠ 0

/-- The word is the first 32 bits of the fraction of a root of the number. -/
def isRootFraction (degree number : Nat) (word : UInt32) : Bool :=
  (List.range 18).any fun whole =>
    (whole * 2 ^ 32 + word.toNat) ^ degree ≤ number * 2 ^ (32 * degree) ∧
      number * 2 ^ (32 * degree) < (whole * 2 ^ 32 + word.toNat + 1) ^ degree

theorem sha256K_cube_roots :
    primes.length = 64 ∧ sha256K.length = 64 ∧
      ((primes.zip sha256K).all fun pk => isRootFraction 3 pk.1 pk.2) = true := by
  decide +kernel

theorem initial_square_roots :
    ((primes.zip Sha256State.initial.words).all fun pk => isRootFraction 2 pk.1 pk.2) = true := by
  decide +kernel

end Sha256Standard

/-! ## The compression -/

/-- The schedule so far, newest word first. -/
def scheduleDown (block : Bytes) (n : Nat) : List UInt32 :=
  (List.range n).reverse.map (Sha256Standard.schedule block)

theorem scheduleDown_getD {block : Bytes} {n k : Nat} (hk : k < n) :
    (scheduleDown block n).getD k 0 = Sha256Standard.schedule block (n - 1 - k) := by
  unfold scheduleDown
  rw [List.getD_eq_getElem?_getD, List.getElem?_map, List.getElem?_reverse (by rw [List.length_range]; exact hk),
    List.length_range, List.getElem?_range (by omega)]
  rfl

theorem scheduleDown_succ (block : Bytes) (n : Nat) :
    scheduleDown block (n + 1) = Sha256Standard.schedule block n :: scheduleDown block n := by
  unfold scheduleDown
  rw [List.range_succ, List.reverse_append]
  rfl

theorem extendSchedule_eq (block : Bytes) (n k : Nat) :
    extendSchedule n (scheduleDown block (16 + k)) = scheduleDown block (16 + k + n) := by
  induction n generalizing k with
  | zero => rfl
  | succ n ih =>
    have hnext : Sha256Standard.schedule block (16 + k) =
        (scheduleDown block (16 + k)).getD 15 0 +
          Sha256Standard.smallSigma0 ((scheduleDown block (16 + k)).getD 14 0) +
          (scheduleDown block (16 + k)).getD 6 0 + Sha256Standard.smallSigma1 ((scheduleDown block (16 + k)).getD 1 0) := by
      rw [scheduleDown_getD (by omega), scheduleDown_getD (by omega), scheduleDown_getD (by omega),
        scheduleDown_getD (by omega), Sha256Standard.schedule, dif_neg (by omega)]
      rw [show 16 + k - 1 - 15 = 16 + k - 16 by omega, show 16 + k - 1 - 14 = 16 + k - 15 by omega,
        show 16 + k - 1 - 6 = 16 + k - 7 by omega, show 16 + k - 1 - 1 = 16 + k - 2 by omega]
      ac_rfl
    have hstep : extendSchedule (n + 1) (scheduleDown block (16 + k)) =
        extendSchedule n (Sha256Standard.schedule block (16 + k) :: scheduleDown block (16 + k)) := by
      rw [hnext]
      rfl
    rw [hstep, ← scheduleDown_succ, show 16 + k + 1 = 16 + (k + 1) by omega, ih]
    congr 1
    omega

theorem blockWords_length (block : Bytes) : (blockWords block).length = block.length / 4 := by
  induction block using blockWords.induct with
  | case1 b0 b1 b2 b3 rest ih =>
    rw [blockWords, List.length_cons, ih]
    simp only [List.length_cons]
    omega
  | case2 block hshort =>
    have hless : block.length < 4 := by
      match block, hshort with
      | [], _ => decide
      | [_], _ => exact (by decide : 1 < 4)
      | [_, _], _ => exact (by decide : 2 < 4)
      | [_, _, _], _ => exact (by decide : 3 < 4)
      | b0 :: b1 :: b2 :: b3 :: rest, hshort => exact absurd rfl (hshort b0 b1 b2 b3 rest)
    rw [blockWords, Nat.div_eq_of_lt hless]
    · rfl
    · exact hshort

theorem blockWords_reverse {block : Bytes} (h : block.length = 64) :
    (blockWords block).reverse = scheduleDown block 16 := by
  have hlength : (blockWords block).length = 16 := by
    rw [blockWords_length, h]
  unfold scheduleDown
  rw [List.map_reverse]
  congr 1
  apply List.ext_getElem?
  intro i
  rw [List.getElem?_map]
  rcases Nat.lt_or_ge i 16 with hi | hi
  · rw [List.getElem?_range hi, Option.map_some, Sha256Standard.schedule, dif_pos hi, List.getD_eq_getElem?_getD,
      List.getElem?_eq_getElem (by omega)]
    rfl
  · rw [List.getElem?_eq_none (by omega), List.getElem?_eq_none (by rw [List.length_range]; exact hi)]
    rfl

namespace Sha256

open Sha256Standard

theorem transform_eq_compress (state : Sha256State) {block : Bytes} (h : block.length = 64) :
    transform state block = compress state block := by
  have hwords : (extendSchedule 48 (blockWords block).reverse).reverse = (List.range 64).map (schedule block) := by
    rw [blockWords_reverse h, show (16 : Nat) = 16 + 0 from rfl, extendSchedule_eq, scheduleDown, List.map_reverse,
      List.reverse_reverse]
  have hpairs : sha256K.zip ((List.range 64).map (schedule block)) =
      (List.range 64).map fun t => (sha256K.getD t 0, schedule block t) := by
    have hconstants : sha256K = (List.range 64).map fun t => sha256K.getD t 0 := by
      decide +kernel
    conv_lhs => rw [hconstants]
    rw [List.zip_map']
  unfold transform compress
  simp only
  rw [hwords, hpairs, List.foldl_map]
  rfl

/-! ## Updates -/

/-- State and buffer are what the blocks of the data leave. -/
def Holds (s : Sha256) (data : Bytes) : Prop :=
  (s.state, s.buffer) = Lib.consume 64 compress .initial data

theorem Holds.buffer_length {s : Sha256} {data : Bytes} (h : s.Holds data) : s.buffer.length = data.length % 64 := by
  have hbuffer : s.buffer = (Lib.consume 64 compress .initial data).2 := congrArg Prod.snd h
  rw [hbuffer]
  exact Lib.consume_rest_length (by decide) _ data

theorem holds_start : ({} : Sha256).Holds [] := rfl

theorem absorb_eq (blocks : Nat) (state : Sha256State) (rest : Bytes) (h : 64 * blocks ≤ rest.length) :
    absorb blocks state rest = Lib.foldBlocks 64 compress blocks state rest := by
  induction blocks generalizing state rest with
  | zero => rfl
  | succ blocks ih =>
    have hblock : (rest.take 64).length = 64 := by
      rw [List.length_take]
      omega
    have hrest : 64 * blocks ≤ (rest.drop 64).length := by
      rw [List.length_drop]
      omega
    rw [absorb, Lib.foldBlocks, ih _ _ hrest, transform_eq_compress state hblock]

theorem update_eq_consume (s : Sha256) (data : Bytes) (h : s.buffer.length < 64) :
    ((s.update data).state, (s.update data).buffer) = Lib.consume 64 compress s.state (s.buffer ++ data) := by
  have habsorb : ∀ (state : Sha256State) (rest : Bytes),
      absorb (rest.length / 64) state rest = Lib.consume 64 compress state rest := by
    intro state rest
    exact absorb_eq _ state rest (by omega)
  unfold update fill
  simp only
  by_cases hempty : s.buffer.isEmpty = true
  · rw [if_pos hempty, habsorb, List.isEmpty_iff.mp hempty]
    rfl
  · rw [if_neg hempty]
    by_cases hfull : (s.buffer ++ data.take (64 - s.buffer.length)).length = 64
    · -- The buffer is completed to a block, and the rest starts with the next one.
      have hlong : 64 - s.buffer.length ≤ data.length := by
        rw [List.length_append, List.length_take] at hfull
        omega
      have htake : (s.buffer ++ data).take 64 = s.buffer ++ data.take (64 - s.buffer.length) := by
        rw [List.take_append, List.take_of_length_le (by omega)]
      have hdrop : (s.buffer ++ data).drop 64 = data.drop (64 - s.buffer.length) := by
        rw [List.drop_append, List.drop_of_length_le (by omega), List.nil_append]
      rw [if_pos hfull, Lib.consume_of_le (by decide) (by rw [List.length_append]; omega), htake, hdrop, ← habsorb,
        transform_eq_compress _ hfull]
      rfl
    · have hshort : data.length < 64 - s.buffer.length := by
        rw [List.length_append, List.length_take] at hfull
        omega
      rw [if_neg hfull, List.take_of_length_le (by omega), List.drop_of_length_le (by omega),
        Lib.consume_of_lt (by rw [List.length_append]; omega)]
      simp only [List.length_nil, Nat.zero_div, absorb, List.append_nil]

theorem Holds.update {s : Sha256} {data : Bytes} (h : s.Holds data) (piece : Bytes) :
    (s.update piece).Holds (data ++ piece) := by
  have hless : s.buffer.length < 64 := by
    rw [h.buffer_length]
    omega
  have hstate : s.state = (Lib.consume 64 compress .initial data).1 := congrArg Prod.fst h
  have hbuffer : s.buffer = (Lib.consume 64 compress .initial data).2 := congrArg Prod.snd h
  unfold Holds
  rw [update_eq_consume s piece hless, hstate, hbuffer]
  exact (Lib.consume_append (by decide) _ data piece).symm

theorem update_bitCount (s : Sha256) (data : Bytes) :
    (s.update data).bitCount = s.bitCount + UInt64.ofNat data.length * 8 := by
  unfold update fill
  simp only
  split_ifs <;> rfl

theorem foldl_update (pieces : List Bytes) :
    (pieces.foldl update {}).Holds pieces.flatten ∧
      (pieces.foldl update {}).bitCount = UInt64.ofNat pieces.flatten.length * 8 := by
  have hrun : ∀ (s : Sha256) (data : Bytes), s.Holds data → s.bitCount = UInt64.ofNat data.length * 8 →
      (pieces.foldl update s).Holds (data ++ pieces.flatten) ∧
        (pieces.foldl update s).bitCount = UInt64.ofNat (data ++ pieces.flatten).length * 8 := by
    induction pieces with
    | nil =>
      intro s data hholds hcount
      rw [List.flatten_nil, List.append_nil]
      exact ⟨hholds, hcount⟩
    | cons piece pieces ih =>
      intro s data hholds hcount
      rw [List.foldl_cons, List.flatten_cons, ← List.append_assoc]
      refine ih (s.update piece) (data ++ piece) (hholds.update piece) ?_
      rw [update_bitCount, hcount, List.length_append, UInt64.ofNat_add, UInt64.add_mul]
  exact hrun {} [] holds_start rfl

/-! ## The padding -/

theorem pad_holds {n fuel : Nat} {s : Sha256} {data : Bytes} (h : s.Holds data) (hn : (data.length + n) % 64 = 56)
    (hless : n < 64) (hfuel : n ≤ fuel) :
    (pad fuel s).Holds (data ++ List.replicate n 0) ∧ (pad fuel s).buffer.length = 56 := by
  induction n generalizing fuel s data with
  | zero =>
    have hdone : s.buffer.length = 56 := h.buffer_length.trans hn
    have hstop : pad fuel s = s := by
      cases fuel with
      | zero => rfl
      | succ fuel => rw [pad, if_pos hdone]
    rw [hstop, List.replicate_zero, List.append_nil]
    exact ⟨h, hdone⟩
  | succ n ih =>
    have hmore : s.buffer.length ≠ 56 := by
      rw [h.buffer_length]
      omega
    obtain ⟨fuel, rfl⟩ : ∃ k, fuel = k + 1 := ⟨fuel - 1, by omega⟩
    have hnext := @ih fuel (s.update [0]) (data ++ [0]) (h.update [0])
      (by rw [List.length_append, List.length_singleton]; omega) (by omega) (by omega)
    rw [List.append_assoc, List.singleton_append, ← List.replicate_succ] at hnext
    rw [pad, if_neg hmore]
    exact hnext

theorem lengthBytes_eq {length : Nat} {bitCount : UInt64} (hcount : bitCount = UInt64.ofNat length * 8)
    (hlength : length < 2 ^ 61) :
    ((List.range 8).map fun i => (bitCount >>> UInt64.ofNat (56 - 8 * i)).toUInt8) = lengthBytes length := by
  have hvalue : bitCount.toNat = 8 * length := by
    rw [hcount, UInt64.toNat_mul, UInt64.toNat_ofNat']
    have height : (8 : UInt64).toNat = 8 := rfl
    rw [height]
    omega
  refine List.map_congr_left fun i hi => ?_
  have hlt := List.mem_range.mp hi
  have hpower : 2 ^ (56 - 8 * i) = 256 ^ (7 - i) := by
    rw [show (256 : Nat) = 2 ^ 8 by decide, ← Nat.pow_mul]
    congr 1
    omega
  apply UInt8.toNat_inj.mp
  rw [UInt64.toNat_toUInt8, UInt64.toNat_shiftRight, hvalue, UInt64.toNat_ofNat', UInt8.toNat_ofNat',
    Nat.mod_eq_of_lt (show 56 - 8 * i < 2 ^ 64 by omega), Nat.mod_eq_of_lt (show 56 - 8 * i < 64 by omega),
    Nat.shiftRight_eq_div_pow, hpower]

/-- The digest of a stream, however it is cut, is that of the whole; the buffer never holds a whole block, and the
padding loop ends. -/
theorem finish_eq_digest (pieces : List Bytes) (h : pieces.flatten.length < 2 ^ 61) :
    (pieces.foldl update {}).finish = digest pieces.flatten ∧
      (∀ n, ((pieces.take n).foldl update {}).buffer.length < 64) ∧
      (pad 64 ((pieces.foldl update {}).update [0x80])).buffer.length = 56 := by
  obtain ⟨hholds, hcount⟩ := foldl_update pieces
  have hmarked := hholds.update [0x80]
  have hlength : (pieces.flatten ++ [(0x80 : UInt8)]).length = pieces.flatten.length + 1 := by
    rw [List.length_append, List.length_singleton]
  obtain ⟨hzeros, hfew⟩ := zeros_spec pieces.flatten.length
  obtain ⟨hpadded, hfull⟩ := pad_holds hmarked (by rw [hlength]; exact hzeros) hfew (Nat.le_of_lt hfew)
  refine ⟨?_, ?_, hfull⟩
  · have hbytes := lengthBytes_eq hcount h
    unfold finish digest
    simp only
    rw [hbytes]
    generalize pad 64 ((pieces.foldl update {}).update [0x80]) = s at hpadded hfull
    have hstate : s.state = _ := congrArg Prod.fst hpadded
    have hbuffer : s.buffer = _ := congrArg Prod.snd hpadded
    have hblock : (s.buffer ++ lengthBytes pieces.flatten.length).length = 64 := by
      rw [List.length_append, hfull, lengthBytes, List.length_map, List.length_range]
    have hmessage : padded pieces.flatten =
        (pieces.flatten ++ [0x80] ++ List.replicate (zeros pieces.flatten.length) 0) ++
          lengthBytes pieces.flatten.length := by
      rw [padded]
      simp only [List.append_assoc, List.cons_append, List.nil_append]
    rw [transform_eq_compress _ hblock, hmessage, Lib.consume_append (by decide), ← hstate, ← hbuffer,
      Lib.consume_block (by decide) hblock]
  · intro n
    rw [(foldl_update (pieces.take n)).1.buffer_length]
    exact Nat.mod_lt _ (by decide)

theorem abc_in_two_pieces :
    ([text "a", [], text "bc"].foldl update {}).finish = digest (text "abc") :=
  (finish_eq_digest [text "a", [], text "bc"] (by decide)).1

end Sha256

end LatencyObservatory.Core
