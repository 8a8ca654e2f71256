import LatencyObservatory.Core.Text

/-!
# SHA-256

The streaming digest of `core/digest.cpp`. `buffer` holds the first `buffer_size_` bytes of `buffer_`;
whole blocks of an update are compressed in place and only the tail is kept.
-/

namespace LatencyObservatory.Core

/-- `kSha256K`. -/
def sha256K : List UInt32 := [
    0x428a2f98, 0x71374491, 0xb5c0fbcf, 0xe9b5dba5, 0x3956c25b, 0x59f111f1, 0x923f82a4, 0xab1c5ed5,
    0xd807aa98, 0x12835b01, 0x243185be, 0x550c7dc3, 0x72be5d74, 0x80deb1fe, 0x9bdc06a7, 0xc19bf174,
    0xe49b69c1, 0xefbe4786, 0x0fc19dc6, 0x240ca1cc, 0x2de92c6f, 0x4a7484aa, 0x5cb0a9dc, 0x76f988da,
    0x983e5152, 0xa831c66d, 0xb00327c8, 0xbf597fc7, 0xc6e00bf3, 0xd5a79147, 0x06ca6351, 0x14292967,
    0x27b70a85, 0x2e1b2138, 0x4d2c6dfc, 0x53380d13, 0x650a7354, 0x766a0abb, 0x81c2c92e, 0x92722c85,
    0xa2bfe8a1, 0xa81a664b, 0xc24b8b70, 0xc76c51a3, 0xd192e819, 0xd6990624, 0xf40e3585, 0x106aa070,
    0x19a4c116, 0x1e376c08, 0x2748774c, 0x34b0bcb5, 0x391c0cb3, 0x4ed8aa4a, 0x5b9cca4f, 0x682e6ff3,
    0x748f82ee, 0x78a5636f, 0x84c87814, 0x8cc70208, 0x90befffa, 0xa4506ceb, 0xbef9a3f7, 0xc67178f2]

def rotr (value : UInt32) (bits : UInt32) : UInt32 :=
  (value >>> bits) ||| (value <<< (32 - bits))

/-- The eight words `state_`, and the working variables `a` to `h` of a compression. -/
structure Sha256State where
  a : UInt32
  b : UInt32
  c : UInt32
  d : UInt32
  e : UInt32
  f : UInt32
  g : UInt32
  h : UInt32
deriving DecidableEq, Repr

namespace Sha256State

def initial : Sha256State :=
  ⟨0x6a09e667, 0xbb67ae85, 0x3c6ef372, 0xa54ff53a, 0x510e527f, 0x9b05688c, 0x1f83d9ab, 0x5be0cd19⟩

def add (s t : Sha256State) : Sha256State :=
  ⟨s.a + t.a, s.b + t.b, s.c + t.c, s.d + t.d, s.e + t.e, s.f + t.f, s.g + t.g, s.h + t.h⟩

def words (s : Sha256State) : List UInt32 :=
  [s.a, s.b, s.c, s.d, s.e, s.f, s.g, s.h]

/-- One of the 64 rounds, with its constant and its schedule word. -/
def round (s : Sha256State) (k w : UInt32) : Sha256State :=
  let s1 := rotr s.e 6 ^^^ rotr s.e 11 ^^^ rotr s.e 25
  let ch := (s.e &&& s.f) ^^^ (~~~s.e &&& s.g)
  let temp1 := s.h + s1 + ch + k + w
  let s0 := rotr s.a 2 ^^^ rotr s.a 13 ^^^ rotr s.a 22
  let maj := (s.a &&& s.b) ^^^ (s.a &&& s.c) ^^^ (s.b &&& s.c)
  ⟨temp1 + (s0 + maj), s.a, s.b, s.c, s.d + temp1, s.e, s.f, s.g⟩

end Sha256State

/-- The big-endian words of a block. -/
def blockWords : Bytes → List UInt32
  | b0 :: b1 :: b2 :: b3 :: rest =>
    (b0.toUInt32 <<< 24 ||| b1.toUInt32 <<< 16 ||| b2.toUInt32 <<< 8 ||| b3.toUInt32) :: blockWords rest
  | _ => []

/-- The schedule loop, newest word first: `w[index - k]` is the word at position `k - 1`. -/
def extendSchedule : Nat → List UInt32 → List UInt32
  | 0, w => w
  | n + 1, w =>
    let w15 := w.getD 14 0
    let w2 := w.getD 1 0
    let s0 := rotr w15 7 ^^^ rotr w15 18 ^^^ (w15 >>> 3)
    let s1 := rotr w2 17 ^^^ rotr w2 19 ^^^ (w2 >>> 10)
    extendSchedule n ((w.getD 15 0 + s0 + w.getD 6 0 + s1) :: w)

structure Sha256 where
  state : Sha256State := .initial
  bitCount : UInt64 := 0
  buffer : Bytes := []
deriving DecidableEq, Repr

namespace Sha256

def transform (state : Sha256State) (block : Bytes) : Sha256State :=
  let w := (extendSchedule 48 (blockWords block).reverse).reverse
  state.add ((sha256K.zip w).foldl (fun s kw => s.round kw.1 kw.2) state)

/-- The block loop of `update`: `blocks` whole blocks are compressed. -/
def absorb : Nat → Sha256State → Bytes → Sha256State × Bytes
  | 0, state, rest => (state, rest)
  | blocks + 1, state, rest => absorb blocks (transform state (rest.take 64)) (rest.drop 64)

/-- The fill of a buffer that is not empty: what it becomes, and the bytes still unread. -/
def fill (s : Sha256) (data : Bytes) : Sha256 × Bytes :=
  if s.buffer.isEmpty then (s, data)
  else
    let buffer := s.buffer ++ data.take (64 - s.buffer.length)
    let rest := data.drop (64 - s.buffer.length)
    if buffer.length = 64 then ({ s with state := transform s.state buffer, buffer := [] }, rest)
    else ({ s with buffer := buffer }, rest)

def update (s : Sha256) (data : Bytes) : Sha256 :=
  let (s, rest) := { s with bitCount := s.bitCount + UInt64.ofNat data.length * 8 }.fill data
  let (state, tail) := absorb (rest.length / 64) s.state rest
  { s with state := state, buffer := s.buffer ++ tail }

/-- The padding loop of `finish`; at most 64 zero bytes bring the buffer to 56. -/
def pad : Nat → Sha256 → Sha256
  | 0, s => s
  | fuel + 1, s => if s.buffer.length = 56 then s else pad fuel (s.update [0])

/-- `finish`: the length goes straight into the buffer, so the padding is not counted. -/
def finish (s : Sha256) : Bytes :=
  let lengthBytes := (List.range 8).map fun i => (s.bitCount >>> UInt64.ofNat (56 - 8 * i)).toUInt8
  let padded := pad 64 (s.update [0x80])
  (transform padded.state (padded.buffer ++ lengthBytes)).words.flatMap fun (word : UInt32) =>
    [(word >>> 24).toUInt8, (word >>> 16).toUInt8, (word >>> 8).toUInt8, word.toUInt8]

end Sha256

/-- `to_hex` of a buffer. -/
def toHex (data : Bytes) : Bytes :=
  data.flatMap fun byte => [hexDigit (byte.toNat / 16), hexDigit (byte.toNat % 16)]

def sha256Hex (data : Bytes) : Bytes :=
  toHex (({} : Sha256).update data).finish

example : sha256Hex (text "abc") =
    text "ba7816bf8f01cfea414140de5dae2223b00361a396177a9cb410ff61f20015ad" := by decide +kernel

end LatencyObservatory.Core
