/-! SipHash with one round for each word and three at the end, a 64-bit hash of a byte string under
a key of two words. -/

namespace ResultSink.SipHash

structure State where
  v0 : UInt64
  v1 : UInt64
  v2 : UInt64
  v3 : UInt64

/-- A word rotated to the left by `k` bits, for `0 < k < 64`. -/
def rotate (x k : UInt64) : UInt64 := (x <<< k) ||| (x >>> (64 - k))

def State.round (s : State) : State :=
  let v0 := s.v0 + s.v1
  let v1 := rotate s.v1 13 ^^^ v0
  let v0 := rotate v0 32
  let v2 := s.v2 + s.v3
  let v3 := rotate s.v3 16 ^^^ v2
  let v0 := v0 + v3
  let v3 := rotate v3 21 ^^^ v0
  let v2 := v2 + v1
  let v1 := rotate v1 17 ^^^ v2
  let v2 := rotate v2 32
  ⟨v0, v1, v2, v3⟩

def State.start (k0 k1 : UInt64) : State :=
  ⟨k0 ^^^ 0x736f6d6570736575, k1 ^^^ 0x646f72616e646f6d, k0 ^^^ 0x6c7967656e657261,
    k1 ^^^ 0x7465646279746573⟩

def State.absorb (s : State) (m : UInt64) : State :=
  let s := State.round { s with v3 := s.v3 ^^^ m }
  { s with v0 := s.v0 ^^^ m }

/-- Three more rounds, and the four words folded into one. -/
def State.finish (s : State) : UInt64 :=
  let s := State.round (State.round (State.round { s with v2 := s.v2 ^^^ 0xff }))
  s.v0 ^^^ s.v1 ^^^ s.v2 ^^^ s.v3

/-- The byte at a position as a word, and zero past the end. -/
def byteAt (message : ByteArray) (i : Nat) : UInt64 :=
  if h : i < message.size then (message[i]).toUInt64 else 0

/-- The little-endian word of the eight bytes from a position on. -/
def wordAt (message : ByteArray) (i : Nat) : UInt64 :=
  byteAt message i ||| (byteAt message (i + 1) <<< 8) ||| (byteAt message (i + 2) <<< 16) |||
    (byteAt message (i + 3) <<< 24) ||| (byteAt message (i + 4) <<< 32) |||
    (byteAt message (i + 5) <<< 40) ||| (byteAt message (i + 6) <<< 48) |||
    (byteAt message (i + 7) <<< 56)

/-- The given number of whole words from a position on, taken into the state. -/
def absorbWords (message : ByteArray) : Nat → Nat → State → State
  | 0, _, s => s
  | words + 1, i, s => absorbWords message words (i + 8) (s.absorb (wordAt message i))

/-- The hash of a message. The last word holds the bytes that fill no whole word and, in its top
byte, the length. -/
def hash (k0 k1 : UInt64) (message : ByteArray) : UInt64 :=
  let words := message.size / 8
  let last := wordAt message (8 * words) ||| (UInt64.ofNat message.size <<< 56)
  ((absorbWords message words 0 (State.start k0 k1)).absorb last).finish

end ResultSink.SipHash
