import ResultSink.Instances

/-! Binary floating-point numbers as words. A format fixes the widths of the exponent and of the
fraction; a word of it denotes no number, an infinity, or a whole number times a power of two. An
exact quotient is rounded to the nearest word, a tie to the word with an even last bit, and every
operation here is an exact result rounded in that way. -/

namespace ResultSink

/-- The widths in bits of the stored exponent and fraction of a binary format. -/
structure Format where
  exponentBits : Nat
  fractionBits : Nat
  deriving DecidableEq

namespace Format

def single : Format := ⟨8, 23⟩

def double : Format := ⟨11, 52⟩

/-- The bits of a word: a sign, the exponent and the fraction. -/
def width (f : Format) : Nat := 1 + f.exponentBits + f.fractionBits

/-- The exponent of the leading bit of the least normal number. -/
def minNormal (f : Format) : Int := 2 - 2 ^ (f.exponentBits - 1)

/-- The exponent of the last bit of the subnormal numbers. -/
def minUnit (f : Format) : Int := f.minNormal - f.fractionBits

/-- The magnitude of an infinity: all exponent bits set and no fraction bit. -/
def infinity (f : Format) : Nat := (2 ^ f.exponentBits - 1) * 2 ^ f.fractionBits

def signWeight (f : Format) : Nat := 2 ^ (f.exponentBits + f.fractionBits)

end Format

/-- What a word denotes: no number, an infinity, or `mantissa * 2 ^ unit` under a sign. -/
inductive Datum where
  | nan
  | infinite (negative : Bool)
  | finite (negative : Bool) (mantissa : Nat) (unit : Int)
  deriving DecidableEq

/-- `n * 2 ^ e` as a quotient of natural numbers. -/
def scaleByTwo (n : Nat) (e : Int) : Nat × Nat :=
  (n * 2 ^ e.toNat, 2 ^ (-e).toNat)

/-- The whole number nearest to `num / den`, a tie going to the even neighbour. -/
def divToEven (num den : Nat) : Nat :=
  let q := num / den
  let r := num % den
  if 2 * r < den then q
  else if den < 2 * r then q + 1
  else q + q % 2

/-- The greatest `e` with `2 ^ e ≤ num / den`, for a positive quotient. -/
def floorLog2 (num den : Nat) : Int :=
  let e : Int := (Nat.log2 num : Int) - Nat.log2 den
  if den * 2 ^ e.toNat ≤ num * 2 ^ (-e).toNat then e else e - 1

/-- The magnitude nearest to `num / den`, a tie going to the even one; what lies beyond the finite
magnitudes becomes the infinity. -/
def Format.roundMagnitude (f : Format) (num den : Nat) : Nat :=
  if num = 0 then 0
  else
    let leading := max (floorLog2 num den) f.minNormal
    let unit := leading - f.fractionBits
    let mantissa := divToEven (num * 2 ^ (-unit).toNat) (den * 2 ^ unit.toNat)
    min ((leading - f.minNormal).toNat * 2 ^ f.fractionBits + mantissa) f.infinity

/-- A floating-point number of a format, as its word. -/
structure Floating (f : Format) where
  word : BitVec f.width
  deriving DecidableEq

abbrev Single := Floating Format.single

abbrev Double := Floating Format.double

namespace Floating

variable {f g : Format}

def magnitude (x : Floating f) : Nat := x.word.toNat % f.signWeight

def isNegative (x : Floating f) : Bool := f.signWeight ≤ x.word.toNat

def isNaN (x : Floating f) : Bool := f.infinity < x.magnitude

def isFinite (x : Floating f) : Bool := x.magnitude < f.infinity

def isZero (x : Floating f) : Bool := x.magnitude = 0

/-- The number with a given sign and magnitude. -/
def ofMagnitude (negative : Bool) (magnitude : Nat) : Floating f :=
  ⟨BitVec.ofNat f.width ((if negative then f.signWeight else 0) + magnitude)⟩

/-- The number whose bits are the low bits of `bits`. -/
def ofBits (bits : Nat) : Floating f := ⟨BitVec.ofNat f.width bits⟩

def zero : Floating f := ofMagnitude false 0

/-- The canonical word that denotes no number: positive, with the first fraction bit set. -/
def nan : Floating f := ofMagnitude false (f.infinity + 2 ^ (f.fractionBits - 1))

/-- What the word denotes. -/
def datum (x : Floating f) : Datum :=
  let exponent := x.magnitude / 2 ^ f.fractionBits
  let fraction := x.magnitude % 2 ^ f.fractionBits
  if x.isNaN then .nan
  else if x.magnitude = f.infinity then .infinite x.isNegative
  else if exponent = 0 then .finite x.isNegative fraction f.minUnit
  else .finite x.isNegative (2 ^ f.fractionBits + fraction) (f.minUnit + (exponent - 1))

/-- The number nearest to `num / den` under a sign. -/
def ofQuotient (negative : Bool) (num den : Nat) : Floating f :=
  ofMagnitude negative (f.roundMagnitude num den)

/-- The number nearest to `n * 2 ^ e` under a sign. -/
def ofScaled (negative : Bool) (n : Nat) (e : Int) : Floating f :=
  ofQuotient negative (scaleByTwo n e).1 (scaleByTwo n e).2

def ofInt (n : Int) : Floating f := ofQuotient (n < 0) n.natAbs 1

def convert (x : Floating f) : Floating g :=
  match x.datum with
  | .nan => nan
  | .infinite negative => ofMagnitude negative g.infinity
  | .finite negative mantissa unit => ofScaled negative mantissa unit

def mul (x y : Floating f) : Floating f :=
  match x.datum, y.datum with
  | .finite s m u, .finite t n v => ofScaled (s != t) (m * n) (u + v)
  | .infinite s, .infinite t => ofMagnitude (s != t) f.infinity
  | .infinite s, .finite t n _ | .finite t n _, .infinite s =>
    if n = 0 then nan else ofMagnitude (s != t) f.infinity
  | _, _ => nan

def div (x y : Floating f) : Floating f :=
  match x.datum, y.datum with
  | .finite s m u, .finite t n v =>
    if n = 0 then if m = 0 then nan else ofMagnitude (s != t) f.infinity
    else
      let scaled := scaleByTwo m (u - v)
      ofQuotient (s != t) scaled.1 (scaled.2 * n)
  | .infinite s, .finite t _ _ => ofMagnitude (s != t) f.infinity
  | .finite s _ _, .infinite t => ofMagnitude (s != t) 0
  | _, _ => nan

/-- A whole number under a sign. -/
def signed (negative : Bool) (n : Nat) : Int := if negative then -(n : Int) else n

def sub (x y : Floating f) : Floating f :=
  match x.datum, y.datum with
  | .finite s m u, .finite t n v =>
    let unit := min u v
    let d : Int := signed s m * 2 ^ (u - unit).toNat - signed t n * 2 ^ (v - unit).toNat
    ofScaled (d < 0) d.natAbs unit
  | .infinite s, .infinite t => if s = t then nan else ofMagnitude s f.infinity
  | .infinite s, .finite _ _ _ => ofMagnitude s f.infinity
  | .finite _ _ _, .infinite t => ofMagnitude (!t) f.infinity
  | _, _ => nan

def abs (x : Floating f) : Floating f := ofMagnitude false x.magnitude

/-- The place of a number in the order of its format: magnitudes are ordered as their words, and
the two zeros share a place. -/
def place (x : Floating f) : Int := signed x.isNegative x.magnitude

/-- The order of two numbers, if both words denote one. -/
def order? (x y : Floating f) : Option Ordering :=
  if x.isNaN || y.isNaN then none else some (compare x.place y.place)

/-- Both words denote the same number. -/
def equals (x y : Floating f) : Bool := x.order? y = some .eq

def below (x y : Floating f) : Bool := x.order? y = some .lt

/-- The whole number nearest to `mantissa * 2 ^ unit`, a tie going away from zero. -/
def nearestWhole (mantissa : Nat) (unit : Int) : Nat :=
  if 0 ≤ unit then mantissa * 2 ^ unit.toNat
  else (2 * mantissa + 2 ^ (-unit).toNat) / (2 * 2 ^ (-unit).toNat)

/-- The nearest whole number, a tie going away from zero, if the number is finite. -/
def toInt? (x : Floating f) : Option Int :=
  match x.datum with
  | .finite negative mantissa unit => some (signed negative (nearestWhole mantissa unit))
  | _ => none

/-- One word for each number: zero loses its sign, and every word that denotes no number becomes
the canonical one. -/
def canonical (x : Floating f) : Floating f :=
  if x.isNaN then nan else if x.isZero then zero else x

/-- `x` to the power `n < 256`, by squaring: the bits of `n` are taken from the lowest up and each
product is rounded. -/
def power (x : Floating f) (n : Nat) : Floating f :=
  let step := fun (acc : Floating f × Floating f) (i : Nat) =>
    (if n.testBit i then acc.1.mul acc.2 else acc.1, acc.2.mul acc.2)
  ((List.range 8).foldl step (ofInt 1, x)).1

end Floating

end ResultSink
