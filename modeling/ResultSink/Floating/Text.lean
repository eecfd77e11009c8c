import ResultSink.Floating.Basic
import ResultSink.Text.Numeral

/-! The text of a floating-point number. It is the least number of digits that rounds back to the
number, written without an exponent; and a numeral is read as the number nearest to it. -/

namespace ResultSink

/-- The decimal digits and the power of ten of a positive number's text. -/
structure Digits where
  digits : Nat
  exponent : Int
  deriving DecidableEq

/-- The reals that round to a number, as quotients over one denominator: the number itself, the two
ends, and whether the ends belong to it. -/
structure RoundingInterval where
  value : Nat
  low : Nat
  high : Nat
  denominator : Nat
  closed : Bool

namespace RoundingInterval

/-- The interval of `mantissa * 2 ^ unit`. Its ends are half a unit away, except that the numbers
below a power of two are twice as dense; a tie goes to the even mantissa. -/
def of (f : Format) (mantissa : Nat) (unit : Int) : RoundingInterval :=
  let scale := (scaleByTwo 1 (unit - 2)).1
  let dense := mantissa = 2 ^ f.fractionBits ∧ f.minUnit < unit
  { value := 4 * mantissa * scale
    low := (4 * mantissa - if dense then 1 else 2) * scale
    high := (4 * mantissa + 2) * scale
    denominator := (scaleByTwo 1 (unit - 2)).2
    closed := mantissa % 2 = 0 }

/-- Whether `num / den` rounds to the number. -/
def contains (i : RoundingInterval) (num den : Nat) : Bool :=
  if i.closed then i.low * den ≤ num * i.denominator && num * i.denominator ≤ i.high * den
  else i.low * den < num * i.denominator && num * i.denominator < i.high * den

/-- The multiple of `10 ^ k` in the interval that is nearest to the number, the greater one on a
tie, among the two multiples next to the number. -/
def onGrid? (i : RoundingInterval) (k : Int) : Option Nat :=
  let up := 10 ^ k.toNat
  let down := 10 ^ (-k).toNat
  let num := i.value * down
  let den := i.denominator * up
  let below := num / den
  let hitBelow := i.contains (below * up) down
  let hitAbove := i.contains ((below + 1) * up) down
  if hitBelow && hitAbove then some (if den ≤ 2 * (num % den) then below + 1 else below)
  else if hitBelow then some below
  else if hitAbove then some (below + 1)
  else none

/-- The coarsest grid from `10 ^ k` on with a multiple in the interval; `fuel` grids are tried. -/
def search (i : RoundingInterval) : Nat → Int → Digits
  | 0, k => ⟨i.value * 10 ^ (-k).toNat / (i.denominator * 10 ^ k.toNat), k⟩
  | fuel + 1, k =>
    match i.onGrid? k with
    | some digits => ⟨digits, k⟩
    | none => search i fuel (k - 1)

end RoundingInterval

/-- The fewest digits that read back as `mantissa * 2 ^ unit`, and of those the nearest. The search
starts above the number, and a grid as fine as the number's own unit always has a multiple. -/
def shortestDigits (f : Format) (mantissa : Nat) (unit : Int) : Digits :=
  let magnitude := (Nat.log2 mantissa : Int) + unit
  let start := magnitude * 30103 / 100000 + 2
  (RoundingInterval.of f mantissa unit).search (f.fractionBits + 8) start

/-- Digits times a power of ten, without an exponent. -/
def Digits.layout (d : Digits) : List Char :=
  let digits := Nat.toDigits 10 d.digits
  let point := (digits.length : Int) + d.exponent
  if 0 ≤ d.exponent then digits ++ List.replicate d.exponent.toNat '0'
  else if 0 < point then digits.take point.toNat ++ '.' :: digits.drop point.toNat
  else '0' :: '.' :: (List.replicate (-point).toNat '0' ++ digits)

namespace Floating

variable {f : Format}

def text (x : Floating f) : String :=
  match x.datum with
  | .nan => "NaN"
  | .infinite negative => if negative then "-inf" else "inf"
  | .finite negative mantissa unit =>
    let magnitude := if mantissa = 0 then ['0'] else (shortestDigits f mantissa unit).layout
    String.ofList (if negative then '-' :: magnitude else magnitude)

/-- A bound on the decimal exponents that a format tells apart from zero and infinity. -/
def decimalReach (f : Format) : Nat := 2 ^ (f.exponentBits - 1)

/-- The number nearest to `digits * 10 ^ exponent`. A value far outside the format is not computed:
it rounds to zero or to the infinity. -/
def ofDecimal (negative : Bool) (digits : Nat) (exponent : Int) : Floating f :=
  let leading := ((Nat.toDigits 10 digits).length : Int) + exponent
  if digits = 0 ∨ leading < -(decimalReach f : Int) then ofMagnitude negative 0
  else if (decimalReach f : Int) < leading then ofMagnitude negative f.infinity
  else ofQuotient negative (digits * 10 ^ exponent.toNat) (10 ^ (-exponent).toNat)

/-- The number that a numeral denotes, rounded. -/
def ofNumeral : Text.Numeral → Floating f
  | .nan => nan
  | .infinite negative => ofMagnitude negative f.infinity
  | .finite negative digits exponent => ofDecimal negative digits exponent

end Floating

end ResultSink
