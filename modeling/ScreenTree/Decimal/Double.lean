/-! # Finite doubles

A finite number of binary64 is `± significand * 2 ^ exponent / 2 ^ 1074`. Products and quotients
are taken exactly and rounded once, to the nearest double and an exact half to the even
significand. -/

namespace ScreenTree

/-- A finite binary64 number in its canonical form, so that equal numbers of equal sign are equal
as values. -/
structure Double where
  negative : Bool
  significand : Nat
  exponent : Nat
  canonical : significand < Nat.pow 2 53 ∧ exponent ≤ 2045 ∧
    (exponent = 0 ∨ Nat.pow 2 52 ≤ significand)
  deriving DecidableEq

namespace Double

/-- The reciprocal of the smallest positive double. -/
def scale : Nat := Nat.pow 2 1074

def zero (negative : Bool) : Double :=
  ⟨negative, 0, 0, by decide⟩

def isZero (x : Double) : Bool :=
  x.significand == 0

/-- The magnitude as a whole number of smallest positive doubles. -/
def units (x : Double) : Nat :=
  x.significand * Nat.pow 2 x.exponent

/-- The double with these parts, if they are canonical. -/
def ofParts? (negative : Bool) (significand exponent : Nat) : Option Double :=
  if h : significand < Nat.pow 2 53 ∧ exponent ≤ 2045 ∧
      (exponent = 0 ∨ Nat.pow 2 52 ≤ significand) then
    some ⟨negative, significand, exponent, h⟩
  else
    none

/-- The quotient rounded to the nearest integer, an exact half to the even one. -/
def roundQuotient (num den : Nat) : Nat :=
  let q := num / den
  let r := 2 * (num % den)
  if r < den then q else if den < r then q + 1 else q + q % 2

/-- The double nearest to `± num / den`; `none` if it is out of range. -/
def ofQuotient? (negative : Bool) (num den : Nat) : Option Double :=
  let scaled := num * scale
  let shift := Nat.log2 (scaled / den) - 52
  let significand := roundQuotient scaled (den * Nat.pow 2 shift)
  if significand = Nat.pow 2 53 then ofParts? negative (Nat.pow 2 52) (shift + 1)
  else ofParts? negative significand shift

def ofNat? (n : Nat) : Option Double :=
  ofQuotient? false n 1

/-- The product of the magnitudes, with the sign of `x`. -/
def mul? (x y : Double) : Option Double :=
  ofQuotient? x.negative (x.units * y.units) (scale * scale)

/-- The quotient of the magnitudes, with the sign of `x`. -/
def div? (x y : Double) : Option Double :=
  ofQuotient? x.negative x.units y.units

/-- The double nearest to a power of ten. -/
def powerOfTen? (e : Nat) : Option Double :=
  ofNat? (Nat.pow 10 e)

/-- The largest power of ten that a double reaches has this exponent. -/
def maxPower : Nat := 308

/-- Scales `x` by `10 ^ e` in steps of at most `10 ^ 308`. A scale above that range is refused
unless `x` is zero; `fuel` bounds the number of steps downwards. -/
def scaleByTen? : Nat → Double → Int → Option Double
  | 0, x, _ => some x
  | fuel + 1, x, e =>
    if x.isZero then some x
    else if e.natAbs ≤ maxPower then
      (powerOfTen? e.natAbs).bind fun p => if 0 ≤ e then mul? x p else div? x p
    else if 0 ≤ e then none
    else
      (powerOfTen? maxPower).bind fun p =>
        (div? x p).bind fun y => scaleByTen? fuel y (e + maxPower)

/-- The double of `± significand * 10 ^ e`, with a rounding at each step. -/
def ofScientific? (negative : Bool) (significand : Nat) (e : Int) : Option Double :=
  (ofQuotient? negative significand 1).bind fun x => scaleByTen? (e.natAbs + 1) x e

/-- The magnitude, if it is a whole number. -/
def whole? (x : Double) : Option Nat :=
  if x.units % scale = 0 then some (x.units / scale) else none

end Double
end ScreenTree
