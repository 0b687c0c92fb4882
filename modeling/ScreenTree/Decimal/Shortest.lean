import ScreenTree.Decimal.Double
import ScreenTree.Text.Numeral

/-! # Shortest decimals

The decimal of fewest digits that lies in the interval of reals rounding to a given double, and
among several of that length the nearest one. -/

namespace ScreenTree

/-- Which of two equally near decimals is taken. -/
inductive Tie
  | toEven
  | up
  deriving DecidableEq

/-- A positive decimal `0.d₁d₂… * 10 ^ point` whose last digit is not zero. -/
structure Decimal where
  digits : List Nat
  point : Int
  deriving DecidableEq

namespace Decimal

/-- The decimal of `n * 10 ^ e`. -/
def ofNat (n : Nat) (e : Int) : Decimal :=
  let ds := Numeral.digits 10 n
  ⟨(ds.reverse.dropWhile (· == 0)).reverse, ds.length + e⟩

/-- The exponent of the leading digit. -/
def exponent (d : Decimal) : Int :=
  d.point - 1

/-- Reals that round to a double, as quotients over one denominator, the ends included iff the
significand is even. -/
structure Interval where
  low : Nat
  value : Nat
  high : Nat
  den : Nat
  closed : Bool

def Interval.ofDouble (x : Double) : Interval :=
  let gap := Nat.pow 2 x.exponent
  let below := if x.significand = Nat.pow 2 52 ∧ 0 < x.exponent then gap else 2 * gap
  { low := 4 * x.units - below
    value := 4 * x.units
    high := 4 * x.units + 2 * gap
    den := 4 * Double.scale
    closed := x.significand % 2 == 0 }

/-- Measures the interval in units of `10 ^ e`. -/
def Interval.inUnits (i : Interval) (e : Int) : Interval :=
  let up := Nat.pow 10 (-e).toNat
  { i with
    low := i.low * up
    value := i.value * up
    high := i.high * up
    den := i.den * Nat.pow 10 e.toNat }

def Interval.holds (i : Interval) (n : Nat) : Bool :=
  if i.closed then i.low ≤ n * i.den && n * i.den ≤ i.high
  else i.low < n * i.den && n * i.den < i.high

/-- The whole number of the interval that is nearest to its value, if it holds one of the two
neighbours. -/
def Interval.nearest? (tie : Tie) (i : Interval) : Option Nat :=
  let a := i.value / i.den
  let b := a + 1
  match i.holds a, i.holds b with
  | false, false => none
  | true, false => some a
  | false, true => some b
  | true, true =>
    let r := 2 * (i.value % i.den)
    if r < i.den then some a
    else if i.den < r then some b
    else match tie with
      | .up => some b
      | .toEven => some (if a % 2 = 0 then a else b)

/-- The exponent of the leading digit of a positive quotient, above `10 ^ -325`. -/
def leadingExponent (num den : Nat) : Int :=
  if den ≤ num then (Numeral.digits 10 (num / den)).length - 1
  else
    match (List.range 326).find? (fun j => den ≤ num * Nat.pow 10 j) with
    | some j => -(j : Int)
    | none => -326

/-- Seventeen digits tell every double from its neighbours. -/
def maxDigits : Nat := 17

/-- The shortest decimal of a positive magnitude. -/
def shortest (tie : Tie) (x : Double) : Decimal :=
  let i := Interval.ofDouble x
  let lead := leadingExponent i.value i.den
  let found := (List.range maxDigits).findSome? fun (k : Nat) =>
    let e := lead - k
    ((i.inUnits e).nearest? tie).map fun n => ofNat n e
  found.getD (ofNat 0 0)

/-- The digits as characters. -/
def symbols (d : Decimal) : List Char :=
  d.digits.map Numeral.symbol

/-- Writes the decimal without exponent, and without a point when it is whole. -/
def positional (d : Decimal) : List Char :=
  let ds := d.symbols
  if d.point ≤ 0 then
    '0' :: '.' :: (List.replicate (-d.point).toNat '0' ++ ds)
  else
    let whole := d.point.toNat
    if ds.length ≤ whole then ds ++ List.replicate (whole - ds.length) '0'
    else ds.take whole ++ '.' :: ds.drop whole

/-- Writes the decimal with one digit before the point and a signed exponent. -/
def scientific (d : Decimal) : List Char :=
  let mantissa := match d.symbols with
    | [] => []
    | [c] => [c]
    | c :: cs => c :: '.' :: cs
  let e := d.exponent
  mantissa ++ 'e' :: (if e < 0 then '-' else '+') :: Numeral.chars 10 e.natAbs

end Decimal
end ScreenTree
