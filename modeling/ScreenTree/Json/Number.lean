import ScreenTree.Decimal.Shortest

/-! # Numbers of JSON

A number is an integer of 64 bits, signed or unsigned, or else a finite double. -/

namespace ScreenTree

inductive Number
  | integer (value : Int) (range : -0x8000000000000000 ≤ value ∧ value ≤ 0xffffffffffffffff)
  | double (value : Double)
  deriving DecidableEq

namespace Number

/-- The integer as a number, if it has 64 bits. -/
def ofInt? (i : Int) : Option Number :=
  if h : -0x8000000000000000 ≤ i ∧ i ≤ 0xffffffffffffffff then some (.integer i h) else none

def isZero : Number → Bool
  | .integer i _ => i == 0
  | .double x => x.isZero

/-- A double in JSON text has the fewest digits, an equal choice going to the even one. It is
written with an exponent outside `10 ^ -5` to `10 ^ 15`, and with `.0` when it is whole. -/
def doubleText (x : Double) : List Char :=
  let sign := if x.negative then ['-'] else []
  if x.isZero then sign ++ ['0', '.', '0']
  else
    let d := Decimal.shortest .toEven x
    if d.exponent < -5 ∨ 15 < d.exponent then sign ++ d.scientific
    else
      let tail := if d.digits.length ≤ d.point then ['.', '0'] else []
      sign ++ d.positional ++ tail

/-- The text of a number in JSON. -/
def jsonText : Number → List Char
  | .integer i _ => (Numeral.intText i).toList
  | .double x => doubleText x

/-- A whole double from this magnitude on is written by its shortest digits in markup. -/
def markupBound : Nat := Nat.pow 10 21

/-- The text of a number in markup never has an exponent. A whole double below `10 ^ 21` has all
its digits, any other one the fewest, an equal choice going up. -/
def markupText : Number → String
  | .integer i _ => Numeral.intText i
  | .double x =>
    let sign := if x.negative then "-" else ""
    match x.whole? with
    | some n =>
      if n < markupBound then sign ++ Numeral.text 10 n
      else sign ++ String.ofList (Decimal.shortest .up x).positional
    | none => sign ++ String.ofList (Decimal.shortest .up x).positional

end Number

/-- A number as it is written in JSON: decimal digits before the point, after it, and an
exponent. -/
structure NumberText where
  negative : Bool
  whole : List Nat
  fraction : Option (List Nat)
  exponent : Option Int
  deriving DecidableEq

namespace NumberText

/-- A significand is collected while it has 64 bits. -/
def maxSignificand : Nat := 0xffffffffffffffff

/-- Appends digits to `acc` as long as the result has 64 bits; counts those taken. -/
def collect (acc : Nat) : List Nat → Nat × Nat
  | [] => (acc, 0)
  | d :: ds =>
    if acc * 10 + d ≤ maxSignificand then
      let (n, k) := collect (acc * 10 + d) ds
      (n, k + 1)
    else (acc, 0)

/-- The integer that is written, if the text has neither point nor exponent, is not minus zero
and fits. -/
def integer? (t : NumberText) : Option Number :=
  match t.fraction, t.exponent with
  | none, none =>
    let n := Numeral.value 10 t.whole
    if t.negative then
      if n = 0 then none
      else if n ≤ 0x8000000000000000 then Number.ofInt? (-n) else none
    else Number.ofInt? n
  | _, _ => none

/-- The double that is written. Digits before the point that do not fit into the significand
count in the exponent; digits after the point that do not fit are dropped. -/
def double? (t : NumberText) : Option Double :=
  let (whole, taken) := collect 0 t.whole
  let (significand, places) := collect whole (t.fraction.getD [])
  let e : Int := (t.whole.length - taken : Nat) - (places : Int) + t.exponent.getD 0
  Double.ofScientific? t.negative significand e

/-- The number that is written; `none` if its magnitude is too large for a double. -/
def value? (t : NumberText) : Option Number :=
  match t.integer? with
  | some n => some n
  | none => t.double?.map Number.double

end NumberText
end ScreenTree
