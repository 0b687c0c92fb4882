import ScreenTree.Decimal.Shortest
import ScreenTree.Script.Literal

/-! # Numbers of a script

Numerals are read as doubles; `none` stands for a number beyond all doubles. A number is written in
the shortest of a few forms. -/

namespace ScreenTree.Script.Number

/-! ## Reading -/

/-- Appends a digit to a number and rounds. -/
def appendDigit? (base : Nat) (x : Option Double) (digit : Nat) : Option Double :=
  x.bind fun x => Double.ofQuotient? false (x.units * base + digit * Double.scale) Double.scale

/-- The number of a whole numeral. It is rounded once if every numeral of its length fits into 64
bits, and else at each digit. -/
def ofDigits? (base : Nat) (ds : List Nat) : Option Double :=
  if Nat.pow base ds.length ≤ Nat.pow 2 64 then Double.ofNat? (Numeral.value base ds)
  else ds.foldl (appendDigit? base) (some (Double.zero false))

/-- Powers of ten above this one are beyond all doubles, and their reciprocals round to zero. -/
def maxPower : Nat := 400

/-- The double nearest to `n * 10 ^ e`, where `n` has at most `length` digits. -/
def ofScientific? (n length : Nat) (e : Int) : Option Double :=
  if n = 0 ∨ e + length < -maxPower then some (Double.zero false)
  else if maxPower < e then none
  else Double.ofQuotient? false (n * Nat.pow 10 e.toNat) (Nat.pow 10 (-e).toNat)

/-- Reads digits, between which single underscores may stand. -/
def digits (isDigit : Char → Bool) : List Char → List Char × List Char
  | [] => ([], [])
  | c :: cs =>
    if isDigit c then
      match cs with
      | '_' :: d :: cs =>
        if isDigit d then
          let (ds, left) := digits isDigit (d :: cs)
          (c :: ds, left)
        else ([c], '_' :: d :: cs)
      | cs =>
        let (ds, left) := digits isDigit cs
        (c :: ds, left)
    else ([], c :: cs)

def decimalDigits (cs : List Char) : List Nat × List Char :=
  let (ds, left) := digits Char.isDigit cs
  (ds.filterMap Numeral.digit?, left)

/-- Reads the exponent of a numeral, if it has one. -/
def exponent? (cs : List Char) : Option (Option Int × List Char) :=
  match cs with
  | 'e' :: cs | 'E' :: cs =>
    let negative := cs.head? == some '-'
    let cs := if negative || cs.head? == some '+' then cs.drop 1 else cs
    let (ds, left) := decimalDigits cs
    let n : Int := Numeral.value 10 ds
    if ds.isEmpty then none else some (some (if negative then -n else n), left)
  | cs => some (none, cs)

/-- Reads a decimal numeral, which may have a point and an exponent. -/
def decimal? (cs : List Char) : Option (Option Double × List Char) :=
  let (whole, cs) := decimalDigits cs
  let point := cs.head? == some '.'
  let (fraction, cs) := if point then decimalDigits (cs.drop 1) else ([], cs)
  if whole.isEmpty && fraction.isEmpty then none
  else
    (exponent? cs).map fun (e, cs) =>
      let ds := whole ++ fraction
      (if !point && e.isNone then ofDigits? 10 whole
        else ofScientific? (Numeral.value 10 ds) ds.length (e.getD 0 - fraction.length), cs)

/-- Reads the digits of a numeral behind the sign of its base. -/
def based? (base : Nat) (cs : List Char) : Option (Option Double × List Char) :=
  let digit? (c : Char) := (Literal.hexValue? c).filter (· < base)
  let (ds, left) := digits (fun c => (digit? c).isSome) cs
  if ds.isEmpty then none else some (ofDigits? base (ds.filterMap digit?), left)

/-- Reads a numeral. One that begins with zero, but has octal digits only, is octal; no underscore
stands between digits behind a zero. -/
def read? (cs : List Char) : Option (Option Double × List Char) :=
  match cs with
  | '0' :: 'x' :: cs | '0' :: 'X' :: cs => based? 16 cs
  | '0' :: 'o' :: cs | '0' :: 'O' :: cs => based? 8 cs
  | '0' :: 'b' :: cs | '0' :: 'B' :: cs => based? 2 cs
  | '0' :: _ =>
    let ds := cs.takeWhile Char.isDigit
    let left := cs.dropWhile Char.isDigit
    if left.head? == some '_' then none
    else if ds.all Literal.isOctalDigit && 1 < ds.length then based? 8 cs
    else decimal? cs
  | cs => decimal? cs

/-! ## Writing -/

/-- The digits of a decimal with an exponent and without a point. -/
def exponentForm (d : Decimal) : List Char :=
  let e := d.point - d.digits.length
  d.symbols ++ 'e' :: (if e < 0 then ['-'] else []) ++ Numeral.chars 10 e.natAbs

/-- A decimal that is large or small has a point behind its first digit and an exponent. No zero
stands before a point. -/
def plainForm (d : Decimal) : List Char :=
  if d.point ≤ -6 ∨ 21 < d.point then d.scientific.filter (· != '+')
  else if d.point ≤ 0 then d.positional.drop 1
  else d.positional

/-- Whole numbers below this one are always written in decimal. -/
def decimalBound : Nat := 1000

def shorter (s t : List Char) : List Char :=
  if t.length < s.length then t else s

/-- The text of a number: its plain form, unless its hexadecimal numeral is shorter, or else its
digits with an exponent are. -/
def text (x : Double) : String :=
  let d := Decimal.shortest .toEven x
  let plain := plainForm d
  String.ofList <|
    match x.whole? with
    | some n =>
      let hex := '0' :: 'x' :: Numeral.chars 16 n
      if n < decimalBound then Numeral.chars 10 n
      else if hex.length < plain.length then hex
      else shorter plain (exponentForm d)
    | none => shorter plain (exponentForm d)

end ScreenTree.Script.Number
