/-! # Positional numerals

Digits of a natural number in any base from 2 to 36, most significant first, with the symbols
`0-9a-z`, and the number that a list of digits stands for. -/

namespace ScreenTree.Numeral

/-- Puts the digits of `n` before `acc`; `fuel` bounds their number. -/
def digitsOnto (base : Nat) : Nat → Nat → List Nat → List Nat
  | 0, _, acc => acc
  | fuel + 1, n, acc =>
    if n < base then n :: acc else digitsOnto base fuel (n / base) (n % base :: acc)

/-- The digits of `n`; zero has the one digit `0`. -/
def digits (base n : Nat) : List Nat :=
  digitsOnto base (n + 1) n []

/-- The number that `ds` stands for. -/
def value (base : Nat) (ds : List Nat) : Nat :=
  ds.foldl (fun acc d => acc * base + d) 0

/-- The symbol of a digit below 36. -/
def symbol (d : Nat) : Char :=
  if d < 10 then Char.ofNat ('0'.toNat + d) else Char.ofNat ('a'.toNat + (d - 10))

/-- The digit that a decimal symbol stands for. -/
def digit? (c : Char) : Option Nat :=
  if '0' ≤ c ∧ c ≤ '9' then some (c.toNat - '0'.toNat) else none

/-- The numeral of `n` as characters. -/
def chars (base n : Nat) : List Char :=
  (digits base n).map symbol

/-- The numeral of `n` as text. -/
def text (base n : Nat) : String :=
  String.ofList (chars base n)

/-- The decimal numeral of an integer, with a sign only below zero. -/
def intText (i : Int) : String :=
  if i < 0 then "-" ++ text 10 i.natAbs else text 10 i.natAbs

/-- Reading the digits of `n` and then those behind them is reading on from `n`. -/
theorem value_digitsOnto {base : Nat} (hbase : 2 ≤ base) (fuel n : Nat) (acc : List Nat)
    (hfuel : n < fuel) :
    value base (digitsOnto base fuel n acc) = acc.foldl (fun v d => v * base + d) n := by
  induction fuel generalizing n acc with
  | zero => omega
  | succ fuel ih =>
    unfold digitsOnto
    split
    · simp [value]
    · next h =>
      have hlt : n / base < n := Nat.div_lt_self (by omega) (by omega)
      rw [ih (n / base) (n % base :: acc) (by omega), List.foldl_cons, Nat.mul_comm,
        Nat.div_add_mod]

/-- A numeral stands for its number. -/
theorem value_digits {base : Nat} (hbase : 2 ≤ base) (n : Nat) :
    value base (digits base n) = n :=
  value_digitsOnto hbase (n + 1) n [] (Nat.lt_succ_self n)

end ScreenTree.Numeral
