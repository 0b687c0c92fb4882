import ScreenTree.Text.Numeral

/-! # Ids of new nodes

A made-up id is the time in milliseconds in base 36 followed by the first digits of a random
hexadecimal text. -/

namespace ScreenTree.Identity

/-- Random digits in an id. -/
def suffixLength : Nat := 11

def make (milliseconds : Nat) (random : String) : String :=
  Numeral.text 36 milliseconds ++ String.ofList (random.toList.take suffixLength)

/-- Whether a text has the shape of an id: lower-case letters and digits, ending in hexadecimal
ones. -/
def isLowerAlphanumeric (id : String) : Bool :=
  id.toList.all fun c => c.isDigit || c.isLower

def hasRandomSuffix (id : String) : Bool :=
  let digits := id.toList.drop (id.length - suffixLength)
  digits.length == suffixLength && digits.all fun c => c.isDigit || ('a' ≤ c && c ≤ 'f')

end ScreenTree.Identity
