import ScreenTree.Text.Blank
import ScreenTree.Text.Numeral

/-! # Strings of a script

The value of a string is a list of letters: characters, and surrogates that stand without their
other half. `upTo?` reads the source text of a string, `quoted` writes a value. -/

namespace ScreenTree.Script

inductive Letter
  | char (c : Char)
  /-- A surrogate without its other half. -/
  | lone (code : Nat)
  deriving DecidableEq, Inhabited

def Letter.isChar : Letter → Bool
  | .char _ => true
  | .lone _ => false

/-- The value of a string. -/
abbrev Literal := List Letter

namespace Literal

def ofString (s : String) : Literal :=
  s.toList.map .char

/-- Whether a string holds characters only. -/
def isWhole (s : Literal) : Bool :=
  s.all Letter.isChar

/-! ## Reading -/

def hexValue? (c : Char) : Option Nat :=
  if '0' ≤ c ∧ c ≤ '9' then some (c.toNat - '0'.toNat)
  else if 'a' ≤ c ∧ c ≤ 'f' then some (c.toNat - 'a'.toNat + 10)
  else if 'A' ≤ c ∧ c ≤ 'F' then some (c.toNat - 'A'.toNat + 10)
  else none

/-- The number of hexadecimal digits, of which there is at least one. -/
def hexNumber? : List Char → Option Nat
  | [] => none
  | cs => (cs.mapM hexValue?).map (Numeral.value 16)

def isHighSurrogate (n : Nat) : Bool :=
  0xd800 ≤ n && n < 0xdc00

def isLowSurrogate (n : Nat) : Bool :=
  0xdc00 ≤ n && n < 0xe000

/-- The letter with this number, unless it is too large. -/
def letter? (n : Nat) : Option Letter :=
  if isHighSurrogate n || isLowSurrogate n then some (.lone n)
  else if n.isValidChar then some (.char (Char.ofNat n))
  else none

/-- The number of the character that two surrogates stand for. -/
def pairNumber (high low : Nat) : Nat :=
  0x10000 + (high - 0xd800) * 0x400 + (low - 0xdc00)

def isOctalDigit (c : Char) : Bool :=
  '0' ≤ c && c ≤ '7'

/-- How many octal digits an escape has at most, so that its number stays below 256. -/
def octalLength (first : Char) : Nat :=
  if first ≤ '3' then 3 else 2

/-- The character that stands behind a backslash for another one or for itself. -/
def escaped? (c : Char) : Option Char :=
  if c = 'n' then some '\n'
  else if c = 'r' then some '\r'
  else if c = 't' then some '\t'
  else if c = 'b' then some '\x08'
  else if c = 'v' then some '\x0b'
  else if c = 'f' then some '\x0c'
  else if c = 'x' then none
  else some c

/-- Reads four hexadecimal digits. -/
def fourDigits? (cs : List Char) : Option (Nat × List Char) :=
  if cs.length < 4 then none else (hexNumber? (cs.take 4)).map fun n => (n, cs.drop 4)

/-- Reads the number of a letter in braces or in four digits, behind a backslash and a `u`. -/
def letterNumber? (cs : List Char) : Option (Nat × List Char) :=
  match cs with
  | '\x7b' :: cs =>
    match cs.dropWhile (· != '\x7d') with
    | _ :: left => (hexNumber? (cs.takeWhile (· != '\x7d'))).map fun n => (n, left)
    | [] => none
  | cs => fourDigits? cs

/-- Reads an escape behind its backslash, with the letter that it stands for, if any. Two surrogates
of four digits each, a high and a low one, stand for one character. -/
def escape? : List Char → Option (Option Letter × List Char)
  | 'x' :: a :: b :: cs => ((hexNumber? [a, b]).bind letter?).map fun l => (some l, cs)
  | 'u' :: cs => do
    let (n, left) ← letterNumber? cs
    match isHighSurrogate n && cs.head? != some '\x7b', left with
    | true, '\\' :: 'u' :: next =>
      let (m, behind) ← fourDigits? next
      if isLowSurrogate m then (letter? (pairNumber n m)).map fun l => (some l, behind)
      else some (some (.lone n), left)
    | _, left => (letter? n).map fun l => (some l, left)
  | '\r' :: '\n' :: cs => some (none, cs)
  | c :: cs =>
    if Text.isLineEnd c then some (none, cs)
    else if isOctalDigit c then
      let digits := (c :: cs).takeWhile isOctalDigit |>.take (octalLength c)
      (letter? (Numeral.value 8 (digits.filterMap Numeral.digit?))).map fun l =>
        (some l, (c :: cs).drop digits.length)
    else (escaped? c).map fun c => (some (.char c), cs)
  | [] => none

/-- The value of a string up to its closing quote, and what is left; `bound` limits the number of
letters. -/
def upTo? (close : Char) : Nat → List Char → Option (Literal × List Char)
  | 0, _ => none
  | bound + 1, cs =>
    match cs with
    | [] => none
    | '\\' :: cs =>
      (escape? cs).bind fun (l, cs) =>
        (upTo? close bound cs).map fun (text, left) => (l.toList ++ text, left)
    | c :: cs =>
      if c = close then some ([], cs)
      else if c = '\n' ∨ c = '\r' then none
      else (upTo? close bound cs).map fun (text, left) => (.char c :: text, left)

/-! ## Writing -/

def isDigit : Letter → Bool
  | .char c => c.isDigit
  | .lone _ => false

/-- The digits of the number of a letter. -/
def codeDigits (code : Nat) : List Char :=
  Numeral.chars 16 code

/-- A character as it is written before another letter. -/
def escapeChar (next : Option Letter) (c : Char) : List Char :=
  if c = '\x00' then
    if next.any isDigit then ['\\', 'x', '0', '0'] else ['\\', '0']
  else if c = '\x07' then ['\\', 'x', '0', '7']
  else if c = '\x08' then ['\\', 'b']
  else if c = '\x0b' then ['\\', 'v']
  else if c = '\x0c' then ['\\', 'f']
  else if c = '\n' then ['\\', 'n']
  else if c = '\r' then ['\\', 'r']
  else if c = '\x1b' then ['\\', 'x', '1', 'B']
  else if c = '\\' then ['\\', '\\']
  else if c = '"' then ['\\', '"']
  else if c = '\u00a0' then ['\\', 'x', 'A', '0']
  else if c = '\u2028' then ['\\', 'u', '2', '0', '2', '8']
  else if c = '\u2029' then ['\\', 'u', '2', '0', '2', '9']
  else [c]

def escapeLetter (next : Option Letter) : Letter → List Char
  | .char c => escapeChar next c
  | .lone n => '\\' :: 'u' :: codeDigits n

def lowerCase : Letter → Letter
  | .char c => .char c.toLower
  | l => l

/-- The end tag of a script up to the end of its name. -/
def scriptEnd : Literal :=
  ofString "</script"

/-- Whether a text goes on like the end tag of a script, in any case of letters. -/
def beginsScriptEnd (s : Literal) : Bool :=
  (s.take scriptEnd.length).map lowerCase == scriptEnd

/-- Escapes a string. The end tag of a script is taken apart by a backslash. -/
def escape : Literal → List Char
  | [] => []
  | l :: ls =>
    if beginsScriptEnd (l :: ls) then '<' :: '\\' :: escape ls
    else escapeLetter ls.head? l ++ escape ls

/-- The source text of a string. -/
def quoted (s : Literal) : String :=
  "\"" ++ String.ofList (escape s) ++ "\""

/-- The character that stands for a letter without a place in a text. -/
def replacement : Char := '\ufffd'

/-- A letter without escapes in a string that is whole or not. Where the replacement character
stands for something, the digits of what it stands for follow it. -/
def spelled (whole : Bool) : Letter → List Char
  | .char c => if c = replacement ∧ whole = false then c :: codeDigits c.toNat else [c]
  | .lone n => replacement :: codeDigits n

/-- The characters of a string without escapes. -/
def plain (s : Literal) : String :=
  String.ofList (s.flatMap (spelled s.isWhole))

end Literal
end ScreenTree.Script
