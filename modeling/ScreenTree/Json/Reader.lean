import ScreenTree.Json.Form

/-! # Reading JSON text

The strict grammar: blanks are space, tab, line feed and carriage return, control characters are
not allowed in strings, and nothing but blanks follows the value. -/

namespace ScreenTree.Json

def isSpace (c : Char) : Bool :=
  c == ' ' || c == '\t' || c == '\n' || c == '\r'

def skipSpace (cs : List Char) : List Char :=
  cs.dropWhile isSpace

/-- What a string holds between its quotes: characters, and code units written by number. -/
inductive StringItem
  | char (c : Char)
  | unit (n : Nat)
  deriving DecidableEq

def hexDigit? (c : Char) : Option Nat :=
  if '0' ≤ c ∧ c ≤ '9' then some (c.toNat - '0'.toNat)
  else if 'a' ≤ c ∧ c ≤ 'f' then some (c.toNat - 'a'.toNat + 10)
  else if 'A' ≤ c ∧ c ≤ 'F' then some (c.toNat - 'A'.toNat + 10)
  else none

def hexUnit? (a b c d : Char) : Option Nat := do
  let a ← hexDigit? a
  let b ← hexDigit? b
  let c ← hexDigit? c
  let d ← hexDigit? d
  return ((a * 16 + b) * 16 + c) * 16 + d

/-- The character of an escape of two characters. -/
def escaped? (c : Char) : Option Char :=
  if c = '"' ∨ c = '\\' ∨ c = '/' then some c
  else if c = 'b' then some '\x08'
  else if c = 'f' then some '\x0c'
  else if c = 'n' then some '\n'
  else if c = 'r' then some '\r'
  else if c = 't' then some '\t'
  else none

/-- Reads up to the closing quote. -/
def readItems : List Char → Option (List StringItem × List Char)
  | [] => none
  | '"' :: cs => some ([], cs)
  | '\\' :: 'u' :: a :: b :: c :: d :: cs =>
    (hexUnit? a b c d).bind fun n =>
      (readItems cs).map fun (items, rest) => (.unit n :: items, rest)
  | '\\' :: c :: cs =>
    (escaped? c).bind fun c =>
      (readItems cs).map fun (items, rest) => (.char c :: items, rest)
  | c :: cs =>
    if c = '\\' ∨ c.toNat < 0x20 then none
    else (readItems cs).map fun (items, rest) => (.char c :: items, rest)

def isHighSurrogate (n : Nat) : Bool := 0xd800 ≤ n && n < 0xdc00

def isLowSurrogate (n : Nat) : Bool := 0xdc00 ≤ n && n < 0xe000

/-- The characters of a string's items: a high surrogate is joined with the low one behind it, and
either alone spoils the string. -/
def joinItems : List StringItem → Option (List Char)
  | [] => some []
  | .char c :: items => (joinItems items).map (c :: ·)
  | .unit n :: items =>
    if isLowSurrogate n then none
    else if isHighSurrogate n then
      match items with
      | .unit m :: items =>
        if isLowSurrogate m then
          (joinItems items).map (Char.ofNat (0x10000 + (n - 0xd800) * 0x400 + (m - 0xdc00)) :: ·)
        else none
      | _ => none
    else (joinItems items).map (Char.ofNat n :: ·)

/-- Reads a string behind its opening quote. -/
def readString (cs : List Char) : Option (Option String × List Char) :=
  (readItems cs).map fun (items, rest) => ((joinItems items).map String.ofList, rest)

/-- The digits at the front, as numbers. -/
def takeDigits (cs : List Char) : List Nat × List Char :=
  ((cs.takeWhile Char.isDigit).map (fun c => c.toNat - '0'.toNat), cs.dropWhile Char.isDigit)

/-- Reads digits, of which there is at least one. -/
def readDigits (cs : List Char) : Option (List Nat × List Char) :=
  match takeDigits cs with
  | ([], _) => none
  | (ds, rest) => some (ds, rest)

/-- Reads the digits before the point, which have no needless zero in front. -/
def readWhole (cs : List Char) : Option (List Nat × List Char) :=
  match readDigits cs with
  | some (0 :: _ :: _, _) => none
  | r => r

def readFraction : List Char → Option (Option (List Nat) × List Char)
  | '.' :: cs => (readDigits cs).map fun (ds, rest) => (some ds, rest)
  | cs => some (none, cs)

/-- Reads an exponent behind its letter. -/
def readPower : List Char → Option (Int × List Char)
  | '+' :: cs => (readDigits cs).map fun (ds, rest) => ((Numeral.value 10 ds : Int), rest)
  | '-' :: cs => (readDigits cs).map fun (ds, rest) => (-(Numeral.value 10 ds : Int), rest)
  | cs => (readDigits cs).map fun (ds, rest) => ((Numeral.value 10 ds : Int), rest)

def readExponent : List Char → Option (Option Int × List Char)
  | 'e' :: cs | 'E' :: cs => (readPower cs).map fun (e, rest) => (some e, rest)
  | cs => some (none, cs)

/-- Reads a number without its sign. -/
def readUnsigned (negative : Bool) (cs : List Char) : Option (NumberText × List Char) := do
  let (whole, cs) ← readWhole cs
  let (fraction, cs) ← readFraction cs
  let (exponent, cs) ← readExponent cs
  return ({ negative, whole, fraction, exponent }, cs)

def readNumber : List Char → Option (NumberText × List Char)
  | '-' :: cs => readUnsigned true cs
  | cs => readUnsigned false cs

mutual

/-- Reads one value behind blanks; `fuel` bounds the number of steps. -/
def readValue : Nat → List Char → Option (Form × List Char)
  | 0, _ => none
  | fuel + 1, cs =>
    match skipSpace cs with
    | 'n' :: 'u' :: 'l' :: 'l' :: cs => some (.null, cs)
    | 't' :: 'r' :: 'u' :: 'e' :: cs => some (.bool true, cs)
    | 'f' :: 'a' :: 'l' :: 's' :: 'e' :: cs => some (.bool false, cs)
    | '"' :: cs => (readString cs).map fun (s, rest) => (.string s, rest)
    | '[' :: cs =>
      match skipSpace cs with
      | ']' :: cs => some (.array [], cs)
      | cs => (readElements fuel cs).map fun (items, rest) => (.array items, rest)
    | '\x7b' :: cs =>
      match skipSpace cs with
      | '\x7d' :: cs => some (.object [], cs)
      | cs => (readMembers fuel cs).map fun (members, rest) => (.object members, rest)
    | cs => (readNumber cs).map fun (n, rest) => (.number n, rest)

/-- Reads the items of an array, of which there is at least one, and its end. -/
def readElements : Nat → List Char → Option (List Form × List Char)
  | 0, _ => none
  | fuel + 1, cs =>
    (readValue fuel cs).bind fun (form, cs) =>
      match skipSpace cs with
      | ',' :: cs => (readElements fuel cs).map fun (forms, rest) => (form :: forms, rest)
      | ']' :: cs => some ([form], cs)
      | _ => none

/-- Reads the members of an object, of which there is at least one, and its end. -/
def readMembers : Nat → List Char → Option (List (Option String × Form) × List Char)
  | 0, _ => none
  | fuel + 1, cs =>
    match skipSpace cs with
    | '"' :: cs =>
      (readString cs).bind fun (name, cs) =>
        match skipSpace cs with
        | ':' :: cs =>
          (readValue fuel cs).bind fun (form, cs) =>
            match skipSpace cs with
            | ',' :: cs =>
              (readMembers fuel cs).map fun (ms, rest) => ((name, form) :: ms, rest)
            | '\x7d' :: cs => some ([(name, form)], cs)
            | _ => none
        | _ => none
    | _ => none

end

/-- The form of a whole text; a step is made at most twice for each character. -/
def Form.ofText? (text : String) : Option Form :=
  let cs := text.toList
  (readValue (2 * cs.length + 2) cs).bind fun (form, rest) =>
    if (skipSpace rest).isEmpty then some form else none

/-- Reads a typed value from a whole text. -/
def Form.read? {α : Type} (value : Form.Reader α) (text : String) : Option α :=
  (Form.ofText? text).bind (value Form.maxDepth)

end ScreenTree.Json
