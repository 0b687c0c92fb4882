import ScreenTree.Script.Number
import ScreenTree.Text.Blank
import ScreenTree.Text.Identifier

/-! # Scanning a script

Readers of a text from the front, which answer what they have read and what is left, and the
smallest parts of a script: blanks, signs, words, strings and numbers. -/

namespace ScreenTree.Script

/-- Where in a module a part of it stands. -/
inductive Place
  /-- Outside of all functions. -/
  | top
  /-- In an arrow, but in no function with a word of its own. -/
  | arrow
  | function
  deriving DecidableEq

/-- Words that no variable of a module can have for its name. -/
def reservedWords : List String :=
  ["await", "break", "case", "catch", "class", "const", "continue", "debugger", "default",
    "delete", "do", "else", "enum", "export", "extends", "false", "finally", "for", "function",
    "if", "import", "in", "instanceof", "new", "null", "return", "super", "switch", "this",
    "throw", "true", "try", "typeof", "var", "void", "while", "with"]

namespace Place

/-- The place of what an arrow holds. -/
def inArrow : Place → Place
  | .top => .arrow
  | p => p

/-- Whether a function ends at a `return` here. -/
def isInFunction (p : Place) : Bool :=
  p != .top

/-- Whether a word cannot be the name of a variable here. -/
def isReserved (p : Place) (w : String) : Bool :=
  if w = "await" then p != .function else reservedWords.contains w

end Place

/-- A reader of the front of a text at a place. -/
abbrev Scan := ReaderT Place (StateT (List Char) Option)

namespace Scan

def fail {α : Type} : Scan α := fun _ _ => none

/-- The next character, which stays. -/
def peek : Scan (Option Char) := fun _ cs => some (cs.head?, cs)

/-- What is left. -/
def rest : Scan (List Char) := fun _ cs => some (cs, cs)

/-- Reads what a function takes from the front. -/
def taking {α : Type} (read? : List Char → Option (α × List Char)) : Scan α := fun _ cs =>
  read? cs

/-- Reads items as long as there are any, up to a bound. -/
def manyBounded {α : Type} (item : Scan α) : Nat → Scan (List α)
  | 0 => pure []
  | n + 1 => fun p cs =>
    match item p cs with
    | none => some ([], cs)
    | some (a, left) => (manyBounded item n p left).map fun (as, left) => (a :: as, left)

/-- Reads items as long as there are any. Each of them takes at least one character, so there are not
more items than characters. -/
def many {α : Type} (item : Scan α) : Scan (List α) := fun p cs =>
  match item p cs with
  | none => some ([], cs)
  | some (a, left) =>
    (manyBounded item left.length p left).map fun (as, left) => (a :: as, left)

def maybe {α : Type} (item : Scan α) : Scan (Option α) := fun p cs =>
  match item p cs with
  | some (a, left) => some (some a, left)
  | none => some (none, cs)

/-- Whether an item follows, which stays. -/
def follows {α : Type} (item : Scan α) : Scan Bool := fun p cs =>
  some ((item p cs).isSome, cs)

/-- Reads exactly these characters. -/
def exactly : List Char → Scan Unit
  | [] => pure ()
  | c :: cs => fun p left =>
    match left with
    | d :: left => if c = d then exactly cs p left else none
    | [] => none

/-- White space between the parts of a script, to which spaces without width belong. -/
def isBlank (c : Char) : Bool :=
  Text.isSpace c || c == '\u200b' || c == '\ufeff'

/-- Skips blanks, and answers whether a line has ended in them. -/
def blanks : Scan Bool :=
  taking fun cs => some ((cs.takeWhile isBlank).any Text.isLineEnd, cs.dropWhile isBlank)

/-- Reads a sign behind blanks. -/
def sign (cs : List Char) : Scan Unit := do
  let _ ← blanks
  exactly cs

/-- Reads a sign behind blanks on the same line. -/
def signOnLine (cs : List Char) : Scan Unit := do
  if ← blanks then fail else exactly cs

/-- Reads a sign behind blanks that does not go on with one of these characters. -/
def signNot (cs : List Char) (more : List Char) : Scan Unit := do
  sign cs
  match ← peek with
  | some c => if more.contains c then fail else pure ()
  | none => pure ()

/-- Reads a character of a class. -/
def charIn (isIn : Char → Bool) : Scan Char :=
  taking fun cs =>
    match cs with
    | c :: left => if isIn c then some (c, left) else none
    | [] => none

/-- Reads as many characters of a class as there are. -/
def charsIn (isIn : Char → Bool) : Scan (List Char) :=
  taking fun cs => some (cs.takeWhile isIn, cs.dropWhile isIn)

/-- Reads an escape that stands for a character of a class. -/
def escapedCharIn (isIn : Char → Bool) : Scan Char := do
  exactly ['\\', 'u']
  let n ← taking Literal.letterNumber?
  if n.isValidChar && isIn (Char.ofNat n) then return Char.ofNat n else fail

/-- Reads a word behind blanks, of which letters may be escaped. -/
def word : Scan String := do
  let _ ← blanks
  let c ← charIn Identifier.isStart <|> escapedCharIn Identifier.isStart
  let cs ← charsIn Identifier.isPart
  let parts ← many do
    let c ← escapedCharIn Identifier.isPart
    let cs ← charsIn Identifier.isPart
    return c :: cs
  return String.ofList (c :: cs ++ parts.flatten)

/-- Reads a word behind blanks that holds no escapes. -/
def unescapedWord : Scan String := do
  let _ ← blanks
  let before ← rest
  let w ← word
  let after ← rest
  if before.length = w.length + after.length then return w else fail

/-- Reads this word. -/
def keyword (text : String) : Scan Unit := do
  if (← unescapedWord) = text then pure () else fail

/-- Reads a word that can be the name of a variable. -/
def variableName : Scan String := do
  let w ← word
  if (← read).isReserved w then fail else pure w

/-- Reads a name inside a tag, which may hold hyphens. -/
def tagWord : Scan String := do
  let _ ← blanks
  let c ← charIn Identifier.isStart
  let cs ← charsIn fun c => Identifier.isPart c || c == '-'
  return String.ofList (c :: cs)

/-- Reads a quote. -/
def quote : Scan Char :=
  taking fun cs =>
    match cs with
    | c :: left => if c = '"' ∨ c = '\x27' then some (c, left) else none
    | [] => none

/-- Reads a string behind blanks. -/
def string : Scan Literal := do
  let _ ← blanks
  let close ← quote
  taking fun cs => Literal.upTo? close (cs.length + 1) cs

/-- Reads a string behind blanks, with its source text. -/
def stringSource : Scan String := do
  let _ ← blanks
  let before ← rest
  let _ ← string
  let after ← rest
  pure (String.ofList ((before.take (before.length - after.length - 1)).drop 1))

/-- Reads a quoted text in which nothing is escaped. -/
def rawString : Scan String := do
  let _ ← blanks
  let close ← quote
  taking fun cs =>
    match cs.dropWhile (· != close) with
    | _ :: left => some (String.ofList (cs.takeWhile (· != close)), left)
    | [] => none

/-- Reads a number behind blanks, which no word and no digit follows. -/
def number : Scan (Option Double) := do
  let _ ← blanks
  let x ← taking Number.read?
  match ← peek with
  | some c => if Identifier.isStart c || c.isDigit then fail else return x
  | none => return x

/-- Reads items between commas up to a closing sign, which ends the list also behind a comma. -/
def listBounded {α : Type} (item : Scan α) (close : List Char) : Nat → Scan (List α)
  | 0 => fail
  | n + 1 => do
    match ← maybe (sign close) with
    | some _ => pure []
    | none =>
      let a ← item
      match ← maybe (sign [',']) with
      | some _ =>
        let as ← listBounded item close n
        pure (a :: as)
      | none =>
        sign close
        pure [a]

def list {α : Type} (item : Scan α) (close : List Char) : Scan (List α) := do
  let cs ← rest
  listBounded item close (cs.length + 1)

/-- Reads items as `list` does, and at the end maybe one of another kind, which no comma follows. -/
def listBoundedWithLast {α : Type} (item last : Scan α) (close : List Char) :
    Nat → Scan (List α)
  | 0 => fail
  | n + 1 => do
    match ← maybe (sign close) with
    | some _ => pure []
    | none =>
      match ← maybe last with
      | some a =>
        sign close
        pure [a]
      | none =>
        let a ← item
        match ← maybe (sign [',']) with
        | some _ =>
          let as ← listBoundedWithLast item last close n
          pure (a :: as)
        | none =>
          sign close
          pure [a]

def listWithLast {α : Type} (item last : Scan α) (close : List Char) : Scan (List α) := do
  let cs ← rest
  listBoundedWithLast item last close (cs.length + 1)

/-- How a part of a statement ends, which decides what it takes in from the next line. -/
inductive Ending
  /-- It is complete, as behind a body in braces. -/
  | closed
  /-- An operator may follow, as behind markup. -/
  | operable
  /-- It may also be called or accessed. -/
  | operand
  deriving DecidableEq

/-- Whether a sign that could begin a statement goes on with what stands before it. -/
def Ending.takesIn : Ending → Char → Bool
  | .closed, _ => false
  | .operable, c => c == '<'
  | .operand, c => c == '<' || c == '(' || c == '['

/-- Ends a statement: at a semicolon, or without one before a closing brace, at the end of the text
and at the end of a line whose successor does not belong to it. -/
def statementEnd (e : Ending) : Scan Unit := do
  let line ← blanks
  match ← peek with
  | none | some '\x7d' => pure ()
  | some c =>
    if c = ';' then exactly [';']
    else if line && !e.takesIn c then pure ()
    else fail

end Scan
end ScreenTree.Script
