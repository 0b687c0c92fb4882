import ScreenTree.Script.Number
import ScreenTree.Script.Term
import ScreenTree.Text.Lines

/-! # The text of a script

Statements stand on lines of their own, indented by one tab a level. Parentheses are written only
where the meaning needs them: each kind of expression has a level, and one that stands at a place
of its own level or above it is put into parentheses. -/

namespace ScreenTree.Script

namespace Level

/-- Any expression may stand here. -/
def lowest : Nat := 0

/-- An item of a list. -/
def item : Nat := 1

/-- The level of arrows. -/
def arrow : Nat := 3

/-- The level of choices. -/
def choice : Nat := 4

/-- A side of a conjunction, which may be a conjunction itself. -/
def sideOfConjunction : Nat := 5

/-- The level of conjunctions. -/
def conjunction : Nat := 6

/-- The operand of a negation. -/
def operand : Nat := 7

/-- The level of negations. -/
def negation : Nat := 8

/-- What is called or accessed. -/
def access : Nat := 9

end Level

def tabs (indent : Nat) : String :=
  String.ofList (List.replicate indent '\t')

/-- A text between double quotes, or single ones if it holds a double quote. -/
def quoteRaw (s : String) : String :=
  if s.toList.contains '"' then "'" ++ s ++ "'" else "\"" ++ s ++ "\""

/-- Whether the first quote in the source of a directive, escapes apart, is a double one. -/
def firstQuoteIsDouble : List Char → Bool
  | [] => false
  | '\\' :: _ :: cs => firstQuoteIsDouble cs
  | c :: cs => if c = '"' then true else if c = '\x27' then false else firstQuoteIsDouble cs

/-- A directive keeps its source text. -/
def directiveText (s : String) : String :=
  if firstQuoteIsDouble s.toList then "'" ++ s ++ "';" else "\"" ++ s ++ "\";"

def parenthesized (wrap : Bool) (s : String) : String :=
  if wrap then "(" ++ s ++ ")" else s

def TagName.text : TagName → String
  | .plain n => n
  | .member path => Text.join "." path
  | .namespaced s n => s ++ ":" ++ n
  | .this => "this"

def Key.text : Key → String
  | .name t => t
  | .string v => v.quoted
  | .number x => Number.text x

/-- Items between braces on one line. -/
def inlineBraces (items : List String) : String :=
  if items.isEmpty then "\x7b\x7d" else "\x7b " ++ Text.join ", " items ++ " \x7d"

/-- Items on lines of their own, and a sign behind the last one. -/
def listLines (indent : Nat) (items : List String) (close : String) : String :=
  "\n" ++ Text.join ",\n" (items.map (tabs (indent + 1) ++ ·)) ++ close ++ "\n" ++ tabs indent

/-- Lines between braces, each with its end. -/
def blockLines (indent : Nat) (lines : List String) : String :=
  if lines.isEmpty then "\x7b\x7d"
  else "\x7b\n" ++ Text.concat (lines.map (· ++ "\n")) ++ tabs indent ++ "\x7d"

/-- How many items of an array stand on one line. -/
def maxInlineItems : Nat := 2

/-- How many members of an object stand on one line. -/
def maxInlineMembers : Nat := 1

/-- Bindings by name, in braces after the other ones. -/
def bindingTexts : List Binding → List String × List String
  | [] => ([], [])
  | .default n :: bs => let (a, b) := bindingTexts bs; (n :: a, b)
  | .space n :: bs => let (a, b) := bindingTexts bs; (("* as " ++ n) :: a, b)
  | .named k n :: bs =>
    let (a, b) := bindingTexts bs
    (a, (if k.letters = .ofString n then k.text else k.text ++ " as " ++ n) :: b)

def bindingsText (bs : List Binding) : String :=
  match bindingTexts bs with
  | ([], named) => inlineBraces named
  | (plain, []) => Text.join ", " plain
  | (plain, named) => Text.join ", " plain ++ ", " ++ inlineBraces named

def conditionsText : Option Conditions → String
  | none => ""
  | some cs => " with " ++ inlineBraces (cs.map fun (k, v) => k.text ++ ": " ++ v.quoted)

/-- The text of an import. If it has braces that bind nothing, its source is not escaped. -/
def Import.text (i : Import) : String :=
  "import " ++
    (match i.bindings with
      | some [] => bindingsText [] ++ " from \"" ++ i.source.plain ++ "\""
      | some bs => bindingsText bs ++ " from " ++ i.source.quoted
      | none => i.source.quoted) ++
    conditionsText i.conditions ++ ";"

def ExportName.text (n : ExportName) : String :=
  if n.name.letters = n.exported.letters then n.name.text
  else n.name.text ++ " as " ++ n.exported.text

namespace Term

/-- Whether a term is a condition, which cannot be the bare body of another one. -/
def isCondition : Term → Bool
  | .condition _ _ => true
  | _ => false

/-- Whether a point behind the term would be read as part of a number. -/
def endsInDigits : Term → Bool
  | .number x => (Number.text x).toList.all Char.isDigit
  | _ => false

/-- Whether a term is a variable that would begin a declaration before a bracket. -/
def isLet : Term → Bool
  | .name n => n == "let"
  | _ => false

def isGap : Term → Bool
  | .gap => true
  | _ => false

/-- The text of a string as a statement that is no directive. -/
def protectedString (s : Literal) : String :=
  "(" ++ s.quoted ++ ");"

/-- The lines of directives and of statements with these texts. A string that would be read as a
directive is protected, and begins its line. -/
def statementLines (indent : Nat) (directives : List String) (statements : List Term)
    (texts : List String) : List String :=
  let lines := texts.map (tabs indent ++ ·)
  match directives, statements with
  | [], .expression (.string v) :: _ => protectedString v :: lines.drop 1
  | ds, _ => ds.map (tabs indent ++ directiveText ·) ++ lines

/-- Whether a declaration ends without a semicolon of its own. -/
def isFunction : Term → Bool
  | .function _ _ _ => true
  | _ => false

mutual

/-- The text of a term at a level. `first` holds where a brace would open a block, so that an
object needs parentheses, and in a block where a string would be a directive. -/
def print (indent level : Nat) (first : Bool) : Term → String
  | .name t | .constant t => t
  | .number x => Number.text x
  | .string v => v.quoted
  | .member o p =>
    print indent Level.access first o ++ (if o.endsInDigits then " ." else ".") ++ p
  | .index o p =>
    parenthesized o.isLet (print indent Level.access first o) ++ "[" ++
      print indent Level.lowest false p ++ "]"
  | .call c as =>
    print indent Level.access first c ++ "(" ++ Text.join ", " (printAll indent as) ++ ")"
  | .arrow ps b =>
    let wrap := decide (Level.arrow ≤ level)
    parenthesized wrap
      ("(" ++ Text.join ", " (printAll indent ps) ++ ") => " ++ print indent Level.item true b)
  | .grouped t => parenthesized true (print indent Level.lowest false t)
  | .negation t =>
    parenthesized (decide (Level.negation ≤ level)) ("!" ++ print indent Level.operand false t)
  | .conjunction a b =>
    let wrap := decide (Level.conjunction ≤ level)
    parenthesized wrap (print indent Level.sideOfConjunction (first && !wrap) a ++ " && " ++
      print indent Level.sideOfConjunction false b)
  | .choice t a b =>
    let wrap := decide (Level.choice ≤ level)
    parenthesized wrap (print indent Level.choice (first && !wrap) t ++ " ? " ++
      print indent Level.item false a ++ " : " ++ print indent Level.item false b)
  | .array ts =>
    let close := if ts.getLast?.any isGap then "," else ""
    if ts.length ≤ maxInlineItems then "[" ++ Text.join ", " (printAll indent ts) ++ close ++ "]"
    else "[" ++ listLines indent (printAll (indent + 1) ts) close ++ "]"
  | .gap => ""
  | .object ts =>
    parenthesized first <|
      if ts.length ≤ maxInlineMembers then inlineBraces (printAll indent ts)
      else "\x7b" ++ listLines indent (printAll (indent + 1) ts) "" ++ "\x7d"
  | .property k v => k.text ++ ": " ++ print indent Level.item false v
  | .spread t => "..." ++ print indent Level.item false t
  | .pattern ts => inlineBraces (printAll indent ts)
  | .fallback t v => print indent Level.item false t ++ " = " ++ print indent Level.item false v
  | .expression t => print indent Level.lowest true t ++ ";"
  | .declaration k ts => k ++ " " ++ Text.join ", " (printAll indent ts) ++ ";"
  | .function n ps b =>
    "function" ++ (match n with | some n => " " ++ n | none => "") ++ "(" ++
      Text.join ", " (printAll indent ps) ++ ") " ++ print indent Level.lowest true b
  | .leave => "return;"
  | .answer t => "return " ++ print indent Level.lowest false t ++ ";"
  | .condition t b =>
    "if (" ++ print indent Level.lowest false t ++ ")" ++
      match b with
      | .empty => ";"
      | b =>
        if b.isCondition then
          " " ++ blockLines indent [tabs (indent + 1) ++ print (indent + 1) Level.lowest false b]
        else " " ++ print indent Level.lowest false b
  | .block ds ts =>
    let texts := printAll (indent + 1) ts
    blockLines indent
      (if first then statementLines (indent + 1) ds ts texts
        else texts.map (tabs (indent + 1) ++ ·))
  | .empty => ";"
  | .importing i => i.text
  | .exporting t => "export " ++ print indent Level.lowest false t
  | .exportingDefault t =>
    "export default " ++ print indent Level.item false t ++ if t.isFunction then "" else ";"
  | .exportingNames ns source =>
    "export " ++ inlineBraces (ns.map ExportName.text) ++
      (match source with
        | some (path, clause) => " from " ++ path.quoted ++ conditionsText clause
        | none => "") ++ ";"
  | .exportingAll n path clause =>
    "export *" ++
      (match n with
        | some k => " as " ++ k.text
        | none => "") ++ " from " ++ path.quoted ++ conditionsText clause ++ ";"
  | .element n as cs close =>
    "<" ++ n.text ++ Text.concat ((printAll indent as).map fun s => " " ++ s) ++
      match close with
      | none => " />"
      | some c => ">" ++ Text.concat (printAll indent cs) ++ "</" ++ c.text ++ ">"
  | .fragment cs => "<>" ++ Text.concat (printAll indent cs) ++ "</>"
  | .flag n => n
  | .attribute n v => n ++ "=" ++ print indent Level.lowest false v
  | .quoted t => quoteRaw t
  | .text t => t
  | .hole t => "\x7b" ++ print indent Level.lowest false t ++ "\x7d"
  | .emptyHole => "\x7b\x7d"

def printAll (indent : Nat) : List Term → List String
  | [] => []
  | t :: ts => print indent Level.item false t :: printAll indent ts

end

end Term

def Module.lines (m : Module) : List String :=
  Term.statementLines 0 m.directives m.statements (Term.printAll 0 m.statements)

/-- The text of a module, each of its lines with its end. -/
def Module.text (m : Module) : String :=
  Text.concat (m.lines.map (· ++ "\n"))

end ScreenTree.Script
