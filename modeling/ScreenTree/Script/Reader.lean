import ScreenTree.Error
import ScreenTree.Script.Marks
import ScreenTree.Script.Scan

/-! # Reading a script

The grammar of modules with markup, and the readers `Module.ofText?` and `Module.read`. Each rule is written over the rules for the terms inside; a
level allows as many nestings as its number, and a text cannot nest deeper than its length. -/

namespace ScreenTree.Script

open Scan

/-- The rules for terms that hold other terms. -/
structure Rules where
  /-- An expression and how it ends. -/
  expressionEnd : Scan (Term × Ending)
  pattern : Scan Term
  statement : Scan Term
  /-- Markup behind its first angle bracket. -/
  markup : Scan Term

namespace Rules

/-- The rules that allow no nesting. -/
def empty : Rules := ⟨fail, fail, fail, fail⟩

def expression (r : Rules) : Scan Term := do
  let (t, _) ← r.expressionEnd
  return t

/-! ## Patterns -/

/-- A pattern that may have a value for what is missing. -/
def parameter (r : Rules) : Scan Term := do
  let target ← r.pattern
  match ← maybe (signNot ['='] ['=', '>']) with
  | some _ => return .fallback target (← r.expression)
  | none => return target

def restParameter (r : Rules) : Scan Term := do
  sign ['.', '.', '.']
  return .spread (← r.pattern)

def parameters (r : Rules) : Scan (List Term) := do
  sign ['(']
  listWithLast r.parameter r.restParameter [')']

def key : Scan Key :=
  (Key.name <$> word) <|> (Key.string <$> string) <|> (Key.ofNumber <$> number)

/-- The members that are left go to one variable. -/
def restMember : Scan Term := do
  sign ['.', '.', '.']
  return .spread (.name (← variableName))

/-- The name of a member that goes to the variable of that name. -/
def sharedName : Scan String := do
  let w ← word
  if reservedWords.contains w && w != "await" then fail else return w

def patternMember (r : Rules) : Scan Term :=
  (do
    let k ← key
    sign [':']
    return .ofPatternMember k (← r.parameter)) <|>
  (do
    let name ← sharedName
    match ← maybe (signNot ['='] ['=', '>']) with
    | some _ => return .fallback (.name name) (← r.expression)
    | none => return .name name)

def patternStep (r : Rules) : Scan Term :=
  (do
    sign ['\x7b']
    return .pattern (← listWithLast r.patternMember restMember ['\x7d'])) <|>
  (Term.name <$> variableName)

/-! ## Markup -/

def tagName : Scan TagName := do
  let head ← tagWord
  match ← maybe (sign [':']) with
  | some _ => return .namespaced head (← tagWord)
  | none =>
    let members ← many (do sign ['.']; unescapedWord)
    if members.isEmpty then return if head = "this" then .this else .plain head
    else return .member (head :: members)

/-- An expression in braces. -/
def hole (r : Rules) : Scan Term := do
  sign ['\x7b']
  let value ← (do sign ['.', '.', '.']; return .spread (← r.expression)) <|> r.expression
  sign ['\x7d']
  return .hole value

def emptyHole : Scan Term := do
  sign ['\x7b']
  sign ['\x7d']
  return .emptyHole

def attributeValue (r : Rules) : Scan Term :=
  (Term.quoted <$> rawString) <|>
  (do
    sign ['\x7b']
    let value ← r.expression
    sign ['\x7d']
    return .hole value) <|>
  (do
    sign ['<']
    r.markup)

def attributeName : Scan String := do
  let head ← tagWord
  match ← maybe (sign [':']) with
  | some _ => return head ++ ":" ++ (← tagWord)
  | none => return head

def attributeTerm (r : Rules) : Scan Term :=
  (do
    sign ['\x7b']
    sign ['.', '.', '.']
    let value ← r.expression
    sign ['\x7d']
    return .hole (.spread value)) <|>
  (do
    let name ← attributeName
    match ← maybe (sign ['=']) with
    | some _ => return .attribute name (← r.attributeValue)
    | none => return .flag name)

/-- Text up to the next tag or brace; a lone closing sign is not text. -/
def markupText : Scan Term :=
  let isText (c : Char) := !(c == '<' || c == '>' || c == '\x7b' || c == '\x7d')
  taking fun cs =>
    match cs.takeWhile isText with
    | [] => none
    | text => some (.text (String.ofList text), cs.dropWhile isText)

def child (r : Rules) : Scan Term :=
  markupText <|>
  (do
    match ← peek with
    | some '<' => exactly ['<']; r.markup
    | some '\x7b' => emptyHole <|> r.hole
    | _ => fail)

/-- The closing tag, from its angle bracket. -/
def closingTag (name : Scan TagName) : Scan TagName := do
  exactly ['<']
  sign ['/']
  let n ← name
  sign ['>']
  return n

def fragmentStep (r : Rules) : Scan Term := do
  sign ['>']
  let children ← many r.child
  exactly ['<']
  sign ['/']
  sign ['>']
  return .fragment children

def elementStep (r : Rules) : Scan Term := do
  let name ← tagName
  let attributes ← many r.attributeTerm
  match ← maybe (sign ['/']) with
  | some _ =>
    sign ['>']
    return .element name attributes [] none
  | none =>
    sign ['>']
    let children ← many r.child
    let close ← closingTag tagName
    if close = name then return .element name attributes children (some close) else fail

def markupStep (r : Rules) : Scan Term :=
  r.fragmentStep <|> r.elementStep

/-! ## Expressions -/

def spreadOr (r : Rules) : Scan Term :=
  (do sign ['.', '.', '.']; return .spread (← r.expression)) <|> r.expression

def objectMember (r : Rules) : Scan Term :=
  (do sign ['.', '.', '.']; return .spread (← r.expression)) <|>
  (do
    let k ← key
    sign [':']
    return .ofObjectMember k (← r.expression)) <|>
  (Term.name <$> variableName)

/-- A comma without an item of an array before it. -/
def gap : Scan Term := do
  if ← follows (sign [',']) then return .gap else fail

/-- Words that stand for values. -/
def constants : List String :=
  ["null", "this", "true", "false"]

/-- A variable or a constant. -/
def wordTerm : Scan Term := do
  let escaped := !(← follows unescapedWord)
  let w ← word
  if constants.contains w && !escaped then return .constant w
  else if (← read).isReserved w then fail
  else return .name w

/-- An expression without operators that is not markup. -/
def operand (r : Rules) : Scan Term := do
  let _ ← blanks
  match ← peek with
  | some '"' | some '\x27' => Term.string <$> string
  | some '(' => do
    sign ['(']
    let t ← r.expression
    sign [')']
    return t.group
  | some '[' => do
    sign ['[']
    return .array (← list (gap <|> r.spreadOr) [']'])
  | some '\x7b' => do
    sign ['\x7b']
    return .object (← list r.objectMember ['\x7d'])
  | some c => if c.isDigit || c == '.' then Term.ofNumber <$> number else wordTerm
  | none => fail

/-- What follows an expression and takes it in. -/
def suffix (r : Rules) : Scan (Term → Term) :=
  (do
    signNot ['.'] ['.']
    let name ← word
    return fun t => .member t name) <|>
  (do
    sign ['(']
    let arguments ← list r.spreadOr [')']
    return fun t => .call t arguments) <|>
  (do
    sign ['[']
    let property ← r.expression
    sign [']']
    return fun t => .index t property)

/-- Markup is neither called nor accessed without parentheses around it. -/
def access (r : Rules) : Scan (Term × Ending) :=
  (do
    sign ['<']
    return (← r.markup, .operable)) <|>
  (do
    let t ← r.operand
    let suffixes ← many r.suffix
    return (suffixes.foldl (fun t s => s t) t, .operand))

/-- Reads signs of negation and then their operand. -/
def unary (r : Rules) : Scan (Term × Ending) := do
  let signs ← many (signNot ['!'] ['='])
  let (t, e) ← r.access
  return (signs.foldl (fun t _ => .negation t) t, e)

def conjunction (r : Rules) : Scan (Term × Ending) := do
  let t ← r.unary
  let ts ← many (do sign ['&', '&']; r.unary)
  return ts.foldl (fun (a, _) (b, e) => (.conjunction a b, e)) t

def choice (r : Rules) : Scan (Term × Ending) := do
  let (t, e) ← r.conjunction
  match ← maybe (signNot ['?'] ['?']) with
  | some _ =>
    let yes ← r.expression
    sign [':']
    let (no, e) ← r.expressionEnd
    return (.choice t yes no, e)
  | none => return (t, e)

/-! ## Statements -/

/-- An expression as a statement. -/
def expressionTerm (r : Rules) : Scan Term := do
  let (t, e) ← r.expressionEnd
  statementEnd e
  return .expression t

/-- A string that makes up a whole statement, with its source text. -/
def directive (r : Rules) : Scan String := do
  let before ← rest
  let source ← stringSource
  set before
  match ← r.expressionTerm with
  | .expression (.string _) => return source
  | _ => fail

/-- Statements between braces, with directives before them in the body of a function. -/
def body (r : Rules) (directives : Bool) : Scan Term := do
  sign ['\x7b']
  let ds ← if directives then many r.directive else pure []
  let ts ← many r.statement
  sign ['\x7d']
  return .block ds ts

/-- Parameters and a result; one name alone needs no parentheses, and the sign between them does
not begin a line. -/
def arrow (r : Rules) : Scan (Term × Ending) := do
  let ps ← (do return [.name (← variableName)]) <|> r.parameters
  signOnLine ['=', '>']
  withReader Place.inArrow do
    let _ ← blanks
    match ← peek with
    | some '\x7b' => return (.arrow ps (← r.body true), .closed)
    | _ =>
      let (t, e) ← r.expressionEnd
      return (.arrow ps t, e)

/-- The word `async` with parentheses that are the head of an arrow and no arguments: they hold a
rest that is a variable, or nothing and a body follows them. -/
def waitingHead : Scan Unit := do
  keyword "async"
  signOnLine ['(']
  (do
    sign ['.', '.', '.']
    let _ ← variableName) <|>
  (do
    sign [')']
    sign ['\x7b'] <|> sign ['=', '>'])

/-- An expression; arrows that wait are none. -/
def expressionStep (r : Rules) : Scan (Term × Ending) := do
  if ← follows waitingHead then fail
  r.arrow <|> r.choice

/-- A function with its word. A name may be left out where `anonymous` holds. -/
def functionTerm (r : Rules) (anonymous : Bool) : Scan Term := do
  keyword "function"
  let name ← if anonymous then maybe variableName else some <$> variableName
  withReader (fun _ => Place.function) do
    let ps ← r.parameters
    return .function name ps (← r.body true)

/-- A variable with its value; only a plain variable of `let` may have none. -/
def binding (r : Rules) (word : String) : Scan (Term × Ending) := do
  let target ← r.pattern
  match ← maybe (signNot ['='] ['=', '>']) with
  | some _ =>
    let (value, e) ← r.expressionEnd
    return (.fallback target value, e)
  | none =>
    match target with
    | .name _ => if word = "let" then return (target, .closed) else fail
    | _ => fail

/-- Items between commas, of which there is at least one. -/
def commaSeparated {α : Type} (item : Scan α) : Scan (List α) := do
  let a ← item
  let as ← many (do sign [',']; item)
  return a :: as

def declaration (r : Rules) : Scan Term := do
  let w ← unescapedWord
  if w = "const" ∨ w = "let" then
    let bindings ← commaSeparated (r.binding w)
    statementEnd ((bindings.getLast?.map Prod.snd).getD .closed)
    return .declaration w (bindings.map Prod.fst)
  else fail

def returnTerm (r : Rules) : Scan Term := do
  keyword "return"
  match ← maybe (statementEnd .closed) with
  | some _ => return .leave
  | none =>
    let (t, e) ← r.expressionEnd
    statementEnd e
    return .answer t

/-- The word `let` as a variable that is called, accessed or alone. -/
def letVariable : Scan Unit := do
  keyword "let"
  sign ['.'] <|> sign ['('] <|> sign [';']

/-- The word `let` as a variable where no declaration can stand. -/
def loneLet : Scan Term := do
  keyword "let"
  if ← follows (sign ['[']) then fail
  statementEnd .closed
  return .expression (.name "let")

/-- A statement under a condition, which cannot be a bare declaration. -/
def guarded (r : Rules) : Scan Term := do
  let t ← if ← follows letVariable then r.statement else loneLet <|> r.statement
  if t.isDeclaration then fail else return t

def conditionTerm (r : Rules) : Scan Term := do
  keyword "if"
  sign ['(']
  let t ← r.expression
  sign [')']
  return .condition t (← r.guarded)

/-! ## Imports and exports -/

/-- A name by which a module exports something. A string is one if it holds characters only. -/
def moduleName : Scan Key :=
  (Key.name <$> word) <|>
  (do
    let s ← string
    if s.isWhole then return .string s else fail)

/-- The variable that an import binds by its own name. -/
def importedBinding : Scan Binding := do
  let name ← moduleName
  match ← maybe (keyword "as") with
  | some _ => return .named name (← variableName)
  | none =>
    match name with
    | .name n => if (← read).isReserved n then fail else return .named name n
    | _ => fail

def spaceBinding : Scan Binding := do
  sign ['*']
  keyword "as"
  return .space (← variableName)

def namedBindings : Scan (List Binding) := do
  sign ['\x7b']
  list importedBinding ['\x7d']

def bindings : Scan (List Binding) :=
  (do return [← spaceBinding]) <|> namedBindings <|>
  (do
    let name ← variableName
    match ← maybe (sign [',']) with
    | some _ =>
      let more ← (do return [← spaceBinding]) <|> namedBindings
      return .default name :: more
    | none => return [.default name])

def condition : Scan (Key × Literal) := do
  let name ← (Key.name <$> word) <|> (Key.string <$> string)
  sign [':']
  return (name, ← string)

/-- The clause behind `with`, which names nothing twice. -/
def conditions : Scan Conditions := do
  keyword "with"
  sign ['\x7b']
  let cs ← list condition ['\x7d']
  if (cs.map fun c => c.1.letters).Nodup then return cs else fail

/-- The source of an import or an export with its clause, if it has one. -/
def source : Scan (Literal × Option Conditions) := do
  let path ← string
  let clause ← if ← follows (keyword "with") then some <$> conditions else pure none
  return (path, clause)

def importTerm : Scan Term := do
  keyword "import"
  let bound ← maybe (do let bs ← bindings; keyword "from"; return bs)
  let (path, clause) ← source
  statementEnd .closed
  return .importing ⟨bound, path, clause⟩

def exportName : Scan ExportName := do
  let name ← moduleName
  match ← maybe (keyword "as") with
  | some _ => return ⟨name, ← moduleName⟩
  | none => return ⟨name, name⟩

/-- Words that are variables elsewhere, but cannot be exported as such. -/
def unexportedWords : List String :=
  ["implements", "interface", "package", "private", "protected", "public", "static", "yield"]

/-- Whether a name can be exported that is a variable of the module. -/
def isLocal (n : ExportName) : Bool :=
  match n.name with
  | .name w => !reservedWords.contains w && !unexportedWords.contains w
  | _ => false

def exportedNames : Scan Term := do
  sign ['\x7b']
  let names ← list exportName ['\x7d']
  let origin ←
    if ← follows (keyword "from") then some <$> (do keyword "from"; source) else pure none
  statementEnd .closed
  if origin.isNone && !names.all isLocal then fail
  else return .exportingNames names origin

def exportedAll : Scan Term := do
  sign ['*']
  let name ← maybe (do keyword "as"; moduleName)
  keyword "from"
  let (path, clause) ← source
  statementEnd .closed
  return .exportingAll name path clause

/-- A default is a function or an expression, which cannot begin with the word `interface`. -/
def exportedDefault (r : Rules) : Scan Term := do
  keyword "default"
  if ← follows (keyword "interface") then fail
  (do return .exportingDefault (← r.functionTerm true)) <|>
    (do
      let (t, e) ← r.expressionEnd
      statementEnd e
      return .exportingDefault t)

def exportTerm (r : Rules) : Scan Term := do
  keyword "export"
  exportedDefault r <|> exportedNames <|> exportedAll <|>
    (do return .exporting (← r.functionTerm false)) <|>
    (do return .exporting (← r.declaration))

/-! ## Nesting -/

def statementStep (r : Rules) : Scan Term := do
  let _ ← blanks
  match ← peek with
  | some ';' => do
    exactly [';']
    return .empty
  | some '\x7b' => r.body false
  | _ =>
    let before ← rest
    match ← maybe unescapedWord with
    | some w =>
      set before
      if w = "const" then r.declaration
      else if w = "let" then
        if ← follows letVariable then r.expressionTerm else r.declaration
      else if w = "function" then r.functionTerm false
      else if w = "return" then
        if (← read).isInFunction then r.returnTerm else fail
      else if w = "if" then r.conditionTerm
      else if w = "import" then importTerm
      else if w = "export" then r.exportTerm
      else r.expressionTerm
    | none => r.expressionTerm

/-- The rules that allow a number of nestings. -/
def level : Nat → Rules
  | 0 => empty
  | n + 1 =>
    { expressionEnd := fun p cs => (level n).expressionStep p cs
      pattern := fun p cs => (level n).patternStep p cs
      statement := fun p cs => (level n).statementStep p cs
      markup := fun p cs => (level n).markupStep p cs }

end Rules

/-! ## Modules -/

def module (r : Rules) : Scan Module := do
  let directives ← many r.directive
  let statements ← many r.statement
  let _ ← blanks
  return ⟨directives, statements⟩

/-- The module of a text. -/
def Module.ofText? (text : String) : Option Module :=
  let cs := text.toList
  match module (Rules.level (cs.length + 1)) .top cs with
  | some (m, []) => if m.exportsOnce then some m else none
  | _ => none

def Module.read (text : String) : Except Error Module :=
  match ofText? text with
  | some m => .ok m
  | none => .error (.unreadable .script)

end ScreenTree.Script
