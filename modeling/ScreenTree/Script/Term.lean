import ScreenTree.Script.Number

/-! # Terms of a script

One type holds expressions, patterns, statements and markup, since each of them may hold any other
one. A module is a list of directives and of terms that are statements. -/

namespace ScreenTree.Script

/-- The name in a tag. -/
inductive TagName
  | plain (name : String)
  | member (path : List String)
  | namespaced (space name : String)
  | this
  deriving DecidableEq, Inhabited

/-- The name of a property in an object or a pattern. -/
inductive Key
  | name (text : String)
  | string (value : Literal)
  | number (value : Double)
  deriving DecidableEq, Inhabited

namespace Key

/-- The letters of a name, however it is written. -/
def letters : Key → Literal
  | .name t => .ofString t
  | .string v => v
  | .number x => .ofString (Number.text x)

/-- What a number beyond all doubles is called. -/
def infinity : String := "Infinity"

def ofNumber : Option Double → Key
  | some x => .number x
  | none => .name infinity

end Key

/-- What an import binds. -/
inductive Binding
  | default (name : String)
  | space (name : String)
  | named (name : Key) (binding : String)
  deriving DecidableEq, Inhabited

/-- The names and values in a clause behind `with`. -/
abbrev Conditions := List (Key × Literal)

structure Import where
  /-- Missing if the module is only run. -/
  bindings : Option (List Binding)
  source : Literal
  /-- The clause behind `with`. -/
  conditions : Option Conditions
  deriving DecidableEq, Inhabited

/-- A name in an export list and the name under which it is exported. -/
structure ExportName where
  name : Key
  exported : Key
  deriving DecidableEq, Inhabited

inductive Term
  /-- A variable. -/
  | name (text : String)
  /-- A word that stands for a value. -/
  | constant (text : String)
  | number (value : Double)
  | string (value : Literal)
  /-- An object followed by a point and a name. -/
  | member (object : Term) (property : String)
  /-- An object followed by an expression in brackets. -/
  | index (object property : Term)
  | call (callee : Term) (arguments : List Term)
  | arrow (parameters : List Term) (result : Term)
  /-- An arrow in parentheses, which it keeps. -/
  | grouped (arrow : Term)
  | negation (operand : Term)
  | conjunction (left right : Term)
  | choice (test yes no : Term)
  | array (items : List Term)
  /-- A place of an array that holds nothing. -/
  | gap
  /-- An object; a member that is a name alone has the variable of that name for its value. -/
  | object (members : List Term)
  | property (key : Key) (value : Term)
  | spread (value : Term)
  /-- An object that is taken apart; a member that is a name alone goes to the variable of that
  name. -/
  | pattern (members : List Term)
  /-- A pattern with the value for what is missing. -/
  | fallback (target value : Term)
  | expression (value : Term)
  | declaration (keyword : String) (bindings : List Term)
  | function (name : Option String) (parameters : List Term) (body : Term)
  /-- The end of a function without a value. -/
  | leave
  /-- The end of a function with a value. -/
  | answer (value : Term)
  | condition (test body : Term)
  | block (directives : List String) (statements : List Term)
  | empty
  | importing (declaration : Import)
  | exporting (declaration : Term)
  | exportingDefault (value : Term)
  /-- Names that are exported, of this module or of the one with this source. -/
  | exportingNames (names : List ExportName) (source : Option (Literal × Option Conditions))
  /-- All names of a module that are exported, maybe under one name. -/
  | exportingAll (name : Option Key) (source : Literal) (conditions : Option Conditions)
  /-- A markup element; one without a closing tag closes itself. -/
  | element (tag : TagName) (attributes children : List Term) (closing : Option TagName)
  | fragment (children : List Term)
  | flag (name : String)
  | attribute (name : String) (value : Term)
  /-- The value of an attribute as it stands between quotes. -/
  | quoted (text : String)
  /-- Text between tags. -/
  | text (text : String)
  /-- An expression in braces. -/
  | hole (value : Term)
  | emptyHole
  deriving Inhabited

namespace Term

def ofNumber : Option Double → Term
  | some x => .number x
  | none => .constant Key.infinity

/-- Parentheses leave no trace but around an arrow. -/
def group : Term → Term
  | .arrow ps t => .grouped (.arrow ps t)
  | t => t

/-- A member of a pattern; one that goes to the variable of its name is that variable. -/
def ofPatternMember (k : Key) (target : Term) : Term :=
  match k, target with
  | .name n, .name m | .name n, .fallback (.name m) _ =>
    if n = m then target else .property k target
  | _, _ => .property k target

/-- The name of a property that sets the parent of an object if it is written with a value. -/
def parentName : String := "__proto__"

/-- A member of an object; one that has the variable of its name for its value is that variable. -/
def ofObjectMember (k : Key) (value : Term) : Term :=
  match k, value with
  | .name n, .name m => if n = m ∧ n ≠ parentName then value else .property k value
  | _, _ => .property k value

def isDeclaration : Term → Bool
  | .declaration _ _ => true
  | _ => false

mutual

/-- The variables that a pattern or a declaration binds. -/
def bound : Term → List String
  | .name n => [n]
  | .pattern ts | .declaration _ ts => boundAll ts
  | .property _ t | .spread t | .fallback t _ => bound t
  | .function n _ _ => n.toList
  | _ => []

def boundAll : List Term → List String
  | [] => []
  | t :: ts => bound t ++ boundAll ts

end

end Term

/-- A list of directives, which keep their source text, and of statements. -/
structure Module where
  directives : List String
  statements : List Term
  deriving Inhabited

end ScreenTree.Script
