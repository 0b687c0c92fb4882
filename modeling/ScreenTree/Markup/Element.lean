import ScreenTree.Error
import ScreenTree.Property
import ScreenTree.Tag
import ScreenTree.Markup.Options
import ScreenTree.Text.Blank
import ScreenTree.Text.Lines

/-! # Markup of one element

Attributes, literals and tags, from which screens and templates are put together. -/

namespace ScreenTree.Markup

/-- What is written for a malformed node. -/
def malformed (mode : Mode) (cause : Malformed) : Except Malformed String :=
  match mode with
  | .lenient => .ok ""
  | .strict => .error cause

/-- Strict rendering accepts plain tag names only. -/
def requirePlain (mode : Mode) (tag : String) : Except Malformed Unit :=
  if mode = .strict ∧ Tag.isPlain tag = false then .error (.invalidTag tag) else .ok ()

def braced (text : String) : String :=
  "\x7b" ++ text ++ "\x7d"

/-- An attribute with a blank before it. A property without a value is not written, nor a boolean
one that is not set. -/
def attribute? (p : Property) : Option String :=
  p.actual?.bind fun value =>
    match p.type with
    | some .boolean => if value.isTruthy then some (" " ++ p.name) else none
    | some .number => some (" " ++ p.name ++ "=" ++ braced value.markupText)
    | _ => some (" " ++ p.name ++ "=\"" ++ value.markupText ++ "\"")

/-- An attribute of a template, where a reference becomes an expression. -/
def templateAttribute? (p : Property) : Option String :=
  match p.actual?.bind Value.reference? with
  | some name => some (" " ++ p.name ++ "=" ++ braced name)
  | none => attribute? p

def attributes (props : List Property) : String :=
  Text.concat (props.filterMap attribute?)

def templateAttributes (props : List Property) : String :=
  Text.concat (props.filterMap templateAttribute?)

/-- A literal is written as it is, a reference as an expression. -/
def literal (mode : Mode) (value : Option Value) : Except Malformed String :=
  match value with
  | none => malformed mode .literalWithoutValue
  | some v =>
    match v.reference? with
    | some name => .ok (braced name)
    | none => .ok v.markupText

/-- Two blanks for each level. -/
def indent (depth : Nat) : String :=
  String.ofList (List.replicate (2 * depth) ' ')

/-- A tag without a body. -/
def single (depth : Nat) (name attrs : String) : String :=
  indent depth ++ "<" ++ name ++ attrs ++ " />"

/-- A pair of tags. A blank body is left out. -/
def paired (depth : Nat) (name attrs body : String) : String :=
  if Text.isBlank body then
    indent depth ++ "<" ++ name ++ attrs ++ "></" ++ name ++ ">"
  else
    indent depth ++ "<" ++ name ++ attrs ++ ">\n" ++ body ++ "\n" ++ indent depth ++
      "</" ++ name ++ ">"

/-- The body of an element leaves out empty parts. -/
def body (parts : List String) : String :=
  Text.joinLines (parts.filter fun s => !s.isEmpty)

end ScreenTree.Markup
