import ScreenTree.Json.Form
import ScreenTree.Json.Writer

/-! # Properties of nodes

A property has a name and may have a value, an initial value and a type. -/

namespace ScreenTree

/-- The value of a property or of a literal node. -/
inductive Value
  | bool (b : Bool)
  | number (n : Number)
  | text (s : String)
  | json (v : Json)
  deriving DecidableEq, Inhabited

namespace Value

def ofJson : Json → Value
  | .bool b => .bool b
  | .number n => .number n
  | .string s => .text s
  | v => .json v

def toJson : Value → Json
  | .bool b => .bool b
  | .number n => .number n
  | .text s => .string s
  | .json v => v

def form? : Json.Form.Reader Value :=
  fun room form => (Json.Form.json? room form).map ofJson

/-- Whether the value counts as set. -/
def isTruthy : Value → Bool
  | .bool b => b
  | .number n => !n.isZero
  | .text s => !s.isEmpty
  | .json v => !v.isNull

/-- The text of the value in markup. -/
def markupText : Value → String
  | .bool b => if b then "true" else "false"
  | .number n => n.markupText
  | .text s => s
  | .json v => v.compact

/-- The name of the property of the enclosing definition that a text with a leading `$` refers
to. -/
def reference? : Value → Option String
  | .text s =>
    match s.toList with
    | '$' :: cs => some (String.ofList cs)
    | _ => none
  | _ => none

end Value

/-- The type of a property decides how it is written in markup. -/
inductive ValueType
  | string
  | boolean
  | number
  | other (name : String)
  deriving DecidableEq

namespace ValueType

def ofName (name : String) : ValueType :=
  if name = "string" then .string
  else if name = "boolean" then .boolean
  else if name = "number" then .number
  else .other name

def name : ValueType → String
  | .string => "string"
  | .boolean => "boolean"
  | .number => "number"
  | .other name => name

end ValueType

structure Property where
  name : String
  value : Option Value
  initialValue : Option Value
  type : Option ValueType
  deriving DecidableEq

namespace Property

/-- A property that is only given a value. -/
def ofValue (name : String) (value : Value) : Property :=
  ⟨name, some value, none, none⟩

def typed (name : String) (type : ValueType) (value : Value) : Property :=
  ⟨name, some value, none, some type⟩

/-- A property that a definition declares with a default. -/
def declared (name : String) (type : ValueType) (initialValue : Value) : Property :=
  ⟨name, none, some initialValue, some type⟩

/-- The value that counts: an explicit one before the initial one. -/
def actual? (p : Property) : Option Value :=
  p.value <|> p.initialValue

def shape : Json.Form.Shape where
  names := ["name", "value", "initialValue", "type"]
  aliases := []
  closed := false

open Json.Form in
def form? : Reader Property
  | 0, _ => none
  | room + 1, form =>
    (shape.fields? form).bind fun field => do
      let name ← (field "name").bind (string? room)
      let value ← optional? Value.form? room (field "value")
      let initialValue ← optional? Value.form? room (field "initialValue")
      let type ← optional? string? room (field "type")
      return ⟨name, value, initialValue, type.map ValueType.ofName⟩

def toJson (p : Property) : Json :=
  .object <|
    ("name", .string p.name) :: Json.optional "value" (p.value.map Value.toJson) ++
    Json.optional "initialValue" (p.initialValue.map Value.toJson) ++
    Json.optional "type" (p.type.map fun t => .string t.name)

end Property
end ScreenTree
