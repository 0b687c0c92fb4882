import ScreenTree.Node.Interchange

/-! # Component definitions

A definition names a component, declares its properties and holds a template that may refer to
them. -/

namespace ScreenTree

structure Definition where
  name : String
  props : List Property
  state : List Json
  children : List Node
  deriving DecidableEq

namespace Definition

open Json.Form

def propNames (d : Definition) : List String :=
  d.props.map Property.name

def withName (d : Definition) (name : String) : Definition :=
  { d with name }

/-- The name is set, and all else is kept. -/
theorem eq_withName_iff {d d' : Definition} {name : String} :
    d' = d.withName name ↔
      d'.name = name ∧ d'.props = d.props ∧ d'.state = d.state ∧ d'.children = d.children := by
  cases d'
  rw [withName, mk.injEq]

def shape : Shape where
  names := ["nodeType", "props", "state", "children"]
  aliases := []
  closed := false

def form? : Reader Definition
  | 0, _ => none
  | room + 1, form =>
    (shape.fields? form).bind fun field => do
      let name ← default? string? "" room (field "nodeType")
      let props ← default? (list? Property.form?) [] room (field "props")
      let state ← default? (list? json?) [] room (field "state")
      let children ← default? (list? Node.form?) [] room (field "children")
      return { name, props, state, children }

def toJson (d : Definition) : Json :=
  .object [
    ("nodeType", .string d.name),
    ("props", .array (d.props.map Property.toJson)),
    ("state", .array d.state),
    ("children", .array (Node.listToJson d.children))]

def read (text : String) : Except Error Definition :=
  Error.ofParse (Json.Form.read? form? text)

end Definition
end ScreenTree
