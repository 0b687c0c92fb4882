import ScreenTree.Node.Update
import ScreenTree.Json.Reader
import ScreenTree.Error

/-! # Nodes as JSON

Reading and writing of nodes, updates and trees. The tag of a node is its `type`, or else its
`nodeType`. A literal without properties and children is written by its value alone. -/

namespace ScreenTree

open Json.Form

namespace Node

def shape : Shape where
  names := ["nodeId", "type", "nodeType", "value", "props", "state", "children"]
  aliases := []
  closed := false

/-- The kind of a node with this tag, if it has one. -/
def kindOf (tag : Option String) (value : Option Value) : Kind :=
  match tag with
  | some tag => Kind.ofTag tag value
  | none => .untyped

def form? : Reader Node
  | 0, _ => none
  | room + 1, form =>
    let child := match room with
      | 0 => none
      | inner + 1 => some (form? inner)
    (shape.fields? form).bind fun field => do
      let id ← optional? string? room (field "nodeId")
      let type ← optional? string? room (field "type")
      let nodeType ← optional? string? room (field "nodeType")
      let value ← optional? Value.form? room (field "value")
      let props ← optional? (list? Property.form?) room (field "props")
      let state ← optional? (list? json?) room (field "state")
      let children ← optional? (fun _ f => child.bind (items? · f)) room (field "children")
      return {
        id
        kind := kindOf (type <|> nodeType) value
        props := props.getD []
        state := state.getD []
        children := children.getD [] }

/-- Whether a node is written by its value alone. -/
def isCompact (kind : Kind) (props : List Property) (children : List Node) : Bool :=
  kind.isLiteral && props.isEmpty && children.isEmpty

mutual

def toJson : Node → Json
  | ⟨id, kind, props, state, children⟩ =>
    .object <|
      Json.optional "nodeId" (id.map .string) ++
      Json.optional "type" (kind.tag?.map .string) ++
      Json.optional "value" (kind.value?.map Value.toJson) ++
      if isCompact kind props children then []
      else [("props", .array (props.map Property.toJson)), ("state", .array state),
        ("children", .array (listToJson children))]

def listToJson : List Node → List Json
  | [] => []
  | n :: ns => toJson n :: listToJson ns

end

def read (text : String) : Except Error Node :=
  Error.ofParse (Json.Form.read? form? text)

end Node

namespace Update

def shape : Shape where
  names := ["type", "props", "state", "children", "value"]
  aliases := [("nodeType", "type")]
  closed := true

def form? : Reader Update
  | 0, _ => .none
  | room + 1, form =>
    (shape.fields? form).bind fun field => do
      let tag ← optional? string? room (field "type")
      let props ← optional? (list? Property.form?) room (field "props")
      let state ← optional? (list? json?) room (field "state")
      let children ← optional? (list? Node.form?) room (field "children")
      let value ← optional? Value.form? room (field "value")
      return { tag, props, state, children, value }

def toJson (u : Update) : Json :=
  .object <|
    Json.optional "type" (u.tag.map .string) ++
    Json.optional "props" (u.props.map fun ps => .array (ps.map Property.toJson)) ++
    Json.optional "state" (u.state.map .array) ++
    Json.optional "children" (u.children.map fun cs => .array (Node.listToJson cs)) ++
    Json.optional "value" (u.value.map Value.toJson)

def read (text : String) : Except Error Update :=
  Error.ofParse (Json.Form.read? form? text)

end Update

namespace Tree

def shape : Shape where
  names := ["root"]
  aliases := []
  closed := false

def form? : Reader Tree
  | 0, _ => none
  | room + 1, form =>
    (shape.fields? form).bind fun field =>
      ((field "root").bind (Node.form? room)).map Tree.mk

def toJson (t : Tree) : Json :=
  .object [("root", t.root.toJson)]

/-- The text in which a tree is saved. -/
def save (t : Tree) : String :=
  t.toJson.pretty

/-- The tree that a text holds. -/
def load (text : String) : Except Error Tree :=
  Error.ofParse (Json.Form.read? form? text)

end Tree
end ScreenTree
