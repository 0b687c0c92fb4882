import ScreenTree.Node.Basic

/-! # Updates of a node

An update overwrites the parts that it gives and leaves the others as they are. -/

namespace ScreenTree

structure Update where
  tag : Option String
  props : Option (List Property)
  state : Option (List Json)
  children : Option (List Node)
  value : Option Value
  deriving DecidableEq

namespace Update

/-- The update that changes nothing. -/
def none : Update :=
  ⟨.none, .none, .none, .none, .none⟩

def ofProps (props : List Property) : Update :=
  { none with props := some props }

/-- The kind after the update. A literal that stays one keeps its value unless a new one is given;
a value for another kind is ignored. -/
def kindAfter (u : Update) (kind : Kind) : Kind :=
  let kind := match u.tag with
    | some tag => Kind.ofTag tag kind.value?
    | .none => kind
  match kind, u.value with
  | .literal _, some v => .literal (some v)
  | kind, _ => kind

def apply (u : Update) (n : Node) : Node where
  id := n.id
  kind := u.kindAfter n.kind
  props := u.props.getD n.props
  state := u.state.getD n.state
  children := u.children.getD n.children

end Update
end ScreenTree
