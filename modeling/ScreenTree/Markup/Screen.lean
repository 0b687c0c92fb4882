import ScreenTree.Markup.Element
import ScreenTree.Node.Search

/-! # Markup of a screen

A group is written as its children. A component that takes no children is one tag, in which its
literal children may stand as attributes. -/

namespace ScreenTree.Markup

/-- The literal children of a component as properties of the given name. -/
def promoted (name : String) (children : List Node) : List Property :=
  children.filterMap fun n =>
    match n.kind with
    | .literal value => some ⟨name, value, none, some .string⟩
    | _ => none

/-- The properties of a component that takes no children. -/
def componentProps (tag : String) (props : List Property) (children : List Node) :
    List Property :=
  match Tag.promotion? tag with
  | some name => props ++ promoted name children
  | none => props

mutual

/-- The markup of a node at a depth of nesting. -/
def render (mode : Mode) (depth : Nat) : Node → Except Malformed String
  | ⟨_, .untyped, _, _, _⟩ => malformed mode .untyped
  | ⟨_, .literal value, _, _, _⟩ => literal mode value
  | ⟨_, .group, _, _, children⟩ => (renderAll mode depth children).map Text.joinLines
  | ⟨_, .element tag, props, _, children⟩ =>
    (requirePlain mode tag).bind fun _ =>
      if Tag.isComponent tag then
        if Tag.takesChildren tag then
          (renderAll mode (depth + 1) children).map fun parts =>
            paired depth (Tag.identifier tag) (attributes props) (body parts)
        else
          .ok (single depth (Tag.identifier tag)
            (attributes (componentProps tag props children)))
      else if Tag.isVoid tag then .ok (single depth tag (attributes props))
      else
        (renderAll mode (depth + 1) children).map fun parts =>
          paired depth tag (attributes props) (body parts)

def renderAll (mode : Mode) (depth : Nat) : List Node → Except Malformed (List String)
  | [] => .ok []
  | n :: ns =>
    (render mode depth n).bind fun part => (renderAll mode depth ns).map (part :: ·)

end

end ScreenTree.Markup
