import ScreenTree.Markup.Options
import ScreenTree.Node.Search
import ScreenTree.Tag
import ScreenTree.Text.Lines

/-! # Imports of a screen

Every component tag that is not below a literal is imported once, in the order of first use. -/

namespace ScreenTree

/-- Where a component is imported from. -/
inductive Origin
  | registry
  | user
  deriving DecidableEq

def Origin.name : Origin → String
  | .registry => "registry"
  | .user => "user"

/-- Supplied components come from the registry, whatever is registered. -/
def Origin.ofTag (tag : String) : Origin :=
  if Tag.isSupplied tag then .registry else .user

structure Import where
  tag : String
  origin : Origin
  deriving DecidableEq

namespace Import

/-- The tag of a node that is a component. -/
def componentTag? (n : Node) : Option String :=
  match n.kind with
  | .element tag => if Tag.isComponent tag then some tag else none
  | _ => none

/-- Each item at its first place only. -/
def firstSeen : List String → List String
  | [] => []
  | t :: ts => t :: (firstSeen ts).filter fun s => s != t

/-- The imports that a tree needs. -/
def ofTree (tree : Tree) : List Import :=
  (firstSeen (tree.root.entered.filterMap componentTag?)).map fun tag => ⟨tag, Origin.ofTag tag⟩

def root (options : Options) (i : Import) : String :=
  match i.origin with
  | .registry => options.registryRoot
  | .user => options.userRoot

/-- The name that the import binds. -/
def binding (i : Import) : String :=
  Tag.identifier i.tag

def line (options : Options) (i : Import) : String :=
  "import \x7b " ++ i.binding ++ " \x7d from \"" ++ i.root options ++ "/" ++ i.tag ++
    ".jsx\";\n"

/-- The import lines of a tree. -/
def lines (options : Options) (tree : Tree) : String :=
  Text.concat ((ofTree tree).map (line options))

end Import
end ScreenTree
