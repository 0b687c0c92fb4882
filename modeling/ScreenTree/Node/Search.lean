import ScreenTree.Node.Basic

/-! # Searching and taking nodes apart

`find?` and `modify?` take the first node with an id in pre-order. `unlink?` looks at the direct
children of a node before it descends into them, so with repeated ids it may take another one. -/

namespace ScreenTree.Node

mutual

/-- The first node with this id in pre-order. -/
def find? (id : String) : Node → Option Node
  | ⟨i, kind, props, state, children⟩ =>
    if i = some id then some ⟨i, kind, props, state, children⟩ else findIn? id children

def findIn? (id : String) : List Node → Option Node
  | [] => none
  | n :: ns =>
    match find? id n with
    | some found => some found
    | none => findIn? id ns

end

mutual

/-- Changes the first node with this id in pre-order. -/
def modify? (id : String) (f : Node → Node) : Node → Option Node
  | ⟨i, kind, props, state, children⟩ =>
    if i = some id then some (f ⟨i, kind, props, state, children⟩)
    else (modifyIn? id f children).map fun cs => ⟨i, kind, props, state, cs⟩

def modifyIn? (id : String) (f : Node → Node) : List Node → Option (List Node)
  | [] => none
  | n :: ns =>
    match modify? id f n with
    | some changed => some (changed :: ns)
    | none => (modifyIn? id f ns).map (n :: ·)

end

/-- Takes the first node with this id out of a list, without looking below. -/
def takeFirst? (id : String) : List Node → Option (Node × List Node)
  | [] => none
  | n :: ns =>
    if n.id = some id then some (n, ns)
    else (takeFirst? id ns).map fun (found, rest) => (found, n :: rest)

mutual

/-- Unlinks a node with this id below `n`, with what is left. -/
def unlink? (id : String) : Node → Option (Node × Node)
  | ⟨i, kind, props, state, children⟩ =>
    match takeFirst? id children with
    | some (found, rest) => some (found, ⟨i, kind, props, state, rest⟩)
    | none =>
      (unlinkIn? id children).map fun (found, rest) => (found, ⟨i, kind, props, state, rest⟩)

def unlinkIn? (id : String) : List Node → Option (Node × List Node)
  | [] => none
  | n :: ns =>
    match unlink? id n with
    | some (found, rest) => some (found, rest :: ns)
    | none => (unlinkIn? id ns).map fun (found, rest) => (found, n :: rest)

end

mutual

/-- The nodes that a traversal enters, in pre-order. Nothing below a literal is entered, nor below
an element whose tag is pruned. -/
def walk (pruned : String → Bool) : Node → List Node
  | ⟨id, kind, props, state, children⟩ =>
    ⟨id, kind, props, state, children⟩ ::
      match kind with
      | .literal _ => []
      | .element tag => if pruned tag then [] else walkList pruned children
      | .group | .untyped => walkList pruned children

def walkList (pruned : String → Bool) : List Node → List Node
  | [] => []
  | n :: ns => walk pruned n ++ walkList pruned ns

end

/-- The nodes that are not below a literal, in pre-order. -/
def entered (n : Node) : List Node :=
  n.walk fun _ => false

end ScreenTree.Node
