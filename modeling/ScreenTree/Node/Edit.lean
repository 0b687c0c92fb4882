import ScreenTree.Error
import ScreenTree.Node.Search
import ScreenTree.Node.Update

/-! # Edits of a tree

Adding, removing, updating and moving nodes of a tree known by their ids, without regard to what is
generated from it. -/

namespace ScreenTree

/-- Where a moved node goes among the children of its new parent: an index below their number, or
else the end. -/
def insertAt (position : Option Nat) (n : Node) (children : List Node) : List Node :=
  match position with
  | some i =>
    if i < children.length then children.take i ++ n :: children.drop i else children ++ [n]
  | none => children ++ [n]

/-- The position that an index stands for; a negative one stands for the end. -/
def position? (index : Int) : Option Nat :=
  if 0 ≤ index then some index.toNat else none

namespace Tree

def find? (t : Tree) (id : String) : Option Node :=
  t.root.find? id

def modify? (t : Tree) (id : String) (f : Node → Node) : Option Tree :=
  (t.root.modify? id f).map Tree.mk

/-- Appends a node to the children of another one. -/
def add (t : Tree) (n : Node) (parent : String) : Except Error Tree :=
  match t.modify? parent fun p => { p with children := p.children ++ [n] } with
  | some t => .ok t
  | none => .error (.notFound parent)

/-- Unlinks a node below the root, if there is one with this id. -/
def remove? (t : Tree) (id : String) : Option Tree :=
  (t.root.unlink? id).map fun (_, rest) => ⟨rest⟩

/-- The root can only be given the type that it has. -/
def checkRoot (id : String) (u : Update) : Except Error Unit :=
  match u.tag with
  | some tag =>
    if id = Node.rootId ∧ tag ≠ Kind.groupTag then .error (.refused (.rootRetyped tag))
    else .ok ()
  | none => .ok ()

def update (t : Tree) (id : String) (u : Update) : Except Error Tree :=
  (checkRoot id u).bind fun _ =>
    match t.modify? id u.apply with
    | some t => .ok t
    | none => .error (.notFound id)

/-- Whether a move is allowed: both ids are known, and the new parent is not in the subtree of the
first node with the id. -/
def checkMove (t : Tree) (id parent : String) : Except Error Unit :=
  match t.find? id with
  | none => .error (.notFound id)
  | some n =>
    if (t.find? parent).isNone then .error (.notFound parent)
    else if (n.find? parent).isSome then .error (.refused (.moveIntoSelf id))
    else .ok ()

/-- Takes a node out of the tree and puts it under another one. The tree afterwards is given with
the outcome, since the new parent is looked up again after the node has been taken out. -/
def move (t : Tree) (id parent : String) (position : Option Nat) : Except Error Unit × Tree :=
  match t.checkMove id parent with
  | .error e => (.error e, t)
  | .ok _ =>
    match t.root.unlink? id with
    | none => (.error (.refused (.notDetached id)), t)
    | some (moved, rest) =>
      match Tree.modify? ⟨rest⟩ parent fun p =>
          { p with children := insertAt position moved p.children } with
      | some t => (.ok (), t)
      | none => (.error (.notFound parent), ⟨rest⟩)

end Tree
end ScreenTree
