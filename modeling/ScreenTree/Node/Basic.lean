import ScreenTree.Property

/-! # Nodes of a screen

A node is a group, a literal, an element with a tag, or has no type. Every node carries
properties, state values and children, and may have an id. -/

namespace ScreenTree

/-- What a node is. -/
inductive Kind
  | group
  | literal (value : Option Value)
  | element (tag : String)
  | untyped
  deriving DecidableEq, Inhabited

namespace Kind

/-- The tag that makes a node a group. -/
def groupTag : String := "fragment"

/-- The tag that makes a node a literal. -/
def literalTag : String := "stringLiteral"

/-- The kind that a written tag stands for; only a literal keeps the value. -/
def ofTag (tag : String) (value : Option Value) : Kind :=
  if tag = groupTag then .group
  else if tag = literalTag then .literal value
  else .element tag

def tag? : Kind → Option String
  | .group => some groupTag
  | .literal _ => some literalTag
  | .element tag => some tag
  | .untyped => none

/-- The value of a literal. -/
def value? : Kind → Option Value
  | .literal value => value
  | _ => none

def isLiteral : Kind → Bool
  | .literal _ => true
  | _ => false

end Kind

structure Node where
  id : Option String
  kind : Kind
  props : List Property
  state : List Json
  children : List Node
  deriving Inhabited

namespace Node

/-- The id of a tree's root. -/
def rootId : String := "root"

def ofKind (kind : Kind) : Node :=
  ⟨none, kind, [], [], []⟩

def group : Node := ofKind .group

def element (tag : String) : Node := ofKind (.element tag)

def literal (value : Value) : Node := ofKind (.literal (some value))

def withId (n : Node) (id : String) : Node :=
  { n with id := some id }

def withProps (n : Node) (props : List Property) : Node :=
  { n with props }

def withChildren (n : Node) (children : List Node) : Node :=
  { n with children }

/-- The root of a new tree. -/
def root : Node := group.withId rootId

def tag? (n : Node) : Option String := n.kind.tag?

mutual

/-- Equality of nodes can be decided. -/
def decideEq : (a b : Node) → Decidable (a = b)
  | ⟨i, k, p, s, c⟩, ⟨i', k', p', s', c'⟩ =>
    if h : i = i' ∧ k = k' ∧ p = p' ∧ s = s' then
      match decideEqList c c' with
      | isTrue t => isTrue (by obtain ⟨rfl, rfl, rfl, rfl⟩ := h; rw [t])
      | isFalse t => isFalse (by simp [t])
    else isFalse (by
      intro e
      injection e with h₁ h₂ h₃ h₄
      exact h ⟨h₁, h₂, h₃, h₄⟩)

def decideEqList : (a b : List Node) → Decidable (a = b)
  | [], [] => isTrue rfl
  | [], _ :: _ | _ :: _, [] => isFalse nofun
  | a :: as, b :: bs => match decideEq a b, decideEqList as bs with
    | isTrue h, isTrue t => isTrue (by rw [h, t])
    | isFalse h, _ => isFalse (by simp [h])
    | _, isFalse t => isFalse (by simp [t])

end

instance : DecidableEq Node := decideEq

end Node

/-- A tree is known by its root. -/
structure Tree where
  root : Node
  deriving DecidableEq, Inhabited

/-- The tree of a new screen. -/
def Tree.empty : Tree := ⟨Node.root⟩

end ScreenTree
