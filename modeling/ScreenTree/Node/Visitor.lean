import ScreenTree.Node.Basic

/-! # Visitors

A visitor goes over a tree with something that it carries along. It has a method for entering a node
and one for each kind of node; unless it says otherwise, entering a node goes on with the method of
its kind, and that one enters the children in order, except for a literal. -/

namespace ScreenTree

/-- The methods of a visitor that carries a `σ` along. Each gets the node and `walk`, which is the
way on: from `node` to the method of the kind, from there to the children. A method that does not
take it prunes. -/
structure Visitor (σ : Type) where
  node : Node → (walk : σ → σ) → σ → σ := fun _ walk => walk
  group : Node → (walk : σ → σ) → σ → σ := fun _ walk => walk
  element : Node → (tag : String) → (walk : σ → σ) → σ → σ := fun _ _ walk => walk
  literal : Node → Option Value → (walk : σ → σ) → σ → σ := fun _ _ _ => id
  untyped : Node → (walk : σ → σ) → σ → σ := fun _ walk => walk

namespace Visitor

variable {σ : Type} (v : Visitor σ)

/-- Goes on from a node with the method of its kind; `children` enters the children. -/
def walkNode (n : Node) (children : σ → σ) : σ → σ :=
  match n.kind with
  | .group => v.group n children
  | .element tag => v.element n tag children
  | .literal value => v.literal n value children
  | .untyped => v.untyped n children

mutual

/-- Enters a node. -/
def visit : Node → σ → σ
  | ⟨id, kind, props, state, children⟩ =>
    v.node ⟨id, kind, props, state, children⟩
      (v.walkNode ⟨id, kind, props, state, children⟩ (visitAll children))

/-- Enters nodes one after the other. -/
def visitAll : List Node → σ → σ
  | [] => id
  | n :: ns => visitAll ns ∘ visit n

end

/-- The default methods, with `enter` done on entering a node. -/
def entering (enter : Node → σ → σ) : Visitor σ where
  node n walk s := walk (enter n s)

/-- As `entering`, but not walking the children of elements whose tag is pruned. -/
def pruning (pruned : String → Bool) (enter : Node → σ → σ) : Visitor σ where
  node n walk s := walk (enter n s)
  element _ tag walk := if pruned tag then id else walk

end Visitor

end ScreenTree
