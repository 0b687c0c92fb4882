import ScreenTree.Workspace

/-! # Operations on a workspace

Every change of a workspace as a value, what it answers, and the workspace after a run of them. -/

namespace ScreenTree

/-- A change that is asked of a workspace. -/
inductive Operation
  | reset
  /-- A node goes under a parent, or under the root; one without an id gets the fresh one. -/
  | add (fresh : String) (node : Node) (parent : Option String)
  | remove (id : String)
  | update (id : String) (change : Update)
  | move (id parent : String) (position : Option Nat)
  | register (name : String) (definition : Definition)
  | load (text : String)

/-- What an operation answers when it has succeeded. -/
inductive Answer
  /-- The tree is this one from now on. -/
  | tree (t : Tree)
  /-- The node with this id has its place. -/
  | placed (id : String)
  /-- A node was removed, or there was none. -/
  | removed (found : Bool)
  /-- The node is this one from now on. -/
  | node (n : Node)
  /-- The definition is known from now on. -/
  | registered
  deriving DecidableEq

namespace Workspace

variable {σ : Type}

/-- The outcome with its result as an answer. -/
def Outcome.answer {α : Type} (o : Outcome σ α) (answer : α → Answer) : Outcome σ Answer :=
  (o.1.map answer, o.2)

variable [Output σ]

/-- Carries out one operation. -/
def perform (w : Workspace σ) : Operation → Outcome σ Answer
  | .reset => Outcome.answer w.reset .tree
  | .add fresh n parent => Outcome.answer (w.add fresh n parent) .placed
  | .remove id => Outcome.answer (w.remove id) .removed
  | .update id u => Outcome.answer (w.update id u) .node
  | .move id parent position => Outcome.answer (w.move id parent position) .placed
  | .register name d => Outcome.answer (w.register name d) fun _ => .registered
  | .load text => Outcome.answer (w.load text) .tree

/-- The workspace after operations one after another, whether they succeed or fail. -/
def after (w : Workspace σ) (operations : List Operation) : Workspace σ :=
  operations.foldl (fun w operation => (w.perform operation).2) w

@[simp] theorem after_nil (w : Workspace σ) : w.after [] = w := rfl

@[simp] theorem after_cons (w : Workspace σ) (operation : Operation)
    (operations : List Operation) :
    w.after (operation :: operations) = (w.perform operation).2.after operations := rfl

theorem after_append (w : Workspace σ) (first second : List Operation) :
    w.after (first ++ second) = (w.after first).after second :=
  List.foldl_append

end Workspace
end ScreenTree
