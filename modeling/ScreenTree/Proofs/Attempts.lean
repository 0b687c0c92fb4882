import ScreenTree.Output.Memory
import ScreenTree.Proofs.Edits

/-! # What reaches the output

Every step of a run attempts at most one write, and which one is read off the step: the app module of
the tree that it leaves, or the module of the definition that it registers. -/

namespace ScreenTree

namespace Workspace

variable {σ τ : Type}

/-- The write of the app module, if it can be generated. -/
def appWrite (w : Workspace σ) : Option (String × String) :=
  match w.render with
  | .ok text => some (w.config.appModulePath, text)
  | .error _ => none

/-- The write of the module of a component, if it can be generated. -/
def componentWrite (w : Workspace σ) (name : String) (d : Definition) : Option (String × String) :=
  match w.options.componentModule (d.withName name) with
  | .ok text => some (w.config.componentModulePath name, text)
  | .error _ => none

/-- Whether an answer says that the operation was turned down. -/
def refused : Except Error Answer → Bool
  | .ok _ => false
  | .error e => e.isRefusal

/-- The write that a step attempts: a removal writes if it unlinks a node, every other change of the
tree unless it is turned down. -/
def due [Output σ] (w : Workspace σ) (operation : Operation) : Option (String × String) :=
  let (answer, after) := w.perform operation
  match operation with
  | .load _ => none
  | .register name d => w.componentWrite name d
  | .remove id => if (w.tree.remove? id).isSome then after.appWrite else none
  | .reset | .add .. | .update .. | .move .. => if refused answer then none else after.appWrite

theorem appWrite_congr {w : Workspace σ} {v : Workspace τ} (htree : w.tree = v.tree)
    (hconfig : w.config = v.config) : w.appWrite = v.appWrite := by
  rw [appWrite, appWrite, render, render, options, options, htree, hconfig]

/-- An output after a write that may be missing. -/
def written [Output σ] (output : σ) : Option (String × String) → σ
  | some (path, text) => (Output.write output path text).2
  | none => output

variable [Output σ]

theorem output_publish {α : Type} (w : Workspace σ) (result : α) :
    (w.publish result).2.output = written w.output w.appWrite := by
  rw [appWrite]
  cases h : w.render with
  | error e => rw [publish_of_malformed h, written]
  | ok text => rw [publish_of_render h, write_workspace, written]

theorem appWrite_publish {α : Type} (w : Workspace σ) (result : α) :
    (w.publish result).2.appWrite = w.appWrite :=
  appWrite_congr (publish_tree w result) (publish_config w result)

/-- What is due after an edit is the app module of its tree, unless the edit was turned down or
removed nothing. -/
def dueOf (w : Workspace σ) : Except Error Answer × Tree → Option (String × String)
  | (.error _, _) | (.ok (.removed false), _) => none
  | (.ok _, t) => (w.withTree t).appWrite

omit [Output σ] in
theorem dueOf_ok (w : Workspace σ) {answer : Answer} (h : answer ≠ .removed false) (t : Tree) :
    w.dueOf (.ok answer, t) = (w.withTree t).appWrite := by
  rw [dueOf]
  exact h

theorem output_conclude (w : Workspace σ) (intended : Except Error Answer × Tree) :
    (w.conclude intended).2.output = written w.output (w.dueOf intended) := by
  obtain ⟨result, t⟩ := intended
  cases result with
  | error e => rfl
  | ok answer =>
    by_cases hnothing : answer = .removed false
    · subst hnothing
      rfl
    · rw [conclude_ok w hnothing, dueOf_ok w hnothing, output_publish, withTree_output]

theorem due_conclude (w : Workspace σ) {intended : Except Error Answer × Tree}
    (hrefused : ∀ e, intended.1 = .error e → e.isRefusal = true)
    (hremoved : intended.1 ≠ .ok (.removed false)) :
    (if refused (w.conclude intended).1 then none else (w.conclude intended).2.appWrite) =
      w.dueOf intended := by
  obtain ⟨result, t⟩ := intended
  cases result with
  | error e => simp [conclude, refused, hrefused e rfl, dueOf]
  | ok answer =>
    have hnothing : answer ≠ .removed false := fun h => hremoved (by rw [h])
    rw [conclude_ok w hnothing, dueOf_ok w hnothing, appWrite_publish]
    rcases (w.withTree t).publish_result answer with hok | ⟨e, herror, hdelivery⟩
    · simp [hok, refused]
    · simp [herror, refused, Error.isRefusal_eq_false hdelivery]

theorem due_change (w : Workspace σ) {operation : Operation} (h : operation.isChange = true) :
    w.due operation = w.dueOf (w.tree.perform operation) := by
  by_cases hremove : ∃ id, operation = .remove id
  · obtain ⟨id, rfl⟩ := hremove
    simp only [due, w.perform_change h, Tree.perform]
    cases w.tree.remove? id with
    | none => rfl
    | some t =>
      rw [w.conclude_ok (by simp), w.dueOf_ok (by simp), appWrite_publish]
      rfl
  · have hne : ∀ id, operation ≠ .remove id := fun id hid => hremove ⟨id, hid⟩
    have hdue : w.due operation =
        if refused (w.perform operation).1 then none else (w.perform operation).2.appWrite := by
      cases operation with
      | remove id => exact absurd rfl (hne id)
      | register name d => cases h
      | load text => cases h
      | reset | add | update | move => rfl
    rw [hdue, w.perform_change h]
    exact w.due_conclude (fun _ => Tree.isRefusal_of_perform h) (Tree.perform_ne_removed hne)

theorem output_register (w : Workspace σ) (name : String) (d : Definition) :
    (w.register name d).2.output = written w.output (w.componentWrite name d) := by
  rw [register, componentWrite]
  cases w.options.componentModule (d.withName name) with
  | error e => rfl
  | ok text => simp only [write_workspace, written]

/-- A step makes the write that is due, and no other. -/
theorem output_perform (w : Workspace σ) (operation : Operation) :
    (w.perform operation).2.output = written w.output (w.due operation) := by
  cases hchange : operation.isChange with
  | true => rw [w.perform_change hchange, w.due_change hchange, output_conclude]
  | false =>
    cases operation with
    | register name d => exact w.output_register name d
    | load text =>
      simp only [perform, Outcome.answer, load, due, written]
      cases Tree.load text <;> rfl
    | reset | add | remove | update | move => cases hchange

end Workspace
end ScreenTree
