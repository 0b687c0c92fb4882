import ScreenTree.Proofs.Content
import ScreenTree.Proofs.Delivery

/-! # Operations as edits of a tree

What an operation intends for the tree and for its answer is a function of the tree alone. A
workspace carries the edit out in full, and answers as intended or says that the delivery failed. -/

namespace ScreenTree

namespace Operation

/-- The operation changes the tree and writes the app module. -/
def isChange : Operation → Bool
  | .reset | .add .. | .remove _ | .update .. | .move .. => true
  | .register .. | .load _ => false

end Operation

namespace Tree

/-- The answer that an operation intends, and the tree that it leaves. -/
def perform (t : Tree) : Operation → Except Error Answer × Tree
  | .reset => (.ok (.tree .empty), .empty)
  | .add fresh n parent =>
    let id := n.id.getD fresh
    match t.add (n.withId id) (parent.getD Node.rootId) with
    | .ok t => (.ok (.placed id), t)
    | .error e => (.error e, t)
  | .remove id =>
    match t.remove? id with
    | some t => (.ok (.removed true), t)
    | none => (.ok (.removed false), t)
  | .update id u =>
    match t.update id u with
    | .ok t => ((t.find? id).elim (.error (.notFound id)) fun n => .ok (.node n), t)
    | .error e => (.error e, t)
  | .move id parent position =>
    match t.move id parent position with
    | (.ok _, t) => (.ok (.placed id), t)
    | (.error e, t) => (.error e, t)
  | .register _ _ => (.ok .registered, t)
  | .load text =>
    match Tree.load text with
    | .ok t => (.ok (.tree t), t)
    | .error e => (.error e, t)

theorem isRefusal_of_add {t : Tree} {n : Node} {parent : String} {e : Error}
    (h : t.add n parent = .error e) : e.isRefusal = true := by
  rw [add] at h
  split at h
  · cases h
  · cases h
    rfl

theorem isRefusal_of_checkRoot {id : String} {u : Update} {e : Error}
    (h : checkRoot id u = .error e) : e.isRefusal = true := by
  rw [checkRoot] at h
  cases htag : u.tag with
  | none =>
    rw [htag] at h
    cases h
  | some tag =>
    rw [htag] at h
    dsimp only at h
    split at h <;> cases h
    rfl

theorem update_of_checkRoot {t : Tree} {id : String} {u : Update} (h : checkRoot id u = .ok ()) :
    t.update id u =
      match t.modify? id u.apply with
      | some t => .ok t
      | none => .error (.notFound id) := by
  rw [update, h]
  rfl

theorem isRefusal_of_update {t : Tree} {id : String} {u : Update} {e : Error}
    (h : t.update id u = .error e) : e.isRefusal = true := by
  cases hcheck : checkRoot id u with
  | error e' =>
    rw [update, hcheck] at h
    cases h
    exact isRefusal_of_checkRoot hcheck
  | ok _ =>
    rw [update_of_checkRoot hcheck] at h
    split at h <;> cases h
    rfl

theorem isRefusal_of_move {t : Tree} {id parent : String} {position : Option Nat} {e : Error}
    (h : (t.move id parent position).1 = .error e) : e.isRefusal = true := by
  rw [move] at h
  split at h
  · next e' hcheck =>
    rw [checkMove] at hcheck
    cases h
    repeat' split at hcheck
    all_goals cases hcheck
    all_goals rfl
  · repeat' split at h
    all_goals cases h
    all_goals rfl

/-- An update that is carried out has passed the check, and is made to the first node with the id.
-/
theorem modify?_of_update {t t' : Tree} {id : String} {u : Update} (h : t.update id u = .ok t') :
    checkRoot id u = .ok () ∧ t.root.modify? id u.apply = some t'.root := by
  cases hcheck : checkRoot id u with
  | error e =>
    rw [update, hcheck] at h
    cases h
  | ok _ =>
    rw [update_of_checkRoot hcheck, modify?] at h
    cases hmodify : t.root.modify? id u.apply with
    | none =>
      rw [hmodify] at h
      cases h
    | some root =>
      rw [hmodify] at h
      cases h
      exact ⟨rfl, rfl⟩

/-- A node that has been updated is found again. -/
theorem exists_find?_of_update {t t' : Tree} {id : String} {u : Update}
    (h : t.update id u = .ok t') : ∃ n, t'.find? id = some n := by
  obtain ⟨-, hmodify⟩ := modify?_of_update h
  obtain ⟨n, hn⟩ := Node.exists_find?_of_modify? hmodify
  have hagain := Node.find?_modify? (f := u.apply) (fun _ => rfl) hmodify
  exact ⟨u.apply n, by rw [find?, hagain, hn, Option.map_some]⟩

/-- A change that fails is turned down. -/
theorem isRefusal_of_perform {t : Tree} {operation : Operation} {e : Error}
    (hchange : operation.isChange = true) (h : (t.perform operation).1 = .error e) :
    e.isRefusal = true := by
  cases operation with
  | reset => cases h
  | add fresh n parent =>
    simp only [perform] at h
    split at h
    · cases h
    · next herror =>
      cases h
      exact isRefusal_of_add herror
  | remove id =>
    simp only [perform] at h
    split at h <;> cases h
  | update id u =>
    simp only [perform] at h
    split at h
    · next htree =>
      obtain ⟨n, hn⟩ := exists_find?_of_update htree
      rw [hn] at h
      cases h
    · next herror =>
      cases h
      exact isRefusal_of_update herror
  | move id parent position =>
    simp only [perform] at h
    split at h
    · cases h
    · next herror =>
      cases h
      exact isRefusal_of_move (congrArg Prod.fst herror)
  | register name d => cases hchange
  | load text => cases hchange

/-- Only a removal answers that nothing was removed. -/
theorem perform_ne_removed {t : Tree} {operation : Operation}
    (h : ∀ id, operation ≠ .remove id) : (t.perform operation).1 ≠ .ok (.removed false) := by
  cases operation with
  | remove id => exact absurd rfl (h id)
  | update id u =>
    simp only [perform]
    split
    · next t' hupdate =>
      obtain ⟨n, hn⟩ := exists_find?_of_update hupdate
      simp [hn]
    · simp
  | reset | add | move | register | load =>
    simp only [perform]
    try split
    all_goals simp

theorem perform_removed_false {t : Tree} {operation : Operation}
    (h : (t.perform operation).1 = .ok (.removed false)) : (t.perform operation).2 = t := by
  by_cases hremove : ∃ id, operation = .remove id
  · obtain ⟨id, rfl⟩ := hremove
    simp only [perform] at h ⊢
    split at h
    · cases h
    · rfl
  · exact absurd h (perform_ne_removed fun id hid => hremove ⟨id, hid⟩)

end Tree

/-- An answer is as intended, or an intended success has failed in delivery. That nothing was
removed is always answered as intended. -/
def Delivered (intended actual : Except Error Answer) : Prop :=
  actual = intended ∨ ∃ answer e, intended = .ok answer ∧ answer ≠ .removed false ∧
    actual = .error e ∧ e.isDelivery = true

namespace Workspace

variable {σ : Type} [Output σ]

/-- Takes over the edit of a tree, and publishes it unless nothing was changed. -/
def conclude (w : Workspace σ) : Except Error Answer × Tree → Outcome σ Answer
  | (.error e, t) => (.error e, w.withTree t)
  | (.ok (.removed false), t) => (.ok (.removed false), w.withTree t)
  | (.ok answer, t) => (w.withTree t).publish answer

theorem conclude_ok (w : Workspace σ) {answer : Answer} (h : answer ≠ .removed false) (t : Tree) :
    w.conclude (.ok answer, t) = (w.withTree t).publish answer := by
  rw [conclude]
  exact h

theorem answer_publish {α : Type} (w : Workspace σ) (result : α) (answer : α → Answer) :
    Outcome.answer (w.publish result) answer = w.publish (answer result) := by
  rw [w.publish_congr result (answer result), Outcome.answer]
  rcases w.publish_result result with hok | ⟨e, herror, -⟩
  · rw [hok]
    rfl
  · rw [herror]
    rfl

theorem update_eq_publish {w : Workspace σ} {id : String} {u : Update} {t : Tree} {n : Node}
    (hupdate : w.tree.update id u = .ok t) (hn : t.find? id = some n) :
    w.update id u = (w.withTree t).publish n := by
  have htree := (w.withTree t).publish_tree ()
  rw [(w.withTree t).publish_congr () n, update, hupdate]
  cases hpublish : (w.withTree t).publish () with
  | mk result after =>
    rw [hpublish] at htree
    have hfound : after.find? id = some n := by rw [Workspace.find?, htree, withTree_tree, hn]
    cases result with
    | error e =>
      simp only [hpublish]
      rfl
    | ok _ =>
      simp only [hpublish, hfound]
      rfl

/-- A change of a workspace is the edit of its tree and then the publication of the result. -/
theorem perform_change (w : Workspace σ) {operation : Operation}
    (h : operation.isChange = true) :
    w.perform operation = w.conclude (w.tree.perform operation) := by
  cases operation with
  | reset => exact answer_publish ..
  | add fresh n parent =>
    simp only [perform, add, Tree.perform]
    cases w.tree.add (n.withId (n.id.getD fresh)) (parent.getD Node.rootId) with
    | error e => rfl
    | ok t => exact answer_publish ..
  | remove id =>
    simp only [perform, remove, Tree.perform]
    cases w.tree.remove? id with
    | none => rfl
    | some t => exact answer_publish ..
  | update id u =>
    simp only [perform, Tree.perform]
    cases hupdate : w.tree.update id u with
    | error e =>
      rw [update, hupdate]
      rfl
    | ok t =>
      obtain ⟨n, hn⟩ := Tree.exists_find?_of_update hupdate
      rw [update_eq_publish hupdate hn]
      simp only [hn, Option.elim_some]
      exact answer_publish ..
  | move id parent position =>
    simp only [perform, move, Tree.perform]
    obtain ⟨result, t⟩ := w.tree.move id parent position
    cases result with
    | error e => rfl
    | ok _ => exact answer_publish ..
  | register name d => cases h
  | load text => cases h

theorem conclude_delivered (w : Workspace σ) (intended : Except Error Answer × Tree) :
    (w.conclude intended).2.tree = intended.2 ∧ Delivered intended.1 (w.conclude intended).1 := by
  obtain ⟨result, t⟩ := intended
  cases result with
  | error e => exact ⟨rfl, .inl rfl⟩
  | ok answer =>
    by_cases hnothing : answer = .removed false
    · subst hnothing
      exact ⟨rfl, .inl rfl⟩
    · rw [conclude_ok w hnothing]
      refine ⟨publish_tree .., ?_⟩
      rcases (w.withTree t).publish_result answer with hok | ⟨e, herror, hdelivery⟩
      · exact .inl hok
      · exact .inr ⟨answer, e, rfl, hnothing, herror, hdelivery⟩

/-- A conclusion changes the tree and the output only. -/
theorem conclude_workspace (w : Workspace σ) (intended : Except Error Answer × Tree) :
    ∃ output, (w.conclude intended).2 = { w with tree := intended.2, output } := by
  obtain ⟨result, t⟩ := intended
  cases result with
  | error e => exact ⟨w.output, rfl⟩
  | ok answer =>
    by_cases hnothing : answer = .removed false
    · subst hnothing
      exact ⟨w.output, rfl⟩
    · rw [conclude_ok w hnothing]
      exact (w.withTree t).publish_workspace answer

theorem answer_write {α : Type} (w : Workspace σ) (path text : String) (result : α)
    (answer : α → Answer) :
    Outcome.answer (w.write path text result) answer = w.write path text (answer result) := by
  rw [write, write]
  cases Output.write w.output path text with
  | mk written output => cases written <;> rfl

/-- All that a registration can do: the definition is malformed and nothing is changed, or the
definition is registered and its module is written. -/
theorem register_cases (w : Workspace σ) (name : String) (d : Definition) :
    (∃ cause, w.options.componentModule (d.withName name) = .error (.malformed cause) ∧
      w.perform (.register name d) = (.error (.malformed cause), w)) ∨
    ∃ text, w.options.componentModule (d.withName name) = .ok text ∧
      w.perform (.register name d) =
        Workspace.write { w with registry := w.registry.register name (d.withName name) }
          (w.config.componentModulePath name) text .registered := by
  cases hmodule : w.options.componentModule (d.withName name) with
  | error e =>
    obtain ⟨cause, rfl⟩ := Options.exists_malformed_of_componentModule hmodule
    refine .inl ⟨cause, rfl, ?_⟩
    simp only [perform, Outcome.answer, register, hmodule]
    rfl
  | ok text =>
    refine .inr ⟨text, rfl, ?_⟩
    simp only [perform, register, hmodule]
    exact answer_write ..

/-- A registration that succeeds has put the module of the component into the output. -/
theorem written_of_registered {w : Workspace σ} {name : String} {d : Definition} {answer : Answer}
    (h : (w.perform (.register name d)).1 = .ok answer) :
    ∃ text, w.options.componentModule (d.withName name) = .ok text ∧
      Output.write w.output (w.config.componentModulePath name) text =
        (.ok (), (w.perform (.register name d)).2.output) := by
  rcases w.register_cases name d with ⟨cause, -, hperform⟩ | ⟨text, hmodule, hperform⟩
  · rw [hperform] at h
    cases h
  · refine ⟨text, hmodule, ?_⟩
    rw [hperform, write] at h ⊢
    dsimp only at h ⊢
    split at h
    · next hwrite => rw [hwrite]
    · cases h

theorem register_delivered (w : Workspace σ) (name : String) (d : Definition) :
    (w.perform (.register name d)).2.tree = w.tree ∧
      Delivered (.ok .registered) (w.perform (.register name d)).1 := by
  rcases w.register_cases name d with ⟨cause, -, hperform⟩ | ⟨text, -, hperform⟩
  · rw [hperform]
    exact ⟨rfl, .inr ⟨_, .malformed cause, rfl, by simp, rfl, rfl⟩⟩
  · rw [hperform]
    refine ⟨by rw [write_workspace], ?_⟩
    rcases write_result { w with registry := w.registry.register name (d.withName name) }
      (w.config.componentModulePath name) text Answer.registered with hok | ⟨cause, herror⟩
    · exact .inl hok
    · exact .inr ⟨_, .file cause, rfl, by simp, herror, rfl⟩

/-- A step changes the tree and the output, and if it is a registration the registry. -/
theorem perform_workspace (w : Workspace σ) (operation : Operation) :
    ∃ registry output, (w.perform operation).2 =
        { w with tree := (w.tree.perform operation).2, registry, output } ∧
      (registry = w.registry ∨ ∃ name d, operation = .register name d) := by
  cases hchange : operation.isChange with
  | true =>
    obtain ⟨output, hafter⟩ := w.conclude_workspace (w.tree.perform operation)
    exact ⟨w.registry, output, by rw [w.perform_change hchange, hafter], .inl rfl⟩
  | false =>
    cases operation with
    | register name d =>
      rcases w.register_cases name d with ⟨cause, -, hperform⟩ | ⟨text, -, hperform⟩
      · exact ⟨w.registry, w.output, by rw [hperform]; rfl, .inl rfl⟩
      · exact ⟨_, _, by rw [hperform, write_workspace]; rfl, .inr ⟨name, d, rfl⟩⟩
    | load text =>
      refine ⟨w.registry, w.output, ?_, .inl rfl⟩
      simp only [perform, Outcome.answer, load, Tree.perform]
      cases Tree.load text <;> rfl
    | reset | add | remove | update | move => cases hchange

/-- A workspace carries out what an operation intends for its tree. -/
theorem perform_delivered (w : Workspace σ) (operation : Operation) :
    (w.perform operation).2.tree = (w.tree.perform operation).2 ∧
      Delivered (w.tree.perform operation).1 (w.perform operation).1 := by
  cases hchange : operation.isChange with
  | true =>
    rw [perform_change w hchange]
    exact w.conclude_delivered _
  | false =>
    cases operation with
    | register name d => exact w.register_delivered name d
    | load text =>
      simp only [perform, Outcome.answer, load, Tree.perform]
      cases Tree.load text with
      | error e => exact ⟨rfl, .inl rfl⟩
      | ok t => exact ⟨rfl, .inl rfl⟩
    | reset | add | remove | update | move => cases hchange

end Workspace
end ScreenTree
