import ScreenTree.Output.Memory
import ScreenTree.Proofs.Edits

/-! # Trees do not depend on delivery

Two workspaces that start from one tree and are asked for the same operations keep equal trees,
whatever their configurations, registries and outputs are. What is turned down in one is turned down
in the other, with the same words; all else succeeds as the tree says, or fails in delivery only. -/

namespace ScreenTree

namespace Error

/-- The operation was turned down, or its text could not be read. -/
def isRejection : Error → Bool
  | .notFound _ | .refused _ | .unreadable _ => true
  | _ => false

theorem isRejection_of_isRefusal {e : Error} (h : e.isRefusal = true) : e.isRejection = true := by
  cases e <;> simp_all [isRefusal, isRejection]

theorem isRejection_eq_false {e : Error} (h : e.isDelivery = true) : e.isRejection = false := by
  cases e <;> simp_all [isDelivery, isRejection]

end Error

/-- An edit of a tree fails only by being rejected. -/
theorem Tree.isRejection_of_perform {t : Tree} {operation : Operation} {e : Error}
    (h : (t.perform operation).1 = .error e) : e.isRejection = true := by
  cases hchange : operation.isChange with
  | true => exact Error.isRejection_of_isRefusal (isRefusal_of_perform hchange h)
  | false =>
    cases operation with
    | register name d => cases h
    | load text =>
      simp only [perform] at h
      split at h
      · cases h
      · next hload =>
        cases h
        rw [load, Error.ofParse.eq_def] at hload
        split at hload <;> cases hload
        rfl
    | reset | add | remove | update | move => cases hchange

/-- The operation has this answer, or its delivery has failed. -/
def AnsweredOrUndelivered (answer : Answer) (actual : Except Error Answer) : Prop :=
  actual = .ok answer ∨ ∃ e, actual = .error e ∧ e.isDelivery = true

section Delivered

variable {intended actual : Except Error Answer}

theorem Delivered.error_iff (h : Delivered intended actual) {e : Error}
    (he : e.isRejection = true) : actual = .error e ↔ intended = .error e := by
  rcases h with rfl | ⟨answer, e', rfl, -, rfl, hdelivery⟩
  · exact Iff.rfl
  · constructor
    · intro h
      cases h
      rw [Error.isRejection_eq_false hdelivery] at he
      cases he
    · intro h
      cases h

theorem Delivered.removed_iff (h : Delivered intended actual) :
    actual = .ok (.removed false) ↔ intended = .ok (.removed false) := by
  rcases h with rfl | ⟨answer, e', rfl, hne, rfl, -⟩
  · exact Iff.rfl
  · constructor
    · intro h
      cases h
    · intro h
      cases h
      exact absurd rfl hne

theorem Delivered.answered {answer : Answer} (h : Delivered (.ok answer) actual) :
    AnsweredOrUndelivered answer actual := by
  rcases h with h | ⟨-, e, -, -, h, hdelivery⟩
  · exact .inl h
  · exact .inr ⟨e, h, hdelivery⟩

end Delivered

namespace Workspace

variable {σ τ : Type} [Output σ] [Output τ]

theorem after_tree_congr {w : Workspace σ} {v : Workspace τ} (h : w.tree = v.tree)
    (run : List Operation) : (w.after run).tree = (v.after run).tree := by
  induction run generalizing w v with
  | nil => exact h
  | cons operation run ih =>
    refine ih ?_
    rw [(w.perform_delivered operation).1, (v.perform_delivered operation).1, h]

/-- After any run from one tree, two workspaces have equal trees. At the next operation they reject
the same with the same error, find nothing to remove in the same cases, and otherwise both give the
answer that the tree determines or fail in delivery. -/
theorem runs_agree (w : Workspace σ) (v : Workspace τ) (h : w.tree = v.tree)
    (run : List Operation) :
    (w.after run).tree = (v.after run).tree ∧
      ∀ operation : Operation,
        (∀ e, e.isRejection = true →
          (((w.after run).perform operation).1 = .error e ↔
            ((v.after run).perform operation).1 = .error e)) ∧
        (((w.after run).perform operation).1 = .ok (.removed false) ↔
          ((v.after run).perform operation).1 = .ok (.removed false)) ∧
        ((∃ e, e.isRejection = true ∧ ((w.after run).perform operation).1 = .error e) ∨
          ∃ answer, ((w.after run).tree.perform operation).1 = .ok answer ∧
            AnsweredOrUndelivered answer ((w.after run).perform operation).1 ∧
            AnsweredOrUndelivered answer ((v.after run).perform operation).1) := by
  have htree := after_tree_congr h run
  refine ⟨htree, ?_⟩
  intro operation
  have hw := ((w.after run).perform_delivered operation).2
  have hv := ((v.after run).perform_delivered operation).2
  rw [← htree] at hv
  refine ⟨fun e he => (hw.error_iff he).trans (hv.error_iff he).symm,
    hw.removed_iff.trans hv.removed_iff.symm, ?_⟩
  cases hintended : ((w.after run).tree.perform operation).1 with
  | error e =>
    have he := Tree.isRejection_of_perform hintended
    exact .inl ⟨e, he, (hw.error_iff he).2 hintended⟩
  | ok answer =>
    rw [hintended] at hw hv
    exact .inr ⟨answer, rfl, hw.answered, hv.answered⟩

/-- A node without a type is added by a lenient workspace, and by a strict one whose output fails:
only the answers differ. -/
theorem untyped_runs_agree :
    let w := new .standard Memory.empty
    let v := new { Config.standard with options := .strict } (Memory.failing .permissionDenied)
    let addition := Operation.add "n1" (.ofKind .untyped) none
    w.tree = v.tree ∧ (w.after [addition]).tree = (v.after [addition]).tree ∧
      (w.perform addition).1 = .ok (.placed "n1") ∧
      (v.perform addition).1 = .error (.malformed .untyped) :=
  ⟨rfl, (runs_agree (new .standard Memory.empty) (new _ (Memory.failing _)) rfl _).1, by decide,
    by decide⟩

end Workspace
end ScreenTree
