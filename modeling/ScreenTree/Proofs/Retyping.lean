import ScreenTree.Proofs.Interchange
import ScreenTree.Proofs.Root

/-! # Changes of the root's kind

An update is checked by comparing its id with that of roots, and is made to the first node with that
id. The check covers the root of a new tree and of every tree that grows out of it. A tree that was
loaded may have a root of another kind or with another id, and the check then lets updates past that
give it another kind. -/

namespace ScreenTree

namespace Operation

/-- The operation is made to a node of the tree. -/
def isMutation : Operation → Bool
  | .add .. | .remove _ | .update .. | .move .. => true
  | .reset | .register .. | .load _ => false

end Operation

namespace Tree

/-- The operation is an update that finds the root by its id, gets past the check, and gives the
root another kind. -/
def Retypes (t : Tree) : Operation → Prop
  | .update id u =>
    t.root.id = some id ∧ checkRoot id u = .ok () ∧ u.kindAfter t.root.kind ≠ t.root.kind
  | _ => False

/-- No update can be made to the root, or it is a root that the check covers. -/
def Guarded (t : Tree) : Prop :=
  t.root.id = none ∨ t.Rooted

open Node

/-- An update that would retype the root is carried out. -/
theorem exists_update_of_retypes {t : Tree} {id : String} {u : Update}
    (h : t.Retypes (.update id u)) : ∃ t', t.update id u = .ok t' := by
  obtain ⟨hid, hcheck, -⟩ := h
  have hfound := isSome_modify? id u.apply t.root
  rw [find?_self hid] at hfound
  obtain ⟨root, hroot⟩ := Option.isSome_iff_exists.1 hfound
  refine ⟨⟨root⟩, ?_⟩
  rw [update_of_checkRoot hcheck, modify?, hroot]
  rfl

/-- An update keeps the kind of the root exactly if it does not retype the root. -/
theorem kind_update_iff {t t' : Tree} {id : String} {u : Update} (h : t.update id u = .ok t') :
    t'.root.kind = t.root.kind ↔ ¬ t.Retypes (.update id u) := by
  obtain ⟨hcheck, ⟨hid, hroot⟩ | ⟨hid, hlabel⟩⟩ := update_cases h
  · have hkind : t'.root.kind = u.kindAfter t.root.kind := by
      rw [hroot]
      rfl
    rw [hkind, Retypes]
    simp only [hid, hcheck, true_and, ne_eq, not_not]
  · exact iff_of_true (congrArg Label.kind hlabel) fun hretypes => hid hretypes.1

/-- A mutation keeps the kind of the root exactly if it does not retype the root. -/
theorem kind_perform_iff (t : Tree) {operation : Operation} (h : operation.isMutation = true) :
    (t.perform operation).2.root.kind = t.root.kind ↔ ¬ t.Retypes operation := by
  have hlabel := @label_perform t operation
  cases operation with
  | update id u =>
    simp only [Tree.perform]
    split
    · next hupdate => exact kind_update_iff hupdate
    · next hupdate =>
      refine iff_of_true rfl fun hretypes => ?_
      obtain ⟨t', ht'⟩ := exists_update_of_retypes hretypes
      rw [hupdate] at ht'
      cases ht'
  | add | remove | move =>
    have hkind := congrArg Label.kind (hlabel rfl (by simp) (by simp))
    exact iff_of_true hkind (by simp [Retypes])
  | reset | register | load => cases h

theorem Guarded.not_retypes {t : Tree} (h : t.Guarded) (operation : Operation) :
    ¬ t.Retypes operation := by
  cases operation with
  | update id u =>
    rintro ⟨hid, hcheck, hkind⟩
    rcases h with hnone | hroot
    · rw [hnone] at hid
      cases hid
    · have hrootId : id = rootId := Option.some.inj (hid.symm.trans hroot.id)
      subst hrootId
      rw [hroot.kind, kindAfter_of_checkRoot hcheck] at hkind
      exact hkind rfl
  | _ => simp [Retypes]

theorem kindAfter_tag (tag : String) (kind : Kind) :
    ({ Update.none with tag := some tag } : Update).kindAfter kind =
      Kind.ofTag tag kind.value? := by
  cases h : Kind.ofTag tag kind.value? <;> simp [Update.kindAfter, Update.none, h]

/-- A root that is not guarded is retyped by some update: to a group if it has the id of roots, and
else to an element of a tag that it has not. -/
theorem exists_retypes {t : Tree} (h : ¬ t.Guarded) : ∃ id u, t.Retypes (.update id u) := by
  cases hid : t.root.id with
  | none => exact absurd (.inl hid) h
  | some id =>
    by_cases hroot : id = rootId
    · refine ⟨id, { Update.none with tag := some Kind.groupTag }, hid, ?_, ?_⟩
      · simp [checkRoot]
      · rw [kindAfter_tag]
        intro hkind
        exact h (.inr ⟨hid.trans (congrArg some hroot), hkind.symm⟩)
    · have hpasses : ∀ tag, checkRoot id { Update.none with tag := some tag } = .ok () := by
        intro tag
        simp [checkRoot, hroot]
      by_cases hdiv : t.root.kind = .element "div"
      · refine ⟨id, { Update.none with tag := some "p" }, hid, hpasses "p", ?_⟩
        rw [kindAfter_tag, hdiv]
        decide
      · refine ⟨id, { Update.none with tag := some "div" }, hid, hpasses "div", ?_⟩
        rw [kindAfter_tag]
        exact fun hkind => hdiv hkind.symm

/-- Only loading can leave a tree with a root that is not guarded. -/
theorem Guarded.perform {t : Tree} (h : t.Guarded) {operation : Operation}
    (hload : ∀ text t', operation = .load text → Tree.load text = .ok t' → t'.Guarded) :
    (t.perform operation).2.Guarded := by
  have hlabel : ∀ {t' : Tree}, t'.root.label = t.root.label → t'.Guarded := fun hlabel =>
    h.imp (fun hid => (congrArg Label.id hlabel).trans hid) fun hroot => hroot.of_label hlabel
  cases operation with
  | reset => exact .inr rooted_empty
  | add | remove | move => exact hlabel (t.label_perform rfl (by simp) (by simp))
  | register name d => exact h
  | load text =>
    simp only [Tree.perform]
    split
    · next t' ht' => exact hload text t' rfl ht'
    · exact h
  | update id u =>
    simp only [Tree.perform]
    split
    · next t' hupdate =>
      rcases h with hnone | hroot
      · obtain ⟨-, ⟨hid, -⟩ | ⟨-, hkept⟩⟩ := update_cases hupdate
        · rw [hnone] at hid
          cases hid
        · exact hlabel hkept
      · exact .inr (hroot.update hupdate)
    · exact h

/-- The text of a screen whose root is a group with the id `screen`. -/
def screenText : String :=
  "\x7b\"root\": \x7b\"nodeId\": \"screen\", \"type\": \"fragment\"\x7d\x7d"

theorem load_screenText : load screenText = .ok ⟨group.withId "screen"⟩ :=
  load_eq_ok_iff.2 (by decide +kernel)

end Tree

namespace Workspace

variable {σ : Type} [Output σ]

theorem guarded_after {w : Workspace σ} (h : w.tree.Guarded) {run : List Operation}
    (hload : ∀ text t, .load text ∈ run → Tree.load text = .ok t → t.Guarded) :
    (w.after run).tree.Guarded := by
  induction run generalizing w with
  | nil => exact h
  | cons operation run ih =>
    rw [after_cons]
    apply ih
    · rw [(w.perform_delivered operation).1]
      exact h.perform fun text t htext => hload text t (by simp [htext])
    · exact fun text t hmem => hload text t (List.mem_cons_of_mem _ hmem)

/-- A mutation keeps the kind of the root unless it retypes the root. Every mutation does so exactly
where the root is guarded, and it is guarded all along a run that starts so and loads such trees
only. -/
theorem root_kind_kept_iff (w : Workspace σ) :
    (∀ operation : Operation, operation.isMutation = true →
      ((w.perform operation).2.tree.root.kind = w.tree.root.kind ↔
        ¬ w.tree.Retypes operation)) ∧
    ((∀ operation : Operation, operation.isMutation = true →
      (w.perform operation).2.tree.root.kind = w.tree.root.kind) ↔ w.tree.Guarded) ∧
    (w.tree.Guarded → ∀ run : List Operation,
      (∀ text t, .load text ∈ run → Tree.load text = .ok t → t.Guarded) →
        (w.after run).tree.Guarded) := by
  have hkind : ∀ operation : Operation, operation.isMutation = true →
      ((w.perform operation).2.tree.root.kind = w.tree.root.kind ↔ ¬ w.tree.Retypes operation) := by
    intro operation h
    rw [(w.perform_delivered operation).1]
    exact w.tree.kind_perform_iff h
  refine ⟨hkind, ⟨fun hkept => ?_, fun hguarded operation h => ?_⟩, fun h run => guarded_after h⟩
  · by_contra hunguarded
    obtain ⟨id, u, hretypes⟩ := Tree.exists_retypes hunguarded
    exact (hkind (.update id u) rfl).1 (hkept (.update id u) rfl) hretypes
  · exact (hkind operation h).2 (hguarded.not_retypes operation)

/-- A screen whose root has an id of its own is loaded, and its root becomes an element. -/
theorem root_retyped_after_load :
    let w := (new .standard Memory.empty).after [.load Tree.screenText]
    let retype : Operation := .update "screen" { Update.none with tag := some "div" }
    w.tree.root.kind = .group ∧ (w.perform retype).2.tree.root.kind = .element "div" := by
  have htree : ((new .standard Memory.empty).after [.load Tree.screenText]).tree =
      ⟨Node.group.withId "screen"⟩ := by
    rw [after_cons, after_nil, (perform_delivered _ _).1, Tree.perform, Tree.load_screenText]
  intro w retype
  refine ⟨by rw [htree]; rfl, ?_⟩
  rw [(w.perform_delivered retype).1, htree]
  decide

end Workspace
end ScreenTree
