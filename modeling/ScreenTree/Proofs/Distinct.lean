import ScreenTree.Proofs.Move

/-! # Distinct ids

Operations hand the ids of a tree on: what they take out is gone, what they move or overwrite keeps
its id, and new ids come only with nodes that are added, children that replace others, and trees
that are loaded. So the ids of a tree stay distinct exactly if those that are brought along are
distinct and none of them is on a node that remains. -/

namespace ScreenTree

namespace Node

/-- The ids of a node and of all nodes below it, in pre-order. -/
def ids (n : Node) : List String :=
  n.labels.filterMap Label.id

def idsIn (ns : List Node) : List String :=
  (labelsIn ns).filterMap Label.id

theorem ids_eq (n : Node) : n.ids = n.id.toList ++ idsIn n.children := by
  rw [ids, labels_eq, List.filterMap_cons, idsIn, label]
  cases n.id <;> rfl

theorem ids_withChildren (n : Node) (children : List Node) :
    (n.withChildren children).ids = n.id.toList ++ idsIn children :=
  ids_eq _

theorem perm_ids {n m k : Node} (h : n.labels.Perm (m.labels ++ k.labels)) :
    n.ids.Perm (m.ids ++ k.ids) := by
  have hids := h.filterMap Label.id
  rwa [List.filterMap_append] at hids

/-- A change is made in place: the ids before and after those of the node that is found stay. -/
theorem exists_ids_modify? {id : String} {f : Node → Node} {n n' : Node}
    (h : modify? id f n = some n') :
    ∃ before m after, n.ids = before ++ m.ids ++ after ∧
      ∀ g k, modify? id g n = some k → k.ids = before ++ (g m).ids ++ after := by
  obtain ⟨m, hm⟩ := exists_find?_of_modify? h
  obtain ⟨before, after, hlabels, hchange⟩ := exists_labels_modify? hm
  refine ⟨before.filterMap Label.id, m, after.filterMap Label.id, ?_, ?_⟩
  · rw [ids, hlabels, List.filterMap_append, List.filterMap_append, ids]
  · intro g k hk
    obtain ⟨k', hk', hlabels'⟩ := hchange g
    cases hk.symm.trans hk'
    rw [ids, hlabels', List.filterMap_append, List.filterMap_append, ids]

end Node

namespace Tree

def ids (t : Tree) : List String :=
  t.root.ids

/-- No id is on two nodes. -/
def Distinct (t : Tree) : Prop :=
  t.ids.Nodup

/-- The ids are distinct and not in the tree. -/
def Receives (t : Tree) (new : List String) : Prop :=
  new.Nodup ∧ ∀ id ∈ new, id ∉ t.ids

/-- The tree without what is below the first node with the id. -/
def cleared (t : Tree) (id : String) : Tree :=
  (t.modify? id fun n => n.withChildren []).getD t

/-- The ids that an operation brings along are distinct, and none of them is on a node that
remains. -/
def Admits (t : Tree) : Operation → Prop
  | .add fresh n _ => t.Receives (n.withId (n.id.getD fresh)).ids
  | .update id u => ∀ children ∈ u.children, (t.cleared id).Receives (Node.idsIn children)
  | .load text => ∀ t', load text = .ok t' → t'.Distinct
  | .reset | .remove _ | .move .. | .register .. => True

instance (t : Tree) : Decidable t.Distinct :=
  inferInstanceAs (Decidable t.ids.Nodup)

instance (t : Tree) (new : List String) : Decidable (t.Receives new) :=
  inferInstanceAs (Decidable (_ ∧ _))

instance (t : Tree) : (operation : Operation) → Decidable (t.Admits operation)
  | .add fresh n _ => inferInstanceAs (Decidable (t.Receives (n.withId (n.id.getD fresh)).ids))
  | .update id u =>
    inferInstanceAs (Decidable (∀ children ∈ u.children, (t.cleared id).Receives _))
  | .load text =>
    match h : load text with
    | .ok t' => decidable_of_iff t'.Distinct (by simp [Admits, h])
    | .error _ => isTrue (by simp [Admits, h])
  | .reset | .remove _ | .move .. | .register .. => isTrue trivial

theorem distinct_iff_of_perm {t t' : Tree} {new : List String} (h : t.Distinct)
    (hids : t'.ids.Perm (new ++ t.ids)) : t'.Distinct ↔ t.Receives new := by
  rw [Distinct, hids.nodup_iff, List.nodup_append]
  constructor
  · rintro ⟨hnew, -, hapart⟩
    exact ⟨hnew, fun id hid hold => hapart id hid id hold rfl⟩
  · rintro ⟨hnew, hapart⟩
    refine ⟨hnew, h, ?_⟩
    rintro id hid other hother rfl
    exact hapart id hid hother

theorem Distinct.of_perm {t t' : Tree} {gone : List String} (h : t.Distinct)
    (hids : t.ids.Perm (gone ++ t'.ids)) : t'.Distinct :=
  (List.nodup_append.1 (hids.nodup_iff.1 h)).2.1

/-! ## Operations -/

open Node

theorem perm_ids_add {t t' : Tree} {n : Node} {parent : String} (h : t.add n parent = .ok t') :
    t'.ids.Perm (n.ids ++ t.ids) := by
  rw [add] at h
  split at h
  · next changed hmodify =>
    cases h
    obtain ⟨root, hroot, rfl⟩ := Option.map_eq_some_iff.1 hmodify
    exact perm_ids (labels_modify? (labels_adopt none n) hroot)
  · cases h

theorem perm_ids_remove? {t t' : Tree} {id : String} (h : t.remove? id = some t') :
    ∃ gone, t.ids.Perm (gone ++ t'.ids) := by
  obtain ⟨⟨found, rest⟩, hunlink, rfl⟩ := Option.map_eq_some_iff.1 h
  exact ⟨found.ids, perm_ids (labels_unlink? hunlink)⟩

/-- A move loses ids only if it strands its node. -/
theorem perm_ids_move (t : Tree) (id parent : String) (position : Option Nat) :
    ∃ gone, t.ids.Perm (gone ++ (t.move id parent position).2.ids) := by
  by_cases hstrands : t.Strands id parent
  · rcases t.move_cases id parent position with ⟨e, -, hmove⟩ | ⟨moved, rest, -, hunlink, hmove⟩ |
        ⟨moved, rest, root, hkeeps, -⟩
    · exact ⟨[], by rw [hmove]; exact .refl _⟩
    · rw [hmove]
      exact ⟨moved.ids, perm_ids (labels_unlink? hunlink)⟩
    · exact absurd hstrands hkeeps
  · exact ⟨[], ((labels_move hstrands position).filterMap Label.id).symm⟩

theorem cleared_of_modify? {t : Tree} {id : String} {root : Node}
    (h : t.root.modify? id (fun n => n.withChildren []) = some root) : t.cleared id = ⟨root⟩ := by
  rw [cleared, modify?, h]
  rfl

theorem distinct_cleared {t : Tree} (h : t.Distinct) (id : String) : (t.cleared id).Distinct := by
  cases hmodify : t.root.modify? id fun n => n.withChildren [] with
  | none =>
    rw [cleared, modify?, hmodify]
    exact h
  | some root =>
    obtain ⟨before, m, after, hids, hchange⟩ := exists_ids_modify? hmodify
    have hsub : (m.withChildren []).ids.Sublist m.ids := by
      rw [ids_withChildren, ids_eq]
      exact (List.nil_sublist _).append_left _
    rw [Distinct, Tree.ids, hids] at h
    rw [cleared_of_modify? hmodify, Distinct, Tree.ids, hchange _ _ hmodify]
    exact h.sublist ((hsub.append_left before).append_right after)

/-- An update without children leaves the ids as they are. -/
theorem ids_update {t t' : Tree} {id : String} {u : Update} (h : t.update id u = .ok t')
    (hchildren : u.children = none) : t'.ids = t.ids := by
  obtain ⟨-, hmodify⟩ := modify?_of_update h
  obtain ⟨before, m, after, hids, hchange⟩ := exists_ids_modify? hmodify
  have hsame : (u.apply m).ids = m.ids := by
    rw [ids_eq, ids_eq, Update.apply, hchildren]
    rfl
  rw [Tree.ids, Tree.ids, hchange _ _ hmodify, hsame, hids]

/-- An update puts the ids of its children in the place of those below the node. -/
theorem perm_ids_update {t t' : Tree} {id : String} {u : Update} {children : List Node}
    (h : t.update id u = .ok t') (hchildren : u.children = some children) :
    t'.ids.Perm (idsIn children ++ (t.cleared id).ids) := by
  obtain ⟨-, hmodify⟩ := modify?_of_update h
  have hfound := isSome_modify? id (fun n => n.withChildren []) t.root
  rw [← isSome_modify? id u.apply, hmodify] at hfound
  obtain ⟨kept, hkept⟩ := Option.isSome_iff_exists.1 hfound
  obtain ⟨before, m, after, -, hchange⟩ := exists_ids_modify? hmodify
  have hnew : (u.apply m).ids = m.id.toList ++ idsIn children := by
    rw [ids_eq, Update.apply, hchildren]
    rfl
  have hold : (m.withChildren []).ids = m.id.toList := by
    rw [ids_withChildren]
    exact List.append_nil _
  rw [cleared_of_modify? hkept, Tree.ids, Tree.ids, hchange _ _ hmodify, hchange _ _ hkept, hnew,
    hold, ← List.append_assoc]
  calc (before ++ m.id.toList ++ idsIn children ++ after).Perm
        (idsIn children ++ (before ++ m.id.toList) ++ after) :=
        List.perm_append_comm.append_right after
    _ = idsIn children ++ (before ++ m.id.toList ++ after) := List.append_assoc ..

/-- A tree with distinct ids keeps them so exactly if the operation is turned down or admitted. -/
theorem distinct_perform_iff {t : Tree} (h : t.Distinct) (operation : Operation) :
    (t.perform operation).2.Distinct ↔
      (∃ e, (t.perform operation).1 = .error e) ∨ t.Admits operation := by
  cases operation with
  | reset => exact iff_of_true (by decide : Distinct .empty) (.inr trivial)
  | register name d => exact iff_of_true h (.inr trivial)
  | add fresh n parent =>
    simp only [Tree.perform]
    split
    · next t' hadd => simpa [Admits] using distinct_iff_of_perm h (perm_ids_add hadd)
    · exact iff_of_true h (.inl ⟨_, rfl⟩)
  | remove id =>
    refine iff_of_true ?_ (.inr trivial)
    simp only [Tree.perform]
    split
    · next t' hremove =>
      obtain ⟨gone, hids⟩ := perm_ids_remove? hremove
      exact h.of_perm hids
    · exact h
  | update id u =>
    simp only [Tree.perform]
    split
    · next t' hupdate =>
      obtain ⟨n, hn⟩ := exists_find?_of_update hupdate
      cases hchildren : u.children with
      | none =>
        have hkept : t'.Distinct := by rwa [Distinct, ids_update hupdate hchildren]
        exact iff_of_true hkept (.inr (by simp [Admits, hchildren]))
      | some children =>
        have hiff := distinct_iff_of_perm (distinct_cleared h id)
          (perm_ids_update hupdate hchildren)
        simpa [Admits, hchildren, hn] using hiff
    · exact iff_of_true h (.inl ⟨_, rfl⟩)
  | move id parent position =>
    refine iff_of_true ?_ (.inr trivial)
    obtain ⟨gone, hids⟩ := t.perm_ids_move id parent position
    simp only [Tree.perform]
    split <;>
    · next hmove =>
      rw [hmove] at hids
      exact h.of_perm hids
  | load text =>
    simp only [Tree.perform]
    split
    · next t' hload => simp [Admits, hload]
    · exact iff_of_true h (.inl ⟨_, rfl⟩)

end Tree

namespace Workspace

variable {σ : Type} [Output σ]

/-- Every operation of a run is admitted by the tree that it comes to. -/
def AdmitsRun (w : Workspace σ) : List Operation → Prop
  | [] => True
  | operation :: run => w.tree.Admits operation ∧ (w.perform operation).2.AdmitsRun run

instance decidableAdmitsRun :
    (w : Workspace σ) → (run : List Operation) → Decidable (w.AdmitsRun run)
  | _, [] => isTrue trivial
  | w, operation :: run =>
    have := decidableAdmitsRun (w.perform operation).2 run
    inferInstanceAs (Decidable (_ ∧ _))

theorem distinct_after {w : Workspace σ} (h : w.tree.Distinct) {run earlier : List Operation}
    (hrun : w.AdmitsRun run) (hearlier : earlier <+: run) : (w.after earlier).tree.Distinct := by
  induction run generalizing w earlier with
  | nil =>
    rw [List.prefix_nil.1 hearlier]
    exact h
  | cons operation run ih =>
    rcases List.prefix_cons_iff.1 hearlier with rfl | ⟨rest, rfl, hrest⟩
    · exact h
    · rw [after_cons]
      refine ih ?_ hrun.2 hrest
      rw [(w.perform_delivered operation).1]
      exact (Tree.distinct_perform_iff h operation).2 (.inr hrun.1)

/-- A step leaves distinct ids distinct exactly if it is turned down, or the ids that it brings
along are distinct and none of them is on a node that remains. So they are distinct after every step
of a run that brings along only such ids, whatever its steps answer. -/
theorem ids_stay_distinct (w : Workspace σ) (h : w.tree.Distinct) :
    (∀ operation, (w.perform operation).2.tree.Distinct ↔
      (∃ e, (w.tree.perform operation).1 = .error e) ∨ w.tree.Admits operation) ∧
    ∀ run, w.AdmitsRun run → ∀ earlier, earlier <+: run → (w.after earlier).tree.Distinct := by
  refine ⟨fun operation => ?_, fun run hrun earlier => distinct_after h hrun⟩
  rw [(w.perform_delivered operation).1]
  exact Tree.distinct_perform_iff h operation

/-- A list is filled, and filled again with an item of the same id; an item is moved out of it, and
another one removed, whose id is given to a new node. The last move is turned down. -/
theorem ids_stay_distinct_in_list :
    let w := new .standard Memory.empty
    let item (id : String) := (Node.element "li").withId id
    let run : List Operation := [
      .add "list" ((Node.element "ul").withChildren [item "a", Node.element "li"]) none,
      .update "list" { Update.none with children := some [item "a", item "b"] },
      .move "b" Node.rootId (some 0),
      .remove "a",
      .add "unused" (item "a") (some "b"),
      .move "b" "a" none]
    w.tree.Distinct ∧ w.AdmitsRun run ∧
      (w.after run).tree.ids = [Node.rootId, "b", "a", "list"] ∧ (w.after run).tree.Distinct := by
  intro w item run
  have hstart : w.tree.Distinct := by decide
  have hrun : w.AdmitsRun run := by decide +kernel
  exact ⟨hstart, hrun, by decide +kernel,
    (ids_stay_distinct w hstart).2 run hrun run (List.prefix_refl run)⟩

end Workspace
end ScreenTree
