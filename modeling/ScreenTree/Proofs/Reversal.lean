import ScreenTree.Proofs.Relocation

/-! # Changes taken back

A move leaves the subtree of its node as it is, and all else in its order, so where ids are distinct
a move to the old index under the old parent restores the tree. A node whose id is new to the tree
is the one that a removal finds, whatever is below it, so removing it restores the tree also where
ids are repeated. -/

namespace ScreenTree

open Node

namespace Gap

theorem isAt_length (g : Gap) : g.IsAt (some g.before.length) := by
  rw [IsAt]
  split
  · rfl
  · next h =>
    rw [List.length_append] at h
    exact List.eq_nil_of_length_eq_zero (by omega)

/-- A child of a node of the tree stands in a gap at its index. -/
theorem exists_of_child {top parent n : Node} {i : Nat} (h : top.ids.Nodup) {id : String}
    (hparent : parent ∈ top.nodes) (hid : parent.id = some id)
    (hchild : parent.children[i]? = some n) :
    ∃ g : Gap, top = g.fill n ∧ g.parent.id = some id ∧ g.before.length = i := by
  obtain ⟨-, place, htop, -⟩ := exists_fill_of_find? ((find?_eq_some_iff h).2 ⟨hparent, hid⟩)
  obtain ⟨hi, hn⟩ := List.getElem?_eq_some_iff.1 hchild
  have hsplit : parent.children.take i ++ n :: parent.children.drop (i + 1) = parent.children := by
    rw [← hn, List.getElem_cons_drop, List.take_append_drop]
  refine ⟨⟨place, parent.label, parent.children.take i, parent.children.drop (i + 1)⟩, ?_, hid, ?_⟩
  · rw [htop, fill, hsplit, node_label]
  · exact List.length_take_of_le (Nat.le_of_lt hi)

theorem parent_mem_ids_close (g : Gap) {id : String} (h : g.parent.id = some id) :
    id ∈ g.close.ids := by
  rw [ids, close, Place.labels_fill, Label.labels_node]
  exact List.mem_filterMap.2 ⟨g.parent, by simp, h⟩

/-- A node that is put into a gap is found if its id is nowhere else, but perhaps in itself. -/
theorem find?_fill {g : Gap} {n : Node} {id : String} (hn : n.id = some id)
    (hg : ∀ l ∈ g.close.labels, l.id ≠ some id) : (g.fill n).find? id = some n := by
  rw [close, Place.labels_fill, Label.labels_node, labelsIn_append, List.forall_mem_append,
    List.forall_mem_append, List.forall_mem_cons, List.forall_mem_append] at hg
  obtain ⟨⟨hahead, hparent, hbefore, -⟩, -⟩ := hg
  refine Node.find?_fill ?_ hahead
  rw [Label.node, Node.find?, if_neg hparent, findIn?_append hbefore, findIn?, find?_self hn]

end Gap

namespace Tree

variable {t t' : Tree} {id parent other : String}

theorem movable_of_move (h : t.Distinct) {position : Option Nat}
    (hmove : ¬ ∃ e, (t.move id parent position).1 = .error e) : t.Movable id parent := by
  refine (checkMove_eq_ok_iff_movable h).1 ?_
  cases hcheck : t.checkMove id parent with
  | ok _ => rfl
  | error e => exact absurd ⟨e, by rw [move, hcheck]⟩ hmove

/-- Among distinct ids, a node stands in one gap only, as far as the tree without it shows. -/
theorem eq_and_close_eq_of_fill_eq {g k : Gap} {n m : Node} (h : t.Distinct)
    (hg : t.root = g.fill n) (hn : n.id = some id) (hk : t.root = k.fill m)
    (hm : m.id = some id) : n = m ∧ g.close = k.close := by
  have hunlinkG := unlink?_fill hn (not_mem_ids_iff.1 (not_mem_of_distinct_fill h hg hn).1)
  have hunlinkK := unlink?_fill hm (not_mem_ids_iff.1 (not_mem_of_distinct_fill h hk hm).1)
  rw [← hg] at hunlinkG
  rw [← hk, hunlinkG] at hunlinkK
  exact Prod.mk.inj (Option.some.inj hunlinkK)

/-- A node that has gone from its gap can go back there. -/
theorem Relocated.back {position : Option Nat} (h : t.Distinct)
    (hrelocated : t.Relocated id other position t') {g : Gap} {n : Node}
    (hroot : t.root = g.fill n) (hn : n.id = some id) (hparent : g.parent.id = some parent) :
    t'.Distinct ∧ t'.Movable id parent ∧ t'.Relocated id parent (some g.before.length) t := by
  obtain ⟨old, new, m, hm, -, -, hold, hclose, hnew⟩ := hrelocated
  obtain ⟨rfl, hsame⟩ := eq_and_close_eq_of_fill_eq h hroot hn hold hm
  have hshut : new.close = g.close := (hsame.trans hclose).symm
  have hgone := (not_mem_of_distinct_fill h hroot hn).1
  have hleft := g.parent_mem_ids_close hparent
  have hnodup := (distinct_fill_iff hroot).1 h
  have hdistinct : t'.Distinct := (distinct_fill_iff hnew).2 (hshut ▸ hnodup)
  -- The node is taken out of both trees with the same rest, so they have the same ids.
  have hids := new.perm_ids_fill n
  rw [← hnew, hshut] at hids
  refine ⟨hdistinct, ⟨?_, ?_, ?_, ?_⟩, new, g, n, hn, hparent, g.isAt_length, hnew, hshut, hroot⟩
  · exact hids.mem_iff.2 (List.mem_append_left _ (mem_ids_self hn))
  · exact hids.mem_iff.2 (List.mem_append_right _ hleft)
  · rw [hnew, Gap.id_fill, hshut]
    exact fun htop => hgone (mem_ids_self htop)
  · intro k hk hkid
    have hmem : n ∈ t'.root.nodes := hnew ▸ new.self_mem_nodes_fill n
    rw [eq_of_id_eq hdistinct hk hmem hkid hn]
    exact fun hbelow => (List.nodup_append.1 hnodup).2.2 _ hbelow _ hleft rfl

/-- A node is appended in a gap behind the children of the first node with the parent's id. -/
theorem exists_gap_of_add {p : Node} (hfound : t.find? parent = some p) (n : Node) :
    ∃ g : Gap, p = g.parent.node g.before ∧ g.after = [] ∧ g.place.IsFirst parent ∧
      t.root = g.close ∧ t.add n parent = .ok ⟨g.fill n⟩ := by
  obtain ⟨hid, place, hplace, hfirst⟩ := exists_fill_of_find? hfound
  refine ⟨⟨place, p.label, p.children, []⟩, (node_label p).symm, rfl, hfirst, ?_, ?_⟩
  · rw [hplace, Gap.close, List.append_nil, node_label]
  · rw [add, modify?, hplace, modify?_fill hid hfirst]
    rfl

end Tree

namespace Workspace

variable {σ : Type} [Output σ]

/-- Among distinct ids, a move that is not turned down can be undone: the move back to the old
parent and the old index is not turned down either, and leaves the tree as it was before both. -/
theorem move_undone (w : Workspace σ) (h : w.tree.Distinct) {id parent other : String}
    {p n : Node} {i : Nat} (hp : p ∈ w.tree.root.nodes) (hparent : p.id = some parent)
    (hchild : p.children[i]? = some n) (hn : n.id = some id) (position : Option Nat)
    (hmove : ¬ ∃ e, (w.move id other position).1 = .error e ∧ e.isRefusal = true) :
    (¬ ∃ e, ((w.move id other position).2.move id parent (some i)).1 = .error e ∧
      e.isRefusal = true) ∧
    ((w.move id other position).2.move id parent (some i)).2.tree = w.tree := by
  rw [refuses_move_iff] at hmove ⊢
  have hmovable := Tree.movable_of_move h hmove
  obtain ⟨t', hmoved, hrelocated⟩ := Tree.exists_relocated h hmovable position
  obtain ⟨g, hroot, hgap, rfl⟩ := Gap.exists_of_child h hp hparent hchild
  obtain ⟨hdistinct, hback, hrestored⟩ := hrelocated.back h hroot hn hgap
  have hreturn := Tree.move_of_relocated hdistinct hback hrestored
  have htree : (w.move id other position).2.tree = t' := by rw [move_tree, hmoved]
  rw [(w.move id other position).2.move_tree, htree, hreturn]
  exact ⟨nofun, rfl⟩

/-- The last item of a list goes to its front, and back behind the last one that is left. -/
theorem move_undone_in_list :
    let item (id : String) := (Node.element "li").withId id
    let list (items : List Node) := ((Node.element "ul").withId "list").withChildren items
    let tree (items : List Node) : Tree := ⟨Node.root.withChildren [list items]⟩
    let w := (new .standard Memory.empty).withTree (tree [item "a", item "b", item "c"])
    w.tree.Distinct ∧ list [item "a", item "b", item "c"] ∈ w.tree.root.nodes ∧
      (w.move "c" "list" (some 0)).2.tree = tree [item "c", item "a", item "b"] ∧
      ((w.move "c" "list" (some 0)).2.move "c" "list" (some 2)).2.tree = w.tree := by
  intro item list tree w
  have hdistinct : w.tree.Distinct := by decide +kernel
  have hmem : list [item "a", item "b", item "c"] ∈ w.tree.root.nodes := by decide +kernel
  have hmoved : (w.move "c" "list" (some 0)).1 = .ok "c" := by decide +kernel
  have hmove : ¬ ∃ e, (w.move "c" "list" (some 0)).1 = .error e ∧ e.isRefusal = true := by
    rintro ⟨e, he, -⟩
    cases hmoved.symm.trans he
  exact ⟨hdistinct, hmem, by decide +kernel,
    (move_undone w hdistinct hmem rfl rfl rfl (some 0) hmove).2⟩

theorem add_of_tree {w : Workspace σ} {fresh : String} {n : Node} {parent : Option String}
    {t : Tree} (h : w.tree.add (n.withId (n.id.getD fresh)) (parent.getD Node.rootId) = .ok t) :
    w.add fresh n parent = (w.withTree t).publish (n.id.getD fresh) := by
  rw [add]
  simp only [h]

theorem remove_of_unlink? {w : Workspace σ} {id : String} {found rest : Node}
    (h : w.tree.root.unlink? id = some (found, rest)) :
    w.remove id = (w.withTree ⟨rest⟩).publish true := by
  rw [remove, Tree.remove?, h]
  rfl

/-- A node whose id is new to the tree becomes the last child of the first node with the parent's
id, and nothing else differs. It is found by its id as it was given, with the id filled in, and is
the node that a removal takes out, which leaves the tree as it was before the addition. -/
theorem remove_undoes_add (w : Workspace σ) (fresh : String) (n : Node) (parent : Option String)
    {p : Node} (hparent : w.find? (parent.getD Node.rootId) = some p)
    (hnew : n.id.getD fresh ∉ w.tree.ids) :
    let id := n.id.getD fresh
    let added := (w.add fresh n parent).2
    (¬ ∃ e, (w.add fresh n parent).1 = .error e ∧ e.isRefusal = true) ∧
      (∃ place : Place, p.id = some (parent.getD Node.rootId) ∧
        place.IsFirst (parent.getD Node.rootId) ∧ w.tree.root = place.fill p ∧
        added.tree.root = place.fill (p.withChildren (p.children ++ [n.withId id]))) ∧
      added.find? id = some (n.withId id) ∧
      added.tree.root.unlink? id = some (n.withId id, w.tree.root) ∧
      (added.remove id).1 ≠ .ok false ∧ (added.remove id).2.tree = w.tree := by
  intro id added
  obtain ⟨g, hp, hafter, hfirst, hroot, hadd⟩ := Tree.exists_gap_of_add hparent (n.withId id)
  have hgap : ∀ l ∈ g.close.labels, l.id ≠ some id := by
    rw [← hroot]
    exact not_mem_ids_iff.1 hnew
  have hpublish := add_of_tree hadd
  have htree : added.tree = ⟨g.fill (n.withId id)⟩ := by
    rw [show added = (w.add fresh n parent).2 from rfl, hpublish, publish_tree, withTree_tree]
  have hunlink : added.tree.root.unlink? id = some (n.withId id, w.tree.root) := by
    rw [htree, hroot]
    exact unlink?_fill rfl hgap
  have hremove := remove_of_unlink? hunlink
  refine ⟨?_, ⟨g.place, ?_, hfirst, ?_, ?_⟩, ?_, hunlink, ?_, ?_⟩
  · rw [hpublish]
    exact not_refuses_publish _ id
  · exact (mem_nodes_of_find? hparent).2
  · rw [hroot, Gap.close, hafter, List.append_nil, hp]
  · rw [htree, Gap.fill, hafter, hp]
    rfl
  · rw [Workspace.find?, htree]
    exact Gap.find?_fill rfl hgap
  · rw [hremove]
    intro hfalse
    cases eq_of_publish hfalse
  · rw [hremove, publish_tree, withTree_tree]

/-- The parent's id is on two lists, and the id of the new item is once more below it. -/
theorem remove_undoes_add_among_namesakes :
    let list (items : List Node) := ((Node.element "ul").withId "list").withChildren items
    let item (id : String) := (Node.element "li").withId id
    let mark := (Node.element "li").withChildren [(Node.element "em").withId "x"]
    let w := (new .standard Memory.empty).withTree
      ⟨Node.root.withChildren [list [item "a", list []], list []]⟩
    let added := (w.add "x" mark (some "list")).2
    w.find? "list" = some (list [item "a", list []]) ∧ "x" ∉ w.tree.ids ∧
      added.tree = ⟨Node.root.withChildren [
        list [item "a", list [], mark.withId "x"], list []]⟩ ∧
      added.find? "x" = some (mark.withId "x") ∧ (added.remove "x").2.tree = w.tree := by
  intro list item mark w added
  have hparent : w.find? "list" = some (list [item "a", list []]) := by decide +kernel
  have hnew : "x" ∉ w.tree.ids := by decide +kernel
  obtain ⟨-, -, hfound, -, -, hrestored⟩ := remove_undoes_add w "x" mark (some "list") hparent hnew
  exact ⟨hparent, hnew, by decide +kernel, hfound, hrestored⟩

end Workspace
end ScreenTree
