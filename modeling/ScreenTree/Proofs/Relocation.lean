import Mathlib.Data.List.Pairwise
import Mathlib.Tactic.MkIffOfInductiveProp
import ScreenTree.Proofs.Place

/-! # Moves among distinct ids

Where no id is on two nodes, a move does what is asked for: it takes the subtree of the node out and
puts it into a gap among the children that the new parent has left. It is turned down exactly if an
id is unknown, the node is the root, or the new parent is in its subtree. -/

namespace ScreenTree

namespace Node

theorem mem_ids_iff {id : String} {n : Node} : id ∈ n.ids ↔ ∃ m ∈ n.nodes, m.id = some id := by
  simp [ids, labels, label]

theorem not_mem_ids_iff {id : String} {n : Node} :
    id ∉ n.ids ↔ ∀ l ∈ n.labels, l.id ≠ some id := by
  simp [ids]

theorem isSome_find?_iff {id : String} {n : Node} : (find? id n).isSome = true ↔ id ∈ n.ids := by
  rw [Option.isSome_iff_ne_none, Ne, find?_eq_none_iff, mem_ids_iff]
  push Not
  rfl

theorem mem_nodes_of_find? {id : String} {n m : Node} (h : find? id n = some m) :
    m ∈ n.nodes ∧ m.id = some id := by
  rw [find?_eq] at h
  exact ⟨List.mem_of_find?_eq_some h, by simpa using List.find?_some h⟩

theorem self_mem_nodes (n : Node) : n ∈ n.nodes := by
  rw [nodes_eq]
  exact List.mem_cons_self

theorem mem_ids_self {id : String} {n : Node} (h : n.id = some id) : id ∈ n.ids :=
  mem_ids_iff.2 ⟨n, self_mem_nodes n, h⟩

/-- Two nodes of a tree with distinct ids that have the same id are one. -/
theorem eq_of_id_eq {top n m : Node} (h : top.ids.Nodup) (hn : n ∈ top.nodes) (hm : m ∈ top.nodes)
    {id : String} (hnid : n.id = some id) (hmid : m.id = some id) : n = m := by
  have hids : top.ids = top.nodes.filterMap Node.id := by
    rw [ids, labels, List.filterMap_map]
    rfl
  rw [hids, List.Nodup, List.pairwise_filterMap] at h
  have hsymm : Std.Symm fun a b : Node => ∀ i, a.id = some i → ∀ j, b.id = some j → i ≠ j :=
    ⟨fun a b hab i hi j hj => (hab j hj i hi).symm⟩
  by_contra hne
  exact h.forall hn hm hne id hnid id hmid rfl

/-- Among distinct ids, the search finds the node with the id. -/
theorem find?_eq_some_iff {top n : Node} {id : String} (h : top.ids.Nodup) :
    find? id top = some n ↔ n ∈ top.nodes ∧ n.id = some id := by
  refine ⟨mem_nodes_of_find?, ?_⟩
  rintro ⟨hn, hid⟩
  obtain ⟨m, hfound⟩ := Option.isSome_iff_exists.1 (isSome_find?_iff.2 (mem_ids_iff.2 ⟨n, hn, hid⟩))
  obtain ⟨hm, hmid⟩ := mem_nodes_of_find? hfound
  rw [hfound, eq_of_id_eq h hm hn hmid hid]

end Node

open Node

namespace Place

/-- A place of a node with distinct ids is the first one with the id of what stands there. -/
theorem isFirst_of_nodup {p : Place} {n : Node} {id : String} (h : (p.fill n).ids.Nodup)
    (hn : n.id = some id) : p.IsFirst id := by
  have hlabels : (p.fill n).ids = p.ahead.filterMap Label.id ++ n.ids ++
      p.behind.filterMap Label.id := by
    rw [ids, labels_fill, List.filterMap_append, List.filterMap_append, ids]
  rw [hlabels, List.append_assoc, List.nodup_append] at h
  intro l hl hid
  have hahead : id ∈ p.ahead.filterMap Label.id := List.mem_filterMap.2 ⟨l, hl, hid⟩
  exact h.2.2 id hahead id (List.mem_append_left _ (mem_ids_self hn)) rfl

end Place

namespace Tree

/-- Both ids are in the tree, the first one is not the root's, and the second one is not in its
subtree. -/
@[mk_iff]
structure Movable (t : Tree) (id parent : String) : Prop where
  known : id ∈ t.ids
  known_parent : parent ∈ t.ids
  not_root : t.root.id ≠ some id
  outside : ∀ n ∈ t.root.nodes, n.id = some id → parent ∉ n.ids

instance (t : Tree) (id parent : String) : Decidable (t.Movable id parent) :=
  decidable_of_iff _ (movable_iff t id parent).symm

/-- The subtree of the id has gone from its gap among the children of its old parent into one among
those that the new parent has left. All else is the same in both trees. -/
def Relocated (t : Tree) (id parent : String) (position : Option Nat) (t' : Tree) : Prop :=
  ∃ (old new : Gap) (n : Node), n.id = some id ∧ new.parent.id = some parent ∧
    new.IsAt position ∧ t.root = old.fill n ∧ old.close = new.close ∧ t'.root = new.fill n

variable {t : Tree} {id parent : String}

/-- A move passes its checks if it is possible. -/
theorem checkMove_eq_ok_iff_movable (h : t.Distinct) :
    t.checkMove id parent = .ok () ↔ t.Movable id parent := by
  rw [checkMove_eq_ok_iff]
  have hfind {n : Node} : t.root.find? id = some n ↔ n ∈ t.root.nodes ∧ n.id = some id :=
    find?_eq_some_iff h
  constructor
  · rintro ⟨n, hfound, hparent, hbelow⟩
    obtain ⟨hmem, hn⟩ := hfind.1 hfound
    have hout : parent ∉ n.ids := by
      rw [← isSome_find?_iff, hbelow]
      nofun
    refine ⟨mem_ids_iff.2 ⟨n, hmem, hn⟩, isSome_find?_iff.1 hparent, ?_, ?_⟩
    · intro hid
      cases hfound.symm.trans (hfind.2 ⟨self_mem_nodes t.root, hid⟩)
      exact hout (isSome_find?_iff.1 hparent)
    · intro m hm hmid
      cases hfound.symm.trans (hfind.2 ⟨hm, hmid⟩)
      exact hout
  · rintro ⟨hknown, hparent, -, houtside⟩
    obtain ⟨n, hmem, hn⟩ := mem_ids_iff.1 hknown
    refine ⟨n, hfind.2 ⟨hmem, hn⟩, isSome_find?_iff.2 hparent, ?_⟩
    rw [← Option.not_isSome_iff_eq_none, isSome_find?_iff]
    exact houtside n hmem hn

theorem distinct_fill_iff {g : Gap} {n : Node} (hroot : t.root = g.fill n) :
    t.Distinct ↔ (n.ids ++ g.close.ids).Nodup := by
  rw [Distinct, Tree.ids, hroot, (g.perm_ids_fill n).nodup_iff]

theorem not_mem_of_distinct_fill {g : Gap} {n : Node} (h : t.Distinct) (hroot : t.root = g.fill n)
    (hn : n.id = some id) : id ∉ g.close.ids ∧ g.close.ids.Nodup := by
  obtain ⟨-, hclose, hapart⟩ := List.nodup_append.1 ((distinct_fill_iff hroot).1 h)
  exact ⟨fun hid => hapart id (mem_ids_self hn) id hid rfl, hclose⟩

/-- A node that has been taken out is put into the gap at the position. -/
theorem move_of_gap {n : Node} {new : Gap} {position : Option Nat}
    (hcheck : t.checkMove id parent = .ok ())
    (hunlink : t.root.unlink? id = some (n, new.close)) (hparent : new.parent.id = some parent)
    (hfirst : new.place.IsFirst parent) (hat : new.IsAt position) :
    t.move id parent position = (.ok (), ⟨new.fill n⟩) := by
  have hput : new.close.modify? parent (n.adopt position) = some (new.fill n) := by
    rw [Gap.close, modify?_fill hparent hfirst, Gap.adopt_eq hat]
    rfl
  rw [move_of_unlink? hcheck hunlink, Tree.modify?, hput]
  rfl

/-- A possible move puts the node where it is asked for. -/
theorem exists_relocated (h : t.Distinct) (hmovable : t.Movable id parent)
    (position : Option Nat) :
    ∃ t', t.move id parent position = (.ok (), t') ∧ t.Relocated id parent position t' := by
  have hcheck := (checkMove_eq_ok_iff_movable h).2 hmovable
  obtain ⟨n, rest, hunlink⟩ := exists_unlink?_of_checkMove hcheck
  obtain ⟨hn, old, hroot, hrest⟩ := exists_gap_of_unlink? hunlink
  -- The new parent is not in what is taken out, so it is left.
  have hleft : parent ∈ rest.ids := by
    have hids := perm_ids (labels_unlink? hunlink)
    refine (List.mem_append.1 (hids.mem_iff.1 hmovable.known_parent)).resolve_left ?_
    exact hmovable.outside n (hroot ▸ old.self_mem_nodes_fill n) hn
  obtain ⟨q, hq⟩ := Option.isSome_iff_exists.1 (isSome_find?_iff.2 hleft)
  obtain ⟨hparent, place, hplace, hfirst⟩ := exists_fill_of_find? hq
  obtain ⟨new, rfl, rfl, hat⟩ := Gap.exists_isAt position place q
  have hclose : rest = new.close := hplace
  rw [hclose] at hunlink
  exact ⟨_, move_of_gap hcheck hunlink hparent hfirst hat,
    old, new, n, hn, hparent, hat, hroot, hrest.symm.trans hclose, rfl⟩

/-- A node can be put in one way only where it is asked for. -/
theorem move_of_relocated (h : t.Distinct) (hmovable : t.Movable id parent)
    {position : Option Nat} {t' : Tree} (hrelocated : t.Relocated id parent position t') :
    t.move id parent position = (.ok (), t') := by
  obtain ⟨old, new, n, hn, hparent, hat, hroot, hclose, hroot'⟩ := hrelocated
  obtain ⟨hgone, hdistinct⟩ := not_mem_of_distinct_fill h hroot hn
  have hunlink : t.root.unlink? id = some (n, new.close) := by
    rw [hroot, unlink?_fill hn (not_mem_ids_iff.1 hgone), hclose]
  have hfirst : new.place.IsFirst parent := by
    rw [hclose] at hdistinct
    exact Place.isFirst_of_nodup hdistinct hparent
  have hcheck := (checkMove_eq_ok_iff_movable h).2 hmovable
  rw [move_of_gap hcheck hunlink hparent hfirst hat, ← hroot']

end Tree

namespace Workspace

variable {σ : Type} [Output σ]

theorem refuses_move_iff (w : Workspace σ) (id parent : String) (position : Option Nat) :
    (∃ e, (w.move id parent position).1 = .error e ∧ e.isRefusal = true) ↔
      ∃ e, (w.tree.move id parent position).1 = .error e := by
  constructor
  · rintro ⟨e, he, hrefusal⟩
    exact ⟨e, move_error_of_isRefusal he hrefusal⟩
  · rintro ⟨e, he⟩
    refine ⟨e, ?_, Tree.isRefusal_of_move he⟩
    rw [move]
    generalize w.tree.move id parent position = moved at he ⊢
    obtain ⟨result, t⟩ := moved
    cases he
    rfl

/-- Among distinct ids, a move is not turned down exactly if both ids are known, the first is not
the root's and the new parent is not in its subtree. Then the tree becomes the one, and the only
one, in which the subtree has gone from its gap into the gap at the position among the children that
the new parent has left. Otherwise it stays as it is. -/
theorem move_relocates (w : Workspace σ) (h : w.tree.Distinct) (id parent : String)
    (position : Option Nat) :
    ((¬ ∃ e, (w.move id parent position).1 = .error e ∧ e.isRefusal = true) ↔
      w.tree.Movable id parent) ∧
    (w.tree.Movable id parent → ∀ t', w.tree.Relocated id parent position t' ↔
      (w.move id parent position).2.tree = t') ∧
    (¬ w.tree.Movable id parent → (w.move id parent position).2.tree = w.tree) := by
  rw [refuses_move_iff, move_tree]
  by_cases hmovable : w.tree.Movable id parent
  · obtain ⟨t', hmove, hrelocated⟩ := Tree.exists_relocated h hmovable position
    refine ⟨iff_of_true ?_ hmovable, fun _ t'' => ?_, fun hnot => absurd hmovable hnot⟩
    · rintro ⟨e, he⟩
      rw [hmove] at he
      cases he
    · rw [hmove]
      constructor
      · intro hother
        exact congrArg Prod.snd (hmove.symm.trans (Tree.move_of_relocated h hmovable hother))
      · rintro rfl
        exact hrelocated
  · have hcheck := mt (Tree.checkMove_eq_ok_iff_movable h).1 hmovable
    have hmove : ∃ e, w.tree.move id parent position = (.error e, w.tree) := by
      cases herror : w.tree.checkMove id parent with
      | ok _ => exact absurd herror hcheck
      | error e => exact ⟨e, by rw [Tree.move, herror]⟩
    obtain ⟨e, hmove⟩ := hmove
    rw [hmove]
    exact ⟨iff_of_false (not_not_intro ⟨e, rfl⟩) hmovable, fun hyes => absurd hyes hmovable,
      fun _ => rfl⟩

/-- The first item of a list goes behind the next one, which has then moved up. The list cannot go
into an item. -/
theorem move_relocates_in_list :
    let item (id : String) := (Node.element "li").withId id
    let list (items : List Node) : Tree :=
      ⟨Node.root.withChildren [((Node.element "ul").withId "list").withChildren items]⟩
    let w := (new .standard Memory.empty).withTree (list [item "a", item "b", item "c"])
    w.tree.Distinct ∧ w.tree.Movable "a" "list" ∧
      w.tree.Relocated "a" "list" (some 1) (list [item "b", item "a", item "c"]) ∧
      ¬ w.tree.Movable "list" "c" ∧ (w.move "list" "c" none).2.tree = w.tree := by
  intro item list w
  have hdistinct : w.tree.Distinct := by decide +kernel
  have hmovable : w.tree.Movable "a" "list" := by decide +kernel
  have hmove : (w.move "a" "list" (some 1)).2.tree = list [item "b", item "a", item "c"] := by
    decide +kernel
  have hstuck : ¬ w.tree.Movable "list" "c" := by decide +kernel
  exact ⟨hdistinct, hmovable,
    ((move_relocates w hdistinct "a" "list" (some 1)).2.1 hmovable _).2 hmove, hstuck,
    (move_relocates w hdistinct "list" "c" none).2.2 hstuck⟩

end Workspace
end ScreenTree
