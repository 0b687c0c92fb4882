import ScreenTree.Proofs.Move

/-! # The root of a tree

Every operation but loading keeps a root that is a group with the id of roots, whatever ids the
nodes and updates bear that it is given: the search finds the root first, only what lies below it
can be taken out, and neither a change of its type nor a move gets past the checks. -/

namespace ScreenTree

namespace Node

theorem modify?_cases {id : String} {f : Node → Node} {n n' : Node} (h : modify? id f n = some n') :
    n.id = some id ∧ n' = f n ∨ n.id ≠ some id ∧ ∃ children, n' = n.withChildren children := by
  obtain ⟨i, kind, props, state, children⟩ := n
  rw [modify?] at h
  split at h
  · next hid => exact .inl ⟨hid, (Option.some.inj h).symm⟩
  · next hid =>
    obtain ⟨changed, -, rfl⟩ := Option.map_eq_some_iff.1 h
    exact .inr ⟨hid, changed, rfl⟩

/-- What is left after taking a node out is the same node with other children. -/
theorem unlink?_eq_withChildren {id : String} {n found rest : Node}
    (h : unlink? id n = some (found, rest)) : ∃ children, rest = n.withChildren children := by
  obtain ⟨i, kind, props, state, children⟩ := n
  rw [unlink?] at h
  cases htake : takeFirst? id children with
  | some taken =>
    rw [htake] at h
    cases h
    exact ⟨taken.2, rfl⟩
  | none =>
    rw [htake] at h
    obtain ⟨⟨m, ms⟩, -, hm⟩ := Option.map_eq_some_iff.1 h
    cases hm
    exact ⟨ms, rfl⟩

@[simp] theorem label_withChildren (n : Node) (children : List Node) :
    (n.withChildren children).label = n.label := rfl

end Node

open Node

namespace Tree

/-- The root is a group with the id of roots. -/
structure Rooted (t : Tree) : Prop where
  id : t.root.id = some rootId
  kind : t.root.kind = .group

theorem rooted_empty : Rooted .empty := ⟨rfl, rfl⟩

theorem Rooted.of_label {t t' : Tree} (h : t.Rooted) (hlabel : t'.root.label = t.root.label) :
    t'.Rooted :=
  ⟨(congrArg Label.id hlabel).trans h.id, (congrArg Label.kind hlabel).trans h.kind⟩

theorem modify?_eq_some {t t' : Tree} {id : String} {f : Node → Node}
    (h : t.modify? id f = some t') : t.root.modify? id f = some t'.root := by
  obtain ⟨root, hroot, rfl⟩ := Option.map_eq_some_iff.1 h
  exact hroot

/-- A change that keeps labels, or one that is made to another node, keeps the root's. -/
theorem label_modify? {t t' : Tree} {id : String} {f : Node → Node}
    (hf : t.root.id = some id → (f t.root).label = t.root.label)
    (h : t.modify? id f = some t') : t'.root.label = t.root.label := by
  rcases modify?_cases (modify?_eq_some h) with ⟨hid, hroot⟩ | ⟨-, children, hroot⟩
  · rw [hroot, hf hid]
  · rw [hroot, label_withChildren]

theorem label_remove? {t t' : Tree} {id : String} (h : t.remove? id = some t') :
    t'.root.label = t.root.label := by
  obtain ⟨⟨found, rest⟩, hunlink, rfl⟩ := Option.map_eq_some_iff.1 h
  obtain ⟨children, hrest⟩ := unlink?_eq_withChildren hunlink
  show rest.label = t.root.label
  rw [hrest, label_withChildren]

theorem label_add {t t' : Tree} {n : Node} {parent : String} (h : t.add n parent = .ok t') :
    t'.root.label = t.root.label := by
  rw [add] at h
  split at h
  · next changed hmodify =>
    cases h
    exact label_modify? (fun _ => rfl) hmodify
  · cases h

theorem label_move (t : Tree) (id parent : String) (position : Option Nat) :
    (t.move id parent position).2.root.label = t.root.label := by
  rcases t.move_cases id parent position with ⟨e, -, hmove⟩ | ⟨moved, rest, -, hunlink, hmove⟩ |
      ⟨moved, rest, root, -, hunlink, hmodify, hmove⟩
  · rw [hmove]
  · obtain ⟨children, hrest⟩ := unlink?_eq_withChildren hunlink
    rw [hmove, hrest, label_withChildren]
  · obtain ⟨children, hrest⟩ := unlink?_eq_withChildren hunlink
    have hkept : root.label = rest.label := by
      rcases modify?_cases hmodify with ⟨-, hroot⟩ | ⟨-, others, hroot⟩ <;>
      · rw [hroot]
        rfl
    rw [hmove, hkept, hrest, label_withChildren]

/-- The check lets only an update past that leaves a group a group. -/
theorem kindAfter_of_checkRoot {u : Update} (h : checkRoot rootId u = .ok ()) :
    u.kindAfter .group = .group := by
  rw [checkRoot] at h
  cases htag : u.tag with
  | none => simp [Update.kindAfter, htag]
  | some tag =>
    rw [htag] at h
    by_cases hgroup : tag = Kind.groupTag
    · simp [Update.kindAfter, htag, hgroup, Kind.ofTag]
    · simp [hgroup] at h

/-- An update that is carried out has passed the check. It is made to the root, or leaves the root
what it is apart from its children. -/
theorem update_cases {t t' : Tree} {id : String} {u : Update} (h : t.update id u = .ok t') :
    checkRoot id u = .ok () ∧ (t.root.id = some id ∧ t'.root = u.apply t.root ∨
      t.root.id ≠ some id ∧ t'.root.label = t.root.label) := by
  obtain ⟨hcheck, hmodify⟩ := modify?_of_update h
  refine ⟨hcheck, (modify?_cases hmodify).imp_right ?_⟩
  rintro ⟨hid, children, hroot⟩
  exact ⟨hid, by rw [hroot, label_withChildren]⟩

theorem Rooted.update {t t' : Tree} {id : String} {u : Update} (h : t.Rooted)
    (hupdate : t.update id u = .ok t') : t'.Rooted := by
  obtain ⟨hcheck, ⟨hid, hroot⟩ | ⟨-, hlabel⟩⟩ := update_cases hupdate
  · have hrootId : id = rootId := Option.some.inj (hid.symm.trans h.id)
    subst hrootId
    refine ⟨by rw [hroot]; exact h.id, ?_⟩
    rw [hroot]
    show u.kindAfter t.root.kind = .group
    rw [h.kind, kindAfter_of_checkRoot hcheck]
  · exact h.of_label hlabel

theorem Rooted.find? {t : Tree} (h : t.Rooted) : t.find? rootId = some t.root :=
  find?_self h.id

/-- The root cannot be moved: a known parent is in the root's own subtree. -/
theorem Rooted.move_root {t : Tree} (h : t.Rooted) (parent : String) (position : Option Nat) :
    ∃ e, t.move rootId parent position = (.error e, t) := by
  cases hcheck : t.checkMove rootId parent with
  | error e => exact ⟨e, by rw [move, hcheck]⟩
  | ok _ =>
    obtain ⟨n, hroot, hparent, hbelow⟩ := checkMove_eq_ok_iff.1 hcheck
    rw [h.find?] at hroot
    cases hroot
    rw [Tree.find?, hbelow] at hparent
    cases hparent

/-- Additions, removals and moves leave the root what it is, apart from its children. -/
theorem label_perform (t : Tree) {operation : Operation} (hchange : operation.isChange = true)
    (hreset : operation ≠ .reset) (hupdate : ∀ id u, operation ≠ .update id u) :
    (t.perform operation).2.root.label = t.root.label := by
  cases operation with
  | add fresh n parent =>
    simp only [Tree.perform]
    split
    · next hadd => exact label_add hadd
    · rfl
  | remove id =>
    simp only [Tree.perform]
    split
    · next hremove => exact label_remove? hremove
    · rfl
  | move id parent position =>
    have hlabel := t.label_move id parent position
    simp only [Tree.perform]
    split <;>
    · next hmove =>
      rw [hmove] at hlabel
      exact hlabel
  | reset => exact absurd rfl hreset
  | update id u => exact absurd rfl (hupdate id u)
  | register name d => cases hchange
  | load text => cases hchange

theorem Rooted.perform {t : Tree} (h : t.Rooted) {operation : Operation}
    (hload : ∀ text, operation ≠ .load text) : (t.perform operation).2.Rooted := by
  cases operation with
  | reset => exact rooted_empty
  | add | remove | move => exact h.of_label (t.label_perform rfl (by simp) (by simp))
  | update id u =>
    simp only [Tree.perform]
    split
    · next hupdate => exact h.update hupdate
    · exact h
  | register name d => exact h
  | load text => exact absurd rfl (hload text)

end Tree

namespace Workspace

variable {σ : Type} [Output σ]

theorem rooted_after {w : Workspace σ} (h : w.tree.Rooted) {run : List Operation}
    (hrun : ∀ text, .load text ∉ run) : (w.after run).tree.Rooted := by
  induction run generalizing w with
  | nil => exact h
  | cons operation run ih =>
    rw [after_cons]
    apply ih
    · rw [(w.perform_delivered operation).1]
      exact h.perform fun text hload => hrun text (by simp [hload])
    · exact fun text hmem => hrun text (List.mem_cons_of_mem _ hmem)

theorem add_ne_notFound {w : Workspace σ} (h : w.tree.Rooted) (fresh : String) (n : Node)
    (id : String) : (w.add fresh n none).1 ≠ .error (.notFound id) := by
  have hfound := Node.isSome_modify? rootId
    (fun p => { p with children := p.children ++ [n.withId (n.id.getD fresh)] }) w.tree.root
  have hroot : w.tree.root.find? rootId = some w.tree.root := h.find?
  rw [hroot] at hfound
  obtain ⟨root, hmodify⟩ := Option.isSome_iff_exists.1 hfound
  intro hadd
  rw [add] at hadd
  simp only [Tree.add, Tree.modify?, Option.getD_none, hmodify, Option.map_some] at hadd
  have hdelivery := isDelivery_of_publish hadd
  cases hdelivery

theorem label_remove (w : Workspace σ) (id : String) :
    (w.remove id).2.tree.root.label = w.tree.root.label := by
  rw [remove]
  cases hremove : w.tree.remove? id with
  | none => rfl
  | some t =>
    simp only [publish_tree, withTree_tree]
    exact Tree.label_remove? hremove

/-- At every point of a run without loading the root is a group with the id of roots and the first
node with that id, an addition without a parent finds its place, a removal leaves the root where it
is, and a move of the root fails and changes nothing. -/
theorem root_stays (w : Workspace σ) (hroot : w.tree.Rooted) (run : List Operation)
    (hrun : ∀ text, .load text ∉ run) :
    (w.after run).tree.Rooted ∧
      (w.after run).find? rootId = some (w.after run).tree.root ∧
      (∀ fresh n id, ((w.after run).add fresh n none).1 ≠ .error (.notFound id)) ∧
      (∀ id, ((w.after run).remove id).2.tree.root.label = (w.after run).tree.root.label) ∧
      ∀ parent position, ∃ e,
        (w.after run).move rootId parent position = (.error e, w.after run) := by
  have hafter := rooted_after hroot hrun
  refine ⟨hafter, hafter.find?, add_ne_notFound hafter, label_remove _, ?_⟩
  intro parent position
  obtain ⟨e, hmove⟩ := hafter.move_root parent position
  exact ⟨e, by rw [move, hmove]; rfl⟩

/-- Other nodes have the id of roots, and one of them is removed and another one cannot be moved. -/
theorem root_stays_among_namesakes :
    let w := new .standard Memory.empty
    let namesake := (Node.element "div").withId rootId
    let run : List Operation := [
      .add "n1" namesake none,
      .update rootId { Update.none with tag := some "div", children := some [namesake, namesake] },
      .remove rootId,
      .add "n2" (namesake.withChildren [namesake]) (some rootId),
      .move rootId rootId (some 0)]
    w.tree.Rooted ∧ (∀ text, .load text ∉ run) ∧ (w.after run).tree.Rooted ∧
      ∃ e, (w.after run).move rootId "n2" none = (.error e, w.after run) := by
  intro w namesake run
  have hrun : ∀ text, Operation.load text ∉ run := by simp [run]
  have hstays := root_stays w Tree.rooted_empty run hrun
  exact ⟨Tree.rooted_empty, hrun, hstays.1, hstays.2.2.2.2 "n2" none⟩

end Workspace
end ScreenTree
