import ScreenTree.Output.Memory
import ScreenTree.Proofs.Edits

/-! # Moving a node

A move that passes its checks takes a node out and looks the new parent up again in what is left.
Where ids are repeated the node taken out need not be the one that was checked, so the new parent
may have left the tree together with it. In this case alone nodes are lost. -/

namespace ScreenTree

open Node

theorem labelsIn_insertAt (position : Option Nat) (n : Node) (children : List Node) :
    (labelsIn (insertAt position n children)).Perm (n.labels ++ labelsIn children) := by
  have hlast : (labelsIn (children ++ [n])).Perm (n.labels ++ labelsIn children) := by
    rw [labelsIn_append, labelsIn_cons, labelsIn_nil, List.append_nil]
    exact List.perm_append_comm
  rw [insertAt.eq_def]
  cases position with
  | none => exact hlast
  | some i =>
    by_cases hi : i < children.length
    · have hsplit : labelsIn children =
          labelsIn (children.take i) ++ labelsIn (children.drop i) := by
        rw [← labelsIn_append, List.take_append_drop]
      simp only [hi, if_true]
      rw [labelsIn_append, labelsIn_cons, hsplit]
      exact List.perm_append_comm_assoc ..
    · simpa only [hi, if_false] using hlast

/-- The node with another one put among its children. -/
def Node.adopt (moved : Node) (position : Option Nat) (p : Node) : Node :=
  { p with children := insertAt position moved p.children }

theorem labels_adopt (position : Option Nat) (moved p : Node) :
    (moved.adopt position p).labels.Perm (moved.labels ++ p.labels) := by
  rw [labels_eq (moved.adopt position p), labels_eq p]
  exact ((labelsIn_insertAt position moved p.children).cons _).trans List.perm_middle.symm

namespace Tree

def labels (t : Tree) : List Label :=
  t.root.labels

theorem checkMove_eq_ok_iff {t : Tree} {id parent : String} :
    t.checkMove id parent = .ok () ↔
      ∃ n, t.find? id = some n ∧ (t.find? parent).isSome = true ∧ n.find? parent = none := by
  rw [checkMove]
  cases t.find? id with
  | none => simp
  | some n => cases t.find? parent <;> cases n.find? parent <;> simp

/-- A node whose move has passed the checks is not the root, so it can be taken out. -/
theorem exists_unlink?_of_checkMove {t : Tree} {id parent : String}
    (h : t.checkMove id parent = .ok ()) :
    ∃ moved rest, t.root.unlink? id = some (moved, rest) := by
  obtain ⟨n, hid, hparent, hbelow⟩ := checkMove_eq_ok_iff.1 h
  have hroot : t.root.id ≠ some id := by
    intro hroot
    rw [Tree.find?, find?_self hroot] at hid
    cases hid
    rw [Tree.find?, hbelow] at hparent
    cases hparent
  rw [Tree.find?, find?_of_id_ne hroot] at hid
  cases htaken : t.root.unlink? id with
  | some taken => exact ⟨taken.1, taken.2, rfl⟩
  | none =>
    rw [unlink?_eq_none_iff.1 htaken] at hid
    cases hid

/-- The node that a move past its checks takes out holds every node with the new parent's id. -/
def Strands (t : Tree) (id parent : String) : Prop :=
  t.checkMove id parent = .ok () ∧ ∃ moved rest, t.root.unlink? id = some (moved, rest) ∧
    ∀ n ∈ rest.nodes, n.id ≠ some parent

theorem move_of_unlink? {t : Tree} {id parent : String} {moved rest : Node}
    (hcheck : t.checkMove id parent = .ok ()) (hunlink : t.root.unlink? id = some (moved, rest))
    (position : Option Nat) :
    t.move id parent position =
      match Tree.modify? ⟨rest⟩ parent (moved.adopt position) with
      | some t => (.ok (), t)
      | none => (.error (.notFound parent), ⟨rest⟩) := by
  rw [move, hcheck]
  simp only [hunlink]
  rfl

/-- All that a move can do: it is turned down, or it strands the node taken out, or it puts that
node under the new parent. -/
theorem move_cases (t : Tree) (id parent : String) (position : Option Nat) :
    (∃ e, t.checkMove id parent = .error e ∧ t.move id parent position = (.error e, t)) ∨
    (∃ moved rest, t.Strands id parent ∧ t.root.unlink? id = some (moved, rest) ∧
      t.move id parent position = (.error (.notFound parent), ⟨rest⟩)) ∨
    (∃ moved rest root, ¬ t.Strands id parent ∧ t.root.unlink? id = some (moved, rest) ∧
      rest.modify? parent (moved.adopt position) = some root ∧
      t.move id parent position = (.ok (), ⟨root⟩)) := by
  cases hcheck : t.checkMove id parent with
  | error e =>
    refine .inl ⟨e, rfl, ?_⟩
    rw [move, hcheck]
  | ok _ =>
    obtain ⟨moved, rest, hunlink⟩ := exists_unlink?_of_checkMove hcheck
    cases hmodify : rest.modify? parent (moved.adopt position) with
    | none =>
      have hgone := find?_eq_none_iff.1 (modify?_eq_none_iff.1 hmodify)
      refine .inr (.inl ⟨moved, rest, ⟨hcheck, moved, rest, hunlink, hgone⟩, hunlink, ?_⟩)
      rw [move_of_unlink? hcheck hunlink, Tree.modify?, hmodify]
      rfl
    | some root =>
      refine .inr (.inr ⟨moved, rest, root, ?_, hunlink, hmodify, ?_⟩)
      · rintro ⟨-, moved', rest', hunlink', hgone⟩
        cases hunlink.symm.trans hunlink'
        rw [modify?_eq_none_iff.2 (find?_eq_none_iff.2 hgone)] at hmodify
        cases hmodify
      · rw [move_of_unlink? hcheck hunlink, Tree.modify?, hmodify]
        rfl

/-- A move that does not strand its node keeps all nodes. -/
theorem labels_move {t : Tree} {id parent : String} (h : ¬ t.Strands id parent)
    (position : Option Nat) : (t.move id parent position).2.labels.Perm t.labels := by
  rcases t.move_cases id parent position with ⟨e, -, hmove⟩ | ⟨moved, rest, hstrands, -, -⟩ |
      ⟨moved, rest, root, -, hunlink, hmodify, hmove⟩
  · rw [hmove]
  · exact absurd hstrands h
  · rw [hmove]
    exact (labels_modify? (labels_adopt position moved) hmodify).trans (labels_unlink? hunlink).symm

/-- A move that strands its node loses it. -/
theorem length_labels_move {t : Tree} {id parent : String} (h : t.Strands id parent)
    (position : Option Nat) : (t.move id parent position).2.labels.length < t.labels.length := by
  rcases t.move_cases id parent position with ⟨e, herror, -⟩ | ⟨moved, rest, -, hunlink, hmove⟩ |
      ⟨moved, rest, root, hkeeps, -, -, -⟩
  · rw [h.1] at herror
    cases herror
  · have hlength := (labels_unlink? hunlink).length_eq
    rw [labels_eq moved, List.length_append, List.length_cons] at hlength
    rw [hmove]
    show rest.labels.length < t.root.labels.length
    omega
  · exact absurd h hkeeps

/-- Two nodes have the id `x`: the first one in pre-order, and the one that is taken out. -/
def crossed : Tree :=
  ⟨Node.root.withChildren [
    ((Node.element "div").withId "a").withChildren [(Node.element "p").withId "x"],
    ((Node.element "div").withId "x").withChildren [(Node.element "span").withId "p"]]⟩

end Tree

namespace Workspace

variable {σ : Type} [Output σ]

theorem move_tree (w : Workspace σ) (id parent : String) (position : Option Nat) :
    (w.move id parent position).2.tree = (w.tree.move id parent position).2 := by
  rw [move]
  obtain ⟨result, t⟩ := w.tree.move id parent position
  cases result with
  | error e => rfl
  | ok _ => exact publish_tree ..

theorem move_error_of_isRefusal {w : Workspace σ} {id parent : String} {position : Option Nat}
    {e : Error} (h : (w.move id parent position).1 = .error e) (he : e.isRefusal = true) :
    (w.tree.move id parent position).1 = .error e := by
  rw [move] at h
  generalize w.tree.move id parent position = moved at h ⊢
  obtain ⟨result, t⟩ := moved
  cases result with
  | error e' =>
    cases h
    rfl
  | ok _ =>
    exact absurd ⟨e, h, he⟩ (not_refuses_publish _ id)

/-- A move keeps every node, and leaves the tree as it is when it is turned down, exactly if it does
not strand the node that it takes out. -/
theorem move_conserves_iff (w : Workspace σ) (id parent : String) (position : Option Nat) :
    ((w.move id parent position).2.tree.labels.Perm w.tree.labels ∧
      ∀ e, (w.move id parent position).1 = .error e → e.isRefusal = true →
        (w.move id parent position).2.tree = w.tree) ↔
      ¬ w.tree.Strands id parent := by
  rw [move_tree]
  constructor
  · rintro ⟨hperm, -⟩ hstrands
    have hlt := Tree.length_labels_move hstrands position
    rw [hperm.length_eq] at hlt
    exact Nat.lt_irrefl _ hlt
  · intro hkeeps
    refine ⟨Tree.labels_move hkeeps position, ?_⟩
    intro e herror hrefusal
    have hmove := move_error_of_isRefusal herror hrefusal
    rcases w.tree.move_cases id parent position with ⟨e', -, h⟩ | ⟨moved, rest, hstrands, -, -⟩ |
        ⟨moved, rest, root, -, -, -, h⟩
    · rw [h]
    · exact absurd hstrands hkeeps
    · rw [h] at hmove
      cases hmove

/-- The new parent `p` is below the node that is taken out, not below the one that was checked. -/
theorem move_crossed :
    (((new .standard Memory.empty).withTree .crossed).move "x" "p" none).1 =
        .error (.notFound "p") ∧
      ¬ (((new .standard Memory.empty).withTree .crossed).move "x" "p" none).2.tree.labels.Perm
        Tree.crossed.labels := by
  refine ⟨by decide, ?_⟩
  intro hperm
  exact absurd hperm.length_eq (by decide)

end Workspace
end ScreenTree
