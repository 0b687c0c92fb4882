import Mathlib.Logic.Equiv.Basic
import ScreenTree.Proofs.Markup.Drawn
import ScreenTree.Proofs.Move

/-! # Renaming ids

A renaming sends different ids to different ones and keeps the id of the root. Ids are compared with
each other and never looked into, so searching and editing commute with every renaming. What is
drawn of a node has no ids at all. -/

namespace ScreenTree

/-- A map of ids that keeps different ids apart and the root where it is. -/
structure Renaming where
  apply : String → String
  injective : Function.Injective apply
  fixes_root : apply Node.rootId = Node.rootId

namespace Renaming

instance : CoeFun Renaming fun _ => String → String := ⟨apply⟩

/-- The renaming that exchanges two ids. -/
def swap (a b : String) (ha : Node.rootId ≠ a) (hb : Node.rootId ≠ b) : Renaming where
  apply := Equiv.swap a b
  injective := (Equiv.swap a b).injective
  fixes_root := Equiv.swap_apply_of_ne_of_ne ha hb

theorem map_eq_some_iff (r : Renaming) {o : Option String} {id : String} :
    o.map r = some (r id) ↔ o = some id :=
  (Option.map_injective r.injective).eq_iff (b := some id)

end Renaming

/-! ## What is renamed -/

variable (r : Renaming)

namespace Node

mutual

/-- The node with the ids of all its nodes renamed. -/
def rename : Node → Node
  | ⟨id, kind, props, state, children⟩ => ⟨id.map r, kind, props, state, renameIn children⟩

def renameIn : List Node → List Node
  | [] => []
  | n :: ns => n.rename :: renameIn ns

end

end Node

def Tree.rename (t : Tree) : Tree :=
  ⟨t.root.rename r⟩

def Update.rename (u : Update) : Update :=
  { u with children := u.children.map (Node.renameIn r) }

def Definition.rename (d : Definition) : Definition :=
  { d with children := Node.renameIn r d.children }

def Registry.rename (g : Registry) : Registry :=
  ⟨g.registered.map fun (name, d) => (name, d.rename r)⟩

def Error.rename : Error → Error
  | .notFound id => .notFound (r id)
  | .refused (.moveIntoSelf id) => .refused (.moveIntoSelf (r id))
  | .refused (.notDetached id) => .refused (.notDetached (r id))
  | e => e

/-- A result with its ids renamed, where `f` renames those of a success. -/
def Renaming.result {α : Type} (f : α → α) : Except Error α → Except Error α
  | .ok a => .ok (f a)
  | .error e => .error (e.rename r)

/-! ## Nodes -/

namespace Node

@[simp] theorem id_rename (n : Node) : (n.rename r).id = n.id.map r := by
  cases n
  rfl

theorem rename_withId (n : Node) (id : String) :
    (n.withId id).rename r = (n.rename r).withId (r id) := by
  cases n
  rfl

theorem renameIn_eq_map (ns : List Node) : renameIn r ns = ns.map (rename r) := by
  induction ns with
  | nil => rfl
  | cons n ns ih => rw [renameIn, ih, List.map_cons]

mutual

theorem find?_rename (id : String) :
    ∀ n : Node, (n.rename r).find? (r id) = (n.find? id).map (rename r)
  | ⟨i, kind, props, state, children⟩ => by
    rw [rename, find?, find?, findIn?_renameIn id children]
    by_cases h : i = some id
    · rw [if_pos h, if_pos (r.map_eq_some_iff.2 h), Option.map_some, rename]
    · rw [if_neg h, if_neg (mt r.map_eq_some_iff.1 h)]

theorem findIn?_renameIn (id : String) :
    ∀ ns : List Node, findIn? (r id) (renameIn r ns) = (findIn? id ns).map (rename r)
  | [] => rfl
  | n :: ns => by
    rw [renameIn, findIn?, findIn?, find?_rename id n, findIn?_renameIn id ns]
    cases find? id n <;> rfl

end

mutual

/-- A change commutes with a renaming if it does so at every node. -/
theorem modify?_rename {f g : Node → Node} (h : ∀ n : Node, g (n.rename r) = (f n).rename r)
    (id : String) : ∀ n : Node, (n.rename r).modify? (r id) g = (n.modify? id f).map (rename r)
  | ⟨i, kind, props, state, children⟩ => by
    have hnode := h ⟨i, kind, props, state, children⟩
    rw [rename] at hnode
    rw [rename, modify?, modify?, modifyIn?_renameIn h id children]
    by_cases hid : i = some id
    · rw [if_pos hid, if_pos (r.map_eq_some_iff.2 hid), Option.map_some, hnode]
    · rw [if_neg hid, if_neg (mt r.map_eq_some_iff.1 hid), Option.map_map, Option.map_map]
      rfl

theorem modifyIn?_renameIn {f g : Node → Node} (h : ∀ n : Node, g (n.rename r) = (f n).rename r)
    (id : String) : ∀ ns : List Node,
    modifyIn? (r id) g (renameIn r ns) = (modifyIn? id f ns).map (renameIn r)
  | [] => rfl
  | n :: ns => by
    rw [renameIn, modifyIn?, modifyIn?, modify?_rename h id n, modifyIn?_renameIn h id ns]
    cases modify? id f n with
    | some changed => rfl
    | none =>
      rw [Option.map_none]
      simp only [Option.map_map]
      rfl

end

theorem takeFirst?_renameIn (id : String) (ns : List Node) :
    takeFirst? (r id) (renameIn r ns) =
      (takeFirst? id ns).map (Prod.map (rename r) (renameIn r)) := by
  induction ns with
  | nil => rfl
  | cons n ns ih =>
    rw [renameIn, takeFirst?, takeFirst?, id_rename, ih]
    by_cases h : n.id = some id
    · rw [if_pos h, if_pos (r.map_eq_some_iff.2 h)]
      rfl
    · rw [if_neg h, if_neg (mt r.map_eq_some_iff.1 h), Option.map_map, Option.map_map]
      rfl

mutual

theorem unlink?_rename (id : String) : ∀ n : Node,
    (n.rename r).unlink? (r id) = (n.unlink? id).map (Prod.map (rename r) (rename r))
  | ⟨i, kind, props, state, children⟩ => by
    rw [rename, unlink?, unlink?, takeFirst?_renameIn, unlinkIn?_renameIn id children]
    cases takeFirst? id children with
    | some taken => rfl
    | none =>
      rw [Option.map_none]
      simp only [Option.map_map]
      rfl

theorem unlinkIn?_renameIn (id : String) : ∀ ns : List Node,
    unlinkIn? (r id) (renameIn r ns) =
      (unlinkIn? id ns).map (Prod.map (rename r) (renameIn r))
  | [] => rfl
  | n :: ns => by
    rw [renameIn, unlinkIn?, unlinkIn?, unlink?_rename id n, unlinkIn?_renameIn id ns]
    cases unlink? id n with
    | some taken => rfl
    | none =>
      rw [Option.map_none]
      simp only [Option.map_map]
      rfl

end

mutual

/-- What is drawn of a node does not show its ids. -/
theorem drawn_rename : ∀ n : Node, (n.rename r).drawn = n.drawn
  | ⟨id, kind, props, state, children⟩ => by
    rw [rename, drawn, drawn, drawnIn_renameIn children]

theorem drawnIn_renameIn : ∀ ns : List Node, drawnIn (renameIn r ns) = drawnIn ns
  | [] => rfl
  | n :: ns => by rw [renameIn, drawnIn, drawnIn, drawn_rename n, drawnIn_renameIn ns]

end

end Node

theorem renameIn_insertAt (position : Option Nat) (n : Node) (children : List Node) :
    Node.renameIn r (insertAt position n children) =
      insertAt position (n.rename r) (Node.renameIn r children) := by
  simp only [Node.renameIn_eq_map]
  rw [insertAt.eq_def, insertAt.eq_def, List.length_map]
  cases position with
  | none => exact List.map_append
  | some i =>
    dsimp only
    split
    · rw [List.map_append, List.map_cons, List.map_take, List.map_drop]
    · exact List.map_append

theorem Node.adopt_rename (moved : Node) (position : Option Nat) (p : Node) :
    (moved.rename r).adopt position (p.rename r) = (moved.adopt position p).rename r := by
  obtain ⟨id, kind, props, state, children⟩ := p
  exact congrArg (Node.mk _ kind props state) (renameIn_insertAt r position moved children).symm

theorem Update.apply_rename (u : Update) (n : Node) :
    (u.rename r).apply (n.rename r) = (u.apply n).rename r := by
  obtain ⟨id, kind, props, state, children⟩ := n
  obtain ⟨tag, newProps, newState, newChildren, value⟩ := u
  cases newChildren <;> rfl

/-! ## Trees -/

namespace Tree

theorem rename_empty : empty.rename r = empty := by
  rw [rename, empty, Node.root, Node.rename_withId, r.fixes_root]
  rfl

theorem find?_rename (t : Tree) (id : String) :
    (t.rename r).find? (r id) = (t.find? id).map (Node.rename r) :=
  t.root.find?_rename r id

theorem modify?_rename {f g : Node → Node} (h : ∀ n : Node, g (n.rename r) = (f n).rename r)
    (t : Tree) (id : String) :
    (t.rename r).modify? (r id) g = (t.modify? id f).map (rename r) := by
  rw [modify?, modify?, rename, Node.modify?_rename r h, Option.map_map, Option.map_map]
  rfl

theorem add_rename (t : Tree) (n : Node) (parent : String) :
    (t.rename r).add (n.rename r) (r parent) = r.result (rename r) (t.add n parent) := by
  have hmodify : (t.rename r).modify? (r parent)
        (fun p => { p with children := p.children ++ [n.rename r] }) =
      (t.modify? parent fun p => { p with children := p.children ++ [n] }).map (rename r) :=
    t.modify?_rename r (n.adopt_rename r none) parent
  rw [add, add, hmodify]
  cases t.modify? parent _ <;> rfl

theorem remove?_rename (t : Tree) (id : String) :
    (t.rename r).remove? (r id) = (t.remove? id).map (rename r) := by
  rw [remove?, remove?, rename, Node.unlink?_rename, Option.map_map, Option.map_map]
  rfl

theorem checkRoot_rename (id : String) (u : Update) :
    checkRoot (r id) (u.rename r) = r.result (fun _ => ()) (checkRoot id u) := by
  have hroot : r id = Node.rootId ↔ id = Node.rootId := by
    conv_lhs => rw [← r.fixes_root]
    exact r.injective.eq_iff
  rw [checkRoot, checkRoot, show (u.rename r).tag = u.tag from rfl]
  cases u.tag with
  | none => rfl
  | some tag =>
    simp only [hroot]
    split <;> rfl

theorem update_rename (t : Tree) (id : String) (u : Update) :
    (t.rename r).update (r id) (u.rename r) = r.result (rename r) (t.update id u) := by
  rw [update, update, checkRoot_rename, modify?_rename r (u.apply_rename r)]
  cases checkRoot id u with
  | error e => rfl
  | ok _ => cases t.modify? id u.apply <;> rfl

theorem checkMove_rename (t : Tree) (id parent : String) :
    (t.rename r).checkMove (r id) (r parent) =
      r.result (fun _ => ()) (t.checkMove id parent) := by
  rw [checkMove, checkMove, find?_rename, find?_rename]
  cases t.find? id with
  | none => rfl
  | some n =>
    simp only [Option.map_some, Node.find?_rename, Option.isNone_map, Option.isSome_map]
    repeat' split
    all_goals rfl

theorem move_rename (t : Tree) (id parent : String) (position : Option Nat) :
    (t.rename r).move (r id) (r parent) position =
      Prod.map (r.result fun _ => ()) (rename r) (t.move id parent position) := by
  have hcheck := t.checkMove_rename r id parent
  have hunlink := t.root.unlink?_rename r id
  cases hallowed : t.checkMove id parent with
  | error e =>
    rw [hallowed] at hcheck
    rw [move, move, hallowed, hcheck]
    rfl
  | ok _ =>
    obtain ⟨moved, rest, htaken⟩ := exists_unlink?_of_checkMove hallowed
    rw [hallowed] at hcheck
    rw [htaken] at hunlink
    rw [move_of_unlink? hallowed htaken, move_of_unlink? hcheck hunlink]
    have hmodify := Tree.modify?_rename r (moved.adopt_rename r position) ⟨rest⟩ parent
    rw [rename] at hmodify
    rw [hmodify]
    cases Tree.modify? ⟨rest⟩ parent (moved.adopt position) <;> rfl

end Tree
end ScreenTree
