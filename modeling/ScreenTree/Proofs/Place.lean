import ScreenTree.Proofs.Distinct

/-! # Places in a tree

A place is a tree with one node left open, and a gap is a place among the children of a node. What
the searches find stands at a place, and what `unlink?` takes out leaves a gap. Filling another node
in changes nothing else. -/

namespace ScreenTree

/-- The node with these children. -/
def Label.node (l : Label) (children : List Node) : Node :=
  ⟨l.id, l.kind, l.props, l.state, children⟩

open Node

theorem Node.node_label (n : Node) : n.label.node n.children = n := by
  cases n
  rfl

@[simp] theorem Label.labels_node (l : Label) (children : List Node) :
    (l.node children).labels = l :: labelsIn children :=
  labels_eq _

@[simp] theorem Label.nodes_node (l : Label) (children : List Node) :
    (l.node children).nodes = l.node children :: nodesIn children :=
  nodes_eq _

theorem Node.nodesIn_append (ns ms : List Node) :
    nodesIn (ns ++ ms) = nodesIn ns ++ nodesIn ms := by
  induction ns with
  | nil => rfl
  | cons n ns ih => rw [List.cons_append, nodesIn, ih, nodesIn, List.append_assoc]

/-- A tree with one node left open. -/
inductive Place
  | here
  | under (top : Label) (before : List Node) (inner : Place) (after : List Node)

namespace Place

def fill : Place → Node → Node
  | .here, n => n
  | .under top before inner after, n => top.node (before ++ inner.fill n :: after)

/-- What stands before the place in pre-order. -/
def ahead : Place → List Label
  | .here => []
  | .under top before inner _ => top :: labelsIn before ++ inner.ahead

/-- What stands behind the place in pre-order. -/
def behind : Place → List Label
  | .here => []
  | .under _ _ inner after => inner.behind ++ labelsIn after

theorem labels_fill (p : Place) (n : Node) : (p.fill n).labels = p.ahead ++ n.labels ++ p.behind := by
  induction p with
  | here => simp [fill, ahead, behind]
  | under top before inner after ih => simp [fill, ahead, behind, ih]

theorem mem_nodes_fill (p : Place) {n m : Node} (h : m ∈ n.nodes) : m ∈ (p.fill n).nodes := by
  induction p with
  | here => exact h
  | under top before inner after ih =>
    rw [fill, Label.nodes_node, nodesIn_append, nodesIn]
    exact List.mem_cons_of_mem _ (List.mem_append_right _ (List.mem_append_left _ ih))

theorem kind_fill {n m : Node} (h : n.kind = m.kind) (p : Place) :
    (p.fill n).kind = (p.fill m).kind := by
  cases p with
  | here => exact h
  | under => rfl

/-- No node before the place has the id. -/
def IsFirst (p : Place) (id : String) : Prop :=
  ∀ l ∈ p.ahead, l.id ≠ some id

@[simp] theorem isFirst_here (id : String) : here.IsFirst id := by
  simp [IsFirst, ahead]

theorem isFirst_under {top : Label} {before after : List Node} {inner : Place} {id : String} :
    (under top before inner after).IsFirst id ↔
      top.id ≠ some id ∧ (∀ l ∈ labelsIn before, l.id ≠ some id) ∧ inner.IsFirst id := by
  rw [IsFirst, ahead, List.cons_append, List.forall_mem_cons, List.forall_mem_append, IsFirst]

end Place

/-! ## What searches find -/

namespace Node

theorem find?_eq_none_of_labels {id : String} {n : Node} (h : ∀ l ∈ n.labels, l.id ≠ some id) :
    find? id n = none :=
  find?_eq_none_iff.2 fun m hm => h m.label (List.mem_map_of_mem hm)

theorem findIn?_append {id : String} {before : List Node}
    (h : ∀ l ∈ labelsIn before, l.id ≠ some id) (ns : List Node) :
    findIn? id (before ++ ns) = findIn? id ns := by
  induction before with
  | nil => rfl
  | cons m before ih =>
    rw [labelsIn_cons, List.forall_mem_append] at h
    rw [List.cons_append, findIn?, find?_eq_none_of_labels h.1, ih h.2]

/-- What is found at a place is found in the tree if no node before the place has the id. -/
theorem find?_fill {id : String} {n m : Node} (h : find? id n = some m) {p : Place}
    (hp : p.IsFirst id) : find? id (p.fill n) = some m := by
  induction p with
  | here => exact h
  | under top before inner after ih =>
    obtain ⟨htop, hbefore, hinner⟩ := Place.isFirst_under.1 hp
    rw [Place.fill, Label.node, find?, if_neg htop, findIn?_append hbefore, findIn?, ih hinner]

theorem modifyIn?_append {id : String} {f : Node → Node} {before : List Node}
    (h : ∀ l ∈ labelsIn before, l.id ≠ some id) (ns : List Node) :
    modifyIn? id f (before ++ ns) = (modifyIn? id f ns).map (before ++ ·) := by
  induction before with
  | nil => simp
  | cons m before ih =>
    rw [labelsIn_cons, List.forall_mem_append] at h
    have hm := modify?_eq_none_iff (f := f).2 (find?_eq_none_of_labels h.1)
    rw [List.cons_append, modifyIn?, hm, ih h.2, Option.map_map]
    rfl

/-- The node at a place that is the first one with its id is changed there. -/
theorem modify?_fill {id : String} {n : Node} (hn : n.id = some id) {p : Place}
    (hp : p.IsFirst id) (f : Node → Node) : modify? id f (p.fill n) = some (p.fill (f n)) := by
  induction p with
  | here =>
    cases n
    exact if_pos hn
  | under top before inner after ih =>
    obtain ⟨htop, hbefore, hinner⟩ := Place.isFirst_under.1 hp
    rw [Place.fill, Label.node, modify?, if_neg htop, modifyIn?_append hbefore, modifyIn?,
      ih hinner]
    rfl

mutual

/-- The node that is found stands at a place that is the first one with its id. -/
theorem exists_fill_of_find? {id : String} : ∀ {n m : Node}, find? id n = some m →
    m.id = some id ∧ ∃ p : Place, n = p.fill m ∧ p.IsFirst id
  | ⟨i, kind, props, state, children⟩, m, h => by
    rw [find?] at h
    split at h
    · next hi =>
      cases h
      exact ⟨hi, .here, rfl, Place.isFirst_here id⟩
    · next hi =>
      obtain ⟨hm, before, inner, after, rfl, hbefore, hinner⟩ := exists_fill_of_findIn? h
      exact ⟨hm, .under ⟨i, kind, props, state⟩ before inner after, rfl,
        Place.isFirst_under.2 ⟨hi, hbefore, hinner⟩⟩

theorem exists_fill_of_findIn? {id : String} : ∀ {ns : List Node} {m : Node},
    findIn? id ns = some m → m.id = some id ∧ ∃ (before : List Node) (inner : Place)
      (after : List Node), ns = before ++ inner.fill m :: after ∧
        (∀ l ∈ labelsIn before, l.id ≠ some id) ∧ inner.IsFirst id
  | [], _, h => nomatch h
  | n :: ns, m, h => by
    rw [findIn?] at h
    split at h
    · next hn =>
      cases h
      obtain ⟨hm, inner, rfl, hinner⟩ := exists_fill_of_find? hn
      exact ⟨hm, [], inner, ns, rfl, by simp, hinner⟩
    · next hn =>
      obtain ⟨hm, before, inner, after, rfl, hbefore, hinner⟩ := exists_fill_of_findIn? h
      refine ⟨hm, n :: before, inner, after, rfl, ?_, hinner⟩
      rw [labelsIn_cons, List.forall_mem_append]
      refine ⟨?_, hbefore⟩
      intro l hl
      obtain ⟨k, hk, rfl⟩ := List.mem_map.1 hl
      exact find?_eq_none_iff.1 hn k hk

end

end Node

/-! ## Gaps -/

/-- A place among the children of a node. -/
structure Gap where
  place : Place
  parent : Label
  before : List Node
  after : List Node

namespace Gap

/-- The tree with a node in the gap. -/
def fill (g : Gap) (n : Node) : Node :=
  g.place.fill (g.parent.node (g.before ++ n :: g.after))

/-- The tree without the gap. -/
def close (g : Gap) : Node :=
  g.place.fill (g.parent.node (g.before ++ g.after))

/-- The same gap in a child of another node. -/
def under (top : Label) (before : List Node) (g : Gap) (after : List Node) : Gap :=
  ⟨.under top before g.place after, g.parent, g.before, g.after⟩

/-- The gap is at this index among the children, or after them if they do not reach the index. -/
def IsAt (g : Gap) : Option Nat → Prop
  | some i => if i < (g.before ++ g.after).length then g.before.length = i else g.after = []
  | none => g.after = []

theorem id_fill (g : Gap) (n : Node) : (g.fill n).id = g.close.id := by
  obtain ⟨place, parent, before, after⟩ := g
  cases place <;> rfl

theorem labels_fill (g : Gap) (n : Node) :
    (g.fill n).labels.Perm (n.labels ++ g.close.labels) := by
  have hfill : (g.fill n).labels = (g.place.ahead ++ g.parent :: labelsIn g.before) ++
      (n.labels ++ (labelsIn g.after ++ g.place.behind)) := by
    simp [fill, Place.labels_fill]
  have hclose : g.close.labels = (g.place.ahead ++ g.parent :: labelsIn g.before) ++
      (labelsIn g.after ++ g.place.behind) := by
    simp [close, Place.labels_fill]
  rw [hfill, hclose]
  exact List.perm_append_comm_assoc ..

theorem perm_ids_fill (g : Gap) (n : Node) : (g.fill n).ids.Perm (n.ids ++ g.close.ids) :=
  perm_ids (g.labels_fill n)

theorem insertAt_eq {g : Gap} {position : Option Nat} (h : g.IsAt position) (n : Node) :
    insertAt position n (g.before ++ g.after) = g.before ++ n :: g.after := by
  cases position with
  | none =>
    have hafter : g.after = [] := h
    simp [insertAt, hafter]
  | some i =>
    rw [IsAt] at h
    rw [insertAt.eq_def]
    dsimp only
    split
    · next hi =>
      rw [if_pos hi] at h
      rw [← h, List.take_left, List.drop_left]
    · next hi =>
      rw [if_neg hi] at h
      simp [h]

/-- Every index stands for a gap among the children of the node at a place. -/
theorem exists_isAt (position : Option Nat) (place : Place) (n : Node) :
    ∃ g : Gap, g.place = place ∧ g.parent.node (g.before ++ g.after) = n ∧ g.IsAt position := by
  have hlast : n.label.node (n.children ++ []) = n := by
    rw [List.append_nil, node_label]
  cases position with
  | none => exact ⟨⟨place, n.label, n.children, []⟩, rfl, hlast, rfl⟩
  | some i =>
    by_cases hi : i < n.children.length
    · refine ⟨⟨place, n.label, n.children.take i, n.children.drop i⟩, rfl, ?_, ?_⟩
      · rw [List.take_append_drop, node_label]
      · simp [IsAt, hi, Nat.le_of_lt hi]
    · refine ⟨⟨place, n.label, n.children, []⟩, rfl, hlast, ?_⟩
      simp [IsAt, hi]

/-- The parent that has closed the gap opens it for a node at its index. -/
theorem adopt_eq {g : Gap} {position : Option Nat} (h : g.IsAt position) (n : Node) :
    n.adopt position (g.parent.node (g.before ++ g.after)) =
      g.parent.node (g.before ++ n :: g.after) :=
  congrArg g.parent.node (insertAt_eq h n)

theorem self_mem_nodes_fill (g : Gap) (n : Node) : n ∈ (g.fill n).nodes := by
  refine Place.mem_nodes_fill g.place ?_
  rw [Label.nodes_node, nodesIn_append, nodesIn, nodes_eq n]
  simp

end Gap

namespace Node

theorem id_ne_of_mem {id : String} {ns : List Node} (h : ∀ l ∈ labelsIn ns, l.id ≠ some id) :
    ∀ n ∈ ns, n.id ≠ some id := by
  induction ns with
  | nil => nofun
  | cons n ns ih =>
    rw [labelsIn_cons, labels_eq, List.cons_append, List.forall_mem_cons,
      List.forall_mem_append] at h
    exact List.forall_mem_cons.2 ⟨h.1, ih h.2.2⟩

theorem takeFirst?_append {id : String} {before : List Node} (h : ∀ n ∈ before, n.id ≠ some id)
    (ns : List Node) :
    takeFirst? id (before ++ ns) =
      (takeFirst? id ns).map fun (found, rest) => (found, before ++ rest) := by
  induction before with
  | nil => simp
  | cons m before ih =>
    rw [List.forall_mem_cons] at h
    rw [List.cons_append, takeFirst?, if_neg h.1, ih h.2, Option.map_map]
    rfl

theorem unlink?_eq_none_of_labels {id : String} {n : Node}
    (h : ∀ l ∈ labelsIn n.children, l.id ≠ some id) : unlink? id n = none :=
  unlink?_eq_none_iff.2 (findIn?_eq_none_iff.2 fun m hm => h m.label (List.mem_map_of_mem hm))

theorem unlinkIn?_append {id : String} {before : List Node}
    (h : ∀ l ∈ labelsIn before, l.id ≠ some id) (ns : List Node) :
    unlinkIn? id (before ++ ns) =
      (unlinkIn? id ns).map fun (found, rest) => (found, before ++ rest) := by
  induction before with
  | nil => simp
  | cons m before ih =>
    rw [labelsIn_cons, labels_eq, List.cons_append, List.forall_mem_cons,
      List.forall_mem_append] at h
    rw [List.cons_append, unlinkIn?, unlink?_eq_none_of_labels h.2.1, ih h.2.2, Option.map_map]
    rfl

mutual

/-- What is taken out leaves a gap. -/
theorem exists_gap_of_unlink? {id : String} : ∀ {n found rest : Node},
    unlink? id n = some (found, rest) →
      found.id = some id ∧ ∃ g : Gap, n = g.fill found ∧ rest = g.close
  | ⟨i, kind, props, state, children⟩, found, rest, h => by
    rw [unlink?] at h
    cases htake : takeFirst? id children with
    | some taken =>
      rw [htake] at h
      cases h
      obtain ⟨hid, before, after, rfl, hrest, -⟩ := takeFirst?_eq_some htake
      exact ⟨hid, ⟨.here, ⟨i, kind, props, state⟩, before, after⟩, rfl, by rw [hrest]; rfl⟩
    | none =>
      rw [htake] at h
      obtain ⟨⟨m, ms⟩, hin, hm⟩ := Option.map_eq_some_iff.1 h
      cases hm
      obtain ⟨hid, before, g, after, rfl, rfl⟩ := exists_gap_of_unlinkIn? hin
      exact ⟨hid, g.under ⟨i, kind, props, state⟩ before after, rfl, rfl⟩

theorem exists_gap_of_unlinkIn? {id : String} : ∀ {ns rest : List Node} {found : Node},
    unlinkIn? id ns = some (found, rest) →
      found.id = some id ∧ ∃ (before : List Node) (g : Gap) (after : List Node),
        ns = before ++ g.fill found :: after ∧ rest = before ++ g.close :: after
  | [], _, _, h => nomatch h
  | n :: ns, rest, found, h => by
    rw [unlinkIn?] at h
    cases hn : unlink? id n with
    | some taken =>
      rw [hn] at h
      cases h
      obtain ⟨hid, g, rfl, hrest⟩ := exists_gap_of_unlink? hn
      exact ⟨hid, [], g, ns, rfl, by rw [hrest]; rfl⟩
    | none =>
      rw [hn] at h
      obtain ⟨⟨m, ms⟩, hin, hm⟩ := Option.map_eq_some_iff.1 h
      cases hm
      obtain ⟨hid, before, g, after, rfl, rfl⟩ := exists_gap_of_unlinkIn? hin
      exact ⟨hid, n :: before, g, after, rfl, rfl⟩

end

/-- A node whose id is nowhere else, but perhaps in itself, is taken out. -/
theorem unlink?_fill {id : String} {n : Node} (hn : n.id = some id) {g : Gap}
    (hg : ∀ l ∈ g.close.labels, l.id ≠ some id) : unlink? id (g.fill n) = some (n, g.close) := by
  obtain ⟨place, parent, before, after⟩ := g
  induction place with
  | here =>
    rw [Gap.close, Place.fill, Label.labels_node, List.forall_mem_cons, labelsIn_append,
      List.forall_mem_append] at hg
    have hbefore := id_ne_of_mem hg.2.1
    rw [Gap.fill, Place.fill, Label.node, unlink?, takeFirst?_append hbefore, takeFirst?, if_pos hn]
    rfl
  | under top outer inner others ih =>
    let g : Gap := ⟨inner, parent, before, after⟩
    have hclose : Gap.close ⟨.under top outer inner others, parent, before, after⟩ =
      top.node (outer ++ g.close :: others) := rfl
    rw [hclose, Label.labels_node, List.forall_mem_cons, labelsIn_append, List.forall_mem_append,
      labelsIn_cons, List.forall_mem_append] at hg
    obtain ⟨-, houter, hinner, hothers⟩ := hg
    -- No child has the id itself, so the search goes down to the gap.
    have hself : (g.fill n).id ≠ some id := by
      rw [Gap.id_fill]
      exact hinner g.close.label (by rw [labels_eq]; exact List.mem_cons_self)
    have htake : takeFirst? id (g.fill n :: others) = none :=
      takeFirst?_eq_none_iff.2 (List.forall_mem_cons.2 ⟨hself, id_ne_of_mem hothers⟩)
    show unlink? id (top.node (outer ++ g.fill n :: others)) = _
    rw [Label.node, unlink?, takeFirst?_append (id_ne_of_mem houter), htake,
      unlinkIn?_append houter, unlinkIn?, ih hinner]
    rfl

end Node

end ScreenTree
