import ScreenTree.Node.Edit
import Mathlib.Data.List.Perm.Basic

/-! # What a tree holds

The nodes of a tree in pre-order, and what each of them is without its children. The searches are
described by these lists: `find?` takes the first node with an id, `modify?` succeeds where `find?`
does, and `unlink?` parts the nodes of a tree into those taken out and those left. -/

namespace ScreenTree

/-- A node without its children. -/
structure Label where
  id : Option String
  kind : Kind
  props : List Property
  state : List Json
  deriving DecidableEq

namespace Node

def label (n : Node) : Label :=
  ⟨n.id, n.kind, n.props, n.state⟩

mutual

/-- A node and all nodes below it, in pre-order. -/
def nodes : Node → List Node
  | ⟨id, kind, props, state, children⟩ =>
    ⟨id, kind, props, state, children⟩ :: nodesIn children

def nodesIn : List Node → List Node
  | [] => []
  | n :: ns => nodes n ++ nodesIn ns

end

def labelsIn (ns : List Node) : List Label :=
  (nodesIn ns).map label

def labels (n : Node) : List Label :=
  n.nodes.map label

theorem nodes_eq (n : Node) : n.nodes = n :: nodesIn n.children := by
  cases n
  rw [nodes]

theorem labels_eq (n : Node) : n.labels = n.label :: labelsIn n.children := by
  rw [labels, nodes_eq, List.map_cons, labelsIn]

@[simp] theorem labels_mk (id : Option String) (kind : Kind) (props : List Property)
    (state : List Json) (children : List Node) :
    labels ⟨id, kind, props, state, children⟩ = ⟨id, kind, props, state⟩ :: labelsIn children :=
  labels_eq _

@[simp] theorem labelsIn_nil : labelsIn [] = [] := rfl

@[simp] theorem labelsIn_cons (n : Node) (ns : List Node) :
    labelsIn (n :: ns) = n.labels ++ labelsIn ns := by
  rw [labelsIn, nodesIn, List.map_append, labels, labelsIn]

@[simp] theorem labelsIn_append (ns ms : List Node) :
    labelsIn (ns ++ ms) = labelsIn ns ++ labelsIn ms := by
  induction ns with
  | nil => rfl
  | cons n ns ih => rw [List.cons_append, labelsIn_cons, ih, labelsIn_cons, List.append_assoc]

/-! ## Searching -/

mutual

/-- `find?` takes the first node with the id in pre-order. -/
theorem find?_eq (id : String) :
    ∀ n : Node, find? id n = n.nodes.find? fun m => m.id = some id
  | ⟨i, kind, props, state, children⟩ => by
    rw [find?, nodes, List.find?_cons]
    by_cases h : i = some id
    · simp [h]
    · simp [h, findIn?_eq id children]

theorem findIn?_eq (id : String) :
    ∀ ns : List Node, findIn? id ns = (nodesIn ns).find? fun m => m.id = some id
  | [] => rfl
  | n :: ns => by
    rw [findIn?, nodesIn, List.find?_append, find?_eq id n, findIn?_eq id ns]
    cases n.nodes.find? fun m => m.id = some id <;> rfl

end

theorem find?_eq_none_iff {id : String} {n : Node} :
    find? id n = none ↔ ∀ m ∈ n.nodes, m.id ≠ some id := by
  simp [find?_eq]

theorem findIn?_eq_none_iff {id : String} {ns : List Node} :
    findIn? id ns = none ↔ ∀ m ∈ nodesIn ns, m.id ≠ some id := by
  simp [findIn?_eq]

/-- No node of a list or below has the id if none of the list has it, nor any below one of them. -/
theorem findIn?_eq_none_iff_forall {id : String} {ns : List Node} :
    findIn? id ns = none ↔ ∀ n ∈ ns, n.id ≠ some id ∧ findIn? id n.children = none := by
  induction ns with
  | nil => simp [findIn?]
  | cons n ns ih =>
    have hn : find? id n = none ↔ n.id ≠ some id ∧ findIn? id n.children = none := by
      rw [find?_eq_none_iff, nodes_eq, List.forall_mem_cons, findIn?_eq_none_iff]
    rw [List.forall_mem_cons, ← ih, ← hn, findIn?]
    cases find? id n <;> simp

theorem find?_self {id : String} {n : Node} (h : n.id = some id) : find? id n = some n := by
  rw [find?_eq, nodes_eq, List.find?_cons_of_pos (by simpa using h)]

theorem find?_of_id_ne {id : String} {n : Node} (h : n.id ≠ some id) :
    find? id n = findIn? id n.children := by
  rw [find?_eq, nodes_eq, List.find?_cons_of_neg (by simpa using h), findIn?_eq]

/-! ## Changing -/

mutual

theorem isSome_modify? (id : String) (f : Node → Node) :
    ∀ n : Node, (modify? id f n).isSome = (find? id n).isSome
  | ⟨i, kind, props, state, children⟩ => by
    rw [modify?, find?]
    by_cases h : i = some id
    · simp [h]
    · simp [h, isSome_modifyIn? id f children]

theorem isSome_modifyIn? (id : String) (f : Node → Node) :
    ∀ ns : List Node, (modifyIn? id f ns).isSome = (findIn? id ns).isSome
  | [] => rfl
  | n :: ns => by
    have hn := isSome_modify? id f n
    rw [modifyIn?, findIn?]
    cases hm : modify? id f n <;> cases hf : find? id n <;> simp_all [isSome_modifyIn? id f ns]

end

theorem modify?_eq_none_iff {id : String} {f : Node → Node} {n : Node} :
    modify? id f n = none ↔ find? id n = none := by
  rw [← Option.not_isSome_iff_eq_none, isSome_modify?, Option.not_isSome_iff_eq_none]

mutual

/-- A change that keeps the id is found again by a search for it. -/
theorem find?_modify? {id : String} {f : Node → Node} (hf : ∀ m, (f m).id = m.id) :
    ∀ {n n' : Node}, modify? id f n = some n' → find? id n' = (find? id n).map f
  | ⟨i, kind, props, state, children⟩, n', h => by
    rw [modify?] at h
    split at h
    · next hi =>
      cases h
      rw [find?_self (by rw [hf, hi]), find?_self hi, Option.map_some]
    · next hi =>
      obtain ⟨cs, hcs, rfl⟩ := Option.map_eq_some_iff.1 h
      rw [find?_of_id_ne hi, find?_of_id_ne hi]
      exact findIn?_modifyIn? hf hcs

theorem findIn?_modifyIn? {id : String} {f : Node → Node} (hf : ∀ m, (f m).id = m.id) :
    ∀ {ns ns' : List Node}, modifyIn? id f ns = some ns' →
      findIn? id ns' = (findIn? id ns).map f
  | [], _, h => nomatch h
  | n :: ns, ns', h => by
    rw [modifyIn?] at h
    cases hn : modify? id f n with
    | some n' =>
      rw [hn] at h
      cases h
      have ih := find?_modify? hf hn
      have hfound : (find? id n).isSome = true := by rw [← isSome_modify? id f, hn]; rfl
      obtain ⟨m, hm⟩ := Option.isSome_iff_exists.1 hfound
      rw [findIn?, findIn?, ih, hm, Option.map_some]
    | none =>
      rw [hn] at h
      obtain ⟨ms, hms, rfl⟩ := Option.map_eq_some_iff.1 h
      have ih := findIn?_modifyIn? hf hms
      rw [findIn?, findIn?, modify?_eq_none_iff.1 hn, ih]

end

mutual

/-- A change is made in place: the nodes before and after the one that is found stay. -/
theorem exists_labels_modify? {id : String} : ∀ {n m : Node}, find? id n = some m →
    ∃ before after, n.labels = before ++ m.labels ++ after ∧
      ∀ f, ∃ n', modify? id f n = some n' ∧ n'.labels = before ++ (f m).labels ++ after
  | ⟨i, kind, props, state, children⟩, m, h => by
    rw [find?] at h
    split at h
    · next hi =>
      cases h
      refine ⟨[], [], by simp, fun f => ⟨_, by rw [modify?, if_pos hi], by simp⟩⟩
    · next hi =>
      obtain ⟨before, after, hlabels, hchange⟩ := exists_labels_modifyIn? h
      refine ⟨⟨i, kind, props, state⟩ :: before, after, by simp [hlabels], fun f => ?_⟩
      obtain ⟨cs, hcs, hlabels'⟩ := hchange f
      exact ⟨_, by rw [modify?, if_neg hi, hcs, Option.map_some], by simp [hlabels']⟩

theorem exists_labels_modifyIn? {id : String} : ∀ {ns : List Node} {m : Node},
    findIn? id ns = some m → ∃ before after, labelsIn ns = before ++ m.labels ++ after ∧
      ∀ f, ∃ ns', modifyIn? id f ns = some ns' ∧ labelsIn ns' = before ++ (f m).labels ++ after
  | [], _, h => nomatch h
  | n :: ns, m, h => by
    rw [findIn?] at h
    split at h
    · next hn =>
      cases h
      obtain ⟨before, after, hlabels, hchange⟩ := exists_labels_modify? hn
      refine ⟨before, after ++ labelsIn ns, by simp [hlabels], fun f => ?_⟩
      obtain ⟨n', hn', hlabels'⟩ := hchange f
      exact ⟨n' :: ns, by rw [modifyIn?, hn'], by simp [hlabels']⟩
    · next hn =>
      obtain ⟨before, after, hlabels, hchange⟩ := exists_labels_modifyIn? h
      refine ⟨n.labels ++ before, after, by simp [hlabels], fun f => ?_⟩
      obtain ⟨ns', hns', hlabels'⟩ := hchange f
      have hnone := modify?_eq_none_iff (f := f).2 hn
      exact ⟨n :: ns', by rw [modifyIn?, hnone, hns', Option.map_some], by simp [hlabels']⟩

end

theorem exists_find?_of_modify? {id : String} {f : Node → Node} {n n' : Node}
    (h : modify? id f n = some n') : ∃ m, find? id n = some m := by
  rw [← Option.isSome_iff_exists, ← isSome_modify? id f, h]
  rfl

/-- A change that adds labels to the node it is made to adds them to the tree. -/
theorem labels_modify? {id : String} {f : Node → Node} {new : List Label}
    (hf : ∀ m, (f m).labels.Perm (new ++ m.labels)) {n n' : Node} (h : modify? id f n = some n') :
    n'.labels.Perm (new ++ n.labels) := by
  obtain ⟨m, hm⟩ := exists_find?_of_modify? h
  obtain ⟨before, after, hlabels, hchange⟩ := exists_labels_modify? hm
  obtain ⟨changed, hchanged, hlabels'⟩ := hchange f
  cases h.symm.trans hchanged
  rw [hlabels, hlabels', List.append_assoc, List.append_assoc]
  calc (before ++ ((f m).labels ++ after)).Perm (before ++ (new ++ m.labels ++ after)) :=
        ((hf m).append_right after).append_left before
    _ = before ++ (new ++ (m.labels ++ after)) := by rw [List.append_assoc]
    List.Perm _ (new ++ (before ++ (m.labels ++ after))) := List.perm_append_comm_assoc ..

/-! ## Taking out -/

/-- `takeFirst?` takes the first node of a list that has the id. -/
theorem takeFirst?_eq_some {id : String} :
    ∀ {ns rest : List Node} {found : Node}, takeFirst? id ns = some (found, rest) →
      found.id = some id ∧ ∃ before after, ns = before ++ found :: after ∧
        rest = before ++ after ∧ ∀ m ∈ before, m.id ≠ some id
  | [], _, _, h => nomatch h
  | n :: ns, rest, found, h => by
    rw [takeFirst?] at h
    split at h
    · next hn =>
      cases h
      exact ⟨hn, [], ns, rfl, rfl, by simp⟩
    · next hn =>
      obtain ⟨⟨m, ms⟩, htake, hm⟩ := Option.map_eq_some_iff.1 h
      cases hm
      obtain ⟨hid, before, after, rfl, rfl, hbefore⟩ := takeFirst?_eq_some htake
      refine ⟨hid, n :: before, after, rfl, rfl, ?_⟩
      intro m hm
      rcases List.mem_cons.1 hm with rfl | hm
      · exact hn
      · exact hbefore m hm

theorem takeFirst?_eq_none_iff {id : String} {ns : List Node} :
    takeFirst? id ns = none ↔ ∀ m ∈ ns, m.id ≠ some id := by
  induction ns with
  | nil => simp [takeFirst?]
  | cons n ns ih =>
    rw [takeFirst?]
    by_cases h : n.id = some id
    · simp [h]
    · simp [h, ih]

mutual

/-- `unlink?` parts the nodes of a tree into those taken out and those left. -/
theorem labels_unlink? {id : String} :
    ∀ {n found rest : Node}, unlink? id n = some (found, rest) →
      n.labels.Perm (found.labels ++ rest.labels)
  | ⟨i, kind, props, state, children⟩, found, rest, h => by
    rw [unlink?] at h
    cases htake : takeFirst? id children with
    | some taken =>
      rw [htake] at h
      cases h
      obtain ⟨-, before, after, rfl, hrest, -⟩ := takeFirst?_eq_some htake
      rw [hrest]
      simp only [labels_mk, labelsIn_append, labelsIn_cons]
      have h := List.perm_append_comm_assoc (labelsIn before) taken.1.labels (labelsIn after)
      exact (h.cons _).trans List.perm_middle.symm
    | none =>
      rw [htake] at h
      obtain ⟨⟨m, ms⟩, hin, hm⟩ := Option.map_eq_some_iff.1 h
      cases hm
      have ih := labelsIn_unlinkIn? hin
      rw [labels_mk, labels_mk]
      exact (ih.cons _).trans List.perm_middle.symm

theorem labelsIn_unlinkIn? {id : String} :
    ∀ {ns rest : List Node} {found : Node}, unlinkIn? id ns = some (found, rest) →
      (labelsIn ns).Perm (found.labels ++ labelsIn rest)
  | [], _, _, h => nomatch h
  | n :: ns, rest, found, h => by
    rw [unlinkIn?] at h
    cases hn : unlink? id n with
    | some taken =>
      rw [hn] at h
      cases h
      have ih := labels_unlink? hn
      rw [labelsIn_cons, labelsIn_cons, ← List.append_assoc]
      exact ih.append_right _
    | none =>
      rw [hn] at h
      obtain ⟨⟨m, ms⟩, hin, hm⟩ := Option.map_eq_some_iff.1 h
      cases hm
      have ih := labelsIn_unlinkIn? hin
      rw [labelsIn_cons, labelsIn_cons]
      exact (ih.append_left _).trans (List.perm_append_comm_assoc ..)

end

mutual

/-- Nothing can be taken out exactly if no node below has the id. -/
theorem unlink?_eq_none_iff {id : String} :
    ∀ {n : Node}, unlink? id n = none ↔ findIn? id n.children = none
  | ⟨i, kind, props, state, children⟩ => by
    have hfind : findIn? id children = none ↔ _ := findIn?_eq_none_iff_forall
    rw [hfind, unlink?]
    cases htake : takeFirst? id children with
    | some taken =>
      obtain ⟨hid, before, after, rfl, -, -⟩ := takeFirst?_eq_some htake
      have hne : ¬ ∀ n ∈ before ++ taken.1 :: after, n.id ≠ some id ∧ findIn? id n.children = none :=
        fun h => (h taken.1 (by simp)).1 hid
      simpa using hne
    | none =>
      have hids := takeFirst?_eq_none_iff.1 htake
      rw [Option.map_eq_none_iff, unlinkIn?_eq_none_iff]
      exact ⟨fun h n hn => ⟨hids n hn, h n hn⟩, fun h n hn => (h n hn).2⟩

theorem unlinkIn?_eq_none_iff {id : String} :
    ∀ {ns : List Node}, unlinkIn? id ns = none ↔ ∀ n ∈ ns, findIn? id n.children = none
  | [] => by simp [unlinkIn?]
  | n :: ns => by
    rw [unlinkIn?, List.forall_mem_cons, ← unlink?_eq_none_iff, ← unlinkIn?_eq_none_iff]
    cases unlink? id n <;> simp

end

end Node
end ScreenTree
