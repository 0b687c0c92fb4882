import ScreenTree.Proofs.Reversal

/-! # Orders of the searches

The places of a tree in pre-order, and the gaps in which its nodes stand in the order of a search
that looks at all children of a node before it goes below any of them. What is found and what is
changed stands at the first place with the id, and what is taken out leaves the first gap. The two
orders part where an id is repeated, and agree on an id that is on a single node. -/

namespace ScreenTree

namespace Node

mutual

/-- The places of a tree in pre-order, each with the node that stands there. -/
def places : Node → List (Place × Node)
  | ⟨id, kind, props, state, children⟩ =>
    (.here, ⟨id, kind, props, state, children⟩) :: placesIn ⟨id, kind, props, state⟩ [] children

/-- The places below a node, in its children behind those in `before`. -/
def placesIn (top : Label) (before : List Node) : List Node → List (Place × Node)
  | [] => []
  | n :: ns =>
    n.places.map (fun s => (.under top before s.1 ns, s.2)) ++ placesIn top (before ++ [n]) ns

end

/-- The gaps of the children of a node that are behind those in `before`. -/
def childGaps (top : Label) (before : List Node) : List Node → List (Gap × Node)
  | [] => []
  | n :: ns => (⟨.here, top, before, ns⟩, n) :: childGaps top (before ++ [n]) ns

mutual

/-- The gaps of a tree, each with the node that stands there. Those of the children of a node come
before those below any of them. -/
def gaps : Node → List (Gap × Node)
  | ⟨id, kind, props, state, children⟩ =>
    childGaps ⟨id, kind, props, state⟩ [] children ++ gapsIn ⟨id, kind, props, state⟩ [] children

def gapsIn (top : Label) (before : List Node) : List Node → List (Gap × Node)
  | [] => []
  | n :: ns =>
    n.gaps.map (fun s => (s.1.under top before ns, s.2)) ++ gapsIn top (before ++ [n]) ns

end

/-- The first place in pre-order whose node has the id. -/
def firstPlace? (id : String) (n : Node) : Option (Place × Node) :=
  n.places.find? fun s => s.2.id = some id

/-- The first gap whose node has the id, children before what is below them. -/
def firstGap? (id : String) (n : Node) : Option (Gap × Node) :=
  n.gaps.find? fun s => s.2.id = some id

/-- The tree after a node with the id has been looked for to take it out. -/
def without (id : String) (n : Node) : Node :=
  match unlink? id n with
  | some (_, rest) => rest
  | none => n

/-! ## Places -/

mutual

theorem map_places : ∀ n : Node, n.places.map Prod.snd = n.nodes
  | ⟨id, kind, props, state, children⟩ => by
    rw [places, List.map_cons, nodes, map_placesIn]

theorem map_placesIn (top : Label) :
    ∀ before ns : List Node, (placesIn top before ns).map Prod.snd = nodesIn ns
  | _, [] => rfl
  | before, n :: ns => by
    rw [placesIn, List.map_append, List.map_map, map_placesIn top _ ns, nodesIn, ← map_places n]
    rfl

end

mutual

theorem fill_of_mem_places : ∀ {n : Node} {s : Place × Node}, s ∈ n.places → s.1.fill s.2 = n
  | ⟨id, kind, props, state, children⟩, s, h => by
    rw [places] at h
    rcases List.mem_cons.1 h with rfl | h
    · rfl
    · exact fill_of_mem_placesIn h

theorem fill_of_mem_placesIn {top : Label} : ∀ {before ns : List Node} {s : Place × Node},
    s ∈ placesIn top before ns → s.1.fill s.2 = top.node (before ++ ns)
  | _, [], _, h => nomatch h
  | before, n :: ns, s, h => by
    rw [placesIn] at h
    rcases List.mem_append.1 h with h | h
    · obtain ⟨inner, hinner, rfl⟩ := List.mem_map.1 h
      rw [Place.fill, fill_of_mem_places hinner]
    · rw [fill_of_mem_placesIn h, List.append_assoc, List.singleton_append]

end

theorem find?_eq_firstPlace? (id : String) (n : Node) :
    find? id n = (n.firstPlace? id).map Prod.snd := by
  rw [find?_eq, ← map_places, List.find?_map, firstPlace?]
  rfl

/-- Only the nodes are looked at, not the places or the gaps beside them. -/
theorem find?_map_beside {α β : Type} (f : α → β) (p : Node → Bool) (l : List (α × Node)) :
    (l.map fun s => (f s.1, s.2)).find? (fun s => p s.2) =
      (l.find? fun s => p s.2).map fun s => (f s.1, s.2) := by
  rw [List.find?_map]
  rfl

mutual

/-- A change is made at the first place whose node has the id. -/
theorem modify?_eq_firstPlace? (id : String) (f : Node → Node) :
    ∀ n : Node, modify? id f n = (n.firstPlace? id).map fun s => s.1.fill (f s.2)
  | ⟨i, kind, props, state, children⟩ => by
    rw [modify?, firstPlace?, places, List.find?_cons]
    by_cases h : i = some id
    · simp [h, Place.fill]
    · have ih := modifyIn?_eq_placesIn id f ⟨i, kind, props, state⟩ [] children
      simp only [h, if_false, decide_false]
      exact ih

theorem modifyIn?_eq_placesIn (id : String) (f : Node → Node) (top : Label) :
    ∀ before ns : List Node, (modifyIn? id f ns).map (fun cs => top.node (before ++ cs)) =
      ((placesIn top before ns).find? fun s => s.2.id = some id).map fun s => s.1.fill (f s.2)
  | _, [] => rfl
  | before, n :: ns => by
    have hn := modify?_eq_firstPlace? id f n
    have hns := modifyIn?_eq_placesIn id f top (before ++ [n]) ns
    rw [firstPlace?] at hn
    rw [modifyIn?, hn, placesIn, List.find?_append,
      find?_map_beside (Place.under top before · ns) fun n => n.id = some id]
    cases n.places.find? fun s => s.2.id = some id with
    | some s => simp [Place.fill]
    | none =>
      simp only [Option.map_none, Option.none_or, Option.map_map, ← hns, List.append_assoc,
        List.singleton_append]
      rfl

end

/-! ## Gaps -/

theorem fill_of_mem_childGaps {top : Label} {before ns : List Node} {s : Gap × Node}
    (h : s ∈ childGaps top before ns) : s.1.fill s.2 = top.node (before ++ ns) := by
  induction ns generalizing before with
  | nil => cases h
  | cons n ns ih =>
    rcases List.mem_cons.1 h with rfl | h
    · rfl
    · rw [ih h, List.append_assoc, List.singleton_append]

theorem map_childGaps (top : Label) (before ns : List Node) :
    (childGaps top before ns).map Prod.snd = ns := by
  induction ns generalizing before with
  | nil => rfl
  | cons n ns ih => rw [childGaps, List.map_cons, ih]

theorem perm_nodesIn (ns : List Node) :
    (nodesIn ns).Perm (ns ++ ns.flatMap fun n => nodesIn n.children) := by
  induction ns with
  | nil => exact .nil
  | cons n ns ih =>
    rw [nodesIn, nodes_eq, List.flatMap_cons, List.cons_append, List.cons_append]
    exact ((ih.append_left _).trans (List.perm_append_comm_assoc ..)).cons n

mutual

theorem fill_of_mem_gaps : ∀ {n : Node} {s : Gap × Node}, s ∈ n.gaps → s.1.fill s.2 = n
  | ⟨id, kind, props, state, children⟩, s, h => by
    rw [gaps] at h
    rcases List.mem_append.1 h with h | h
    · exact fill_of_mem_childGaps h
    · exact fill_of_mem_gapsIn h

theorem fill_of_mem_gapsIn {top : Label} : ∀ {before ns : List Node} {s : Gap × Node},
    s ∈ gapsIn top before ns → s.1.fill s.2 = top.node (before ++ ns)
  | _, [], _, h => nomatch h
  | before, n :: ns, s, h => by
    rw [gapsIn] at h
    rcases List.mem_append.1 h with h | h
    · obtain ⟨inner, hinner, rfl⟩ := List.mem_map.1 h
      have hfill := fill_of_mem_gaps hinner
      rw [← hfill]
      rfl
    · rw [fill_of_mem_gapsIn h, List.append_assoc, List.singleton_append]

end

mutual

/-- Every node below another one stands in one of its gaps. -/
theorem perm_map_gaps : ∀ n : Node, (n.gaps.map Prod.snd).Perm (nodesIn n.children)
  | ⟨id, kind, props, state, children⟩ => by
    rw [gaps, List.map_append, map_childGaps]
    exact ((perm_map_gapsIn _ [] children).append_left children).trans (perm_nodesIn children).symm

theorem perm_map_gapsIn (top : Label) : ∀ before ns : List Node,
    ((gapsIn top before ns).map Prod.snd).Perm (ns.flatMap fun n => nodesIn n.children)
  | _, [] => .nil
  | before, n :: ns => by
    rw [gapsIn, List.map_append, List.map_map, List.flatMap_cons]
    exact (perm_map_gaps n).append (perm_map_gapsIn top _ ns)

end

theorem takeFirst?_eq_childGaps (id : String) (top : Label) (before ns : List Node) :
    (takeFirst? id ns).map (fun t => (t.1, top.node (before ++ t.2))) =
      ((childGaps top before ns).find? fun s => s.2.id = some id).map
        fun s => (s.2, s.1.close) := by
  induction ns generalizing before with
  | nil => rfl
  | cons n ns ih =>
    rw [takeFirst?, childGaps, List.find?_cons]
    by_cases h : n.id = some id
    · simp [h, Gap.close, Place.fill]
    · simp only [h, if_false, decide_false]
      rw [← ih, Option.map_map]
      simp [Function.comp_def]

mutual

/-- What is taken out leaves the first gap whose node has the id. -/
theorem unlink?_eq_firstGap? (id : String) :
    ∀ n : Node, unlink? id n = (n.firstGap? id).map fun s => (s.2, s.1.close)
  | ⟨i, kind, props, state, children⟩ => by
    have htake := takeFirst?_eq_childGaps id ⟨i, kind, props, state⟩ [] children
    have hin := unlinkIn?_eq_gapsIn id ⟨i, kind, props, state⟩ [] children
    rw [unlink?, firstGap?, gaps, List.find?_append]
    cases hfirst : takeFirst? id children with
    | some taken =>
      rw [hfirst] at htake
      obtain ⟨s, hs, hclose⟩ := Option.map_eq_some_iff.1 htake.symm
      rw [hs, Option.some_or, Option.map_some, hclose]
      rfl
    | none =>
      rw [hfirst] at htake
      rw [Option.map_eq_none_iff.1 htake.symm, Option.none_or, ← hin]
      rfl

theorem unlinkIn?_eq_gapsIn (id : String) (top : Label) : ∀ before ns : List Node,
    (unlinkIn? id ns).map (fun t => (t.1, top.node (before ++ t.2))) =
      ((gapsIn top before ns).find? fun s => s.2.id = some id).map fun s => (s.2, s.1.close)
  | _, [] => rfl
  | before, n :: ns => by
    have hn := unlink?_eq_firstGap? id n
    have hns := unlinkIn?_eq_gapsIn id top (before ++ [n]) ns
    rw [firstGap?] at hn
    rw [unlinkIn?, hn, gapsIn, List.find?_append,
      find?_map_beside (Gap.under top before · ns) fun n => n.id = some id]
    cases n.gaps.find? fun s => s.2.id = some id with
    | some s => simp [Gap.close, Gap.under, Place.fill]
    | none =>
      simp only [Option.map_none, Option.none_or, Option.map_map, ← hns, List.append_assoc,
        List.singleton_append]
      rfl

end

/-! ## Agreement -/

theorem without_eq_self_iff {id : String} {n : Node} : n.without id = n ↔ unlink? id n = none := by
  rw [without]
  cases hunlink : unlink? id n with
  | none => simp
  | some taken =>
    -- The node that is taken out is missing from the rest.
    have hlength := (labels_unlink? hunlink).length_eq
    rw [labels_eq taken.1, List.length_append, List.length_cons] at hlength
    refine iff_of_false (fun hsame => ?_) (by simp)
    replace hsame : taken.2 = n := hsame
    rw [hsame] at hlength
    omega

/-- A node that alone has its id is found and taken out alike, and is not found afterwards. -/
theorem unlink?_of_count_eq_one {id : String} {n : Node} (hid : n.id ≠ some id)
    (hcount : n.ids.count id = 1) :
    ∃ m rest, unlink? id n = some (m, rest) ∧ find? id n = some m ∧ find? id rest = none := by
  have hmem : id ∈ n.ids := List.count_pos_iff.1 (by omega)
  cases hunlink : unlink? id n with
  | none =>
    have hnone := find?_of_id_ne hid
    rw [unlink?_eq_none_iff.1 hunlink] at hnone
    rw [← isSome_find?_iff, hnone] at hmem
    cases hmem
  | some taken =>
    obtain ⟨m, rest⟩ := taken
    obtain ⟨hm, g, rfl, rfl⟩ := exists_gap_of_unlink? hunlink
    have hfound : 0 < m.ids.count id := List.count_pos_iff.2 (mem_ids_self hm)
    have hrest : id ∉ g.close.ids := by
      rw [(g.perm_ids_fill m).count_eq, List.count_append] at hcount
      exact List.count_eq_zero.1 (by omega)
    refine ⟨m, g.close, rfl, Gap.find?_fill hm (not_mem_ids_iff.1 hrest), ?_⟩
    exact find?_eq_none_of_labels (not_mem_ids_iff.1 hrest)

/-- What is found and what is changed stands at the first place in pre-order whose node has the id.
What is taken out stands in the first gap, where children come before what is below them; nothing is
taken out exactly if no node below has the id. If a single node has the id and it is not the root,
it is found and taken out alike. -/
theorem searches_agree (n : Node) (id : String) :
    (n.places.map Prod.snd = n.nodes ∧ ∀ s ∈ n.places, s.1.fill s.2 = n) ∧
      find? id n = (n.firstPlace? id).map Prod.snd ∧
      (∀ f, modify? id f n = (n.firstPlace? id).map fun s => s.1.fill (f s.2)) ∧
      (unlink? id n = none ↔ ∀ m ∈ nodesIn n.children, m.id ≠ some id) ∧
      (n.without id = n ↔ ∀ m ∈ nodesIn n.children, m.id ≠ some id) ∧
      ((n.gaps.map Prod.snd).Perm (nodesIn n.children) ∧ ∀ s ∈ n.gaps, s.1.fill s.2 = n) ∧
      unlink? id n = (n.firstGap? id).map (fun s => (s.2, s.1.close)) ∧
      (n.id ≠ some id → n.ids.count id = 1 →
        ∃ m rest, unlink? id n = some (m, rest) ∧ find? id n = some m ∧ find? id rest = none) := by
  have hnone : unlink? id n = none ↔ ∀ m ∈ nodesIn n.children, m.id ≠ some id :=
    unlink?_eq_none_iff.trans findIn?_eq_none_iff
  refine ⟨⟨map_places n, fun s => fill_of_mem_places⟩, find?_eq_firstPlace? id n,
    fun f => modify?_eq_firstPlace? id f n, hnone, without_eq_self_iff.trans hnone, ?_,
    unlink?_eq_firstGap? id n, unlink?_of_count_eq_one⟩
  exact ⟨perm_map_gaps n, fun s => fill_of_mem_gaps⟩

/-- A list and its text are called `a`, and a deeper paragraph `b`: the text is found in pre-order
and the other list item is taken out, while the paragraph is found and taken out alike. -/
theorem searches_agree_in_list :
    let deep := (element "li").withChildren [(literal (.text "one")).withId "a"]
    let item := (element "li").withId "a"
    let paragraph := (element "p").withId "b"
    let list := (element "ul").withChildren [deep, item.withChildren [paragraph]]
    find? "a" list = some ((literal (.text "one")).withId "a") ∧
      unlink? "a" list = some (item.withChildren [paragraph], list.withChildren [deep]) ∧
      list.id ≠ some "b" ∧ list.ids.count "b" = 1 ∧
      ∃ m rest, unlink? "b" list = some (m, rest) ∧ find? "b" list = some m ∧
        find? "b" rest = none := by
  intro deep item paragraph list
  have hid : list.id ≠ some "b" := by decide
  have hcount : list.ids.count "b" = 1 := by decide
  obtain ⟨-, -, -, -, -, -, -, hagree⟩ := searches_agree list "b"
  exact ⟨by decide, by decide, hid, hcount, hagree hid hcount⟩

end Node

end ScreenTree
