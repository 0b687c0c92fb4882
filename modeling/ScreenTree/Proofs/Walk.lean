import ScreenTree.Node.Search
import ScreenTree.Proofs.Content

/-! # Nodes outside of literals

The traversals of a tree go by its nodes in pre-order. The one that stops at literals only enters
the nodes that are not below a literal. -/

namespace ScreenTree

/-- An element whose tag is pruned. -/
def Kind.isPruned (pruned : String → Bool) : Kind → Bool
  | .element tag => pruned tag
  | _ => false

/-- Whether a traversal goes no further at a node of this kind. -/
def Kind.stops (pruned : String → Bool) (kind : Kind) : Bool :=
  kind.isLiteral || kind.isPruned pruned

theorem Kind.stops_none (kind : Kind) : kind.stops (fun _ => false) = kind.isLiteral := by
  cases kind <;> rfl

namespace Node

theorem walkList_append (pruned : String → Bool) (ns ms : List Node) :
    walkList pruned (ns ++ ms) = walkList pruned ns ++ walkList pruned ms := by
  induction ns with
  | nil => rw [List.nil_append, walkList, List.nil_append]
  | cons n ns ih => rw [List.cons_append, walkList, walkList, ih, List.append_assoc]

/-- A traversal enters a node first and then, unless it stops there, what is below the children. -/
theorem walk_eq (pruned : String → Bool) (n : Node) : n.walk pruned =
    n :: if n.kind.stops pruned then [] else walkList pruned n.children := by
  obtain ⟨id, kind, props, state, children⟩ := n
  cases kind <;> rw [walk] <;> rfl

mutual

theorem walk_sublist_nodes (pruned : String → Bool) :
    ∀ n : Node, (n.walk pruned).Sublist n.nodes
  | ⟨id, kind, props, state, children⟩ => by
    rw [walk_eq, nodes]
    refine List.Sublist.cons_cons _ ?_
    split
    · exact List.nil_sublist _
    · exact walkList_sublist_nodes pruned children

theorem walkList_sublist_nodes (pruned : String → Bool) :
    ∀ ns : List Node, (walkList pruned ns).Sublist (nodesIn ns)
  | [] => by
    rw [walkList]
    exact List.nil_sublist _
  | n :: ns => by
    rw [walkList, nodesIn]
    exact (walk_sublist_nodes pruned n).append (walkList_sublist_nodes pruned ns)

end

/-- The node is `top`, or it is below `top` and no node from `top` down to it is a literal. -/
inductive OutsideLiterals (top : Node) : Node → Prop
  | self : OutsideLiterals top top
  | child {n c : Node} : OutsideLiterals top n → n.kind.isLiteral = false → c ∈ n.children →
      OutsideLiterals top c

theorem OutsideLiterals.of_child {top c n : Node} (htop : top.kind.isLiteral = false)
    (hc : c ∈ top.children) (h : OutsideLiterals c n) : OutsideLiterals top n := by
  induction h with
  | self => exact .child .self htop hc
  | child _ hn hchild ih => exact .child ih hn hchild

theorem entered_eq (n : Node) : n.entered =
    n :: if n.kind.isLiteral then [] else walkList (fun _ => false) n.children := by
  rw [entered, walk_eq, Kind.stops_none]

theorem self_mem_entered (n : Node) : n ∈ n.entered := by
  rw [entered_eq]
  exact List.mem_cons_self

mutual

theorem outsideLiterals_of_mem : ∀ {n m : Node}, m ∈ n.entered → OutsideLiterals n m
  | ⟨id, kind, props, state, children⟩, m, h => by
    rw [entered_eq] at h
    rcases List.mem_cons.1 h with rfl | h
    · exact .self
    · cases hliteral : kind.isLiteral with
      | true =>
        rw [hliteral] at h
        cases h
      | false =>
        rw [hliteral] at h
        obtain ⟨c, hc, houtside⟩ := outsideLiterals_of_mem_list h
        exact .of_child hliteral hc houtside

theorem outsideLiterals_of_mem_list : ∀ {ns : List Node} {m : Node},
    m ∈ walkList (fun _ => false) ns → ∃ c ∈ ns, OutsideLiterals c m
  | [], _, h => by
    rw [walkList] at h
    cases h
  | n :: ns, m, h => by
    rw [walkList] at h
    rcases List.mem_append.1 h with h | h
    · exact ⟨n, List.mem_cons_self, outsideLiterals_of_mem h⟩
    · obtain ⟨c, hc, houtside⟩ := outsideLiterals_of_mem_list h
      exact ⟨c, List.mem_cons_of_mem _ hc, houtside⟩

end

theorem mem_walkList_of_mem {c : Node} {ns : List Node} (h : c ∈ ns) :
    c ∈ walkList (fun _ => false) ns := by
  induction ns with
  | nil => cases h
  | cons n ns ih =>
    rw [walkList]
    rcases List.mem_cons.1 h with rfl | h
    · exact List.mem_append_left _ (self_mem_entered c)
    · exact List.mem_append_right _ (ih h)

mutual

theorem child_mem_entered : ∀ {top n c : Node}, n ∈ top.entered → n.kind.isLiteral = false →
    c ∈ n.children → c ∈ top.entered
  | ⟨id, kind, props, state, children⟩, n, c, hn, hkind, hc => by
    rw [entered_eq] at hn ⊢
    refine List.mem_cons_of_mem _ ?_
    rcases List.mem_cons.1 hn with rfl | hn
    · rw [hkind]
      exact mem_walkList_of_mem hc
    · cases hliteral : kind.isLiteral with
      | true =>
        rw [hliteral] at hn
        cases hn
      | false =>
        rw [hliteral] at hn
        exact child_mem_walkList hn hkind hc

theorem child_mem_walkList : ∀ {ns : List Node} {n c : Node},
    n ∈ walkList (fun _ => false) ns → n.kind.isLiteral = false → c ∈ n.children →
      c ∈ walkList (fun _ => false) ns
  | [], _, _, hn, _, _ => by
    rw [walkList] at hn
    cases hn
  | m :: ms, n, c, hn, hkind, hc => by
    rw [walkList] at hn ⊢
    rcases List.mem_append.1 hn with hn | hn
    · exact List.mem_append_left _ (child_mem_entered hn hkind hc)
    · exact List.mem_append_right _ (child_mem_walkList hn hkind hc)

end

/-- The traversal that stops at literals enters the nodes outside of literals. -/
theorem mem_entered_iff {n m : Node} : m ∈ n.entered ↔ OutsideLiterals n m := by
  constructor
  · exact outsideLiterals_of_mem
  · intro h
    induction h with
    | self => exact self_mem_entered n
    | child _ hkind hc ih => exact child_mem_entered ih hkind hc

end Node

end ScreenTree
