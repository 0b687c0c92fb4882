import ScreenTree.Markup.Import
import ScreenTree.Node.Visitor
import ScreenTree.Proofs.Searches
import ScreenTree.Proofs.Walk

/-! # What visitors enter

The places of a tree in pre-order, which is the order of the ways down to them. A visitor enters the
nodes at these places in this order, each place once, except for the places below a literal or below
an element that it prunes. The imports of a tree are what a visitor collects. -/

namespace ScreenTree

namespace Place

/-- The way down to a place: at each node above it, the number of children to pass over. -/
def way : Place → List Nat
  | .here => []
  | .under _ before inner _ => before.length :: inner.way

/-- The nodes above a place, from the top. -/
def above : Place → List Label
  | .here => []
  | .under top _ inner _ => top :: inner.above

/-- Whether there is a node of such a kind above the place. -/
def isBelow (kinds : Kind → Bool) (p : Place) : Bool :=
  p.above.any fun l => kinds l.kind

@[simp] theorem isBelow_here (kinds : Kind → Bool) : here.isBelow kinds = false := rfl

@[simp] theorem isBelow_under (kinds : Kind → Bool) (top : Label) (before after : List Node)
    (inner : Place) : (under top before inner after).isBelow kinds =
      (kinds top.kind || inner.isBelow kinds) := rfl

theorem isBelow_stops (pruned : String → Bool) (p : Place) : p.isBelow (Kind.stops pruned) =
    (p.isBelow Kind.isLiteral || p.isBelow (Kind.isPruned pruned)) := by
  induction p with
  | here => simp only [isBelow_here, Bool.or_false]
  | under top before inner after ih =>
    simp only [isBelow_under, ih, Kind.stops]
    ac_rfl

end Place

namespace Node

/-! ## Places in pre-order -/

mutual

theorem mem_places_fill : ∀ (p : Place) (n : Node), (p, n) ∈ (p.fill n).places
  | .here, ⟨id, kind, props, state, children⟩ => by
    rw [Place.fill, places]
    exact List.mem_cons_self
  | .under top before inner after, n => by
    rw [Place.fill, Label.node, places]
    exact List.mem_cons_of_mem _ (mem_placesIn_fill top [] before inner after n)

theorem mem_placesIn_fill (top : Label) : ∀ (passed before : List Node) (inner : Place)
    (after : List Node) (n : Node), (.under top (passed ++ before) inner after, n) ∈
      placesIn top passed (before ++ inner.fill n :: after)
  | passed, [], inner, after, n => by
    rw [List.append_nil, List.nil_append, placesIn]
    exact List.mem_append_left _ (List.mem_map.2 ⟨_, mem_places_fill inner n, rfl⟩)
  | passed, m :: before, inner, after, n => by
    have h := mem_placesIn_fill top (passed ++ [m]) before inner after n
    rw [List.append_assoc, List.singleton_append] at h
    rw [List.cons_append, placesIn]
    exact List.mem_append_right _ h

end

/-- The places of a tree are all places that it can be taken apart at. -/
theorem mem_places_iff {n m : Node} {p : Place} : (p, m) ∈ n.places ↔ p.fill m = n := by
  constructor
  · exact fill_of_mem_places
  · rintro rfl
    exact mem_places_fill p m

theorem way_of_mem_placesIn {top : Label} {before ns : List Node} {s : Place × Node}
    (h : s ∈ placesIn top before ns) : ∃ i rest, s.1.way = i :: rest ∧ before.length ≤ i := by
  induction ns generalizing before with
  | nil =>
    rw [placesIn] at h
    cases h
  | cons n ns ih =>
    rw [placesIn] at h
    rcases List.mem_append.1 h with h | h
    · obtain ⟨inner, -, rfl⟩ := List.mem_map.1 h
      exact ⟨before.length, inner.1.way, rfl, Nat.le_refl _⟩
    · obtain ⟨i, rest, hway, hle⟩ := ih h
      rw [List.length_append, List.length_singleton] at hle
      exact ⟨i, rest, hway, by omega⟩

mutual

/-- The ways to the places increase. -/
theorem pairwise_places : ∀ n : Node, n.places.Pairwise fun s t => s.1.way < t.1.way
  | ⟨id, kind, props, state, children⟩ => by
    rw [places]
    refine List.Pairwise.cons ?_ (pairwise_placesIn _ [] children)
    intro s hs
    obtain ⟨i, rest, hway, -⟩ := way_of_mem_placesIn hs
    rw [hway]
    exact List.nil_lt_cons i rest

theorem pairwise_placesIn (top : Label) : ∀ before ns : List Node,
    (placesIn top before ns).Pairwise fun s t => s.1.way < t.1.way
  | _, [] => .nil
  | before, n :: ns => by
    rw [placesIn]
    refine List.pairwise_append.2 ⟨?_, pairwise_placesIn top (before ++ [n]) ns, ?_⟩
    · refine List.pairwise_map.2 ((pairwise_places n).imp ?_)
      intro s t hlt
      exact List.cons_lt_cons_self.2 hlt
    · -- The ways part at the top: into this child, and into one behind it.
      intro s hs t ht
      obtain ⟨inner, -, rfl⟩ := List.mem_map.1 hs
      obtain ⟨i, rest, hway, hle⟩ := way_of_mem_placesIn ht
      rw [List.length_append, List.length_singleton] at hle
      rw [hway]
      exact List.cons_lt_cons_iff.2 (.inl (by omega))

end

/-- The places that are not below a literal, in pre-order. -/
def openPlaces (n : Node) : List (Place × Node) :=
  n.places.filter fun s => !s.1.isBelow Kind.isLiteral

theorem mem_openPlaces_iff {n m : Node} {p : Place} :
    (p, m) ∈ n.openPlaces ↔ p.fill m = n ∧ p.isBelow Kind.isLiteral = false := by
  rw [openPlaces, List.mem_filter, mem_places_iff, Bool.not_eq_true']

theorem pairwise_openPlaces (n : Node) : n.openPlaces.Pairwise fun s t => s.1.way < t.1.way :=
  (pairwise_places n).filter _

/-! ## Traversals -/

mutual

/-- A traversal enters the nodes at the places that are not below one where it stops. -/
theorem walk_eq_places (pruned : String → Bool) : ∀ n : Node, n.walk pruned =
    (n.places.filter fun s => !s.1.isBelow (Kind.stops pruned)).map Prod.snd
  | ⟨id, kind, props, state, children⟩ => by
    rw [walk_eq, places, List.filter_cons_of_pos rfl, List.map_cons]
    exact congrArg _ (walkList_eq_places pruned ⟨id, kind, props, state⟩ [] children)

theorem walkList_eq_places (pruned : String → Bool) (top : Label) : ∀ before ns : List Node,
    (if top.kind.stops pruned then [] else walkList pruned ns) =
      ((placesIn top before ns).filter fun s => !s.1.isBelow (Kind.stops pruned)).map Prod.snd
  | before, [] => by
    rw [walkList, ite_self]
    rfl
  | before, n :: ns => by
    -- All places here are below `top`, so none is left if the traversal stops there.
    have hns := walkList_eq_places pruned top (before ++ [n]) ns
    rw [walkList, walk_eq_places pruned n, placesIn, List.filter_append, List.map_append, ← hns,
      List.filter_map, List.map_map]
    cases h : top.kind.stops pruned <;> simp [Function.comp_def, h]

end

theorem walk_eq_openPlaces (pruned : String → Bool) (n : Node) : n.walk pruned =
    (n.openPlaces.filter fun s => !s.1.isBelow (Kind.isPruned pruned)).map Prod.snd := by
  rw [walk_eq_places, openPlaces, List.filter_filter]
  refine congrArg _ (List.filter_congr fun s _ => ?_)
  rw [Place.isBelow_stops, Bool.not_or, Bool.and_comm]

theorem entered_eq_openPlaces (n : Node) : n.entered = n.openPlaces.map Prod.snd := by
  have hstops : Kind.stops (fun _ => false) = Kind.isLiteral := funext Kind.stops_none
  rw [entered, walk_eq_places, hstops, openPlaces]

end Node

namespace Visitor

variable {σ : Type}

/-- On every node the visitor does `enter`, and then it goes on below the node unless it stops
there. -/
def Enters (v : Visitor σ) (enter : Node → σ → σ) (stops : Kind → Bool) : Prop :=
  ∀ n walk s, v.node n (v.walkNode n walk) s =
    if stops n.kind then enter n s else walk (enter n s)

/-- Does `enter` on the nodes that stand at these places, one after the other. -/
def enterEach (enter : Node → σ → σ) (spots : List (Place × Node)) (s : σ) : σ :=
  spots.foldl (fun s spot => enter spot.2 s) s

theorem enters_pruning (pruned : String → Bool) (enter : Node → σ → σ) :
    (pruning pruned enter).Enters enter (Kind.stops pruned) := by
  intro n walk s
  obtain ⟨id, kind, props, state, children⟩ := n
  cases kind with
  | group | untyped | literal value => rfl
  | element tag =>
    cases h : pruned tag <;> simp [pruning, walkNode, Kind.stops, Kind.isLiteral, Kind.isPruned, h]

theorem enters_entering (enter : Node → σ → σ) :
    (entering enter).Enters enter (Kind.stops fun _ => false) :=
  enters_pruning (fun _ => false) enter

mutual

/-- A visitor that is known by what it does on one node goes by the nodes of a traversal. -/
theorem visit_eq_foldl {v : Visitor σ} {enter : Node → σ → σ} {pruned : String → Bool}
    (h : v.Enters enter (Kind.stops pruned)) : ∀ (n : Node) (s : σ),
      v.visit n s = (n.walk pruned).foldl (fun s m => enter m s) s
  | ⟨id, kind, props, state, children⟩, s => by
    rw [visit, h, Node.walk_eq, List.foldl_cons, visitAll_eq_foldl h]
    cases kind.stops pruned <;> rfl

theorem visitAll_eq_foldl {v : Visitor σ} {enter : Node → σ → σ} {pruned : String → Bool}
    (h : v.Enters enter (Kind.stops pruned)) : ∀ (ns : List Node) (s : σ),
      v.visitAll ns s = (Node.walkList pruned ns).foldl (fun s m => enter m s) s
  | [], s => by
    rw [visitAll, Node.walkList]
    rfl
  | n :: ns, s => by
    rw [visitAll, Function.comp_apply, visit_eq_foldl h n, visitAll_eq_foldl h ns, Node.walkList,
      List.foldl_append]

end

/-- The places that are not below a literal are those that can be reached without passing one, and
their order is the order of the ways to them, where a node comes before what is below it and a child
before its later siblings. A visitor with default methods enters the nodes at these places, each
once and in this order; one that prunes leaves out what is below the pruned elements and nothing
else. -/
theorem visits_in_preorder (n : Node) :
    (n.openPlaces.Pairwise fun s t => s.1.way < t.1.way) ∧
      (∀ p m, (p, m) ∈ n.openPlaces ↔ p.fill m = n ∧ p.isBelow Kind.isLiteral = false) ∧
      ∀ (enter : Node → σ → σ) (s : σ),
        (entering enter).visit n s = enterEach enter n.openPlaces s ∧
        ∀ pruned : String → Bool, (pruning pruned enter).visit n s =
          enterEach enter (n.openPlaces.filter fun t => !t.1.isBelow (Kind.isPruned pruned)) s := by
  refine ⟨Node.pairwise_openPlaces n, fun p m => Node.mem_openPlaces_iff, fun enter s => ⟨?_, ?_⟩⟩
  · calc (entering enter).visit n s
        = n.entered.foldl (fun s m => enter m s) s := visit_eq_foldl (enters_entering enter) n s
      _ = enterEach enter n.openPlaces s := by
        rw [Node.entered_eq_openPlaces, List.foldl_map, enterEach]
  · intro pruned
    rw [visit_eq_foldl (enters_pruning pruned enter), Node.walk_eq_openPlaces, List.foldl_map,
      enterEach]

/-- Below the card nothing is entered, nor below the literal. -/
example :
    let note := (Node.literal (.text "Go")).withChildren [Node.element "em"]
    let card := (Node.element "card").withChildren [Node.element "p"]
    let list := (Node.element "ul").withChildren [card, Node.group.withChildren [note]]
    (pruning (· == "card") fun n tags => tags ++ [n.tag?]).visit list [] =
      [some "ul", some "card", some "fragment", some "stringLiteral"] := by
  decide

end Visitor

/-! ## Collecting imports -/

namespace Import

/-- Takes an import in: it overwrites the origin of one with its tag, and comes last if there is
none. -/
def collect (i : Import) : List Import → List Import
  | [] => [i]
  | j :: js => if j.tag = i.tag then ⟨j.tag, i.origin⟩ :: js else j :: collect i js

/-- The import of a component tag. -/
def ofTag (tag : String) : Import := ⟨tag, Origin.ofTag tag⟩

/-- Collects the imports of the components that it enters. -/
def collector : Visitor (List Import) where
  element _ tag walk imports :=
    walk (if Tag.isComponent tag then collect (ofTag tag) imports else imports)

/-- What the collector does on a node. -/
def collectNode (n : Node) (imports : List Import) : List Import :=
  match componentTag? n with
  | some tag => collect (ofTag tag) imports
  | none => imports

theorem enters_collector : collector.Enters collectNode (Kind.stops fun _ => false) := by
  intro n walk imports
  obtain ⟨id, kind, props, state, children⟩ := n
  cases kind with
  | group | untyped | literal value => rfl
  | element tag =>
    cases h : Tag.isComponent tag <;>
      simp [collector, collectNode, Visitor.walkNode, componentTag?, Kind.stops, Kind.isLiteral,
        Kind.isPruned, h]

theorem collect_ofTag (tag : String) (tags : List String) : collect (ofTag tag) (tags.map ofTag) =
    (if tag ∈ tags then tags else tags ++ [tag]).map ofTag := by
  induction tags with
  | nil => rfl
  | cons t ts ih =>
    rw [List.map_cons, collect]
    by_cases ht : t = tag
    · subst ht
      simp [ofTag]
    · have hmem : tag ∈ t :: ts ↔ tag ∈ ts := by simp [Ne.symm ht]
      rw [if_neg (show (ofTag t).tag ≠ (ofTag tag).tag from ht), ih]
      by_cases h : tag ∈ ts <;> simp [hmem, h]

/-- Tags are collected at their first places, behind those collected before. -/
theorem foldl_collectNode (ns : List Node) (seen : List String) :
    ns.foldl (fun imports n => collectNode n imports) (seen.map ofTag) =
      (seen ++ (firstSeen (ns.filterMap componentTag?)).filter (· ∉ seen)).map ofTag := by
  induction ns generalizing seen with
  | nil => simp [firstSeen]
  | cons n ns ih =>
    cases htag : componentTag? n with
    | none =>
      have hnode : collectNode n (seen.map ofTag) = seen.map ofTag := by rw [collectNode, htag]
      rw [List.foldl_cons, hnode, List.filterMap_cons_none htag, ih]
    | some tag =>
      have hnode : collectNode n (seen.map ofTag) =
          (if tag ∈ seen then seen else seen ++ [tag]).map ofTag := by
        rw [collectNode, htag]
        exact collect_ofTag tag seen
      rw [List.foldl_cons, hnode, List.filterMap_cons_some htag, firstSeen, ih]
      by_cases hseen : tag ∈ seen
      · -- Of the tags that are not seen yet, none is this one.
        have hne : ∀ t ∈ firstSeen (ns.filterMap componentTag?),
            (decide (t ∉ seen) && t != tag) = decide (t ∉ seen) := by
          intro t _
          by_cases ht : t = tag <;> simp [ht, hseen]
        rw [if_pos hseen, List.filter_cons_of_neg (by simpa using hseen), List.filter_filter,
          List.filter_congr hne]
      · have hne : ∀ t ∈ firstSeen (ns.filterMap componentTag?),
            (decide (t ∉ seen) && t != tag) = decide (t ∉ seen ++ [tag]) := by
          intro t _
          by_cases ht : t = tag <;> simp [ht]
        rw [if_neg hseen, List.filter_cons_of_pos (by simpa using hseen), List.filter_filter,
          List.filter_congr hne, List.append_assoc, List.singleton_append]

/-- The visitor that collects imports finds the imports of the tree. -/
theorem ofTree_eq_visit (tree : Tree) : ofTree tree = collector.visit tree.root [] := by
  calc ofTree tree
      = ([] ++ (firstSeen (tree.root.entered.filterMap componentTag?)).filter (· ∉ [])).map
          ofTag := by simp [ofTree, ofTag]
    _ = tree.root.entered.foldl (fun imports n => collectNode n imports) [] :=
        (foldl_collectNode tree.root.entered []).symm
    _ = collector.visit tree.root [] :=
        (Visitor.visit_eq_foldl enters_collector tree.root []).symm

end Import

end ScreenTree
