import ScreenTree.Proofs.Imports
import ScreenTree.Proofs.Markup.Agreement
import ScreenTree.Proofs.Markup.Lines
import ScreenTree.Proofs.Place

/-! # Groups among siblings

A group is drawn as its children at its own depth, and it is no component. So among siblings that
are drawn it can be replaced by its children: the same components are imported, the same node is the
first that cannot be drawn, and the lines are the same, empty ones apart. -/

namespace ScreenTree

open Node

/-- The tree with nodes in the gap one after another. -/
def Gap.splice (g : Gap) (ns : List Node) : Node :=
  g.place.fill (g.parent.node (g.before ++ ns ++ g.after))

/-- Children are drawn as nodes of their own below a group, a component that takes children, and an
element that is no component and not void. -/
def Kind.showsChildren : Kind → Bool
  | .group => true
  | .element tag => if Tag.isComponent tag then Tag.takesChildren tag else !Tag.isVoid tag
  | .literal _ | .untyped => false

/-- The component tags of nodes one after another, in the order of their use. -/
def Import.uses (ns : List Node) : List String :=
  (walkList (fun _ => false) ns).filterMap componentTag?

theorem Import.uses_append (ns ms : List Node) : uses (ns ++ ms) = uses ns ++ uses ms := by
  rw [uses, walkList_append, List.filterMap_append, uses, uses]

theorem Import.uses_singleton (n : Node) : uses [n] = n.entered.filterMap componentTag? := by
  rw [uses, walkList, walkList, List.append_nil, entered]

theorem Import.uses_node (n : Node) :
    uses [n] = (componentTag? n).toList ++ if n.kind.isLiteral then [] else uses n.children := by
  rw [uses_singleton, entered_eq, List.filterMap_cons]
  cases componentTag? n <;> cases n.kind.isLiteral <;> simp [uses]

namespace Markup

namespace Style

theorem promoted_congr (name : String) {ns ms : List Node}
    (h : ns.map Node.kind = ms.map Node.kind) : promoted name ns = promoted name ms := by
  induction ns generalizing ms with
  | nil =>
    cases ms with
    | nil => rfl
    | cons m ms => cases h
  | cons n ns ih =>
    cases ms with
    | nil => cases h
    | cons m ms =>
      obtain ⟨hkind, hrest⟩ := List.cons.inj h
      have hparts := ih hrest
      rw [promoted, promoted] at hparts ⊢
      rw [List.filterMap_cons, List.filterMap_cons, hkind, hparts]

/-- The attributes of an element show no more of its children than their kinds. -/
theorem screen_attributes_congr {ns ms : List Node} (h : ns.map Node.kind = ms.map Node.kind)
    (tag : String) (own : List Property) :
    screen.attributes tag own ns = screen.attributes tag own ms := by
  simp only [attributes, screen, componentProps, promoted_congr _ h]

/-- Children that are drawn as nodes of their own do not show in attributes. -/
theorem screen_attributes_of_showsChildren {tag : String}
    (h : (Kind.element tag).showsChildren = true) (own : List Property) (ns ms : List Node) :
    screen.attributes tag own ns = screen.attributes tag own ms := by
  have htakes : (Tag.isComponent tag && !Tag.takesChildren tag) = false := by
    cases hcomponent : Tag.isComponent tag <;> simp_all [Kind.showsChildren]
  simp only [attributes, screen, htakes, Bool.false_eq_true, if_false]

end Style

/-- The same components are used, and the same lines are drawn, in either mode and at every
depth. -/
structure LookAlike (ns ms : List Node) : Prop where
  uses : Import.uses ns = Import.uses ms
  lines : ∀ mode depth, Style.screen.lines mode depth ns = Style.screen.lines mode depth ms

namespace LookAlike

variable {ns ms : List Node}

theorem append (h : LookAlike ns ms) (before after : List Node) :
    LookAlike (before ++ ns ++ after) (before ++ ms ++ after) := by
  refine ⟨?_, fun mode depth => ?_⟩
  · simp only [Import.uses_append, h.uses]
  · simp only [Style.lines_append, h.lines]

/-- A group looks like its children. -/
theorem of_group {n : Node} (h : n.kind = .group) : LookAlike n.children [n] := by
  obtain ⟨id, kind, props, state, children⟩ := n
  cases h
  refine ⟨?_, fun mode depth => ?_⟩
  · rw [Import.uses_node]
    rfl
  · rw [Style.lines_singleton, Style.draw, Style.lines]
    cases Style.screen.drawAll mode depth children with
    | error e => rfl
    | ok parts => exact congrArg Except.ok (Text.filledLines_joinLines parts).symm

theorem node {l : Label} (h : LookAlike ns ms)
    (hattributes : ∀ tag, l.kind = .element tag →
      Style.screen.attributes tag l.props ns = Style.screen.attributes tag l.props ms) :
    LookAlike [l.node ns] [l.node ms] := by
  refine ⟨?_, fun mode depth => Style.lines_congr rfl hattributes fun inner _ => h.lines mode inner⟩
  have htag : Import.componentTag? (l.node ns) = Import.componentTag? (l.node ms) := rfl
  rw [Import.uses_node, Import.uses_node, htag]
  exact congrArg (fun below => _ ++ if l.kind.isLiteral then [] else below) h.uses

/-- What looks alike can be exchanged at any place. -/
theorem fill {n m : Node} (hkind : n.kind = m.kind) (h : LookAlike [n] [m]) (p : Place) :
    LookAlike [p.fill n] [p.fill m] := by
  induction p with
  | here => exact h
  | under top before inner after ih =>
    have hsiblings := ih.append before after
    simp only [List.append_assoc, List.singleton_append] at hsiblings
    -- A component that takes no children may show its literal ones as attributes.
    refine hsiblings.node fun tag _ => Style.screen_attributes_congr ?_ tag top.props
    simp only [List.map_append, List.map_cons, inner.kind_fill hkind]

/-- A group in a gap looks like its children there if the children of the parent are shown. -/
theorem splice {g : Gap} {n : Node} (hgroup : n.kind = .group)
    (hparent : g.parent.kind.showsChildren = true) :
    LookAlike [g.splice n.children] [g.fill n] := by
  have hsiblings := (of_group hgroup).append g.before g.after
  rw [List.append_assoc g.before [n], List.singleton_append] at hsiblings
  refine fill ?_ (hsiblings.node fun tag htag => ?_) g.place
  · rfl
  · exact Style.screen_attributes_of_showsChildren (htag ▸ hparent) _ _ _

end LookAlike

end Markup

namespace Options

open Markup

theorem ofTree_of_lookAlike {t t' : Tree} (h : LookAlike [t'.root] [t.root]) :
    Import.ofTree t' = Import.ofTree t := by
  rw [Import.ofTree, Import.ofTree, ← Import.uses_singleton, ← Import.uses_singleton, h.uses]

/-- The markup stands on lines of its own in an app module. -/
theorem appText_eq (o : Options) (t : Tree) (markup : String) :
    o.appText t markup =
      Import.lines o t ++ "\nexport default function " ++ o.appName ++
        "() \x7b\n    return (\n        <div>" ++ "\n" ++ markup ++ "\n" ++
          "        </div>\n    );\n\x7d" := by
  delta appText
  simp only [String.append_assoc]
  rfl

theorem filledLines_appText_congr (o : Options) {t t' : Tree} {markup other : String}
    (himports : Import.ofTree t' = Import.ofTree t)
    (h : Text.filledLines other = Text.filledLines markup) :
    Text.filledLines (o.appText t' other) = Text.filledLines (o.appText t markup) := by
  have hlines : Import.lines o t' = Import.lines o t := by
    rw [Import.lines, Import.lines, himports]
  rw [appText_eq, appText_eq, hlines, Text.filledLines_append, Text.filledLines_append, h,
    ← Text.filledLines_append, ← Text.filledLines_append]

theorem appModule_of_lookAlike (o : Options) {t t' : Tree} (h : LookAlike [t'.root] [t.root]) :
    (o.appModule t').map Text.filledLines = (o.appModule t).map Text.filledLines := by
  have hdrawn := h.lines o.mode 0
  rw [Style.lines_singleton, Style.lines_singleton] at hdrawn
  have hmarkup := congrArg (Except.mapError Error.malformed) hdrawn
  rw [mapError_map, mapError_map, ← Style.render_eq_draw, ← Style.render_eq_draw] at hmarkup
  exact map_map_congr hmarkup fun _ _ => filledLines_appText_congr o (ofTree_of_lookAlike h)

/-- A group below a node whose children are shown can be replaced by its children: the tree has the
same imports, and its app module fails with the same error or has the same lines, empty ones apart,
under all options. -/
theorem groups_transparent (o : Options) {t : Tree} {g : Gap} {n : Node} (ht : t.root = g.fill n)
    (hgroup : n.kind = .group) (hparent : g.parent.kind.showsChildren = true) :
    Import.ofTree ⟨g.splice n.children⟩ = Import.ofTree t ∧
      (o.appModule ⟨g.splice n.children⟩).map Text.filledLines =
        (o.appModule t).map Text.filledLines := by
  have halike : LookAlike [g.splice n.children] [t.root] := ht ▸ LookAlike.splice hgroup hparent
  exact ⟨ofTree_of_lookAlike halike, appModule_of_lookAlike o halike⟩

/-- The empty group in a group leaves an empty line, which the body of a paragraph leaves out. In
strict mode both trees fail at the tag of the last node. -/
theorem groups_transparent_in_paragraph :
    let part := Node.group.withChildren [
      Node.literal (.text "first"), Node.group, Node.element "button"]
    let page (tag : String) (nodes : List Node) : Tree := ⟨Node.root.withChildren [
      (Node.element "p").withChildren nodes, Node.element tag]⟩
    standard.markup (page "br" [part]).root 0 =
        .ok "<p>\nfirst\n\n  <Button />\n</p>\n<br />" ∧
      standard.markup (page "br" part.children).root 0 =
        .ok "<p>\nfirst\n  <Button />\n</p>\n<br />" ∧
      (standard.appModule (page "br" part.children)).map Text.filledLines =
        (standard.appModule (page "br" [part])).map Text.filledLines ∧
      Import.ofTree (page "br" part.children) = Import.ofTree (page "br" [part]) ∧
      strict.appModule (page "b r" [part]) = .error (.malformed (.invalidTag "b r")) ∧
      (strict.appModule (page "b r" part.children)).map Text.filledLines =
        .error (.malformed (.invalidTag "b r")) := by
  intro part page
  let gap (tag : String) : Gap :=
    ⟨.under Node.root.label [] .here [Node.element tag], (Node.element "p").label, [], []⟩
  have hpage (tag : String) : (page tag [part]).root = (gap tag).fill part := rfl
  have hspliced (tag : String) : page tag part.children = ⟨(gap tag).splice part.children⟩ := rfl
  have hparent (tag : String) : (gap tag).parent.kind.showsChildren = true := by
    show (Kind.element "p").showsChildren = true
    decide +kernel
  have hstrict : strict.appModule (page "b r" [part]) = .error (.malformed (.invalidTag "b r")) := by
    decide +kernel
  obtain ⟨himports, hlines⟩ := groups_transparent standard (hpage "br") rfl (hparent "br")
  obtain ⟨-, hfault⟩ := groups_transparent strict (hpage "b r") rfl (hparent "b r")
  rw [hstrict] at hfault
  rw [hspliced, hspliced]
  exact ⟨by decide +kernel, by decide +kernel, hlines, himports, hstrict, hfault⟩

end Options
end ScreenTree
