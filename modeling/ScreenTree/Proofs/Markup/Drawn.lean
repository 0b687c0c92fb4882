import ScreenTree.Proofs.Imports

/-! # What is drawn of a tree

Generated text shows the shape of a tree, the kinds of its nodes with the values of literals, and
the properties of its elements by their names, values that count and types. `Node.drawn` keeps that
and clears all else, and a tree has the same imports and the same markup as what is drawn of it. -/

namespace ScreenTree

/-- The property as far as it is drawn: the value that counts has the place of the value. -/
def Property.drawn (p : Property) : Property :=
  ⟨p.name, p.actual?, none, p.type⟩

namespace Node

/-- The properties that are drawn of a node: those of an element. -/
def drawnProps (kind : Kind) (props : List Property) : List Property :=
  match kind with
  | .element _ => props.map Property.drawn
  | .group | .literal _ | .untyped => []

mutual

/-- The node as far as it is drawn: without ids, state values, and all that is below a literal. -/
def drawn : Node → Node
  | ⟨_, kind, props, _, children⟩ =>
    ⟨none, kind, drawnProps kind props, [], if kind.isLiteral then [] else drawnIn children⟩

def drawnIn : List Node → List Node
  | [] => []
  | n :: ns => n.drawn :: drawnIn ns

end

@[simp] theorem kind_drawn (n : Node) : n.drawn.kind = n.kind := by
  cases n
  rw [drawn]

mutual

/-- A traversal that stops at literals enters the same nodes of what is drawn. -/
theorem walk_drawn (pruned : String → Bool) :
    ∀ n : Node, n.drawn.walk pruned = (n.walk pruned).map drawn
  | ⟨id, kind, props, state, children⟩ => by
    have hchildren := walkList_drawnIn pruned children
    cases kind with
    | untyped | group => simp [drawn, walk, Kind.isLiteral, hchildren]
    | literal value => simp [drawn, walk, Kind.isLiteral]
    | element tag =>
      cases hpruned : pruned tag <;> simp [drawn, walk, Kind.isLiteral, hpruned, hchildren]

theorem walkList_drawnIn (pruned : String → Bool) :
    ∀ ns : List Node, walkList pruned (drawnIn ns) = (walkList pruned ns).map drawn
  | [] => by simp [drawnIn, walkList]
  | n :: ns => by
    rw [drawnIn, walkList, walkList, List.map_append, walk_drawn pruned n,
      walkList_drawnIn pruned ns]

end

end Node

open Node

namespace Import

theorem componentTag?_drawn (n : Node) : componentTag? n.drawn = componentTag? n := by
  rw [componentTag?, componentTag?, kind_drawn]

/-- A tree needs the imports of what is drawn of it. -/
theorem ofTree_drawn (t : Tree) : ofTree ⟨t.root.drawn⟩ = ofTree t := by
  have htags : componentTag? ∘ drawn = componentTag? := funext componentTag?_drawn
  rw [ofTree, ofTree, entered, entered, walk_drawn, List.filterMap_map, htags]

end Import

namespace Markup

theorem actual?_drawn (p : Property) : p.drawn.actual? = p.actual? := by
  rw [Property.actual?, Property.drawn]
  cases p.actual? <;> rfl

theorem attribute?_drawn (p : Property) : attribute? p.drawn = attribute? p := by
  rw [attribute?, attribute?, actual?_drawn]
  rfl

theorem templateAttribute?_drawn (p : Property) :
    templateAttribute? p.drawn = templateAttribute? p := by
  rw [templateAttribute?, templateAttribute?, actual?_drawn, attribute?_drawn]
  rfl

theorem promoted_drawnIn (name : String) (ns : List Node) :
    promoted name (drawnIn ns) = promoted name ns := by
  induction ns with
  | nil => rw [drawnIn]
  | cons n ns ih =>
    rw [promoted, promoted] at *
    rw [drawnIn, List.filterMap_cons, List.filterMap_cons, kind_drawn, ih]

namespace Style

/-- The attributes of a style are those of what is drawn. -/
def DrawsOnly (s : Style) : Prop :=
  ∀ tag own children, s.attributes tag (own.map Property.drawn) (drawnIn children) =
    s.attributes tag own children

theorem screen_drawsOnly : screen.DrawsOnly := by
  intro tag own children
  have hown : (own.map Property.drawn).filterMap Markup.attribute? =
      own.filterMap Markup.attribute? := by
    rw [List.filterMap_map]
    exact congrArg (List.filterMap · own) (funext attribute?_drawn)
  simp only [attributes, screen]
  split
  · rw [componentProps, componentProps]
    split
    · rw [List.filterMap_append, List.filterMap_append, hown, promoted_drawnIn]
    · rw [hown]
  · rw [hown]

theorem template_drawsOnly (name : String) : (template name).DrawsOnly := by
  intro tag own children
  simp only [attributes, template, List.filterMap_map]
  exact congrArg (fun f => Text.concat (own.filterMap f)) (funext templateAttribute?_drawn)

variable {s : Style}

mutual

/-- What is drawn of a node is drawn like the node. -/
theorem draw_drawn (hs : s.DrawsOnly) (mode : Mode) (depth : Nat) :
    ∀ n : Node, s.draw mode depth n.drawn = s.draw mode depth n
  | ⟨_, .untyped, _, _, _⟩ => by rw [drawn, draw, draw]
  | ⟨_, .literal _, _, _, _⟩ => by rw [drawn, draw, draw]
  | ⟨_, .group, _, _, children⟩ => by
    have hsame := drawAll_drawnIn hs mode depth children
    simp only [drawn, drawnProps, Kind.isLiteral, draw, hsame, Bool.false_eq_true, if_false]
  | ⟨_, .element tag, own, _, children⟩ => by
    have hsame := drawAll_drawnIn hs mode depth children
    have hdeeper := drawAll_drawnIn hs mode (depth + 1) children
    have hattributes := hs tag own children
    simp only [drawn, drawnProps, Kind.isLiteral, draw, hsame, hdeeper, hattributes,
      Bool.false_eq_true, if_false]

theorem drawAll_drawnIn (hs : s.DrawsOnly) (mode : Mode) (depth : Nat) :
    ∀ ns : List Node, s.drawAll mode depth (drawnIn ns) = s.drawAll mode depth ns
  | [] => by rw [drawnIn]
  | n :: ns => by
    rw [drawnIn, drawAll, drawAll, draw_drawn hs mode depth n, drawAll_drawnIn hs mode depth ns]

end

end Style
end Markup

namespace Options

open Markup

theorem markup_drawn (o : Options) (n : Node) (depth : Nat) :
    o.markup n.drawn depth = o.markup n depth := by
  rw [markup, markup, Style.render_eq_draw, Style.render_eq_draw,
    Style.draw_drawn Style.screen_drawsOnly]

theorem appModule_drawn (o : Options) (t : Tree) :
    o.appModule ⟨t.root.drawn⟩ = o.appModule t := by
  rw [appModule, appModule, markup_drawn]
  cases o.markup t.root 0 with
  | error e => rfl
  | ok text =>
    delta appText Import.lines
    simp only [Except.map, Import.ofTree_drawn]

/-- The module of a component depends on what is drawn of its template. -/
theorem componentModule_drawnIn (o : Options) (d : Definition) :
    o.componentModule { d with children := Node.drawnIn d.children } = o.componentModule d := by
  simp only [componentModule, Style.renderTemplates_eq_drawAll,
    Style.drawAll_drawnIn (Style.template_drawsOnly d.name)]
  rfl

/-- Nodes of which the same is drawn have the same markup at every depth, and trees of which the
same is drawn have the same imports and the same app module, or fail with the same error. -/
theorem same_text_of_drawn (o : Options) :
    (∀ n m : Node, n.drawn = m.drawn → ∀ depth, o.markup n depth = o.markup m depth) ∧
      ∀ t t' : Tree, t.root.drawn = t'.root.drawn →
        Import.ofTree t = Import.ofTree t' ∧ Import.lines o t = Import.lines o t' ∧
          o.appModule t = o.appModule t' := by
  constructor
  · intro n m h depth
    rw [← markup_drawn o n, h, markup_drawn]
  · intro t t' h
    have himports : Import.ofTree t = Import.ofTree t' := by
      rw [← Import.ofTree_drawn t, h, Import.ofTree_drawn]
    refine ⟨himports, ?_, ?_⟩
    · rw [Import.lines, Import.lines, himports]
    · rw [← appModule_drawn o t, h, appModule_drawn]

/-- Two buttons that differ in ids and state values, in an initial value that does not count, and
below the literal that stands in them. -/
theorem same_text_of_buttons :
    let button : Node := ⟨some "1", .element "button",
      [⟨"type", some (.text "submit"), some (.text "button"), none⟩], [.null],
      [⟨some "2", .literal (some (.text "Go")), [.ofValue "lang" (.text "en")], [],
        [Node.element "card"]⟩]⟩
    let other : Node := ⟨none, .element "button",
      [⟨"type", none, some (.text "submit"), none⟩], [], [Node.literal (.text "Go")]⟩
    button ≠ other ∧ button.drawn = other.drawn ∧
      strict.markup button 1 = .ok "  <Button type=\"submit\" text=\"Go\" />" ∧
      strict.markup other 1 = strict.markup button 1 ∧
      strict.appModule ⟨Node.root.withChildren [button]⟩ =
        strict.appModule ⟨Node.root.withChildren [other]⟩ := by
  intro button other
  have hdrawn : button.drawn = other.drawn := by decide
  have hroots : (Node.root.withChildren [button]).drawn =
      (Node.root.withChildren [other]).drawn := by
    decide
  exact ⟨by decide, hdrawn, by decide +kernel,
    ((same_text_of_drawn strict).1 button other hdrawn 1).symm,
    ((same_text_of_drawn strict).2 ⟨_⟩ ⟨_⟩ hroots).2.2⟩

end Options
end ScreenTree
