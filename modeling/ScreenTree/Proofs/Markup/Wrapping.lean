import Mathlib.Logic.Relation
import ScreenTree.Proofs.Markup.Agreement
import ScreenTree.Proofs.Markup.Lines

/-! # Wrapped templates

At the first level of a template, a group and an element with the name of the definition are written
as the lines of their children. So nodes there can be put below such a wrapper, again and again, and
the module of the component stays the same. -/

namespace ScreenTree

namespace Text

theorem join_eq_intercalate (separator : String) (parts : List String) :
    join separator parts = separator.intercalate parts := by
  induction parts with
  | nil => rw [join, String.intercalate_nil]
  | cons part parts ih =>
    cases parts with
    | nil => rw [join, String.intercalate_singleton]
    | cons next parts =>
      rw [join, ih, String.intercalate_cons_cons, String.append_assoc]
      exact List.cons_ne_nil next parts

theorem joinLines_append {ss ts : List String} (hs : ss ≠ []) (ht : ts ≠ []) :
    joinLines (ss ++ ts) = joinLines ss ++ "\n" ++ joinLines ts := by
  simp only [joinLines, join_eq_intercalate, String.intercalate_append_of_ne_nil hs ht]

theorem joinLines_append_congr (before : List String) {ss ts : List String} (hs : ss ≠ [])
    (ht : ts ≠ []) (h : joinLines ss = joinLines ts) :
    joinLines (before ++ ss) = joinLines (before ++ ts) := by
  cases before with
  | nil => exact h
  | cons first before =>
    have hfirst : first :: before ≠ [] := List.cons_ne_nil first before
    rw [joinLines_append hfirst hs, joinLines_append hfirst ht, h]

theorem joinLines_cons_joined {parts : List String} (h : parts ≠ []) (after : List String) :
    joinLines (joinLines parts :: after) = joinLines (parts ++ after) := by
  cases after with
  | nil => rw [List.append_nil, joinLines, join]
  | cons next after =>
    have hafter : next :: after ≠ [] := List.cons_ne_nil next after
    have hone : joinLines [joinLines parts] = joinLines parts := rfl
    rw [← List.singleton_append, joinLines_append (List.cons_ne_nil _ _) hafter, hone,
      joinLines_append h hafter]

/-- Lines that are joined beforehand are joined to the others as they are, if there are any. -/
theorem joinLines_joined {parts : List String} (h : parts ≠ []) (before after : List String) :
    joinLines (before ++ joinLines parts :: after) = joinLines (before ++ (parts ++ after)) :=
  joinLines_append_congr before (List.cons_ne_nil _ _) (List.append_ne_nil_of_left_ne_nil h after)
    (joinLines_cons_joined h after)

end Text

/-- A group, or an element with the name of the definition. -/
def Kind.wraps (name : String) (k : Kind) : Prop :=
  k = .group ∨ k = .element name

/-- Some nodes that follow one another are put below one wrapper, at the first level or below
wrappers that stand there. -/
inductive Node.Wraps (name : String) : List Node → List Node → Prop
  | here (before run after : List Node) {wrapper : Node} (hkind : wrapper.kind.wraps name)
      (hrun : run ≠ []) :
      Wraps name (before ++ (run ++ after)) (before ++ wrapper.withChildren run :: after)
  | inside (before after : List Node) {ns ms : List Node} {wrapper : Node}
      (hkind : wrapper.kind.wraps name) (h : Wraps name ns ms) :
      Wraps name (before ++ wrapper.withChildren ns :: after)
        (before ++ wrapper.withChildren ms :: after)

namespace Markup.Style

/-- The text of nodes that are drawn one after another, each on lines of its own. -/
def joined (s : Style) (mode : Mode) (depth : Nat) (ns : List Node) : Except Malformed String :=
  (s.drawAll mode depth ns).map Text.joinLines

variable {s : Style} {mode : Mode} {depth : Nat}

/-- A node whose children are drawn at its own depth is not seen itself. -/
theorem draw_of_childDepth? {n : Node} (h : s.childDepth? depth n.kind = some depth) :
    s.draw mode depth n = s.joined mode depth n.children := by
  obtain ⟨id, kind, own, state, children⟩ := n
  cases kind with
  | untyped => cases h
  | literal value => cases h
  | group => rw [draw, joined]
  | element tag =>
    cases hunwraps : s.unwraps depth tag with
    | true => rw [draw, hunwraps, if_pos rfl, joined]
    | false =>
      exfalso
      cases hleaf : s.isLeaf tag with
      | true => cases (childDepth?_of_isLeaf hunwraps hleaf).symm.trans h
      | false =>
        have hdepth := (childDepth?_of_isLeaf_eq_false hunwraps hleaf).symm.trans h
        simp at hdepth

/-- Every node is drawn to one text. -/
theorem length_of_drawAll {ns : List Node} {parts : List String}
    (h : s.drawAll mode depth ns = .ok parts) : parts.length = ns.length := by
  induction ns generalizing parts with
  | nil =>
    rw [drawAll] at h
    cases h
    rfl
  | cons n ns ih =>
    rw [drawAll] at h
    obtain ⟨part, -, h⟩ := exists_of_bind_eq_ok h
    obtain ⟨rest, hrest, rfl⟩ := exists_of_map_eq_ok h
    rw [List.length_cons, List.length_cons, ih hrest]

/-- A node that is not seen itself can be exchanged for others that have the text of its
children. -/
theorem joined_insert {n : Node} (h : s.childDepth? depth n.kind = some depth)
    (before after : List Node) :
    s.joined mode depth (before ++ n :: after) =
      (s.drawAll mode depth before).bind fun first =>
        (s.joined mode depth n.children).bind fun text =>
          (s.drawAll mode depth after).map fun last =>
            Text.joinLines (first ++ text :: last) := by
  rw [joined, drawAll_append, drawAll, draw_of_childDepth? h]
  cases s.drawAll mode depth before with
  | error e => rfl
  | ok first =>
    cases s.joined mode depth n.children with
    | error e => rfl
    | ok text => cases s.drawAll mode depth after <;> rfl

theorem joined_wrap {n : Node} (h : s.childDepth? depth n.kind = some depth)
    (hchildren : n.children ≠ []) (before after : List Node) :
    s.joined mode depth (before ++ n :: after) =
      s.joined mode depth (before ++ (n.children ++ after)) := by
  rw [joined_insert h, joined, joined, drawAll_append, drawAll_append]
  cases s.drawAll mode depth before with
  | error e => rfl
  | ok first =>
    cases hparts : s.drawAll mode depth n.children with
    | error e => rfl
    | ok parts =>
      cases s.drawAll mode depth after with
      | error e => rfl
      | ok last =>
        have hne : parts ≠ [] := by
          rintro rfl
          exact hchildren (List.length_eq_zero_iff.1 (length_of_drawAll hparts).symm)
        exact congrArg Except.ok (Text.joinLines_joined hne first last)

theorem childDepth?_of_wraps {name : String} {k : Kind} (h : k.wraps name) :
    (template name).childDepth? 1 k = some 1 := by
  rcases h with rfl | rfl
  · rfl
  · exact childDepth?_of_unwraps (by simp [template])

/-- The first level of a template has the same text with one more wrapper. -/
theorem joined_of_wraps {name : String} {ns ms : List Node} (h : Node.Wraps name ns ms) :
    (template name).joined mode 1 ms = (template name).joined mode 1 ns := by
  induction h with
  | @here before run after wrapper hkind hrun =>
    have hdepth : (template name).childDepth? 1 (wrapper.withChildren run).kind = some 1 :=
      childDepth?_of_wraps hkind
    exact joined_wrap hdepth hrun before after
  | @inside before after ns ms wrapper hkind _ ih =>
    have hdepth (children : List Node) :
        (template name).childDepth? 1 (wrapper.withChildren children).kind = some 1 :=
      childDepth?_of_wraps hkind
    rw [joined_insert (hdepth ms), joined_insert (hdepth ns)]
    simp only [Node.withChildren, ih]

end Markup.Style

namespace Options

open Markup

theorem componentText_congr {d : Definition} {ms : List Node} {parts others : List String}
    (h : Text.joinLines others = Text.joinLines parts) :
    componentText { d with children := ms } others = componentText d parts := by
  delta componentText
  rw [h]
  rfl

/-- Of the template, the module of a component shows the text of the first level only. -/
theorem componentModule_congr (o : Options) {d : Definition} {ms : List Node}
    (h : (Style.template d.name).joined o.mode 1 ms =
      (Style.template d.name).joined o.mode 1 d.children) :
    o.componentModule { d with children := ms } = o.componentModule d := by
  rw [Style.joined, Style.joined, ← Style.renderTemplates_eq_drawAll,
    ← Style.renderTemplates_eq_drawAll] at h
  have hmodule := congrArg (Except.mapError Error.malformed) h
  rw [mapError_map, mapError_map] at hmodule
  exact map_eq_of_view hmodule fun _ _ => componentText_congr

/-- Nodes of the first level of a template can be put below a group or below an element with the
name of the definition, whatever its id, properties and state are, any number of times and also
below such wrappers: in either mode the module of the component stays the same, or fails with the
same error. -/
theorem wrappers_invisible (o : Options) {d : Definition} {ms : List Node}
    (h : Relation.ReflTransGen (Node.Wraps d.name) d.children ms) :
    o.componentModule { d with children := ms } = o.componentModule d := by
  refine componentModule_congr o ?_
  induction h with
  | refl => rfl
  | tail _ hstep ih => exact (Style.joined_of_wraps hstep).trans ih

/-- The name of the definition is no tag, so strict rendering would refuse its wrapper if it looked
at it; it fails at the tag of the last node instead, with wrappers and without them. -/
theorem wrappers_invisible_in_card :
    let outer := (Node.element "my card").withId "outer"
    let plain (tag : String) : List Node :=
      [Node.element "hr", Node.literal (.text "$title"), Node.element tag]
    let wrapped (tag : String) : List Node := [Node.group.withChildren [Node.element "hr",
      outer.withChildren [Node.group.withChildren [Node.literal (.text "$title")],
        Node.element tag]]]
    let card (nodes : List Node) : Definition := ⟨"my card", [], [], nodes⟩
    Relation.ReflTransGen (Node.Wraps "my card") (plain "p") (wrapped "p") ∧
      strict.componentModule (card (plain "p")) =
        .ok ("export function My card() \x7b\n    return (\n" ++ "  <hr />\n{title}\n  <p></p>" ++
          "\n    );\n\x7d") ∧
      strict.componentModule (card (wrapped "p")) = strict.componentModule (card (plain "p")) ∧
      strict.componentModule (card (plain "b r")) = .error (.malformed (.invalidTag "b r")) ∧
      strict.componentModule (card (wrapped "b r")) = .error (.malformed (.invalidTag "b r")) := by
  intro outer plain wrapped card
  have houter : outer.kind.wraps "my card" := .inr rfl
  have hgroup : Node.group.kind.wraps "my card" := .inl rfl
  let rule := Node.element "hr"
  let title := Node.literal (.text "$title")
  have hwraps (tag : String) :
      Relation.ReflTransGen (Node.Wraps "my card") (plain tag) (wrapped tag) := by
    have hcard := Node.Wraps.here [rule] [title, Node.element tag] [] houter nofun
    have hall := Node.Wraps.here [] [rule, outer.withChildren [title, Node.element tag]] [] hgroup
      nofun
    have htitle := Node.Wraps.here [] [title] [Node.element tag] hgroup nofun
    have hinner := Node.Wraps.inside [] [] hgroup (.inside [rule] [] houter htitle)
    exact ((Relation.ReflTransGen.single hcard).tail hall).tail hinner
  have hsame (tag : String) := wrappers_invisible strict (d := card (plain tag)) (hwraps tag)
  have hfault : strict.componentModule (card (plain "b r")) =
      .error (.malformed (.invalidTag "b r")) := by
    decide +kernel
  exact ⟨hwraps "p", by decide +kernel, hsame "p", hfault, (hsame "b r").trans hfault⟩

end Options
end ScreenTree
