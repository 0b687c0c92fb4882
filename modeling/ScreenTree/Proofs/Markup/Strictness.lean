import ScreenTree.Proofs.Markup.Style

/-! # Strict and lenient rendering

Lenient rendering always succeeds. Strict rendering gives the same text, unless a malformed node is
reached; then it fails with the cause of the first one in pre-order. -/

namespace ScreenTree

namespace Markup

/-- A result that stands unless there is a fault. -/
def barred {α : Type} (fault : Option Malformed) (result : α) : Except Malformed α :=
  match fault with
  | some cause => .error cause
  | none => .ok result

theorem map_barred {α β : Type} (fault : Option Malformed) (a : α) (f : α → β) :
    (barred fault a).map f = barred fault (f a) := by
  cases fault <;> rfl

theorem bind_barred {α β : Type} (first second : Option Malformed) (a : α) (f : α → β) :
    ((barred first a).bind fun x => barred second (f x)) = barred (first.or second) (f a) := by
  cases first <;> rfl

namespace Style

/-- Why a node reached at a depth cannot be written in strict mode: it has no type, it is a literal
without a value, or it is an element with an invalid tag that is not unwrapped. -/
def fault? (s : Style) : Nat × Node → Option Malformed
  | (depth, n) =>
    match n.kind with
    | .untyped => some s.untyped
    | .literal none => some .literalWithoutValue
    | .element tag =>
      if s.unwraps depth tag = false ∧ Tag.isPlain tag = false then some (.invalidTag tag)
      else none
    | .literal (some _) | .group => none

def firstFault? (s : Style) (visits : List (Nat × Node)) : Option Malformed :=
  visits.findSome? s.fault?

variable (s : Style)

theorem firstFault?_cons (visit : Nat × Node) (visits : List (Nat × Node)) :
    s.firstFault? (visit :: visits) = (s.fault? visit).or (s.firstFault? visits) := by
  rw [firstFault?, List.findSome?_cons]
  cases s.fault? visit <;> rfl

theorem firstFault?_append (visits more : List (Nat × Node)) :
    s.firstFault? (visits ++ more) = (s.firstFault? visits).or (s.firstFault? more) :=
  List.findSome?_append

theorem firstFault?_reached {depth inner : Nat} {n : Node}
    (h : s.childDepth? depth n.kind = some inner) :
    s.firstFault? (s.reached depth n) =
      (s.fault? (depth, n)).or (s.firstFault? (s.reachedIn inner n.children)) := by
  rw [reached_of_childDepth? h, firstFault?_cons]

theorem firstFault?_reached_of_none {depth : Nat} {n : Node}
    (h : s.childDepth? depth n.kind = none) :
    s.firstFault? (s.reached depth n) = s.fault? (depth, n) := by
  rw [reached_of_childDepth?_eq_none h, firstFault?_cons, firstFault?, List.findSome?_nil,
    Option.or_none]

theorem requirePlain_strict {depth : Nat} {tag : String} (h : s.unwraps depth tag = false)
    (id : Option String) (own : List Property) (state : List Json) (children : List Node) :
    requirePlain .strict tag =
      barred (s.fault? (depth, ⟨id, .element tag, own, state, children⟩)) () := by
  cases hplain : Tag.isPlain tag <;> simp [requirePlain, fault?, h, hplain, barred]

mutual

/-- Strict drawing is lenient drawing that the first fault bars. -/
theorem draw_strict (depth : Nat) : ∀ n : Node, ∃ text, s.draw .lenient depth n = .ok text ∧
    s.draw .strict depth n = barred (s.firstFault? (s.reached depth n)) text
  | ⟨id, .untyped, own, state, children⟩ => by
    rw [firstFault?_reached_of_none s rfl]
    exact ⟨"", by rw [draw]; rfl, by rw [draw]; rfl⟩
  | ⟨id, .literal value, own, state, children⟩ => by
    rw [firstFault?_reached_of_none s rfl]
    cases value with
    | none => exact ⟨"", by rw [draw]; rfl, by rw [draw]; rfl⟩
    | some v =>
      refine ⟨(v.reference?.map braced).getD v.markupText, ?_, ?_⟩ <;>
      · rw [draw, literal]
        cases v.reference? <;> rfl
  | ⟨id, .group, own, state, children⟩ => by
    obtain ⟨parts, hlenient, hstrict⟩ := drawAll_strict depth children
    refine ⟨Text.joinLines parts, by rw [draw, hlenient]; rfl, ?_⟩
    have hinner : s.childDepth? depth .group = some depth := rfl
    rw [draw, hstrict, map_barred, firstFault?_reached s hinner]
    rfl
  | ⟨id, .element tag, own, state, children⟩ => by
    obtain ⟨same, hsame, hsameStrict⟩ := drawAll_strict depth children
    obtain ⟨parts, hlenient, hstrict⟩ := drawAll_strict (depth + 1) children
    cases hunwraps : s.unwraps depth tag with
    | true =>
      have hinner := childDepth?_of_unwraps hunwraps
      have hfault : s.fault? (depth, ⟨id, .element tag, own, state, children⟩) = none := by
        simp [fault?, hunwraps]
      refine ⟨Text.joinLines same, by rw [draw, hunwraps, if_pos rfl, hsame]; rfl, ?_⟩
      rw [draw, hunwraps, if_pos rfl, hsameStrict, map_barred, firstFault?_reached s hinner, hfault,
        Option.none_or]
    | false =>
      have hplain := requirePlain_strict s hunwraps id own state children
      cases hleaf : s.isLeaf tag with
      | true =>
        have hinner := childDepth?_of_isLeaf hunwraps hleaf
        refine ⟨single depth (s.name tag) (s.attributes tag own children), ?_, ?_⟩
        · rw [draw, hunwraps, hleaf]
          rfl
        · rw [draw, hunwraps, hleaf, hplain, firstFault?_reached_of_none s hinner]
          exact (bind_barred _ none () _).trans (by rw [Option.or_none])
      | false =>
        have hinner := childDepth?_of_isLeaf_eq_false hunwraps hleaf
        refine ⟨paired depth (s.name tag) (s.attributes tag own children) (body parts), ?_, ?_⟩
        · rw [draw, hunwraps, hleaf, hlenient]
          rfl
        · rw [draw, hunwraps, hleaf, hplain, hstrict, firstFault?_reached s hinner]
          simp only [map_barred]
          exact bind_barred _ _ () _

theorem drawAll_strict (depth : Nat) : ∀ ns : List Node, ∃ parts,
    s.drawAll .lenient depth ns = .ok parts ∧
      s.drawAll .strict depth ns = barred (s.firstFault? (s.reachedIn depth ns)) parts
  | [] => ⟨[], by rw [drawAll], by rw [drawAll, reachedIn]; rfl⟩
  | n :: ns => by
    obtain ⟨part, hpart, hpartStrict⟩ := draw_strict depth n
    obtain ⟨parts, hparts, hpartsStrict⟩ := drawAll_strict depth ns
    refine ⟨part :: parts, by rw [drawAll, hpart, hparts]; rfl, ?_⟩
    rw [drawAll, hpartStrict, hpartsStrict, reachedIn, firstFault?_append]
    simp only [map_barred]
    exact bind_barred _ _ part _

end

/-- Strict drawing succeeds where nothing that is reached is at fault, with the lenient text. -/
theorem draw_strict_eq_ok_iff {depth : Nat} {n : Node} {text : String} :
    s.draw .strict depth n = .ok text ↔
      s.draw .lenient depth n = .ok text ∧ ∀ visit ∈ s.reached depth n, s.fault? visit = none := by
  obtain ⟨whole, hlenient, hstrict⟩ := s.draw_strict depth n
  rw [hlenient, hstrict, ← List.findSome?_eq_none_iff, ← firstFault?]
  cases s.firstFault? (s.reached depth n) <;> simp [barred]

theorem isPlain_of_fault? {depth : Nat} {n : Node} {tag : String} (hkind : n.kind = .element tag)
    (hunwraps : s.unwraps depth tag = false) (h : s.fault? (depth, n) = none) :
    Tag.isPlain tag = true := by
  simpa [fault?, hkind, hunwraps] using h

end Style

/-- How strict outcomes relate to lenient ones where `visits` are the nodes reached and `nodes` all
nodes in pre-order. -/
structure Refines (s : Style) (visits : List (Nat × Node)) (nodes : List Node)
    (outcome : Mode → Except Error String) : Prop where
  lenient_succeeds : ∃ text, outcome .lenient = .ok text
  same_text : ∀ text, outcome .strict = .ok text → outcome .lenient = .ok text
  fails_iff : (∃ e, outcome .strict = .error e) ↔ ∃ visit ∈ visits, s.fault? visit ≠ none
  first_fault : ∀ e, outcome .strict = .error e → ∃ before visit after cause,
    visits = before ++ visit :: after ∧ (∀ v ∈ before, s.fault? v = none) ∧
      s.fault? visit = some cause ∧ e = .malformed cause
  in_preorder : (visits.map Prod.snd).Sublist nodes

/-- Outcomes of which the strict one is the lenient one barred by the first fault. -/
theorem Refines.of_barred {s : Style} {visits : List (Nat × Node)} {nodes : List Node}
    {outcome : Mode → Except Error String} (text : String)
    (horder : (visits.map Prod.snd).Sublist nodes) (hlenient : outcome .lenient = .ok text)
    (hstrict : outcome .strict = (barred (s.firstFault? visits) text).mapError Error.malformed) :
    Refines s visits nodes outcome := by
  cases hfault : s.firstFault? visits with
  | none =>
    rw [hfault] at hstrict
    have hclean := List.findSome?_eq_none_iff.1 hfault
    refine ⟨⟨text, hlenient⟩, ?_, ?_, ?_, horder⟩
    · intro text' h
      rw [hstrict] at h
      cases h
      exact hlenient
    · constructor
      · rintro ⟨e, he⟩
        rw [hstrict] at he
        cases he
      · rintro ⟨visit, hvisit, hne⟩
        exact absurd (hclean visit hvisit) hne
    · intro e he
      rw [hstrict] at he
      cases he
  | some cause =>
    rw [hfault] at hstrict
    obtain ⟨before, visit, after, hvisits, hcause, hbefore⟩ :=
      List.findSome?_eq_some_iff.1 hfault
    refine ⟨⟨text, hlenient⟩, ?_, ?_, ?_, horder⟩
    · intro text' h
      rw [hstrict] at h
      cases h
    · refine ⟨fun _ => ⟨visit, by simp [hvisits], by simp [hcause]⟩, fun _ => ⟨_, hstrict⟩⟩
    · intro e he
      rw [hstrict] at he
      cases he
      exact ⟨before, visit, after, cause, hvisits, hbefore, hcause, rfl⟩

end Markup

open Markup

/-- The options with another mode. -/
def Options.inMode (o : Options) (mode : Mode) : Options :=
  { o with mode }

/-- Strict rendering refines lenient rendering, for nodes at any depth on both paths, for app
modules and for component modules. -/
theorem Options.strict_refines_lenient (o : Options) :
    (∀ n depth, Refines .screen (Style.screen.reached depth n) n.nodes
      fun mode => (o.inMode mode).markup n depth) ∧
    (∀ tree : Tree, Refines .screen (Style.screen.reached 0 tree.root) tree.root.nodes
      fun mode => (o.inMode mode).appModule tree) ∧
    (∀ name n depth, Refines (.template name) ((Style.template name).reached depth n) n.nodes
      fun mode => (renderTemplate mode name depth n).mapError Error.malformed) ∧
    (∀ d : Definition, Refines (.template d.name) ((Style.template d.name).reachedIn 1 d.children)
      (Node.nodesIn d.children) fun mode => (o.inMode mode).componentModule d) := by
  refine ⟨?_, ?_, ?_, ?_⟩
  · intro n depth
    obtain ⟨text, hlenient, hstrict⟩ := Style.screen.draw_strict depth n
    refine .of_barred text (Style.reached_sublist_nodes _ depth n) ?_ ?_
    · simp only [markup, inMode, Style.render_eq_draw, hlenient]
      rfl
    · simp only [markup, inMode, Style.render_eq_draw, hstrict]
  · intro tree
    obtain ⟨text, hlenient, hstrict⟩ := Style.screen.draw_strict 0 tree.root
    refine .of_barred (o.appText tree text) (Style.reached_sublist_nodes _ 0 tree.root) ?_ ?_
    · simp only [appModule, markup, inMode, Style.render_eq_draw, hlenient]
      rfl
    · simp only [appModule, markup, inMode, Style.render_eq_draw, hstrict]
      cases Style.screen.firstFault? (Style.screen.reached 0 tree.root) <;> rfl
  · intro name n depth
    obtain ⟨text, hlenient, hstrict⟩ := (Style.template name).draw_strict depth n
    refine .of_barred text (Style.reached_sublist_nodes _ depth n) ?_ ?_
    · simp only [Style.renderTemplate_eq_draw, hlenient]
      rfl
    · simp only [Style.renderTemplate_eq_draw, hstrict]
  · intro d
    obtain ⟨parts, hlenient, hstrict⟩ := (Style.template d.name).drawAll_strict 1 d.children
    refine .of_barred (componentText d parts) (Style.reachedIn_sublist_nodes _ 1 d.children) ?_ ?_
    · simp only [componentModule, inMode, Style.renderTemplates_eq_drawAll, hlenient]
      rfl
    · simp only [componentModule, inMode, Style.renderTemplates_eq_drawAll, hstrict]
      cases (Style.template d.name).firstFault? _ <;> rfl

end ScreenTree
