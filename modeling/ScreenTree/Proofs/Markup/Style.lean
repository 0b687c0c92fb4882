import ScreenTree.Markup.Module
import ScreenTree.Proofs.Walk

/-! # Styles of writing

Screens and templates are written by one recursion, `Style.draw`; a style says in what they differ.
`Style.reached` lists the nodes that the recursion comes to, and `exists_within_of_reached` finds
the text of each of them in the whole. -/

namespace ScreenTree.Markup

/-- What one way of writing nodes decides. -/
structure Style where
  untyped : Malformed
  /-- The element is not written, but its children are. -/
  unwraps (depth : Nat) (tag : String) : Bool
  /-- The element is written as one tag, without its children. -/
  isLeaf (tag : String) : Bool
  name (tag : String) : String
  props (tag : String) (own : List Property) (children : List Node) : List Property
  attribute? (p : Property) : Option String

namespace Style

def screen : Style where
  untyped := .untyped
  unwraps _ _ := false
  isLeaf tag := if Tag.isComponent tag then !Tag.takesChildren tag else Tag.isVoid tag
  name tag := if Tag.isComponent tag then Tag.identifier tag else tag
  props tag own children :=
    if Tag.isComponent tag && !Tag.takesChildren tag then componentProps tag own children else own
  attribute? := Markup.attribute?

/-- The template of the definition with this name. -/
def template (name : String) : Style where
  untyped := .untypedTemplate
  unwraps depth tag := depth = 1 ∧ tag = name
  isLeaf := Tag.isVoid
  name tag := tag
  props _ own _ := own
  attribute? := templateAttribute?

def attributes (s : Style) (tag : String) (own : List Property) (children : List Node) : String :=
  Text.concat ((s.props tag own children).filterMap s.attribute?)

mutual

def draw (s : Style) (mode : Mode) (depth : Nat) : Node → Except Malformed String
  | ⟨_, .untyped, _, _, _⟩ => malformed mode s.untyped
  | ⟨_, .literal value, _, _, _⟩ => literal mode value
  | ⟨_, .group, _, _, children⟩ => (drawAll s mode depth children).map Text.joinLines
  | ⟨_, .element tag, own, _, children⟩ =>
    if s.unwraps depth tag then (drawAll s mode depth children).map Text.joinLines
    else
      (requirePlain mode tag).bind fun _ =>
        if s.isLeaf tag then .ok (single depth (s.name tag) (s.attributes tag own children))
        else
          (drawAll s mode (depth + 1) children).map fun parts =>
            paired depth (s.name tag) (s.attributes tag own children) (body parts)

def drawAll (s : Style) (mode : Mode) (depth : Nat) : List Node → Except Malformed (List String)
  | [] => .ok []
  | n :: ns =>
    (draw s mode depth n).bind fun part => (drawAll s mode depth ns).map (part :: ·)

end

/-- Nodes one after another are drawn up to the first one that cannot be drawn. -/
theorem drawAll_append (s : Style) (mode : Mode) (depth : Nat) (ns ms : List Node) :
    s.drawAll mode depth (ns ++ ms) =
      (s.drawAll mode depth ns).bind fun parts => (s.drawAll mode depth ms).map (parts ++ ·) := by
  induction ns with
  | nil =>
    rw [List.nil_append, drawAll]
    cases s.drawAll mode depth ms <;> rfl
  | cons n ns ih =>
    rw [List.cons_append, drawAll, drawAll, ih]
    cases s.draw mode depth n with
    | error e => rfl
    | ok part => cases s.drawAll mode depth ns <;> cases s.drawAll mode depth ms <;> rfl

mutual

theorem render_eq_draw (mode : Mode) (depth : Nat) :
    ∀ n : Node, render mode depth n = screen.draw mode depth n
  | ⟨_, .untyped, _, _, _⟩ => by rw [render, draw]; rfl
  | ⟨_, .literal _, _, _, _⟩ => by rw [render, draw]
  | ⟨_, .group, _, _, children⟩ => by rw [render, draw, renderAll_eq_drawAll]
  | ⟨_, .element tag, own, _, children⟩ => by
    have hchildren := renderAll_eq_drawAll mode (depth + 1) children
    rw [render, draw, hchildren]
    cases hcomponent : Tag.isComponent tag <;> cases htakes : Tag.takesChildren tag <;>
      simp [screen, attributes, Markup.attributes, hcomponent, htakes]

theorem renderAll_eq_drawAll (mode : Mode) (depth : Nat) :
    ∀ ns : List Node, renderAll mode depth ns = screen.drawAll mode depth ns
  | [] => by rw [renderAll, drawAll]
  | n :: ns => by rw [renderAll, drawAll, render_eq_draw, renderAll_eq_drawAll]

end

theorem markup_eq_ok_iff {options : Options} {n : Node} {depth : Nat} {text : String} :
    options.markup n depth = .ok text ↔ screen.draw options.mode depth n = .ok text := by
  rw [Options.markup, render_eq_draw]
  cases screen.draw options.mode depth n <;> simp [Except.mapError]

mutual

theorem renderTemplate_eq_draw (mode : Mode) (name : String) (depth : Nat) :
    ∀ n : Node, renderTemplate mode name depth n = (template name).draw mode depth n
  | ⟨_, .untyped, _, _, _⟩ => by rw [renderTemplate, draw]; rfl
  | ⟨_, .literal _, _, _, _⟩ => by rw [renderTemplate, draw]
  | ⟨_, .group, _, _, children⟩ => by rw [renderTemplate, draw, renderTemplates_eq_drawAll]
  | ⟨_, .element tag, own, _, children⟩ => by
    have hsame := renderTemplates_eq_drawAll mode name depth children
    have hdeeper := renderTemplates_eq_drawAll mode name (depth + 1) children
    rw [renderTemplate, draw, hsame, hdeeper]
    simp [template, attributes, templateAttributes]

theorem renderTemplates_eq_drawAll (mode : Mode) (name : String) (depth : Nat) :
    ∀ ns : List Node, renderTemplates mode name depth ns = (template name).drawAll mode depth ns
  | [] => by rw [renderTemplates, drawAll]
  | n :: ns => by
    rw [renderTemplates, drawAll, renderTemplate_eq_draw, renderTemplates_eq_drawAll]

end

/-- Every attribute of a screen sets itself off from what stands before it. -/
theorem head?_attribute? {p : Property} {text : String} (h : Markup.attribute? p = some text) :
    text.toList.head? = some ' ' := by
  rw [Markup.attribute?] at h
  obtain ⟨value, -, h⟩ := Option.bind_eq_some_iff.1 h
  split at h
  · split at h
    · cases h
      simp
    · cases h
  · cases h
    simp
  · cases h
    simp

theorem head?_concat {parts : List String} (h : ∀ part ∈ parts, part.toList.head? = some ' ') :
    ∀ c ∈ (Text.concat parts).toList.head?, c = ' ' := by
  cases parts with
  | nil => nofun
  | cons part parts =>
    have hpart := h part List.mem_cons_self
    intro c hc
    rw [Text.concat, String.toList_append, List.head?_append, hpart] at hc
    exact (Option.some.inj hc).symm

theorem head?_attributes (tag : String) (own : List Property) (children : List Node) :
    ∀ c ∈ (screen.attributes tag own children).toList.head?, c = ' ' := by
  refine head?_concat ?_
  intro text htext
  obtain ⟨p, -, hp⟩ := List.mem_filterMap.1 htext
  exact head?_attribute? hp

/-! ## Reached nodes -/

/-- The depth at which the children of a node are drawn, if they are. -/
def childDepth? (s : Style) (depth : Nat) : Kind → Option Nat
  | .group => some depth
  | .element tag =>
    if s.unwraps depth tag then some depth
    else if s.isLeaf tag then none
    else some (depth + 1)
  | .literal _ | .untyped => none

mutual

/-- The nodes that are drawn with a node, each with its depth, in pre-order. -/
def reached (s : Style) (depth : Nat) : Node → List (Nat × Node)
  | ⟨id, kind, props, state, children⟩ =>
    (depth, ⟨id, kind, props, state, children⟩) ::
      match s.childDepth? depth kind with
      | some inner => reachedIn s inner children
      | none => []

def reachedIn (s : Style) (depth : Nat) : List Node → List (Nat × Node)
  | [] => []
  | n :: ns => reached s depth n ++ reachedIn s depth ns

end

variable {s : Style}

theorem childDepth?_of_unwraps {depth : Nat} {tag : String} (h : s.unwraps depth tag = true) :
    s.childDepth? depth (.element tag) = some depth := by
  simp [childDepth?, h]

theorem childDepth?_of_isLeaf {depth : Nat} {tag : String} (hunwraps : s.unwraps depth tag = false)
    (hleaf : s.isLeaf tag = true) : s.childDepth? depth (.element tag) = none := by
  simp [childDepth?, hunwraps, hleaf]

theorem childDepth?_of_isLeaf_eq_false {depth : Nat} {tag : String}
    (hunwraps : s.unwraps depth tag = false) (hleaf : s.isLeaf tag = false) :
    s.childDepth? depth (.element tag) = some (depth + 1) := by
  simp [childDepth?, hunwraps, hleaf]

theorem reached_of_childDepth? {depth inner : Nat} {n : Node}
    (h : s.childDepth? depth n.kind = some inner) :
    s.reached depth n = (depth, n) :: s.reachedIn inner n.children := by
  cases n
  rw [reached]
  simp only at h
  simp only [h]

theorem reached_of_childDepth?_eq_none {depth : Nat} {n : Node}
    (h : s.childDepth? depth n.kind = none) : s.reached depth n = [(depth, n)] := by
  cases n
  rw [reached]
  simp only at h
  simp only [h]

theorem self_mem_reached (s : Style) (depth : Nat) (n : Node) : (depth, n) ∈ s.reached depth n := by
  cases n
  rw [reached]
  exact List.mem_cons_self

mutual

/-- What is drawn lies on the traversal that stops at literals only. -/
theorem reached_sublist_entered (s : Style) (depth : Nat) :
    ∀ n : Node, ((s.reached depth n).map Prod.snd).Sublist n.entered
  | ⟨id, kind, props, state, children⟩ => by
    rw [reached, List.map_cons, Node.entered]
    cases kind with
    | untyped =>
      rw [Node.walk]
      exact (List.nil_sublist _).cons_cons _
    | literal value =>
      rw [Node.walk]
      exact (List.nil_sublist _).cons_cons _
    | group =>
      rw [Node.walk]
      exact (reachedIn_sublist_entered s depth children).cons_cons _
    | element tag =>
      rw [Node.walk]
      refine List.Sublist.cons_cons _ ?_
      cases hinner : s.childDepth? depth (.element tag) with
      | none => exact List.nil_sublist _
      | some inner => exact reachedIn_sublist_entered s inner children

theorem reachedIn_sublist_entered (s : Style) (depth : Nat) :
    ∀ ns : List Node, ((s.reachedIn depth ns).map Prod.snd).Sublist
      (Node.walkList (fun _ => false) ns)
  | [] => by
    rw [reachedIn]
    exact List.nil_sublist _
  | n :: ns => by
    rw [reachedIn, List.map_append, Node.walkList]
    exact (reached_sublist_entered s depth n).append (reachedIn_sublist_entered s depth ns)

end

theorem reached_sublist_nodes (s : Style) (depth : Nat) (n : Node) :
    ((s.reached depth n).map Prod.snd).Sublist n.nodes :=
  (reached_sublist_entered s depth n).trans (Node.walk_sublist_nodes _ n)

theorem reachedIn_sublist_nodes (s : Style) (depth : Nat) (ns : List Node) :
    ((s.reachedIn depth ns).map Prod.snd).Sublist (Node.nodesIn ns) :=
  (reachedIn_sublist_entered s depth ns).trans (Node.walkList_sublist_nodes _ ns)

/-! ## The text of a reached node -/

theorem exists_of_map_eq_ok {ε α β : Type} {x : Except ε α} {f : α → β} {b : β}
    (h : x.map f = .ok b) : ∃ a, x = .ok a ∧ f a = b := by
  cases x with
  | error e => cases h
  | ok a => exact ⟨a, rfl, Except.ok.inj h⟩

theorem exists_of_bind_eq_ok {ε α β : Type} {x : Except ε α} {f : α → Except ε β} {b : β}
    (h : x.bind f = .ok b) : ∃ a, x = .ok a ∧ f a = .ok b := by
  cases x with
  | error e => cases h
  | ok a => exact ⟨a, rfl, h⟩

theorem isBlank_eq_false_of_within {part whole : String} (h : part.toList <:+: whole.toList)
    (hpart : Text.isBlank part = false) : Text.isBlank whole = false := by
  rw [Text.isBlank, List.all_eq_false] at hpart ⊢
  obtain ⟨c, hc, hspace⟩ := hpart
  exact ⟨c, h.subset hc, hspace⟩

theorem within_joinLines {part : String} {parts : List String} (h : part ∈ parts) :
    part.toList <:+: (Text.joinLines parts).toList := by
  rw [Text.joinLines]
  induction parts with
  | nil => cases h
  | cons first rest ih =>
    cases rest with
    | nil =>
      cases List.mem_singleton.1 h
      exact List.infix_rfl
    | cons second rest =>
      rw [Text.join, String.toList_append, String.toList_append]
      · rcases List.mem_cons.1 h with rfl | h
        · rw [List.append_assoc]
          exact (List.prefix_append _ _).isInfix
        · exact (ih h).trans (List.suffix_append _ _).isInfix
      · simp

theorem within_body {part : String} {parts : List String} (h : part ∈ parts)
    (hpart : Text.isBlank part = false) : part.toList <:+: (body parts).toList := by
  refine within_joinLines (List.mem_filter.2 ⟨h, ?_⟩)
  rw [Bool.not_eq_true', ← Bool.not_eq_true]
  intro hempty
  rw [String.isEmpty_iff.1 hempty] at hpart
  cases hpart

theorem within_paired (depth : Nat) (name attrs : String) {inside : String}
    (h : Text.isBlank inside = false) :
    inside.toList <:+: (paired depth name attrs inside).toList := by
  have hlines : paired depth name attrs inside =
      (indent depth ++ "<" ++ name ++ attrs ++ ">\n") ++ inside ++
        ("\n" ++ indent depth ++ "</" ++ name ++ ">") := by
    simp [paired, h, String.append_assoc]
  rw [hlines, String.toList_append, String.toList_append]
  exact List.infix_append _ _ _

theorem isBlank_single (depth : Nat) (name attrs : String) :
    Text.isBlank (single depth name attrs) = false := by
  have hmark : '<' ∈ (single depth name attrs).toList := by simp [single]
  exact List.all_eq_false.2 ⟨'<', hmark, by decide⟩

theorem isBlank_paired (depth : Nat) (name attrs inside : String) :
    Text.isBlank (paired depth name attrs inside) = false := by
  have hmark : '<' ∈ (paired depth name attrs inside).toList := by
    rw [paired]
    split <;> simp
  exact List.all_eq_false.2 ⟨'<', hmark, by decide⟩

/-- What the text of an element looks like. -/
theorem drawn_element {mode : Mode} {depth : Nat} {id : Option String} {tag : String}
    {own : List Property} {state : List Json} {children : List Node} {text : String}
    (hunwraps : s.unwraps depth tag = false)
    (h : s.draw mode depth ⟨id, .element tag, own, state, children⟩ = .ok text) :
    requirePlain mode tag = .ok () ∧
      (s.isLeaf tag = true ∧
          text = single depth (s.name tag) (s.attributes tag own children) ∨
        s.isLeaf tag = false ∧ ∃ parts, s.drawAll mode (depth + 1) children = .ok parts ∧
          text = paired depth (s.name tag) (s.attributes tag own children) (body parts)) := by
  rw [draw, hunwraps] at h
  obtain ⟨_, hplain, h⟩ := exists_of_bind_eq_ok h
  refine ⟨hplain, ?_⟩
  cases hleaf : s.isLeaf tag with
  | true =>
    rw [hleaf] at h
    exact .inl ⟨rfl, (Except.ok.inj h).symm⟩
  | false =>
    rw [hleaf] at h
    obtain ⟨parts, hparts, htext⟩ := exists_of_map_eq_ok h
    exact .inr ⟨rfl, parts, hparts, htext.symm⟩

/-- The texts of the children that are drawn are in the text of the node, blank ones apart. -/
theorem exists_parts_of_draw {mode : Mode} {depth inner : Nat} {n : Node} {text : String}
    (hinner : s.childDepth? depth n.kind = some inner) (h : s.draw mode depth n = .ok text) :
    ∃ parts, s.drawAll mode inner n.children = .ok parts ∧
      ∀ part ∈ parts, Text.isBlank part = false → part.toList <:+: text.toList := by
  obtain ⟨id, kind, own, state, children⟩ := n
  cases kind with
  | untyped => cases hinner
  | literal value => cases hinner
  | group =>
    cases hinner
    rw [draw] at h
    obtain ⟨parts, hparts, rfl⟩ := exists_of_map_eq_ok h
    exact ⟨parts, hparts, fun part hpart _ => within_joinLines hpart⟩
  | element tag =>
    cases hunwraps : s.unwraps depth tag with
    | true =>
      cases (childDepth?_of_unwraps hunwraps).symm.trans hinner
      rw [draw, hunwraps] at h
      obtain ⟨parts, hparts, rfl⟩ := exists_of_map_eq_ok h
      exact ⟨parts, hparts, fun part hpart _ => within_joinLines hpart⟩
    | false =>
      obtain ⟨-, ⟨hleaf, -⟩ | ⟨hleaf, parts, hparts, rfl⟩⟩ := drawn_element hunwraps h
      · cases (childDepth?_of_isLeaf hunwraps hleaf).symm.trans hinner
      · cases (childDepth?_of_isLeaf_eq_false hunwraps hleaf).symm.trans hinner
        refine ⟨parts, hparts, ?_⟩
        intro part hpart hblank
        have hbody := within_body hpart hblank
        exact hbody.trans (within_paired _ _ _ (isBlank_eq_false_of_within hbody hblank))

mutual

/-- The text of a reached node is in the whole text, unless it is blank. -/
theorem exists_within_of_reached {mode : Mode} :
    ∀ {depth : Nat} {n : Node} {text : String}, s.draw mode depth n = .ok text →
      ∀ {d : Nat} {m : Node}, (d, m) ∈ s.reached depth n →
        ∃ part, s.draw mode d m = .ok part ∧
          (Text.isBlank part = false → part.toList <:+: text.toList)
  | depth, ⟨id, kind, own, state, children⟩, text, h, d, m, hm => by
    cases hinner : s.childDepth? depth kind with
    | none =>
      rw [reached_of_childDepth?_eq_none hinner] at hm
      cases List.mem_singleton.1 hm
      exact ⟨text, h, fun _ => List.infix_rfl⟩
    | some inner =>
      rw [reached_of_childDepth? hinner] at hm
      rcases List.mem_cons.1 hm with hself | hm
      · cases hself
        exact ⟨text, h, fun _ => List.infix_rfl⟩
      · obtain ⟨parts, hparts, hwithin⟩ := exists_parts_of_draw hinner h
        obtain ⟨part, whole, hpart, hwhole, hin⟩ := exists_within_of_reachedIn hparts hm
        refine ⟨part, hpart, ?_⟩
        intro hblank
        have hpartWhole := hin hblank
        exact hpartWhole.trans (hwithin whole hwhole (isBlank_eq_false_of_within hpartWhole hblank))

theorem exists_within_of_reachedIn {mode : Mode} :
    ∀ {depth : Nat} {ns : List Node} {parts : List String}, s.drawAll mode depth ns = .ok parts →
      ∀ {d : Nat} {m : Node}, (d, m) ∈ s.reachedIn depth ns →
        ∃ part whole, s.draw mode d m = .ok part ∧ whole ∈ parts ∧
          (Text.isBlank part = false → part.toList <:+: whole.toList)
  | _, [], _, _, _, _, hm => by
    rw [reachedIn] at hm
    cases hm
  | depth, n :: ns, parts, h, d, m, hm => by
    rw [drawAll] at h
    obtain ⟨first, hfirst, h⟩ := exists_of_bind_eq_ok h
    obtain ⟨rest, hrest, rfl⟩ := exists_of_map_eq_ok h
    rw [reachedIn] at hm
    rcases List.mem_append.1 hm with hm | hm
    · obtain ⟨part, hpart, hin⟩ := exists_within_of_reached hfirst hm
      exact ⟨part, first, hpart, List.mem_cons_self, hin⟩
    · obtain ⟨part, whole, hpart, hwhole, hin⟩ := exists_within_of_reachedIn hrest hm
      exact ⟨part, whole, hpart, List.mem_cons_of_mem _ hwhole, hin⟩

end

end Style
end ScreenTree.Markup
