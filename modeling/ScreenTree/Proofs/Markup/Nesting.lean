import ScreenTree.Proofs.Markup.Legible
import ScreenTree.Proofs.Markup.Style

/-! # Nesting of the markup

From the markup of a node the elements that are reached are read back as they are nested in the
node, if no name of a property, value or literal brings in a bracket of its own. -/

namespace ScreenTree.Markup

/-- Wherever the parts stand, the tags of all of them are read as these elements. -/
inductive SpellsAll : List String → List Outline → Prop
  | nil : SpellsAll [] []
  | cons {part : String} {parts : List String} {outlines others : List Outline} :
      Spells part.toList outlines → SpellsAll parts others →
        SpellsAll (part :: parts) (outlines ++ others)

namespace SpellsAll

variable {parts : List String} {outlines : List Outline}

theorem joinLines (h : SpellsAll parts outlines) :
    Spells (Text.joinLines parts).toList outlines := by
  rw [Text.joinLines]
  induction h with
  | nil => exact .of_not_mem (by decide)
  | @cons part rest _ _ hpart hrest ih =>
    cases hrest with
    | nil =>
      rw [List.append_nil, Text.join]
      exact hpart
    | cons _ _ =>
      have hnewline : Spells ['\n'] [] := .of_not_mem (by decide)
      have hline := hpart.append hnewline
      rw [Text.join, String.toList_append, String.toList_append]
      · rw [List.append_nil] at hline
        exact hline.append ih
      · simp

theorem nonempty (h : SpellsAll parts outlines) :
    SpellsAll (parts.filter fun s => !s.isEmpty) outlines := by
  induction h with
  | nil => exact .nil
  | @cons part rest own others hpart hrest ih =>
    cases hempty : part.isEmpty with
    | true =>
      have hown : own = [] := hpart.eq_nil (by simp [String.isEmpty_iff.1 hempty])
      rw [List.filter_cons_of_neg (by simp [hempty]), hown, List.nil_append]
      exact ih
    | false =>
      rw [List.filter_cons_of_pos (by simp [hempty])]
      exact .cons hpart ih

theorem body (h : SpellsAll parts outlines) : Spells (body parts).toList outlines :=
  h.nonempty.joinLines

end SpellsAll

theorem not_mem_indent (depth : Nat) : '<' ∉ (indent depth).toList := by
  simp [indent]

section

variable {depth : Nat} {name attrs inside : String} {outlines : List Outline}

theorem spells_single (hname : IsName name.toList) (hattrs : IsAttributes attrs.toList) :
    Spells (single depth name attrs).toList [.element name []] := by
  have hno : '>' ∉ name.toList := hname.not_mem rfl
  have hmark : '>' ∉ name.toList ++ attrs.toList ++ [' ', '/'] := by
    simp [hno, hattrs.no_bracket]
  have htoken := Token.ofMark_single hname hattrs
  rw [String.ofList_toList] at htoken
  have hspells := (Spells.of_not_mem (not_mem_indent depth)).append (.mark hmark htoken)
  have htext : (single depth name attrs).toList =
      (indent depth).toList ++ ('<' :: (name.toList ++ attrs.toList ++ [' ', '/']) ++ ['>']) := by
    simp [single]
  rw [htext]
  exact hspells

theorem spells_paired (hname : IsName name.toList) (hattrs : IsAttributes attrs.toList)
    (hinside : Spells inside.toList outlines) :
    Spells (paired depth name attrs inside).toList [.element name outlines] := by
  have hno : '>' ∉ name.toList := hname.not_mem rfl
  have hstart : '>' ∉ name.toList ++ attrs.toList := by
    simp [hno, hattrs.no_bracket]
  have hstop : '>' ∉ '/' :: name.toList := by
    simp [hno]
  have hopening := Token.ofMark_opening hname hattrs
  have hclosing := Token.ofMark_closing hname
  rw [String.ofList_toList] at hopening hclosing
  have hindent := not_mem_indent depth
  have henclose {text : List Char} (htext : Spells text outlines) :=
    (Spells.of_not_mem hindent).append (htext.enclose hstart hopening hstop hclosing)
  cases hblank : Text.isBlank inside with
  | true =>
    have hno : '<' ∉ inside.toList := by
      intro hmem
      have hspace := List.all_eq_true.1 hblank _ hmem
      cases hspace
    have houtlines : outlines = [] := hinside.eq_nil hno
    have htext : (paired depth name attrs inside).toList = (indent depth).toList ++
        ('<' :: (name.toList ++ attrs.toList) ++ ['>'] ++ [] ++
          ('<' :: '/' :: name.toList ++ ['>'])) := by
      simp [paired, hblank]
    rw [htext]
    exact henclose (houtlines ▸ .of_not_mem (by decide))
  | false =>
    have hbody : Spells (['\n'] ++ inside.toList ++ ('\n' :: (indent depth).toList)) outlines :=
      hinside.pad (by decide) (by simp [hindent])
    have htext : (paired depth name attrs inside).toList = (indent depth).toList ++
        ('<' :: (name.toList ++ attrs.toList) ++ ['>'] ++
          (['\n'] ++ inside.toList ++ ('\n' :: (indent depth).toList)) ++
          ('<' :: '/' :: name.toList ++ ['>'])) := by
      simp [paired, hblank]
    rw [htext]
    exact henclose hbody

end

/-! ## What is written for a node -/

namespace Style

/-- What a node of this kind makes of the elements among its children. -/
def placed (s : Style) (depth : Nat) (kind : Kind) (inside : List Outline) : List Outline :=
  match kind with
  | .element tag => if s.unwraps depth tag then inside else [.element (s.name tag) inside]
  | .group | .literal _ | .untyped => inside

mutual

/-- The elements among the nodes that are drawn with a node, as they are nested in it. -/
def outline (s : Style) (depth : Nat) : Node → List Outline
  | ⟨_, kind, _, _, children⟩ =>
    s.placed depth kind <|
      match s.childDepth? depth kind with
      | some inner => outlineIn s inner children
      | none => []

def outlineIn (s : Style) (depth : Nat) : List Node → List Outline
  | [] => []
  | n :: ns => outline s depth n ++ outlineIn s depth ns

end

/-- The style leaves plain names plain and writes legible properties as attributes. -/
structure WritesTags (s : Style) : Prop where
  name : ∀ tag, Tag.isPlain tag = true → IsName (s.name tag).toList
  attributes : ∀ p : Property, p.IsLegible → ∀ text ∈ s.attribute? p, IsAttributes text.toList

theorem screen_writesTags : screen.WritesTags where
  name := by
    intro tag hplain
    cases hcomponent : Tag.isComponent tag with
    | true =>
      have hname : screen.name tag = Tag.identifier tag := if_pos hcomponent
      rw [hname]
      exact isName_identifier hplain
    | false =>
      have hname : screen.name tag = tag := if_neg (by simp [hcomponent])
      rw [hname]
      exact isName_of_isPlain hplain
  attributes := fun _ => isAttributes_attribute?

/-- What a node itself adds to the text cannot be taken for a part of a tag. -/
def IsLegible (s : Style) (n : Node) : Prop :=
  match n.kind with
  | .element tag => ∀ p ∈ s.props tag n.props n.children, p.IsLegible
  | .literal value => ∀ v ∈ value, Unangled v.markupText
  | .group | .untyped => True

variable {s : Style}

theorem isAttributes_attributes (hs : s.WritesTags) {tag : String} {own : List Property}
    {children : List Node} (h : ∀ p ∈ s.props tag own children, p.IsLegible) :
    IsAttributes (s.attributes tag own children).toList := by
  refine isAttributes_concat ?_
  intro text htext
  obtain ⟨p, hp, hwritten⟩ := List.mem_filterMap.1 htext
  exact hs.attributes p (h p hp) text hwritten

theorem isPlain_of_requirePlain {tag : String} (h : requirePlain .strict tag = .ok ()) :
    Tag.isPlain tag = true := by
  cases hplain : Tag.isPlain tag with
  | true => rfl
  | false => simp [requirePlain, hplain] at h

mutual

theorem spells_draw (hs : s.WritesTags) : ∀ {depth : Nat} {n : Node} {text : String},
    s.draw .strict depth n = .ok text → (∀ visit ∈ s.reached depth n, s.IsLegible visit.2) →
      Spells text.toList (s.outline depth n)
  | depth, ⟨id, kind, own, state, children⟩, text, h, hlegible => by
    cases kind with
    | untyped =>
      rw [draw] at h
      cases h
    | literal value =>
      rw [draw] at h
      cases value with
      | none => cases h
      | some v =>
        have hv : ∀ w ∈ some v, Unangled w.markupText := hlegible (depth, _) List.mem_cons_self
        exact .of_not_mem (not_mem_literal h (hv v rfl))
    | group =>
      rw [draw] at h
      obtain ⟨parts, hparts, rfl⟩ := exists_of_map_eq_ok h
      have hall := spells_drawAll hs hparts fun visit hvisit =>
        hlegible visit (List.mem_cons_of_mem _ hvisit)
      exact hall.joinLines
    | element tag =>
      rw [outline, placed]
      cases hunwraps : s.unwraps depth tag with
      | true =>
        have hinner := childDepth?_of_unwraps hunwraps
        rw [draw, hunwraps] at h
        obtain ⟨parts, hparts, rfl⟩ := exists_of_map_eq_ok h
        rw [reached_of_childDepth? hinner] at hlegible
        have hall := spells_drawAll hs hparts fun visit hvisit =>
          hlegible visit (List.mem_cons_of_mem _ hvisit)
        rw [hinner]
        exact hall.joinLines
      | false =>
        obtain ⟨hplain, hwritten⟩ := drawn_element hunwraps h
        have hname := hs.name tag (isPlain_of_requirePlain hplain)
        have hself : ∀ p ∈ s.props tag own children, p.IsLegible :=
          hlegible (depth, _) List.mem_cons_self
        have hattrs := isAttributes_attributes hs hself
        obtain ⟨hleaf, rfl⟩ | ⟨hleaf, parts, hparts, rfl⟩ := hwritten
        · have hinner := childDepth?_of_isLeaf hunwraps hleaf
          rw [hinner]
          exact spells_single hname hattrs
        · have hinner := childDepth?_of_isLeaf_eq_false hunwraps hleaf
          rw [reached_of_childDepth? hinner] at hlegible
          have hall := spells_drawAll hs hparts fun visit hvisit =>
            hlegible visit (List.mem_cons_of_mem _ hvisit)
          rw [hinner]
          exact spells_paired hname hattrs hall.body

theorem spells_drawAll (hs : s.WritesTags) : ∀ {depth : Nat} {ns : List Node} {parts : List String},
    s.drawAll .strict depth ns = .ok parts →
      (∀ visit ∈ s.reachedIn depth ns, s.IsLegible visit.2) →
        SpellsAll parts (s.outlineIn depth ns)
  | _, [], _, h, _ => by
    rw [drawAll] at h
    cases h
    exact .nil
  | depth, n :: ns, parts, h, hlegible => by
    rw [drawAll] at h
    obtain ⟨first, hfirst, h⟩ := exists_of_bind_eq_ok h
    obtain ⟨rest, hrest, rfl⟩ := exists_of_map_eq_ok h
    rw [reachedIn] at hlegible
    obtain ⟨hn, hns⟩ := List.forall_mem_append.1 hlegible
    exact .cons (spells_draw hs hfirst hn) (spells_drawAll hs hrest hns)

end

theorem promotion?_legible {tag name : String} (h : Tag.promotion? tag = some name) :
    Unangled name ∧ '/' ∉ name.toList := by
  obtain ⟨before, after, hentries, -⟩ := List.lookup_eq_some_iff.1 h
  have hmem : (tag, name) ∈ Tag.promotions := by
    rw [hentries]
    exact List.mem_append_right _ List.mem_cons_self
  have hall : ∀ entry ∈ Tag.promotions, Unangled entry.2 ∧ '/' ∉ entry.2.toList := by
    simp [Tag.promotions, Unangled]
  exact hall _ hmem

theorem legible_of_mem_promoted {name : String} {children : List Node} {p : Property}
    (hname : Unangled name ∧ '/' ∉ name.toList)
    (hliterals : ∀ c ∈ children, ∀ v ∈ c.kind.value?, Unangled v.markupText)
    (h : p ∈ promoted name children) : p.IsLegible := by
  obtain ⟨c, hc, hp⟩ := List.mem_filterMap.1 h
  cases hkind : c.kind with
  | untyped | group | element _ =>
    rw [hkind] at hp
    cases hp
  | literal value =>
    have hvalue := hliterals c hc
    rw [hkind] at hp hvalue
    cases hp
    refine ⟨hname.1, hname.2, ?_⟩
    intro text htext
    cases value with
    | none => cases htext
    | some v =>
      cases htext
      exact hvalue v rfl

/-- Without a bracket in the names and values of properties and in literals, all that is drawn is
legible. -/
theorem screen_legible_of_entered {n : Node} {depth : Nat}
    (h : ∀ m ∈ n.entered,
      (∀ p ∈ m.props, p.IsLegible) ∧ ∀ v ∈ m.kind.value?, Unangled v.markupText) :
    ∀ visit ∈ screen.reached depth n, screen.IsLegible visit.2 := by
  rintro ⟨d, m⟩ hvisit
  have hm : m ∈ n.entered :=
    (reached_sublist_entered screen depth n).subset (List.mem_map_of_mem hvisit)
  obtain ⟨hprops, hvalue⟩ := h m hm
  rw [IsLegible]
  cases hkind : m.kind with
  | untyped | group => trivial
  | literal value =>
    rw [hkind] at hvalue
    exact hvalue
  | element tag =>
    have hchildren : ∀ c ∈ m.children, ∀ v ∈ c.kind.value?, Unangled v.markupText := by
      intro c hc
      exact (h c (Node.child_mem_entered hm (by rw [hkind]; rfl) hc)).2
    intro p hp
    simp only [screen] at hp
    split at hp
    · rw [componentProps] at hp
      split at hp
      · rename_i name hpromotion
        rcases List.mem_append.1 hp with hp | hp
        · exact hprops p hp
        · exact legible_of_mem_promoted (promotion?_legible hpromotion) hchildren hp
      · exact hprops p hp
    · exact hprops p hp

end Style

/-- From the markup of a node in strict mode the elements that are reached are read back, each
under its name, as they are nested in the node without regard to groups. -/
theorem read_markup {options : Options} (hstrict : options.mode = .strict) {depth : Nat} {n : Node}
    {text : String} (h : options.markup n depth = .ok text)
    (hlegible : ∀ visit ∈ Style.screen.reached depth n, Style.screen.IsLegible visit.2) :
    Outline.read? text = some (Style.screen.outline depth n) := by
  have hdraw := Style.markup_eq_ok_iff.1 h
  rw [hstrict] at hdraw
  exact (Style.spells_draw Style.screen_writesTags hdraw hlegible).read?

/-- A void element and a literal in a group, a component with a promoted child and a dropped one,
and a component with an empty element in it. -/
theorem read_markup_of_screen :
    let row := Node.group.withChildren [Node.element "br", Node.literal (.text "$total")]
    let save := ((Node.element "button").withProps
      [Property.typed "wide" .boolean (.bool true)]).withChildren
        [Node.literal (.text "Save"), Node.element "div"]
    let frame := ((Node.element "div").withProps
      [Property.ofValue "href" (.text "/a")]).withChildren
        [row, save, (Node.element "container").withChildren [Node.element "p"]]
    let n := Node.root.withChildren [frame, Node.element "card"]
    Options.strict.mode = .strict ∧
      (∀ visit ∈ Style.screen.reached 0 n, Style.screen.IsLegible visit.2) ∧
      ∃ text, Options.strict.markup n 0 = .ok text ∧
        Outline.read? text = some [
          .element "div" [
            .element "br" [], .element "Button" [], .element "Container" [.element "p" []]],
          .element "Card" []] := by
  intro row save frame n
  have hmarkup : Options.strict.markup n 0 = .ok (
      "<div href=\"/a\">\n  <br />\n\x7btotal\x7d\n  <Button wide text=\"Save\" />\n" ++
      "  <Container>\n    <p></p>\n  </Container>\n</div>\n<Card />") := by
    decide +kernel
  have hlegible : ∀ visit ∈ Style.screen.reached 0 n, Style.screen.IsLegible visit.2 :=
    Style.screen_legible_of_entered (by decide)
  have houtline : Style.screen.outline 0 n = [
      .element "div" [
        .element "br" [], .element "Button" [], .element "Container" [.element "p" []]],
      .element "Card" []] := by
    rfl
  exact ⟨rfl, hlegible, _, hmarkup, houtline ▸ read_markup rfl hmarkup hlegible⟩

end ScreenTree.Markup
