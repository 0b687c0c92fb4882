import ScreenTree.Proofs.Markup.Style

/-! # Styles that agree

Two styles that write each element alike that the recursion comes to write the same text, or fail at
the same node. So templates are written like screens where no element is a component, no property is
a reference, and no element at the first level bears the name of the definition. -/

namespace ScreenTree

/-- The cause as it is stated on a screen. -/
def Malformed.onScreen : Malformed → Malformed
  | .untyped | .untypedTemplate => .untyped
  | .literalWithoutValue => .literalWithoutValue
  | .invalidTag tag => .invalidTag tag

namespace Markup

theorem mapError_bind {ε ε' α β : Type} (x : Except ε α) (f : α → Except ε β) (g : ε → ε') :
    (x.bind f).mapError g = (x.mapError g).bind fun a => (f a).mapError g := by
  cases x <;> rfl

theorem mapError_map {ε ε' α β : Type} (x : Except ε α) (f : α → β) (g : ε → ε') :
    (x.map f).mapError g = (x.mapError g).map f := by
  cases x <;> rfl

namespace Style

/-- Both styles write the node alike, if it is an element. -/
def AgreesAt (s t : Style) : Nat × Node → Prop
  | (depth, n) => ∀ tag, n.kind = .element tag →
    s.unwraps depth tag = t.unwraps depth tag ∧ s.isLeaf tag = t.isLeaf tag ∧
      s.name tag = t.name tag ∧
      s.attributes tag n.props n.children = t.attributes tag n.props n.children

/-- The words of one style for what is malformed, in those of another one. -/
structure Translates (s t : Style) (word : Malformed → Malformed) : Prop where
  untyped : word s.untyped = t.untyped
  literal : word .literalWithoutValue = .literalWithoutValue
  tag (tag : String) : word (.invalidTag tag) = .invalidTag tag

variable {s t : Style} {word : Malformed → Malformed}

theorem Translates.literal_eq (h : s.Translates t word) (mode : Mode) (value : Option Value) :
    (Markup.literal mode value).mapError word = Markup.literal mode value := by
  cases value with
  | none => cases mode <;> simp [Markup.literal, malformed, Except.mapError, h.literal]
  | some v => cases hreference : v.reference? <;> simp [Markup.literal, hreference, Except.mapError]

theorem Translates.requirePlain_eq (h : s.Translates t word) (mode : Mode) (tag : String) :
    (requirePlain mode tag).mapError word = requirePlain mode tag := by
  rw [requirePlain]
  split
  · simp [Except.mapError, h.tag]
  · rfl

mutual

/-- Styles that agree at all nodes that are reached write the same text, or name the same node. -/
theorem draw_eq_of_agrees (hword : s.Translates t word) (mode : Mode) :
    ∀ {depth : Nat} {n : Node}, (∀ visit ∈ s.reached depth n, s.AgreesAt t visit) →
      (s.draw mode depth n).mapError word = t.draw mode depth n
  | depth, ⟨id, .untyped, own, state, children⟩, _ => by
    rw [draw, draw]
    cases mode <;> simp [malformed, Except.mapError, hword.untyped]
  | depth, ⟨id, .literal value, own, state, children⟩, _ => by
    rw [draw, draw, hword.literal_eq]
  | depth, ⟨id, .group, own, state, children⟩, h => by
    have hinner : s.childDepth? depth .group = some depth := rfl
    rw [reached_of_childDepth? hinner, List.forall_mem_cons] at h
    rw [draw, draw, mapError_map, drawAll_eq_of_agrees hword mode h.2]
  | depth, ⟨id, .element tag, own, state, children⟩, h => by
    obtain ⟨hunwraps, hleaf, hname, hattributes⟩ := h _ (self_mem_reached s depth _) tag rfl
    have hchildren : ∀ inner, s.childDepth? depth (.element tag) = some inner →
        (s.drawAll mode inner children).mapError word = t.drawAll mode inner children := by
      intro inner hinner
      rw [reached_of_childDepth? hinner, List.forall_mem_cons] at h
      exact drawAll_eq_of_agrees hword mode h.2
    rw [draw, draw, ← hunwraps, ← hleaf, ← hname]
    cases hwrapped : s.unwraps depth tag with
    | true =>
      rw [if_pos rfl, if_pos rfl, mapError_map, hchildren _ (childDepth?_of_unwraps hwrapped)]
    | false =>
      simp only [Bool.false_eq_true, if_false]
      rw [mapError_bind, hword.requirePlain_eq]
      congr 1
      funext _
      cases hsingle : s.isLeaf tag with
      | true =>
        simp only [if_true]
        rw [← hattributes]
        rfl
      | false =>
        simp only [Bool.false_eq_true, if_false]
        rw [mapError_map, hchildren _ (childDepth?_of_isLeaf_eq_false hwrapped hsingle),
          ← hattributes]

theorem drawAll_eq_of_agrees (hword : s.Translates t word) (mode : Mode) :
    ∀ {depth : Nat} {ns : List Node}, (∀ visit ∈ s.reachedIn depth ns, s.AgreesAt t visit) →
      (s.drawAll mode depth ns).mapError word = t.drawAll mode depth ns
  | _, [], _ => by rw [drawAll, drawAll]; rfl
  | depth, n :: ns, h => by
    rw [reachedIn, List.forall_mem_append] at h
    rw [drawAll, drawAll, mapError_bind, draw_eq_of_agrees hword mode h.1]
    simp only [mapError_map, drawAll_eq_of_agrees hword mode h.2]

end

/-! ## Host elements without references -/

theorem templateAttribute?_of_reference? {p : Property}
    (h : p.actual?.bind Value.reference? = none) : templateAttribute? p = Markup.attribute? p := by
  rw [templateAttribute?, h]

theorem translates_template (name : String) :
    (template name).Translates screen Malformed.onScreen :=
  ⟨rfl, rfl, fun _ => rfl⟩

/-- Where it does not unwrap, a template writes a host element without references like a screen. -/
theorem template_agreesAt {name : String} {depth : Nat} {n : Node}
    (hhost : Import.componentTag? n = none)
    (hreference : ∀ p ∈ n.props, p.actual?.bind Value.reference? = none)
    (hname : depth = 1 → n.kind ≠ .element name) :
    (template name).AgreesAt screen (depth, n) := by
  intro tag hkind
  have hcomponent : Tag.isComponent tag = false := by
    simpa [Import.componentTag?, hkind] using hhost
  have hwrapped : depth = 1 → tag ≠ name := by
    rintro hdepth rfl
    exact hname hdepth hkind
  have hattributes : n.props.filterMap templateAttribute? = n.props.filterMap Markup.attribute? :=
    List.filterMap_congr fun p hp => templateAttribute?_of_reference? (hreference p hp)
  simpa [template, screen, attributes, hcomponent, hattributes] using hwrapped

end Style

/-- The template of a definition and the screen are written alike if no element of the node is a
component, no property has a reference for its value, and the template meets no element at the first
level that bears the name of the definition: in either mode and at every depth they are the same
text, or both fail at the same node. -/
theorem template_eq_screen (o : Options) (name : String) (n : Node) (depth : Nat)
    (hhost : ∀ m ∈ n.nodes, Import.componentTag? m = none)
    (hreference : ∀ m ∈ n.nodes, ∀ p ∈ m.props, p.actual?.bind Value.reference? = none)
    (hname : ∀ visit ∈ (Style.template name).reached depth n, visit.1 = 1 →
      visit.2.kind ≠ .element name) :
    (∃ text, renderTemplate o.mode name depth n = .ok text ∧ o.markup n depth = .ok text) ∨
      ∃ cause, renderTemplate o.mode name depth n = .error cause ∧
        o.markup n depth = .error (.malformed cause.onScreen) := by
  have hagrees : ∀ visit ∈ (Style.template name).reached depth n,
      (Style.template name).AgreesAt .screen visit := by
    intro visit hvisit
    have hnode := (Style.reached_sublist_nodes _ depth n).subset (List.mem_map_of_mem hvisit)
    exact Style.template_agreesAt (hhost _ hnode) (hreference _ hnode) (hname visit hvisit)
  have hsame := Style.draw_eq_of_agrees (Style.translates_template name) o.mode hagrees
  rw [← Style.renderTemplate_eq_draw, ← Style.render_eq_draw] at hsame
  rw [Options.markup, ← hsame]
  cases renderTemplate o.mode name depth n with
  | ok text => exact .inl ⟨text, rfl, rfl⟩
  | error cause => exact .inr ⟨cause, rfl, rfl⟩

/-- A section with the name of the definition at the top, where a template does not unwrap. In
strict mode both fail at the node without a type. -/
theorem template_eq_screen_in_section :
    let rule := (Node.element "hr").withProps [.typed "hidden" .boolean (.bool true)]
    let topic := (Node.element "section").withChildren [
      Node.group.withChildren [rule, Node.ofKind .untyped, Node.literal (.text "$title")]]
    Options.standard.markup topic 0 = .ok "<section>\n  <hr hidden />\n\n{title}\n</section>" ∧
      renderTemplate .lenient "section" 0 topic =
        .ok "<section>\n  <hr hidden />\n\n{title}\n</section>" ∧
      renderTemplate .strict "section" 0 topic = .error .untypedTemplate ∧
      Options.strict.markup topic 0 = .error (.malformed .untyped) := by
  intro rule topic
  have hhost : ∀ m ∈ topic.nodes, Import.componentTag? m = none := by decide +kernel
  have hreference : ∀ m ∈ topic.nodes, ∀ p ∈ m.props, p.actual?.bind Value.reference? = none := by
    decide +kernel
  have hname : ∀ visit ∈ (Style.template "section").reached 0 topic, visit.1 = 1 →
      visit.2.kind ≠ .element "section" := by
    decide +kernel
  have hlenient : renderTemplate .lenient "section" 0 topic =
      .ok "<section>\n  <hr hidden />\n\n{title}\n</section>" := by
    decide +kernel
  have hstrict : renderTemplate .strict "section" 0 topic = .error .untypedTemplate := by
    decide +kernel
  refine ⟨?_, hlenient, hstrict, ?_⟩
  · obtain ⟨text, htemplate, hscreen⟩ | ⟨cause, htemplate, -⟩ :=
      template_eq_screen .standard "section" topic 0 hhost hreference hname
    · cases hlenient.symm.trans htemplate
      exact hscreen
    · cases hlenient.symm.trans htemplate
  · obtain ⟨text, htemplate, -⟩ | ⟨cause, htemplate, hscreen⟩ :=
      template_eq_screen .strict "section" topic 0 hhost hreference hname
    · cases hstrict.symm.trans htemplate
    · cases hstrict.symm.trans htemplate
      exact hscreen

end Markup
end ScreenTree
