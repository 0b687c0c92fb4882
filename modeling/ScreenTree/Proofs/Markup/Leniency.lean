import ScreenTree.Proofs.Markup.Lines
import ScreenTree.Proofs.Markup.Strictness

/-! # Malformed nodes in lenient markup

Where a node is malformed, lenient rendering writes an empty text, of which no more than an empty
line is left. So its lines are those of the strict rendering of the same node without the malformed
nodes in it, empty lines apart. -/

namespace ScreenTree

namespace Node

/-- The node has no type, or it is a literal without a value. -/
def isMalformed (n : Node) : Bool :=
  n.kind = .untyped ∨ n.kind = .literal none

mutual

/-- The node without the malformed nodes below it, and without all that is below them. -/
def sifted : Node → Node
  | ⟨id, kind, props, state, children⟩ => ⟨id, kind, props, state, siftedIn children⟩

def siftedIn : List Node → List Node
  | [] => []
  | n :: ns => if n.isMalformed then siftedIn ns else n.sifted :: siftedIn ns

end

@[simp] theorem kind_sifted (n : Node) : n.sifted.kind = n.kind := by
  cases n
  rw [sifted]

@[simp] theorem children_sifted (n : Node) : n.sifted.children = siftedIn n.children := by
  cases n
  rw [sifted]

end Node

open Node

namespace Markup

/-- A literal without a value gives a property without a value, which is not written. -/
theorem filterMap_promoted_siftedIn (name : String) (ns : List Node) :
    (promoted name (siftedIn ns)).filterMap attribute? =
      (promoted name ns).filterMap attribute? := by
  induction ns with
  | nil => rw [siftedIn]
  | cons n ns ih =>
    rw [promoted, promoted] at *
    rw [siftedIn, List.filterMap_cons]
    split
    · next hmalformed =>
      rcases of_decide_eq_true hmalformed with hkind | hkind
      · simp [hkind, ih]
      · simp [hkind, ih, attribute?, Property.actual?]
    · rw [List.filterMap_cons, kind_sifted]
      cases n.kind <;> simp [List.filterMap_cons, ih]

namespace Style

/-- Malformed children do not show in the attributes of a style. -/
def PassesOver (s : Style) : Prop :=
  ∀ tag own children, s.attributes tag own (siftedIn children) = s.attributes tag own children

theorem screen_passesOver : screen.PassesOver := by
  intro tag own children
  simp only [attributes, screen]
  split
  · rw [componentProps, componentProps]
    split
    · rw [List.filterMap_append, List.filterMap_append, filterMap_promoted_siftedIn]
    · rfl
  · rfl

variable {s : Style}

theorem draw_of_isMalformed {n : Node} (h : n.isMalformed = true) (depth : Nat) :
    s.draw .lenient depth n = .ok "" := by
  obtain ⟨id, kind, own, state, children⟩ := n
  rcases of_decide_eq_true h with hkind | hkind
  all_goals
    cases hkind
    rw [draw]
    rfl

theorem lines_of_isMalformed {n : Node} (h : n.isMalformed = true) (depth : Nat) :
    s.lines .lenient depth [n] = .ok [] := by
  rw [lines_singleton, draw_of_isMalformed h]
  exact congrArg Except.ok Text.filledLines_empty

mutual

theorem lines_sifted (hs : s.PassesOver) (depth : Nat) :
    ∀ n : Node, s.lines .lenient depth [n.sifted] = s.lines .lenient depth [n]
  | ⟨_, _, own, _, children⟩ => by
    rw [sifted]
    exact lines_congr rfl (fun tag _ => hs tag own children) fun inner _ =>
      lines_siftedIn hs inner children

theorem lines_siftedIn (hs : s.PassesOver) (depth : Nat) :
    ∀ ns : List Node, s.lines .lenient depth (siftedIn ns) = s.lines .lenient depth ns
  | [] => by rw [siftedIn]
  | n :: ns => by
    have hrest := lines_siftedIn hs depth ns
    rw [siftedIn, lines_cons s .lenient depth n ns]
    split
    · next hmalformed =>
      rw [lines_of_isMalformed hmalformed, hrest]
      cases s.lines .lenient depth ns <;> rfl
    · rw [lines_cons, lines_sifted hs depth n, hrest]

end

/-- Lenient drawing leaves at most empty lines of the malformed nodes below a node. -/
theorem exists_draw_sifted (hs : s.PassesOver) (depth : Nat) (n : Node) : ∃ text kept,
    s.draw .lenient depth n = .ok text ∧ s.draw .lenient depth n.sifted = .ok kept ∧
      Text.filledLines kept = Text.filledLines text := by
  obtain ⟨text, htext, -⟩ := s.draw_strict depth n
  obtain ⟨kept, hkept, -⟩ := s.draw_strict depth n.sifted
  have hlines := lines_sifted hs depth n
  rw [lines_singleton, lines_singleton, htext, hkept] at hlines
  exact ⟨text, kept, htext, hkept, Except.ok.inj hlines⟩

/-! ## Nodes that are left -/

mutual

/-- What is reached without the malformed nodes was reached with them. -/
theorem exists_reached_of_sifted : ∀ {depth : Nat} {n : Node} {visit : Nat × Node},
    n.isMalformed = false → visit ∈ s.reached depth n.sifted →
      ∃ m, (visit.1, m) ∈ s.reached depth n ∧ m.isMalformed = false ∧ visit.2 = m.sifted
  | depth, ⟨i, kind, own, state, children⟩, visit, hn, hvisit => by
    have hkind : (sifted ⟨i, kind, own, state, children⟩).kind = kind := kind_sifted _
    cases hinner : s.childDepth? depth kind with
    | none =>
      rw [← hkind] at hinner
      rw [reached_of_childDepth?_eq_none hinner] at hvisit
      cases List.mem_singleton.1 hvisit
      exact ⟨_, self_mem_reached s depth _, hn, rfl⟩
    | some inner =>
      rw [reached_of_childDepth? hinner]
      rw [← hkind] at hinner
      rw [reached_of_childDepth? hinner, children_sifted] at hvisit
      rcases List.mem_cons.1 hvisit with rfl | hvisit
      · exact ⟨_, List.mem_cons_self, hn, rfl⟩
      · obtain ⟨m, hm, hrest⟩ := exists_reachedIn_of_siftedIn hvisit
        exact ⟨m, List.mem_cons_of_mem _ hm, hrest⟩

theorem exists_reachedIn_of_siftedIn : ∀ {depth : Nat} {ns : List Node} {visit : Nat × Node},
    visit ∈ s.reachedIn depth (siftedIn ns) →
      ∃ m, (visit.1, m) ∈ s.reachedIn depth ns ∧ m.isMalformed = false ∧ visit.2 = m.sifted
  | depth, [], visit, hvisit => by
    rw [siftedIn, reachedIn] at hvisit
    cases hvisit
  | depth, n :: ns, visit, hvisit => by
    rw [reachedIn]
    cases hn : n.isMalformed with
    | true =>
      rw [siftedIn, if_pos hn] at hvisit
      obtain ⟨m, hm, hrest⟩ := exists_reachedIn_of_siftedIn hvisit
      exact ⟨m, List.mem_append_right _ hm, hrest⟩
    | false =>
      rw [siftedIn, if_neg (by simp [hn]), reachedIn] at hvisit
      rcases List.mem_append.1 hvisit with hvisit | hvisit
      · obtain ⟨m, hm, hrest⟩ := exists_reached_of_sifted hn hvisit
        exact ⟨m, List.mem_append_left _ hm, hrest⟩
      · obtain ⟨m, hm, hrest⟩ := exists_reachedIn_of_siftedIn hvisit
        exact ⟨m, List.mem_append_right _ hm, hrest⟩

end

theorem fault?_of_isMalformed {depth : Nat} {n : Node} (hn : n.isMalformed = false)
    (htag : ∀ tag, n.kind = .element tag → Tag.isPlain tag = true) :
    s.fault? (depth, n) = none := by
  obtain ⟨i, kind, own, state, children⟩ := n
  cases kind with
  | untyped => cases hn
  | literal value =>
    cases value with
    | none => cases hn
    | some v => rfl
  | group => rfl
  | element tag => simp [fault?, htag tag rfl]

end Style
end Markup

open Markup

/-- If a node is not malformed and each element that is reached has a plain tag, the node without
the malformed nodes in it is rendered in strict mode, and its text has the lines of the lenient
rendering of the node, apart from empty ones. -/
theorem Options.strict_sifted_eq_lenient (o : Options) (n : Node) (depth : Nat)
    (hn : n.isMalformed = false)
    (htags : ∀ visit ∈ Style.screen.reached depth n, ∀ tag, visit.2.kind = .element tag →
      Tag.isPlain tag = true) :
    ∃ text kept, (o.inMode .lenient).markup n depth = .ok text ∧
      (o.inMode .strict).markup n.sifted depth = .ok kept ∧
        Text.filledLines kept = Text.filledLines text := by
  obtain ⟨text, kept, htext, hkept, hlines⟩ :=
    Style.exists_draw_sifted Style.screen_passesOver depth n
  refine ⟨text, kept, Style.markup_eq_ok_iff.2 htext, Style.markup_eq_ok_iff.2 ?_, hlines⟩
  refine (Style.draw_strict_eq_ok_iff _).2 ⟨hkept, ?_⟩
  intro visit hvisit
  obtain ⟨m, hm, hsound, hsifted⟩ := Style.exists_reached_of_sifted hn hvisit
  have hkind : visit.2.kind = m.kind := by rw [hsifted, kind_sifted]
  refine Style.fault?_of_isMalformed ?_ fun tag htag => htags _ hm tag (hkind ▸ htag)
  rwa [isMalformed, hkind]

/-- A group that is all but empty, a paragraph whose body turns blank, and a literal that brings in
an empty line of its own. -/
theorem strict_sifted_eq_lenient_in_container :
    let hollow := Node.ofKind (.literal none)
    let part := (Node.element "container").withChildren [
      Node.group.withChildren [Node.ofKind .untyped, hollow],
      (Node.element "p").withChildren [Node.group.withChildren [hollow, hollow]],
      Node.literal (.text "first\n\nlast")]
    Options.standard.markup part 0 =
        .ok "<Container>\n\n\n  <p></p>\nfirst\n\nlast\n</Container>" ∧
      Options.strict.markup part.sifted 0 =
        .ok "<Container>\n  <p></p>\nfirst\n\nlast\n</Container>" ∧
      Text.filledLines "<Container>\n  <p></p>\nfirst\n\nlast\n</Container>" =
        Text.filledLines "<Container>\n\n\n  <p></p>\nfirst\n\nlast\n</Container>" := by
  intro hollow part
  have hlenient : Options.standard.markup part 0 =
      .ok "<Container>\n\n\n  <p></p>\nfirst\n\nlast\n</Container>" := by
    decide +kernel
  have hstrict : Options.strict.markup part.sifted 0 =
      .ok "<Container>\n  <p></p>\nfirst\n\nlast\n</Container>" := by
    decide +kernel
  have htags : ∀ visit ∈ Style.screen.reached 0 part, ∀ tag, visit.2.kind = .element tag →
      Tag.isPlain tag = true := by
    have hplain : ∀ visit ∈ Style.screen.reached 0 part,
        visit.2.kind.tag?.all Tag.isPlain = true := by
      decide +kernel
    intro visit hvisit tag hkind
    simpa [hkind, Kind.tag?] using hplain visit hvisit
  obtain ⟨text, kept, htext, hkept, hlines⟩ :=
    Options.strict_sifted_eq_lenient .standard part 0 (by decide) htags
  cases hlenient.symm.trans htext
  cases hstrict.symm.trans hkept
  exact ⟨hlenient, hstrict, hlines⟩

end ScreenTree
