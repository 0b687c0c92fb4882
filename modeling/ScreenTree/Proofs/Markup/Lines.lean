import ScreenTree.Proofs.Markup.Style

/-! # Lines of markup

The lines of generated text that are not empty are those of its parts, in their order. So two nodes
that differ below them have the same lines if their children have. -/

namespace ScreenTree

namespace Text

/-- The lines of a text that are not empty. -/
def filledLines (s : String) : List (List Char) :=
  (s.toList.splitOn '\n').filter fun line => !line.isEmpty

@[simp] theorem filledLines_empty : filledLines "" = [] := by
  decide

theorem filledLines_append (s t : String) :
    filledLines (s ++ "\n" ++ t) = filledLines s ++ filledLines t := by
  simp [filledLines, List.splitOn_append_cons_self]

theorem filledLines_joinLines (parts : List String) :
    filledLines (joinLines parts) = parts.flatMap filledLines := by
  rw [joinLines]
  induction parts with
  | nil => rw [join, filledLines_empty, List.flatMap_nil]
  | cons part parts ih =>
    cases parts with
    | nil => rw [join, List.flatMap_singleton]
    | cons next parts =>
      rw [join, filledLines_append, ih, ← List.flatMap_cons]
      exact List.cons_ne_nil next parts

/-- Whether a text is blank can be seen from its lines. -/
theorem isBlank_eq_all_filledLines (s : String) :
    isBlank s = (filledLines s).all fun line => line.all isSpace := by
  have hsplit : ∀ cs : List Char, (cs.splitOn '\n').all (fun line => line.all isSpace) =
      cs.all isSpace := by
    intro cs
    induction cs with
    | nil => rw [List.splitOn_nil]; rfl
    | cons c cs ih =>
      rw [List.splitOn_cons_eq_if_modifyHead, List.all_cons, ← ih]
      by_cases hc : c = '\n'
      · simp [hc, isSpace]
      · cases hparts : cs.splitOn '\n' with
        | nil => exact absurd hparts (List.splitOn_ne_nil _ _)
        | cons line lines => simp [hc, Bool.and_assoc]
  rw [isBlank, ← hsplit, filledLines, List.all_filter]
  congr 1
  funext line
  cases line <;> simp

end Text

namespace Markup

open Text

theorem filledLines_body (parts : List String) :
    filledLines (body parts) = parts.flatMap filledLines := by
  rw [body, filledLines_joinLines]
  induction parts with
  | nil => rfl
  | cons part parts ih =>
    by_cases hpart : part = "" <;> simp [hpart, ih]

/-- Of the body of an element only the lines count. -/
theorem filledLines_paired_congr (depth : Nat) (name attrs : String) {inside other : String}
    (h : filledLines inside = filledLines other) :
    filledLines (paired depth name attrs inside) = filledLines (paired depth name attrs other) := by
  have hblank : isBlank inside = isBlank other := by
    rw [isBlank_eq_all_filledLines, isBlank_eq_all_filledLines, h]
  have hlines : ∀ body : String,
      indent depth ++ "<" ++ name ++ attrs ++ ">\n" ++ body ++ "\n" ++ indent depth ++ "</" ++
          name ++ ">" =
        indent depth ++ "<" ++ name ++ attrs ++ ">" ++ "\n" ++ body ++ "\n" ++
          (indent depth ++ "</" ++ name ++ ">") := by
    intro body
    simp only [String.append_assoc]
    rfl
  rw [paired, paired, hblank, hlines, hlines]
  split
  · rfl
  · rw [filledLines_append, filledLines_append, filledLines_append, filledLines_append, h]

/-- Outcomes that agree in one view of them agree in all that can be seen by it. -/
theorem map_eq_of_view {ε α β γ : Type} {x y : Except ε α} {view : α → β} {g g' : α → γ}
    (h : x.map view = y.map view) (hview : ∀ a b, view a = view b → g a = g' b) :
    x.map g = y.map g' := by
  cases x with
  | error e =>
    cases y <;> cases h
    rfl
  | ok a =>
    cases y with
    | error e => cases h
    | ok b => exact congrArg Except.ok (hview a b (Except.ok.inj h))

theorem map_map_congr {ε α β γ δ : Type} {x y : Except ε α} {f : α → β} {g g' : α → γ} {k : γ → δ}
    (h : x.map f = y.map f) (hview : ∀ a b, f a = f b → k (g a) = k (g' b)) :
    (x.map g).map k = (y.map g').map k := by
  have hmap : x.map (k ∘ g) = y.map (k ∘ g') := map_eq_of_view h hview
  cases x <;> cases y <;> exact hmap

theorem filledLines_joinLines_congr {parts others : List String}
    (h : parts.flatMap filledLines = others.flatMap filledLines) :
    filledLines (joinLines parts) = filledLines (joinLines others) := by
  rw [filledLines_joinLines, filledLines_joinLines, h]

theorem filledLines_paired_body_congr (depth : Nat) (name attrs : String)
    {parts others : List String} (h : parts.flatMap filledLines = others.flatMap filledLines) :
    filledLines (paired depth name attrs (body parts)) =
      filledLines (paired depth name attrs (body others)) := by
  refine filledLines_paired_congr depth name attrs ?_
  rw [filledLines_body, filledLines_body, h]

namespace Style

/-- The lines of nodes that are drawn one after another, empty ones apart. -/
def lines (s : Style) (mode : Mode) (depth : Nat) (ns : List Node) :
    Except Malformed (List (List Char)) :=
  (s.drawAll mode depth ns).map (·.flatMap filledLines)

variable {s : Style} {mode : Mode}

theorem lines_append (s : Style) (mode : Mode) (depth : Nat) (ns ms : List Node) :
    s.lines mode depth (ns ++ ms) =
      (s.lines mode depth ns).bind fun before => (s.lines mode depth ms).map (before ++ ·) := by
  rw [lines, drawAll_append, lines, lines]
  cases s.drawAll mode depth ns with
  | error e => rfl
  | ok parts =>
    cases s.drawAll mode depth ms with
    | error e => rfl
    | ok others => exact congrArg Except.ok List.flatMap_append

theorem lines_singleton (s : Style) (mode : Mode) (depth : Nat) (n : Node) :
    s.lines mode depth [n] = (s.draw mode depth n).map filledLines := by
  rw [lines, drawAll, drawAll]
  cases s.draw mode depth n with
  | error e => rfl
  | ok text => exact congrArg Except.ok (List.flatMap_singleton ..)

theorem lines_cons (s : Style) (mode : Mode) (depth : Nat) (n : Node) (ns : List Node) :
    s.lines mode depth (n :: ns) =
      (s.lines mode depth [n]).bind fun before => (s.lines mode depth ns).map (before ++ ·) :=
  lines_append s mode depth [n] ns

/-- A node has the lines of another one of its kind, if they differ neither in their attributes nor
in the lines of their children. -/
theorem lines_congr {depth : Nat} {n m : Node} (hkind : n.kind = m.kind)
    (hattributes : ∀ tag, m.kind = .element tag →
      s.attributes tag n.props n.children = s.attributes tag m.props m.children)
    (h : ∀ inner, s.childDepth? depth m.kind = some inner →
      s.lines mode inner n.children = s.lines mode inner m.children) :
    s.lines mode depth [n] = s.lines mode depth [m] := by
  obtain ⟨_, kind, own, _, ns⟩ := n
  obtain ⟨_, _, _, _, ms⟩ := m
  cases hkind
  rw [lines_singleton, lines_singleton]
  cases kind with
  | untyped => rw [draw, draw]
  | literal value => rw [draw, draw]
  | group =>
    rw [draw, draw]
    exact map_map_congr (h depth rfl) fun _ _ => filledLines_joinLines_congr
  | element tag =>
    rw [draw, draw, hattributes tag rfl]
    cases hunwraps : s.unwraps depth tag with
    | true =>
      have hlines := h depth (childDepth?_of_unwraps hunwraps)
      exact map_map_congr hlines fun _ _ => filledLines_joinLines_congr
    | false =>
      simp only [Bool.false_eq_true, if_false]
      cases requirePlain mode tag with
      | error e => rfl
      | ok _ =>
        cases hleaf : s.isLeaf tag with
        | true => rfl
        | false =>
          have hlines := h (depth + 1) (childDepth?_of_isLeaf_eq_false hunwraps hleaf)
          exact map_map_congr hlines fun _ _ => filledLines_paired_body_congr _ _ _

end Style
end Markup
end ScreenTree
