import ScreenTree.Text.Blank

/-! # Tags read from a text

The tags of a text are put together to elements, where a closing tag has to name the innermost open
element. A text spells a list of elements if they are read from it wherever it stands. -/

namespace ScreenTree.Markup

inductive Outline
  | element (name : String) (inside : List Outline)

inductive Token
  | opening (name : String)
  | closing (name : String)
  | single (name : String)

namespace Token

def endsName (c : Char) : Bool :=
  Text.isSpace c || c == '/'

def nameOf (mark : List Char) : String :=
  String.ofList (mark.takeWhile fun c => !endsName c)

/-- The tag with this text between its brackets. -/
def ofMark : List Char → Token
  | '/' :: cs => .closing (nameOf cs)
  | cs => if cs.getLast? = some '/' then .single (nameOf cs) else .opening (nameOf cs)

/-- The texts between brackets, where `inside` stands behind a bracket that is still open. -/
def marks : Option (List Char) → List Char → List (List Char)
  | _, [] => []
  | none, c :: cs => if c = '<' then marks (some []) cs else marks none cs
  | some inside, c :: cs =>
    if c = '>' then inside :: marks none cs else marks (some (inside ++ [c])) cs

def ofText (text : List Char) : List Token :=
  (marks none text).map ofMark

theorem marks_of_not_mem {text : List Char} (h : '<' ∉ text) (rest : List Char) :
    marks none (text ++ rest) = marks none rest := by
  induction text with
  | nil => rfl
  | cons c cs ih =>
    rw [List.mem_cons, not_or] at h
    rw [List.cons_append, marks, if_neg (Ne.symm h.1), ih h.2]

theorem marks_of_open {text : List Char} (h : '>' ∉ text) (inside rest : List Char) :
    marks (some inside) (text ++ '>' :: rest) = (inside ++ text) :: marks none rest := by
  induction text generalizing inside with
  | nil => simp [marks]
  | cons c cs ih =>
    rw [List.mem_cons, not_or] at h
    rw [List.cons_append, marks, if_neg (Ne.symm h.1), ih h.2, List.append_assoc]
    rfl

theorem ofText_of_not_mem {text : List Char} (h : '<' ∉ text) (rest : List Char) :
    ofText (text ++ rest) = ofText rest := by
  rw [ofText, marks_of_not_mem h, ofText]

theorem ofText_mark {mark : List Char} (h : '>' ∉ mark) (rest : List Char) :
    ofText ('<' :: (mark ++ '>' :: rest)) = ofMark mark :: ofText rest := by
  rw [ofText, marks, if_pos rfl, marks_of_open h, List.nil_append, List.map_cons, ofText]

end Token

/-! ## Putting tags together -/

/-- What has been read: the open elements, the innermost one first, each with what stands before
it, and what stands in the innermost one. -/
structure Reading where
  opened : List (String × List Outline)
  here : List Outline

namespace Reading

def start : Reading :=
  ⟨[], []⟩

def add (r : Reading) (outlines : List Outline) : Reading :=
  { r with here := r.here ++ outlines }

def step (r : Reading) : Token → Option Reading
  | .single name => some (r.add [.element name []])
  | .opening name => some ⟨(name, r.here) :: r.opened, []⟩
  | .closing name =>
    match r.opened with
    | (innermost, before) :: opened =>
      if name = innermost then some ⟨opened, before ++ [.element name r.here]⟩ else none
    | [] => none

def run (r : Reading) (tokens : List Token) : Option Reading :=
  tokens.foldlM step r

/-- The elements that were read, if none is open. -/
def outlines? (r : Reading) : Option (List Outline) :=
  if r.opened.isEmpty then some r.here else none

@[simp] theorem run_cons (r : Reading) (t : Token) (ts : List Token) :
    r.run (t :: ts) = (r.step t).bind fun r => r.run ts := rfl

@[simp] theorem add_nil (r : Reading) : r.add [] = r := by
  simp [add]

@[simp] theorem add_add (r : Reading) (outlines more : List Outline) :
    (r.add outlines).add more = r.add (outlines ++ more) := by
  simp [add]

end Reading

/-- The elements in a text as they are nested, if its tags are balanced. -/
def Outline.read? (text : String) : Option (List Outline) :=
  (Reading.start.run (Token.ofText text.toList)).bind Reading.outlines?

/-- Wherever the text stands, its tags are read as these elements. -/
def Spells (text : List Char) (outlines : List Outline) : Prop :=
  ∀ (r : Reading) (rest : List Char),
    r.run (Token.ofText (text ++ rest)) = (r.add outlines).run (Token.ofText rest)

namespace Spells

variable {text : List Char} {outlines : List Outline}

theorem read? {text : String} (h : Spells text.toList outlines) :
    Outline.read? text = some outlines := by
  have hrun := h Reading.start []
  rw [List.append_nil] at hrun
  rw [Outline.read?, hrun]
  rfl

theorem of_not_mem (h : '<' ∉ text) : Spells text [] := by
  intro r rest
  rw [Token.ofText_of_not_mem h, Reading.add_nil]

theorem eq_nil (h : Spells text outlines) (hmark : '<' ∉ text) : outlines = [] := by
  have hrun := h Reading.start []
  rw [of_not_mem hmark] at hrun
  have hsame := congrArg Reading.here (Option.some.inj hrun)
  simpa [Reading.add, Reading.start] using hsame.symm

theorem append {more : List Char} {others : List Outline} (h : Spells text outlines)
    (hmore : Spells more others) : Spells (text ++ more) (outlines ++ others) := by
  intro r rest
  rw [List.append_assoc, h, hmore, Reading.add_add]

theorem pad (h : Spells text outlines) {before after : List Char} (hbefore : '<' ∉ before)
    (hafter : '<' ∉ after) : Spells (before ++ text ++ after) outlines := by
  have hall := ((of_not_mem hbefore).append h).append (of_not_mem hafter)
  rwa [List.nil_append, List.append_nil] at hall

theorem mark {mark : List Char} {name : String} (hmark : '>' ∉ mark)
    (htoken : Token.ofMark mark = .single name) :
    Spells ('<' :: mark ++ ['>']) [.element name []] := by
  intro r rest
  have htext : '<' :: mark ++ ['>'] ++ rest = '<' :: (mark ++ '>' :: rest) := by simp
  rw [htext, Token.ofText_mark hmark, Reading.run_cons, htoken]
  rfl

theorem enclose {start stop : List Char} {name : String} (h : Spells text outlines)
    (hstart : '>' ∉ start) (hopening : Token.ofMark start = .opening name)
    (hstop : '>' ∉ stop) (hclosing : Token.ofMark stop = .closing name) :
    Spells ('<' :: start ++ ['>'] ++ text ++ ('<' :: stop ++ ['>']))
      [.element name outlines] := by
  intro r rest
  have htext : '<' :: start ++ ['>'] ++ text ++ ('<' :: stop ++ ['>']) ++ rest =
      '<' :: (start ++ '>' :: (text ++ '<' :: (stop ++ '>' :: rest))) := by simp
  rw [htext, Token.ofText_mark hstart, Reading.run_cons, hopening]
  simp only [Reading.step, Option.bind_some]
  rw [h, Token.ofText_mark hstop, Reading.run_cons, hclosing]
  simp [Reading.step, Reading.add]

end Spells

end ScreenTree.Markup
