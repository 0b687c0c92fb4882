import ScreenTree.Proofs.Json.Pieces

/-! # The layout of a text

A JSON text is taken apart into words, which are read in one step, the marks around and between
items and members, and the blanks that surround them. A text is read as a form exactly if it has a
layout with this form. -/

namespace ScreenTree.Json

/-! ## Blanks -/

def IsBlank (cs : List Char) : Prop :=
  ∀ c ∈ cs, isSpace c = true

theorem isBlank_nil : IsBlank [] :=
  List.forall_mem_nil _

theorem IsBlank.append {cs ds : List Char} (hcs : IsBlank cs) (hds : IsBlank ds) :
    IsBlank (cs ++ ds) :=
  List.forall_mem_append.2 ⟨hcs, hds⟩

theorem skipSpace_append {cs : List Char} (h : IsBlank cs) (ds : List Char) :
    skipSpace (cs ++ ds) = skipSpace ds :=
  List.dropWhile_append_of_pos h

theorem exists_blank (cs : List Char) : ∃ front, IsBlank front ∧ cs = front ++ skipSpace cs :=
  ⟨cs.takeWhile isSpace, fun _ => List.mem_takeWhile_imp, List.takeWhile_append_dropWhile.symm⟩

theorem readValue_append {cs : List Char} (h : IsBlank cs) (fuel : Nat) (ds : List Char) :
    readValue fuel (cs ++ ds) = readValue fuel ds := by
  rw [← readValue_skipSpace, skipSpace_append h, readValue_skipSpace]

theorem IsBlank.endsNumber {cs : List Char} (h : IsBlank cs) {more : List Char}
    (hmore : EndsNumber more) : EndsNumber (cs ++ more) := by
  refine forall_head?_append (fun c hc => ?_) hmore
  have hspace : isSpace c = true := h c (List.mem_of_mem_head? hc)
  simp only [isSpace, Bool.or_eq_true, beq_iff_eq] at hspace
  rcases hspace with ((rfl | rfl) | rfl) | rfl <;> decide

/-! ## What the reader does -/

/-- A text that is read as this form in one step, whatever follows it but the rest of a number. -/
def IsWord (text : List Char) (f : Form) : Prop :=
  ∀ fuel more, EndsNumber more → readValue (fuel + 1) (text ++ more) = some (f, more)

theorem IsWord.of_front {front text : List Char} {f : Form} (hfront : IsBlank front)
    (h : IsWord text f) : IsWord (front ++ text) f := by
  intro fuel more hmore
  rw [List.append_assoc, readValue_append hfront, h fuel more hmore]

theorem isWord_string {text : List Char} {s : Option String}
    (h : ∀ more, readString (text ++ more) = some (s, more)) :
    IsWord ('"' :: text) (.string s) := by
  intro fuel more _
  rw [List.cons_append, readValue, skipSpace_cons rfl]
  simp only [h, Option.map_some]

theorem isWord_number {c : Char} {text : List Char} {t : NumberText}
    (hc : c = '-' ∨ c.isDigit = true)
    (h : ∀ more, EndsNumber more → readNumber (c :: text ++ more) = some (t, more)) :
    IsWord (c :: text) (.number t) := by
  intro fuel more hmore
  exact readValue_of_readNumber hc (h more hmore) fuel

theorem isWord_emptyArray {inner : List Char} (h : IsBlank inner) :
    IsWord ('[' :: inner ++ [']']) (.array []) := by
  intro fuel more _
  have hclose : skipSpace (inner ++ ']' :: more) = ']' :: more := by
    rw [skipSpace_append h, skipSpace_cons rfl]
  rw [List.append_assoc, List.cons_append, List.singleton_append, readValue, skipSpace_cons rfl]
  simp only [hclose]

theorem isWord_emptyObject {inner : List Char} (h : IsBlank inner) :
    IsWord ('\x7b' :: inner ++ ['\x7d']) (.object []) := by
  intro fuel more _
  have hclose : skipSpace (inner ++ '\x7d' :: more) = '\x7d' :: more := by
    rw [skipSpace_append h, skipSpace_cons rfl]
  rw [List.append_assoc, List.cons_append, List.singleton_append, readValue, skipSpace_cons rfl]
  simp only [hclose]

/-- A value is a word, or it opens an array or an object that is not empty. -/
theorem readValue_cases {fuel : Nat} {cs rest : List Char} {f : Form}
    (h : readValue (fuel + 1) cs = some (f, rest)) :
    (∃ text, IsWord text f ∧ cs = text ++ rest) ∨
      (∃ front tail fs, IsBlank front ∧ cs = front ++ '[' :: tail ∧
        readElements fuel tail = some (fs, rest) ∧ f = .array fs) ∨
      ∃ front tail ms, IsBlank front ∧ cs = front ++ '\x7b' :: tail ∧
        readMembers fuel tail = some (ms, rest) ∧ f = .object ms := by
  obtain ⟨front, hfront, hcs⟩ := exists_blank cs
  -- Behind the blanks a word is read by itself.
  have hword (text : List Char) {tail : List Char} {g : Form}
      (hhead : skipSpace cs = text ++ tail) (htext : IsWord text g) :
      ∃ text, IsWord text g ∧ cs = text ++ tail :=
    ⟨front ++ text, .of_front hfront htext, by rw [List.append_assoc, ← hhead, ← hcs]⟩
  rw [readValue] at h
  split at h
  · next hhead =>
    cases h
    exact .inl (hword "null".toList hhead fun _ _ _ => rfl)
  · next hhead =>
    cases h
    exact .inl (hword "true".toList hhead fun _ _ _ => rfl)
  · next hhead =>
    cases h
    exact .inl (hword "false".toList hhead fun _ _ _ => rfl)
  · next hhead =>
    obtain ⟨⟨s, tail⟩, hstring, heq⟩ := Option.map_eq_some_iff.1 h
    cases heq
    obtain ⟨text, rfl, htext⟩ := readString_front hstring
    exact .inl (hword ('"' :: text) hhead (isWord_string htext))
  · next tail hhead =>
    obtain ⟨inner, hinner, htail⟩ := exists_blank tail
    split at h
    · next hclose =>
      cases h
      rw [hclose] at htail
      refine .inl (hword ('[' :: inner ++ [']']) ?_ (isWord_emptyArray hinner))
      rw [hhead, htail, List.append_assoc, List.cons_append, List.singleton_append]
    · obtain ⟨⟨fs, rest⟩, helements, heq⟩ := Option.map_eq_some_iff.1 h
      cases heq
      rw [readElements_skipSpace] at helements
      exact .inr (.inl ⟨front, tail, fs, hfront, hhead ▸ hcs, helements, rfl⟩)
  · next tail hhead =>
    obtain ⟨inner, hinner, htail⟩ := exists_blank tail
    split at h
    · next hclose =>
      cases h
      rw [hclose] at htail
      refine .inl (hword ('\x7b' :: inner ++ ['\x7d']) ?_ (isWord_emptyObject hinner))
      rw [hhead, htail, List.append_assoc, List.cons_append, List.singleton_append]
    · obtain ⟨⟨ms, rest⟩, hmembers, heq⟩ := Option.map_eq_some_iff.1 h
      cases heq
      rw [readMembers_skipSpace] at hmembers
      exact .inr (.inr ⟨front, tail, ms, hfront, hhead ▸ hcs, hmembers, rfl⟩)
  · obtain ⟨⟨t, tail⟩, hnumber, heq⟩ := Option.map_eq_some_iff.1 h
    cases heq
    obtain ⟨c, text, hc, hhead, htext⟩ := readNumber_front hnumber
    exact .inl (hword (c :: text) hhead (isWord_number hc htext))

theorem readElements_cases {fuel : Nat} {cs rest : List Char} {fs : List Form}
    (h : readElements (fuel + 1) cs = some (fs, rest)) :
    ∃ f tail, readValue fuel cs = some (f, tail) ∧
      ((skipSpace tail = ']' :: rest ∧ fs = [f]) ∨
        ∃ more gs, skipSpace tail = ',' :: more ∧ readElements fuel more = some (gs, rest) ∧
          fs = f :: gs) := by
  rw [readElements] at h
  obtain ⟨⟨f, tail⟩, hvalue, h⟩ := Option.bind_eq_some_iff.1 h
  refine ⟨f, tail, hvalue, ?_⟩
  dsimp only at h
  split at h
  · next hcomma =>
    obtain ⟨⟨gs, rest⟩, hmore, heq⟩ := Option.map_eq_some_iff.1 h
    cases heq
    exact .inr ⟨_, gs, hcomma, hmore, rfl⟩
  · next hclose =>
    cases h
    exact .inl ⟨hclose, rfl⟩
  · cases h

theorem readMembers_cases {fuel : Nat} {cs rest : List Char} {ms : List (Option String × Form)}
    (h : readMembers (fuel + 1) cs = some (ms, rest)) :
    ∃ text name colon value f tail, skipSpace cs = '"' :: text ∧
      readString text = some (name, colon) ∧ skipSpace colon = ':' :: value ∧
      readValue fuel value = some (f, tail) ∧
      ((skipSpace tail = '\x7d' :: rest ∧ ms = [(name, f)]) ∨
        ∃ more ns, skipSpace tail = ',' :: more ∧ readMembers fuel more = some (ns, rest) ∧
          ms = (name, f) :: ns) := by
  rw [readMembers] at h
  split at h
  · next text hquote =>
    obtain ⟨⟨name, colon⟩, hname, h⟩ := Option.bind_eq_some_iff.1 h
    dsimp only at h
    split at h
    · next value hcolon =>
      obtain ⟨⟨f, tail⟩, hvalue, h⟩ := Option.bind_eq_some_iff.1 h
      refine ⟨text, name, colon, value, f, tail, hquote, hname, hcolon, hvalue, ?_⟩
      dsimp only at h
      split at h
      · next hcomma =>
        obtain ⟨⟨ns, rest⟩, hmore, heq⟩ := Option.map_eq_some_iff.1 h
        cases heq
        exact .inr ⟨_, ns, hcomma, hmore, rfl⟩
      · next hclose =>
        cases h
        exact .inl ⟨hclose, rfl⟩
      · cases h
    · cases h
  · cases h

/-! ## Layouts -/

abbrev Blank := { cs : List Char // IsBlank cs }

/-- A text that is read in one step, such as a string, a number or an empty array. -/
structure Word where
  text : List Char
  form : Form
  reads : readValue 1 text = some (form, [])

/-- The name of a member behind its opening quote, with the blanks around it. -/
structure Key where
  front : Blank
  text : List Char
  back : Blank
  name : Option String
  reads : readString text = some (name, [])

/-- A JSON text taken apart. -/
inductive Layout
  | word (front : Blank) (w : Word) (back : Blank)
  | array (front : Blank) (items : List Layout) (back : Blank)
  | object (front : Blank) (members : List (Key × Layout)) (back : Blank)

theorem Word.isWord (w : Word) : IsWord w.text w.form := by
  rcases readValue_cases w.reads with ⟨text, htext, heq⟩ | hopen | hopen
  · rw [List.append_nil] at heq
    exact heq ▸ htext
  · obtain ⟨_, _, _, _, _, helements, _⟩ := hopen
    cases helements
  · obtain ⟨_, _, _, _, _, hmembers, _⟩ := hopen
    cases hmembers

theorem Key.readString (key : Key) (more : List Char) :
    readString (key.text ++ more) = some (key.name, more) := by
  obtain ⟨front, hfront, hread⟩ := readString_front key.reads
  rw [List.append_nil] at hfront
  rw [hfront, hread]

theorem Word.text_ne_nil (w : Word) : w.text ≠ [] := by
  intro hnil
  have hread := w.reads
  rw [hnil] at hread
  cases hread

def Key.chars (key : Key) : List Char :=
  key.front ++ '"' :: (key.text ++ key.back)

namespace Layout

mutual

def text : Layout → List Char
  | .word front w back => front ++ (w.text ++ back)
  | .array front items back => front ++ '[' :: (itemsText items ++ ']' :: back)
  | .object front members back => front ++ '\x7b' :: (membersText members ++ '\x7d' :: back)

def itemsText : List Layout → List Char
  | [] => []
  | [l] => l.text
  | l :: k :: ls => l.text ++ ',' :: itemsText (k :: ls)

def membersText : List (Key × Layout) → List Char
  | [] => []
  | [(key, l)] => key.chars ++ ':' :: l.text
  | (key, l) :: m :: ms => key.chars ++ ':' :: (l.text ++ ',' :: membersText (m :: ms))

end

mutual

/-- The form of the text. -/
def form : Layout → Form
  | .word _ w _ => w.form
  | .array _ items _ => .array (itemForms items)
  | .object _ members _ => .object (memberForms members)

def itemForms : List Layout → List Form
  | [] => []
  | l :: ls => l.form :: itemForms ls

def memberForms : List (Key × Layout) → List (Option String × Form)
  | [] => []
  | (key, l) :: ms => (key.name, l.form) :: memberForms ms

end

/-! ## Layouts are read -/

/-- A text that may follow a value: nothing, or one that begins with a mark. -/
def Follows (more : List Char) : Prop :=
  ∀ c ∈ more.head?, c = ',' ∨ c = ']' ∨ c = '\x7d'

theorem Follows.endsNumber {more : List Char} (h : Follows more) : EndsNumber more := by
  intro c hc
  rcases h c hc with rfl | rfl | rfl <;> decide

theorem Follows.skipSpace_eq {more : List Char} (h : Follows more) : skipSpace more = more := by
  cases more with
  | nil => rfl
  | cons c cs =>
    refine skipSpace_cons ?_ cs
    rcases h c rfl with rfl | rfl | rfl <;> rfl

theorem follows_nil : Follows [] := by
  intro c hc
  cases hc

theorem follows_cons {c : Char} (h : c = ',' ∨ c = ']' ∨ c = '\x7d') (cs : List Char) :
    Follows (c :: cs) := by
  intro d hd
  cases hd
  exact h

theorem readValue_eq_none_of_close {cs tail : List Char} (h : skipSpace cs = ']' :: tail)
    (fuel : Nat) : readValue fuel cs = none := by
  cases fuel with
  | zero => rfl
  | succ fuel =>
    rw [readValue, h]
    rfl

theorem readValue_array {fuel : Nat} {cs rest : List Char} {fs : List Form}
    (h : readElements fuel cs = some (fs, rest)) :
    readValue (fuel + 1) ('[' :: cs) = some (.array fs, rest) := by
  rw [readValue_bracket, h, Option.map_some]
  intro tail hclose
  cases fuel with
  | zero => cases h
  | succ fuel =>
    rw [readElements, readValue_eq_none_of_close hclose] at h
    cases h

theorem readValue_object {fuel : Nat} {cs rest : List Char} {ms : List (Option String × Form)}
    (h : readMembers fuel cs = some (ms, rest)) :
    readValue (fuel + 1) ('\x7b' :: cs) = some (.object ms, rest) := by
  rw [readValue_brace, h, Option.map_some]
  intro tail hclose
  cases fuel with
  | zero => cases h
  | succ fuel =>
    rw [readMembers, hclose] at h
    cases h

section Names

variable (key : Key) {fuel : Nat} {value tail : List Char} {f : Form}

theorem skipSpace_key : skipSpace (key.chars ++ ':' :: value) =
    '"' :: (key.text ++ (key.back ++ ':' :: value)) := by
  rw [Key.chars, List.append_assoc, skipSpace_append key.front.2, List.cons_append,
    skipSpace_cons rfl, List.append_assoc]

theorem skipSpace_colon : skipSpace (key.back ++ ':' :: value) = ':' :: value := by
  rw [skipSpace_append key.back.2, skipSpace_cons rfl]

variable (hread : readValue fuel value = some (f, tail))

include hread

theorem readMembers_lastKey {rest : List Char} (h : skipSpace tail = '\x7d' :: rest) :
    readMembers (fuel + 1) (key.chars ++ ':' :: value) = some ([(key.name, f)], rest) := by
  rw [readMembers, skipSpace_key]
  simp only [key.readString, Option.bind_some, skipSpace_colon, hread, h]

theorem readMembers_moreKey {more : List Char} (h : skipSpace tail = ',' :: more) :
    readMembers (fuel + 1) (key.chars ++ ':' :: value) =
      (readMembers fuel more).map fun (ms, rest) => ((key.name, f) :: ms, rest) := by
  rw [readMembers, skipSpace_key]
  simp only [key.readString, Option.bind_some, skipSpace_colon, hread, h]

end Names

mutual

/-- The text of a layout is read as its form, and blanks may be left over. -/
theorem readValue_text (fuel : Nat) {more : List Char} (hmore : Follows more) : (l : Layout) →
    l.text.length ≤ fuel →
      ∃ rest, readValue fuel (l.text ++ more) = some (l.form, rest) ∧ skipSpace rest = more := by
  intro l hfuel
  match l with
  | .word front w back =>
    have hne := List.length_pos_of_ne_nil w.text_ne_nil
    simp only [text, List.length_append] at hfuel
    obtain ⟨fuel, rfl⟩ : ∃ k, fuel = k + 1 := ⟨fuel - 1, by omega⟩
    refine ⟨back ++ more, ?_, ?_⟩
    · rw [text, List.append_assoc, List.append_assoc, readValue_append front.2]
      exact w.isWord fuel _ (back.2.endsNumber hmore.endsNumber)
    · rw [skipSpace_append back.2, hmore.skipSpace_eq]
  | .array front items back =>
    simp only [text, List.length_append, List.length_cons] at hfuel
    obtain ⟨fuel, rfl⟩ : ∃ k, fuel = k + 1 := ⟨fuel - 1, by omega⟩
    refine ⟨back ++ more, ?_, ?_⟩
    · rw [text, List.append_assoc, readValue_append front.2, List.cons_append, List.append_assoc,
        List.cons_append]
      match items with
      | [] => exact isWord_emptyArray isBlank_nil fuel _ (back.2.endsNumber hmore.endsNumber)
      | l :: ls => exact readValue_array (readElements_text fuel _ l ls (by omega))
    · rw [skipSpace_append back.2, hmore.skipSpace_eq]
  | .object front members back =>
    simp only [text, List.length_append, List.length_cons] at hfuel
    obtain ⟨fuel, rfl⟩ : ∃ k, fuel = k + 1 := ⟨fuel - 1, by omega⟩
    refine ⟨back ++ more, ?_, ?_⟩
    · rw [text, List.append_assoc, readValue_append front.2, List.cons_append, List.append_assoc,
        List.cons_append]
      match members with
      | [] => exact isWord_emptyObject isBlank_nil fuel _ (back.2.endsNumber hmore.endsNumber)
      | m :: ms => exact readValue_object (readMembers_text fuel _ m ms (by omega))
    · rw [skipSpace_append back.2, hmore.skipSpace_eq]

theorem readElements_text (fuel : Nat) (rest : List Char) : (l : Layout) → (ls : List Layout) →
    (itemsText (l :: ls)).length + 1 ≤ fuel →
      readElements fuel (itemsText (l :: ls) ++ ']' :: rest) =
        some (itemForms (l :: ls), rest) := by
  intro l ls hfuel
  obtain ⟨fuel, rfl⟩ : ∃ k, fuel = k + 1 := ⟨fuel - 1, by omega⟩
  match ls with
  | [] =>
    rw [itemsText] at hfuel ⊢
    have hfollows := follows_cons (.inr (.inl rfl)) rest
    obtain ⟨tail, hread, htail⟩ := readValue_text fuel hfollows l (by omega)
    rw [readElements, hread]
    simp only [Option.bind_some, htail, itemForms]
  | k :: ls =>
    simp only [itemsText, List.length_append, List.length_cons] at hfuel
    have hfollows := follows_cons (.inl rfl) (itemsText (k :: ls) ++ ']' :: rest)
    obtain ⟨tail, hread, htail⟩ := readValue_text fuel hfollows l (by omega)
    have hmore := readElements_text fuel rest k ls (by omega)
    rw [itemsText, List.append_assoc, List.cons_append, readElements, hread]
    simp only [Option.bind_some, htail, hmore, Option.map_some, itemForms]

theorem readMembers_text (fuel : Nat) (rest : List Char) : (m : Key × Layout) →
    (ms : List (Key × Layout)) → (membersText (m :: ms)).length + 1 ≤ fuel →
      readMembers fuel (membersText (m :: ms) ++ '\x7d' :: rest) =
        some (memberForms (m :: ms), rest) := by
  intro m ms hfuel
  obtain ⟨key, l⟩ := m
  obtain ⟨fuel, rfl⟩ : ∃ k, fuel = k + 1 := ⟨fuel - 1, by omega⟩
  match ms with
  | [] =>
    simp only [membersText, List.length_append, List.length_cons] at hfuel
    have hfollows := follows_cons (.inr (.inr rfl)) rest
    obtain ⟨tail, hread, htail⟩ := readValue_text fuel hfollows l (by omega)
    rw [membersText, List.append_assoc, List.cons_append, readMembers_lastKey key hread htail,
      memberForms, memberForms]
  | m :: ms =>
    simp only [membersText, List.length_append, List.length_cons] at hfuel
    have hfollows := follows_cons (.inl rfl) (membersText (m :: ms) ++ '\x7d' :: rest)
    obtain ⟨tail, hread, htail⟩ := readValue_text fuel hfollows l (by omega)
    have hmore := readMembers_text fuel rest m ms (by omega)
    rw [membersText, List.append_assoc, List.cons_append, List.append_assoc, List.cons_append,
      readMembers_moreKey key hread htail, hmore]
    rfl

end

/-! ## What is read has a layout -/

/-- The layout with more blanks behind it. -/
def pad (l : Layout) (blank : Blank) : Layout :=
  match l with
  | .word front w back => .word front w ⟨back ++ blank, back.2.append blank.2⟩
  | .array front items back => .array front items ⟨back ++ blank, back.2.append blank.2⟩
  | .object front members back => .object front members ⟨back ++ blank, back.2.append blank.2⟩

theorem text_pad (l : Layout) (blank : Blank) : (l.pad blank).text = l.text ++ blank := by
  cases l <;> simp [pad, text]

theorem form_pad (l : Layout) (blank : Blank) : (l.pad blank).form = l.form := by
  cases l <;> rfl

theorem exists_key {cs text colon : List Char} {name : Option String}
    (hquote : skipSpace cs = '"' :: text) (hname : readString text = some (name, colon)) :
    ∃ key : Key, key.name = name ∧ cs = key.chars ++ skipSpace colon := by
  obtain ⟨front, hfront, hcs⟩ := exists_blank cs
  obtain ⟨back, hback, hcolon⟩ := exists_blank colon
  obtain ⟨chars, rfl, hchars⟩ := readString_front hname
  have hreads := hchars []
  rw [List.append_nil] at hreads
  refine ⟨⟨⟨front, hfront⟩, chars, ⟨back, hback⟩, name, hreads⟩, rfl, ?_⟩
  simp only [Key.chars, List.append_assoc, List.cons_append]
  rw [← hcolon, ← hquote, ← hcs]

/-- Blanks up to a mark belong to the layout before it. -/
theorem exists_pad (l : Layout) (tail : List Char) :
    ∃ k : Layout, k.form = l.form ∧ l.text ++ tail = k.text ++ skipSpace tail := by
  obtain ⟨blank, hblank, htail⟩ := exists_blank tail
  refine ⟨l.pad ⟨blank, hblank⟩, form_pad l _, ?_⟩
  rw [text_pad, List.append_assoc, ← htail]

mutual

theorem exists_layout : (fuel : Nat) → {cs rest : List Char} → {f : Form} →
    readValue fuel cs = some (f, rest) → ∃ l : Layout, l.form = f ∧ cs = l.text ++ rest
  | 0, _, _, _, h => by cases h
  | fuel + 1, cs, rest, f, h => by
    rcases readValue_cases h with ⟨text, htext, rfl⟩ |
      ⟨front, tail, fs, hfront, rfl, helements, rfl⟩ | ⟨front, tail, ms, hfront, rfl, hmembers, rfl⟩
    · have hreads := htext 0 [] follows_nil.endsNumber
      rw [List.append_nil] at hreads
      exact ⟨.word ⟨[], isBlank_nil⟩ ⟨text, f, hreads⟩ ⟨[], isBlank_nil⟩, rfl, by simp [Layout.text]⟩
    · obtain ⟨l, ls, rfl, rfl⟩ := exists_items fuel helements
      exact ⟨.array ⟨front, hfront⟩ (l :: ls) ⟨[], isBlank_nil⟩, rfl, by simp [text]⟩
    · obtain ⟨m, ms, rfl, rfl⟩ := exists_members fuel hmembers
      exact ⟨.object ⟨front, hfront⟩ (m :: ms) ⟨[], isBlank_nil⟩, rfl, by simp [text]⟩

theorem exists_items : (fuel : Nat) → {cs rest : List Char} → {fs : List Form} →
    readElements fuel cs = some (fs, rest) →
      ∃ l ls, itemForms (l :: ls) = fs ∧ cs = itemsText (l :: ls) ++ ']' :: rest
  | 0, _, _, _, h => by cases h
  | fuel + 1, cs, rest, fs, h => by
    obtain ⟨f, tail, hvalue, hafter⟩ := readElements_cases h
    obtain ⟨l, rfl, rfl⟩ := exists_layout fuel hvalue
    obtain ⟨padded, hform, htext⟩ := exists_pad l tail
    rw [htext]
    rcases hafter with ⟨hclose, rfl⟩ | ⟨more, gs, hcomma, hmore, rfl⟩
    · refine ⟨padded, [], ?_, ?_⟩
      · rw [itemForms, itemForms, hform]
      · rw [hclose, itemsText]
    · obtain ⟨k, ks, rfl, rfl⟩ := exists_items fuel hmore
      refine ⟨padded, k :: ks, ?_, ?_⟩
      · rw [itemForms, hform]
      · rw [hcomma, itemsText, List.append_assoc, List.cons_append]

theorem exists_members : (fuel : Nat) → {cs rest : List Char} →
    {ns : List (Option String × Form)} → readMembers fuel cs = some (ns, rest) →
      ∃ m ms, memberForms (m :: ms) = ns ∧ cs = membersText (m :: ms) ++ '\x7d' :: rest
  | 0, _, _, _, h => by cases h
  | fuel + 1, cs, rest, ns, h => by
    obtain ⟨text, name, colon, value, f, tail, hquote, hname, hcolon, hvalue, hafter⟩ :=
      readMembers_cases h
    obtain ⟨l, rfl, rfl⟩ := exists_layout fuel hvalue
    obtain ⟨padded, hform, htext⟩ := exists_pad l tail
    obtain ⟨key, rfl, hkey⟩ := exists_key hquote hname
    rw [hkey, hcolon, htext]
    rcases hafter with ⟨hclose, rfl⟩ | ⟨more, ms, hcomma, hmore, rfl⟩
    · refine ⟨(key, padded), [], ?_, ?_⟩
      · rw [memberForms, memberForms, hform]
      · rw [hclose, membersText, List.append_assoc, List.cons_append]
    · obtain ⟨m, ms, rfl, rfl⟩ := exists_members fuel hmore
      refine ⟨(key, padded), m :: ms, ?_, ?_⟩
      · rw [memberForms, hform]
      · rw [hcomma, membersText, List.append_assoc, List.cons_append, List.append_assoc,
          List.cons_append]

end

/-- A text is read as a form exactly if it has a layout with that form. -/
theorem ofText?_eq_some_iff {s : String} {f : Form} :
    Form.ofText? s = some f ↔ ∃ l : Layout, l.text = s.toList ∧ l.form = f := by
  constructor
  · intro h
    obtain ⟨⟨g, rest⟩, hread, h⟩ := Option.bind_eq_some_iff.1 h
    obtain ⟨l, rfl, htext⟩ := exists_layout _ hread
    obtain ⟨padded, hform, hpad⟩ := exists_pad l rest
    dsimp only at h
    split at h
    · next hempty =>
      cases h
      rw [List.isEmpty_iff.1 hempty, List.append_nil] at hpad
      exact ⟨padded, by rw [htext, hpad], hform⟩
    · cases h
  · rintro ⟨l, htext, rfl⟩
    obtain ⟨rest, hread, hrest⟩ := l.readValue_text (2 * l.text.length + 2) follows_nil
      (by omega)
    rw [List.append_nil] at hread
    rw [Form.ofText?, ← htext]
    simp only [hread, Option.bind_some, hrest, List.isEmpty_nil, if_true]

end Layout
end ScreenTree.Json
