import ScreenTree.Markup.Element
import ScreenTree.Proofs.Markup.Outline

/-! # Legible names and attributes

A plain name and the attributes of legible properties make a tag that is read as the tag with this
name. -/

namespace ScreenTree

namespace Markup

theorem lt_of_isPlainPart {c : Char} (h : Tag.isPlainPart c = true) : c.toNat < 128 := by
  simp only [Tag.isPlainPart, Bool.or_eq_true, beq_iff_eq] at h
  rcases h with (((h | rfl) | rfl) | rfl) | rfl
  · exact Text.lt_of_isAlphanum h
  all_goals decide

/-- A property of the characters of plain names, checked one by one. -/
theorem plainPart_forall {P : Char → Prop}
    (hall : ∀ n < 128, Tag.isPlainPart (Char.ofNat n) = true → P (Char.ofNat n)) {c : Char}
    (h : Tag.isPlainPart c = true) : P c :=
  Text.ascii_forall (P := fun c => Tag.isPlainPart c = true → P c) hall (lt_of_isPlainPart h) h

theorem endsName_eq_false {c : Char} (h : Tag.isPlainPart c = true) : Token.endsName c = false :=
  plainPart_forall (P := fun c => Token.endsName c = false) (by decide) h

theorem isPlainPart_toUpper {c : Char} (h : Tag.isPlainPart c = true) :
    Tag.isPlainPart c.toUpper = true :=
  plainPart_forall (P := fun c => Tag.isPlainPart c.toUpper = true) (by decide) h

def IsName (name : List Char) : Prop :=
  ∀ c ∈ name, Tag.isPlainPart c = true

theorem IsName.not_mem {name : List Char} (h : IsName name) {c : Char}
    (hc : Tag.isPlainPart c = false) : c ∉ name := by
  intro hmem
  rw [h c hmem] at hc
  cases hc

theorem isPlainPart_of_isPlainStart {c : Char} (h : Tag.isPlainStart c = true) :
    Tag.isPlainPart c = true := by
  rw [Tag.isPlainStart, Bool.or_eq_true] at h
  rcases h with h | h <;> simp [Tag.isPlainPart, Char.isAlphanum, h]

theorem exists_cons_of_isPlain {tag : String} (h : Tag.isPlain tag = true) :
    ∃ c cs, tag.toList = c :: cs ∧ Tag.isPlainPart c = true ∧ IsName cs := by
  rw [Tag.isPlain] at h
  split at h
  · cases h
  · rename_i c cs htag
    rw [Bool.and_eq_true, List.all_eq_true] at h
    exact ⟨c, cs, htag, isPlainPart_of_isPlainStart h.1, h.2⟩

theorem isName_of_isPlain {tag : String} (h : Tag.isPlain tag = true) : IsName tag.toList := by
  obtain ⟨c, cs, htag, hc, hcs⟩ := exists_cons_of_isPlain h
  rw [htag]
  exact List.forall_mem_cons.2 ⟨hc, hcs⟩

theorem isName_identifier {tag : String} (h : Tag.isPlain tag = true) :
    IsName (Tag.identifier tag).toList := by
  obtain ⟨c, cs, htag, hc, hcs⟩ := exists_cons_of_isPlain h
  have hupper : Uppercase.ofChar c = [c.toUpper] := if_pos (lt_of_isPlainPart hc)
  have hidentifier : (Tag.identifier tag).toList = c.toUpper :: cs := by
    simp [Tag.identifier, Uppercase.capitalize, htag, hupper]
  rw [hidentifier]
  exact List.forall_mem_cons.2 ⟨isPlainPart_toUpper hc, hcs⟩

/-- Attributes that do not change how the tag before them is read. -/
structure IsAttributes (attrs : List Char) : Prop where
  no_bracket : '>' ∉ attrs
  blank_first : ∀ c ∈ attrs.head?, c = ' '
  no_slash_last : '/' ∉ attrs.getLast?

theorem IsAttributes.nil : IsAttributes [] := by
  constructor <;> simp

theorem IsAttributes.append {attrs more : List Char} (h : IsAttributes attrs)
    (hmore : IsAttributes more) : IsAttributes (attrs ++ more) := by
  constructor
  · rw [List.mem_append, not_or]
    exact ⟨h.no_bracket, hmore.no_bracket⟩
  · cases attrs with
    | nil => exact hmore.blank_first
    | cons c cs => exact h.blank_first
  · rw [List.getLast?_append]
    have hslash := hmore.no_slash_last
    cases hlast : more.getLast? with
    | none => exact h.no_slash_last
    | some c =>
      rw [hlast] at hslash
      exact hslash

theorem isAttributes_concat {parts : List String} (h : ∀ part ∈ parts, IsAttributes part.toList) :
    IsAttributes (Text.concat parts).toList := by
  induction parts with
  | nil => exact .nil
  | cons part parts ih =>
    obtain ⟨hpart, hparts⟩ := List.forall_mem_cons.1 h
    rw [Text.concat, String.toList_append]
    exact hpart.append (ih hparts)

namespace Token

theorem nameOf_append {name : List Char} (hname : IsName name) (rest : List Char)
    (hrest : ∀ c ∈ rest.head?, endsName c = true) :
    nameOf (name ++ rest) = String.ofList name := by
  have hstop : rest.takeWhile (fun c => !endsName c) = [] := by
    cases rest with
    | nil => rfl
    | cons c cs => exact List.takeWhile_cons_of_neg (by simp [hrest c rfl])
  rw [nameOf, List.takeWhile_append_of_pos, hstop, List.append_nil]
  intro c hc
  rw [endsName_eq_false (hname c hc)]
  rfl

theorem ofMark_of_head {mark : List Char} (h : '/' ∉ mark.head?) :
    ofMark mark =
      if mark.getLast? = some '/' then .single (nameOf mark) else .opening (nameOf mark) := by
  rw [ofMark]
  rintro cs rfl
  exact h rfl

theorem head?_tag {name attrs : List Char} (hname : IsName name) (hattrs : IsAttributes attrs) :
    '/' ∉ (name ++ attrs).head? := by
  cases name with
  | nil =>
    intro hslash
    cases hattrs.blank_first '/' hslash
  | cons c cs =>
    intro hslash
    exact hname.not_mem rfl (List.mem_of_mem_head? hslash)

theorem nameOf_tag {name attrs : List Char} (hname : IsName name)
    (hattrs : IsAttributes attrs) (rest : List Char) (hrest : ∀ c ∈ rest.head?, endsName c = true) :
    nameOf (name ++ attrs ++ rest) = String.ofList name := by
  rw [List.append_assoc]
  refine nameOf_append hname (attrs ++ rest) ?_
  intro c hc
  cases attrs with
  | nil => exact hrest c hc
  | cons blank _ =>
    rw [← Option.some.inj hc, hattrs.blank_first blank rfl]
    rfl

theorem ofMark_opening {name attrs : List Char} (hname : IsName name)
    (hattrs : IsAttributes attrs) : ofMark (name ++ attrs) = .opening (String.ofList name) := by
  have hlast : (name ++ attrs).getLast? ≠ some '/' := by
    rw [List.getLast?_append]
    cases hattrsLast : attrs.getLast? with
    | none =>
      intro hslash
      exact hname.not_mem rfl (List.mem_of_getLast? hslash)
    | some c =>
      intro hslash
      exact hattrs.no_slash_last (hattrsLast.trans hslash)
  have hnameOf := nameOf_tag hname hattrs [] nofun
  rw [List.append_nil] at hnameOf
  rw [ofMark_of_head (head?_tag hname hattrs), if_neg hlast, hnameOf]

theorem ofMark_single {name attrs : List Char} (hname : IsName name)
    (hattrs : IsAttributes attrs) :
    ofMark (name ++ attrs ++ [' ', '/']) = .single (String.ofList name) := by
  have hhead : '/' ∉ (name ++ attrs ++ [' ', '/']).head? := by
    rw [List.head?_append]
    have htag := head?_tag hname hattrs
    cases hfirst : (name ++ attrs).head? with
    | none => decide
    | some c =>
      rw [hfirst] at htag
      exact htag
  have hends : ∀ c ∈ [' ', '/'].head?, endsName c = true := by
    rintro c ⟨⟩
    rfl
  have hnameOf := nameOf_tag hname hattrs [' ', '/'] hends
  rw [ofMark_of_head hhead, if_pos (by simp), hnameOf]

theorem ofMark_closing {name : List Char} (hname : IsName name) :
    ofMark ('/' :: name) = .closing (String.ofList name) := by
  have hnameOf := nameOf_append hname [] nofun
  rw [List.append_nil] at hnameOf
  rw [ofMark, hnameOf]

end Token

/-! ## Legible properties -/

def Unangled (text : String) : Prop :=
  '<' ∉ text.toList ∧ '>' ∉ text.toList

instance (text : String) : Decidable (Unangled text) :=
  inferInstanceAs (Decidable (_ ∧ _))

theorem markupText_of_reference? {v : Value} {name : String} (h : v.reference? = some name) :
    v.markupText.toList = '$' :: name.toList := by
  cases v with
  | bool _ => cases h
  | number _ => cases h
  | json _ => cases h
  | text s =>
    rw [Value.reference?] at h
    split at h
    · rename_i cs hs
      cases h
      rw [Value.markupText, hs, String.toList_ofList]
    · cases h

theorem not_mem_literal {mode : Mode} {v : Value} {text : String}
    (h : literal mode (some v) = .ok text) (hv : Unangled v.markupText) : '<' ∉ text.toList := by
  have hno := hv.1
  rw [literal] at h
  cases hreference : v.reference? with
  | none =>
    simp only [hreference] at h
    cases h
    exact hno
  | some name =>
    simp only [hreference] at h
    cases h
    rw [markupText_of_reference? hreference, List.mem_cons, not_or] at hno
    simpa [braced] using hno.2

end Markup

namespace Property

/-- The text of the value that is written with the property, if any. -/
def valueText? (p : Property) : Option String :=
  if p.type = some .boolean then none else p.actual?.map Value.markupText

/-- The property cannot be taken for an end of its tag. -/
structure IsLegible (p : Property) : Prop where
  name : Markup.Unangled p.name
  name_no_slash : '/' ∉ p.name.toList
  value : ∀ text ∈ p.valueText?, Markup.Unangled text

instance (p : Property) : Decidable p.IsLegible :=
  decidable_of_iff
    (Markup.Unangled p.name ∧ '/' ∉ p.name.toList ∧ ∀ text ∈ p.valueText?, Markup.Unangled text)
    ⟨fun h => ⟨h.1, h.2.1, h.2.2⟩, fun h => ⟨h.name, h.name_no_slash, h.value⟩⟩

end Property

namespace Markup

theorem isAttributes_flag {name : List Char} (hname : '>' ∉ name) (hslash : '/' ∉ name) :
    IsAttributes (' ' :: name) := by
  refine ⟨by simp [hname], by simp, ?_⟩
  rw [List.getLast?_cons]
  intro hlast
  cases hname : name.getLast? with
  | none =>
    rw [hname] at hlast
    cases hlast
  | some c =>
    rw [hname] at hlast
    cases hlast
    exact hslash (List.mem_of_getLast? hname)

theorem isAttributes_pair {name value : List Char} (left right : Char) (hname : '>' ∉ name)
    (hvalue : '>' ∉ value) (hleft : '>' ≠ left) (hright : '>' ≠ right) (hslash : '/' ≠ right) :
    IsAttributes (' ' :: (name ++ '=' :: left :: (value ++ [right]))) := by
  refine ⟨by simp [hname, hvalue, hleft, hright], by simp, ?_⟩
  have hconcat : ' ' :: (name ++ '=' :: left :: (value ++ [right])) =
      (' ' :: (name ++ '=' :: left :: value)) ++ [right] := by simp
  rw [hconcat, List.getLast?_concat]
  intro hlast
  exact hslash (Option.some.inj hlast).symm

theorem isAttributes_attribute? {p : Property} (h : p.IsLegible) :
    ∀ text ∈ attribute? p, IsAttributes text.toList := by
  intro text htext
  rw [attribute?] at htext
  obtain ⟨value, hvalue, htext⟩ := Option.bind_eq_some_iff.1 htext
  have hvalueText : p.type ≠ some .boolean → '>' ∉ value.markupText.toList := by
    intro htype
    refine (h.value _ ?_).2
    rw [Property.valueText?, if_neg htype, hvalue]
    rfl
  split at htext
  · split at htext
    · cases htext
      have hflag := isAttributes_flag h.name.2 h.name_no_slash
      simpa using hflag
    · cases htext
  · rename_i htype
    cases htext
    have hpair := isAttributes_pair '\x7b' '\x7d' h.name.2
      (hvalueText (by simp [htype])) (by decide) (by decide) (by decide)
    simpa [braced] using hpair
  · rename_i hboolean _
    cases htext
    have hpair := isAttributes_pair '"' '"' h.name.2
      (hvalueText hboolean) (by decide) (by decide) (by decide)
    simpa using hpair

end Markup
end ScreenTree
