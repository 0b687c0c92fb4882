import ScreenTree.Proofs.Markup.Legible
import ScreenTree.Proofs.Markup.Strictness
import ScreenTree.Proofs.Names
import ScreenTree.Script.Transform

/-! # Names that can be imported

Strict rendering accepts the names of elements, in which `.`, `:` and `-` may stand, and looks at the
elements that it writes. So an import line binds a name of a script exactly if none of these
characters is in the tag, as far as elements with this tag are written. -/

namespace ScreenTree

namespace Tag

open Markup

/-- A plain tag keeps its characters, but for the case of the first one. -/
theorem exists_toList_identifier {tag : String} (h : isPlain tag = true) :
    ∃ c cs, tag.toList = c :: cs ∧ (identifier tag).toList = c.toUpper :: cs ∧
      isPlainStart c = true ∧ IsName cs := by
  rw [isPlain] at h
  split at h
  · cases h
  · next c cs htag =>
    rw [Bool.and_eq_true, List.all_eq_true] at h
    have hinitial : AsciiInitial tag := by
      intro d hd
      rw [htag] at hd
      cases hd
      exact lt_of_isPlainPart (isPlainPart_of_isPlainStart h.1)
    refine ⟨c, cs, htag, ?_, h⟩
    rw [toList_identifier hinitial, htag]
    rfl

theorem isPlainStart_toUpper {c : Char} (h : isPlainStart c = true) :
    isPlainStart c.toUpper = true :=
  plainPart_forall (P := fun c => isPlainStart c = true → isPlainStart c.toUpper = true) (by decide)
    (isPlainPart_of_isPlainStart h) h

theorem isNameStart_of_isPlainStart {c : Char} (h : isPlainStart c = true) :
    Script.isNameStart c = true := by
  rw [Script.isNameStart, ← isPlainStart, h, Bool.true_or]

/-- The character may stand in a plain tag, but not in a name of a script. -/
def IsJoint (c : Char) : Prop :=
  c = '.' ∨ c = ':' ∨ c = '-'

instance (c : Char) : Decidable (IsJoint c) :=
  inferInstanceAs (Decidable (_ ∨ _))

theorem isNamePart_iff {c : Char} (h : isPlainPart c = true) :
    Script.isNamePart c = true ↔ ¬ IsJoint c :=
  plainPart_forall (P := fun c => Script.isNamePart c = true ↔ ¬ IsJoint c) (by decide) h

theorem isPlain_identifier {tag : String} (h : isPlain tag = true) :
    isPlain (identifier tag) = true := by
  obtain ⟨c, cs, -, hidentifier, hc, hcs⟩ := exists_toList_identifier h
  simp only [isPlain, hidentifier, isPlainStart_toUpper hc, Bool.true_and, List.all_eq_true]
  exact hcs

/-- The identifier of a plain tag is a name of a script if no joint is in the tag. -/
theorem isSimpleName_identifier_iff {tag : String} (h : isPlain tag = true) :
    Script.isSimpleName (identifier tag) = true ↔ ∀ c ∈ tag.toList, ¬ IsJoint c := by
  obtain ⟨c, cs, htag, hidentifier, hc, hcs⟩ := exists_toList_identifier h
  have hstart := isNameStart_of_isPlainStart (isPlainStart_toUpper hc)
  have hfirst : ¬ IsJoint c := by
    rintro (rfl | rfl | rfl) <;> cases hc
  simp only [Script.isSimpleName, hidentifier, hstart, Bool.true_and, List.all_eq_true, htag,
    List.forall_mem_cons]
  constructor
  · exact fun hall => ⟨hfirst, fun d hd => (isNamePart_iff (hcs d hd)).1 (hall d hd)⟩
  · exact fun hall d hd => (isNamePart_iff (hcs d hd)).2 (hall.2 d hd)

end Tag

namespace Import

open Markup

/-- An element with the tag is written on the screen. -/
def Shows (tree : Tree) (tag : String) : Prop :=
  ∃ visit ∈ Style.screen.reached 0 tree.root, visit.2.kind = .element tag

instance (tree : Tree) (tag : String) : Decidable (Shows tree tag) :=
  inferInstanceAs (Decidable (∃ visit ∈ _, _))

/-- The app module that strict rendering gives declares the names that its import lines bind. Each
of them whose tag is on an element that is written has the form of a plain tag, and is a name of a
script exactly if there is no joint in the tag. -/
theorem isSimpleName_binding_iff (o : Options) (hmode : o.mode = .strict) (tree : Tree)
    (text : String) (h : o.appModule tree = .ok text) :
    Declares o tree text (names tree) o.appName ∧
      ∀ i ∈ ofTree tree, Shows tree i.tag → Tag.isPlain i.binding = true ∧
        (Script.isSimpleName i.binding = true ↔ ∀ c ∈ i.tag.toList, ¬ Tag.IsJoint c) := by
  have hdeclares := declares_of_appModule h
  obtain ⟨markup, hmarkup, rfl⟩ := Style.exists_of_map_eq_ok h
  rw [Style.markup_eq_ok_iff, hmode, Style.draw_strict_eq_ok_iff] at hmarkup
  refine ⟨hdeclares, ?_⟩
  rintro i - ⟨visit, hvisit, hkind⟩
  have hplain : Tag.isPlain i.tag = true :=
    Style.isPlain_of_fault? Style.screen hkind rfl (hmarkup.2 visit hvisit)
  exact ⟨Tag.isPlain_identifier hplain, Tag.isSimpleName_identifier_iff hplain⟩

/-- A tree with a tag that holds a joint, and an invalid tag that is imported without being
written. -/
def jointed : Tree :=
  ⟨Node.root.withChildren
    [Node.element "my-card", (Node.element "button").withChildren [Node.element "not a tag"]]⟩

theorem appModule_jointed :
    Options.strict.appModule jointed =
      .ok (Options.strict.appText jointed "<My-card />\n<Button />") := by
  decide +kernel

theorem isSimpleName_binding_jointed :
    Shows jointed "my-card" ∧ Script.isSimpleName "My-card" = false ∧
      Shows jointed "button" ∧ Script.isSimpleName "Button" = true := by
  have hcard : Shows jointed "my-card" := by decide +kernel
  have hbutton : Shows jointed "button" := by decide +kernel
  obtain ⟨-, hnames⟩ :=
    isSimpleName_binding_iff .strict rfl jointed _ appModule_jointed
  have hjoint : '-' ∈ "my-card".toList := by simp
  obtain ⟨-, hmyCard⟩ := hnames ⟨"my-card", .user⟩ (by decide +kernel) hcard
  obtain ⟨-, hplainButton⟩ := hnames ⟨"button", .registry⟩ (by decide +kernel) hbutton
  have hcardName : binding ⟨"my-card", .user⟩ = "My-card" := by decide +kernel
  have hbuttonName : binding ⟨"button", .registry⟩ = "Button" := by decide +kernel
  rw [hcardName] at hmyCard
  rw [hbuttonName] at hplainButton
  refine ⟨hcard, ?_, hbutton, hplainButton.2 (by simp [Tag.IsJoint])⟩
  rw [← Bool.not_eq_true, hmyCard]
  exact fun h => h '-' hjoint (.inr (.inr rfl))

/-- Strict rendering succeeds, and of three names two are no names of a script. -/
theorem names_jointed :
    (∃ text, Options.strict.appModule jointed = .ok text) ∧
      names jointed = ["My-card", "Button", "Not a tag"] ∧
      ¬ ∀ name ∈ names jointed, Script.isSimpleName name = true :=
  ⟨⟨_, appModule_jointed⟩, by decide +kernel, by decide +kernel⟩

end Import
end ScreenTree
