import ScreenTree.Markup.Module
import ScreenTree.Proofs.Imports
import Mathlib.Data.List.Forall2
import Mathlib.Data.List.Nodup

/-! # Names of an app module

An app module declares a name with each import line and one with its function. Imports are kept
apart by their tags, and a tag gives its name by the upper case of its first character. So a name is
declared twice exactly if two component tags of the tree, or one and the function, come to the same
name. -/

namespace ScreenTree

namespace Tag

/-- The first character of the tag is an ASCII one. -/
def AsciiInitial (tag : String) : Prop :=
  ∀ c ∈ tag.toList.head?, c.toNat < 0x80

/-- The tags are equal up to the case of the first letter. -/
def EqualUpToInitialCase (s t : String) : Prop :=
  s.toList.head?.map Char.toUpper = t.toList.head?.map Char.toUpper ∧
    s.toList.tail = t.toList.tail

theorem toList_identifier {tag : String} (h : AsciiInitial tag) :
    (identifier tag).toList = (tag.toList.head?.map Char.toUpper).toList ++ tag.toList.tail := by
  rw [identifier, Uppercase.capitalize]
  cases hchars : tag.toList with
  | nil => rfl
  | cons c cs =>
    have hc : c.toNat < 0x80 := h c (by rw [hchars]; rfl)
    simp [Uppercase.ofChar, hc]

/-- Tags that begin with ASCII characters have one name if they differ in the case of the first
letter only. -/
theorem identifier_eq_iff {s t : String} (hs : AsciiInitial s) (ht : AsciiInitial t) :
    identifier s = identifier t ↔ EqualUpToInitialCase s t := by
  rw [← String.toList_inj, toList_identifier hs, toList_identifier ht, EqualUpToInitialCase]
  cases s.toList <;> cases t.toList <;> simp

end Tag

namespace Import

open Node

/-- The tag is a component of the tree that is not below a literal. -/
def Uses (tree : Tree) (tag : String) : Prop :=
  Tag.isComponent tag = true ∧ ∃ n, OutsideLiterals tree.root n ∧ n.kind = .element tag

/-- What an app module holds behind its imports: the function of this name around the markup. -/
def functionText (name markup : String) : String :=
  "\nexport default function " ++ name ++ "() \x7b\n    return (\n        <div>\n" ++ markup ++
    "\n        </div>\n    );\n\x7d"

/-- The text is made up of one line for each import of the tree and of one function around its
markup. The lines bind these names, one after another, and the function has the last name. -/
def Declares (options : Options) (tree : Tree) (text : String) (imported : List String)
    (function : String) : Prop :=
  ∃ markup, options.markup tree.root 0 = .ok markup ∧
    text = Text.concat ((ofTree tree).map (line options)) ++ functionText function markup ∧
    List.Forall₂ (fun i name => Binds options i (line options i) name) (ofTree tree) imported

/-- The names that the import lines of a tree bind. -/
def names (tree : Tree) : List String :=
  (ofTree tree).map binding

theorem names_eq (tree : Tree) :
    names tree = ((ofTree tree).map Import.tag).map Tag.identifier := by
  rw [names, List.map_map]
  rfl

theorem mem_names_iff {tree : Tree} {name : String} :
    name ∈ names tree ↔ ∃ tag, Uses tree tag ∧ Tag.identifier tag = name := by
  rw [names_eq, List.mem_map]
  simp only [mem_tags_iff, Uses]

theorem nodup_tags (tree : Tree) : ((ofTree tree).map Import.tag).Nodup :=
  (pairwise_firstUse tree).imp fun h heq => by
    subst heq
    exact Nat.lt_irrefl _ h

theorem nodup_names_iff {tree : Tree} :
    (names tree).Nodup ↔
      ∀ s t, Uses tree s → Uses tree t → Tag.identifier s = Tag.identifier t → s = t := by
  rw [names_eq, List.nodup_map_iff_inj_on (nodup_tags tree)]
  constructor
  · exact fun h s t hs ht => h s (mem_tags_iff.2 hs) t (mem_tags_iff.2 ht)
  · exact fun h s hs t ht => h s t (mem_tags_iff.1 hs) (mem_tags_iff.1 ht)

theorem appText_eq_functionText (options : Options) (tree : Tree) (markup : String) :
    options.appText tree markup =
      Text.concat ((ofTree tree).map (line options)) ++ functionText options.appName markup := by
  delta Options.appText lines functionText
  simp only [String.append_assoc]

theorem forall₂_binds (options : Options) (tree : Tree) :
    List.Forall₂ (fun i name => Binds options i (line options i) name) (ofTree tree)
      (names tree) := by
  rw [names, List.forall₂_map_right_iff]
  exact List.forall₂_same.2 fun i _ => binds_line options i

theorem declares_of_appModule {options : Options} {tree : Tree} {text : String}
    (h : options.appModule tree = .ok text) :
    Declares options tree text (names tree) options.appName := by
  obtain ⟨markup, hmarkup, rfl⟩ := Markup.Style.exists_of_map_eq_ok h
  exact ⟨markup, hmarkup, appText_eq_functionText options tree markup, forall₂_binds options tree⟩

/-- An app module is its import lines, one for each import of the tree, and its function. The names
that it declares are those that the lines bind and that of the function. They differ from each other
exactly if the components of the tree have names that differ from each other and from that of the
function. Tags that begin with ASCII characters share a name exactly if they are equal up to the
case of the first letter. -/
theorem declared_once_iff (options : Options) (tree : Tree) :
    (∀ text, options.appModule tree = .ok text →
      Declares options tree text (names tree) options.appName) ∧
      ((names tree).Nodup ∧ options.appName ∉ names tree ↔
        (∀ s t, Uses tree s → Uses tree t → Tag.identifier s = Tag.identifier t → s = t) ∧
          ∀ t, Uses tree t → Tag.identifier t ≠ options.appName) ∧
      ∀ s t, Tag.AsciiInitial s → Tag.AsciiInitial t →
        (Tag.identifier s = Tag.identifier t ↔ Tag.EqualUpToInitialCase s t) := by
  refine ⟨fun text => declares_of_appModule, ?_, fun s t => Tag.identifier_eq_iff⟩
  have happ : options.appName ∉ names tree ↔
      ∀ t, Uses tree t → Tag.identifier t ≠ options.appName := by
    rw [mem_names_iff, not_exists]
    exact forall_congr' fun t => not_and
  rw [nodup_names_iff, happ]

/-- A supplied component and another one are declared apart, each by a line of its own. -/
theorem declared_once_card_badge :
    let tree : Tree := ⟨Node.root.withChildren [Node.element "card", Node.element "badge"]⟩
    let text := "import \x7b Card \x7d from \"../../../componentregistry/card.jsx\";\n" ++
      "import \x7b Badge \x7d from \"../../../usercomponents/badge.jsx\";\n" ++
      "\nexport default function GeneratedApp() \x7b\n    return (\n        <div>\n" ++
      "<Card />\n<Badge />\n        </div>\n    );\n\x7d"
    Options.standard.appModule tree = .ok text ∧
      Declares .standard tree text ["Card", "Badge"] "GeneratedApp" ∧
      (["Card", "Badge"].Nodup ∧ "GeneratedApp" ∉ ["Card", "Badge"]) ∧
      Tag.AsciiInitial "card" ∧ Tag.AsciiInitial "Card" ∧
      Tag.EqualUpToInitialCase "card" "Card" := by
  intro tree text
  have hmodule : Options.standard.appModule tree = .ok text := by decide +kernel
  have hnames : names tree = ["Card", "Badge"] := by decide +kernel
  have hcard : Tag.AsciiInitial "card" := by simp [Tag.AsciiInitial]
  have hCard : Tag.AsciiInitial "Card" := by simp [Tag.AsciiInitial]
  obtain ⟨hdeclares, -, hcase⟩ := declared_once_iff .standard tree
  have hsame : Tag.identifier "card" = Tag.identifier "Card" := by decide +kernel
  refine ⟨hmodule, hnames ▸ hdeclares text hmodule, by decide, hcard, hCard,
    (hcase _ _ hcard hCard).1 hsame⟩

/-- A tree with a component under two spellings, and one that is named like the app. -/
def crowded : Tree :=
  ⟨Node.root.withChildren [Node.element "card", Node.element "Card", Node.element "generatedApp"]⟩

/-- Its app module declares one name with two lines, and the name of its function with a third. -/
theorem names_crowded :
    names crowded = ["Card", "Card", "GeneratedApp"] ∧ ¬ (names crowded).Nodup ∧
      Options.standard.appName ∈ names crowded ∧
      ∃ text, Options.standard.appModule crowded = .ok text ∧
        Declares .standard crowded text (names crowded) Options.standard.appName := by
  have hmodule : Options.standard.appModule crowded =
      .ok (Options.standard.appText crowded "<Card />\n<Card />\n<GeneratedApp />") := by
    decide +kernel
  exact ⟨by decide +kernel, by decide +kernel, by decide +kernel, _, hmodule,
    declares_of_appModule hmodule⟩

end Import
end ScreenTree
