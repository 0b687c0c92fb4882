import ScreenTree.Proofs.Script.Attributes
import ScreenTree.Proofs.Script.Importing

/-! # Additions before and after a renaming

A component can be imported, and can get an attribute, under its old name before it is renamed or
under its new name afterwards. -/

namespace ScreenTree.Script

variable {old new : String}

/-! ## Imports -/

/-- The name of a component is the stem of the path to it. -/
theorem Stem.replace_path (hname : isSimpleName old = true) (kind : ImportKind) (new : String) :
    replace (.ofString (kind.path old)) new = .ofString (kind.path new) := by
  have hpart := isNamePart_of_mem hname
  have hslash : '/' ∉ old.toList := fun h => absurd (hpart _ h) (by decide)
  have hpoint : '.' ∉ old.toList := fun h => absurd (hpart _ h) (by decide)
  let p : Parts := ⟨.ofString (kind.directory ++ "/"), .ofString old, []⟩
  have hproper : p.Proper :=
    ⟨.inr ⟨Literal.ofString kind.directory, ofString_append _ _⟩,
      by simpa [p, mem_ofString_iff] using hslash, .inl ⟨rfl, mt mem_ofString_iff.1 hpoint⟩⟩
  have hbreak : .char '\n' ∉ Literal.ofString (kind.directory ++ "/") := by
    cases kind <;> decide
  calc
    replace (.ofString (kind.path old)) new = replace p.whole new := by
      rw [Parts.whole, List.append_nil, ImportKind.path, ofString_append]
    _ = (p.withStem (.ofString new)).whole := by rw [hproper.replace_whole, if_neg hbreak]
    _ = .ofString (kind.path new) := by
      rw [Parts.whole, ImportKind.path, ofString_append]
      exact List.append_nil _

/-- Renamed, the import of a component is that of the new one. -/
theorem Import.rename_ofComponent (hname : isSimpleName old = true) (kind : ImportKind)
    (new : String) : (ofComponent old kind).rename new = ofComponent new kind := by
  rw [rename_of_isDefault new rfl, ofComponent, Stem.replace_path hname]
  rfl

namespace Module

/-- An import before all statements is renamed there. -/
theorem rename_declaration (hname : isSimpleName old = true) (kind : ImportKind) (new : String)
    (ds : List String) (ts : List Term) :
    (Module.mk ds (declaration (old, kind) :: ts)).rename old new =
      ⟨ds, declaration (new, kind) :: ((Module.mk ds ts).rename old new).statements⟩ := by
  have hfirst : Term.change (.renaming old new) (declaration (old, kind)) =
      declaration (new, kind) :=
    congrArg Term.importing (Import.rename_ofComponent hname kind new)
  rw [rename_eq, rename_eq, change, change, List.map_cons, hfirst]

theorem renameReport_declaration (call : String × ImportKind) (old new : String)
    (ds : List String) (ts : List Term) :
    (Module.mk ds (declaration call :: ts)).renameReport old new =
      { (Module.mk ds ts).renameReport old new with
        imports := ((Module.mk ds ts).renameReport old new).imports + 1 } := by
  have hterms : (Module.mk ds (declaration call :: ts)).terms =
      declaration call :: (Module.mk ds ts).terms := by
    rw [terms, terms, List.flatMap_cons, Term.terms_eq]
    rfl
  rw [renameReport_eq, renameReport_eq, hterms]
  simp [List.countP_cons, declaration, Import.ofComponent, Import.isDefault, Term.opens,
    Term.closes, Term.isDefaultImport]

/-- If a reader takes the imports of both names, an import can wait for the renaming, which counts
it otherwise. -/
theorem rename_inject {read : String → Except Error Module} (hread : ReadsImports read)
    {kind : ImportKind} (hold : Accepts read old kind) (hnew : Accepts read new kind) (m : Module) :
    ∃ after, m.inject read old kind = (.ok (), after) ∧
      (m.rename old new).inject read new kind = (.ok (), after.rename old new) ∧
      after.renameReport old new =
        { m.renameReport old new with imports := (m.renameReport old new).imports + 1 } := by
  obtain ⟨hname, hbefore⟩ := inject_of_accepts hread hold m
  obtain ⟨-, hafter⟩ := inject_of_accepts hread hnew (m.rename old new)
  refine ⟨_, hbefore, ?_, renameReport_declaration _ _ _ _ _⟩
  rw [hafter, rename_declaration hname, rename_eq]
  rfl

/-! ## Attributes -/

theorem attributeCount_rename {m : Module} (h : .opening (.plain new) ∉ m.marks)
    (name value : String) : (m.rename old new).attributeCount new name value =
      m.attributeCount old name value := by
  rw [attributeCount_eq, attributeCount_eq, openingTags_rename h]

/-- If no opening tag has the new name, an attribute of the component can wait for the renaming. -/
theorem rename_addAttribute {m : Module} (h : .opening (.plain new) ∉ m.marks)
    (name value : String) : (m.addAttribute old name value).rename old new =
      (m.rename old new).addAttribute new name value := by
  rw [addAttribute_eq, addAttribute_eq, rename_eq, rename_eq, change_change, change_change]
  refine change_congr fun t ht => ?_
  cases t with
  | element n as cs close =>
    have hname := TagName.rename_eq_plain_iff old (opening_ne h ht)
    refine ⟨rfl, ?_, rfl⟩
    show (gained _ n).map _ ++ [] = gained _ (n.rename old new)
    rw [map_change_gained, List.append_nil, gained_singleton, gained_singleton]
    simp only [hname]
    rfl
  | importing i => rfl
  | _ => trivial

/-! ## Both -/

/-- An import or an attribute of a component before a renaming is the one under the new name after
it. To any reader of imports, names that some script can import with a kind are imported with it in
both cases, and the renaming counts one more import; to `Module.read` such names are those that can
be imported at all. For the attribute the new name has to be in no opening tag, and then as many
elements get it. -/
theorem rename_commutes (old new : String) (m : Module) :
    (∀ read, ReadsImports read → ∀ kind, Accepts read old kind → Accepts read new kind →
      ∃ after, m.inject read old kind = (.ok (), after) ∧
        (m.rename old new).inject read new kind = (.ok (), after.rename old new) ∧
        after.renameReport old new =
          { m.renameReport old new with imports := (m.renameReport old new).imports + 1 }) ∧
    (IsImportable old → IsImportable new → ∀ kind, ∃ after,
      m.addImport old kind = .ok after ∧
      (m.rename old new).addImport new kind = .ok (after.rename old new) ∧
      after.renameReport old new =
        { m.renameReport old new with imports := (m.renameReport old new).imports + 1 }) ∧
    (.opening (.plain new) ∉ m.marks → ∀ name value,
      (m.addAttribute old name value).rename old new =
        (m.rename old new).addAttribute new name value ∧
      (m.addAttribute old name value).renameReport old new = m.renameReport old new ∧
      (m.rename old new).attributeCount new name value = m.attributeCount old name value) := by
  refine ⟨fun read hread kind hold hnew => rename_inject hread hold hnew m,
    fun hold hnew kind => ?_, fun hopening name value => ?_⟩
  · obtain ⟨after, hbefore, hafter, hreport⟩ := rename_inject readsImports_read
      (accepts_of_isImportable hold kind) (accepts_of_isImportable hnew kind) m
    exact ⟨after, addImport_of_inject hbefore, addImport_of_inject hafter, hreport⟩
  · exact ⟨rename_addAttribute hopening name value,
      renameReport_addAttribute old name value old new m, attributeCount_rename hopening name value⟩

/-- The element in the attribute is one of the two that get the new one. -/
theorem rename_commutes_card :
    let icon := Term.attribute "icon" (.hole (.element (.plain "Card") [] [] none))
    let page := Term.element (.plain "Card") [icon] [] (some (.plain "Card"))
    let m : Module := ⟨[], [
      .importing ⟨some [.default "Card"], .ofString "./ui/Card.jsx", none⟩, .expression page]⟩
    IsImportable "Card" ∧ IsImportable "Row" ∧ .opening (.plain "Row") ∉ m.marks ∧
      Accepts Module.read "Card" .predefined ∧ Accepts Module.read "Row" .predefined ∧
      (∃ after, m.inject Module.read "Card" .predefined = (.ok (), after) ∧
        (m.rename "Card" "Row").inject Module.read "Row" .predefined =
          (.ok (), after.rename "Card" "Row") ∧
        after.renameReport "Card" "Row" = ⟨2, 1, 2⟩) ∧
      (∃ after, m.addImport "Card" .userDefined = .ok after ∧
        (m.rename "Card" "Row").addImport "Row" .userDefined = .ok (after.rename "Card" "Row") ∧
        after.renameReport "Card" "Row" = ⟨2, 1, 2⟩) ∧
      (m.addAttribute "Card" "wide" "1").rename "Card" "Row" =
        (m.rename "Card" "Row").addAttribute "Row" "wide" "1" ∧
      (m.rename "Card" "Row").attributeCount "Row" "wide" "1" = 2 := by
  intro icon page m
  have hcard : IsImportable "Card" := isImportable_iff.2 (by decide)
  have hrow : IsImportable "Row" := isImportable_iff.2 (by decide)
  have hopening : .opening (.plain "Row") ∉ m.marks := by decide
  have hcardTaken := accepts_of_isImportable hcard .predefined
  have hrowTaken := accepts_of_isImportable hrow .predefined
  obtain ⟨hinject, himport, hattribute⟩ := rename_commutes "Card" "Row" m
  obtain ⟨hrename, -, hcount⟩ := hattribute hopening "wide" "1"
  exact ⟨hcard, hrow, hopening, hcardTaken, hrowTaken,
    hinject Module.read readsImports_read .predefined hcardTaken hrowTaken,
    himport hcard hrow .userDefined, hrename, hcount⟩

end Module
end ScreenTree.Script
