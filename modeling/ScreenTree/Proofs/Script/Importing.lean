import ScreenTree.Proofs.Script.Reading

/-! # Importing components

An import puts one declaration before all statements of a script, or fails and leaves the script as
it is. All that this takes of a reader is that the text of an import is this declaration to it, or
nothing at all; `Module.read` is such a reader, and fails at the reserved words. -/

namespace ScreenTree.Script

/-- A name that matches `[A-Za-z_$][A-Za-z0-9_$]*`. -/
def IsBindingName (name : String) : Prop :=
  ∃ c cs, name.toList = c :: cs ∧ (c.isAlpha ∨ c = '_' ∨ c = '$') ∧
    ∀ d ∈ cs, d.isAlphanum ∨ d = '_' ∨ d = '$'

theorem isBindingName_iff {name : String} : IsBindingName name ↔ isSimpleName name = true := by
  rw [isSimpleName_iff, IsBindingName]
  simp only [isNameStart, isNamePart, Bool.or_eq_true, beq_iff_eq, or_assoc]

/-- A reader to which the text of an import is this import, or nothing that it could read. -/
def ReadsImports (read : String → Except Error Module) : Prop :=
  ∀ name kind, isSimpleName name = true →
    read (importText name kind) = .ok ⟨[], [.importing (.ofComponent name kind)]⟩ ∨
      read (importText name kind) = .error (.unreadable .script)

theorem readsImports_read : ReadsImports Module.read := by
  intro name kind hname
  rw [Module.read_importText hname]
  split
  case isTrue => exact .inr rfl
  case isFalse => exact .inl rfl

namespace Module

/-- Imports one after another, with the answer to each. -/
def injectAll (read : String → Except Error Module) :
    List (String × ImportKind) → Module → List (Except Error Unit) × Module
  | [], m => ([], m)
  | (name, kind) :: calls, m =>
    let (answer, after) := m.inject read name kind
    let (answers, last) := after.injectAll read calls
    (answer :: answers, last)

/-- The statement that an import puts before all others. -/
def declaration (call : String × ImportKind) : Term :=
  .importing (.ofComponent call.1 call.2)

variable {read : String → Except Error Module}

theorem inject_of_read {name : String} {kind : ImportKind} (hname : isSimpleName name = true)
    (h : read (importText name kind) = .ok ⟨[], [.importing (.ofComponent name kind)]⟩)
    (m : Module) : m.inject read name kind =
      (.ok (), ⟨m.directives, declaration (name, kind) :: m.statements⟩) := by
  rw [inject, if_pos hname, h]
  rfl

theorem inject_of_error {name : String} {kind : ImportKind} {e : Error}
    (hname : isSimpleName name = true) (h : read (importText name kind) = .error e) (m : Module) :
    m.inject read name kind = (.error e, m) := by
  rw [inject, if_pos hname, h]

theorem inject_of_isSimpleName_eq_false {name : String} (hname : isSimpleName name = false)
    (kind : ImportKind) (m : Module) :
    m.inject read name kind = (.error (.unreadable (.importName name)), m) := by
  rw [inject, hname]
  rfl

/-- All that an import can do. -/
theorem inject_cases (hread : ReadsImports read) (name : String) (kind : ImportKind) (m : Module) :
    (∃ cause, m.inject read name kind = (.error (.unreadable cause), m)) ∨
      isSimpleName name = true ∧ m.inject read name kind =
        (.ok (), ⟨m.directives, declaration (name, kind) :: m.statements⟩) := by
  cases hname : isSimpleName name with
  | false => exact .inl ⟨_, inject_of_isSimpleName_eq_false hname kind m⟩
  | true =>
    rcases hread name kind hname with h | h
    · exact .inr ⟨rfl, inject_of_read hname h m⟩
    · exact .inl ⟨_, inject_of_error hname h m⟩

theorem injectAll_cons (name : String) (kind : ImportKind) (calls : List (String × ImportKind))
    (m : Module) : m.injectAll read ((name, kind) :: calls) =
      ((m.inject read name kind).1 :: ((m.inject read name kind).2.injectAll read calls).1,
        ((m.inject read name kind).2.injectAll read calls).2) :=
  rfl

theorem injectAll_of_ok (hread : ReadsImports read) (calls : List (String × ImportKind))
    (m : Module) (hok : ∀ answer ∈ (m.injectAll read calls).1, answer = .ok ()) :
    (m.injectAll read calls).2 =
      ⟨m.directives, (calls.map declaration).reverse ++ m.statements⟩ := by
  induction calls generalizing m with
  | nil => rfl
  | cons call calls ih =>
    obtain ⟨name, kind⟩ := call
    rw [injectAll_cons] at hok ⊢
    rw [List.forall_mem_cons] at hok
    rcases inject_cases hread name kind m with ⟨cause, h⟩ | ⟨-, h⟩
    · rw [h] at hok
      cases hok.1
    · rw [h] at hok ⊢
      rw [ih _ hok.2, List.map_cons, List.reverse_cons, List.append_assoc]
      rfl

/-! ## The names that can be imported -/

/-- Some script has taken an import of this name and kind. -/
def Accepts (read : String → Except Error Module) (name : String) (kind : ImportKind) : Prop :=
  ∃ m : Module, (m.inject read name kind).1 = .ok ()

/-- An import that one script takes is taken by all. -/
theorem inject_of_accepts (hread : ReadsImports read) {name : String} {kind : ImportKind}
    (h : Accepts read name kind) (m : Module) :
    isSimpleName name = true ∧ m.inject read name kind =
      (.ok (), ⟨m.directives, declaration (name, kind) :: m.statements⟩) := by
  obtain ⟨taker, hok⟩ := h
  cases hname : isSimpleName name with
  | false =>
    rw [inject_of_isSimpleName_eq_false hname] at hok
    cases hok
  | true =>
    rcases hread name kind hname with hdeclared | herror
    · exact ⟨rfl, inject_of_read hname hdeclared m⟩
    · rw [inject_of_error hname herror] at hok
      cases hok

theorem inject_read {name : String} (hname : isSimpleName name = true)
    (hfree : name ∉ reservedWords) (kind : ImportKind) (m : Module) :
    m.inject Module.read name kind =
      (.ok (), ⟨m.directives, declaration (name, kind) :: m.statements⟩) :=
  inject_of_read hname ((read_importText hname kind).trans (if_neg hfree)) m

theorem inject_read_of_mem {name : String} (hname : isSimpleName name = true)
    (hreserved : name ∈ reservedWords) (kind : ImportKind) (m : Module) :
    m.inject Module.read name kind = (.error (.unreadable .script), m) :=
  inject_of_error hname ((read_importText hname kind).trans (if_pos hreserved)) m

/-- Some script has taken an import of this name. -/
def IsImportable (name : String) : Prop :=
  ∃ (m after : Module) (kind : ImportKind), m.addImport name kind = .ok after

theorem isImportable_iff {name : String} :
    IsImportable name ↔ isSimpleName name = true ∧ name ∉ reservedWords := by
  constructor
  · rintro ⟨m, after, kind, hok⟩
    rw [addImport] at hok
    cases hname : isSimpleName name with
    | false =>
      rw [inject_of_isSimpleName_eq_false hname] at hok
      cases hok
    | true =>
      refine ⟨rfl, fun hreserved => ?_⟩
      rw [inject_read_of_mem hname hreserved] at hok
      cases hok
  · rintro ⟨hname, hfree⟩
    refine ⟨⟨[], []⟩, ⟨[], [declaration (name, .predefined)]⟩, .predefined, ?_⟩
    rw [addImport, inject_read hname hfree]
    rfl

/-- The kind of an import is no reason to turn it down. -/
theorem accepts_of_isImportable {name : String} (h : IsImportable name) (kind : ImportKind) :
    Accepts Module.read name kind := by
  obtain ⟨hname, hfree⟩ := isImportable_iff.1 h
  exact ⟨⟨[], []⟩, by rw [inject_read hname hfree]⟩

theorem addImport_of_inject {name : String} {kind : ImportKind} {m after : Module}
    (h : m.inject Module.read name kind = (.ok (), after)) : m.addImport name kind = .ok after := by
  rw [addImport, h]
  rfl

/-! ## What an import does -/

/-- An import cannot be read and leaves the script as it is, or its name is one of ASCII letters,
digits, `_` and `$`, and one declaration, which binds nothing but this name, comes before all
statements. It never ends without a statement. Imports that succeed one after another stand before
all statements, the last one first, each as often as it was asked for. -/
theorem inject_exact (hread : ReadsImports read) (m : Module) :
    (∀ name kind,
      (∃ cause, m.inject read name kind = (.error (.unreadable cause), m)) ∨
        IsBindingName name ∧ m.inject read name kind =
          (.ok (), ⟨m.directives, .importing ⟨some [.default name],
            .ofString (kind.directory ++ "/" ++ name), none⟩ :: m.statements⟩)) ∧
    (∀ name kind cause, (m.inject read name kind).1 ≠ .error (.refused cause)) ∧
    ∀ calls, (∀ answer ∈ (m.injectAll read calls).1, answer = .ok ()) →
      (m.injectAll read calls).2 =
        ⟨m.directives, (calls.map declaration).reverse ++ m.statements⟩ := by
  refine ⟨fun name kind => ?_, fun name kind cause => ?_, fun calls => ?_⟩
  · rcases inject_cases hread name kind m with h | ⟨hname, h⟩
    · exact .inl h
    · exact .inr ⟨isBindingName_iff.2 hname, h⟩
  · rcases inject_cases hread name kind m with ⟨cause, h⟩ | ⟨-, h⟩
    · rw [h]
      nofun
    · rw [h]
      nofun
  · exact injectAll_of_ok hread calls m

/-- A name with a hyphen and a reserved word are turned down, at different times. The component that
is imported twice has two declarations. -/
theorem inject_exact_in_page :
    let page : Term := .exportingDefault (.element (.plain "Card") [] [] none)
    let m : Module := ⟨["use client"], [page]⟩
    let calls := [("Card", .userDefined), ("Icon", .predefined), ("Card", .userDefined)]
    let card : Term := .importing ⟨some [.default "Card"], .ofString "./user-comps/Card", none⟩
    let icon : Term := .importing ⟨some [.default "Icon"], .ofString "./components/Icon", none⟩
    ReadsImports Module.read ∧
      m.inject Module.read "my-card" .predefined =
        (.error (.unreadable (.importName "my-card")), m) ∧
      m.inject Module.read "class" .predefined = (.error (.unreadable .script), m) ∧
      (∀ answer ∈ (m.injectAll Module.read calls).1, answer = .ok ()) ∧
      (m.injectAll Module.read calls).2 = ⟨["use client"], [card, icon, card, page]⟩ := by
  intro page m calls card icon
  have hanswers : ∀ answer ∈ (m.injectAll Module.read calls).1, answer = .ok () := by
    have hcard : isSimpleName "Card" = true ∧ "Card" ∉ reservedWords := by decide
    have hicon : isSimpleName "Icon" = true ∧ "Icon" ∉ reservedWords := by decide
    simp [calls, injectAll, inject_read hcard.1 hcard.2, inject_read hicon.1 hicon.2]
  refine ⟨readsImports_read, inject_of_isSimpleName_eq_false (by decide) _ _,
    inject_read_of_mem (by decide) (by decide) _ _, hanswers, ?_⟩
  obtain ⟨-, -, hall⟩ := inject_exact readsImports_read m
  exact hall calls hanswers

end Module
end ScreenTree.Script
