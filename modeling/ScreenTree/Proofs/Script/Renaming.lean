import Mathlib.Data.List.Forall2
import ScreenTree.Proofs.Script.Change
import ScreenTree.Proofs.Script.Stem
import ScreenTree.Script.Transform

/-! # Renaming a component in a script

A renaming changes the tags with the old name and the default imports, wherever they stand, and
nothing else. It can be taken back if the new name was in no tag before. -/

namespace ScreenTree.Script

/-! ## What a renaming is and counts -/

/-- A renaming without its count. -/
def Change.renaming (old new : String) : Change where
  tag := TagName.rename old new
  extra := fun _ => []
  importing := Import.rename new

/-- A renaming counts the tags with the old name and the default imports. -/
def Report.note (old : String) (r : Report) : Mark → Report
  | .opening n => if n = .plain old then { r with openingTags := r.openingTags + 1 } else r
  | .closing n => if n = .plain old then { r with closingTags := r.closingTags + 1 } else r
  | .importing i => if i.isDefault then { r with imports := r.imports + 1 } else r
  | .exported _ => r

theorem Revision.makes_renaming (old new : String) :
    (Revision.renaming old new).Makes (.renaming old new) (Report.note old) where
  opening n r := by
    by_cases h : n = .plain old <;> simp [Revision.renaming, Report.note, h] <;> rfl
  closing n r := by
    by_cases h : n = .plain old <;> simp [Revision.renaming, Report.note, h] <;> rfl
  importing i r := by
    by_cases h : i.isDefault <;> simp [Revision.renaming, Report.note, h] <;> rfl
  exported _ _ := rfl

theorem Report.foldl_note (old : String) (marks : List Mark) (r : Report) :
    marks.foldl (note old) r =
      ⟨r.openingTags + marks.count (.opening (.plain old)),
        r.closingTags + marks.count (.closing (.plain old)),
        r.imports + (marks.filterMap Mark.import?).countP Import.isDefault⟩ := by
  induction marks generalizing r with
  | nil => rfl
  | cons mark marks ih =>
    rw [List.foldl_cons, ih]
    cases mark with
    | opening n | closing n =>
      by_cases h : n = .plain old <;>
        simp [note, Mark.import?, h, List.filterMap_cons, Nat.add_assoc, Nat.add_comm 1]
    | importing i =>
      cases h : i.isDefault <;> simp [note, Mark.import?, h, Nat.add_assoc, Nat.add_comm 1]
    | exported n => simp [note, Mark.import?, List.filterMap_cons]

namespace Module

/-- A renaming counts, while it goes through a script, the marks with the old name and the default
imports among them. -/
theorem renameCounting_eq (old new : String) (m : Module) :
    m.renameCounting old new = (m.change (.renaming old new),
      ⟨m.marks.count (.opening (.plain old)), m.marks.count (.closing (.plain old)),
        m.imports.countP Import.isDefault⟩) := by
  rw [renameCounting, run_revise (Revision.makes_renaming old new), Report.foldl_note]
  simp only [Report.empty, Nat.zero_add, imports]

theorem renameReport_eq_marks (old new : String) (m : Module) :
    m.renameReport old new =
      ⟨m.marks.count (.opening (.plain old)), m.marks.count (.closing (.plain old)),
        m.imports.countP Import.isDefault⟩ :=
  congrArg Prod.snd (renameCounting_eq old new m)

end Module

/-! ## What a renaming makes of a term -/

/-- A tag before and after a renaming. -/
inductive TagName.Renamed (old new : String) : TagName → TagName → Prop
  | renamed : Renamed old new (.plain old) (.plain new)
  | kept {n : TagName} (h : n ≠ .plain old) : Renamed old new n n

variable {old new : String}

theorem TagName.renamed_iff {n n' : TagName} : n.Renamed old new n' ↔ n' = n.rename old new := by
  rw [rename]
  constructor
  · rintro (_ | hkept)
    · rw [if_pos rfl]
    · rw [if_neg hkept]
  · rintro rfl
    split
    case isTrue h => exact h ▸ .renamed
    case isFalse h => exact .kept h

theorem TagName.rel_renamed_iff {close close' : Option TagName} :
    Option.Rel (Renamed old new) close close' ↔ close' = close.map (rename old new) := by
  constructor
  · rintro (hclose | _)
    · rw [renamed_iff.1 hclose]
      rfl
    · rfl
  · rintro rfl
    cases close with
    | none => exact .none
    | some n => exact .some (renamed_iff.2 rfl)

theorem Import.isDefault_iff {i : Import} :
    i.isDefault = true ↔ ∃ name bindings, i.bindings = some (.default name :: bindings) := by
  rw [isDefault]
  split
  case h_1 name bindings h => exact iff_of_true rfl ⟨name, bindings, h⟩
  case h_2 h => exact iff_of_false nofun fun ⟨name, bindings, hdefault⟩ => h name bindings hdefault

theorem Import.rename_of_isDefault (new : String) {i : Import} (h : i.isDefault = true) :
    i.rename new = ⟨some [.default new], Stem.replace i.source new, i.conditions⟩ := by
  rw [rename, if_pos h]

theorem Import.rename_of_isDefault_eq_false (new : String) {i : Import}
    (h : i.isDefault = false) : i.rename new = i := by
  rw [rename, h]
  rfl

namespace Term

/-- An element with this plain name in its opening tag. -/
def opens (name : String) : Term → Bool
  | .element n _ _ _ => n = .plain name
  | _ => false

/-- An element with this plain name in its closing tag. -/
def closes (name : String) : Term → Bool
  | .element _ _ _ close => close = some (.plain name)
  | _ => false

def isElement : Term → Bool
  | .element _ _ _ _ => true
  | _ => false

def isDefaultImport : Term → Bool
  | .importing i => i.isDefault
  | _ => false

/-- The closing tag of an element, if there is one, has the name of the opening one. -/
def Matched : Term → Prop
  | .element n _ _ (some close) => close = n
  | _ => True

/-- A term before and after a renaming, apart from the terms in it, of which there are as many. -/
inductive Renamed (old new : String) : Term → Term → Prop
  | element {n n' : TagName} {as as' cs cs' : List Term} {close close' : Option TagName}
      (hopening : n.Renamed old new n')
      (hclosing : Option.Rel (TagName.Renamed old new) close close')
      (hattributes : as'.length = as.length) (hchildren : cs'.length = cs.length) :
      Renamed old new (.element n as cs close) (.element n' as' cs' close')
  | defaultImport {name : String} {bindings : List Binding} {source : Literal}
      {conditions : Option Conditions} :
      Renamed old new (.importing ⟨some (.default name :: bindings), source, conditions⟩)
        (.importing ⟨some [.default new], Stem.replace source new, conditions⟩)
  | other {t t' : Term} (helement : t.isElement = false) (himport : t.isDefaultImport = false)
      (hshell : t'.shell = t.shell) : Renamed old new t t'

variable {t : Term}

theorem shell_element (n : TagName) (as cs : List Term) (close : Option TagName) :
    (Term.element n as cs close).shell =
      .element n (List.replicate as.length .gap) (List.replicate cs.length .gap) close := by
  simp [shell, mapParts, parts, withParts]

theorem matched_shell_iff (t : Term) : t.shell.Matched ↔ t.Matched := by
  cases t with
  | element n as cs close =>
    rw [shell_element]
    cases close <;> rfl
  | _ => rfl

theorem Renamed.matched {u : Term} (h : t.Renamed old new u) (ht : t.Matched) : u.Matched := by
  cases h with
  | element hopening hclosing =>
    cases TagName.renamed_iff.1 hopening
    cases TagName.rel_renamed_iff.1 hclosing
    rename_i n _ _ _ _ close _ _
    cases close with
    | none => trivial
    | some close => exact congrArg (TagName.rename old new) ht
  | defaultImport => trivial
  | other _ _ hshell => rwa [← matched_shell_iff, hshell, matched_shell_iff]

/-- A renamed term is known up to the terms in it. -/
theorem Renamed.shell_eq {u v : Term} (hu : t.Renamed old new u) (hv : t.Renamed old new v) :
    u.shell = v.shell := by
  cases hu with
  | element hopening hclosing hattributes hchildren =>
    cases hv with
    | element hopening' hclosing' hattributes' hchildren' =>
      rw [TagName.renamed_iff] at hopening hopening'
      rw [TagName.rel_renamed_iff] at hclosing hclosing'
      rw [shell_element, shell_element, hopening, hopening', hclosing, hclosing', hattributes,
        hattributes', hchildren, hchildren']
    | other helement => cases helement
  | defaultImport =>
    cases hv with
    | defaultImport => rfl
    | other _ himport => cases himport
  | other helement himport hshell =>
    cases hv with
    | element => cases helement
    | defaultImport => cases himport
    | other _ _ hshell' => rw [hshell, hshell']

theorem renamed_change (t : Term) : t.Renamed old new (t.change (.renaming old new)) := by
  cases t with
  | element n as cs close =>
    rw [change_element]
    refine .element (TagName.renamed_iff.2 rfl) (TagName.rel_renamed_iff.2 rfl) ?_ ?_
    · simp [Change.renaming]
    · simp
  | importing i =>
    show (Term.importing i).Renamed old new (.importing (i.rename new))
    cases hdefault : i.isDefault with
    | true =>
      rw [Import.rename_of_isDefault new hdefault]
      obtain ⟨name, bindings, hbindings⟩ := Import.isDefault_iff.1 hdefault
      obtain ⟨_, source, conditions⟩ := i
      cases hbindings
      exact .defaultImport
    | false =>
      rw [Import.rename_of_isDefault_eq_false new hdefault]
      exact .other rfl hdefault rfl
  | _ =>
    rw [change_other _ rfl]
    exact .other rfl rfl (shell_mapParts _ _)

end Term

namespace Module

theorem rename_eq (old new : String) (m : Module) :
    m.rename old new = m.change (.renaming old new) :=
  congrArg Prod.fst (renameCounting_eq old new m)

theorem terms_rename (old new : String) (m : Module) :
    (m.rename old new).terms = m.terms.map (Term.change (.renaming old new)) := by
  rw [rename_eq, terms_change fun _ => rfl]

/-! ## What a renaming makes of a script -/

theorem renamed_terms (old new : String) (m : Module) :
    List.Forall₂ (Term.Renamed old new) m.terms (m.rename old new).terms := by
  rw [terms_rename, List.forall₂_map_right_iff, List.forall₂_same]
  exact fun t _ => t.renamed_change

theorem shells_eq_of_renamed {ts us vs : List Term} (hu : List.Forall₂ (Term.Renamed old new) ts us)
    (hv : List.Forall₂ (Term.Renamed old new) ts vs) : us.map Term.shell = vs.map Term.shell := by
  induction hu generalizing vs with
  | nil =>
    cases hv
    rfl
  | cons hterm _ ih =>
    cases hv with
    | cons hterm' hrest => rw [List.map_cons, List.map_cons, hterm.shell_eq hterm', ih hrest]

theorem countP_ownMarks {p : Mark → Bool} {q : Term → Bool}
    (h : ∀ t : Term, t.ownMarks.countP p = if q t then 1 else 0) (m : Module) :
    m.marks.countP p = m.terms.countP q := by
  rw [m.perm_marks.countP_eq]
  induction m.terms with
  | nil => rfl
  | cons t ts ih =>
    rw [List.flatMap_cons, List.countP_append, List.countP_cons, ih, h, Nat.add_comm]

theorem openingTags_eq (old : String) (m : Module) :
    m.marks.count (.opening (.plain old)) = m.terms.countP (Term.opens old) := by
  refine countP_ownMarks (fun t => ?_) m
  cases t with
  | element n as cs close =>
    cases close <;> simp [Term.ownMarks, Term.opens, List.countP_cons]
  | _ => simp [Term.ownMarks, Term.opens, List.countP_map, List.countP_eq_zero]

theorem closingTags_eq (old : String) (m : Module) :
    m.marks.count (.closing (.plain old)) = m.terms.countP (Term.closes old) := by
  refine countP_ownMarks (fun t => ?_) m
  cases t with
  | element n as cs close =>
    cases close <;> simp [Term.ownMarks, Term.closes, List.countP_cons]
  | _ => simp [Term.ownMarks, Term.closes, List.countP_map, List.countP_eq_zero]

theorem defaultImports_eq (m : Module) :
    m.imports.countP Import.isDefault = m.terms.countP Term.isDefaultImport := by
  rw [imports, List.countP_filterMap]
  refine countP_ownMarks (fun t => ?_) m
  cases t with
  | element n as cs close =>
    cases close <;> simp [Term.ownMarks, Term.isDefaultImport, Mark.import?]
  | importing i =>
    cases hdefault : i.isDefault <;>
      simp [Term.ownMarks, Term.isDefaultImport, Mark.import?, hdefault]
  | _ =>
    simp [Term.ownMarks, Term.isDefaultImport, List.countP_map, List.countP_eq_zero, Mark.import?]

/-- The report counts the terms of a script. -/
theorem renameReport_eq (old new : String) (m : Module) :
    m.renameReport old new = ⟨m.terms.countP (Term.opens old), m.terms.countP (Term.closes old),
      m.terms.countP Term.isDefaultImport⟩ := by
  rw [renameReport_eq_marks, openingTags_eq, closingTags_eq, defaultImports_eq]

/-- A renaming makes exactly these changes, wherever they stand in a script: an opening or a closing
tag that is the plain old name becomes the new one, and a default import binds the new name alone
and takes it into its source. The renamed script is the only one whose terms are in this way those
of the script, one by one. An element whose tags matched still has matching ones. The report counts
the opening tags, the closing tags and the imports that are changed. -/
theorem rename_exact (old new : String) (m : Module) :
    (∀ m' : Module, m' = m.rename old new ↔
      m'.directives = m.directives ∧ List.Forall₂ (Term.Renamed old new) m.terms m'.terms) ∧
    List.Forall₂ (fun t t' => t.Matched → t'.Matched) m.terms (m.rename old new).terms ∧
    m.renameReport old new = ⟨m.terms.countP (Term.opens old), m.terms.countP (Term.closes old),
      m.terms.countP Term.isDefaultImport⟩ := by
  refine ⟨fun m' => ⟨?_, ?_⟩, ?_, renameReport_eq old new m⟩
  · rintro rfl
    exact ⟨rfl, renamed_terms old new m⟩
  · rintro ⟨hdirectives, hterms⟩
    exact eq_of_shells hdirectives (shells_eq_of_renamed hterms (renamed_terms old new m))
  · exact (renamed_terms old new m).imp fun _ _ h => h.matched

/-! ## Taking a renaming back -/

end Module

theorem TagName.rename_rename {n : TagName} (h : n ≠ .plain new) :
    (n.rename old new).rename new old = n := by
  by_cases hold : n = .plain old
  · have hrenamed : n.rename old new = .plain new := if_pos hold
    rw [hrenamed, rename, if_pos rfl, hold]
  · have hkept : n.rename old new = n := if_neg hold
    rw [hkept, rename, if_neg h]

theorem TagName.rename_ne (hne : new ≠ old) (n : TagName) : n.rename old new ≠ .plain old := by
  rw [rename]
  split
  case isTrue => exact fun h => hne (TagName.plain.inj h)
  case isFalse h => exact h

/-- No tag is renamed twice. -/
theorem TagName.rename_self (hne : new ≠ old) (n : TagName) :
    (n.rename old new).rename old new = n.rename old new :=
  if_neg (rename_ne hne n)

theorem TagName.rename_eq_plain_iff (old : String) {n : TagName} (h : n ≠ .plain new) :
    n.rename old new = .plain new ↔ n = .plain old := by
  rw [rename]
  split
  case isTrue hold => exact iff_of_true rfl hold
  case isFalse hold => exact iff_of_false h hold

theorem Import.isDefault_rename (new : String) (i : Import) :
    (i.rename new).isDefault = i.isDefault := by
  cases h : i.isDefault with
  | true => rw [rename_of_isDefault new h]; rfl
  | false => rw [rename_of_isDefault_eq_false new h, h]

/-- Of two renamings the later one decides what a default import is. -/
theorem Import.rename_of_rename (hslash : '/' ∉ new.toList) (hpoint : '.' ∉ new.toList)
    (later : String) (i : Import) : (i.rename new).rename later = i.rename later := by
  cases hdefault : i.isDefault with
  | true =>
    rw [rename_of_isDefault later ((isDefault_rename new i).trans hdefault),
      rename_of_isDefault new hdefault, rename_of_isDefault later hdefault]
    dsimp only
    rw [Stem.replace_of_replace i.source hslash hpoint later]
  | false => rw [rename_of_isDefault_eq_false new hdefault]

/-- A default import that was bound to the old name alone, with its stem, is as it was. -/
theorem Import.rename_rename {i : Import} (hslash : '/' ∉ new.toList) (hpoint : '.' ∉ new.toList)
    (h : i.isDefault = true →
      i.bindings = some [.default old] ∧ Stem.replace i.source old = i.source) :
    (i.rename new).rename old = i := by
  rw [rename_of_rename hslash hpoint]
  cases hdefault : i.isDefault with
  | true =>
    obtain ⟨hbindings, hsource⟩ := h hdefault
    rw [rename_of_isDefault old hdefault, hsource, ← hbindings]
  | false => rw [rename_of_isDefault_eq_false old hdefault]

namespace Module

variable {m : Module}

theorem mem_marks {t : Term} {mark : Mark} (ht : t ∈ m.terms) (h : mark ∈ t.ownMarks) :
    mark ∈ m.marks :=
  m.perm_marks.mem_iff.2 (List.mem_flatMap.2 ⟨t, ht, h⟩)

theorem opening_ne {n : TagName} {as cs : List Term} {close : Option TagName}
    (h : .opening (.plain new) ∉ m.marks) (ht : .element n as cs close ∈ m.terms) :
    n ≠ .plain new := by
  rintro rfl
  exact h (mem_marks ht List.mem_cons_self)

theorem closing_ne {n : TagName} {as cs : List Term} {close : TagName}
    (h : .closing (.plain new) ∉ m.marks) (ht : .element n as cs (some close) ∈ m.terms) :
    close ≠ .plain new := by
  rintro rfl
  exact h (mem_marks ht (List.mem_cons_of_mem _ List.mem_cons_self))

/-- Default imports stay default imports. -/
theorem defaultImports_rename (old new : String) (m : Module) :
    (m.rename old new).terms.countP Term.isDefaultImport = m.terms.countP Term.isDefaultImport := by
  rw [rename_eq]
  refine countP_terms_change (fun t => ?_) (fun _ _ hu => absurd hu List.not_mem_nil) m
  cases t with
  | importing i => exact Import.isDefault_rename new i
  | _ => rfl

/-- If the new name was in no opening tag, the elements with it are those that had the old one. -/
theorem openingTags_rename (hopening : .opening (.plain new) ∉ m.marks) :
    (m.rename old new).terms.countP (Term.opens new) = m.terms.countP (Term.opens old) := by
  rw [terms_rename, List.countP_map]
  refine List.countP_congr fun t ht => ?_
  cases t with
  | element n as cs close =>
    have hname := TagName.rename_eq_plain_iff old (opening_ne hopening ht)
    simpa [Term.opens, Term.change_element, Change.renaming] using hname
  | _ => rfl

theorem closingTags_rename (hclosing : .closing (.plain new) ∉ m.marks) :
    (m.rename old new).terms.countP (Term.closes new) = m.terms.countP (Term.closes old) := by
  rw [terms_rename, List.countP_map]
  refine List.countP_congr fun t ht => ?_
  cases t with
  | element n as cs close =>
    cases close with
    | none => rfl
    | some close =>
      have hname := TagName.rename_eq_plain_iff old (closing_ne hclosing ht)
      simpa [Term.closes, Term.change_element, Change.renaming] using hname
  | _ => rfl

theorem renameReport_rename (hopening : .opening (.plain new) ∉ m.marks)
    (hclosing : .closing (.plain new) ∉ m.marks) :
    (m.rename old new).renameReport new old = m.renameReport old new := by
  rw [renameReport_eq, renameReport_eq, openingTags_rename hopening, closingTags_rename hclosing,
    defaultImports_rename]

/-- A renaming can be taken back if the new name is a stem, no tag has it, and every default import
binds the old name alone and has the old stem: the old name restores the script, and both reports
agree. -/
theorem rename_restores (old new : String) (m : Module) (hslash : '/' ∉ new.toList)
    (hpoint : '.' ∉ new.toList) (hopening : .opening (.plain new) ∉ m.marks)
    (hclosing : .closing (.plain new) ∉ m.marks)
    (himports : ∀ i ∈ m.imports, i.isDefault = true →
      i.bindings = some [.default old] ∧ Stem.replace i.source old = i.source) :
    (m.rename old new).rename new old = m ∧
      (m.rename old new).renameReport new old = m.renameReport old new := by
  refine ⟨?_, renameReport_rename hopening hclosing⟩
  rw [rename_eq, rename_eq, change_change]
  conv_rhs => rw [← m.change_unchanged]
  refine change_congr fun t ht => ?_
  cases t with
  | element n as cs close =>
    refine ⟨TagName.rename_rename (opening_ne hopening ht), rfl, ?_⟩
    cases close with
    | none => rfl
    | some close => exact congrArg some (TagName.rename_rename (closing_ne hclosing ht))
  | importing i =>
    have hi : i ∈ m.imports := by
      exact List.mem_filterMap.2 ⟨.importing i, mem_marks ht List.mem_cons_self, rfl⟩
    exact Import.rename_rename hslash hpoint (himports i hi)
  | _ => trivial

/-- One element stands in an attribute of the other one. The tag with a point is another component,
and the named import stays. -/
theorem rename_restores_card :
    let card : TagName := .plain "Card"
    let icon := Term.attribute "icon" (.hole (.element card [] [] none))
    let page := Term.element card [icon] [.element (.member ["Card", "Row"]) [] [] none] (some card)
    let m : Module := ⟨[], [
      .importing ⟨some [.default "Card"], .ofString "./ui/Card.jsx", none⟩,
      .importing ⟨some [.named (.name "Row") "Row"], .ofString "./ui", none⟩,
      .expression page]⟩
    Stem.replace (.ofString "./ui/Card.jsx") "Row" = .ofString "./ui/Row.jsx" ∧
      m.renameReport "Card" "Row" = ⟨2, 1, 1⟩ ∧
      (m.rename "Card" "Row").renameReport "Card" "Row" = ⟨0, 0, 1⟩ ∧
      (m.rename "Card" "Row").rename "Row" "Card" = m ∧
      (m.rename "Card" "Row").renameReport "Row" "Card" = m.renameReport "Card" "Row" := by
  intro card icon page m
  have himports : ∀ i ∈ m.imports, i.isDefault = true →
      i.bindings = some [.default "Card"] ∧ Stem.replace i.source "Card" = i.source := by
    decide +kernel
  have hback := rename_restores "Card" "Row" m (by decide) (by decide) (by decide) (by decide)
    himports
  exact ⟨by decide, by decide, by decide, hback⟩

/-! ## Renaming once more -/

/-- No tag has the old name after a renaming. -/
theorem renameReport_self (hne : new ≠ old) (m : Module) :
    (m.rename old new).renameReport old new = ⟨0, 0, (m.renameReport old new).imports⟩ := by
  rw [renameReport_eq, renameReport_eq, defaultImports_rename, terms_rename]
  congr 1
  · rw [List.countP_eq_zero]
    intro t ht
    obtain ⟨u, -, rfl⟩ := List.mem_map.1 ht
    cases u with
    | element n as cs close =>
      simpa [Term.opens, Term.change_element, Change.renaming] using TagName.rename_ne hne n
    | _ => exact Bool.false_ne_true
  · rw [List.countP_eq_zero]
    intro t ht
    obtain ⟨u, -, rfl⟩ := List.mem_map.1 ht
    cases u with
    | element n as cs close =>
      cases close with
      | none => exact Bool.false_ne_true
      | some close =>
        simpa [Term.closes, Term.change_element, Change.renaming] using TagName.rename_ne hne close
    | _ => exact Bool.false_ne_true

/-- The same renaming once more changes nothing, if the new name is a stem: no tag has the old name
any longer, and each default import is found as it was left, and is counted again. -/
theorem rename_settles (old new : String) (m : Module) (hne : new ≠ old)
    (hslash : '/' ∉ new.toList) (hpoint : '.' ∉ new.toList) :
    (m.rename old new).rename old new = m.rename old new ∧
      (m.rename old new).renameReport old new = ⟨0, 0, (m.renameReport old new).imports⟩ := by
  refine ⟨?_, renameReport_self hne m⟩
  rw [rename_eq, rename_eq, change_change]
  refine change_congr fun t _ => ?_
  cases t with
  | element n as cs close =>
    refine ⟨TagName.rename_self hne n, rfl, ?_⟩
    cases close with
    | none => rfl
    | some close => exact congrArg some (TagName.rename_self hne close)
  | importing i => exact Import.rename_of_rename hslash hpoint new i
  | _ => trivial

/-- The import of `react` loses its other binding and becomes a second one of the component. The tag
in the attribute has the new name already, and the one with a point keeps its own. -/
theorem rename_settles_card :
    let row := Term.attribute "icon" (.hole (.element (.plain "Row") [] [] none))
    let page := Term.element (.plain "Card") [row] [.element (.member ["Card", "Row"]) [] [] none]
      (some (.plain "Card"))
    let m : Module := ⟨[], [
      .importing ⟨some [.default "React", .named (.name "memo") "memo"], .ofString "react", none⟩,
      .importing ⟨some [.default "Card"], .ofString "../ui.kit/Card.test.jsx", none⟩,
      .expression page]⟩
    "Row" ≠ "Card" ∧ '/' ∉ "Row".toList ∧ '.' ∉ "Row".toList ∧
      (m.rename "Card" "Row").imports =
        [⟨some [.default "Row"], .ofString "Row", none⟩,
          ⟨some [.default "Row"], .ofString "../ui.kit/Row.jsx", none⟩] ∧
      m.renameReport "Card" "Row" = ⟨1, 1, 2⟩ ∧
      (m.rename "Card" "Row").rename "Card" "Row" = m.rename "Card" "Row" ∧
      (m.rename "Card" "Row").renameReport "Card" "Row" = ⟨0, 0, 2⟩ := by
  intro row page m
  have hagain := rename_settles "Card" "Row" m (by decide) (by decide) (by decide)
  have hreport : m.renameReport "Card" "Row" = ⟨1, 1, 2⟩ := by decide
  rw [hreport] at hagain
  exact ⟨by decide, by decide, by decide, by decide, hreport, hagain⟩

end Module

end ScreenTree.Script
