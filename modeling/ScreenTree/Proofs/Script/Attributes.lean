import ScreenTree.Proofs.Script.Renaming

/-! # Attributes given to components

Additions of attributes one after another are one change of a script: an element gets the attributes
of the additions to its component, in their order, behind its own. -/

namespace ScreenTree.Script

/-- An attribute for all elements of a component. -/
structure Addition where
  component : String
  name : String
  value : String
  deriving DecidableEq

def Addition.attribute (a : Addition) : Term :=
  .attribute a.name (.quoted a.value)

/-- The attributes that a tag of this name gets. Only plain names are those of components. -/
def gained (as : List Addition) : TagName → List Term
  | .plain c => (as.filter (·.component = c)).map Addition.attribute
  | _ => []

/-- All additions at once, without a count. -/
def Change.additions (as : List Addition) : Change where
  tag := id
  extra := gained as
  importing := id

/-- Only elements of the component get the attribute of an addition. -/
theorem gained_singleton (a : Addition) (n : TagName) :
    gained [a] n = if n = .plain a.component then [a.attribute] else [] := by
  cases n with
  | plain c =>
    by_cases h : a.component = c
    · simp [gained, h]
    · simp [gained, h, Ne.symm h]
  | _ => rfl

/-- No elements and imports are in an added attribute. -/
theorem map_change_gained (c : Change) (as : List Addition) (n : TagName) :
    (gained as n).map (Term.change c) = gained as n := by
  cases n with
  | plain => exact List.map_map.trans (congrArg (List.map · _) (funext fun _ => rfl))
  | _ => rfl

/-- An addition counts the opening tags of its component. -/
theorem Revision.makes_adding (a : Addition) :
    (adding a.component a.name a.value).Makes (.additions [a])
      fun count mark => if mark = .opening (.plain a.component) then count + 1 else count where
  opening n count := by
    by_cases h : n = .plain a.component <;>
      simp [adding, Change.additions, gained_singleton, h] <;> rfl
  closing _ _ := rfl
  importing _ _ := rfl
  exported _ _ := rfl

theorem foldl_count (mark : Mark) (marks : List Mark) (count : Nat) :
    marks.foldl (fun count m => if m = mark then count + 1 else count) count =
      count + marks.count mark := by
  induction marks generalizing count with
  | nil => rfl
  | cons m marks ih =>
    rw [List.foldl_cons, ih]
    by_cases h : m = mark <;> simp [h, Nat.add_assoc, Nat.add_comm 1]

namespace Module

/-- An addition counts, while it goes through a script, the opening tags of its component. -/
theorem addAttributeCounting_eq (component name value : String) (m : Module) :
    m.addAttributeCounting component name value =
      (m.change (.additions [⟨component, name, value⟩]),
        m.marks.count (.opening (.plain component))) := by
  rw [addAttributeCounting, run_revise (Revision.makes_adding ⟨component, name, value⟩),
    foldl_count, Nat.zero_add]

theorem addAttribute_eq (component name value : String) (m : Module) :
    m.addAttribute component name value = m.change (.additions [⟨component, name, value⟩]) :=
  congrArg Prod.fst (addAttributeCounting_eq component name value m)

theorem attributeCount_eq_marks (component name value : String) (m : Module) :
    m.attributeCount component name value = m.marks.count (.opening (.plain component)) :=
  congrArg Prod.snd (addAttributeCounting_eq component name value m)

/-- Additions one after another, with the number of elements that each of them reaches. -/
def addAll : List Addition → Module → List Nat × Module
  | [], m => ([], m)
  | a :: as, m =>
    let (after, count) := m.addAttributeCounting a.component a.name a.value
    let (counts, last) := after.addAll as
    (count :: counts, last)

end Module

variable {as : List Addition}

namespace Term

/-- A term before and after additions: each element in it has the attributes that it gained behind
those that it had, and apart from that nothing has changed. -/
inductive Extended (as : List Addition) : Term → Term → Prop
  | element {n : TagName} {ts ts' cs cs' : List Term} {close : Option TagName}
      (hattributes : List.Forall₂ (Extended as) ts ts')
      (hchildren : List.Forall₂ (Extended as) cs cs') :
      Extended as (.element n ts cs close) (.element n (ts' ++ gained as n) cs' close)
  | other {t t' : Term} (helement : t.isElement = false) (hshell : t'.shell = t.shell)
      (hparts : List.Forall₂ (Extended as) t.parts t'.parts) : Extended as t t'

theorem change_additions_of_isElement_eq_false {t : Term} (h : t.isElement = false) :
    change (.additions as) t = t.mapParts (change (.additions as)) := by
  cases htarget : t.isTarget with
  | false => exact change_other _ htarget
  | true =>
    cases t with
    | importing i => rfl
    | element => cases h
    | _ => cases htarget

theorem forall₂_iff_eq_map {R : Term → Term → Prop} {f : Term → Term} {ts ts' : List Term}
    (h : ∀ t ∈ ts, ∀ t', R t t' ↔ t' = f t) : List.Forall₂ R ts ts' ↔ ts' = ts.map f := by
  induction ts generalizing ts' with
  | nil => rw [List.forall₂_nil_left_iff, List.map_nil]
  | cons t ts ih =>
    rw [List.forall_mem_cons] at h
    cases ts' with
    | nil => exact iff_of_false nofun nofun
    | cons t' ts' => rw [List.forall₂_cons, h.1, ih h.2, List.map_cons, List.cons.injEq]

/-- By its parts, a term after additions is known altogether. -/
theorem extended_iff {t t' : Term} : t.Extended as t' ↔ t' = change (.additions as) t := by
  induction t using induction generalizing t' with
  | h t ih =>
    have hlist {ts ts' : List Term} (hts : ∀ u ∈ ts, u ∈ t.parts) :
        List.Forall₂ (Extended as) ts ts' ↔ ts' = ts.map (change (.additions as)) :=
      forall₂_iff_eq_map fun u hu _ => ih u (hts u hu)
    constructor
    · intro h
      cases h with
      | element hattributes hchildren =>
        rw [hlist fun _ => List.mem_append_left _] at hattributes
        rw [hlist fun _ => List.mem_append_right _] at hchildren
        rw [change_element, hattributes, hchildren]
        simp [Change.additions]
      | other helement hshell hparts =>
        rw [hlist fun _ hu => hu] at hparts
        rw [change_additions_of_isElement_eq_false helement]
        refine eq_of_shell_of_parts ?_ ?_
        · rw [hshell, shell_mapParts]
        · rw [hparts, parts_mapParts]
    · rintro rfl
      cases helement : t.isElement with
      | false =>
        rw [change_additions_of_isElement_eq_false helement]
        refine .other helement (shell_mapParts _ _) ?_
        rw [hlist fun _ hu => hu, parts_mapParts]
      | true =>
        cases t with
        | element n ts cs close =>
          rw [change_element]
          simp only [Change.additions, Option.map_id, id]
          refine .element ?_ ?_
          · rw [hlist fun _ => List.mem_append_left _]
            rfl
          · rw [hlist fun _ => List.mem_append_right _]
            rfl
        | _ => cases helement

end Term

theorem additions_nil : Change.additions [] = .unchanged := by
  refine congrArg (Change.mk id · id) (funext fun n => ?_)
  cases n <;> rfl

/-- Additions and the ones after them are one change. -/
theorem additions_andThen (as bs : List Addition) :
    (Change.additions as).andThen (.additions bs) = .additions (as ++ bs) := by
  refine congrArg (Change.mk id · id) (funext fun n => ?_)
  show (gained as n).map _ ++ gained bs n = gained (as ++ bs) n
  rw [map_change_gained]
  cases n with
  | plain c => simp [gained]
  | _ => rfl

theorem gained_congr {bs : List Addition}
    (h : ∀ c, bs.filter (·.component = c) = as.filter (·.component = c)) :
    gained bs = gained as := by
  funext n
  cases n with
  | plain c => exact congrArg (List.map Addition.attribute) (h c)
  | _ => rfl

namespace Module

theorem addAll_eq (as : List Addition) (m : Module) :
    (m.addAll as).2 = m.change (.additions as) := by
  induction as generalizing m with
  | nil => rw [additions_nil, change_unchanged]; rfl
  | cons a as ih =>
    show ((m.addAttribute a.component a.name a.value).addAll as).2 = _
    rw [ih, addAttribute_eq, change_change, additions_andThen]
    rfl

/-- An addition brings nothing along but an attribute and its value. -/
theorem countP_addAttribute {p : Term → Bool} {component name value : String}
    (hp : ∀ t, p (Term.change (.additions [⟨component, name, value⟩]) t) = p t)
    (hattribute : p (.attribute name (.quoted value)) = false) (hvalue : p (.quoted value) = false)
    (m : Module) : (m.addAttribute component name value).terms.countP p = m.terms.countP p := by
  rw [addAttribute_eq]
  refine countP_terms_change hp (fun n u hu => ?_) m
  have hnew : [Term.attribute name (.quoted value)].flatMap Term.terms =
      [.attribute name (.quoted value), .quoted value] := by
    simp [Term.terms_eq, Term.parts]
  rw [Change.additions] at hu
  dsimp only at hu
  rw [gained_singleton] at hu
  split at hu
  · rw [Addition.attribute, hnew, List.mem_pair] at hu
    rcases hu with rfl | rfl
    · exact hattribute
    · exact hvalue
  · cases hu

theorem openingTags_addAttribute (component name value c : String) (m : Module) :
    (m.addAttribute component name value).terms.countP (Term.opens c) =
      m.terms.countP (Term.opens c) :=
  countP_addAttribute (fun t => by cases t <;> rfl) rfl rfl m

/-- The tags and the imports stay. -/
theorem renameReport_addAttribute (component name value old new : String) (m : Module) :
    (m.addAttribute component name value).renameReport old new = m.renameReport old new := by
  rw [renameReport_eq, renameReport_eq]
  congr 1
  · exact openingTags_addAttribute component name value old m
  · refine countP_addAttribute (fun t => ?_) rfl rfl m
    cases t with
    | element n as cs close => cases close <;> rfl
    | _ => rfl
  · exact countP_addAttribute (fun t => by cases t <;> rfl) rfl rfl m

/-- An addition counts the elements of its component. -/
theorem attributeCount_eq (component name value : String) (m : Module) :
    m.attributeCount component name value = m.terms.countP (Term.opens component) := by
  rw [attributeCount_eq_marks, openingTags_eq]

theorem addAll_counts (as : List Addition) (m : Module) :
    (m.addAll as).1 = as.map fun a => m.terms.countP (Term.opens a.component) := by
  induction as generalizing m with
  | nil => rfl
  | cons a as ih =>
    show m.attributeCount a.component a.name a.value ::
      ((m.addAttribute a.component a.name a.value).addAll as).1 = _
    rw [ih, attributeCount_eq, List.map_cons]
    simp only [openingTags_addAttribute]

/-- After additions one after another, each element with the plain name of a component has the
attributes of all additions to it behind its own, in their order and as often as they were made,
wherever it stands in the script. Nothing else is changed, and each addition counts the elements of
its component. So nothing hangs on the order of additions to different components. -/
theorem addAll_exact (as : List Addition) (m : Module) :
    (∀ m' : Module, m' = (m.addAll as).2 ↔ m'.directives = m.directives ∧
      List.Forall₂ (Term.Extended as) m.statements m'.statements) ∧
    (m.addAll as).1 = as.map (fun a => m.terms.countP (Term.opens a.component)) ∧
    ∀ bs : List Addition, (∀ c, bs.filter (·.component = c) = as.filter (·.component = c)) →
      (m.addAll bs).2 = (m.addAll as).2 := by
  refine ⟨fun m' => ?_, addAll_counts as m, fun bs hbs => ?_⟩
  · obtain ⟨ds, ts⟩ := m'
    have hterms : List.Forall₂ (Term.Extended as) m.statements ts ↔
        ts = m.statements.map (Term.change (.additions as)) :=
      Term.forall₂_iff_eq_map fun t _ _ => Term.extended_iff
    rw [addAll_eq, change, hterms, mk.injEq]
  · rw [addAll_eq, addAll_eq, Change.additions, gained_congr hbs]
    rfl

/-- The component stands in an attribute of itself too. The tag with a point is another one. -/
theorem addAll_exact_in_card :
    let card (attributes children : List Term) : Term :=
      .element (.plain "Card") attributes children (some (.plain "Card"))
    let icon (attributes : List Term) : Term := .element (.plain "Icon") attributes [] none
    let other : Term := .element (.member ["ui", "Card"]) [] [] none
    let m : Module := ⟨[], [.expression
      (card [.attribute "badge" (.hole (card [.flag "wide"] [icon []])), .flag "b"] [other])]⟩
    let wide : Addition := ⟨"Card", "wide", "1"⟩
    let small : Addition := ⟨"Icon", "size", "s"⟩
    (∀ c, [small, wide, wide].filter (·.component = c) =
        [wide, small, wide].filter (·.component = c)) ∧
      (m.addAll [wide, small, wide]).1 = [2, 1, 2] ∧
      (m.addAll [small, wide, wide]).2 = (m.addAll [wide, small, wide]).2 ∧
      (m.addAll [wide, small, wide]).2 = ⟨[], [.expression
        (card [.attribute "badge"
            (.hole (card [.flag "wide", wide.attribute, wide.attribute] [icon [small.attribute]])),
            .flag "b", wide.attribute, wide.attribute] [other])]⟩ := by
  intro card icon other m wide small
  have hsame : ∀ c, [small, wide, wide].filter (·.component = c) =
      [wide, small, wide].filter (·.component = c) := by
    intro c
    by_cases hcard : "Card" = c
    · subst hcard
      decide
    · simp [List.filter_cons, small, wide, hcard]
  have hreport : (m.addAll [wide, small, wide]).1 = [2, 1, 2] := by decide
  obtain ⟨-, -, horder⟩ := addAll_exact [wide, small, wide] m
  exact ⟨hsame, hreport, horder _ hsame, rfl⟩

end Module
end ScreenTree.Script
