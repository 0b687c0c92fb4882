import Mathlib.Data.List.Perm.Basic
import ScreenTree.Script.Marks

/-! # The terms in a script

A term is put together from its parts. The terms in a script, each before those in it, are listed
once each; by their shells, which have gaps in the places of their parts, the list determines the
script. The marks of a script are those of the terms in it. -/

namespace ScreenTree.Script

namespace Term

/-- The terms directly in a term, from left to right. -/
def parts : Term → List Term
  | .name _ | .constant _ | .number _ | .string _ | .gap | .leave | .empty | .flag _ | .quoted _
  | .text _ | .emptyHole | .importing _ | .exportingNames _ _ | .exportingAll _ _ _ => []
  | .member t _ | .grouped t | .negation t | .property _ t | .spread t | .expression t | .answer t
  | .attribute _ t | .hole t | .exporting t | .exportingDefault t => [t]
  | .index a b | .conjunction a b | .fallback a b | .condition a b => [a, b]
  | .choice a b c => [a, b, c]
  | .array ts | .object ts | .pattern ts | .declaration _ ts | .block _ ts | .fragment ts => ts
  | .call t ts => t :: ts
  | .arrow ts t | .function _ ts t => ts ++ [t]
  | .element _ as cs _ => as ++ cs

/-- The term with other parts, of which there have to be as many. -/
def withParts : Term → List Term → Term
  | .member _ n, [t] => .member t n
  | .index _ _, [a, b] => .index a b
  | .call _ _, t :: ts => .call t ts
  | .arrow _ _, ts => .arrow ts.dropLast (ts.getLastD .gap)
  | .grouped _, [t] => .grouped t
  | .negation _, [t] => .negation t
  | .conjunction _ _, [a, b] => .conjunction a b
  | .choice _ _ _, [a, b, c] => .choice a b c
  | .array _, ts => .array ts
  | .object _, ts => .object ts
  | .property k _, [t] => .property k t
  | .spread _, [t] => .spread t
  | .pattern _, ts => .pattern ts
  | .fallback _ _, [a, b] => .fallback a b
  | .expression _, [t] => .expression t
  | .declaration k _, ts => .declaration k ts
  | .function n _ _, ts => .function n ts.dropLast (ts.getLastD .gap)
  | .answer _, [t] => .answer t
  | .condition _ _, [a, b] => .condition a b
  | .block ds _, ts => .block ds ts
  | .exporting _, [t] => .exporting t
  | .exportingDefault _, [t] => .exportingDefault t
  | .element n as _ close, ts => .element n (ts.take as.length) (ts.drop as.length) close
  | .fragment _, ts => .fragment ts
  | .attribute n _, [t] => .attribute n t
  | .hole _, [t] => .hole t
  | t, _ => t

/-- Changes each part of a term. -/
def mapParts (f : Term → Term) (t : Term) : Term :=
  t.withParts (t.parts.map f)

theorem mapParts_id (t : Term) : t.mapParts id = t := by
  cases t <;> simp [mapParts, parts, withParts]

theorem parts_mapParts (f : Term → Term) (t : Term) : (t.mapParts f).parts = t.parts.map f := by
  cases t <;> simp [mapParts, parts, withParts]

/-- What the parts were does not matter once they are others. -/
theorem withParts_mapParts (f g : Term → Term) (t : Term) :
    (t.mapParts f).withParts (t.parts.map g) = t.mapParts g := by
  cases t <;> simp [mapParts, parts, withParts]

theorem withParts_parts (f : Term → Term) (t : Term) : (t.mapParts f).withParts t.parts = t := by
  calc
    (t.mapParts f).withParts t.parts = (t.mapParts f).withParts (t.parts.map id) := by
      rw [List.map_id]
    _ = t.mapParts id := withParts_mapParts f id t
    _ = t := mapParts_id t

theorem mapParts_congr {f g : Term → Term} {t : Term} (h : ∀ s ∈ t.parts, f s = g s) :
    t.mapParts f = t.mapParts g :=
  congrArg t.withParts (List.map_congr_left h)

theorem mapParts_mapParts (f g : Term → Term) (t : Term) :
    (t.mapParts f).mapParts g = t.mapParts (g ∘ f) := by
  rw [mapParts, parts_mapParts, List.map_map, withParts_mapParts]

/-- The term with gaps in the places of its parts. -/
def shell (t : Term) : Term :=
  t.mapParts fun _ => .gap

theorem shell_mapParts (f : Term → Term) (t : Term) : (t.mapParts f).shell = t.shell :=
  mapParts_mapParts f _ t

theorem length_parts_shell (t : Term) : t.shell.parts.length = t.parts.length := by
  rw [shell, parts_mapParts, List.length_map]

/-- A term is known by its shell and its parts. -/
theorem eq_of_shell_of_parts {t u : Term} (hshell : t.shell = u.shell)
    (hparts : t.parts = u.parts) : t = u := by
  calc
    t = t.shell.withParts t.parts := (withParts_parts _ t).symm
    _ = u.shell.withParts u.parts := by rw [hshell, hparts]
    _ = u := withParts_parts _ u

theorem sizeOf_lt_of_mem_parts {s t : Term} (h : s ∈ t.parts) : sizeOf s < sizeOf t := by
  have hlist : ∀ ts : List Term, s ∈ ts → sizeOf s < sizeOf ts := fun _ => List.sizeOf_lt_of_mem
  cases t <;> simp only [parts, List.mem_cons, List.mem_append, List.not_mem_nil, or_false] at h
  all_goals grind

/-- Whatever holds of a term if it holds of its parts holds of every term. -/
theorem induction {P : Term → Prop} (h : ∀ t, (∀ s ∈ t.parts, P s) → P t) (t : Term) : P t :=
  h t fun s _ => induction h s
termination_by sizeOf t
decreasing_by exact sizeOf_lt_of_mem_parts ‹_›

/-- The terms in a term from left to right, each before those in it, and the term itself before
all. -/
def terms (t : Term) : List Term :=
  t :: t.parts.attach.flatMap fun s => terms s.1
termination_by sizeOf t
decreasing_by exact sizeOf_lt_of_mem_parts s.2

theorem terms_eq (t : Term) : t.terms = t :: t.parts.flatMap terms := by
  rw [terms, List.flatMap_subtype fun _ _ => rfl, List.unattach_attach]

/-- The shells of the terms in a term show where it ends. -/
def Delimited (t : Term) : Prop :=
  ∀ (u : Term) (rest others : List Term),
    (t.terms ++ rest).map shell = (u.terms ++ others).map shell →
      t = u ∧ rest.map shell = others.map shell

theorem eq_of_delimited {ts us rest others : List Term} (hts : ∀ t ∈ ts, t.Delimited)
    (hlength : ts.length = us.length)
    (h : (ts.flatMap terms ++ rest).map shell = (us.flatMap terms ++ others).map shell) :
    ts = us ∧ rest.map shell = others.map shell := by
  induction ts generalizing us with
  | nil =>
    cases us with
    | nil => exact ⟨rfl, h⟩
    | cons u us => cases hlength
  | cons t ts ih =>
    cases us with
    | nil => cases hlength
    | cons u us =>
      rw [List.flatMap_cons, List.flatMap_cons, List.append_assoc, List.append_assoc] at h
      obtain ⟨rfl, hlater⟩ := hts t List.mem_cons_self u _ _ h
      obtain ⟨rfl, hrest⟩ := ih (fun s hs => hts s (List.mem_cons_of_mem _ hs))
        (Nat.succ.inj hlength) hlater
      exact ⟨rfl, hrest⟩

theorem delimited (t : Term) : t.Delimited := by
  induction t using induction with
  | h t ih =>
    intro u rest others h
    rw [terms_eq, terms_eq, List.cons_append, List.cons_append, List.map_cons, List.map_cons] at h
    obtain ⟨hshell, hbelow⟩ := List.cons.inj h
    -- The shell says how many parts follow.
    have hlength : t.parts.length = u.parts.length := by
      rw [← length_parts_shell, hshell, length_parts_shell]
    obtain ⟨hparts, hrest⟩ := eq_of_delimited ih hlength hbelow
    exact ⟨eq_of_shell_of_parts hshell hparts, hrest⟩

/-- Terms are known by the shells of all terms in them. -/
theorem eq_of_shells {ts us : List Term}
    (h : (ts.flatMap terms).map shell = (us.flatMap terms).map shell) : ts = us := by
  induction ts generalizing us with
  | nil =>
    cases us with
    | nil => rfl
    | cons u us =>
      rw [List.flatMap_cons, terms_eq] at h
      cases h
  | cons t ts ih =>
    cases us with
    | nil =>
      rw [List.flatMap_cons, terms_eq] at h
      cases h
    | cons u us =>
      rw [List.flatMap_cons, List.flatMap_cons] at h
      obtain ⟨rfl, hrest⟩ := t.delimited u _ _ h
      rw [ih hrest]

/-! ## Marks -/

/-- The marks that a term bears itself. -/
def ownMarks : Term → List Mark
  | .element n _ _ close => .opening n :: (close.map Mark.closing).toList
  | .importing i => [.importing i]
  | .exporting t => t.bound.map fun n => .exported (.ofString n)
  | .exportingDefault _ => [.exported defaultName]
  | .exportingNames ns _ => ns.map fun n => .exported n.exported.letters
  | .exportingAll n _ _ => (n.map fun k => .exported k.letters).toList
  | _ => []

theorem marksAll_eq_flatMap (ts : List Term) : marksAll ts = ts.flatMap marks := by
  induction ts with
  | nil => rw [marksAll, List.flatMap_nil]
  | cons t ts ih => rw [marksAll, List.flatMap_cons, ih]

theorem perm_marks_parts (t : Term) : t.marks.Perm (t.ownMarks ++ t.parts.flatMap marks) := by
  cases t <;> simp [marks, ownMarks, parts, marksAll_eq_flatMap]
  -- The closing tag of an element comes last.
  rw [← List.append_assoc]
  exact List.perm_append_comm

/-- The marks of a term are those that the terms in it bear. -/
theorem perm_marks (t : Term) : t.marks.Perm (t.terms.flatMap ownMarks) := by
  induction t using induction with
  | h t ih =>
    rw [terms_eq, List.flatMap_cons, List.flatMap_assoc]
    exact (perm_marks_parts t).trans ((List.Perm.flatMap_left _ ih).append_left _)

end Term

namespace Module

/-- The terms in a module, each before those in it. -/
def terms (m : Module) : List Term :=
  m.statements.flatMap Term.terms

theorem eq_of_shells {m n : Module} (hdirectives : m.directives = n.directives)
    (h : m.terms.map Term.shell = n.terms.map Term.shell) : m = n := by
  obtain ⟨_, ts⟩ := m
  obtain ⟨_, us⟩ := n
  cases hdirectives
  have hstatements : ts = us := Term.eq_of_shells h
  rw [hstatements]

theorem perm_marks (m : Module) : m.marks.Perm (m.terms.flatMap Term.ownMarks) := by
  rw [marks, Term.marksAll_eq_flatMap, terms, List.flatMap_assoc]
  exact List.Perm.flatMap_left _ fun t _ => t.perm_marks

end Module
end ScreenTree.Script
