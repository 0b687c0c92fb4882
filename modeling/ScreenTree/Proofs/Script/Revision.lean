import ScreenTree.Proofs.Script.Terms

/-! # Revisions as changes of a script

What a revision makes of tags and imports may be the same in every state. Then it is a change of the
script, and its state takes one step at each mark, from left to right. So a count that is kept on
the way is one of the marks of the script. -/

namespace ScreenTree.Script

/-- What becomes of each tag and each import, whatever comes before it. -/
structure Change where
  tag : TagName → TagName
  extra : TagName → List Term
  importing : Import → Import

/-- The change as a revision that takes note of nothing. -/
def Change.revision (c : Change) : Revision Unit where
  opening n := return (c.tag n, c.extra n)
  closing n := return c.tag n
  importing i := return c.importing i

/-- Changes all tags and imports in a term. -/
def Term.change (c : Change) (t : Term) : Term :=
  ((t.revise c.revision).run ()).1

/-- The revision makes this change, and its state takes these steps. It has nothing to note at an
exported name. -/
structure Revision.Makes {σ : Type} (r : Revision σ) (c : Change) (step : σ → Mark → σ) : Prop where
  opening : ∀ n s, (r.opening n).run s = ((c.tag n, c.extra n), step s (.opening n))
  closing : ∀ n s, (r.closing n).run s = (c.tag n, step s (.closing n))
  importing : ∀ i s, (r.importing i).run s = (c.importing i, step s (.importing i))
  exported : ∀ n s, step s (.exported n) = s

theorem Change.makes_revision (c : Change) : c.revision.Makes c fun s _ => s :=
  ⟨fun _ _ => rfl, fun _ _ => rfl, fun _ _ => rfl, fun _ _ => rfl⟩

namespace Term

variable {σ : Type} {c : Change}

/-- An element or an import, which a revision looks at. -/
def isTarget : Term → Bool
  | .element _ _ _ _ | .importing _ => true
  | _ => false

theorem isTarget_mapParts (f : Term → Term) (t : Term) : (t.mapParts f).isTarget = t.isTarget := by
  cases t <;> rfl

/-- Induction on the terms in a term, where elements and imports stand out. -/
theorem target_induction {P : Term → Prop}
    (element : ∀ n as cs close, (∀ u ∈ as, P u) → (∀ u ∈ cs, P u) → P (.element n as cs close))
    (importing : ∀ i, P (.importing i))
    (other : ∀ t, t.isTarget = false → (∀ u ∈ t.parts, P u) → P t) (t : Term) : P t := by
  induction t using induction with
  | h t ih =>
    cases htarget : t.isTarget with
    | true =>
      cases t with
      | element n as cs close =>
        exact element n as cs close (fun u hu => ih u (List.mem_append_left cs hu))
          fun u hu => ih u (List.mem_append_right as hu)
      | importing i => exact importing i
      | _ => cases htarget
    | false => exact other t htarget ih

/-! ## Runs of a revision -/

theorem reviseAll_eq_mapM (r : Revision σ) (ts : List Term) :
    reviseAll r ts = ts.mapM (revise r) := by
  induction ts with
  | nil => rw [reviseAll, List.mapM_nil]
  | cons t ts ih => rw [reviseAll, List.mapM_cons, ih]

theorem revise_element (r : Revision σ) (n : TagName) (as cs : List Term)
    (close : Option TagName) :
    revise r (.element n as cs close) = do
      let (n, extra) ← r.opening n
      let as ← as.mapM (revise r)
      let cs ← cs.mapM (revise r)
      return .element n (as ++ extra) cs (← close.mapM r.closing) := by
  rw [revise, reviseAll_eq_mapM, reviseAll_eq_mapM]

/-- Of a term that is neither an element nor an import, a revision sees only the parts. -/
theorem revise_other (r : Revision σ) {t : Term} (h : t.isTarget = false) :
    revise r t = t.withParts <$> t.parts.mapM (revise r) := by
  cases t with
  | element => cases h
  | importing => cases h
  | array | object | pattern | declaration | block | fragment =>
    rw [revise, reviseAll_eq_mapM]
    rfl
  | _ => simp [revise, reviseAll_eq_mapM, parts, withParts]

theorem marks_other {t : Term} (h : t.isTarget = false) :
    t.marks = t.ownMarks ++ t.parts.flatMap marks := by
  cases t with
  | element => cases h
  | importing => cases h
  | _ => simp [marks, ownMarks, parts, marksAll_eq_flatMap]

/-- The terms of a list are revised one after another. -/
theorem run_mapM {r : Revision σ} {f : Term → Term} {step : σ → Mark → σ} {ts : List Term}
    (h : ∀ t ∈ ts, ∀ s, (revise r t).run s = (f t, t.marks.foldl step s)) (s : σ) :
    (ts.mapM (revise r)).run s = (ts.map f, (ts.flatMap marks).foldl step s) := by
  induction ts generalizing s with
  | nil => rfl
  | cons t ts ih =>
    rw [List.forall_mem_cons] at h
    simp only [List.mapM_cons, List.map_cons, List.flatMap_cons, List.foldl_append,
      StateT.run_bind, h.1, ih h.2]
    rfl

theorem run_element {r : Revision σ} {f : Term → Term} {step : σ → Mark → σ} (h : r.Makes c step)
    {n : TagName} {as cs : List Term} {close : Option TagName}
    (has : ∀ t ∈ as, ∀ s, (revise r t).run s = (f t, t.marks.foldl step s))
    (hcs : ∀ t ∈ cs, ∀ s, (revise r t).run s = (f t, t.marks.foldl step s)) (s : σ) :
    (revise r (.element n as cs close)).run s =
      (.element (c.tag n) (as.map f ++ c.extra n) (cs.map f) (close.map c.tag),
        (marks (.element n as cs close)).foldl step s) := by
  rw [revise_element, marks, marksAll_eq_flatMap, marksAll_eq_flatMap]
  simp only [StateT.run_bind, h.opening, run_mapM has, run_mapM hcs, List.foldl_append]
  cases close with
  | none => rfl
  | some close =>
    simp only [Option.mapM_some, StateT.run_map, h.closing]
    rfl

/-! ## Changes of a term -/

theorem run_mapM_revision (c : Change) (ts : List Term) :
    (ts.mapM (revise c.revision)).run () = (ts.map (change c), ()) :=
  @run_mapM Unit c.revision (change c) (fun s _ => s) ts (fun _ _ _ => rfl) ()

theorem change_element (c : Change) (n : TagName) (as cs : List Term) (close : Option TagName) :
    change c (.element n as cs close) = .element (c.tag n) (as.map (change c) ++ c.extra n)
      (cs.map (change c)) (close.map c.tag) :=
  congrArg Prod.fst (run_element c.makes_revision (fun _ _ _ => rfl) (fun _ _ _ => rfl) ())

theorem change_other (c : Change) {t : Term} (h : t.isTarget = false) :
    change c t = t.mapParts (change c) := by
  rw [change, revise_other _ h, StateT.run_map, run_mapM_revision]
  rfl

theorem exported_of_mem_ownMarks {t : Term} (h : t.isTarget = false) {mark : Mark}
    (hmark : mark ∈ t.ownMarks) : ∃ n, mark = .exported n := by
  cases t with
  | element => cases h
  | importing => cases h
  | exporting | exportingNames =>
    obtain ⟨n, -, rfl⟩ := List.mem_map.1 hmark
    exact ⟨_, rfl⟩
  | exportingDefault => exact ⟨_, List.mem_singleton.1 hmark⟩
  | exportingAll name =>
    cases name with
    | none => cases hmark
    | some n => exact ⟨_, List.mem_singleton.1 hmark⟩
  | _ => cases hmark

theorem foldl_exported {r : Revision σ} {step : σ → Mark → σ} (h : r.Makes c step)
    {marks : List Mark} (hmarks : ∀ mark ∈ marks, ∃ n, mark = .exported n) (s : σ) :
    marks.foldl step s = s := by
  induction marks with
  | nil => rfl
  | cons mark marks ih =>
    rw [List.forall_mem_cons] at hmarks
    obtain ⟨⟨n, rfl⟩, hrest⟩ := hmarks
    rw [List.foldl_cons, h.exported, ih hrest]

/-- A revision that makes a change makes it of every term, and takes a step at each mark in it. -/
theorem run_revise {r : Revision σ} {step : σ → Mark → σ} (h : r.Makes c step) (t : Term) (s : σ) :
    (revise r t).run s = (t.change c, t.marks.foldl step s) := by
  induction t using target_induction generalizing s with
  | element n as cs close has hcs => rw [run_element h has hcs, change_element]
  | importing i =>
    rw [revise, StateT.run_bind, h.importing]
    rfl
  | other t htarget ih =>
    have hown : t.ownMarks.foldl step s = s :=
      foldl_exported h (fun _ => exported_of_mem_ownMarks htarget) s
    rw [revise_other r htarget, StateT.run_map, run_mapM ih, change_other c htarget,
      marks_other htarget, List.foldl_append, hown]
    rfl

end Term

namespace Module

variable {σ : Type} {c : Change}

def change (c : Change) (m : Module) : Module :=
  { m with statements := m.statements.map (Term.change c) }

theorem run_revise {r : Revision σ} {step : σ → Mark → σ} (h : r.Makes c step) (m : Module)
    (s : σ) : (m.revise r).run s = (m.change c, m.marks.foldl step s) := by
  have hstatements := Term.run_mapM (fun t (_ : t ∈ m.statements) => Term.run_revise h t) s
  rw [revise, Term.reviseAll_eq_mapM, StateT.run_bind, hstatements, ← Term.marksAll_eq_flatMap]
  rfl

end Module
end ScreenTree.Script
