import ScreenTree.Proofs.Script.Revision

/-! # Changes of a script one after another

A change of a script looks at its elements and imports one by one. So two changes that agree at them
come to the same, and two changes one after another are one. -/

namespace ScreenTree.Script

namespace Change

/-- The change that leaves everything as it is. -/
def unchanged : Change where
  tag := id
  extra := fun _ => []
  importing := id

/-- A change and another one after it, which changes the added attributes too. -/
def andThen (c d : Change) : Change where
  tag := d.tag ∘ c.tag
  extra n := (c.extra n).map (Term.change d) ++ d.extra (c.tag n)
  importing := d.importing ∘ c.importing

/-- The changes do the same to a term, whatever is in it. -/
def AgreeAt (c d : Change) : Term → Prop
  | .element n _ _ close =>
    c.tag n = d.tag n ∧ c.extra n = d.extra n ∧ close.map c.tag = close.map d.tag
  | .importing i => c.importing i = d.importing i
  | _ => True

end Change

namespace Term

variable {c d : Change}

theorem change_change (c d : Change) (t : Term) :
    change d (change c t) = change (c.andThen d) t := by
  induction t using target_induction with
  | element n as cs close has hcs =>
    have hlist : ∀ us : List Term, (∀ u ∈ us, change d (change c u) = change (c.andThen d) u) →
        (us.map (change c)).map (change d) = us.map (change (c.andThen d)) := by
      intro us hus
      rw [List.map_map]
      exact List.map_congr_left hus
    rw [change_element, change_element, change_element, List.map_append, hlist as has,
      hlist cs hcs, List.append_assoc, Option.map_map]
    rfl
  | importing i => rfl
  | other t htarget ih =>
    have hchanged := (isTarget_mapParts (change c) t).trans htarget
    rw [change_other c htarget, change_other d hchanged, mapParts_mapParts,
      change_other (c.andThen d) htarget]
    exact mapParts_congr ih

theorem change_unchanged (t : Term) : change .unchanged t = t := by
  induction t using target_induction with
  | element n as cs close has hcs =>
    rw [change_element, List.map_congr_left has, List.map_congr_left hcs]
    simp [Change.unchanged]
  | importing i => rfl
  | other t htarget ih =>
    rw [change_other _ htarget]
    exact (mapParts_congr ih).trans (mapParts_id t)

/-- Changes that agree at all terms in a term come to the same. -/
theorem change_congr {t : Term} (h : ∀ u ∈ t.terms, c.AgreeAt d u) : change c t = change d t := by
  induction t using target_induction with
  | element n as cs close has hcs =>
    rw [terms_eq, List.forall_mem_cons] at h
    obtain ⟨⟨htag, hextra, hclose⟩, hbelow⟩ := h
    have hpart : ∀ u ∈ as ++ cs, ∀ v ∈ u.terms, c.AgreeAt d v := fun u hu v hv =>
      hbelow v (List.mem_flatMap.2 ⟨u, hu, hv⟩)
    have hattributes : as.map (change c) = as.map (change d) :=
      List.map_congr_left fun u hu => has u hu (hpart u (List.mem_append_left cs hu))
    have hchildren : cs.map (change c) = cs.map (change d) :=
      List.map_congr_left fun u hu => hcs u hu (hpart u (List.mem_append_right as hu))
    rw [change_element, change_element, htag, hextra, hclose, hattributes, hchildren]
  | importing i =>
    rw [terms_eq, List.forall_mem_cons] at h
    exact congrArg Term.importing h.1
  | other t htarget ih =>
    rw [terms_eq, List.forall_mem_cons] at h
    rw [change_other c htarget, change_other d htarget]
    exact mapParts_congr fun u hu => ih u hu fun v hv => h.2 v (List.mem_flatMap.2 ⟨u, hu, hv⟩)

/-- Without new attributes every part stays a part. -/
theorem parts_change (hextra : ∀ n, c.extra n = []) (t : Term) :
    (change c t).parts = t.parts.map (change c) := by
  induction t using target_induction with
  | element n as cs close =>
    rw [change_element, hextra, List.append_nil, parts, parts, List.map_append]
  | importing i => rfl
  | other t htarget => rw [change_other c htarget, parts_mapParts]

theorem terms_change (hextra : ∀ n, c.extra n = []) (t : Term) :
    (change c t).terms = t.terms.map (change c) := by
  induction t using induction with
  | h t ih =>
    rw [terms_eq, terms_eq, parts_change hextra, List.map_cons, List.flatMap_map, List.map_flatMap]
    exact congrArg (_ :: ·) (List.flatMap_congr ih)

theorem countP_terms_map {p : Term → Bool} {f : Term → Term} {ts : List Term}
    (h : ∀ t ∈ ts, (f t).terms.countP p = t.terms.countP p) :
    ((ts.map f).flatMap terms).countP p = (ts.flatMap terms).countP p := by
  rw [List.flatMap_map, List.countP_flatMap, List.countP_flatMap]
  exact congrArg List.sum (List.map_congr_left h)

/-- What a change does not see is there as often as before, if no new attribute brings it along. -/
theorem countP_terms_change {p : Term → Bool} (hp : ∀ t, p (change c t) = p t)
    (hextra : ∀ n, ∀ u ∈ (c.extra n).flatMap terms, p u = false) (t : Term) :
    (change c t).terms.countP p = t.terms.countP p := by
  induction t using target_induction with
  | element n as cs close has hcs =>
    have hnew : ((c.extra n).flatMap terms).countP p = 0 :=
      List.countP_eq_zero.2 fun u hu => by rw [hextra n u hu]; nofun
    rw [terms_eq, terms_eq, List.countP_cons, List.countP_cons, hp, change_element, parts, parts]
    simp only [List.flatMap_append, List.countP_append, countP_terms_map has, countP_terms_map hcs,
      hnew, Nat.add_zero]
  | importing i =>
    rw [terms_eq, terms_eq, List.countP_cons, List.countP_cons, hp]
    rfl
  | other t htarget ih =>
    rw [terms_eq, terms_eq, List.countP_cons, List.countP_cons, hp, change_other c htarget,
      parts_mapParts, countP_terms_map ih]

end Term

namespace Module

variable {c d : Change}

theorem change_change (c d : Change) (m : Module) :
    (m.change c).change d = m.change (c.andThen d) := by
  simp [change, Term.change_change]

theorem change_unchanged (m : Module) : m.change .unchanged = m := by
  rw [change, funext Term.change_unchanged, List.map_id']

theorem change_congr {m : Module} (h : ∀ t ∈ m.terms, c.AgreeAt d t) : m.change c = m.change d := by
  rw [change, change]
  congr 1
  refine List.map_congr_left fun t ht => Term.change_congr fun u hu => ?_
  exact h u (List.mem_flatMap.2 ⟨t, ht, hu⟩)

theorem terms_change (hextra : ∀ n, c.extra n = []) (m : Module) :
    (m.change c).terms = m.terms.map (Term.change c) := by
  rw [terms, terms, change, List.flatMap_map, List.map_flatMap]
  exact List.flatMap_congr fun t _ => Term.terms_change hextra t

theorem countP_terms_change {p : Term → Bool} (hp : ∀ t, p (Term.change c t) = p t)
    (hextra : ∀ n, ∀ u ∈ (c.extra n).flatMap Term.terms, p u = false) (m : Module) :
    (m.change c).terms.countP p = m.terms.countP p :=
  Term.countP_terms_map fun t _ => Term.countP_terms_change hp hextra t

end Module
end ScreenTree.Script
