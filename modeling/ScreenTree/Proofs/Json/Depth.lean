import ScreenTree.Proofs.Json.Double
import ScreenTree.Proofs.Json.Record

/-! # Depth of values

The form of a value is read exactly where as many arrays and objects may still be opened as the
value has open at once. -/

namespace ScreenTree.Json

mutual

/-- Arrays and objects that are open at once in the text of a value. -/
def depth : Json → Nat
  | .array items => itemsDepth items + 1
  | .object members => membersDepth members + 1
  | .null | .bool _ | .number _ | .string _ => 0

def itemsDepth : List Json → Nat
  | [] => 0
  | v :: vs => max v.depth (itemsDepth vs)

def membersDepth : List (String × Json) → Nat
  | [] => 0
  | (_, v) :: ms => max v.depth (membersDepth ms)

end

theorem itemsDepth_le_iff {vs : List Json} {room : Nat} :
    itemsDepth vs ≤ room ↔ ∀ v ∈ vs, v.depth ≤ room := by
  induction vs with
  | nil => simp [itemsDepth]
  | cons v vs ih => rw [itemsDepth, Nat.max_le, ih, List.forall_mem_cons]

theorem membersDepth_le_iff {ms : List (String × Json)} {room : Nat} :
    membersDepth ms ≤ room ↔ ∀ m ∈ ms, m.2.depth ≤ room := by
  induction ms with
  | nil => simp [membersDepth]
  | cons m ms ih => rw [membersDepth, Nat.max_le, ih, List.forall_mem_cons]

theorem depth_le_membersDepth {ms : List (String × Json)} {m : String × Json} (h : m ∈ ms) :
    m.2.depth ≤ membersDepth ms :=
  membersDepth_le_iff.1 (Nat.le_refl _) m h

/-- A record is deeper than its fields by one. -/
theorem depth_record_le_iff {entries : List (String × Option Json)} {room : Nat} :
    (object (record entries)).depth ≤ room + 1 ↔ ∀ e ∈ entries, ∀ v ∈ e.2, v.depth ≤ room := by
  rw [depth, Nat.add_le_add_iff_right, membersDepth_le_iff]
  induction entries with
  | nil => simp [record]
  | cons e entries ih =>
    rw [record_cons, List.forall_mem_append, List.forall_mem_cons, ih]
    obtain ⟨name, value⟩ := e
    cases value <;> simp [optional]

namespace Form

variable {α : Type}

/-- Readings one after another that do not depend on each other's results. -/
theorem isSome_bind_iff {β : Type} {o : Option α} {f : α → Option β} {p : Prop}
    (h : ∀ x, (f x).isSome ↔ p) : (o.bind f).isSome ↔ o.isSome ∧ p := by
  cases o with
  | none => simp
  | some x => simp [h x]

/-! ## Values -/

mutual

theorem isSome_json?_form (room : Nat) :
    (v : Json) → ((json? room v.form).isSome ↔ v.depth ≤ room)
  | .null | .bool _ | .string _ => by simp [form, json?, depth]
  | .number n => by simp [form, json?, depth, n.isSome_value?_written]
  | .array items => by
    cases room with
    | zero => simp [form, json?, depth]
    | succ room =>
      rw [form, json?, Option.isSome_map, isSome_jsonItems?_itemForms room items, depth,
        Nat.add_le_add_iff_right]
  | .object members => by
    cases room with
    | zero => simp [form, json?, depth]
    | succ room =>
      rw [form, json?, Option.isSome_map, isSome_jsonMembers?_memberForms room [] members, depth,
        Nat.add_le_add_iff_right]

theorem isSome_jsonItems?_itemForms (room : Nat) :
    (vs : List Json) → ((jsonItems? room (itemForms vs)).isSome ↔ itemsDepth vs ≤ room)
  | [] => by simp [itemForms, jsonItems?, itemsDepth]
  | v :: vs => by
    rw [itemForms, jsonItems?, itemsDepth, Nat.max_le, ← isSome_json?_form room v,
      ← isSome_jsonItems?_itemForms room vs]
    exact isSome_bind_iff fun w => by rw [Option.isSome_map]

theorem isSome_jsonMembers?_memberForms (room : Nat) (acc : List (String × Json)) :
    (ms : List (String × Json)) →
      ((jsonMembers? room acc (memberForms ms)).isSome ↔ membersDepth ms ≤ room)
  | [] => by simp [memberForms, jsonMembers?, membersDepth]
  | (k, v) :: ms => by
    rw [memberForms, jsonMembers?, membersDepth, Nat.max_le, ← isSome_json?_form room v]
    exact isSome_bind_iff fun w => isSome_jsonMembers?_memberForms room (insertMember k w acc) ms

end

/-! ## Lists and fields -/

/-- An array is read where it may be opened and its items are read. -/
theorem isSome_list? {item : Reader α} {vs : List Json} {room : Nat}
    (h : ∀ v ∈ vs, ∀ inner < room, ((item inner v.form).isSome ↔ v.depth ≤ inner)) :
    (list? item room (Json.array vs).form).isSome ↔ (Json.array vs).depth ≤ room := by
  cases room with
  | zero => simp [list?, depth]
  | succ room =>
    rw [list?, form, itemForms_eq_map, depth, Nat.add_le_add_iff_right, itemsDepth_le_iff]
    change ((vs.map form).mapM (item room)).isSome ↔ _
    induction vs with
    | nil => simp
    | cons v vs ih =>
      obtain ⟨hv, hvs⟩ := List.forall_mem_cons.1 h
      rw [List.map_cons, List.mapM_cons, List.forall_mem_cons, ← ih hvs,
        ← hv room (Nat.lt_succ_self room)]
      refine isSome_bind_iff fun x => ?_
      cases (vs.map form).mapM (item room) <;> exact Iff.rfl

/-- A field is read where its value is, and where it is missing. -/
theorem isSome_optional? {value : Reader α} {room : Nat} {o : Option Json}
    (h : ∀ v ∈ o, (value room v.form).isSome ↔ v.depth ≤ room) :
    (optional? value room (o.map form)).isSome ↔ ∀ v ∈ o, v.depth ≤ room := by
  cases o with
  | none => simp [optional?]
  | some v =>
    by_cases hnull : v = .null
    · subst hnull
      simp [form, optional?, depth]
    · rw [Option.map_some, optional?_some hnull, Option.isSome_map, h v rfl]
      simp

/-- A list that may be left out is read where it fits. -/
theorem isSome_optional?_unless {item : Reader α} {vs : List Json} {out : Bool} {room : Nat}
    (h : ∀ v ∈ vs, ∀ inner < room, ((item inner v.form).isSome ↔ v.depth ≤ inner)) :
    (optional? (list? item) room ((if out then none else some (Json.array vs)).map form)).isSome ↔
      ∀ v ∈ if out then none else some (Json.array vs), v.depth ≤ room := by
  refine isSome_optional? fun v hv => ?_
  cases out with
  | true => cases hv
  | false =>
    cases hv
    exact isSome_list? h

theorem isSome_optional?_string (room : Nat) (o : Option String) :
    (optional? string? room ((o.map Json.string).map form)).isSome ↔
      ∀ v ∈ o.map Json.string, v.depth ≤ room := by
  refine isSome_optional? fun v hv => ?_
  obtain ⟨s, -, rfl⟩ := Option.map_eq_some_iff.1 hv
  simp [form, string?, depth]

end Form
end ScreenTree.Json
