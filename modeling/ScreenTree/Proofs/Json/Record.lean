import ScreenTree.Proofs.Json.Kept

/-! # Records

What a reader of fields and lists finds in the form of a written value, and what holds of all that
it reads. -/

namespace ScreenTree.Json

/-- The members of a record are those of its fields that are not missing. -/
def record (entries : List (String × Option Json)) : List (String × Json) :=
  entries.flatMap fun e => optional e.1 e.2

theorem record_cons (e : String × Option Json) (entries : List (String × Option Json)) :
    record (e :: entries) = optional e.1 e.2 ++ record entries :=
  List.flatMap_cons

theorem names_record (entries : List (String × Option Json)) :
    ((record entries).map Prod.fst).Sublist (entries.map Prod.fst) := by
  induction entries with
  | nil => exact List.nil_sublist _
  | cons e entries ih =>
    obtain ⟨name, value⟩ := e
    cases value with
    | none => exact ih.cons name
    | some v => exact ih.cons_cons name

theorem lookup_record {entries : List (String × Option Json)}
    (h : (entries.map Prod.fst).Nodup) (name : String) :
    (record entries).lookup name = (entries.lookup name).join := by
  induction entries with
  | nil => rfl
  | cons e entries ih =>
    obtain ⟨k, value⟩ := e
    obtain ⟨hk, hentries⟩ := List.nodup_cons.1 h
    have htail := ih hentries
    rw [record_cons, List.lookup_append, List.lookup_cons, htail]
    cases hname : name == k with
    | false => cases value <;> simp [optional, List.lookup_cons, hname]
    | true =>
      cases value with
      | some v => simp [optional, List.lookup_cons, hname]
      | none =>
        have hnone : entries.lookup name = none := by
          rw [eq_of_beq hname, List.lookup_eq_none_iff]
          intro e he
          simp only [bne_iff_ne]
          rintro rfl
          exact hk (List.mem_map.2 ⟨e, he, rfl⟩)
        simp [optional, hnone]

theorem Integral.entry {entries : List (String × Option Json)}
    (h : (object (record entries)).Integral) {name : String} {v : Json}
    (hv : entries.lookup name = some (some v)) : v.Integral := by
  obtain ⟨front, back, rfl, -⟩ := List.lookup_eq_some_iff.1 hv
  have hmem : (name, v) ∈ record (front ++ (name, some v) :: back) :=
    List.mem_flatMap.2 ⟨(name, some v), by simp, List.mem_singleton_self _⟩
  exact h.member hmem

theorem form_ne_null {v : Json} (h : v ≠ .null) : v.form ≠ .null := by
  cases v <;> simp_all [form]

namespace Form

variable {α : Type}

/-! ## Fields -/

theorem known?_memberForms (shape : Shape) {ms : List (String × Json)}
    (h : ∀ m ∈ ms, m.1 ∈ shape.names) :
    shape.known? (memberForms ms) = some (ms.map fun m => (m.1, m.2.form)) := by
  induction ms with
  | nil => rfl
  | cons m ms ih =>
    obtain ⟨hm, hms⟩ := List.forall_mem_cons.1 h
    have hfield : shape.field? m.1 = some m.1 := by rw [Shape.field?, if_pos hm]
    rw [memberForms, Shape.known?, hfield]
    simp only [ih hms, Option.map_some, List.map_cons]

theorem lookup_map_form (ms : List (String × Json)) (name : String) :
    (ms.map fun m => (m.1, m.2.form)).lookup name = (ms.lookup name).map form := by
  induction ms with
  | nil => rfl
  | cons m ms ih =>
    rw [List.map_cons, List.lookup_cons, List.lookup_cons]
    split
    · rfl
    · exact ih

/-- The fields that are found in a written record are its own. -/
theorem fields?_record {shape : Shape} {entries : List (String × Option Json)}
    (h : (entries.map Prod.fst).Sublist shape.names) (hnames : shape.names.Nodup) :
    shape.fields? (Json.object (record entries)).form =
      some fun name => (entries.lookup name).join.map form := by
  have hsub := (names_record entries).trans h
  have hmem : ∀ m ∈ record entries, m.1 ∈ shape.names :=
    fun m hm => hsub.subset (List.mem_map_of_mem hm)
  have hnodup : (((record entries).map fun m => (m.1, m.2.form)).map Prod.fst).Nodup := by
    rw [List.map_map]
    exact hnames.sublist hsub
  rw [form, Shape.fields?, known?_memberForms shape hmem, Option.bind_some, if_pos hnodup]
  simp only [lookup_map_form, lookup_record (hnames.sublist h)]

/-! ## Values that are read -/

theorem forall_of_items? {item : Form → Option α} {P : α → Prop}
    (hitem : ∀ form x, item form = some x → P x) {form : Form} {xs : List α}
    (h : items? item form = some xs) : ∀ x ∈ xs, P x := by
  cases form with
  | array forms =>
    change forms.mapM item = some xs at h
    induction forms generalizing xs with
    | nil => cases h; simp
    | cons form forms ih =>
      rw [List.mapM_cons] at h
      obtain ⟨x, hx, h⟩ := Option.bind_eq_some_iff.1 h
      obtain ⟨ys, hys, h⟩ := Option.bind_eq_some_iff.1 h
      cases h
      exact List.forall_mem_cons.2 ⟨hitem form x hx, ih hys⟩
  | _ => cases h

theorem forall_of_list? {item : Reader α} {room : Nat} {P : α → Prop}
    (hitem : ∀ form x, item room form = some x → P x) {form : Form} {xs : List α}
    (h : list? item (room + 1) form = some xs) : ∀ x ∈ xs, P x :=
  forall_of_items? hitem h

/-- A field that is not missing was read from a form other than `null`. -/
theorem forall_of_optional? {value : Reader α} {room : Nat} {P : α → Prop}
    (hvalue : ∀ form x, form ≠ .null → value room form = some x → P x) {field : Option Form}
    {o : Option α} (h : optional? value room field = some o) : ∀ x ∈ o, P x := by
  rw [optional?.eq_def] at h
  split at h
  · cases h; simp
  · cases h; simp
  · next form hnull =>
    obtain ⟨x, hx, rfl⟩ := Option.map_eq_some_iff.1 h
    intro y hy
    cases hy
    exact hvalue form x hnull hx

/-- A list that may be missing counts as empty then. -/
theorem forall_of_optional_items? {items : Reader (List α)} {room : Nat} {P : α → Prop}
    (hitems : ∀ form xs, items room form = some xs → ∀ x ∈ xs, P x) {field : Option Form}
    {o : Option (List α)} (h : optional? items room field = some o) : ∀ x ∈ o.getD [], P x := by
  have hsome := forall_of_optional? (P := fun xs => ∀ x ∈ xs, P x)
    (fun form xs _ => hitems form xs) h
  cases o with
  | none => simp
  | some xs => exact hsome xs rfl

/-! ## Values that are read again -/

/-- Items that are each read again, up to a change `g`. -/
theorem items?_form {β : Type} {item : Form → Option β} {w : α → Json} {g : α → β}
    {xs : List α} (h : ∀ x ∈ xs, item (w x).form = some (g x)) :
    items? item (Json.array (xs.map w)).form = some (xs.map g) := by
  rw [form, itemForms_eq_map]
  change (List.map form (xs.map w)).mapM item = some (xs.map g)
  induction xs with
  | nil => rfl
  | cons x xs ih =>
    obtain ⟨hx, hxs⟩ := List.forall_mem_cons.1 h
    rw [List.map_cons, List.map_cons, List.mapM_cons, hx, ih hxs]
    rfl

theorem items?_form_self {item : Form → Option α} {w : α → Json} {xs : List α}
    (h : ∀ x ∈ xs, item (w x).form = some x) :
    items? item (Json.array (xs.map w)).form = some xs := by
  have hitems := items?_form (g := id) h
  rwa [List.map_id] at hitems

theorem optional?_of_ne_null {value : Reader α} {room : Nat} {form : Form} (h : form ≠ .null) :
    optional? value room (some form) = (value room form).map some := by
  rw [optional?.eq_def]
  split
  · next heq => cases heq
  · next heq => exact absurd (Option.some.inj heq) h
  · next heq => rw [Option.some.inj heq]

theorem optional?_some {value : Reader α} {room : Nat} {v : Json} (h : v ≠ .null) :
    optional? value room (some v.form) = (value room v.form).map some :=
  optional?_of_ne_null (form_ne_null h)

/-- A field that is written unless it is missing. -/
theorem optional?_form {value : Reader α} {room : Nat} {write : α → Json} {o : Option α}
    (hnull : ∀ x ∈ o, write x ≠ .null) (h : ∀ x ∈ o, value room (write x).form = some x) :
    optional? value room ((o.map write).map form) = some o := by
  cases o with
  | none => rfl
  | some x => rw [Option.map_some, Option.map_some, optional?_some (hnull x rfl), h x rfl]; rfl

theorem optional?_string (room : Nat) (o : Option String) :
    optional? string? room ((o.map .string).map form) = some o :=
  optional?_form (fun _ _ => by simp) fun _ _ => rfl

/-- A list that is left out only when it is empty. -/
theorem optional?_unless {items : Reader (List α)} {room : Nat} {out : Bool} {v : Json}
    {xs : List α} (hnull : v ≠ .null) (hout : out = true → xs = [])
    (hitems : out = false → items room v.form = some xs) :
    ∃ o, optional? items room ((if out then none else some v).map form) = some o ∧
      o.getD [] = xs := by
  cases out with
  | true => exact ⟨none, rfl, (hout rfl).symm⟩
  | false =>
    refine ⟨some xs, ?_, rfl⟩
    rw [if_neg Bool.false_ne_true, Option.map_some, optional?_some hnull, hitems rfl]
    rfl

end Form
end ScreenTree.Json
