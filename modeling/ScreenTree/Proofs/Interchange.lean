import ScreenTree.Node.Interchange
import ScreenTree.Proofs.Json.Record

/-! # Saving and loading

A tree that was loaded has the shape that writing gives it, apart from the state of literals that
are written by their value alone. Hence loading what it saves gives it back without that state. -/

namespace ScreenTree

open Json.Form

/-! ## Values -/

namespace Value

/-- The values that a field holds after reading: what they are written as is kept, and they are
written as something that stands for them. -/
structure Kept (room : Nat) (x : Value) : Prop where
  json : x.toJson.Kept room
  canonical : ofJson x.toJson = x
  ne_null : x.toJson ≠ .null

theorem toJson_ofJson (v : Json) : (ofJson v).toJson = v := by
  cases v <;> rfl

theorem kept_of_form? {room : Nat} {form : Json.Form} {x : Value} (hnull : form ≠ .null)
    (h : form? room form = some x) : x.Kept room := by
  obtain ⟨v, hv, rfl⟩ := Option.map_eq_some_iff.1 h
  refine ⟨?_, ?_, ?_⟩
  · rw [toJson_ofJson]
    exact kept_of_json? room form hv
  · rw [toJson_ofJson]
  · rw [toJson_ofJson]
    rintro rfl
    cases form with
    | null => exact hnull rfl
    | bool b => cases hv
    | number n => simp [json?] at hv
    | string s => simp [json?] at hv
    | array items => cases room <;> simp [json?] at hv
    | object members => cases room <;> simp [json?] at hv

/-- A value in a field of a written record is read again. -/
theorem optional?_entry {room : Nat} {entries : List (String × Option Json)} {name : String}
    {o : Option Value} (hlookup : entries.lookup name = some (o.map toJson))
    (h : ∀ x ∈ o, x.Kept room) (hnumbers : (Json.object (Json.record entries)).Integral) :
    optional? form? room ((entries.lookup name).join.map Json.form) = some o := by
  rw [hlookup]
  refine optional?_form (fun x hx => (h x hx).ne_null) ?_
  intro x hx
  have hfound : entries.lookup name = some (some x.toJson) := by rw [hlookup, hx, Option.map_some]
  rw [form?, json?_form (h x hx).json (hnumbers.entry hfound), Option.map_some, (h x hx).canonical]

end Value

/-! ## Properties -/

namespace Property

/-- The properties that are read where `room` arrays and objects may still be opened. -/
inductive Kept : Nat → Property → Prop
  | intro {room : Nat} {p : Property} (hvalue : ∀ x ∈ p.value, x.Kept room)
    (hinitial : ∀ x ∈ p.initialValue, x.Kept room)
    (htype : ∀ t ∈ p.type, ValueType.ofName t.name = t) : Kept (room + 1) p

theorem name_ofName (name : String) : (ValueType.ofName name).name = name := by
  by_cases hstring : name = "string"
  · subst hstring; rfl
  by_cases hboolean : name = "boolean"
  · subst hboolean; rfl
  by_cases hnumber : name = "number"
  · subst hnumber; rfl
  rw [ValueType.ofName, if_neg hstring, if_neg hboolean, if_neg hnumber, ValueType.name]

theorem kept_of_form? {room : Nat} {form : Json.Form} {p : Property}
    (h : form? room form = some p) : p.Kept room := by
  cases room with
  | zero => cases h
  | succ room =>
    obtain ⟨field, -, h⟩ := Option.bind_eq_some_iff.1 h
    obtain ⟨name, -, h⟩ := Option.bind_eq_some_iff.1 h
    obtain ⟨value, hvalue, h⟩ := Option.bind_eq_some_iff.1 h
    obtain ⟨initialValue, hinitial, h⟩ := Option.bind_eq_some_iff.1 h
    obtain ⟨type, -, h⟩ := Option.bind_eq_some_iff.1 h
    cases h
    refine .intro ?_ ?_ ?_
    · exact forall_of_optional? (fun _ _ hnull hx => Value.kept_of_form? hnull hx) hvalue
    · exact forall_of_optional? (fun _ _ hnull hx => Value.kept_of_form? hnull hx) hinitial
    · intro t ht
      obtain ⟨name, -, rfl⟩ := Option.map_eq_some_iff.1 ht
      rw [name_ofName]

/-- The fields of a written property. -/
def entries (p : Property) : List (String × Option Json) :=
  [("name", some (.string p.name)), ("value", p.value.map Value.toJson),
    ("initialValue", p.initialValue.map Value.toJson),
    ("type", (p.type.map ValueType.name).map .string)]

theorem toJson_eq (p : Property) : p.toJson = .object (Json.record p.entries) := by
  simp [toJson, entries, Json.record, Json.optional, Function.comp_def]

theorem fields?_toJson (p : Property) : shape.fields? p.toJson.form =
    some fun name => (p.entries.lookup name).join.map Json.form := by
  rw [toJson_eq]
  exact fields?_record (List.Sublist.refl shape.names) (by decide)

/-- A property is read again from its own form. -/
theorem form?_toJson {room : Nat} {p : Property} (h : p.Kept room)
    (hnumbers : p.toJson.Integral) : form? room p.toJson.form = some p := by
  rw [toJson_eq] at hnumbers
  cases h with
  | @intro room _ hvalue hinitial htype =>
    have hv := Value.optional?_entry (rfl : p.entries.lookup "value" = _) hvalue hnumbers
    have hi := Value.optional?_entry (rfl : p.entries.lookup "initialValue" = _) hinitial hnumbers
    have ht : (p.type.map ValueType.name).map ValueType.ofName = p.type := by
      cases htp : p.type with
      | none => rfl
      | some t => exact congrArg some (htype t htp)
    have hname : ((p.entries.lookup "name").join.map Json.form).bind (string? room) =
        some p.name := rfl
    have htype' : optional? string? room ((p.entries.lookup "type").join.map Json.form) =
        some (p.type.map ValueType.name) :=
      optional?_string room (p.type.map ValueType.name)
    rw [form?, fields?_toJson]
    simp only [hname, hv, hi, htype', ht, Option.bind_some, Option.bind_eq_bind]
    rfl

end Property

/-! ## Nodes -/

namespace Node

/-- The nodes that are read where `room` arrays and objects may still be opened. The room is even,
as every node opens an object and stands in an array of its parent; so there is always room for
the arrays that are written for missing lists. -/
inductive Kept : Nat → Node → Prop
  | intro {room : Nat} {n : Node} (hvalue : ∀ x ∈ n.kind.value?, x.Kept (room + 1))
    (hkind : kindOf n.kind.tag? n.kind.value? = n.kind) (hprops : ∀ p ∈ n.props, p.Kept room)
    (hstate : ∀ v ∈ n.state, v.Kept room) (hchildren : ∀ c ∈ n.children, Kept room c) :
    Kept (room + 2) n

theorem kindOf_kindOf (tag : Option String) (value : Option Value) :
    kindOf (kindOf tag value).tag? (kindOf tag value).value? = kindOf tag value := by
  cases tag with
  | none => rfl
  | some tag =>
    by_cases hgroup : tag = Kind.groupTag
    · subst hgroup; rfl
    by_cases hliteral : tag = Kind.literalTag
    · subst hliteral; rfl
    have helement : kindOf (some tag) = fun _ => .element tag := by
      funext value
      rw [kindOf, Kind.ofTag, if_neg hgroup, if_neg hliteral]
    simp only [helement, Kind.tag?]

theorem value?_kindOf {tag : Option String} {value : Option Value} {x : Value}
    (h : x ∈ (kindOf tag value).value?) : x ∈ value := by
  cases tag with
  | none => cases h
  | some tag =>
    rw [kindOf, Kind.ofTag] at h
    split at h
    · cases h
    · split at h
      · exact h
      · cases h

theorem kept_of_form? (k : Nat) {form : Json.Form} {n : Node}
    (h : form? (2 * k) form = some n) : n.Kept (2 * k) := by
  induction k generalizing form n with
  | zero => cases h
  | succ k ih =>
    obtain ⟨field, -, h⟩ := Option.bind_eq_some_iff.1 h
    obtain ⟨id, -, h⟩ := Option.bind_eq_some_iff.1 h
    obtain ⟨type, -, h⟩ := Option.bind_eq_some_iff.1 h
    obtain ⟨nodeType, -, h⟩ := Option.bind_eq_some_iff.1 h
    obtain ⟨value, hvalue, h⟩ := Option.bind_eq_some_iff.1 h
    obtain ⟨props, hprops, h⟩ := Option.bind_eq_some_iff.1 h
    obtain ⟨state, hstate, h⟩ := Option.bind_eq_some_iff.1 h
    obtain ⟨children, hchildren, h⟩ := Option.bind_eq_some_iff.1 h
    cases h
    have hkept := forall_of_optional? (fun _ _ hnull hx => Value.kept_of_form? hnull hx) hvalue
    refine .intro (fun x hx => hkept x (value?_kindOf hx)) (kindOf_kindOf _ _) ?_ ?_ ?_
    · exact forall_of_optional_items? (fun _ _ hps =>
        forall_of_list? (fun _ _ => Property.kept_of_form?) hps) hprops
    · exact forall_of_optional_items? (fun _ _ hvs =>
        forall_of_list? (fun form _ => kept_of_json? _ form) hvs) hstate
    · exact forall_of_optional_items? (fun _ _ hcs =>
        forall_of_items? (fun _ _ => ih) hcs) hchildren

mutual

/-- The node as it comes back after it was saved: a literal that is written by its value alone,
here or below, has lost its state. -/
def trimmed : Node → Node
  | ⟨id, kind, props, state, children⟩ =>
    ⟨id, kind, props, if isCompact kind props children then [] else state, trimmedList children⟩

def trimmedList : List Node → List Node
  | [] => []
  | n :: ns => n.trimmed :: trimmedList ns

end

theorem trimmedList_eq_map (ns : List Node) : trimmedList ns = ns.map trimmed := by
  induction ns with
  | nil => rfl
  | cons n ns ih => rw [trimmedList, ih, List.map_cons]

theorem listToJson_eq_map (ns : List Node) : listToJson ns = ns.map toJson := by
  induction ns with
  | nil => rfl
  | cons n ns ih => rw [listToJson, ih, List.map_cons]

theorem isCompact_iff {kind : Kind} {props : List Property} {children : List Node} :
    isCompact kind props children = true ↔ kind.isLiteral = true ∧ props = [] ∧ children = [] := by
  simp [isCompact, and_assoc]

theorem isCompact_trimmedList (kind : Kind) (props : List Property) (children : List Node) :
    isCompact kind props (trimmedList children) = isCompact kind props children := by
  cases children <;> rfl

mutual

/-- What is trimmed was not written in the first place. -/
theorem toJson_trimmed : (n : Node) → n.trimmed.toJson = n.toJson
  | ⟨id, kind, props, state, children⟩ => by
    rw [trimmed, toJson, toJson, isCompact_trimmedList, listToJson_trimmedList children]
    cases isCompact kind props children <;> rfl

theorem listToJson_trimmedList : (ns : List Node) → listToJson (trimmedList ns) = listToJson ns
  | [] => rfl
  | n :: ns => by
    rw [trimmedList, listToJson, listToJson, toJson_trimmed n, listToJson_trimmedList ns]

end

/-- The fields of a written node. -/
def entries (n : Node) : List (String × Option Json) :=
  let unlessCompact (v : Json) : Option Json :=
    if isCompact n.kind n.props n.children then none else some v
  [("nodeId", n.id.map .string), ("type", n.kind.tag?.map .string),
    ("value", n.kind.value?.map Value.toJson),
    ("props", unlessCompact (.array (n.props.map Property.toJson))),
    ("state", unlessCompact (.array n.state)),
    ("children", unlessCompact (.array (n.children.map toJson)))]

theorem toJson_eq (n : Node) : n.toJson = .object (Json.record n.entries) := by
  obtain ⟨id, kind, props, state, children⟩ := n
  rw [toJson, listToJson_eq_map]
  cases h : isCompact kind props children <;>
    simp [entries, h, Json.record, Json.optional]

/-- The fields that are read of a written node are its own. -/
theorem fields?_toJson (n : Node) : shape.fields? n.toJson.form =
    some fun name => (n.entries.lookup name).join.map Json.form := by
  have hnames : List.Sublist (n.entries.map Prod.fst) shape.names :=
    (by decide : List.Sublist ["nodeId", "type", "value", "props", "state", "children"] _)
  rw [toJson_eq]
  exact fields?_record hnames (by decide)

theorem optional?_id (room : Nat) (n : Node) :
    optional? string? room ((n.entries.lookup "nodeId").join.map Json.form) = some n.id :=
  optional?_string room n.id

theorem trimmed_eq (n : Node) : n.trimmed =
    ⟨n.id, n.kind, n.props, if isCompact n.kind n.props n.children then [] else n.state,
      n.children.map trimmed⟩ := by
  cases n
  rw [trimmed, trimmedList_eq_map]

section Lists

variable {room : Nat} {n : Node} (hnumbers : (Json.object (Json.record n.entries)).Integral)

include hnumbers

theorem optional?_props (hprops : ∀ p ∈ n.props, p.Kept room) :
    ∃ ps, optional? (list? Property.form?) (room + 1)
      ((n.entries.lookup "props").join.map Json.form) = some ps ∧ ps.getD [] = n.props := by
  refine optional?_unless (by simp) (fun hout => (isCompact_iff.1 hout).2.1) ?_
  intro hout
  have hfound : n.entries.lookup "props" = some (some (.array (n.props.map Property.toJson))) := by
    simp [entries, hout, List.lookup_cons]
  exact items?_form_self fun p hp =>
    Property.form?_toJson (hprops p hp) ((hnumbers.entry hfound).item (List.mem_map_of_mem hp))

theorem optional?_state (hstate : ∀ v ∈ n.state, v.Kept room) :
    ∃ vs, optional? (list? json?) (room + 1)
      ((n.entries.lookup "state").join.map Json.form) = some vs ∧
        vs.getD [] = if isCompact n.kind n.props n.children then [] else n.state := by
  refine optional?_unless (by simp) (fun hout => if_pos hout) ?_
  intro hout
  have hfound : n.entries.lookup "state" = some (some (.array n.state)) := by
    simp [entries, hout, List.lookup_cons]
  have hitems := items?_form_self (w := fun v => v) fun v hv =>
    json?_form (hstate v hv) ((hnumbers.entry hfound).item hv)
  rw [List.map_id'] at hitems
  rw [if_neg (by simp [hout])]
  exact hitems

theorem optional?_children
    (hread : ∀ c ∈ n.children, c.toJson.Integral → form? room c.toJson.form = some c.trimmed) :
    ∃ cs, optional? (fun _ f => items? (form? room) f) (room + 1)
      ((n.entries.lookup "children").join.map Json.form) = some cs ∧
        cs.getD [] = n.children.map trimmed := by
  refine optional?_unless (by simp) (fun hout => ?_) (fun hout => ?_)
  · rw [(isCompact_iff.1 hout).2.2]
    rfl
  · have hfound : n.entries.lookup "children" =
        some (some (.array (n.children.map toJson))) := by
      simp [entries, hout, List.lookup_cons]
    exact items?_form fun c hc =>
      hread c hc ((hnumbers.entry hfound).item (List.mem_map_of_mem hc))

end Lists

/-- A node is read from its own form, except for what is trimmed. -/
theorem form?_toJson {room : Nat} {n : Node} (h : n.Kept room) (hnumbers : n.toJson.Integral) :
    form? room n.toJson.form = some n.trimmed := by
  induction h with
  | @intro room n hvalue hkind hprops hstate hchildren ih =>
    rw [toJson_eq] at hnumbers
    have htype : optional? string? (room + 1) ((n.entries.lookup "type").join.map Json.form) =
        some n.kind.tag? :=
      optional?_string (room + 1) n.kind.tag?
    have hnodeType : optional? string? (room + 1)
        ((n.entries.lookup "nodeType").join.map Json.form) = some none := rfl
    have htag : (n.kind.tag? <|> none) = n.kind.tag? := by cases n.kind.tag? <;> rfl
    have hv := Value.optional?_entry (rfl : n.entries.lookup "value" = _) hvalue hnumbers
    obtain ⟨ps, hps, hps'⟩ := optional?_props hnumbers hprops
    obtain ⟨vs, hvs, hvs'⟩ := optional?_state hnumbers hstate
    obtain ⟨cs, hcs, hcs'⟩ := optional?_children hnumbers ih
    rw [form?, fields?_toJson, trimmed_eq]
    simp only [optional?_id, htype, hnodeType, hv, hps, hvs, hcs, Option.bind_some, Option.bind_eq_bind,
      htag, hkind, hps', hvs', hcs']
    rfl

end Node

/-! ## Trees -/

namespace Tree

/-- The tree as it comes back after it was saved. -/
def trimmed (t : Tree) : Tree :=
  ⟨t.root.trimmed⟩

theorem save_trimmed (t : Tree) : t.trimmed.save = t.save := by
  simp only [save, toJson, trimmed, Node.toJson_trimmed]

theorem load_eq_ok_iff {text : String} {t : Tree} :
    load text = .ok t ↔ Json.Form.read? form? text = some t := by
  rw [load]
  cases Json.Form.read? form? text <;> simp [Error.ofParse]

/-- The root is an object within the object of the tree. -/
theorem kept_of_load {text : String} {t : Tree} (h : load text = .ok t) :
    t.root.Kept (2 * 63) := by
  obtain ⟨form, -, h⟩ := Option.bind_eq_some_iff.1 (load_eq_ok_iff.1 h)
  obtain ⟨field, -, h⟩ := Option.bind_eq_some_iff.1 h
  obtain ⟨root, hroot, rfl⟩ := Option.map_eq_some_iff.1 h
  obtain ⟨form, -, hroot⟩ := Option.bind_eq_some_iff.1 hroot
  exact Node.kept_of_form? 63 hroot

theorem form?_toJson_succ (room : Nat) (t : Tree) :
    form? (room + 1) t.toJson.form = (Node.form? room t.root.toJson.form).map Tree.mk := by
  have hfields : shape.fields? (Json.object (Json.record [("root", some t.root.toJson)])).form =
      some _ :=
    fields?_record (List.Sublist.refl ["root"]) (by decide)
  have hjson : t.toJson = .object (Json.record [("root", some t.root.toJson)]) := rfl
  have hfound : ([("root", some t.root.toJson)].lookup "root").join = some t.root.toJson := rfl
  rw [form?, hjson, hfields]
  simp only [hfound, Option.map_some, Option.bind_some]

theorem form?_toJson {room : Nat} {t : Tree} (h : t.root.Kept room)
    (hnumbers : t.toJson.Integral) : form? (room + 1) t.toJson.form = some t.trimmed := by
  rw [form?_toJson_succ, Node.form?_toJson h (hnumbers.member (List.mem_singleton_self _))]
  rfl

/-- A tree that was loaded is found again in the text that it is saved in, except for the state of
literals that are written by their value alone, and it is saved in the same text then. -/
theorem load_save {text : String} {t : Tree} (hload : load text = .ok t)
    (hnumbers : t.toJson.Integral) :
    load t.save = .ok t.trimmed ∧ t.trimmed.save = t.save := by
  have hlegible : ∀ n ∈ t.toJson.numbers, n.Legible := fun n hn =>
    Number.legible_of_isInteger (hnumbers n hn)
  refine ⟨load_eq_ok_iff.2 ?_, t.save_trimmed⟩
  rw [read?, save, Json.ofText?_pretty _ hlegible, Option.bind_some]
  exact form?_toJson (kept_of_load hload) hnumbers

/-- The text of a button with unsorted data, whose label has state that is not written. -/
def buttonText : String :=
  "\x7b\"root\": \x7b\"nodeType\": \"button\", \"state\": null, \"props\": [" ++
    "\x7b\"name\": \"data\", \"value\": \x7b\"z\": [1, -2], \"b\": null\x7d\x7d]," ++
    "\"children\": [\x7b\"type\": \"stringLiteral\", \"value\": \"x\\u0007\", " ++
    "\"state\": [0]\x7d]\x7d\x7d"

/-- The button, with this state of its label. -/
def button (state : List Json) : Tree :=
  let data : Json := .object [("b", .null),
    ("z", .array [.number (.integer 1 (by decide)), .number (.integer (-2) (by decide))])]
  ⟨(Node.element "button").withProps [.ofValue "data" (.json data)] |>.withChildren
    [⟨none, .literal (some (.text "x\x07")), [], state, []⟩]⟩

theorem load_save_button :
    load buttonText = .ok (button [.number (.integer 0 (by decide))]) ∧
      load (button [.number (.integer 0 (by decide))]).save = .ok (button []) ∧
        (button []).save = (button [.number (.integer 0 (by decide))]).save := by
  have hload : load buttonText = .ok (button [.number (.integer 0 (by decide))]) :=
    load_eq_ok_iff.2 (by decide +kernel)
  exact ⟨hload, load_save hload (by decide)⟩

end Tree
end ScreenTree
