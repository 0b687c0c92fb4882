import ScreenTree.Output.Memory
import ScreenTree.Proofs.Edits
import ScreenTree.Proofs.Interchange
import ScreenTree.Proofs.Json.Depth

/-! # Loading what was saved

Whatever tree a workspace holds, its text is well-formed JSON with numbers in range. It is loaded
again unless it has too many arrays and objects open at once: writing knows no limit, and reading
has one. -/

namespace ScreenTree

open Json.Form

theorem Value.isSome_form?_form (room : Nat) (v : Json) :
    (Value.form? room v.form).isSome ↔ v.depth ≤ room := by
  rw [form?, Option.isSome_map, isSome_json?_form]

namespace Property

theorem isSome_form?_toJson (room : Nat) (p : Property) :
    (form? room p.toJson.form).isSome ↔ p.toJson.depth ≤ room := by
  cases room with
  | zero => simp [toJson_eq, form?, Json.depth]
  | succ room =>
    have hname : ((p.entries.lookup "name").join.map Json.form).bind (string? room) =
        some p.name := rfl
    have hvalue : (optional? Value.form? room
        ((p.entries.lookup "value").join.map Json.form)).isSome ↔
          ∀ v ∈ p.value.map Value.toJson, v.depth ≤ room :=
      isSome_optional? fun v _ => Value.isSome_form?_form room v
    have hinitial : (optional? Value.form? room
        ((p.entries.lookup "initialValue").join.map Json.form)).isSome ↔
          ∀ v ∈ p.initialValue.map Value.toJson, v.depth ≤ room :=
      isSome_optional? fun v _ => Value.isSome_form?_form room v
    have htype : (optional? string? room
        ((p.entries.lookup "type").join.map Json.form)).isSome ↔
          ∀ v ∈ (p.type.map ValueType.name).map Json.string, v.depth ≤ room :=
      isSome_optional?_string room _
    rw [form?, fields?_toJson, Option.bind_some, hname, toJson_eq, Json.depth_record_le_iff]
    refine (isSome_bind_iff fun name => isSome_bind_iff fun value => isSome_bind_iff
      fun initialValue => isSome_bind_iff fun type => iff_true_intro rfl).trans ?_
    simp only [hvalue, hinitial, htype]
    simp [entries, Json.depth]

end Property

namespace Node

/-- The children of a node are read like any list of it. -/
theorem form?_succ (room : Nat) (form : Json.Form) :
    form? (room + 1) form = (shape.fields? form).bind fun field => do
      let id ← optional? string? room (field "nodeId")
      let type ← optional? string? room (field "type")
      let nodeType ← optional? string? room (field "nodeType")
      let value ← optional? Value.form? room (field "value")
      let props ← optional? (list? Property.form?) room (field "props")
      let state ← optional? (list? json?) room (field "state")
      let children ← optional? (list? form?) room (field "children")
      return {
        id
        kind := kindOf (type <|> nodeType) value
        props := props.getD []
        state := state.getD []
        children := children.getD [] } := by
  cases room <;> rfl

theorem isSome_form?_toJson (room : Nat) (n : Node) :
    (form? room n.toJson.form).isSome ↔ n.toJson.depth ≤ room := by
  induction room using Nat.strongRecOn generalizing n with
  | ind room ih =>
    cases room with
    | zero => simp [toJson_eq, form?, Json.depth]
    | succ room =>
      have hid : (optional? string? room
          ((n.entries.lookup "nodeId").join.map Json.form)).isSome ↔
            ∀ v ∈ n.id.map Json.string, v.depth ≤ room :=
        isSome_optional?_string room _
      have htype : (optional? string? room
          ((n.entries.lookup "type").join.map Json.form)).isSome ↔
            ∀ v ∈ n.kind.tag?.map Json.string, v.depth ≤ room :=
        isSome_optional?_string room _
      have hnodeType : optional? string? room
          ((n.entries.lookup "nodeType").join.map Json.form) = some none := rfl
      have hvalue : (optional? Value.form? room
          ((n.entries.lookup "value").join.map Json.form)).isSome ↔
            ∀ v ∈ n.kind.value?.map Value.toJson, v.depth ≤ room :=
        isSome_optional? fun v _ => Value.isSome_form?_form room v
      have hprops : (optional? (list? Property.form?) room
          ((n.entries.lookup "props").join.map Json.form)).isSome ↔ _ :=
        isSome_optional?_unless fun v hv inner _ => by
          obtain ⟨p, -, rfl⟩ := List.mem_map.1 hv
          exact Property.isSome_form?_toJson inner p
      have hstate : (optional? (list? json?) room
          ((n.entries.lookup "state").join.map Json.form)).isSome ↔ _ :=
        isSome_optional?_unless fun v _ inner _ => isSome_json?_form inner v
      have hchildren : (optional? (list? form?) room
          ((n.entries.lookup "children").join.map Json.form)).isSome ↔ _ :=
        isSome_optional?_unless fun v hv inner hinner => by
          obtain ⟨c, -, rfl⟩ := List.mem_map.1 hv
          exact ih inner (by omega) c
      rw [form?_succ, fields?_toJson, Option.bind_some, toJson_eq, Json.depth_record_le_iff]
      refine (isSome_bind_iff fun id => isSome_bind_iff fun type => isSome_bind_iff fun nodeType =>
        isSome_bind_iff fun value => isSome_bind_iff fun props => isSome_bind_iff fun state =>
          isSome_bind_iff fun children => iff_true_intro rfl).trans ?_
      simp only [hid, htype, hnodeType, hvalue, hprops, hstate, hchildren]
      simp [entries]

/-! ## Levels -/

mutual

/-- The number of nodes from a node down to its deepest descendant. -/
def levels : Node → Nat
  | ⟨_, _, _, _, children⟩ => levelsIn children + 1

def levelsIn : List Node → Nat
  | [] => 0
  | n :: ns => max n.levels (levelsIn ns)

end

mutual

/-- Every node is an object in an array, the first one apart. -/
theorem levels_le_depth : (n : Node) → 2 * n.levels ≤ n.toJson.depth + 1
  | ⟨id, kind, props, state, children⟩ => by
    have hchildren := levelsIn_le_depth children
    rw [levels, toJson, Json.depth]
    cases hcompact : isCompact kind props children with
    | true =>
      rw [(isCompact_iff.1 hcompact).2.2, levelsIn]
      omega
    | false =>
      have hmember := Json.depth_le_membersDepth (List.mem_append_right
        (Json.optional "nodeId" (id.map .string) ++ Json.optional "type" (kind.tag?.map .string) ++
          Json.optional "value" (kind.value?.map Value.toJson))
        (by simp : ("children", Json.array (listToJson children)) ∈
          [("props", Json.array (props.map Property.toJson)), ("state", .array state),
            ("children", .array (listToJson children))]))
      rw [Json.depth] at hmember
      rw [if_neg Bool.false_ne_true]
      omega

theorem levelsIn_le_depth : (ns : List Node) → 2 * levelsIn ns ≤ Json.itemsDepth (listToJson ns) + 1
  | [] => by simp [levelsIn]
  | n :: ns => by
    have hn := levels_le_depth n
    have hns := levelsIn_le_depth ns
    rw [levelsIn, listToJson, Json.itemsDepth]
    omega

end

end Node

namespace Tree

theorem isSome_form?_toJson (room : Nat) (t : Tree) :
    (form? room t.toJson.form).isSome ↔ t.toJson.depth ≤ room := by
  have hjson : t.toJson = .object (Json.record [("root", some t.root.toJson)]) := rfl
  cases room with
  | zero => simp [hjson, form?, Json.depth]
  | succ room =>
    rw [form?_toJson_succ, Option.isSome_map, Node.isSome_form?_toJson, hjson,
      Json.depth_record_le_iff]
    simp

/-- What is read of a saved tree is read of its form. -/
theorem read?_save (t : Tree) : Json.Form.read? form? t.save = form? maxDepth t.toJson.form := by
  rw [read?, save, Json.ofText?_pretty _ fun n _ => n.legible, Option.bind_some]

/-- The text of a tree is well-formed. The tree is read from it again exactly if it is not too deep.
-/
theorem exists_load_save_iff (t : Tree) :
    (∃ t', load t.save = .ok t') ↔ t.toJson.depth ≤ maxDepth := by
  rw [← isSome_form?_toJson, ← read?_save, Option.isSome_iff_exists]
  simp only [load_eq_ok_iff]

theorem load_save_of_deep {t : Tree} (h : maxDepth < t.toJson.depth) :
    load t.save = .error (.unreadable .json) := by
  have hnone : Json.Form.read? form? t.save = none := by
    refine Option.eq_none_iff_forall_ne_some.2 fun t' ht' => ?_
    have hdepth := (exists_load_save_iff t).1 ⟨t', load_eq_ok_iff.2 ht'⟩
    omega
  rw [load, hnone]
  rfl

theorem levels_le_depth (t : Tree) : 2 * t.root.levels ≤ t.toJson.depth := by
  have hroot := t.root.levels_le_depth
  rw [toJson, Json.depth, Json.membersDepth, Json.membersDepth]
  omega

theorem deep_of_levels {t : Tree} (h : 64 ≤ t.root.levels) : maxDepth < t.toJson.depth := by
  have hlevels := t.levels_le_depth
  unfold maxDepth
  omega

end Tree

namespace Node

/-- An element within elements, at this depth. -/
def nested : Nat → Node
  | 0 => element "div"
  | k + 1 => (element "div").withChildren [nested k]

theorem levels_withId (n : Node) (id : String) : (n.withId id).levels = n.levels := by
  cases n
  rfl

theorem levels_nested (k : Nat) : (nested k).levels = k + 1 := by
  induction k with
  | zero => rfl
  | succ k ih => simp [nested, element, ofKind, withChildren, levels, levelsIn, ih]

theorem trimmed_nested (k : Nat) : (nested k).trimmed = nested k := by
  induction k with
  | zero => rfl
  | succ k ih => simp [nested, element, ofKind, withChildren, trimmed, trimmedList, isCompact,
      Kind.isLiteral, ih]

theorem integral_nested (k : Nat) : (nested k).toJson.Integral := by
  have hnumbers : (nested k).toJson.numbers = [] := by
    induction k with
    | zero => rfl
    | succ k ih => simp [nested, element, ofKind, withChildren, toJson, listToJson, isCompact,
        Kind.isLiteral, Kind.tag?, Kind.value?, Json.optional, Json.numbers, Json.itemNumbers,
        Json.memberNumbers, ih]
  intro n hn
  rw [hnumbers] at hn
  cases hn

theorem kept_nested (k : Nat) : (nested k).Kept (2 * k + 3) := by
  induction k with
  | zero =>
    have hkind : kindOf (some "div") none = .element "div" := by decide
    exact @Kept.intro 1 (element "div") (by simp [element, ofKind, Kind.value?]) hkind
      (by simp [element, ofKind]) (by simp [element, ofKind]) (by simp [element, ofKind])
  | succ k ih =>
    have hkind : kindOf (some "div") none = .element "div" := by decide
    refine @Kept.intro (2 * k + 3) (nested (k + 1)) ?_ hkind ?_ ?_ ?_ <;>
      simp [nested, element, ofKind, withChildren, Kind.value?, ih]

/-- The text of elements within elements is read as long as it fits. -/
theorem read_nested : read (nested 62).toJson.pretty = .ok (nested 62) := by
  have hform : form? maxDepth (nested 62).toJson.form = some (nested 62) := by
    change form? (2 * 62 + 3) _ = _
    rw [form?_toJson (kept_nested 62) (integral_nested 62), trimmed_nested]
  rw [read, read?, Json.ofText?_pretty _ fun n _ => n.legible, Option.bind_some, hform]
  rfl

end Node

namespace Workspace

variable {σ : Type}

theorem levels_add_nested (k : Nat) :
    ((new .standard Memory.empty).perform (.add "1" (Node.nested k) none)).2.tree.root.levels =
      k + 2 := by
  rw [(perform_delivered _ _).1]
  change (max ((Node.nested k).withId _).levels 0) + 1 = k + 2
  rw [Node.levels_withId, Node.levels_nested, Nat.max_zero]

/-- A workspace loads what it saves exactly if its tree does not have more arrays and objects open
at once than the reader admits. Otherwise the text counts as invalid and the workspace stays as it
is. A tree with 64 levels of nodes is too deep, whatever the nodes hold. -/
theorem reloads_iff (w : Workspace σ) :
    ((∃ t, (w.load w.save).1 = .ok t) ↔ w.tree.toJson.depth ≤ maxDepth) ∧
      (maxDepth < w.tree.toJson.depth → w.load w.save = (.error (.unreadable .json), w)) ∧
      (64 ≤ w.tree.root.levels → maxDepth < w.tree.toJson.depth) := by
  refine ⟨?_, fun hdeep => ?_, Tree.deep_of_levels⟩
  · rw [← Tree.exists_load_save_iff, load, save]
    cases Tree.load w.tree.save <;> simp
  · rw [load, save, Tree.load_save_of_deep hdeep]

/-- An element in 62 others is read, and the screen that it is added to is not loaded again. -/
theorem nested_not_reloaded :
    let w := (new .standard Memory.empty).after [.add "1" (Node.nested 62) none]
    Node.read (Node.nested 62).toJson.pretty = .ok (Node.nested 62) ∧
      w.load w.save = (.error (.unreadable .json), w) := by
  intro w
  have hw : w = ((new .standard Memory.empty).perform (.add "1" (Node.nested 62) none)).2 := rfl
  have hlevels : 64 ≤ w.tree.root.levels := by rw [hw, levels_add_nested]
  refine ⟨Node.read_nested, ?_⟩
  rw [load, save, Tree.load_save_of_deep (Tree.deep_of_levels hlevels)]

end Workspace
end ScreenTree
