import ScreenTree.Proofs.Journal
import ScreenTree.Proofs.Reload
import ScreenTree.Proofs.Renaming

/-! # Ids are opaque

A run in which every id has been renamed goes through the renamed workspaces, answers with renamed
ids, and writes the same text. A tree is saved with its ids, so the texts that are loaded are
compared by the trees that they hold. -/

namespace ScreenTree

open Json.Form

/-! ## Saved trees -/

theorem Json.Form.items?_map {α β : Type} {item : Json.Form → Option α} {g : α → α}
    {w w' : β → Json} {xs : List β} (h : ∀ x ∈ xs, item (w' x).form = (item (w x).form).map g) :
    items? item (Json.array (xs.map w')).form =
      (items? item (Json.array (xs.map w)).form).map (List.map g) := by
  rw [form, form, itemForms_eq_map, itemForms_eq_map]
  change (List.map form (xs.map w')).mapM item = ((List.map form (xs.map w)).mapM item).map _
  induction xs with
  | nil => rfl
  | cons x xs ih =>
    obtain ⟨hx, hxs⟩ := List.forall_mem_cons.1 h
    simp only [List.map_cons, List.mapM_cons, hx, ih hxs]
    cases item (w x).form with
    | none => rfl
    | some y => cases (List.map form (xs.map w)).mapM item <;> rfl

variable (r : Renaming)

namespace Node

theorem isCompact_renameIn (kind : Kind) (props : List Property) (children : List Node) :
    isCompact kind props (renameIn r children) = isCompact kind props children := by
  cases children <;> rfl

/-- A field of a renamed node other than its id and its children is that of the node. -/
theorem lookup_entries_rename (n : Node) {name : String} (hid : name ≠ "nodeId")
    (hchildren : name ≠ "children") :
    (n.rename r).entries.lookup name = n.entries.lookup name := by
  obtain ⟨id, kind, props, state, children⟩ := n
  rw [rename, entries, entries, isCompact_renameIn]
  simp [List.lookup_cons, beq_false_of_ne hid, beq_false_of_ne hchildren]

theorem optional?_children_rename {room : Nat} (n : Node)
    (h : ∀ inner, inner < room → ∀ c : Node,
      form? inner (c.rename r).toJson.form = (form? inner c.toJson.form).map (rename r)) :
    optional? (list? form?) room
        (((n.rename r).entries.lookup "children").join.map Json.form) =
      (optional? (list? form?) room ((n.entries.lookup "children").join.map Json.form)).map
        (Option.map (renameIn r)) := by
  have hlookup (n : Node) : (n.entries.lookup "children").join =
      if isCompact n.kind n.props n.children then none
      else some (.array (n.children.map toJson)) := rfl
  rw [hlookup, hlookup]
  obtain ⟨id, kind, props, state, children⟩ := n
  simp only [rename, isCompact_renameIn]
  cases isCompact kind props children with
  | true => rfl
  | false =>
    simp only [Bool.false_eq_true, if_false, Option.map_some, renameIn_eq_map, List.map_map]
    rw [optional?_some (by simp), optional?_some (by simp)]
    cases room with
    | zero => rfl
    | succ inner =>
      have hitems : items? (form? inner) (Json.array (children.map (toJson ∘ rename r))).form =
          (items? (form? inner) (Json.array (children.map toJson)).form).map (renameIn r) := by
        rw [show renameIn r = List.map (rename r) from funext (renameIn_eq_map r)]
        exact items?_map fun c _ => h inner (Nat.lt_succ_self inner) c
      rw [list?, list?, hitems, Option.map_map, Option.map_map]
      rfl

/-- What is read of a renamed node is what is read of the node, renamed. -/
theorem form?_rename (room : Nat) (n : Node) :
    form? room (n.rename r).toJson.form = (form? room n.toJson.form).map (rename r) := by
  -- Children are read with less room, as their array and the node itself have been opened.
  induction room using Nat.strongRecOn generalizing n with
  | ind room ih =>
    cases room with
    | zero => rfl
    | succ room =>
      have hchildren := optional?_children_rename r n fun inner (hinner : inner < room) =>
        ih inner (by omega)
      have hmissing (cs : Option (List Node)) :
          (cs.map (renameIn r)).getD [] = renameIn r (cs.getD []) := by
        cases cs <;> rfl
      have hsame {name : String} (hid : name ≠ "nodeId") (hchildren : name ≠ "children") :=
        congrArg (fun v => v.join.map Json.form) (lookup_entries_rename r n hid hchildren)
      rw [form?_succ, form?_succ, fields?_toJson, fields?_toJson]
      simp only [optional?_id, hchildren, hmissing, id_rename, rename, Option.bind_eq_bind, Option.bind_some,
        Option.map_bind, Option.bind_map, Function.comp_def, Option.pure_def, Option.map_some,
        hsame (by decide : "type" ≠ _) (by decide),
        hsame (by decide : "nodeType" ≠ _) (by decide), hsame (by decide : "value" ≠ _) (by decide),
        hsame (by decide : "props" ≠ _) (by decide), hsame (by decide : "state" ≠ _) (by decide)]

end Node

namespace Tree

theorem form?_rename (room : Nat) (t : Tree) :
    form? room (t.rename r).toJson.form = (form? room t.toJson.form).map (rename r) := by
  cases room with
  | zero => rfl
  | succ room =>
    rw [form?_toJson_succ, form?_toJson_succ, rename, Node.form?_rename, Option.map_map,
      Option.map_map]
    rfl

/-- A renamed tree is saved in a text that holds what the text of the tree does, renamed. -/
theorem load_save_rename (t : Tree) :
    load (t.rename r).save = r.result (rename r) (load t.save) := by
  rw [load, load, read?_save, read?_save, form?_rename]
  cases form? maxDepth t.toJson.form <;> rfl

end Tree

/-! ## Operations -/

namespace Operation

/-- The second operation is the first one with every id renamed. -/
inductive Renamed : Operation → Operation → Prop
  | reset : Renamed .reset .reset
  | add (fresh : String) (n : Node) (parent : Option String) :
    Renamed (.add fresh n parent) (.add (r fresh) (n.rename r) (parent.map r))
  | remove (id : String) : Renamed (.remove id) (.remove (r id))
  | update (id : String) (u : Update) : Renamed (.update id u) (.update (r id) (u.rename r))
  | move (id parent : String) (position : Option Nat) :
    Renamed (.move id parent position) (.move (r id) (r parent) position)
  | register (name : String) (d : Definition) :
    Renamed (.register name d) (.register name (d.rename r))
  | load {text text' : String}
    (h : Tree.load text' = r.result (Tree.rename r) (Tree.load text)) :
    Renamed (.load text) (.load text')

theorem Renamed.isChange_eq {r : Renaming} {operation operation' : Operation}
    (h : Renamed r operation operation') : operation'.isChange = operation.isChange := by
  cases h <;> rfl

end Operation

/-- The answer with its ids renamed. -/
def Answer.rename : Answer → Answer
  | .tree t => .tree (t.rename r)
  | .placed id => .placed (r id)
  | .removed found => .removed found
  | .node n => .node (n.rename r)
  | .registered => .registered

variable {r}

theorem Tree.perform_rename {operation operation' : Operation}
    (h : Operation.Renamed r operation operation') (t : Tree) :
    (t.rename r).perform operation' =
      Prod.map (r.result (Answer.rename r)) (Tree.rename r) (t.perform operation) := by
  cases h with
  | reset =>
    rw [perform, perform, Prod.map, Renaming.result, Answer.rename, rename_empty]
  | add fresh n parent =>
    have hid : (n.id.map r).getD (r fresh) = r (n.id.getD fresh) := by cases n.id <;> rfl
    have hparent : (parent.map r).getD Node.rootId = r (parent.getD Node.rootId) := by
      cases parent with
      | none => exact r.fixes_root.symm
      | some parent => rfl
    simp only [perform, Node.id_rename, hid, hparent, ← Node.rename_withId, add_rename]
    cases t.add (n.withId (n.id.getD fresh)) (parent.getD Node.rootId) <;> rfl
  | remove id =>
    simp only [perform, remove?_rename]
    cases t.remove? id <;> rfl
  | update id u =>
    simp only [perform, update_rename]
    cases t.update id u with
    | error e => rfl
    | ok t' =>
      simp only [Renaming.result, find?_rename]
      cases t'.find? id <;> rfl
  | move id parent position =>
    simp only [perform, move_rename]
    obtain ⟨result, t'⟩ := t.move id parent position
    cases result <;> rfl
  | register name d => rfl
  | @load text text' hload =>
    simp only [perform, hload]
    cases Tree.load text <;> rfl

namespace Workspace

variable {σ : Type}

/-- The workspace with the ids in its tree and in its registered templates renamed. -/
def rename (r : Renaming) (w : Workspace σ) : Workspace σ :=
  { w with tree := w.tree.rename r, registry := w.registry.rename r }

variable (r)

/-- Generated text does not show ids. -/
theorem render_rename (w : Workspace σ) : (w.rename r).render = w.render := by
  have htree : w.options.appModule (w.tree.rename r) = w.options.appModule w.tree := by
    rw [← Options.appModule_drawn, ← Options.appModule_drawn w.options w.tree, Tree.rename,
      Node.drawn_rename]
  exact htree

theorem componentModule_rename (options : Options) (d : Definition) :
    options.componentModule (d.rename r) = options.componentModule d := by
  rw [← Options.componentModule_drawnIn, ← Options.componentModule_drawnIn options d,
    Definition.rename, Node.drawnIn_renameIn]

variable [Output σ] {α : Type}

theorem write_rename (w : Workspace σ) (path text : String) (f : α → α) (result : α) :
    (w.rename r).write path text (f result) =
      Prod.map (r.result f) (rename r) (w.write path text result) := by
  rw [write, write, rename]
  cases Output.write w.output path text with
  | mk written output => cases written <;> rfl

theorem publish_rename (w : Workspace σ) (f : α → α) (result : α) :
    (w.rename r).publish (f result) =
      Prod.map (r.result f) (rename r) (w.publish result) := by
  rw [publish, publish, render_rename]
  cases hrender : w.render with
  | ok text => exact w.write_rename r _ _ f result
  | error e =>
    obtain ⟨cause, rfl⟩ := Options.exists_malformed_of_appModule hrender
    rfl

theorem conclude_rename (w : Workspace σ) (intended : Except Error Answer × Tree) :
    (w.rename r).conclude (Prod.map (r.result (Answer.rename r)) (Tree.rename r) intended) =
      Prod.map (r.result (Answer.rename r)) (rename r) (w.conclude intended) := by
  obtain ⟨result, t⟩ := intended
  cases result with
  | error e => rfl
  | ok answer =>
    by_cases hnothing : answer = .removed false
    · subst hnothing
      rfl
    · have hrenamed : answer.rename r ≠ .removed false := by
        cases answer <;> simp_all [Answer.rename]
      rw [w.conclude_ok hnothing, ← publish_rename]
      exact (w.rename r).conclude_ok hrenamed _

theorem register_rename (w : Workspace σ) (name : String) (d : Definition) :
    (w.rename r).register name (d.rename r) =
      Prod.map (r.result fun _ => ()) (rename r) (w.register name d) := by
  have hname : (d.withName name).rename r = (d.rename r).withName name :=
    Definition.eq_withName_iff.2 ⟨rfl, rfl, rfl, rfl⟩
  have hmodule : (w.rename r).options.componentModule ((d.rename r).withName name) =
      w.options.componentModule (d.withName name) := by
    rw [← hname]
    exact componentModule_rename r w.options (d.withName name)
  simp only [register, hmodule]
  cases hcomponent : w.options.componentModule (d.withName name) with
  | ok text =>
    exact write_rename r { w with registry := w.registry.register name (d.withName name) }
      (w.config.componentModulePath name) text (fun _ => ()) ()
  | error e =>
    obtain ⟨cause, rfl⟩ := Options.exists_malformed_of_componentModule hcomponent
    rfl

variable {r}

/-- Renamed operations do the same in renamed workspaces. -/
theorem perform_rename {operation operation' : Operation}
    (h : Operation.Renamed r operation operation') (w : Workspace σ) :
    (w.rename r).perform operation' =
      Prod.map (r.result (Answer.rename r)) (rename r) (w.perform operation) := by
  cases hchange : operation.isChange with
  | true =>
    rw [perform_change _ hchange, perform_change _ (h.isChange_eq.trans hchange),
      ← conclude_rename, ← Tree.perform_rename h]
    rfl
  | false =>
    cases h with
    | register name d =>
      simp only [perform, register_rename]
      cases w.register name d with
      | mk result after => cases result <;> rfl
    | @load text text' hload =>
      simp only [perform, Outcome.answer, load, hload]
      cases Tree.load text <;> rfl
    | reset | add | remove | update | move => cases hchange

theorem after_rename {run run' : List Operation}
    (h : List.Forall₂ (Operation.Renamed r) run run') (w : Workspace σ) :
    (w.rename r).after run' = (w.after run).rename r := by
  induction h generalizing w with
  | nil => rfl
  | cons hoperation _ ih => rw [after_cons, after_cons, perform_rename hoperation, Prod.map, ih]

/-- The outcomes of the steps of a run, one after another. -/
def outcomes (w : Workspace σ) : List Operation → List (Outcome σ Answer)
  | [] => []
  | operation :: run => w.perform operation :: (w.perform operation).2.outcomes run

theorem outcomes_rename {run run' : List Operation}
    (h : List.Forall₂ (Operation.Renamed r) run run') (w : Workspace σ) :
    (w.rename r).outcomes run' =
      (w.outcomes run).map (Prod.map (r.result (Answer.rename r)) (rename r)) := by
  induction h generalizing w with
  | nil => rfl
  | cons hoperation _ ih =>
    rw [outcomes, outcomes, perform_rename hoperation, Prod.map, ih, List.map_cons]
    rfl

/-- A renamed run takes the renamed workspace through the renamed outcomes, and attempts the same
writes with the same texts. What is loaded can be renamed by renaming a tree before it is saved. -/
theorem run_commutes_with_renaming (r : Renaming) (w : Workspace σ) {run run' : List Operation}
    (h : List.Forall₂ (Operation.Renamed r) run run') :
    (w.rename r).outcomes run' =
        (w.outcomes run).map (Prod.map (r.result (Answer.rename r)) (rename r)) ∧
      ((w.rename r).journaled.after run').output = (w.journaled.after run).output ∧
        ∀ t : Tree, Operation.Renamed r (.load t.save) (.load (t.rename r).save) := by
  have hjournal := congrArg Workspace.output (after_rename h w.journaled)
  exact ⟨outcomes_rename h w, hjournal, fun t => .load (t.load_save_rename r)⟩

/-- A label is put into a box, the box cannot be moved into the label, it is removed and comes back
with a saved screen; then the same with the ids of box and label exchanged. -/
theorem run_commutes_with_exchange :
    let r := Renaming.swap "box" "label" (by decide) (by decide)
    let w := new .standard Memory.empty
    let screen (id : String) : Tree := ⟨Node.root.withChildren [(Node.element "div").withId id]⟩
    let edits (box label : String) : List Operation := [
      .add box (Node.element "div") none,
      .add "unused" ((Node.element "span").withId label) (some box),
      .move box label none,
      .remove box]
    let run (box label : String) := edits box label ++ [.load (screen box).save]
    List.Forall₂ (Operation.Renamed r) (run "box" "label") (run "label" "box") ∧
      (w.outcomes (edits "box" "label")).map Prod.fst =
        [.ok (.placed "box"), .ok (.placed "label"), .error (.refused (.moveIntoSelf "box")),
          .ok (.removed true)] ∧
      (w.rename r).outcomes (run "label" "box") =
        (w.outcomes (run "box" "label")).map (Prod.map (r.result (Answer.rename r)) (rename r)) := by
  intro r w screen edits run
  have hscreen : screen "label" = (screen "box").rename r := by decide
  have hload : Tree.load (screen "label").save =
      r.result (Tree.rename r) (Tree.load (screen "box").save) := by
    rw [hscreen, Tree.load_save_rename]
  have hrun : List.Forall₂ (Operation.Renamed r) (run "box" "label") (run "label" "box") :=
    .cons (.add "box" (Node.element "div") none) <|
      .cons (.add "unused" ((Node.element "span").withId "label") (some "box")) <|
        .cons (.move "box" "label" none) <| .cons (.remove "box") <| .cons (.load hload) .nil
  exact ⟨hrun, by decide +kernel, (run_commutes_with_renaming r w hrun).1⟩

end Workspace
end ScreenTree
