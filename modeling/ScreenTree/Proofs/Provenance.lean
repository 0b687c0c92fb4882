import ScreenTree.Proofs.Journal
import ScreenTree.Proofs.Names

/-! # Where registered components come from

A registration writes the module of a component under its name. The app modules that are generated
later import the component under the same name: from the root of user components, unless the name is
that of a supplied component. Those come from the registry, whatever is registered. -/

namespace ScreenTree

theorem Text.concat_append (first second : List String) :
    Text.concat (first ++ second) = Text.concat first ++ Text.concat second := by
  induction first with
  | nil => simp [Text.concat]
  | cons part first ih => rw [List.cons_append, Text.concat, Text.concat, ih, String.append_assoc]

namespace Import

/-- The text is the app module of the tree, in which the component is imported from this origin by
one line and by no other: each line is that of one import, and behind them stands the function. -/
def ImportedFrom (options : Options) (tree : Tree) (text tag : String) (origin : Origin) : Prop :=
  ∃ (before after : List Import) (markup : String),
    ofTree tree = before ++ ⟨tag, origin⟩ :: after ∧ (∀ i ∈ before ++ after, i.tag ≠ tag) ∧
      (∀ i ∈ ofTree tree, Binds options i (line options i) i.binding) ∧
      options.markup tree.root 0 = .ok markup ∧
      text = Text.concat (before.map (line options)) ++ line options ⟨tag, origin⟩ ++
        Text.concat (after.map (line options)) ++ functionText options.appName markup

/-- The import of a component that is used stands between those of other components. -/
theorem exists_split_of_uses {tree : Tree} {tag : String} (h : Uses tree tag) :
    ∃ before after, ofTree tree = before ++ ⟨tag, .ofTag tag⟩ :: after ∧
      ∀ i ∈ before ++ after, i.tag ≠ tag := by
  obtain ⟨i, hi, hitag⟩ := List.mem_map.1 (mem_tags_iff.2 h)
  obtain ⟨before, after, hsplit⟩ := List.append_of_mem hi
  obtain ⟨tag', -, rfl⟩ := List.mem_map.1 hi
  cases hitag
  refine ⟨before, after, hsplit, ?_⟩
  have hnodup := nodup_tags tree
  rw [hsplit, List.map_append, List.map_cons] at hnodup
  have hothers := (List.nodup_middle.1 hnodup).notMem
  rw [← List.map_append] at hothers
  intro j hj heq
  exact hothers (heq ▸ List.mem_map_of_mem hj)

theorem importedFrom_of_appModule {options : Options} {tree : Tree} {text tag : String}
    (h : options.appModule tree = .ok text) (hused : Uses tree tag) :
    ImportedFrom options tree text tag (.ofTag tag) := by
  obtain ⟨before, after, hsplit, hothers⟩ := exists_split_of_uses hused
  obtain ⟨markup, hmarkup, rfl⟩ := Markup.Style.exists_of_map_eq_ok h
  refine ⟨before, after, markup, hsplit, hothers, fun i _ => binds_line options i, hmarkup, ?_⟩
  rw [appText_eq_functionText, hsplit, List.map_append, List.map_cons, Text.concat_append,
    Text.concat]
  simp only [String.append_assoc]

end Import

namespace Workspace

variable {σ : Type} [Output σ]

open Import Node

/-- The registration of a component writes its module under its name: the output after this step is
the one after this write, which was accepted, and a journal gains this attempt alone. Every app
module that is generated from then on, of a tree that uses the component, imports it under that name
by one line: from the root of user components, or from the registry if a supplied component has the
name. -/
theorem registered_imported (w : Workspace σ) (earlier later : List Operation) (name : String)
    (d : Definition) (hcomponent : Tag.isComponent name = true)
    (hregistered : ((w.after earlier).perform (.register name d)).1 = .ok .registered) :
    (∃ text, w.options.componentModule (d.withName name) = .ok text ∧
      Output.write (w.after earlier).output (w.config.componentModulePath name) text =
        (.ok (), (w.after (earlier ++ [.register name d])).output) ∧
      (w.journaled.after (earlier ++ [.register name d])).output.attempts =
        (w.journaled.after earlier).output.attempts ++
          [(w.config.componentModulePath name, text)]) ∧
    let v := w.after (earlier ++ .register name d :: later)
    ∀ text, v.render = .ok text →
      (∃ n, OutsideLiterals v.tree.root n ∧ n.kind = .element name) →
        ImportedFrom w.options v.tree text name
          (if Tag.isSupplied name then .registry else .user) := by
  constructor
  · obtain ⟨text, hmodule, hwrite⟩ := written_of_registered hregistered
    have hdue : (w.after earlier).due (.register name d) =
        some ((w.after earlier).config.componentModulePath name, text) := by
      change (w.after earlier).componentWrite name d = _
      rw [componentWrite, hmodule]
    rw [options, after_config] at hmodule
    rw [after_config] at hwrite hdue
    refine ⟨text, hmodule, ?_, ?_⟩
    · rw [hwrite, after_append, after_cons, after_nil]
    · rw [attempts_after_append, hdue, Option.toList_some]
  · intro v text hrender hused
    have hoptions : v.options = w.options := congrArg Config.options (after_config w _)
    rw [render, hoptions] at hrender
    exact importedFrom_of_appModule hrender ⟨hcomponent, hused⟩

/-- The module of the component `badge` is written, and the component comes from the root of user
components from then on. -/
theorem badge_imported :
    let w := new .standard Memory.empty
    let register := Operation.register "badge" Supplied.text
    let v := w.after [register, .add "1" (Node.element "badge") none]
    (∃ text, w.options.componentModule (Supplied.text.withName "badge") = .ok text ∧
      Memory.empty.write (w.config.componentModulePath "badge") text =
        (.ok (), (w.after [register]).output) ∧
      (w.journaled.after [register]).output.attempts =
        [(w.config.componentModulePath "badge", text)]) ∧
    ∃ text, v.render = .ok text ∧ ImportedFrom w.options v.tree text "badge" .user := by
  intro w register v
  have hroot : v.tree.root = Node.root.withChildren [(Node.element "badge").withId "1"] := by
    decide +kernel
  have hrender : v.render = .ok (
      "import \x7b Badge \x7d from \"../../../usercomponents/badge.jsx\";\n" ++
      "\nexport default function GeneratedApp() \x7b\n    return (\n        <div>\n<Badge />" ++
      "\n        </div>\n    );\n\x7d") := by
    decide +kernel
  have hcomponent : Tag.isComponent "badge" = true := by decide +kernel
  have hregistered : ((w.after []).perform register).1 = .ok .registered := by
    decide +kernel
  obtain ⟨hwritten, himported⟩ := registered_imported w [] [.add "1" (Node.element "badge") none]
    "badge" Supplied.text hcomponent hregistered
  refine ⟨hwritten, _, hrender, himported _ hrender ⟨(Node.element "badge").withId "1", ?_, rfl⟩⟩
  change OutsideLiterals v.tree.root _
  rw [hroot]
  exact .child .self rfl (List.mem_singleton.2 rfl)

/-- A component named `card` is registered and its module is written, and the screen with a card
imports it from the registry all the same. -/
theorem card_imported_from_registry :
    let w := new .standard Memory.empty
    let v := w.after [.register "card" Supplied.text, .add "1" (Node.element "card") none]
    let text := "import \x7b Card \x7d from \"../../../componentregistry/card.jsx\";\n" ++
      "\nexport default function GeneratedApp() \x7b\n    return (\n        <div>\n<Card />" ++
      "\n        </div>\n    );\n\x7d"
    Tag.isComponent "card" = true ∧
      (w.perform (.register "card" Supplied.text)).1 = .ok .registered ∧
      OutsideLiterals v.tree.root ((Node.element "card").withId "1") ∧
      v.render = .ok text ∧ ImportedFrom w.options v.tree text "card" .registry ∧
        ¬ ImportedFrom w.options v.tree text "card" .user := by
  intro w v text
  have hroot : v.tree.root = Node.root.withChildren [(Node.element "card").withId "1"] := by
    decide +kernel
  have himports : Import.ofTree v.tree = [⟨"card", .registry⟩] := by decide +kernel
  refine ⟨by decide +kernel, by decide +kernel, ?_, by decide +kernel, ?_, ?_⟩
  · rw [hroot]
    exact .child .self rfl (List.mem_singleton.2 rfl)
  · exact ⟨[], [], "<Card />", himports, nofun, fun i _ => binds_line _ i, by decide +kernel,
      by decide +kernel⟩
  · rintro ⟨before, after, markup, hsplit, -⟩
    have hmem : (⟨"card", .user⟩ : Import) ∈ Import.ofTree v.tree := by
      rw [hsplit]
      exact List.mem_append_right _ List.mem_cons_self
    rw [himports] at hmem
    revert hmem
    decide

end Workspace
end ScreenTree
