import ScreenTree.Proofs.Attempts
import ScreenTree.Proofs.Memory

/-! # A journal of writes

A journal stands beside an output and notes every write that is attempted. Nothing else depends on
it, so what it holds after a run is what the run asked of the output. In a memory that accepts every
write, the app module is that of the current tree from one successful change of the tree to the
next. -/

namespace ScreenTree

/-- An output, and the writes attempted on it so far. -/
structure Journal (σ : Type) where
  output : σ
  attempts : List (String × String)

namespace Journal

variable {σ : Type}

instance [Output σ] : Output (Journal σ) where
  write j path text :=
    let (result, output) := Output.write j.output path text
    (result, ⟨output, j.attempts ++ [(path, text)]⟩)

end Journal

namespace Workspace

variable {σ τ α : Type}

/-- The workspace with its output seen through a map. -/
def mapOutput (f : σ → τ) (w : Workspace σ) : Workspace τ :=
  ⟨w.tree, w.registry, w.config, f w.output⟩

/-- The workspace with an empty journal beside its output. -/
def journaled (w : Workspace σ) : Workspace (Journal σ) :=
  w.mapOutput fun output => ⟨output, []⟩

/-- The workspace without its journal. -/
def unjournaled (w : Workspace (Journal σ)) : Workspace σ :=
  w.mapOutput Journal.output

section Morphism

variable [Output σ] [Output τ] {f : σ → τ}

/-- A map that agrees with every write. -/
def IsMorphism (f : σ → τ) : Prop :=
  ∀ output path text, Output.write (f output) path text =
    ((Output.write output path text).1, f (Output.write output path text).2)

theorem write_mapOutput (hf : IsMorphism f) (w : Workspace σ) (path text : String) (result : α) :
    (w.mapOutput f).write path text result =
      ((w.write path text result).1, (w.write path text result).2.mapOutput f) := by
  rw [write, write, mapOutput, hf]
  cases Output.write w.output path text with
  | mk result output => cases result <;> rfl

theorem publish_mapOutput (hf : IsMorphism f) (w : Workspace σ) (result : α) :
    (w.mapOutput f).publish result =
      ((w.publish result).1, (w.publish result).2.mapOutput f) := by
  rw [publish, publish, show (w.mapOutput f).render = w.render from rfl]
  cases w.render with
  | error e => rfl
  | ok text => exact write_mapOutput hf w _ _ _

theorem conclude_mapOutput (hf : IsMorphism f) (w : Workspace σ)
    (intended : Except Error Answer × Tree) :
    (w.mapOutput f).conclude intended =
      ((w.conclude intended).1, (w.conclude intended).2.mapOutput f) := by
  obtain ⟨result, t⟩ := intended
  cases result with
  | error e => rfl
  | ok answer =>
    by_cases hnothing : answer = .removed false
    · subst hnothing
      rfl
    · rw [conclude_ok _ hnothing, conclude_ok _ hnothing]
      exact publish_mapOutput hf (w.withTree t) answer

/-- Operations see of an output only how it takes writes. -/
theorem perform_mapOutput (hf : IsMorphism f) (w : Workspace σ) (operation : Operation) :
    (w.mapOutput f).perform operation =
      ((w.perform operation).1, (w.perform operation).2.mapOutput f) := by
  cases hchange : operation.isChange with
  | true =>
    rw [perform_change _ hchange, perform_change _ hchange]
    exact conclude_mapOutput hf w _
  | false =>
    cases operation with
    | register name d =>
      simp only [perform, Outcome.answer, register, show (w.mapOutput f).options = w.options from rfl]
      cases w.options.componentModule (d.withName name) with
      | error e => rfl
      | ok text =>
        let v : Workspace σ := { w with registry := w.registry.register name (d.withName name) }
        have h := write_mapOutput hf v (w.config.componentModulePath name) text ()
        exact congrArg (fun o : Outcome τ Unit => Outcome.answer o fun _ => .registered) h
    | load text =>
      simp only [perform, Outcome.answer, load]
      cases Tree.load text <;> rfl
    | reset | add | remove | update | move => cases hchange

theorem after_mapOutput (hf : IsMorphism f) (w : Workspace σ) (run : List Operation) :
    (w.mapOutput f).after run = (w.after run).mapOutput f := by
  induction run generalizing w with
  | nil => rfl
  | cons operation run ih => rw [after_cons, after_cons, perform_mapOutput hf, ih]

theorem due_mapOutput (hf : IsMorphism f) (w : Workspace σ) (operation : Operation) :
    (w.mapOutput f).due operation = w.due operation := by
  simp only [due, perform_mapOutput hf]
  rfl

end Morphism

variable [Output σ]

theorem isMorphism_output : IsMorphism (Journal.output : Journal σ → σ) :=
  fun _ _ _ => rfl

/-- A journal does not show in a run. -/
theorem unjournaled_after (w : Workspace σ) (run : List Operation) :
    (w.journaled.after run).unjournaled = w.after run :=
  (after_mapOutput isMorphism_output w.journaled run).symm

/-- A step adds to the journal the write that is due. -/
theorem attempts_perform (w : Workspace (Journal σ)) (operation : Operation) :
    (w.perform operation).2.output.attempts =
      w.output.attempts ++ (w.unjournaled.due operation).toList := by
  rw [output_perform, unjournaled, due_mapOutput isMorphism_output]
  cases w.due operation with
  | none => simp [written]
  | some write => rfl

theorem attempts_after_append (w : Workspace σ) (run : List Operation) (operation : Operation) :
    (w.journaled.after (run ++ [operation])).output.attempts =
      (w.journaled.after run).output.attempts ++ ((w.after run).due operation).toList := by
  rw [after_append, after_cons, after_nil, attempts_perform, unjournaled_after]

/-! ## The file of the app module -/

/-- The configuration is never changed. -/
theorem perform_config (w : Workspace σ) (operation : Operation) :
    (w.perform operation).2.config = w.config := by
  obtain ⟨registry, output, hafter, -⟩ := w.perform_workspace operation
  rw [hafter]

theorem after_config (w : Workspace σ) (run : List Operation) :
    (w.after run).config = w.config := by
  induction run generalizing w with
  | nil => rfl
  | cons operation run ih => rw [after_cons, ih, perform_config]

/-- The operation `change` is the last one of a run to change the tree, and it has succeeded. -/
structure LastChange (w : Workspace σ) (earlier : List Operation) (change : Operation)
    (later : List Operation) : Prop where
  isChange : change.isChange = true
  succeeds : ∃ answer, ((w.after earlier).perform change).1 = .ok answer
  changes : ((w.after earlier).perform change).2.tree ≠ (w.after earlier).tree
  keeps : ∀ rest, rest <+: later →
    (w.after (earlier ++ change :: rest)).tree = (w.after (earlier ++ [change])).tree

/-- After a change that succeeds the tree can be rendered, and the app module is due. -/
theorem exists_due_of_succeeds {w : Workspace σ} {change : Operation} {answer : Answer}
    (hchange : change.isChange = true) (hok : (w.perform change).1 = .ok answer)
    (htree : (w.perform change).2.tree ≠ w.tree) :
    ∃ text, (w.perform change).2.render = .ok text ∧
      w.due change = some (w.config.appModulePath, text) := by
  rw [w.due_change hchange]
  rw [(w.perform_delivered change).1] at htree
  have hremoved : (w.tree.perform change).1 ≠ .ok (.removed false) :=
    fun h => htree (Tree.perform_removed_false h)
  rw [w.perform_change hchange] at hok ⊢
  generalize w.tree.perform change = edit at hok hremoved ⊢
  obtain ⟨result, t⟩ := edit
  cases result with
  | error e => cases hok
  | ok intended =>
    have hnothing : intended ≠ .removed false := fun h => hremoved (by rw [h])
    rw [w.conclude_ok hnothing] at hok ⊢
    obtain ⟨text, hrender⟩ := render_of_publish hok
    refine ⟨text, ?_, ?_⟩
    · rw [render, options, publish_tree, publish_config]
      exact hrender
    · rw [w.dueOf_ok hnothing, appWrite, hrender]
      rfl

/-- The file of the app module is that of the current tree. -/
def Published (w : Workspace Memory) : Prop :=
  ∃ text, w.render = .ok text ∧ w.output.get? w.config.appModulePath = some text

/-- No registration of a run writes the file of the app module. -/
def Apart (config : Config) (run : List Operation) : Prop :=
  ∀ name d, .register name d ∈ run →
    (config.options.componentModule (d.withName name)).isOk = true →
    Path.components (config.componentModulePath name) ≠ Path.components config.appModulePath

/-- The output of a step that has written the app module. -/
theorem published_of_due {w : Workspace Memory} {operation : Operation} {text : String}
    (hworking : w.output.failure = none) (hrender : (w.perform operation).2.render = .ok text)
    (hdue : w.due operation = some (w.config.appModulePath, text)) :
    (w.perform operation).2.Published := by
  refine ⟨text, hrender, ?_⟩
  rw [perform_config, output_perform, hdue]
  exact (Memory.get?_write hworking ..).trans (if_pos rfl)

theorem failure_perform (w : Workspace Memory) (operation : Operation) :
    (w.perform operation).2.output.failure = w.output.failure := by
  rw [output_perform]
  cases w.due operation with
  | none => rfl
  | some write => exact Memory.failure_write ..

theorem failure_after (w : Workspace Memory) (run : List Operation) :
    (w.after run).output.failure = w.output.failure := by
  induction run generalizing w with
  | nil => rfl
  | cons operation run ih => rw [after_cons, ih, failure_perform]

omit [Output σ] in
theorem componentWrite_eq_some {w : Workspace σ} {name : String} {d : Definition}
    {write : String × String} (h : w.componentWrite name d = some write) :
    ∃ text, w.options.componentModule (d.withName name) = .ok text ∧
      write = (w.config.componentModulePath name, text) := by
  rw [componentWrite] at h
  split at h
  · next text htext =>
    cases h
    exact ⟨text, htext, rfl⟩
  · cases h

omit [Output σ] in
theorem appWrite_eq_some {w : Workspace σ} {write : String × String} (h : w.appWrite = some write) :
    ∃ text, w.render = .ok text ∧ write = (w.config.appModulePath, text) := by
  rw [appWrite] at h
  split at h
  · next text hrender =>
    cases h
    exact ⟨text, hrender, rfl⟩
  · cases h

/-- The write that is due for anything but a registration is that of the app module. -/
theorem due_eq_appWrite {w : Workspace σ} {operation : Operation} {write : String × String}
    (hoperation : ∀ name d, operation ≠ .register name d) (hdue : w.due operation = some write) :
    (w.perform operation).2.appWrite = some write := by
  cases operation with
  | register name d => exact absurd rfl (hoperation name d)
  | load text => cases hdue
  | remove id =>
    simp only [due] at hdue
    split at hdue
    · exact hdue
    · cases hdue
  | reset | add | update | move =>
    simp only [due] at hdue
    split at hdue
    · cases hdue
    · exact hdue

/-- A step that keeps the tree keeps the app module published. -/
theorem Published.perform {w : Workspace Memory} {operation : Operation} (h : w.Published)
    (hworking : w.output.failure = none) (hapart : Apart w.config [operation])
    (htree : (w.perform operation).2.tree = w.tree) : (w.perform operation).2.Published := by
  obtain ⟨text, hrender, hfile⟩ := h
  have hagain : (w.perform operation).2.render = .ok text := by
    rw [render, options, htree, perform_config]
    exact hrender
  cases hdue : w.due operation with
  | none =>
    refine ⟨text, hagain, ?_⟩
    rw [perform_config, output_perform, hdue]
    exact hfile
  | some write =>
    by_cases hregister : ∃ name d, operation = .register name d
    · obtain ⟨name, d, rfl⟩ := hregister
      obtain ⟨text', hmodule, rfl⟩ := componentWrite_eq_some hdue
      rw [options] at hmodule
      have hpath := hapart name d (List.mem_singleton_self _) (by rw [hmodule]; rfl)
      refine ⟨text, hagain, ?_⟩
      rw [perform_config, output_perform, hdue]
      exact (Memory.get?_write hworking ..).trans ((if_neg hpath.symm).trans hfile)
    · have hwrite := due_eq_appWrite (fun name d h => hregister ⟨name, d, h⟩) hdue
      rw [appWrite, hagain, perform_config] at hwrite
      cases hwrite
      exact published_of_due hworking hagain hdue

/-- While the tree is kept the app module stays published. -/
theorem Published.after {w : Workspace Memory} {run : List Operation} (h : w.Published)
    (hworking : w.output.failure = none) (hapart : Apart w.config run)
    (hkeeps : ∀ rest, rest <+: run → (w.after rest).tree = w.tree) : (w.after run).Published := by
  induction run generalizing w with
  | nil => exact h
  | cons operation run ih =>
    have htree : (w.perform operation).2.tree = w.tree :=
      hkeeps [operation] (List.cons_prefix_cons.2 ⟨rfl, List.nil_prefix⟩)
    have hhead : Apart w.config [operation] := fun name d hd =>
      hapart name d (List.mem_singleton.1 hd ▸ List.mem_cons_self)
    refine ih (h.perform hworking hhead htree) ?_ ?_ ?_
    · rw [failure_perform, hworking]
    · rw [perform_config]
      exact fun name d hd => hapart name d (List.mem_cons_of_mem _ hd)
    · intro rest hrest
      rw [htree]
      exact hkeeps (operation :: rest) (List.cons_prefix_cons.2 ⟨rfl, hrest⟩)

/-- What reaches an output is what is due at each step, no more and no less. In a memory that accepts
every write, the file of the app module is that of the current tree wherever the last change of the
tree has succeeded. -/
theorem writes_of_run :
    (∀ (σ : Type) [Output σ] (w : Workspace σ) (run : List Operation) (operation : Operation),
      (w.journaled.after run).unjournaled = w.after run ∧
      (w.journaled.after (run ++ [operation])).output.attempts =
        (w.journaled.after run).output.attempts ++ ((w.after run).due operation).toList) ∧
    ∀ (w : Workspace Memory) (earlier later : List Operation) (change : Operation),
      w.output.failure = none → Apart w.config later → w.LastChange earlier change later →
        (w.after (earlier ++ change :: later)).Published := by
  constructor
  · intro σ _ w run operation
    exact ⟨unjournaled_after w run, attempts_after_append w run operation⟩
  · intro w earlier later change hworking hapart hlast
    obtain ⟨answer, hok⟩ := hlast.succeeds
    obtain ⟨text, hrender, hdue⟩ := exists_due_of_succeeds hlast.isChange hok hlast.changes
    have hworking' : (w.after earlier).output.failure = none := by rw [failure_after, hworking]
    have hpublished := published_of_due hworking' hrender hdue
    rw [after_append, after_cons]
    refine hpublished.after ?_ ?_ ?_
    · rw [failure_perform, hworking']
    · rw [perform_config, after_config]
      exact hapart
    · intro rest hrest
      have hkeeps := hlast.keeps rest hrest
      rw [after_append, after_cons, after_append, after_cons, after_nil] at hkeeps
      exact hkeeps

/-- A badge is registered after a card has been added: the card's module is still in its file. -/
theorem published_after_registration :
    ((new .standard Memory.empty).after
      [.add "card1" (Node.element "card") none, .register "badge" Supplied.text]).Published := by
  refine writes_of_run.2 (new .standard Memory.empty) [] [.register "badge" Supplied.text]
    (.add "card1" (Node.element "card") none) rfl ?_ ⟨rfl, ⟨.placed "card1", ?_⟩, ?_, ?_⟩
  · intro name d hregister _
    cases List.mem_singleton.1 hregister
    decide
  · decide
  · decide
  · intro rest hrest
    rcases List.prefix_cons_iff.1 hrest with rfl | ⟨rest, rfl, hnil⟩
    · rfl
    · rw [List.prefix_nil.1 hnil]
      decide

end Workspace
end ScreenTree
