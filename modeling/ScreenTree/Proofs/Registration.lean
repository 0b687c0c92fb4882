import Mathlib.Data.List.Induction
import ScreenTree.Proofs.Journal
import ScreenTree.Proofs.Path

/-! # The registry and the files of components

A registration puts a definition into the registry and its module into a file, one after the other.
In a memory that accepts every write both stay together through every run: a later write to the same
file would have to be for a component of the same name, or for the app module. -/

namespace ScreenTree

namespace Registry

theorem get?_register (g : Registry) (name : String) (d : Definition) (other : String) :
    (g.register name d).get? other = if other = name then some d else g.get? other := by
  rw [get?, register, List.lookup_cons]
  by_cases h : other = name
  · rw [if_pos h, h, beq_self_eq_true]
  · rw [if_neg h, beq_false_of_ne h]
    rfl

theorem mem_insertName {name other : String} {names : List String} :
    other ∈ insertName name names ↔ other = name ∨ other ∈ names := by
  induction names with
  | nil => simp [insertName]
  | cons k ks ih =>
    rw [insertName]
    split
    · exact List.mem_cons
    · split
      · next hsame => rw [hsame, List.mem_cons, or_self_left]
      · rw [List.mem_cons, List.mem_cons, ih, or_left_comm]

/-- The names that are listed are those that have a definition. -/
theorem mem_types_iff {g : Registry} {name : String} :
    name ∈ g.types ↔ g.contains name = true := by
  have hlist (own supplied : List String) :
      name ∈ own.foldr insertName supplied ↔ name ∈ own ∨ name ∈ supplied := by
    induction own with
    | nil => simp
    | cons k ks ih => rw [List.foldr_cons, mem_insertName, ih, List.mem_cons, or_assoc]
  have hown (own : List (String × Definition)) :
      name ∈ own.map Prod.fst ↔ (own.lookup name).isSome = true := by
    induction own with
    | nil => simp
    | cons e own ih =>
      rw [List.map_cons, List.mem_cons, List.lookup_cons, ih]
      by_cases h : name = e.1
      · simp [h]
      · simp [h, beq_false_of_ne h]
  have hsupplied (supplied : List Definition) :
      name ∈ supplied.map Definition.name ↔
        (supplied.find? fun d => d.name == name).isSome = true := by
    simp [List.find?_isSome]
  rw [types, hlist, hown, hsupplied, contains, get?, Supplied.find?]
  cases g.registered.lookup name <;> simp

end Registry

namespace Workspace

variable {σ : Type} [Output σ]

theorem perform_registry {w : Workspace σ} {operation : Operation}
    (h : ∀ name d, operation ≠ .register name d) :
    (w.perform operation).2.registry = w.registry := by
  obtain ⟨registry, output, hafter, hsame | ⟨name, d, hregister⟩⟩ := w.perform_workspace operation
  · rw [hafter, hsame]
  · exact absurd hregister (h name d)

/-- A malformed definition changes nothing. -/
theorem unchanged_of_malformed {w : Workspace σ} {name : String} {d : Definition}
    {cause : Malformed} (h : (w.perform (.register name d)).1 = .error (.malformed cause)) :
    (w.perform (.register name d)).2 = w := by
  rcases w.register_cases name d with ⟨cause', -, hperform⟩ | ⟨text, -, hperform⟩
  · rw [hperform]
  · rw [hperform] at h
    rcases write_result { w with registry := w.registry.register name (d.withName name) }
      (w.config.componentModulePath name) text Answer.registered with hok | ⟨cause', herror⟩
    · rw [hok] at h
      cases h
    · rw [herror] at h
      cases h

/-! ## Registrations of a run -/

/-- The registration of the definition under the name comes in the run after `earlier`, and it
succeeds. -/
structure Registers (w : Workspace σ) (run earlier : List Operation) (name : String)
    (d : Definition) : Prop where
  comes : earlier ++ [.register name d] <+: run
  succeeds : ((w.after earlier).perform (.register name d)).1 = .ok .registered

/-- The definition is that of the last registration under the name that succeeds. -/
def LastRegistered (w : Workspace σ) (run : List Operation) (name : String) (d : Definition) :
    Prop :=
  ∃ earlier, w.Registers run earlier name d ∧
    ∀ earlier' d', w.Registers run earlier' name d' → earlier'.length ≤ earlier.length

theorem registers_append_iff {w : Workspace σ} {run : List Operation} {operation : Operation}
    {earlier : List Operation} {name : String} {d : Definition} :
    w.Registers (run ++ [operation]) earlier name d ↔
      w.Registers run earlier name d ∨ earlier = run ∧ operation = .register name d ∧
        ((w.after run).perform operation).1 = .ok .registered := by
  constructor
  · rintro ⟨hcomes, hsucceeds⟩
    rcases List.prefix_concat_iff.1 hcomes with heq | hfront
    · obtain ⟨rfl, hoperation⟩ := List.append_inj' heq rfl
      cases hoperation
      exact .inr ⟨rfl, rfl, hsucceeds⟩
    · exact .inl ⟨hfront, hsucceeds⟩
  · rintro (⟨hcomes, hsucceeds⟩ | ⟨rfl, rfl, hsucceeds⟩)
    · exact ⟨hcomes.trans (List.prefix_append ..), hsucceeds⟩
    · exact ⟨List.prefix_rfl, hsucceeds⟩

section Other

variable {w : Workspace σ} {run : List Operation} {operation : Operation} {name : String}
  (hother : ∀ d, operation = .register name d →
    ((w.after run).perform operation).1 ≠ .ok .registered)

include hother

/-- A step that does not register a definition under the name adds no registration. -/
theorem registers_append_iff_of_other {earlier : List Operation} {d : Definition} :
    w.Registers (run ++ [operation]) earlier name d ↔ w.Registers run earlier name d := by
  refine registers_append_iff.trans (or_iff_left ?_)
  rintro ⟨-, hoperation, hsucceeds⟩
  exact hother d hoperation hsucceeds

theorem LastRegistered.append {d : Definition} (h : w.LastRegistered run name d) :
    w.LastRegistered (run ++ [operation]) name d := by
  obtain ⟨earlier, hregisters, hlast⟩ := h
  refine ⟨earlier, (registers_append_iff_of_other hother).2 hregisters, ?_⟩
  intro earlier' d' hregisters'
  exact hlast earlier' d' ((registers_append_iff_of_other hother).1 hregisters')

end Other

theorem lastRegistered_append {w : Workspace σ} {run : List Operation} {name : String}
    {d : Definition} (h : ((w.after run).perform (.register name d)).1 = .ok .registered) :
    w.LastRegistered (run ++ [.register name d]) name d := by
  refine ⟨run, ⟨List.prefix_rfl, h⟩, ?_⟩
  intro earlier d' hregisters
  have hlength := hregisters.comes.length_le
  rw [List.length_append, List.length_append] at hlength
  exact Nat.le_of_add_le_add_right hlength

/-- The definition is known under the name, and its module is in its file. -/
structure Filed (w : Workspace Memory) (name : String) (d : Definition) : Prop where
  known : w.definition? name = some d
  file : ∃ text, w.options.componentModule d = .ok text ∧
    w.output.get? (w.config.componentModulePath name) = some text

/-- No name under which a component is registered has a slash. -/
def Flat (run : List Operation) : Prop :=
  ∀ name d, .register name d ∈ run → '/' ∉ name.toList

theorem write_succeeds {α : Type} {w : Workspace Memory} (h : w.output.failure = none)
    (path text : String) (result : α) : (w.write path text result).1 = .ok result := by
  have hwrite : (Output.write w.output path text).1 = .ok () := by
    change (w.output.write path text).1 = .ok ()
    rw [Memory.write, h]
  rw [write]
  split
  · rfl
  · next herror =>
    rw [herror] at hwrite
    cases hwrite

theorem filed_of_registered {w : Workspace Memory} {name : String} {d : Definition}
    (hworking : w.output.failure = none)
    (h : (w.perform (.register name d)).1 = .ok .registered) :
    (w.perform (.register name d)).2.Filed name (d.withName name) := by
  rcases w.register_cases name d with ⟨cause, -, hperform⟩ | ⟨text, hmodule, hperform⟩
  · rw [hperform] at h
    cases h
  · rw [hperform, write_workspace]
    refine ⟨?_, text, hmodule, ?_⟩
    · exact (Registry.get?_register ..).trans (if_pos rfl)
    · exact (Memory.get?_write hworking ..).trans (if_pos rfl)

/-- A step other than a registration under the same name leaves a definition filed. -/
theorem Filed.perform {w : Workspace Memory} {name : String} {d : Definition} (h : w.Filed name d)
    {operation : Operation} (hworking : w.output.failure = none) (hname : '/' ∉ name.toList)
    (hflat : Flat [operation])
    (happ : Path.components (w.config.componentModulePath name) ≠
      Path.components w.config.appModulePath)
    (hother : ∀ d', operation = .register name d' →
      (w.perform operation).1 ≠ .ok .registered) :
    (w.perform operation).2.Filed name d := by
  obtain ⟨hknown, text, hmodule, hfile⟩ := h
  by_cases hregister : ∃ other d', operation = .register other d'
  · obtain ⟨other, d', rfl⟩ := hregister
    rcases w.register_cases other d' with ⟨cause, -, hperform⟩ | ⟨text', -, hperform⟩
    · rw [hperform]
      exact ⟨hknown, text, hmodule, hfile⟩
    · have hne : name ≠ other := by
        rintro rfl
        refine hother d' rfl ?_
        rw [hperform]
        refine write_succeeds ?_ ..
        exact hworking
      have hslash := hflat other d' (List.mem_singleton_self _)
      have hpath := mt (w.config.componentModulePath_inj hname hslash).1 hne
      rw [hperform, write_workspace]
      refine ⟨?_, text, hmodule, ?_⟩
      · exact (Registry.get?_register ..).trans ((if_neg hne).trans hknown)
      · exact (Memory.get?_write hworking ..).trans ((if_neg hpath).trans hfile)
  · have hoperation : ∀ other d', operation ≠ .register other d' :=
      fun other d' heq => hregister ⟨other, d', heq⟩
    refine ⟨?_, text, ?_, ?_⟩
    · rw [definition?, perform_registry hoperation]
      exact hknown
    · rw [options, perform_config]
      exact hmodule
    · rw [perform_config, output_perform]
      cases hdue : w.due operation with
      | none => exact hfile
      | some write =>
        obtain ⟨app, -, rfl⟩ := appWrite_eq_some (due_eq_appWrite hoperation hdue)
        rw [perform_config]
        exact (Memory.get?_write hworking ..).trans ((if_neg happ).trans hfile)

theorem Registers.mem {w : Workspace σ} {run earlier : List Operation} {name : String}
    {d : Definition} (h : w.Registers run earlier name d) : .register name d ∈ run :=
  h.comes.subset (List.mem_append_right _ (List.mem_singleton_self _))

theorem Registers.apart {w : Workspace σ} {run earlier : List Operation} {name : String}
    {d : Definition} (h : w.Registers run earlier name d) (hapart : Apart w.config run) :
    Path.components (w.config.componentModulePath name) ≠
      Path.components w.config.appModulePath := by
  refine hapart name d h.mem ?_
  obtain ⟨text, hmodule, -⟩ := written_of_registered h.succeeds
  rw [options, after_config] at hmodule
  rw [hmodule]
  rfl

/-- After a run the definition of the last successful registration under a name is filed. -/
theorem filed_after {w : Workspace Memory} (hworking : w.output.failure = none)
    {run : List Operation} (hflat : Flat run) (hapart : Apart w.config run)
    {earlier : List Operation} {name : String} {d : Definition}
    (h : w.Registers run earlier name d) :
    ∃ d', w.LastRegistered run name d' ∧ (w.after run).Filed name (d'.withName name) := by
  induction run using List.reverseRecOn generalizing earlier d with
  | nil => exact absurd h.mem List.not_mem_nil
  | append_singleton run operation ih =>
    have hworking' : (w.after run).output.failure = none := by rw [failure_after, hworking]
    have hstep : w.after (run ++ [operation]) = ((w.after run).perform operation).2 := by
      rw [after_append, after_cons, after_nil]
    rw [hstep]
    by_cases hother : ∀ d', operation = .register name d' →
        ((w.after run).perform operation).1 ≠ .ok .registered
    · obtain ⟨d', hlast, hfiled⟩ := ih
        (fun name d hd => hflat name d (List.mem_append_left _ hd))
        (fun name d hd => hapart name d (List.mem_append_left _ hd))
        ((registers_append_iff_of_other hother).1 h)
      refine ⟨d', hlast.append hother, hfiled.perform hworking' (hflat name d h.mem) ?_ ?_ hother⟩
      · exact fun name d hd => hflat name d (List.mem_append_right _ hd)
      · rw [after_config]
        exact h.apart hapart
    · -- The last step is itself the registration that counts.
      simp only [not_forall, not_not] at hother
      obtain ⟨d', rfl, hsucceeds⟩ := hother
      exact ⟨d', lastRegistered_append hsucceeds, filed_of_registered hworking' hsucceeds⟩

/-- In a memory that accepts every write, a name under which a component has been registered is
listed and has the definition of the last registration that succeeded, and the module of exactly this
definition is in its file. A registration that is malformed changes nothing at all. -/
theorem registry_and_files_agree {w : Workspace Memory} (hworking : w.output.failure = none)
    {run : List Operation} (hflat : Flat run) (hapart : Apart w.config run) :
    (∀ earlier name d, w.Registers run earlier name d →
      name ∈ (w.after run).types ∧
        ∃ d', w.LastRegistered run name d' ∧ (w.after run).Filed name (d'.withName name)) ∧
      ∀ (σ : Type) [Output σ] (v : Workspace σ) (name : String) (d : Definition)
        (cause : Malformed), (v.perform (.register name d)).1 = .error (.malformed cause) →
          (v.perform (.register name d)).2 = v := by
  constructor
  · intro earlier name d h
    obtain ⟨d', hlast, hfiled⟩ := filed_after hworking hflat hapart h
    refine ⟨?_, d', hlast, hfiled⟩
    have hknown := hfiled.known
    rw [definition?] at hknown
    rw [types, Registry.mem_types_iff, Registry.contains, hknown]
    rfl
  · intro σ _ v name d cause h
    exact unchanged_of_malformed h

/-- A badge is registered, registered again, and turned down with a template that has no type: the
second definition is known, and its module is in the file. -/
theorem registry_and_files_agree_on_badge :
    let w := new { Config.standard with options := .strict } Memory.empty
    let untyped := Supplied.definition "untyped" [] [.ofKind .untyped]
    let run : List Operation := [.register "badge" Supplied.text,
      .register "badge" Supplied.button, .register "badge" untyped]
    w.output.failure = none ∧ Flat run ∧ Apart w.config run ∧
      w.Registers run [] "badge" Supplied.text ∧
      (w.after run).definition? "badge" = some (Supplied.button.withName "badge") ∧
      "badge" ∈ (w.after run).types ∧
        ∃ d, w.LastRegistered run "badge" d ∧ (w.after run).Filed "badge" (d.withName "badge") := by
  intro w untyped run
  have hname {name : String} {d : Definition} (h : .register name d ∈ run) : name = "badge" := by
    simp only [run, List.mem_cons, Operation.register.injEq, List.not_mem_nil, or_false] at h
    rcases h with h | h | h <;> exact h.1
  have hflat : Flat run := by
    intro name d h
    rw [hname h]
    decide
  have hapart : Apart w.config run := by
    intro name d h _
    rw [hname h]
    decide
  have hregisters : w.Registers run [] "badge" Supplied.text :=
    ⟨List.cons_prefix_cons.2 ⟨rfl, List.nil_prefix⟩, by decide +kernel⟩
  have hagree := (registry_and_files_agree rfl hflat hapart).1 [] "badge" Supplied.text hregisters
  exact ⟨rfl, hflat, hapart, hregisters, by decide +kernel, hagree⟩

end Workspace
end ScreenTree
