import ScreenTree.Operation

/-! # Delivery of generated text

Writing a module never changes tree, registry or configuration, and can fail in two ways only: the
text cannot be generated, or the output does not accept it. All other failures say that an operation
was turned down. -/

namespace ScreenTree

namespace Error

/-- An id is not known, or the tree does not allow the operation. -/
def isRefusal : Error → Bool
  | .notFound _ | .refused _ => true
  | _ => false

/-- The module could not be generated or written. -/
def isDelivery : Error → Bool
  | .malformed _ | .file _ => true
  | _ => false

theorem isRefusal_eq_false {e : Error} (h : e.isDelivery = true) : e.isRefusal = false := by
  cases e <;> simp_all [isDelivery, isRefusal]

end Error

namespace Options

/-- The app module of a tree cannot be generated only because a node is malformed. -/
theorem exists_malformed_of_appModule {options : Options} {tree : Tree} {e : Error}
    (h : options.appModule tree = .error e) : ∃ cause, e = .malformed cause := by
  rw [appModule, markup] at h
  cases hr : Markup.render options.mode 0 tree.root with
  | error cause =>
    rw [hr] at h
    cases h
    exact ⟨cause, rfl⟩
  | ok text =>
    rw [hr] at h
    cases h

/-- The module of a definition cannot be generated only because a node is malformed. -/
theorem exists_malformed_of_componentModule {options : Options} {d : Definition} {e : Error}
    (h : options.componentModule d = .error e) : ∃ cause, e = .malformed cause := by
  rw [componentModule] at h
  cases hr : Markup.renderTemplates options.mode d.name 1 d.children with
  | error cause =>
    rw [hr] at h
    cases h
    exact ⟨cause, rfl⟩
  | ok parts =>
    rw [hr] at h
    cases h

end Options

namespace Workspace

variable {σ α : Type} {w : Workspace σ}

@[simp] theorem withTree_tree (w : Workspace σ) (t : Tree) : (w.withTree t).tree = t := rfl

@[simp] theorem withTree_config (w : Workspace σ) (t : Tree) :
    (w.withTree t).config = w.config := rfl

@[simp] theorem withTree_output (w : Workspace σ) (t : Tree) :
    (w.withTree t).output = w.output := rfl

/-- A tree that cannot be rendered is malformed. -/
theorem isDelivery_of_render {e : Error} (h : w.render = .error e) : e.isDelivery = true := by
  obtain ⟨cause, rfl⟩ := Options.exists_malformed_of_appModule h
  rfl

variable [Output σ]

/-- A write has the result that was asked for, or the output's error. -/
theorem write_result (w : Workspace σ) (path text : String) (result : α) :
    (w.write path text result).1 = .ok result ∨
      ∃ cause, (w.write path text result).1 = .error (.file cause) := by
  rw [write]
  split
  · exact .inl rfl
  · next cause _ _ => exact .inr ⟨cause, rfl⟩

/-- A write changes the output only. -/
theorem write_workspace (w : Workspace σ) (path text : String) (result : α) :
    (w.write path text result).2 = { w with output := (Output.write w.output path text).2 } := by
  rw [write]
  split <;> next h => rw [h]

theorem publish_of_render {text : String} (h : w.render = .ok text) (result : α) :
    w.publish result = w.write w.config.appModulePath text result := by
  rw [publish, h]

theorem publish_of_malformed {e : Error} (h : w.render = .error e) (result : α) :
    w.publish result = (.error e, w) := by
  rw [publish, h]

theorem render_of_publish {result answer : α} (h : (w.publish result).1 = .ok answer) :
    ∃ text, w.render = .ok text := by
  cases hrender : w.render with
  | error e =>
    rw [publish_of_malformed hrender] at h
    cases h
  | ok text => exact ⟨text, rfl⟩

/-- A publication has the result that was asked for, or fails in delivery. -/
theorem publish_result (w : Workspace σ) (result : α) :
    (w.publish result).1 = .ok result ∨
      ∃ e, (w.publish result).1 = .error e ∧ e.isDelivery = true := by
  cases h : w.render with
  | error e =>
    rw [publish_of_malformed h]
    exact .inr ⟨e, rfl, isDelivery_of_render h⟩
  | ok text =>
    rw [publish_of_render h]
    rcases w.write_result w.config.appModulePath text result with hok | ⟨cause, herror⟩
    · exact .inl hok
    · exact .inr ⟨.file cause, herror, rfl⟩

/-- A publication changes the output only. -/
theorem publish_workspace (w : Workspace σ) (result : α) :
    ∃ output, (w.publish result).2 = { w with output } := by
  cases h : w.render with
  | error e => exact ⟨w.output, by rw [publish_of_malformed h]⟩
  | ok text => exact ⟨_, by rw [publish_of_render h, write_workspace]⟩

/-- What a publication asks for shows in its result only. -/
theorem publish_congr {β : Type} (w : Workspace σ) (result : α) (result' : β) :
    w.publish result' = ((w.publish result).1.map fun _ => result', (w.publish result).2) := by
  rw [publish, publish]
  cases w.render with
  | error e => rfl
  | ok text =>
    simp only [write]
    split <;> rfl

@[simp] theorem publish_tree (w : Workspace σ) (result : α) : (w.publish result).2.tree = w.tree := by
  obtain ⟨output, h⟩ := w.publish_workspace result
  rw [h]

@[simp] theorem publish_config (w : Workspace σ) (result : α) :
    (w.publish result).2.config = w.config := by
  obtain ⟨output, h⟩ := w.publish_workspace result
  rw [h]

theorem isDelivery_of_publish {result : α} {e : Error} (h : (w.publish result).1 = .error e) :
    e.isDelivery = true := by
  rcases w.publish_result result with hok | ⟨e', he, hdelivery⟩
  · rw [hok] at h
    cases h
  · rw [he] at h
    cases h
    exact hdelivery

theorem not_refuses_publish (w : Workspace σ) (result : α) :
    ¬ ∃ e, (w.publish result).1 = .error e ∧ e.isRefusal = true := by
  rintro ⟨e, he, hrefusal⟩
  rw [Error.isRefusal_eq_false (isDelivery_of_publish he)] at hrefusal
  cases hrefusal

theorem eq_of_publish {result answer : α} (h : (w.publish result).1 = .ok answer) :
    answer = result := by
  rcases w.publish_result result with hok | ⟨e, he, -⟩
  · cases h.symm.trans hok
    rfl
  · cases h.symm.trans he

end Workspace
end ScreenTree
