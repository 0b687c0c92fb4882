import ScreenTree.Proofs.Bytes
import ScreenTree.Proofs.Clones
import ScreenTree.Proofs.Registration

/-! # Registries and their clones

A registry answers by its history: the last registration of a name hides the earlier ones and the
supplied definition. Its history is its own registrations and, as far as it is a clone, those that
its source had before. -/

namespace ScreenTree

namespace Registry

/-- A definition that is registered under a name. -/
abbrev Registration := String × Definition

/-- The last definition that a history has under the name. -/
def latest? (history : List Registration) (name : String) : Option Definition :=
  (history.reverse.find? fun e => e.1 = name).map Prod.snd

/-- The registries after events, where all of them are new at first. -/
def family {ι : Type} [DecidableEq ι] (events : List (Event ι Registration)) : ι → Registry :=
  Event.after (fun r e => r.register e.1 e.2) (fun _ => .empty) events

/-- The registry after the registrations of a history. -/
def ofHistory (history : List Registration) : Registry :=
  history.foldl (fun r e => r.register e.1 e.2) .empty

theorem ofHistory_append (history : List Registration) (e : Registration) :
    ofHistory (history ++ [e]) = (ofHistory history).register e.1 e.2 := by
  rw [ofHistory, List.foldl_append]
  rfl

theorem family_eq {ι : Type} [DecidableEq ι] (events : List (Event ι Registration)) (i : ι) :
    family events i = ofHistory (Event.history i events) :=
  Event.after_eq ..

/-- A registry with a history knows the last registration of a name, or else what is supplied. -/
theorem get?_ofHistory (history : List Registration) (name : String) :
    (ofHistory history).get? name = (latest? history name).or (Supplied.find? name) := by
  induction history using List.reverseRecOn with
  | nil => rfl
  | append_singleton history e ih =>
    rw [ofHistory_append, get?_register, latest?, List.reverse_append, List.reverse_singleton,
      List.singleton_append, List.find?_cons]
    by_cases h : e.1 = name
    · simp [h]
    · rw [if_neg (Ne.symm h), ih, latest?]
      simp [h]

/-! ## The list of names -/

theorem pairwise_insertName {name : String} {names : List String} (h : names.Pairwise (· < ·)) :
    (insertName name names).Pairwise (· < ·) := by
  induction names with
  | nil => exact List.pairwise_singleton _ _
  | cons k ks ih =>
    obtain ⟨hk, hks⟩ := List.pairwise_cons.1 h
    rw [insertName]
    split
    · next hlt =>
      exact List.pairwise_cons.2 ⟨List.forall_mem_cons.2 ⟨hlt, fun l hl => hlt.trans (hk l hl)⟩, h⟩
    · next hnot =>
      split
      · exact h
      · next hne =>
        refine List.pairwise_cons.2 ⟨?_, ih hks⟩
        intro l hl
        rcases mem_insertName.1 hl with rfl | hl
        · exact lt_of_le_of_ne (not_lt.1 hnot) (Ne.symm hne)
        · exact hk l hl

/-- The names are listed in their order, each of them once. -/
theorem pairwise_types (r : Registry) : r.types.Pairwise (· < ·) := by
  have hfold (own : List String) {names : List String} (h : names.Pairwise (· < ·)) :
      (own.foldr insertName names).Pairwise (· < ·) := by
    induction own with
    | nil => exact h
    | cons name own ih => exact pairwise_insertName ih
  exact hfold _ (by decide)

/-! ## Families of registries -/

variable {ι : Type} [DecidableEq ι]

/-- After any registrations and clonings a registry knows under a name the last definition of its
history, or else the supplied one, and lists exactly the names that it knows in the order of their
bytes. What happens to one registry does not show in another one. -/
theorem overlays_history (events : List (Event ι Registration)) (i : ι) :
    (∀ name, (family events i).get? name =
      (latest? (Event.history i events) name).or (Supplied.find? name)) ∧
      (∀ name, (family events i).contains name = true ↔
        ∃ d, (family events i).get? name = some d) ∧
      (family events i).types.Pairwise (fun k l => Text.bytes k < Text.bytes l) ∧
      (∀ name, name ∈ (family events i).types ↔ ∃ d, (family events i).get? name = some d) ∧
      ∀ event : Event ι Registration, event.subject ≠ i →
        family (events ++ [event]) i = family events i := by
  have hcontains (name : String) : (family events i).contains name = true ↔
      ∃ d, (family events i).get? name = some d := Option.isSome_iff_exists
  refine ⟨?_, hcontains, ?_, fun name => mem_types_iff.trans (hcontains name), ?_⟩
  · intro name
    rw [family_eq, get?_ofHistory]
  · exact (pairwise_types _).imp Text.bytes_lt_bytes_iff.2
  · intro event hsubject
    rw [family, Event.after_append]
    exact Event.perform_of_ne _ _ hsubject

/-- The second registry is a clone of the first one from between two registrations of a card, and
then registers a badge: the first one knows its last card and no badge. -/
theorem overlays_history_of_clone :
    let events : List (Event Nat Registration) :=
      [.act 0 ("card", Supplied.text), .clone 0 1, .act 0 ("card", Supplied.input)]
    let badge : Event Nat Registration := .act 1 ("badge", Supplied.button)
    (family (events ++ [badge]) 0).get? "card" = some Supplied.input ∧
      (family (events ++ [badge]) 1).get? "card" = some Supplied.text ∧
      (family (events ++ [badge]) 1).contains "badge" = true ∧ badge.subject ≠ 0 ∧
      family (events ++ [badge]) 0 = family events 0 := by
  intro events badge
  have hsubject : badge.subject ≠ 0 := by decide
  obtain ⟨-, -, -, -, hapart⟩ := overlays_history events 0
  have hsame := hapart badge hsubject
  exact ⟨by rw [hsame]; decide, by decide, by decide, hsubject, hsame⟩

end Registry
end ScreenTree
