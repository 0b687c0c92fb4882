import ScreenTree.Proofs.Json.Text
import Mathlib.Data.String.Basic

/-! # Kept values

A value that a reader keeps is nested no deeper than the reader has room for, and its objects are
sorted by name. Such a value is read again from its own form. -/

namespace ScreenTree.Json

/-- Members in the order of their names, none of which occurs twice. -/
def Ordered (members : List (String × Json)) : Prop :=
  members.Pairwise fun a b => a.1 < b.1

/-- The values that are kept where `room` arrays and objects may still be opened. -/
inductive Kept : Nat → Json → Prop
  | null (room : Nat) : Kept room .null
  | bool (room : Nat) (b : Bool) : Kept room (.bool b)
  | number (room : Nat) (n : Number) : Kept room (.number n)
  | string (room : Nat) (s : String) : Kept room (.string s)
  | array {room : Nat} {items : List Json} (hitems : ∀ v ∈ items, Kept room v) :
    Kept (room + 1) (.array items)
  | object {room : Nat} {members : List (String × Json)} (hordered : Ordered members)
    (hmembers : ∀ m ∈ members, Kept room m.2) : Kept (room + 1) (.object members)

/-! ## Whole numbers -/

/-- All numbers of the value are integers of 64 bits. -/
def Integral (v : Json) : Prop :=
  ∀ n ∈ v.numbers, n.isInteger = true

instance (v : Json) : Decidable v.Integral :=
  inferInstanceAs (Decidable (∀ n ∈ v.numbers, n.isInteger = true))

theorem numbers_of_mem_items {v : Json} {vs : List Json} (hv : v ∈ vs) {n : Number}
    (hn : n ∈ v.numbers) : n ∈ itemNumbers vs := by
  induction vs with
  | nil => cases hv
  | cons w vs ih =>
    rw [itemNumbers, List.mem_append]
    rcases List.mem_cons.1 hv with rfl | hv
    · exact .inl hn
    · exact .inr (ih hv)

theorem numbers_of_mem_members {m : String × Json} {ms : List (String × Json)} (hm : m ∈ ms)
    {n : Number} (hn : n ∈ m.2.numbers) : n ∈ memberNumbers ms := by
  induction ms with
  | nil => cases hm
  | cons head ms ih =>
    rw [memberNumbers, List.mem_append]
    rcases List.mem_cons.1 hm with rfl | hm
    · exact .inl hn
    · exact .inr (ih hm)

theorem Integral.item {vs : List Json} (h : (array vs).Integral) {v : Json} (hv : v ∈ vs) :
    v.Integral :=
  fun n hn => h n (numbers_of_mem_items hv hn)

theorem Integral.member {ms : List (String × Json)} (h : (object ms).Integral) {m : String × Json}
    (hm : m ∈ ms) : m.2.Integral :=
  fun n hn => h n (numbers_of_mem_members hm hn)

namespace Form

/-! ## Putting members in order -/

theorem mem_insertMember {name : String} {value : Json} {ms : List (String × Json)}
    {m : String × Json} (h : m ∈ insertMember name value ms) : m = (name, value) ∨ m ∈ ms := by
  induction ms with
  | nil => simpa [insertMember] using h
  | cons head ms ih =>
    obtain ⟨k, v⟩ := head
    rw [insertMember] at h
    split at h
    · exact List.mem_cons.1 h
    · split at h
      · rcases List.mem_cons.1 h with rfl | h
        · exact .inl rfl
        · exact .inr (List.mem_cons_of_mem _ h)
      · rcases List.mem_cons.1 h with rfl | h
        · exact .inr List.mem_cons_self
        · rcases ih h with rfl | h
          · exact .inl rfl
          · exact .inr (List.mem_cons_of_mem _ h)

theorem ordered_insertMember (name : String) (value : Json) {ms : List (String × Json)}
    (h : Ordered ms) : Ordered (insertMember name value ms) := by
  induction ms with
  | nil => exact List.pairwise_singleton _ _
  | cons head ms ih =>
    obtain ⟨k, v⟩ := head
    obtain ⟨hhead, htail⟩ := List.pairwise_cons.1 h
    rw [insertMember]
    split
    · next hlt =>
      refine List.pairwise_cons.2 ⟨?_, h⟩
      intro m hm
      rcases List.mem_cons.1 hm with rfl | hm
      · exact hlt
      · exact lt_trans hlt (hhead m hm)
    · next hnot =>
      split
      · next heq =>
        subst heq
        exact List.pairwise_cons.2 ⟨hhead, htail⟩
      · next hne =>
        refine List.pairwise_cons.2 ⟨?_, ih htail⟩
        intro m hm
        rcases mem_insertMember hm with rfl | hm
        · exact lt_of_le_of_ne (not_lt.1 hnot) (Ne.symm hne)
        · exact hhead m hm

/-- A name behind all others is put at the end. -/
theorem insertMember_last {name : String} {value : Json} {ms : List (String × Json)}
    (h : ∀ m ∈ ms, m.1 < name) : insertMember name value ms = ms ++ [(name, value)] := by
  induction ms with
  | nil => rfl
  | cons head ms ih =>
    obtain ⟨k, v⟩ := head
    have hlt : k < name := h (k, v) List.mem_cons_self
    rw [insertMember, if_neg (not_lt_of_gt hlt), if_neg (ne_of_gt hlt),
      ih fun m hm => h m (List.mem_cons_of_mem _ hm), List.cons_append]

/-! ## What is read is kept -/

mutual

theorem kept_of_json? (room : Nat) :
    (f : Form) → {v : Json} → json? room f = some v → v.Kept room := by
  intro f v h
  match f with
  | .null => cases h; exact .null room
  | .bool b => cases h; exact .bool room b
  | .number n =>
    obtain ⟨n, -, rfl⟩ := Option.map_eq_some_iff.1 h
    exact .number room n
  | .string s =>
    obtain ⟨s, -, rfl⟩ := Option.map_eq_some_iff.1 h
    exact .string room s
  | .array items =>
    cases room with
    | zero => cases h
    | succ room =>
      obtain ⟨vs, hvs, rfl⟩ := Option.map_eq_some_iff.1 h
      exact .array (kept_of_jsonItems? room items hvs)
  | .object members =>
    cases room with
    | zero => cases h
    | succ room =>
      obtain ⟨ms, hms, rfl⟩ := Option.map_eq_some_iff.1 h
      obtain ⟨hordered, hkept⟩ :=
        kept_of_jsonMembers? room members List.Pairwise.nil (by simp) hms
      exact .object hordered hkept

theorem kept_of_jsonItems? (room : Nat) :
    (fs : List Form) → {vs : List Json} → jsonItems? room fs = some vs → ∀ v ∈ vs, v.Kept room := by
  intro fs vs h
  match fs with
  | [] => cases h; simp
  | f :: fs =>
    obtain ⟨v, hv, h⟩ := Option.bind_eq_some_iff.1 h
    obtain ⟨vs, hvs, rfl⟩ := Option.map_eq_some_iff.1 h
    exact List.forall_mem_cons.2 ⟨kept_of_json? room f hv, kept_of_jsonItems? room fs hvs⟩

theorem kept_of_jsonMembers? (room : Nat) :
    (fs : List (Option String × Form)) → {acc ms : List (String × Json)} → Ordered acc →
      (∀ m ∈ acc, m.2.Kept room) → jsonMembers? room acc fs = some ms →
        Ordered ms ∧ ∀ m ∈ ms, m.2.Kept room := by
  intro fs acc ms hordered hkept h
  match fs with
  | [] => cases h; exact ⟨hordered, hkept⟩
  | (none, _) :: _ => cases h
  | (some k, f) :: fs =>
    obtain ⟨v, hv, h⟩ := Option.bind_eq_some_iff.1 h
    refine kept_of_jsonMembers? room fs (ordered_insertMember k v hordered) ?_ h
    intro m hm
    rcases mem_insertMember hm with rfl | hm
    · exact kept_of_json? room f hv
    · exact hkept m hm

end

/-! ## What is kept is read again -/

theorem jsonItems?_itemForms {room : Nat} {vs : List Json}
    (h : ∀ v ∈ vs, json? room v.form = some v) : jsonItems? room (itemForms vs) = some vs := by
  induction vs with
  | nil => rfl
  | cons v vs ih =>
    obtain ⟨hv, hvs⟩ := List.forall_mem_cons.1 h
    rw [itemForms, jsonItems?, hv, Option.bind_some, ih hvs, Option.map_some]

theorem jsonMembers?_memberForms {room : Nat} {acc ms : List (String × Json)}
    (hordered : Ordered (acc ++ ms)) (h : ∀ m ∈ ms, json? room m.2.form = some m.2) :
    jsonMembers? room acc (memberForms ms) = some (acc ++ ms) := by
  induction ms generalizing acc with
  | nil => rw [memberForms, jsonMembers?, List.append_nil]
  | cons m ms ih =>
    obtain ⟨k, v⟩ := m
    obtain ⟨hv, hms⟩ := List.forall_mem_cons.1 h
    have hlast : insertMember k v acc = acc ++ [(k, v)] :=
      insertMember_last fun m hm => (List.pairwise_append.1 hordered).2.2 m hm _ List.mem_cons_self
    rw [← List.singleton_append, ← List.append_assoc] at hordered ⊢
    rw [List.singleton_append, memberForms, jsonMembers?, hv, Option.bind_some, hlast,
      ih hordered hms]

/-- A kept value is read from its form, if its numbers are integers. -/
theorem json?_form {room : Nat} {v : Json} (h : v.Kept room) (hnumbers : v.Integral) :
    json? room v.form = some v := by
  induction h with
  | null => rfl
  | bool => rfl
  | string => rfl
  | number room n =>
    have hvalue := Number.value?_written (hnumbers n (by simp [numbers]))
    rw [form, json?, hvalue, Option.map_some]
  | array hitems ih =>
    have hread := jsonItems?_itemForms fun v hv => ih v hv (hnumbers.item hv)
    rw [form, json?, hread, Option.map_some]
  | object hordered hmembers ih =>
    have hread := @jsonMembers?_memberForms _ [] _ hordered fun m hm =>
      ih m hm (hnumbers.member hm)
    rw [form, json?, hread, Option.map_some, List.nil_append]

end Form
end ScreenTree.Json
