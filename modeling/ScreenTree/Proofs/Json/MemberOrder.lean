import Mathlib.Data.List.Forall2
import Mathlib.Data.List.Nodup
import Mathlib.Data.List.Pairwise
import Mathlib.Data.Option.Defs
import ScreenTree.Proofs.Json.Record

/-! # The order of members

Two forms are alike if they differ in the order of members only, where no object has two members of
one name. Whatever is read from alike forms is the same: a name decides alone which field a member
stands for, and an object that is kept sorts its members. -/

namespace ScreenTree.Json.Form

/-- The names of members, as far as they can be read. -/
def memberNames (members : List (Option String × Form)) : List String :=
  members.filterMap Prod.fst

mutual

/-- No object has two members of one name. -/
def isDistinct : Form → Bool
  | .array items => areDistinct items
  | .object members => decide (memberNames members).Nodup && haveDistinct members
  | .null | .bool _ | .number _ | .string _ => true

def areDistinct : List Form → Bool
  | [] => true
  | f :: fs => f.isDistinct && areDistinct fs

def haveDistinct : List (Option String × Form) → Bool
  | [] => true
  | (_, f) :: ms => f.isDistinct && haveDistinct ms

end

mutual

/-- The forms differ in the order of members only, and names are distinct where it may differ. -/
inductive Alike : Form → Form → Prop
  | same (f : Form) : Alike f f
  | array {fs gs : List Form} (hitems : AlikeItems fs gs) : Alike (.array fs) (.array gs)
  | object {ms ks ns : List (Option String × Form)} (hnames : (memberNames ms).Nodup)
    (hmembers : AlikeMembers ms ks) (hperm : ks.Perm ns) : Alike (.object ms) (.object ns)

inductive AlikeItems : List Form → List Form → Prop
  | nil : AlikeItems [] []
  | cons {f g : Form} {fs gs : List Form} (hitem : Alike f g) (hitems : AlikeItems fs gs) :
    AlikeItems (f :: fs) (g :: gs)

inductive AlikeMembers : List (Option String × Form) → List (Option String × Form) → Prop
  | nil : AlikeMembers [] []
  | cons {f g : Form} {ms ns : List (Option String × Form)} (name : Option String)
    (hmember : Alike f g) (hmembers : AlikeMembers ms ns) :
    AlikeMembers ((name, f) :: ms) ((name, g) :: ns)

end

theorem AlikeMembers.memberNames_eq {ms ns : List (Option String × Form)} (h : AlikeMembers ms ns) :
    memberNames ms = memberNames ns := by
  induction ms generalizing ns with
  | nil => cases h; rfl
  | cons m ms ih =>
    cases h with
    | cons name hmember hmembers =>
      have hrest : List.filterMap Prod.fst ms = List.filterMap Prod.fst _ := ih hmembers
      rw [memberNames, memberNames, List.filterMap_cons, List.filterMap_cons, hrest]

theorem Alike.eq_null_iff {f g : Form} (h : Alike f g) : f = .null ↔ g = .null := by
  cases h <;> simp

theorem rel_alike_self (o : Option Form) : Option.Rel Alike o o := by
  cases o with
  | none => exact .none
  | some f => exact .some (.same f)

/-- The order of members makes no difference to what is read. -/
def IgnoresOrder {α : Type} (read : Form → Option α) : Prop :=
  ∀ f g, Alike f g → read f = read g

/-! ## Any value -/

theorem insertMember_comm_of_lt {k l : String} (h : k < l) (v w : Json)
    (ms : List (String × Json)) :
    insertMember k v (insertMember l w ms) = insertMember l w (insertMember k v ms) := by
  have hnot : ¬l < k := not_lt_of_gt h
  induction ms with
  | nil => simp [insertMember, h, hnot, h.ne']
  | cons m ms ih =>
    obtain ⟨name, value⟩ := m
    rcases lt_trichotomy l name with hl | rfl | hl
    · have hk := h.trans hl
      simp [insertMember, h, hnot, h.ne', hl, hk]
    · simp [insertMember, h, hnot, h.ne']
    · rcases lt_trichotomy k name with hk | rfl | hk
      · simp [insertMember, hnot, h.ne', hk, hl.ne', not_lt_of_gt hl]
      · simp [insertMember, hnot, h.ne']
      · simp [insertMember, hk.ne', not_lt_of_gt hk, hl.ne', not_lt_of_gt hl, ih]

theorem insertMember_comm {k l : String} (h : k ≠ l) (v w : Json) (ms : List (String × Json)) :
    insertMember k v (insertMember l w ms) = insertMember l w (insertMember k v ms) := by
  rcases lt_or_gt_of_ne h with hlt | hgt
  · exact insertMember_comm_of_lt hlt v w ms
  · exact (insertMember_comm_of_lt hgt w v ms).symm

theorem jsonMembers?_none (room : Nat) (acc : List (String × Json)) (f : Form)
    (m : Option String × Form) (ms : List (Option String × Form)) :
    jsonMembers? room acc (m :: (none, f) :: ms) = none := by
  obtain ⟨name, g⟩ := m
  cases name with
  | none => rfl
  | some k => exact Option.bind_fun_none _

theorem jsonMembers?_perm (room : Nat) {ms ns : List (Option String × Form)} (h : ms.Perm ns)
    (hnames : (memberNames ms).Nodup) (acc : List (String × Json)) :
    jsonMembers? room acc ms = jsonMembers? room acc ns := by
  induction h generalizing acc with
  | nil => rfl
  | cons m hperm ih =>
    obtain ⟨name, f⟩ := m
    cases name with
    | none => rfl
    | some k =>
      have hrest := ih (List.nodup_cons.1 hnames).2
      simp only [jsonMembers?, hrest]
  | swap m n ms =>
    obtain ⟨name, f⟩ := m
    obtain ⟨name', g⟩ := n
    cases name with
    | none => exact jsonMembers?_none ..
    | some k =>
      cases name' with
      | none => exact (jsonMembers?_none ..).symm
      | some l =>
        have hne : k ≠ l := fun heq => (List.nodup_cons.1 hnames).1 (by simp [heq])
        simp only [jsonMembers?]
        rw [Option.bind_comm]
        simp only [insertMember_comm hne]
  | trans hfirst hsecond ihfirst ihsecond =>
    exact (ihfirst hnames acc).trans (ihsecond ((hfirst.filterMap _).nodup hnames) acc)

mutual

theorem json?_alike {f g : Form} (h : Alike f g) (room : Nat) : json? room f = json? room g := by
  cases h with
  | same => rfl
  | array hitems =>
    cases room with
    | zero => rfl
    | succ room => rw [json?, json?, jsonItems?_alike hitems room]
  | object hnames hmembers hperm =>
    cases room with
    | zero => rfl
    | succ room =>
      rw [json?, json?, jsonMembers?_alike hmembers room [],
        jsonMembers?_perm room hperm (hmembers.memberNames_eq ▸ hnames)]

theorem jsonItems?_alike {fs gs : List Form} (h : AlikeItems fs gs) (room : Nat) :
    jsonItems? room fs = jsonItems? room gs := by
  cases h with
  | nil => rfl
  | cons hitem hitems =>
    rw [jsonItems?, jsonItems?, json?_alike hitem room, jsonItems?_alike hitems room]

theorem jsonMembers?_alike {ms ns : List (Option String × Form)} (h : AlikeMembers ms ns)
    (room : Nat) (acc : List (String × Json)) :
    jsonMembers? room acc ms = jsonMembers? room acc ns := by
  cases h with
  | nil => rfl
  | cons name hmember hmembers =>
    cases name with
    | none => rfl
    | some k =>
      rw [jsonMembers?, jsonMembers?, json?_alike hmember room]
      refine congrArg _ (funext fun v => ?_)
      exact jsonMembers?_alike hmembers room _

end

theorem ignoresOrder_json? (room : Nat) : IgnoresOrder (json? room) :=
  fun _ _ h => json?_alike h room

/-! ## Texts and lists -/

section Values

variable {α : Type}

theorem ignoresOrder_string? (room : Nat) : IgnoresOrder (string? room) := by
  intro f g h
  cases h <;> rfl

theorem ignoresOrder_items? {item : Form → Option α} (h : IgnoresOrder item) :
    IgnoresOrder (items? item) := by
  intro f g hfg
  cases hfg with
  | same => rfl
  | object => rfl
  | array hitems =>
    rename_i fs gs
    change fs.mapM item = gs.mapM item
    induction fs generalizing gs with
    | nil => cases hitems; rfl
    | cons f fs ih =>
      cases hitems with
      | cons hitem hitems => rw [List.mapM_cons, List.mapM_cons, h _ _ hitem, ih hitems]

theorem ignoresOrder_list? {item : Reader α} {room : Nat}
    (h : ∀ inner < room, IgnoresOrder (item inner)) : IgnoresOrder (list? item room) := by
  cases room with
  | zero => exact fun _ _ _ => rfl
  | succ room => exact ignoresOrder_items? (h room (Nat.lt_succ_self room))

variable {value : Reader α} {room : Nat} (h : IgnoresOrder (value room))

include h

theorem bind_alike {o p : Option Form} (hop : Option.Rel Alike o p) :
    o.bind (value room) = p.bind (value room) := by
  cases hop with
  | none => rfl
  | some hfg => exact h _ _ hfg

theorem default?_alike (fallback : α) {o p : Option Form} (hop : Option.Rel Alike o p) :
    default? value fallback room o = default? value fallback room p := by
  cases hop with
  | none => rfl
  | some hfg => exact h _ _ hfg

theorem optional?_alike {o p : Option Form} (hop : Option.Rel Alike o p) :
    optional? value room o = optional? value room p := by
  cases hop with
  | none => rfl
  | some hfg =>
    rename_i f g
    by_cases hnull : f = .null
    · rw [hnull, hfg.eq_null_iff.1 hnull]
    · have hnull' : g ≠ .null := mt hfg.eq_null_iff.2 hnull
      rw [optional?_of_ne_null hnull, optional?_of_ne_null hnull', h f g hfg]

end Values

/-! ## Fields -/

theorem lookup_perm {ms ns : List (String × Form)} (h : ms.Perm ns)
    (hnodup : (ms.map Prod.fst).Nodup) (name : String) : ms.lookup name = ns.lookup name := by
  induction h with
  | nil => rfl
  | cons m hperm ih => rw [List.lookup_cons, List.lookup_cons, ih (List.nodup_cons.1 hnodup).2]
  | swap m n ms =>
    obtain ⟨k, f⟩ := m
    obtain ⟨l, g⟩ := n
    have hne : l ≠ k := fun heq => (List.nodup_cons.1 hnodup).1 (by simp [heq])
    rw [List.lookup_cons, List.lookup_cons, List.lookup_cons, List.lookup_cons]
    cases hk : name == k with
    | false => rfl
    | true =>
      have hl : (name == l) = false := by
        rw [eq_of_beq hk]
        exact beq_false_of_ne hne.symm
      rw [hl]
  | trans hfirst hsecond ihfirst ihsecond =>
    exact (ihfirst hnodup).trans (ihsecond ((hfirst.map Prod.fst).nodup hnodup))

/-- The same fields, with forms that are alike. -/
def SameFields (known known' : List (String × Form)) : Prop :=
  List.Forall₂ (fun a b => a.1 = b.1 ∧ Alike a.2 b.2) known known'

theorem SameFields.names_eq {known known' : List (String × Form)} (h : SameFields known known') :
    known.map Prod.fst = known'.map Prod.fst := by
  induction h with
  | nil => rfl
  | cons hab _ ih => rw [List.map_cons, List.map_cons, hab.1, ih]

theorem SameFields.lookup {known known' : List (String × Form)} (h : SameFields known known')
    (name : String) : Option.Rel Alike (known.lookup name) (known'.lookup name) := by
  induction h with
  | nil => exact .none
  | @cons a b _ _ hab _ ih =>
    rw [List.lookup_cons, List.lookup_cons, hab.1]
    split
    · exact .some hab.2
    · exact ih

theorem AlikeItems.length_eq {fs gs : List Form} (h : AlikeItems fs gs) :
    fs.length = gs.length := by
  induction fs generalizing gs with
  | nil => cases h; rfl
  | cons f fs ih =>
    cases h with
    | cons hitem hitems => rw [List.length_cons, List.length_cons, ih hitems]

theorem AlikeItems.lookup_zip {fs gs : List Form} (h : AlikeItems fs gs) (names : List String)
    (name : String) :
    Option.Rel Alike ((names.zip fs).lookup name) ((names.zip gs).lookup name) := by
  induction names generalizing fs gs with
  | nil => exact .none
  | cons k names ih =>
    cases h with
    | nil => exact .none
    | cons hitem hitems =>
      rw [List.zip_cons_cons, List.zip_cons_cons, List.lookup_cons, List.lookup_cons]
      split
      · exact .some hitem
      · exact ih hitems

namespace Shape

variable (shape : Shape)

/-- Whether a record with such a member cannot be read: its name cannot, or is refused. -/
def refuses : Option String × Form → Bool
  | (none, _) => true
  | (some name, _) => shape.closed && (shape.field? name).isNone

/-- The field that a member stands for, with its form. -/
def fieldOf? : Option String × Form → Option (String × Form)
  | (name, form) => (name.bind shape.field?).map fun field => (field, form)

theorem known?_eq (ms : List (Option String × Form)) :
    shape.known? ms =
      if ms.any shape.refuses then none else some (ms.filterMap shape.fieldOf?) := by
  induction ms with
  | nil => rfl
  | cons m ms ih =>
    obtain ⟨name, form⟩ := m
    cases name with
    | none => rfl
    | some name =>
      rw [known?, ih, List.any_cons, List.filterMap_cons, refuses, fieldOf?, Option.bind_some]
      cases shape.field? name with
      | some field =>
        rw [Option.isNone_some, Bool.and_false, Bool.false_or]
        cases ms.any shape.refuses <;> rfl
      | none =>
        rw [Option.isNone_none, Bool.and_true]
        cases shape.closed <;> rfl

theorem any_refuses_perm {ms ns : List (Option String × Form)} (h : ms.Perm ns) :
    ms.any shape.refuses = ns.any shape.refuses := by
  rw [Bool.eq_iff_iff, List.any_eq_true, List.any_eq_true]
  simp only [h.mem_iff]

theorem any_refuses_alike {ms ns : List (Option String × Form)} (h : AlikeMembers ms ns) :
    ms.any shape.refuses = ns.any shape.refuses := by
  induction ms generalizing ns with
  | nil => cases h; rfl
  | cons m ms ih =>
    cases h with
    | cons name hmember hmembers =>
      rw [List.any_cons, List.any_cons, ih hmembers]
      cases name <;> rfl

theorem sameFields_alike {ms ns : List (Option String × Form)} (h : AlikeMembers ms ns) :
    SameFields (ms.filterMap shape.fieldOf?) (ns.filterMap shape.fieldOf?) := by
  induction ms generalizing ns with
  | nil => cases h; exact .nil
  | cons m ms ih =>
    cases h with
    | cons name hmember hmembers =>
      rw [List.filterMap_cons, List.filterMap_cons, fieldOf?, fieldOf?]
      cases name.bind shape.field? with
      | none => exact ih hmembers
      | some field => exact .cons ⟨rfl, hmember⟩ (ih hmembers)

/-- Forms that are alike have the same fields, or neither has. -/
theorem fields?_alike {f g : Form} (h : Alike f g) :
    Option.Rel (fun field field' => ∀ name, Option.Rel Alike (field name) (field' name))
      (shape.fields? f) (shape.fields? g) := by
  cases h with
  | same =>
    cases shape.fields? f with
    | none => exact .none
    | some field => exact .some fun name => rel_alike_self (field name)
  | array hitems =>
    rw [fields?, fields?, hitems.length_eq]
    split
    · exact .some (hitems.lookup_zip shape.names)
    · exact .none
  | @object ms ks ns hnames hmembers hperm =>
    have hsame := shape.sameFields_alike hmembers
    have hentries := hperm.filterMap shape.fieldOf?
    have hnodup := (hentries.map Prod.fst).nodup_iff
    rw [fields?, fields?, known?_eq, known?_eq, shape.any_refuses_alike hmembers,
      shape.any_refuses_perm hperm]
    split
    · exact .none
    · rw [Option.bind_some, Option.bind_some, hsame.names_eq]
      by_cases hdistinct : ((ks.filterMap shape.fieldOf?).map Prod.fst).Nodup
      · rw [if_pos hdistinct, if_pos (hnodup.1 hdistinct)]
        refine .some fun name => ?_
        rw [← lookup_perm hentries hdistinct]
        exact hsame.lookup name
      · rw [if_neg hdistinct, if_neg (mt hnodup.2 hdistinct)]
        exact .none

/-- No two members stand for one field. -/
theorem fields?_of_both {ms : List (Option String × Form)} {k l field : String}
    (hk : some k ∈ ms.map Prod.fst) (hl : some l ∈ ms.map Prod.fst) (hne : k ≠ l)
    (hfield : shape.field? k = some field) (hfield' : shape.field? l = some field) :
    shape.fields? (.object ms) = none := by
  obtain ⟨⟨_, f⟩, hm, rfl⟩ := List.mem_map.1 hk
  obtain ⟨⟨_, g⟩, hm', rfl⟩ := List.mem_map.1 hl
  have hentry : shape.fieldOf? (some k, f) = some (field, f) := by
    rw [fieldOf?, Option.bind_some, hfield, Option.map_some]
  have hentry' : shape.fieldOf? (some l, g) = some (field, g) := by
    rw [fieldOf?, Option.bind_some, hfield', Option.map_some]
  have hmembers : ((some k, f) : Option String × Form) ≠ (some l, g) :=
    fun heq => hne (Option.some.inj (congrArg Prod.fst heq))
  rw [fields?, known?_eq]
  split
  · rfl
  · rw [Option.bind_some, if_neg]
    intro hnodup
    rw [List.Nodup, List.pairwise_map, List.pairwise_filterMap] at hnodup
    have hsymm : Std.Symm fun m n : Option String × Form => ∀ a, shape.fieldOf? m = some a →
        ∀ b, shape.fieldOf? n = some b → a.1 ≠ b.1 :=
      ⟨fun _ _ h a ha b hb => (h b hb a ha).symm⟩
    exact hnodup.forall hm hm' hmembers _ hentry _ hentry' rfl

section Plain

variable {shape} (haliases : shape.aliases = [])

include haliases

theorem field?_eq_some_iff {name field : String} :
    shape.field? name = some field ↔ name = field ∧ name ∈ shape.names := by
  rw [field?, haliases, List.lookup_nil]
  split <;> simp [*]

theorem lookup_fieldOf? (ms : List (Option String × Form)) {name : String}
    (hname : name ∈ shape.names) :
    (ms.filterMap shape.fieldOf?).lookup name = ms.lookup (some name) := by
  induction ms with
  | nil => rfl
  | cons m ms ih =>
    obtain ⟨k, f⟩ := m
    rw [List.filterMap_cons, fieldOf?, List.lookup_cons]
    cases hfield : k.bind shape.field? with
    | some field =>
      obtain ⟨l, rfl, hl⟩ := Option.bind_eq_some_iff.1 hfield
      obtain ⟨rfl, -⟩ := (field?_eq_some_iff haliases).1 hl
      rw [Option.map_some, List.lookup_cons, ih]
      rfl
    | none =>
      have hne : (some name == k) = false := by
        refine beq_false_of_ne ?_
        rintro rfl
        rw [Option.bind_some, (field?_eq_some_iff haliases).2 ⟨rfl, hname⟩] at hfield
        cases hfield
      rw [hne]
      exact ih

theorem nodup_fieldOf? {ms : List (Option String × Form)} (hnames : (memberNames ms).Nodup) :
    ((ms.filterMap shape.fieldOf?).map Prod.fst).Nodup := by
  have heq : (ms.filterMap shape.fieldOf?).map Prod.fst =
      (memberNames ms).filterMap shape.field? := by
    rw [memberNames, List.map_filterMap, List.filterMap_filterMap]
    refine List.filterMap_congr fun m _ => ?_
    rw [fieldOf?, Option.map_map]
    exact Option.map_id'
  rw [heq]
  refine List.Nodup.filterMap (fun k l field hk hl => ?_) hnames
  rw [((field?_eq_some_iff haliases).1 hk).1, ((field?_eq_some_iff haliases).1 hl).1]

/-- Among distinct names, each field is the member of its name. -/
theorem fields?_of_nodup (hopen : shape.closed = false) {ms : List (Option String × Form)}
    (hnames : (memberNames ms).Nodup) :
    shape.fields? (.object ms) =
      if ms.any fun m => m.1.isNone then none
      else some fun name => (ms.filterMap shape.fieldOf?).lookup name := by
  have hrefuses : shape.refuses = fun m => m.1.isNone := by
    funext m
    obtain ⟨name, f⟩ := m
    cases name with
    | none => rfl
    | some name => rw [refuses, hopen]; rfl
  rw [fields?, known?_eq, hrefuses]
  split
  · rfl
  · rw [Option.bind_some, if_pos (nodup_fieldOf? haliases hnames)]

end Plain

theorem ignoresOrder_record {β : Type} {read : (String → Option Form) → Option β}
    (h : ∀ field field', (∀ name, Option.Rel Alike (field name) (field' name)) →
      read field = read field') : IgnoresOrder fun form => (shape.fields? form).bind read := by
  intro f g hfg
  have hfields := shape.fields?_alike hfg
  dsimp only
  generalize shape.fields? f = o, shape.fields? g = p at hfields
  cases hfields with
  | none => rfl
  | some hsame => exact h _ _ hsame

end Shape

end ScreenTree.Json.Form
