import ScreenTree.Definition
import ScreenTree.Proofs.Json.Layout
import ScreenTree.Proofs.Json.MemberOrder
import ScreenTree.Proofs.Reload

/-! # Members in another order

A text is reordered by putting the members of its objects in another order, at any depth. If no
object has two members of one name, then a tree, a node, an update and a definition are read from
the reordered text as from the first one, or from neither. -/

namespace ScreenTree

namespace Json

namespace Layout

mutual

/-- The second text is the first one with the members of its objects in another order, and perhaps
with other blanks. -/
inductive Reordered : Layout → Layout → Prop
  | word (front back front' back' : Blank) (w : Word) :
    Reordered (.word front w back) (.word front' w back')
  | array (front back front' back' : Blank) {ls ks : List Layout} (hitems : ReorderedItems ls ks) :
    Reordered (.array front ls back) (.array front' ks back')
  | object (front back front' back' : Blank) {ms ks ns : List (Key × Layout)}
    (hmembers : ReorderedMembers ms ks) (hperm : ks.Perm ns) :
    Reordered (.object front ms back) (.object front' ns back')

inductive ReorderedItems : List Layout → List Layout → Prop
  | nil : ReorderedItems [] []
  | cons {l k : Layout} {ls ks : List Layout} (hitem : Reordered l k)
    (hitems : ReorderedItems ls ks) : ReorderedItems (l :: ls) (k :: ks)

inductive ReorderedMembers : List (Key × Layout) → List (Key × Layout) → Prop
  | nil : ReorderedMembers [] []
  | cons {key key' : Key} {l k : Layout} {ms ns : List (Key × Layout)}
    (hkey : key.text = key'.text) (hmember : Reordered l k) (hmembers : ReorderedMembers ms ns) :
    ReorderedMembers ((key, l) :: ms) ((key', k) :: ns)

end

theorem memberForms_eq_map (ms : List (Key × Layout)) :
    memberForms ms = ms.map fun m => (m.1.name, m.2.form) := by
  induction ms with
  | nil => rfl
  | cons m ms ih => rw [memberForms, ih, List.map_cons]

theorem name_eq_of_text_eq {key key' : Key} (h : key.text = key'.text) : key.name = key'.name := by
  have hread := key.reads
  rw [h, key'.reads] at hread
  exact (congrArg Prod.fst (Option.some.inj hread)).symm

mutual

theorem alike_of_reordered {l k : Layout} (h : Reordered l k)
    (hdistinct : l.form.isDistinct = true) : l.form.Alike k.form := by
  cases h with
  | word => exact .same _
  | array front back front' back' hitems =>
    exact .array (alikeItems_of_reordered hitems hdistinct)
  | object front back front' back' hmembers hperm =>
    obtain ⟨hnames, hdistinct⟩ := Bool.and_eq_true_iff.1 hdistinct
    refine .object (of_decide_eq_true hnames) (alikeMembers_of_reordered hmembers hdistinct) ?_
    rw [memberForms_eq_map, memberForms_eq_map]
    exact hperm.map _

theorem alikeItems_of_reordered {ls ks : List Layout} (h : ReorderedItems ls ks)
    (hdistinct : Form.areDistinct (itemForms ls) = true) :
    Form.AlikeItems (itemForms ls) (itemForms ks) := by
  cases h with
  | nil => exact .nil
  | cons hitem hitems =>
    obtain ⟨hfirst, hothers⟩ := Bool.and_eq_true_iff.1 hdistinct
    exact .cons (alike_of_reordered hitem hfirst) (alikeItems_of_reordered hitems hothers)

theorem alikeMembers_of_reordered {ms ns : List (Key × Layout)} (h : ReorderedMembers ms ns)
    (hdistinct : Form.haveDistinct (memberForms ms) = true) :
    Form.AlikeMembers (memberForms ms) (memberForms ns) := by
  cases h with
  | nil => exact .nil
  | cons hkey hmember hmembers =>
    obtain ⟨hfirst, hothers⟩ := Bool.and_eq_true_iff.1 hdistinct
    rw [memberForms, memberForms, name_eq_of_text_eq hkey]
    exact .cons _ (alike_of_reordered hmember hfirst) (alikeMembers_of_reordered hmembers hothers)

end

/-- What is read from a text is read from the form of its layout. -/
theorem read?_eq {α : Type} (value : Form.Reader α) (l : Layout) :
    Form.read? value (String.ofList l.text) = value Form.maxDepth l.form := by
  have htext : l.text = (String.ofList l.text).toList := String.toList_ofList.symm
  rw [Form.read?, ofText?_eq_some_iff.2 ⟨l, htext, rfl⟩, Option.bind_some]

end Layout
end Json

open Json.Form

/-! ## Readers -/

theorem Value.ignoresOrder_form? (room : Nat) : IgnoresOrder (Value.form? room) := by
  intro f g h
  rw [form?, form?, json?_alike h room]

theorem Property.ignoresOrder_form? (room : Nat) : IgnoresOrder (Property.form? room) := by
  cases room with
  | zero => exact fun _ _ _ => rfl
  | succ room =>
    refine shape.ignoresOrder_record fun field field' h => ?_
    rw [bind_alike (ignoresOrder_string? room) (h "name"),
      optional?_alike (Value.ignoresOrder_form? room) (h "value"),
      optional?_alike (Value.ignoresOrder_form? room) (h "initialValue"),
      optional?_alike (ignoresOrder_string? room) (h "type")]

theorem ignoresOrder_props (room : Nat) : IgnoresOrder (list? Property.form? room) :=
  ignoresOrder_list? fun inner _ => Property.ignoresOrder_form? inner

theorem ignoresOrder_state (room : Nat) : IgnoresOrder (list? json? room) :=
  ignoresOrder_list? fun inner _ => ignoresOrder_json? inner

theorem Node.ignoresOrder_form? (room : Nat) : IgnoresOrder (Node.form? room) := by
  induction room using Nat.strongRecOn with
  | ind room ih =>
    cases room with
    | zero => exact fun _ _ _ => rfl
    | succ room =>
      have hchildren : IgnoresOrder (list? Node.form? room) :=
        ignoresOrder_list? fun inner hinner => ih inner (by omega)
      intro f g hfg
      rw [form?_succ, form?_succ]
      refine shape.ignoresOrder_record (fun field field' h => ?_) f g hfg
      rw [optional?_alike (ignoresOrder_string? room) (h "nodeId"),
        optional?_alike (ignoresOrder_string? room) (h "type"),
        optional?_alike (ignoresOrder_string? room) (h "nodeType"),
        optional?_alike (Value.ignoresOrder_form? room) (h "value"),
        optional?_alike (ignoresOrder_props room) (h "props"),
        optional?_alike (ignoresOrder_state room) (h "state"),
        optional?_alike hchildren (h "children")]

theorem ignoresOrder_children (room : Nat) : IgnoresOrder (list? Node.form? room) :=
  ignoresOrder_list? fun inner _ => Node.ignoresOrder_form? inner

theorem Update.ignoresOrder_form? (room : Nat) : IgnoresOrder (Update.form? room) := by
  cases room with
  | zero => exact fun _ _ _ => rfl
  | succ room =>
    refine shape.ignoresOrder_record fun field field' h => ?_
    rw [optional?_alike (ignoresOrder_string? room) (h "type"),
      optional?_alike (ignoresOrder_props room) (h "props"),
      optional?_alike (ignoresOrder_state room) (h "state"),
      optional?_alike (ignoresOrder_children room) (h "children"),
      optional?_alike (Value.ignoresOrder_form? room) (h "value")]

theorem Definition.ignoresOrder_form? (room : Nat) : IgnoresOrder (Definition.form? room) := by
  cases room with
  | zero => exact fun _ _ _ => rfl
  | succ room =>
    refine shape.ignoresOrder_record fun field field' h => ?_
    rw [default?_alike (ignoresOrder_string? room) "" (h "nodeType"),
      default?_alike (ignoresOrder_props room) [] (h "props"),
      default?_alike (ignoresOrder_state room) [] (h "state"),
      default?_alike (ignoresOrder_children room) [] (h "children")]

theorem Tree.ignoresOrder_form? (room : Nat) : IgnoresOrder (Tree.form? room) := by
  cases room with
  | zero => exact fun _ _ _ => rfl
  | succ room =>
    refine shape.ignoresOrder_record fun field field' h => ?_
    rw [bind_alike (Node.ignoresOrder_form? room) (h "root")]

/-! ## Tags -/

namespace Node

/-- The tag that members give under a name, which is none if there is no such member or it is null;
nothing if it is not a text. -/
def tagUnder? (name : String) (members : List (Option String × Json.Form)) :
    Option (Option String) :=
  optional? string? 0 (members.lookup (some name))

/-- The members but for those that give a tag. -/
def untagged (members : List (Option String × Json.Form)) : List (Option String × Json.Form) :=
  members.filter fun m => m.1 != some "type" && m.1 != some "nodeType"

theorem optional?_string_eq (room : Nat) (o : Option Json.Form) :
    optional? string? room o = optional? string? 0 o := by
  cases o with
  | none => rfl
  | some f => cases f <;> rfl

theorem lookup_untagged (members : List (Option String × Json.Form)) {name : String}
    (htype : name ≠ "type") (hnodeType : name ≠ "nodeType") :
    (untagged members).lookup (some name) = members.lookup (some name) := by
  induction members with
  | nil => rfl
  | cons m members ih =>
    obtain ⟨k, f⟩ := m
    rw [untagged, List.filter_cons, List.lookup_cons]
    split
    · rw [List.lookup_cons, ← untagged, ih]
    · next hk =>
      rw [← untagged, ih]
      have hne : (some name == k) = false := by
        refine beq_false_of_ne ?_
        rintro rfl
        simp [htype, hnodeType] at hk
      rw [hne]

theorem lookup_untagged_of_tag (members : List (Option String × Json.Form)) {name : String}
    (h : name = "type" ∨ name = "nodeType") : (untagged members).lookup (some name) = none := by
  rw [List.lookup_eq_none_iff]
  intro m hm
  have hkept := (List.mem_filter.1 hm).2
  simp only [Bool.and_eq_true, bne_iff_ne] at hkept
  rw [bne_iff_ne]
  rcases h with rfl | rfl
  · exact hkept.1.symm
  · exact hkept.2.symm

theorem any_untagged (members : List (Option String × Json.Form)) :
    ((untagged members).any fun m => m.1.isNone) = members.any fun m => m.1.isNone := by
  rw [untagged, List.any_filter]
  congr 1
  funext m
  cases m.1 <;> simp

theorem tag?_kindOf (tag : Option String) (value : Option Value) :
    (kindOf tag value).tag? = tag := by
  cases tag with
  | none => rfl
  | some tag =>
    rw [kindOf, Kind.ofTag]
    split
    · next h => rw [h]; rfl
    · split
      · next h => rw [h]; rfl
      · rfl

/-- Among distinct names, a node is read from the members by their names. -/
theorem form?_of_nodup {members : List (Option String × Json.Form)}
    (hnames : (memberNames members).Nodup) (room : Nat) :
    form? (room + 1) (.object members) =
      if members.any fun m => m.1.isNone then none
      else do
        let id ← optional? string? room (members.lookup (some "nodeId"))
        let type ← optional? string? room (members.lookup (some "type"))
        let nodeType ← optional? string? room (members.lookup (some "nodeType"))
        let value ← optional? Value.form? room (members.lookup (some "value"))
        let props ← optional? (list? Property.form?) room (members.lookup (some "props"))
        let state ← optional? (list? json?) room (members.lookup (some "state"))
        let children ← optional? (list? form?) room (members.lookup (some "children"))
        return {
          id
          kind := kindOf (type <|> nodeType) value
          props := props.getD []
          state := state.getD []
          children := children.getD [] } := by
  have hfield (name : String) (h : name ∈ shape.names) :
      (members.filterMap shape.fieldOf?).lookup name = members.lookup (some name) :=
    shape.lookup_fieldOf? rfl members h
  rw [form?_succ, shape.fields?_of_nodup rfl rfl hnames]
  split
  · rfl
  · rw [Option.bind_some]
    dsimp only
    rw [hfield "nodeId" (by decide), hfield "type" (by decide), hfield "nodeType" (by decide),
      hfield "value" (by decide), hfield "props" (by decide), hfield "state" (by decide),
      hfield "children" (by decide)]

/-- Among distinct names, a node is read if all its fields are. -/
theorem isSome_form?_of_nodup {members : List (Option String × Json.Form)}
    (hnames : (memberNames members).Nodup) (room : Nat) :
    (form? (room + 1) (.object members)).isSome ↔
      (members.any fun m => m.1.isNone) = false ∧
        (optional? string? room (members.lookup (some "nodeId"))).isSome ∧
        (optional? string? room (members.lookup (some "type"))).isSome ∧
        (optional? string? room (members.lookup (some "nodeType"))).isSome ∧
        (optional? Value.form? room (members.lookup (some "value"))).isSome ∧
        (optional? (list? Property.form?) room (members.lookup (some "props"))).isSome ∧
        (optional? (list? json?) room (members.lookup (some "state"))).isSome ∧
        (optional? (list? form?) room (members.lookup (some "children"))).isSome := by
  rw [form?_of_nodup hnames]
  cases members.any fun m => m.1.isNone with
  | true => simp
  | false =>
    rw [if_neg Bool.false_ne_true, and_iff_right rfl]
    exact isSome_bind_iff fun id => isSome_bind_iff fun type => isSome_bind_iff fun nodeType =>
      isSome_bind_iff fun value => isSome_bind_iff fun props => isSome_bind_iff fun state =>
        (isSome_bind_iff fun children => iff_true_intro rfl).trans (iff_of_eq (and_true _))

section Tags

variable {members : List (Option String × Json.Form)} (hnames : (memberNames members).Nodup)
  {type nodeType : Option String} (htype : tagUnder? "type" members = some type)
  (hnodeType : tagUnder? "nodeType" members = some nodeType)

include hnames htype hnodeType

/-- The tag of a node is the first one that its members give, or else the second. -/
theorem tag?_of_form? {room : Nat} {n : Node} (h : form? room (.object members) = some n) :
    n.kind.tag? = (type <|> nodeType) := by
  cases room with
  | zero => cases h
  | succ room =>
    rw [tagUnder?, ← optional?_string_eq room] at htype hnodeType
    rw [form?_of_nodup hnames, htype, hnodeType] at h
    split at h
    · cases h
    · obtain ⟨id, -, h⟩ := Option.bind_eq_some_iff.1 h
      rw [Option.bind_eq_bind, Option.bind_some, Option.bind_eq_bind, Option.bind_some] at h
      obtain ⟨value, -, h⟩ := Option.bind_eq_some_iff.1 h
      obtain ⟨props, -, h⟩ := Option.bind_eq_some_iff.1 h
      obtain ⟨state, -, h⟩ := Option.bind_eq_some_iff.1 h
      obtain ⟨children, -, h⟩ := Option.bind_eq_some_iff.1 h
      cases h
      exact tag?_kindOf _ _

/-- A node with readable tags is read exactly if it is without them. -/
theorem isSome_form?_untagged (room : Nat) :
    (form? room (.object members)).isSome ↔
      (form? room (.object (untagged members))).isSome := by
  cases room with
  | zero => exact Iff.rfl
  | succ room =>
    have hnames' : (memberNames (untagged members)).Nodup :=
      hnames.sublist (List.filter_sublist.filterMap Prod.fst)
    have hother (name : String) (h : name ≠ "type" ∧ name ≠ "nodeType") :
        (untagged members).lookup (some name) = members.lookup (some name) :=
      lookup_untagged members h.1 h.2
    rw [tagUnder?, ← optional?_string_eq room] at htype hnodeType
    rw [isSome_form?_of_nodup hnames, isSome_form?_of_nodup hnames', any_untagged, htype, hnodeType,
      lookup_untagged_of_tag members (.inl rfl), lookup_untagged_of_tag members (.inr rfl),
      hother "nodeId" (by decide), hother "value" (by decide), hother "props" (by decide),
      hother "state" (by decide), hother "children" (by decide)]
    exact Iff.rfl

end Tags

end Node

/-- Two spellings of one field do not go together. -/
theorem Update.form?_of_both {members : List (Option String × Json.Form)}
    (htype : some "type" ∈ members.map Prod.fst)
    (hnodeType : some "nodeType" ∈ members.map Prod.fst) (room : Nat) :
    form? room (.object members) = .none := by
  cases room with
  | zero => rfl
  | succ room =>
    rw [form?, shape.fields?_of_both htype hnodeType (by decide) rfl rfl, Option.bind_none]

/-- A text and a reordered one, of which no object has two members of one name, are read alike as a
tree, a node, an update or a definition, where the texts that can be reordered are all those that
follow the grammar. Whatever the order, the tag of a node at any depth is its `type` or, where this
is missing or null, its `nodeType`, and a node with both is read whenever it is without them; an
update with both is not read. -/
theorem reordered_reads_alike :
    (∀ s f, Json.Form.ofText? s = some f ↔
      ∃ l : Json.Layout, l.text = s.toList ∧ l.form = f) ∧
    (∀ l k : Json.Layout, l.Reordered k → l.form.isDistinct = true →
      let s := String.ofList l.text
      let t := String.ofList k.text
      Tree.load s = Tree.load t ∧ Node.read s = Node.read t ∧ Update.read s = Update.read t ∧
        Definition.read s = Definition.read t) ∧
    (∀ members, (memberNames members).Nodup → ∀ type nodeType,
      Node.tagUnder? "type" members = some type →
      Node.tagUnder? "nodeType" members = some nodeType → ∀ room,
        (∀ n, Node.form? room (.object members) = some n → n.kind.tag? = (type <|> nodeType)) ∧
          ((Node.form? room (.object members)).isSome ↔
            (Node.form? room (.object (Node.untagged members))).isSome)) ∧
    ∀ members, some "type" ∈ members.map Prod.fst → some "nodeType" ∈ members.map Prod.fst →
      ∀ room, Update.form? room (.object members) = none := by
  refine ⟨fun _ _ => Json.Layout.ofText?_eq_some_iff, fun l k hreordered hdistinct => ?_,
    fun _ hnames _ _ htype hnodeType room => ?_, fun _ => Update.form?_of_both⟩
  · have halike := Json.Layout.alike_of_reordered hreordered hdistinct
    simp only [Tree.load, Node.read, Update.read, Definition.read, Json.Layout.read?_eq]
    refine ⟨congrArg _ ?_, congrArg _ ?_, congrArg _ ?_, congrArg _ ?_⟩
    · exact Tree.ignoresOrder_form? maxDepth _ _ halike
    · exact Node.ignoresOrder_form? maxDepth _ _ halike
    · exact Update.ignoresOrder_form? maxDepth _ _ halike
    · exact Definition.ignoresOrder_form? maxDepth _ _ halike
  · exact ⟨fun _ => Node.tag?_of_form? hnames htype hnodeType,
      Node.isSome_form?_untagged hnames htype hnodeType room⟩

/-- The members of a paragraph and of the literal in it change places. -/
theorem reordered_reads_alike_in_paragraph :
    let tight : Json.Blank := ⟨[], Json.isBlank_nil⟩
    let space : Json.Blank := ⟨[' '], List.forall_mem_singleton.2 rfl⟩
    let word (w : Json.Word) : Json.Layout := .word tight w tight
    let value : Json.Key × Json.Layout :=
      (⟨tight, "value\"".toList, tight, "value", rfl⟩,
        word ⟨"1".toList, .number ⟨false, [1], none, none⟩, rfl⟩)
    let literal : Json.Key × Json.Layout :=
      (⟨tight, "type\"".toList, tight, "type", rfl⟩,
        word ⟨"\"stringLiteral\"".toList, .string "stringLiteral", rfl⟩)
    let null : Json.Key × Json.Layout :=
      (⟨tight, "type\"".toList, tight, "type", rfl⟩, word ⟨"null".toList, .null, rfl⟩)
    let paragraph : Json.Key × Json.Layout :=
      (⟨tight, "nodeType\"".toList, tight, "nodeType", rfl⟩,
        word ⟨"\"p\"".toList, .string "p", rfl⟩)
    let children (ms : List (Json.Key × Json.Layout)) : Json.Key × Json.Layout :=
      (⟨tight, "children\"".toList, tight, "children", rfl⟩,
        .array tight [.object tight ms tight] tight)
    let first : Json.Layout := .object tight [children [value, literal], null, paragraph] tight
    let second : Json.Layout := .object space [paragraph, null, children [literal, value]] tight
    first.Reordered second ∧ first.form.isDistinct = true ∧
      Node.read (String.ofList first.text) = Node.read (String.ofList second.text) ∧
      (∃ n, Node.read (String.ofList second.text) = .ok n ∧ n.kind.tag? = some "p") ∧
      Update.read (String.ofList second.text) = .error (.unreadable .json) := by
  intro tight space word value literal null paragraph children first second
  have hword (w : Json.Word) : (word w).Reordered (word w) := .word ..
  have hchild : (children [value, literal]).2.Reordered (children [literal, value]).2 :=
    .array _ _ _ _ (.cons (.object _ _ _ _
      (.cons rfl (hword _) (.cons rfl (hword _) .nil)) (.swap ..)) .nil)
  have hreordered : first.Reordered second :=
    .object _ _ _ _ (.cons rfl hchild (.cons rfl (hword _) (.cons rfl (hword _) .nil)))
      (List.reverse_perm [paragraph, null, children [literal, value]])
  have hdistinct : first.form.isDistinct = true := by decide
  obtain ⟨-, halike, htags, hboth⟩ := reordered_reads_alike
  obtain ⟨-, hnode, -, -⟩ := halike first second hreordered hdistinct
  have htagged := htags (Json.Layout.memberForms [paragraph, null, children [literal, value]])
    (by decide) none (some "p") rfl rfl maxDepth
  obtain ⟨htag, hread⟩ := htagged
  obtain ⟨n, hn⟩ := Option.isSome_iff_exists.1 (hread.2 rfl)
  have hfound : Node.read (String.ofList second.text) = .ok n := by
    rw [Node.read, Json.Layout.read?_eq]
    exact congrArg _ hn
  have hrejected : Update.read (String.ofList second.text) = .error (.unreadable .json) := by
    rw [Update.read, Json.Layout.read?_eq]
    exact congrArg _ (hboth _ (by decide) (by decide) maxDepth)
  exact ⟨hreordered, hdistinct, hnode, ⟨n, hfound, htag n hn⟩, hrejected⟩

end ScreenTree
