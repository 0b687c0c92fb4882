import ScreenTree.Proofs.Markup.Style

/-! # Imports of a tree

The imports of a tree are the component tags outside of literals, each once and in the order of its
first use. The markup leaves out more of the tree than the imports do, so each component that it
shows has an import, which binds the name shown. -/

namespace ScreenTree

namespace Import

open Node

theorem componentTag?_eq_some_iff {n : Node} {tag : String} :
    componentTag? n = some tag ↔ n.kind = .element tag ∧ Tag.isComponent tag = true := by
  rw [componentTag?]
  cases n.kind with
  | element t =>
    by_cases h : Tag.isComponent t = true
    · simp only [h, if_true, Option.some.injEq, Kind.element.injEq]
      exact ⟨fun ht => ⟨ht, ht ▸ h⟩, fun ht => ht.1⟩
    · simp only [h, Bool.false_eq_true, if_false, Kind.element.injEq]
      exact ⟨nofun, fun ht => absurd (ht.1 ▸ ht.2) h⟩
  | group | literal _ | untyped => simp

theorem mem_firstSeen {tag : String} {tags : List String} : tag ∈ firstSeen tags ↔ tag ∈ tags := by
  induction tags with
  | nil => rw [firstSeen]
  | cons t ts ih =>
    rw [firstSeen, List.mem_cons, List.mem_cons, List.mem_filter, ih]
    by_cases h : tag = t <;> simp [h]

/-- The tags that nodes bear are first seen in the order of the first nodes that bear them. -/
theorem pairwise_firstSeen (tag? : Node → Option String) (ns : List Node) :
    (firstSeen (ns.filterMap tag?)).Pairwise fun s t =>
      ns.findIdx (fun n => tag? n = some s) < ns.findIdx fun n => tag? n = some t := by
  induction ns with
  | nil => exact .nil
  | cons n ns ih =>
    cases htag : tag? n with
    | none =>
      rw [List.filterMap_cons_none htag]
      refine ih.imp ?_
      intro s t hst
      simpa [List.findIdx_cons, htag] using hst
    | some first =>
      rw [List.filterMap_cons_some htag, firstSeen, List.pairwise_cons]
      have hfirst : ∀ t, t ≠ first →
          (n :: ns).findIdx (fun n => tag? n = some t) =
            ns.findIdx (fun n => tag? n = some t) + 1 := by
        intro t ht
        simp [List.findIdx_cons, htag, Ne.symm ht]
      constructor
      · intro t ht
        have hne : t ≠ first := by simpa using (List.mem_filter.1 ht).2
        rw [hfirst t hne]
        simp [List.findIdx_cons, htag]
      · refine (ih.filter _).imp_of_mem ?_
        intro s t hs ht hst
        have hs : s ≠ first := by simpa using (List.mem_filter.1 hs).2
        have ht : t ≠ first := by simpa using (List.mem_filter.1 ht).2
        rw [hfirst s hs, hfirst t ht]
        omega

/-- The place of the first element with the tag among the nodes outside of literals. -/
def firstUse (tree : Tree) (tag : String) : Nat :=
  tree.root.entered.findIdx fun n => n.kind = .element tag

theorem tags_ofTree (tree : Tree) :
    (ofTree tree).map Import.tag = firstSeen (tree.root.entered.filterMap componentTag?) := by
  rw [ofTree, List.map_map]
  exact List.map_id _

theorem mem_tags_iff {tree : Tree} {tag : String} :
    tag ∈ (ofTree tree).map Import.tag ↔
      Tag.isComponent tag = true ∧ ∃ n, OutsideLiterals tree.root n ∧ n.kind = .element tag := by
  rw [tags_ofTree, mem_firstSeen, List.mem_filterMap]
  simp only [mem_entered_iff, componentTag?_eq_some_iff]
  constructor
  · rintro ⟨n, hn, hkind, hcomponent⟩
    exact ⟨hcomponent, n, hn, hkind⟩
  · rintro ⟨hcomponent, n, hn, hkind⟩
    exact ⟨n, hn, hkind, hcomponent⟩

theorem pairwise_firstUse (tree : Tree) :
    ((ofTree tree).map Import.tag).Pairwise fun s t => firstUse tree s < firstUse tree t := by
  have horder := pairwise_firstSeen componentTag? tree.root.entered
  rw [tags_ofTree]
  refine horder.imp_of_mem ?_
  intro s t hs ht hst
  have huse : ∀ tag, tag ∈ (ofTree tree).map Import.tag → firstUse tree tag =
      tree.root.entered.findIdx fun n => componentTag? n = some tag := by
    intro tag htag
    simp only [firstUse, componentTag?_eq_some_iff, (mem_tags_iff.1 htag).1, and_true]
  rw [← tags_ofTree] at hs ht
  rwa [huse s hs, huse t ht]

theorem origin_of_mem {tree : Tree} {i : Import} (h : i ∈ ofTree tree) :
    i.origin = .registry ↔ Tag.isSupplied i.tag = true := by
  obtain ⟨tag, -, rfl⟩ := List.mem_map.1 h
  simp only [Origin.ofTag]
  cases Tag.isSupplied tag <;> simp

theorem within_concat {part : String} {parts : List String} (h : part ∈ parts) :
    part.toList <:+: (Text.concat parts).toList := by
  induction parts with
  | nil => cases h
  | cons first rest ih =>
    rw [Text.concat, String.toList_append]
    rcases List.mem_cons.1 h with rfl | h
    · exact (List.prefix_append _ _).isInfix
    · exact (ih h).trans (List.suffix_append _ _).isInfix

/-- The line binds this name, which it takes from the file of the tag: under the root of the registry
if the import comes from there, and under the root of user components otherwise. -/
def Binds (options : Options) (i : Import) (line name : String) : Prop :=
  line = "import \x7b " ++ name ++ " \x7d from \"" ++
    (if i.origin = .registry then options.registryRoot else options.userRoot) ++ "/" ++ i.tag ++
    ".jsx\";\n"

theorem binds_line (options : Options) (i : Import) :
    Binds options i (line options i) i.binding := by
  obtain ⟨tag, origin⟩ := i
  cases origin <;> rfl

open Markup

/-- The text is one element with this name, which a blank sets off from attributes. -/
def Names (depth : Nat) (text name : String) : Prop :=
  ∃ attrs : String, (∀ c ∈ attrs.toList.head?, c = ' ') ∧
    (text = single depth name attrs ∨ ∃ inside, text = paired depth name attrs inside)

theorem Names.isBlank {depth : Nat} {text name : String} (h : Names depth text name) :
    Text.isBlank text = false := by
  obtain ⟨attrs, -, rfl | ⟨inside, rfl⟩⟩ := h
  · exact Style.isBlank_single depth name attrs
  · exact Style.isBlank_paired depth name attrs inside

theorem names_identifier {mode : Mode} {depth : Nat} {n : Node} {tag text : String}
    (hkind : n.kind = .element tag) (hcomponent : Tag.isComponent tag = true)
    (h : Style.screen.draw mode depth n = .ok text) : Names depth text (Tag.identifier tag) := by
  obtain ⟨id, kind, own, state, children⟩ := n
  cases hkind
  have hname : Style.screen.name tag = Tag.identifier tag := if_pos hcomponent
  refine ⟨Style.screen.attributes tag own children, Style.head?_attributes tag own children, ?_⟩
  obtain ⟨-, ⟨-, htext⟩ | ⟨-, parts, -, htext⟩⟩ := Style.drawn_element rfl h
  · exact .inl (hname ▸ htext)
  · exact .inr ⟨body parts, hname ▸ htext⟩

/-- The imports of a tree are the component tags outside of literals, each once, in the order of
first use, from the registry if they are supplied. In the markup of the root, in either mode, each
component that is reached is written under the name that the import line of its tag binds. -/
theorem imports_exact (options : Options) (tree : Tree) :
    ((ofTree tree).map Import.tag).Nodup ∧
      (∀ tag, tag ∈ (ofTree tree).map Import.tag ↔
        Tag.isComponent tag = true ∧ ∃ n, OutsideLiterals tree.root n ∧ n.kind = .element tag) ∧
      ((ofTree tree).map Import.tag).Pairwise (fun s t => firstUse tree s < firstUse tree t) ∧
      (∀ i ∈ ofTree tree, i.origin = .registry ↔ Tag.isSupplied i.tag = true) ∧
      ∀ text, options.markup tree.root 0 = .ok text →
        ∀ depth n tag, (depth, n) ∈ Style.screen.reached 0 tree.root → n.kind = .element tag →
          Tag.isComponent tag = true →
            ∃ i ∈ ofTree tree, i.tag = tag ∧
              (line options i).toList <:+: (lines options tree).toList ∧
              Binds options i (line options i) i.binding ∧
              ∃ part, options.markup n depth = .ok part ∧ part.toList <:+: text.toList ∧
                Names depth part i.binding := by
  have horder := pairwise_firstUse tree
  refine ⟨horder.imp fun h => ?_, fun tag => mem_tags_iff, horder, fun i => origin_of_mem, ?_⟩
  · rintro rfl
    exact Nat.lt_irrefl _ h
  · intro text htext depth n tag hreached hkind hcomponent
    have hentered : n ∈ tree.root.entered :=
      (Style.reached_sublist_entered Style.screen 0 tree.root).subset
        (List.mem_map_of_mem hreached)
    obtain ⟨i, hi, hitag⟩ := List.mem_map.1
      (mem_tags_iff.2 ⟨hcomponent, n, mem_entered_iff.1 hentered, hkind⟩)
    obtain ⟨part, hpart, hwithin⟩ :=
      Style.exists_within_of_reached (Style.markup_eq_ok_iff.1 htext) hreached
    have hnames := names_identifier hkind hcomponent hpart
    have hbinding : i.binding = Tag.identifier tag := by rw [binding, hitag]
    rw [← hbinding] at hnames
    exact ⟨i, hi, hitag, within_concat (List.mem_map_of_mem hi), binds_line options i, part,
      Style.markup_eq_ok_iff.2 hpart, hwithin hnames.isBlank, hnames⟩

/-- A button in a container is written, and the card in the button is imported without being
written. -/
theorem imports_exact_in_container :
    let save := (Node.element "button").withChildren [Node.element "card"]
    let tree : Tree := ⟨Node.root.withChildren [(Node.element "container").withChildren [save]]⟩
    (ofTree tree).map Import.tag = ["container", "button", "card"] ∧
      Options.standard.markup tree.root 0 = .ok "<Container>\n  <Button />\n</Container>" ∧
      (1, save) ∈ Style.screen.reached 0 tree.root ∧ Tag.isComponent "button" = true ∧
      ∃ i ∈ ofTree tree, i.tag = "button" ∧ Binds .standard i (line .standard i) i.binding := by
  intro save tree
  have hmarkup : Options.standard.markup tree.root 0 =
      .ok "<Container>\n  <Button />\n</Container>" := by
    decide +kernel
  have hreached : (1, save) ∈ Style.screen.reached 0 tree.root := by decide +kernel
  have hcomponent : Tag.isComponent "button" = true := by decide +kernel
  obtain ⟨i, hi, htag, -, hbinds, -⟩ := (imports_exact .standard tree).2.2.2.2 _ hmarkup
    1 save "button" hreached rfl hcomponent
  exact ⟨by decide +kernel, hmarkup, hreached, hcomponent, i, hi, htag, hbinds⟩

end Import
end ScreenTree
