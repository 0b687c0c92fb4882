import Mathlib.Data.Prod.Lex
import Mathlib.Logic.Relation
import ScreenTree.Proofs.Bytes
import ScreenTree.Proofs.Path

/-! # Components of a path

Two paths have the same components exactly if one spelling becomes the other by adding and leaving
out slashes and dots that do not count. Paths are in the order of their components, where the root
comes before a dot, a dot before two dots, and these before names, which are sorted by bytes. -/

namespace ScreenTree.Path

/-- The second spelling leaves out a slash or a dot that does not count in the first one. -/
inductive Trims : List Char → List Char → Prop
  | slash (front back : List Char) : Trims (front ++ '/' :: '/' :: back) (front ++ '/' :: back)
  | dot (front back : List Char) :
    Trims (front ++ '/' :: '.' :: '/' :: back) (front ++ '/' :: back)
  | lastDot (front : List Char) : Trims (front ++ ['/', '.']) (front ++ ['/'])
  | lastSlash {front : List Char} (h : front ≠ []) : Trims (front ++ ['/']) front

/-- The spellings differ only in slashes and dots that do not count. -/
def Respelled (p q : String) : Prop :=
  Relation.EqvGen Trims p.toList q.toList

/-! ## Parts that count -/

/-- Whether a part behind the front is a component. -/
def counts (part : List Char) : Bool :=
  !part.isEmpty && part != ['.']

/-- The components of the parts behind the front. -/
def inner (parts : List (List Char)) : List Component :=
  (parts.filter counts).map fun part => Component.ofPart (String.ofList part)

/-- The component of a part at the front. -/
def front (part : List Char) : Component :=
  if part = [] then .root
  else if part = ['.'] then .here
  else Component.ofPart (String.ofList part)

/-- The components by the first part and the others. -/
def assemble (first : List Char) (others : List (List Char)) : List Component :=
  if first = [] ∧ others = [] then [] else front first :: inner others

theorem inner_append (parts more : List (List Char)) :
    inner (parts ++ more) = inner parts ++ inner more := by
  rw [inner, List.filter_append, List.map_append, inner, inner]

theorem ofList_bne_dot (part : List Char) :
    (String.ofList part != ".") = (part != ['.']) := by
  rw [Bool.eq_iff_iff, bne_iff_ne, bne_iff_ne, not_iff_not]
  exact @String.ofList_inj part ['.']

theorem filter_parts (parts : List (List Char)) :
    ((((parts.filter fun part => !part.isEmpty).map String.ofList).filter fun p => p != ".").map
      Component.ofPart) = inner parts := by
  rw [List.filter_map, List.map_map, List.filter_filter, inner]
  congr 1
  refine List.filter_congr fun part _ => ?_
  rw [Function.comp_apply, ofList_bne_dot, counts, Bool.and_comm]

theorem eq_of_split {cs first : List Char} {others : List (List Char)}
    (h : split cs = first :: others) :
    cs = first ++ others.flatMap fun part => '/' :: part := by
  induction cs generalizing first others with
  | nil => cases h; rfl
  | cons c cs ih =>
    obtain ⟨part, parts, hsplit⟩ := List.exists_cons_of_ne_nil (split_ne_nil cs)
    rw [split] at h
    split at h
    · next hslash =>
      rw [hsplit] at h
      cases h
      rw [hslash, List.flatMap_cons, List.nil_append, List.cons_append, ← ih hsplit]
    · rw [hsplit] at h
      cases h
      rw [List.cons_append, ← ih hsplit]

theorem components_eq {cs first : List Char} {others : List (List Char)}
    (h : split cs = first :: others) :
    components (String.ofList cs) = assemble first others := by
  have htext := eq_of_split h
  have hparts : parts (String.ofList cs) =
      ((first :: others).filter fun part => !part.isEmpty).map String.ofList := by
    rw [parts, String.toList_ofList, h]
  have hrest := filter_parts others
  cases first with
  | nil =>
    cases others with
    | nil => rw [htext]; rfl
    | cons part parts =>
      have habsolute : isAbsolute (String.ofList cs) = true := by
        rw [isAbsolute, String.toList_ofList, htext]
        rfl
      have hothers : ¬(([] : List Char) = [] ∧ part :: parts = []) := by simp
      rw [components, habsolute, hparts, assemble, if_pos rfl, if_neg hothers, front, if_pos rfl]
      exact congrArg (.root :: ·) hrest
  | cons c chars =>
    have hslash : c ≠ '/' := by
      rintro rfl
      rw [htext, List.cons_append, split, if_pos rfl] at h
      cases h
    have hrelative : isAbsolute (String.ofList cs) = false := by
      rw [isAbsolute, String.toList_ofList, htext]
      simpa using hslash
    have hfirst : ¬(c :: chars = [] ∧ others = []) := by simp
    rw [components, hrelative, hparts, if_neg Bool.false_ne_true, assemble, if_neg hfirst, front,
      if_neg (List.cons_ne_nil _ _), List.filter_cons_of_pos rfl, List.map_cons]
    have hname := ofList_bne_dot (c :: chars)
    by_cases hdot : c :: chars = ['.']
    · rw [if_pos hdot, hdot]
      exact congrArg (.here :: ·) hrest
    · rw [bne_iff_ne.2 hdot] at hname
      rw [if_neg hdot]
      split
      · next heq =>
        rw [(List.cons.inj heq).1] at hname
        cases hname
      · rw [← hrest]
        simp only [List.filter_cons, hname, if_true, List.map_cons]

/-! ## Spellings -/

theorem assemble_congr {first : List Char} {others more : List (List Char)}
    (hinner : inner others = inner more) (h : first = [] → (others = [] ↔ more = [])) :
    assemble first others = assemble first more := by
  have hempty : (first = [] ∧ others = []) ↔ (first = [] ∧ more = []) := and_congr_right h
  rw [assemble, assemble, hinner, if_congr hempty rfl rfl]

theorem components_append_slash {cs ds es : List Char}
    (hinner : inner (split ds) = inner (split es)) :
    components (String.ofList (cs ++ '/' :: ds)) =
      components (String.ofList (cs ++ '/' :: es)) := by
  obtain ⟨first, others, hcs⟩ := List.exists_cons_of_ne_nil (split_ne_nil cs)
  have hsplit (more : List Char) : split (cs ++ '/' :: more) = first :: (others ++ split more) := by
    rw [split_append_slash, hcs, List.cons_append]
  rw [components_eq (hsplit ds), components_eq (hsplit es)]
  refine assemble_congr ?_ fun _ => ?_
  · rw [inner_append, inner_append, hinner]
  · simp [split_ne_nil]

/-- A slash or a dot that does not count makes no component. -/
theorem components_of_trims {cs ds : List Char} (h : Trims cs ds) :
    components (String.ofList cs) = components (String.ofList ds) := by
  cases h with
  | slash start rest =>
    refine components_append_slash ?_
    rw [split, if_pos rfl]
    rfl
  | dot start rest =>
    refine components_append_slash ?_
    rw [← List.singleton_append, split_append_slash]
    rfl
  | lastDot start => exact components_append_slash rfl
  | lastSlash hne =>
    obtain ⟨first, others, hds⟩ := List.exists_cons_of_ne_nil (split_ne_nil ds)
    have hsplit : split (ds ++ ['/']) = first :: (others ++ [[]]) := by
      rw [split_append_slash, hds]
      rfl
    rw [components_eq hsplit, components_eq hds]
    refine assemble_congr ?_ ?_
    · rw [inner_append]
      exact List.append_nil _
    · rintro rfl
      have hothers : others ≠ [] := by
        rintro rfl
        exact hne (eq_of_split hds)
      simp [hothers]

/-- The text of a component between slashes. -/
def Component.text : Component → List Char
  | .root => []
  | .here => ['.']
  | .up => ['.', '.']
  | .name s => s.toList

theorem Component.text_ofPart (part : List Char) :
    (Component.ofPart (String.ofList part)).text = part := by
  rw [ofPart]
  split
  · next h => exact (congrArg String.toList h).symm.trans String.toList_ofList
  · exact String.toList_ofList

/-- The shortest path with these components. -/
def spell : List Component → List Char
  | [] => []
  | [.root] => ['/']
  | c :: cs => c.text ++ cs.flatMap fun d => '/' :: d.text

theorem flatMap_inner (parts : List (List Char)) :
    (inner parts).flatMap (fun c => '/' :: c.text) =
      (parts.filter counts).flatMap fun part => '/' :: part := by
  rw [inner, List.flatMap_map]
  simp only [Component.text_ofPart]

/-- Behind a text, the parts that do not count can be left out. -/
theorem trims_parts {start : List Char} (hstart : start ≠ []) (parts : List (List Char)) :
    Relation.EqvGen Trims (start ++ parts.flatMap fun part => '/' :: part)
      (start ++ (parts.filter counts).flatMap fun part => '/' :: part) := by
  induction parts generalizing start with
  | nil => exact .refl _
  | cons part parts ih =>
    by_cases hcounts : counts part = true
    · have hmore : start ++ '/' :: part ≠ [] := by simp
      have hnext := ih hmore
      rw [List.filter_cons_of_pos hcounts, List.flatMap_cons, List.flatMap_cons]
      simpa only [List.append_assoc] using hnext
    · rw [List.filter_cons_of_neg hcounts, List.flatMap_cons]
      have hpart : part = [] ∨ part = ['.'] := by
        simpa [counts, or_iff_not_imp_left] using hcounts
      refine .trans _ _ _ ?_ (ih hstart)
      cases parts with
      | nil =>
        have hslash : Relation.EqvGen Trims (start ++ ['/']) start := .rel _ _ (.lastSlash hstart)
        rw [List.flatMap_nil, List.append_nil, List.append_nil]
        rcases hpart with rfl | rfl
        · exact hslash
        · exact .trans _ _ _ (.rel _ _ (.lastDot start)) hslash
      | cons next parts =>
        rcases hpart with rfl | rfl
        · exact .rel _ _ (.slash start _)
        · exact .rel _ _ (.dot start _)

/-- The parts of an absolute path that do not count can be left out. -/
theorem trims_root (part : List Char) (parts : List (List Char)) :
    Relation.EqvGen Trims ((part :: parts).flatMap fun part => '/' :: part)
      (spell (.root :: inner (part :: parts))) := by
  have hspell (part : List Char) (parts : List (List Char)) (h : counts part = true) :
      spell (.root :: inner (part :: parts)) =
        ('/' :: part) ++ (parts.filter counts).flatMap fun part => '/' :: part := by
    rw [← List.flatMap_cons, ← List.filter_cons_of_pos h, ← flatMap_inner, inner,
      List.filter_cons_of_pos h, List.map_cons]
    rfl
  induction parts generalizing part with
  | nil =>
    by_cases hcounts : counts part = true
    · rw [hspell part [] hcounts]
      exact .refl _
    · have hpart : part = [] ∨ part = ['.'] := by
        simpa [counts, or_iff_not_imp_left] using hcounts
      rcases hpart with rfl | rfl
      · exact .refl _
      · exact .rel _ _ (.lastDot [])
  | cons next parts ih =>
    by_cases hcounts : counts part = true
    · rw [hspell part _ hcounts, List.flatMap_cons]
      exact trims_parts (List.cons_ne_nil _ _) (next :: parts)
    · have hpart : part = [] ∨ part = ['.'] := by
        simpa [counts, or_iff_not_imp_left] using hcounts
      have hinner : inner (part :: next :: parts) = inner (next :: parts) := by
        rw [inner, List.filter_cons_of_neg hcounts, inner]
      rw [hinner]
      refine .trans _ _ _ ?_ (ih next)
      rcases hpart with rfl | rfl
      · exact .rel _ _ (.slash [] _)
      · exact .rel _ _ (.dot [] _)

theorem text_front {first : List Char} : (front first).text = first := by
  rw [front]
  split
  · next h => rw [h]; rfl
  · split
    · next h => rw [h]; rfl
    · exact Component.text_ofPart first

theorem front_eq_root_iff {first : List Char} : front first = .root ↔ first = [] := by
  rw [front]
  split
  · next h => simp [h]
  · next h =>
    refine iff_of_false (fun hroot => ?_) h
    split at hroot
    · cases hroot
    · rw [Component.ofPart] at hroot
      split at hroot <;> cases hroot

/-- A path is a respelling of the shortest one with its components. -/
theorem trims_spell (cs : List Char) :
    Relation.EqvGen Trims cs (spell (components (String.ofList cs))) := by
  obtain ⟨first, others, hsplit⟩ := List.exists_cons_of_ne_nil (split_ne_nil cs)
  have htext := eq_of_split hsplit
  rw [components_eq hsplit, assemble]
  by_cases hfirst : first = []
  · subst hfirst
    cases others with
    | nil => rw [htext]; exact .refl _
    | cons part parts =>
      rw [if_neg (by simp), htext]
      exact trims_root part parts
  · have hspell : spell (front first :: inner others) =
        first ++ (others.filter counts).flatMap fun part => '/' :: part := by
      have hroot : front first ≠ .root := mt front_eq_root_iff.1 hfirst
      rw [← flatMap_inner, spell.eq_def]
      split
      · next h => cases h
      · next h => exact absurd (List.cons.inj h).1 hroot
      · next h =>
        obtain ⟨rfl, rfl⟩ := List.cons.inj h
        rw [text_front]
    rw [if_neg (fun h => hfirst h.1), hspell]
    exact htext ▸ trims_parts hfirst others

/-- Paths have the same components exactly if they are spelled alike up to what does not count. -/
theorem components_eq_iff {p q : String} : components p = components q ↔ Respelled p q := by
  constructor
  · intro h
    have hp := trims_spell p.toList
    have hq := trims_spell q.toList
    rw [String.ofList_toList] at hp hq
    rw [h] at hp
    exact .trans _ _ _ hp (.symm _ _ hq)
  · intro h
    have hcs {cs ds : List Char} (h : Relation.EqvGen Trims cs ds) :
        components (String.ofList cs) = components (String.ofList ds) := by
      induction h with
      | rel _ _ htrims => exact components_of_trims htrims
      | refl _ => rfl
      | symm _ _ _ ih => exact ih.symm
      | trans _ _ _ _ _ ihfirst ihsecond => exact ihfirst.trans ihsecond
    have hcomponents := hcs h
    rwa [String.ofList_toList, String.ofList_toList] at hcomponents

/-! ## The order of paths -/

/-- Components are in the order of these keys. -/
def Component.key (c : Component) : Nat ×ₗ List Nat :=
  toLex (c.rank, match c with
    | .name s => Text.bytes s
    | .root | .here | .up => [])

/-- Paths are in the order of these keys. -/
def key (p : String) : List (Nat ×ₗ List Nat) :=
  (components p).map Component.key

theorem Component.before_iff {c d : Component} : c.before d = true ↔ c.key < d.key := by
  cases c <;> cases d <;>
    simp [before, key, rank, Prod.Lex.toLex_lt_toLex, Text.bytes_lt_bytes_iff]

theorem Component.key_inj {c d : Component} : c.key = d.key ↔ c = d := by
  cases c <;> cases d <;> simp [key, rank, Text.bytes_inj]

theorem before_iff {cs ds : List Component} :
    before cs ds = true ↔ cs.map Component.key < ds.map Component.key := by
  induction cs generalizing ds with
  | nil => cases ds <;> simp [before]
  | cons c cs ih =>
    cases ds with
    | nil => simp [before]
    | cons d ds =>
      rw [before, List.map_cons, List.map_cons, List.cons_lt_cons_iff, Component.key_inj]
      by_cases h : c = d
      · rw [if_pos h, ih, h]
        simp
      · rw [if_neg h, Component.before_iff]
        simp [h]

theorem key_eq_iff {p q : String} : key p = key q ↔ components p = components q := by
  have hinjective : Function.Injective Component.key := fun _ _ => Component.key_inj.1
  exact hinjective.list_map.eq_iff

end ScreenTree.Path
