import Mathlib.Data.List.Basic
import ScreenTree.Config

/-! # Files in a directory

The name of a file is the last component of its path, whatever the directory is that it is put into.
So files with different names in one directory have different paths. -/

namespace ScreenTree

namespace Path

theorem split_ne_nil (cs : List Char) : split cs ≠ [] := by
  induction cs with
  | nil => simp [split]
  | cons c cs ih =>
    rw [split]
    split
    · simp
    · cases hsplit : split cs with
      | nil => exact absurd hsplit ih
      | cons part parts => simp

theorem split_append_slash (front cs : List Char) :
    split (front ++ '/' :: cs) = split front ++ split cs := by
  induction front with
  | nil => rfl
  | cons c front ih =>
    rw [List.cons_append, split, split, ih]
    by_cases hslash : c = '/'
    · rw [if_pos hslash, if_pos hslash, List.cons_append]
    · rw [if_neg hslash, if_neg hslash]
      cases hsplit : split front with
      | nil => exact absurd hsplit (split_ne_nil front)
      | cons part parts => rfl

theorem split_of_not_mem {cs : List Char} (h : '/' ∉ cs) : split cs = [cs] := by
  induction cs with
  | nil => rfl
  | cons c cs ih =>
    rw [List.mem_cons, not_or] at h
    rw [split, if_neg (Ne.symm h.1), ih h.2]

theorem toList_join {file : String} (hslash : '/' ∉ file.toList) (directory : String) :
    (join directory file).toList = file.toList ∨
      ∃ front, (join directory file).toList = front ++ '/' :: file.toList := by
  have hrelative : isAbsolute file = false := by
    cases hfile : file.toList with
    | nil => simp [isAbsolute, hfile]
    | cons c cs =>
      rw [hfile, List.mem_cons, not_or] at hslash
      simp [isAbsolute, hfile, Ne.symm hslash.1]
  rw [join, hrelative, if_neg Bool.false_ne_true]
  by_cases hempty : directory = ""
  · subst hempty
    exact .inl (by simp)
  by_cases hlast : directory.toList.getLast? = some '/'
  · obtain ⟨front, hfront⟩ := List.getLast?_eq_some_iff.1 hlast
    exact .inr ⟨front, by simp [hfront]⟩
  · exact .inr ⟨directory.toList, by simp [hempty, hlast]⟩

theorem parts_join {file : String} (hslash : '/' ∉ file.toList) (hempty : file ≠ "")
    (directory : String) : ∃ front, parts (join directory file) = front ++ [file] := by
  have hfile : file.toList.isEmpty = false := by
    rw [List.isEmpty_eq_false_iff]
    exact fun h => hempty (String.toList_eq_nil_iff.1 h)
  rcases toList_join hslash directory with htext | ⟨front, htext⟩
  · refine ⟨[], ?_⟩
    rw [parts, htext, split_of_not_mem hslash]
    simp [hfile]
  · refine ⟨((split front).filter fun part => !part.isEmpty).map String.ofList, ?_⟩
    rw [parts, htext, split_append_slash, split_of_not_mem hslash]
    simp [hfile]

theorem getLast?_components {path file : String} {front : List String}
    (hparts : parts path = front ++ [file]) (hhere : file ≠ ".") (hup : file ≠ "..") :
    (components path).getLast? = some (.name file) := by
  have hrest (front : List String) : (((front ++ [file]).filter fun p => p != ".").map
      Component.ofPart).getLast? = some (.name file) := by
    rw [List.filter_append, List.map_append]
    simp [hhere, Component.ofPart, hup]
  have hcons (c : Component) (front : List String) :
      (c :: ((front ++ [file]).filter fun p => p != ".").map Component.ofPart).getLast? =
        some (.name file) := by
    rw [List.getLast?_cons, hrest]
    rfl
  rw [components, hparts]
  split
  · exact hcons .root front
  · split
    · next rest heq =>
      cases front with
      | nil => exact absurd (List.cons.inj heq).1 hhere
      | cons part front =>
        cases heq
        exact hcons .here front
    · exact hrest front

end Path

/-- The module of a component is the last component of its path. -/
theorem Config.getLast?_componentModulePath {name : String} (h : '/' ∉ name.toList) (c : Config) :
    (Path.components (c.componentModulePath name)).getLast? = some (.name (name ++ ".jsx")) := by
  have hslash : '/' ∉ (name ++ ".jsx").toList := by
    rw [String.toList_append, List.mem_append, not_or]
    exact ⟨h, by decide⟩
  have hlong {file : String} (hshort : file.length < 4) : name ++ ".jsx" ≠ file := by
    rintro rfl
    rw [String.length_append, show ".jsx".length = 4 from rfl] at hshort
    omega
  obtain ⟨front, hparts⟩ := Path.parts_join hslash (hlong (by decide)) c.componentDirectory
  exact Path.getLast?_components hparts (hlong (by decide)) (hlong (by decide))

/-- Components with different names have their modules in different files. -/
theorem Config.componentModulePath_inj {name other : String} (h : '/' ∉ name.toList)
    (hother : '/' ∉ other.toList) (c : Config) :
    Path.components (c.componentModulePath name) = Path.components (c.componentModulePath other) ↔
      name = other := by
  refine ⟨fun hpath => ?_, fun hname => by rw [hname]⟩
  have hlast := c.getLast?_componentModulePath h
  rw [hpath, c.getLast?_componentModulePath hother] at hlast
  have hfile : other ++ ".jsx" = name ++ ".jsx" := Path.Component.name.inj (Option.some.inj hlast)
  exact (String.append_left_inj ".jsx").1 hfile.symm

end ScreenTree
