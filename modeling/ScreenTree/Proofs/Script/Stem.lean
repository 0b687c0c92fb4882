import Mathlib.Data.List.TakeWhile
import ScreenTree.Script.Stem

/-! # Parts of import sources

Every source has one directory, one stem and one extension. The pattern for sources finds them, and
a new stem keeps the other two, exactly if the directory has no line break in it. -/

namespace ScreenTree.Script.Stem

theorem exists_last_of_mem {l : Letter} {s : Literal} (h : l ∈ s) :
    ∃ before after, s = before ++ l :: after ∧ l ∉ after := by
  obtain ⟨after, before, hreverse, hafter⟩ := List.eq_append_cons_of_mem (List.mem_reverse.2 h)
  refine ⟨before.reverse, after.reverse, ?_, fun hmem => hafter (List.mem_reverse.1 hmem)⟩
  rw [← List.reverse_reverse s, hreverse]
  simp

theorem ne_of_mem_reverse {c : Char} {s : Literal} (h : .char c ∉ s) :
    ∀ l ∈ s.reverse, (l != .char c) = true := by
  intro l hl
  rw [bne_iff_ne]
  rintro rfl
  exact h (List.mem_reverse.1 hl)

theorem splitLast_of_not_mem {c : Char} {s : Literal} (h : .char c ∉ s) :
    splitLast c s = ([], s) := by
  have hall := ne_of_mem_reverse h
  rw [splitLast, List.dropWhile_eq_nil_iff.2 hall, List.takeWhile_eq_self_iff.2 hall,
    List.reverse_reverse, List.reverse_nil]

theorem splitLast_append {c : Char} {after : Literal} (before : Literal) (h : .char c ∉ after) :
    splitLast c (before ++ .char c :: after) = (before ++ [.char c], after) := by
  have hall := ne_of_mem_reverse h
  have hreverse : (before ++ .char c :: after).reverse =
      after.reverse ++ .char c :: before.reverse := by
    simp
  rw [splitLast, hreverse]
  simp only [List.dropWhile_append_of_pos hall, List.takeWhile_append_of_pos hall]
  simp

theorem splitLast_slash {directory file : Literal}
    (hdirectory : directory = [] ∨ ∃ above, directory = above ++ [.char '/'])
    (hfile : .char '/' ∉ file) : splitLast '/' (directory ++ file) = (directory, file) := by
  rcases hdirectory with rfl | ⟨above, rfl⟩
  · exact splitLast_of_not_mem hfile
  · rw [List.append_assoc, List.singleton_append, splitLast_append above hfile]

/-- A source in three parts. -/
structure Parts where
  directory : Literal
  stem : Literal
  extension : Literal

namespace Parts

def whole (p : Parts) : Literal :=
  p.directory ++ p.stem ++ p.extension

def withStem (p : Parts) (stem : Literal) : Parts :=
  { p with stem }

/-- The directory ends with the last slash, and the extension begins with the last point behind it.
Without a slash there is no directory, and without a point behind it no extension. -/
structure Proper (p : Parts) : Prop where
  directory : p.directory = [] ∨ ∃ above, p.directory = above ++ [.char '/']
  file : .char '/' ∉ p.stem ++ p.extension
  extension : p.extension = [] ∧ .char '.' ∉ p.stem ∨
    ∃ rest, p.extension = .char '.' :: rest ∧ .char '.' ∉ rest

variable {p : Parts}

theorem Proper.splitLast_whole (h : p.Proper) :
    splitLast '/' p.whole = (p.directory, p.stem ++ p.extension) := by
  rw [whole, List.append_assoc, splitLast_slash h.directory h.file]

theorem Proper.directory_whole (h : p.Proper) : Stem.directory p.whole = p.directory := by
  rw [Stem.directory, h.splitLast_whole]

theorem Proper.file_whole (h : p.Proper) : Stem.file p.whole = p.stem ++ p.extension := by
  rw [Stem.file, h.splitLast_whole]

theorem Proper.fileExtension_whole (h : p.Proper) :
    fileExtension (Stem.file p.whole) = p.extension := by
  rw [h.file_whole, fileExtension]
  rcases h.extension with ⟨hnone, hstem⟩ | ⟨rest, hrest, hpoint⟩
  · rw [hnone, List.append_nil, splitLast_of_not_mem hstem]
  · rw [hrest, splitLast_append p.stem hpoint]
    cases p.stem <;> rfl

/-- A source can be taken apart in one way only. -/
theorem Proper.eq_of_whole_eq {q : Parts} (hp : p.Proper) (hq : q.Proper)
    (h : p.whole = q.whole) : p = q := by
  have hdirectory : p.directory = q.directory := by
    rw [← hp.directory_whole, ← hq.directory_whole, h]
  have hextension : p.extension = q.extension := by
    rw [← hp.fileExtension_whole, ← hq.fileExtension_whole, h]
  have hstem : p.stem = q.stem := by
    rw [whole, whole, hdirectory, hextension] at h
    exact List.append_cancel_left (List.append_cancel_right h)
  cases p
  cases q
  simp_all

theorem exists_proper (source : Literal) : ∃ p : Parts, p.Proper ∧ p.whole = source := by
  obtain ⟨directory, file, hdirectory, hfile, hsource⟩ : ∃ directory file : Literal,
      (directory = [] ∨ ∃ above, directory = above ++ [.char '/']) ∧ .char '/' ∉ file ∧
        directory ++ file = source := by
    by_cases hslash : .char '/' ∈ source
    · obtain ⟨above, file, rfl, hfile⟩ := exists_last_of_mem hslash
      exact ⟨above ++ [.char '/'], file, .inr ⟨above, rfl⟩, hfile, by simp⟩
    · exact ⟨[], source, .inl rfl, hslash, rfl⟩
  by_cases hpoint : .char '.' ∈ file
  · obtain ⟨stem, rest, rfl, hrest⟩ := exists_last_of_mem hpoint
    refine ⟨⟨directory, stem, .char '.' :: rest⟩, ⟨hdirectory, hfile, .inr ⟨rest, rfl, hrest⟩⟩, ?_⟩
    rw [whole, List.append_assoc, hsource]
  · refine ⟨⟨directory, file, []⟩, ⟨hdirectory, ?_, .inl ⟨rfl, hpoint⟩⟩, ?_⟩
    · rwa [List.append_nil]
    · rw [whole, List.append_nil, hsource]

theorem Proper.replace_whole (h : p.Proper) (new : String) :
    replace p.whole new =
      if .char '\n' ∈ p.directory then .ofString new else (p.withStem (.ofString new)).whole := by
  rw [replace, h.directory_whole, h.fileExtension_whole]
  rfl

/-- A stem without slashes and points leaves the other parts as they are. -/
theorem Proper.withStem (h : p.Proper) {stem : Literal} (hslash : .char '/' ∉ stem)
    (hpoint : .char '.' ∉ stem) : (p.withStem stem).Proper where
  directory := h.directory
  file := by
    have hfile := h.file
    rw [List.mem_append, not_or] at hfile ⊢
    exact ⟨hslash, hfile.2⟩
  extension := h.extension.imp (fun hnone => ⟨hnone.1, hpoint⟩) id

/-! ## The pattern of a source -/

/-- A way to match a source with `(.*/)?[^/]*(\.[^./]*)?`, where the first point stands for anything
but a line break. A new stem takes the place of the shortest one, if there is a match. -/
structure Matches (p : Parts) : Prop where
  directory : p.directory = [] ∨ ∃ above, p.directory = above ++ [.char '/'] ∧ .char '\n' ∉ above
  stem : .char '/' ∉ p.stem
  extension : p.extension = [] ∨
    ∃ rest, p.extension = .char '.' :: rest ∧ .char '/' ∉ rest ∧ .char '.' ∉ rest

theorem Matches.file (h : p.Matches) : .char '/' ∉ p.stem ++ p.extension := by
  rw [List.mem_append, not_or]
  refine ⟨h.stem, ?_⟩
  rcases h.extension with hnone | ⟨rest, hrest, hslash, -⟩
  · rw [hnone]
    nofun
  · rw [hrest, List.mem_cons, not_or]
    exact ⟨nofun, hslash⟩

theorem Proper.isMatch (h : p.Proper) (hbreak : .char '\n' ∉ p.directory) : p.Matches := by
  have hfile := h.file
  rw [List.mem_append, not_or] at hfile
  refine ⟨?_, hfile.1, ?_⟩
  · rcases h.directory with hnone | ⟨above, habove⟩
    · exact .inl hnone
    · rw [habove] at hbreak
      exact .inr ⟨above, habove, fun hmem => hbreak (List.mem_append_left _ hmem)⟩
  · rcases h.extension with ⟨hnone, -⟩ | ⟨rest, hrest, hpoint⟩
    · exact .inl hnone
    · rw [hrest, List.mem_cons, not_or] at hfile
      exact .inr ⟨rest, hrest, hfile.2.2, hpoint⟩

theorem Matches.not_mem_directory (h : p.Matches) : .char '\n' ∉ p.directory := by
  rcases h.directory with hnone | ⟨above, habove, hbreak⟩
  · rw [hnone]
    nofun
  · simpa [habove] using hbreak

/-- A match that leaves a point in the stem is not the shortest one. -/
theorem Matches.proper (h : p.Matches)
    (hshortest : ∀ q : Parts, q.Matches → q.whole = p.whole → p.stem.length ≤ q.stem.length) :
    p.Proper := by
  refine ⟨h.directory.imp_right fun ⟨above, habove, _⟩ => ⟨above, habove⟩, h.file, ?_⟩
  rcases h.extension with hnone | ⟨rest, hrest, -, hpoint⟩
  · refine .inl ⟨hnone, fun hmem => ?_⟩
    obtain ⟨stem, rest, hstem, hrest⟩ := exists_last_of_mem hmem
    have hslash := h.stem
    rw [hstem, List.mem_append, List.mem_cons, not_or, not_or] at hslash
    have hmatch : (Parts.mk p.directory stem (.char '.' :: rest)).Matches :=
      ⟨h.directory, hslash.1, .inr ⟨rest, rfl, hslash.2.2, hrest⟩⟩
    have hlength := hshortest _ hmatch (by simp [whole, hstem, hnone])
    rw [hstem, List.length_append, List.length_cons] at hlength
    dsimp only at hlength
    omega
  · exact .inr ⟨rest, hrest, hpoint⟩

theorem Matches.replace_whole (h : p.Matches)
    (hshortest : ∀ q : Parts, q.Matches → q.whole = p.whole → p.stem.length ≤ q.stem.length)
    (new : String) : replace p.whole new = (p.withStem (.ofString new)).whole := by
  rw [(h.proper hshortest).replace_whole, if_neg h.not_mem_directory]

theorem replace_of_not_matches {source : Literal} (h : ∀ p : Parts, p.Matches → p.whole ≠ source)
    (new : String) : replace source new = .ofString new := by
  obtain ⟨p, hp, rfl⟩ := exists_proper source
  have hbreak : .char '\n' ∈ p.directory := by
    by_contra hbreak
    exact h p (hp.isMatch hbreak) rfl
  rw [hp.replace_whole, if_pos hbreak]

end Parts

/-! ## New stems -/

theorem mem_ofString_iff {c : Char} {s : String} : .char c ∈ Literal.ofString s ↔ c ∈ s.toList := by
  simp [Literal.ofString]

theorem ofString_append (s t : String) :
    Literal.ofString (s ++ t) = Literal.ofString s ++ Literal.ofString t := by
  simp [Literal.ofString]

/-- Every source has one directory, one stem and one extension, and a new stem keeps the directory
and the extension exactly if there is no line break in the directory; if there is one, the new stem
is all that is left. -/
theorem replace_keeps_iff (source : Literal) (new : String) :
    ∃ p : Parts, p.Proper ∧ p.whole = source ∧ (∀ q : Parts, q.Proper → q.whole = source → q = p) ∧
      (replace source new = p.directory ++ .ofString new ++ p.extension ↔
        .char '\n' ∉ p.directory) ∧
      (.char '\n' ∈ p.directory → replace source new = .ofString new) := by
  obtain ⟨p, hp, rfl⟩ := Parts.exists_proper source
  refine ⟨p, hp, rfl, fun q hq hwhole => hq.eq_of_whole_eq hp hwhole, ?_, ?_⟩
  · rw [hp.replace_whole]
    split
    case isTrue hbreak =>
      refine iff_of_false ?_ (not_not_intro hbreak)
      intro hsame
      have hlength := congrArg List.length hsame
      have hpos := List.length_pos_of_mem hbreak
      simp only [List.length_append] at hlength
      omega
    case isFalse hbreak => exact iff_of_true rfl hbreak
  · intro hbreak
    rw [hp.replace_whole, if_pos hbreak]

/-- A directory with a line break in its name is lost, and the extension with it. -/
theorem directory_lost :
    let source := Literal.ofString "./a\nb/Card.jsx"
    let parts : Parts := ⟨.ofString "./a\nb/", .ofString "Card", .ofString ".jsx"⟩
    parts.Proper ∧ parts.whole = source ∧ replace source "Row" = .ofString "Row" ∧
      replace source "Row" ≠ parts.directory ++ .ofString "Row" ++ parts.extension := by
  intro source parts
  have hproper : parts.Proper := by
    refine ⟨.inr ⟨Literal.ofString "./a\nb", ?_⟩, ?_, .inr ⟨Literal.ofString "jsx", ?_, ?_⟩⟩ <;>
      decide
  refine ⟨hproper, ?_, ?_, ?_⟩ <;> decide

/-- A name without slashes and points is a stem and nothing else. -/
theorem replace_ofString {name : String} (hslash : '/' ∉ name.toList) (hpoint : '.' ∉ name.toList)
    (new : String) : replace (.ofString name) new = .ofString new := by
  have hproper : (Parts.mk [] (.ofString name) []).Proper :=
    ⟨.inl rfl, by simpa [mem_ofString_iff] using hslash,
      .inl ⟨rfl, mt mem_ofString_iff.1 hpoint⟩⟩
  simpa [Parts.whole, Parts.withStem] using hproper.replace_whole new

/-- Of two new stems the later one stays, if the earlier one has no slash and no point. -/
theorem replace_of_replace (source : Literal) {new : String} (hslash : '/' ∉ new.toList)
    (hpoint : '.' ∉ new.toList) (later : String) :
    replace (replace source new) later = replace source later := by
  obtain ⟨p, hp, rfl⟩ := Parts.exists_proper source
  have hnew : (p.withStem (.ofString new)).Proper :=
    hp.withStem (mt mem_ofString_iff.1 hslash) (mt mem_ofString_iff.1 hpoint)
  rw [hp.replace_whole, hp.replace_whole]
  split
  case isTrue =>
    -- The directory is lost at the first time already.
    exact replace_ofString hslash hpoint later
  case isFalse hbreak =>
    rw [hnew.replace_whole]
    exact if_neg hbreak

end ScreenTree.Script.Stem
