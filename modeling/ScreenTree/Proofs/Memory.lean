import ScreenTree.Output.Memory

/-! # Files in memory

A write to a memory that accepts writes is seen under every spelling of its path, and under no other
path. -/

namespace ScreenTree.Memory

/-- The text under a path in a list of files. -/
def lookup (files : List (String × String)) (q : String) : Option String :=
  (files.find? fun file => Path.components file.1 == Path.components q).map Prod.snd

theorem lookup_cons (p t : String) (files : List (String × String)) (q : String) :
    lookup ((p, t) :: files) q =
      if Path.components q = Path.components p then some t else lookup files q := by
  by_cases h : Path.components q = Path.components p
  · simp [lookup, h]
  · simp [lookup, h, Ne.symm h]

theorem lookup_insert (path text : String) (files : List (String × String)) (q : String) :
    lookup (insert path text files) q =
      if Path.components q = Path.components path then some text else lookup files q := by
  induction files with
  | nil => rw [insert, lookup_cons]
  | cons file files ih =>
    obtain ⟨p, t⟩ := file
    rw [insert]
    by_cases hsame : Path.components path = Path.components p
    · rw [if_pos hsame, lookup_cons, lookup_cons, hsame]
      split <;> rfl
    · by_cases hbefore : Path.before (Path.components path) (Path.components p) = true
      · rw [if_neg hsame, if_pos hbefore, lookup_cons]
      · rw [if_neg hsame, if_neg hbefore, lookup_cons, lookup_cons, ih]
        by_cases hq : Path.components q = Path.components p
        · rw [if_pos hq, if_neg (fun h => hsame (h.symm.trans hq)), if_pos hq]
        · rw [if_neg hq, if_neg hq]

/-- What is read after a write to a memory that accepts it. -/
theorem get?_write {m : Memory} (h : m.failure = none) (path text q : String) :
    (m.write path text).2.get? q =
      if Path.components q = Path.components path then some text else m.get? q := by
  rw [write, h]
  exact lookup_insert path text m.files q

theorem failure_write (m : Memory) (path text : String) :
    (m.write path text).2.failure = m.failure := by
  rw [write]
  split <;> next h => rw [h]

end ScreenTree.Memory
