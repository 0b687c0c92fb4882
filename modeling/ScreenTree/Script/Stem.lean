import ScreenTree.Script.Literal

/-! # Stems of import sources

A source is a directory up to its last slash, a stem, and an extension from the last point of the
rest. -/

namespace ScreenTree.Script.Stem

/-- The letters up to the last `c`, and those behind it. -/
def splitLast (c : Char) (s : Literal) : Literal × Literal :=
  let r := s.reverse
  ((r.dropWhile (· != .char c)).reverse, (r.takeWhile (· != .char c)).reverse)

/-- The directory with its slash, or nothing. -/
def directory (s : Literal) : Literal :=
  (splitLast '/' s).1

/-- The part behind the last slash. -/
def file (s : Literal) : Literal :=
  (splitLast '/' s).2

/-- The last point of a file name and what follows, or nothing. -/
def fileExtension (s : Literal) : Literal :=
  match splitLast '.' s with
  | ([], _) => []
  | (_, rest) => .char '.' :: rest

/-- Puts a new stem in the place of the old one. A source with a line break in its directory is
replaced as a whole. -/
def replace (source : Literal) (new : String) : Literal :=
  if .char '\n' ∈ directory source then .ofString new
  else directory source ++ .ofString new ++ fileExtension (file source)

end ScreenTree.Script.Stem
