/-! # Paths of files

A path is a text. Two texts name the same file in an output if they have the same components, in
which repeated slashes, a slash at the end and dots behind the front do not count. -/

namespace ScreenTree.Path

/-- One step of a path. -/
inductive Component
  | root
  | here
  | up
  | name (s : String)
  deriving DecidableEq

/-- The parts between slashes. -/
def split : List Char → List (List Char)
  | [] => [[]]
  | c :: cs =>
    if c = '/' then [] :: split cs
    else
      match split cs with
      | [] => [[c]]
      | part :: parts => (c :: part) :: parts

/-- The parts that are not empty. -/
def parts (path : String) : List String :=
  ((split path.toList).filter fun part => !part.isEmpty).map String.ofList

/-- The component of a part that is not a dot. -/
def Component.ofPart (part : String) : Component :=
  if part = ".." then .up else .name part

def isAbsolute (path : String) : Bool :=
  path.toList.head? == some '/'

def components (path : String) : List Component :=
  let ps := parts path
  let rest (ps : List String) := (ps.filter fun p => p != ".").map Component.ofPart
  if isAbsolute path then .root :: rest ps
  else
    match ps with
    | "." :: ps => .here :: rest ps
    | ps => rest ps

/-- The kinds of components in their order. -/
def Component.rank : Component → Nat
  | .root => 0
  | .here => 1
  | .up => 2
  | .name _ => 3

/-- Components are ordered by kind, names by their characters. -/
def Component.before : Component → Component → Bool
  | .name s, .name t => s < t
  | a, b => a.rank < b.rank

/-- The order of paths: the first different component decides, and a path comes before its
continuations. -/
def before : List Component → List Component → Bool
  | [], [] => false
  | [], _ :: _ => true
  | _ :: _, [] => false
  | a :: as, b :: bs => if a = b then before as bs else a.before b

/-- Appends a path to a directory. An absolute one stands for itself. -/
def join (directory path : String) : String :=
  if isAbsolute path then path
  else if directory.isEmpty || directory.toList.getLast? == some '/' then directory ++ path
  else directory ++ "/" ++ path

end ScreenTree.Path
