import ScreenTree.Output.Basic
import ScreenTree.Path

/-! # An output in memory

The last accepted text of each path is kept, under the path's first spelling and in the order of
components. Attempts are counted, whether they are accepted or not. -/

namespace ScreenTree

structure Memory where
  files : List (String × String)
  attempts : Nat
  /-- Why every write is turned down, if it is. -/
  failure : Option FileFault
  deriving DecidableEq

namespace Memory

def empty : Memory := ⟨[], 0, none⟩

def failing (fault : FileFault) : Memory := ⟨[], 0, some fault⟩

/-- Puts a text at the place of its path. -/
def insert (path text : String) : List (String × String) → List (String × String)
  | [] => [(path, text)]
  | (p, t) :: files =>
    if Path.components path = Path.components p then (p, text) :: files
    else if Path.before (Path.components path) (Path.components p) then
      (path, text) :: (p, t) :: files
    else (p, t) :: insert path text files

def write (m : Memory) (path text : String) : Except FileError Unit × Memory :=
  match m.failure with
  | some fault => (.error ⟨fault, some path⟩, { m with attempts := m.attempts + 1 })
  | none =>
    (.ok (), { m with files := insert path text m.files, attempts := m.attempts + 1 })

instance : Output Memory := ⟨write⟩

/-- The text under a path, however it is spelled. -/
def get? (m : Memory) (path : String) : Option String :=
  (m.files.find? fun file => Path.components file.1 == Path.components path).map Prod.snd

def paths (m : Memory) : List String :=
  m.files.map Prod.fst

end Memory
end ScreenTree
