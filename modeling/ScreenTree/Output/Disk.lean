import ScreenTree.Output.Basic
import ScreenTree.Path

/-! # An output to a directory tree

A write makes the missing directories above its file and then replaces the file. Failures are
those of a file system: a missing directory, a file in the place of a directory, and a directory
in the place of the file. -/

namespace ScreenTree

/-- What stands under a name in a directory. -/
inductive Entry
  | file (text : String)
  | directory (entries : List (String × Entry))
  deriving Inhabited

namespace Entry

def isDirectory : Entry → Bool
  | .directory _ => true
  | .file _ => false

/-- The entry at the end of a list of names. -/
def at? (e : Entry) : List String → Option Entry
  | [] => some e
  | name :: names =>
    match e with
    | .file _ => none
    | .directory entries => (entries.lookup name).bind fun e => e.at? names

/-- Puts an entry under a name. -/
def insert (name : String) (new : Entry) : List (String × Entry) → List (String × Entry)
  | [] => [(name, new)]
  | (n, e) :: entries =>
    if n = name then (n, new) :: entries else (n, e) :: insert name new entries

/-- Puts an entry at the end of a list of names whose directories exist. -/
def put : Entry → List String → Entry → Entry
  | _, [], new => new
  | .directory entries, name :: names, new =>
    match entries.lookup name with
    | some e => .directory (insert name (e.put names new) entries)
    | none => .directory (insert name new entries)
  | e, _ :: _, _ => e

mutual

/-- All entries below, with the path of each; a directory has no text. -/
def list (above : String) : Entry → List (String × Option String)
  | .file _ => []
  | .directory entries => listAll above entries

def listAll (above : String) : List (String × Entry) → List (String × Option String)
  | [] => []
  | (name, .file text) :: entries => (above ++ name, some text) :: listAll above entries
  | (name, .directory inner) :: entries =>
    (above ++ name ++ "/", none) :: listAll (above ++ name ++ "/") inner ++
      listAll above entries

end

end Entry

/-- The working directory of an output. -/
structure Disk where
  top : Entry
  deriving Inhabited

namespace Disk

def empty : Disk := ⟨.directory []⟩

/-- Follows the parts of a path through directories. -/
def follow (d : Disk) (location : List String) : List String → Except FileFault (List String)
  | [] => .ok location
  | part :: parts =>
    if part = "." then d.follow location parts
    else if part = ".." then d.follow location.dropLast parts
    else
      match d.top.at? (location ++ [part]) with
      | none => .error .notFound
      | some (.file _) => .error .notDirectory
      | some (.directory _) => d.follow (location ++ [part]) parts

/-- Whether a last part leads to a directory that is there already. -/
def isDots (part : String) : Bool :=
  part == "." || part == ".."

/-- Whether the parts of a path lead anywhere. -/
def exists? (d : Disk) (parts : List String) : Bool :=
  match parts.getLast? with
  | none => true
  | some last =>
    match d.follow [] parts.dropLast with
    | .error _ => false
    | .ok location => isDots last || (d.top.at? (location ++ [last])).isSome

def makeDirectory (d : Disk) (parts : List String) : Except FileFault Disk :=
  match parts.getLast? with
  | none => .error .alreadyExists
  | some last =>
    (d.follow [] parts.dropLast).bind fun location =>
      if isDots last || (d.top.at? (location ++ [last])).isSome then .error .alreadyExists
      else .ok ⟨d.top.put (location ++ [last]) (.directory [])⟩

/-- Whether a directory that cannot be made is there already. -/
def settled (d : Disk) (parts : List String) (fault : FileFault) : Except FileFault Unit :=
  if (d.follow [] parts).isOk then .ok () else .error fault

/-- Makes a directory together with the missing ones above it. The parts are given from the last
one to the first. -/
def makeDirectories (d : Disk) : List String → Except FileFault Unit × Disk
  | [] => (.ok (), d)
  | part :: above =>
    let parts := (part :: above).reverse
    match d.makeDirectory parts with
    | .ok d => (.ok (), d)
    | .error .notFound =>
      match makeDirectories d above with
      | (.error fault, d) => (.error fault, d)
      | (.ok _, d) =>
        match d.makeDirectory parts with
        | .ok d => (.ok (), d)
        | .error fault => (d.settled parts fault, d)
    | .error fault => (d.settled parts fault, d)

/-- Opens a file for writing and replaces its text. A path that ends in a slash or in dots leads to
a directory. -/
def writeFile (d : Disk) (path text : String) : Except FileFault Disk :=
  if path.isEmpty then .error .notFound
  else
    let parts := Path.parts path
    match parts.getLast? with
    | none => .error .isDirectory
    | some last =>
      (d.follow [] parts.dropLast).bind fun location =>
        if isDots last || path.toList.getLast? == some '/' then .error .isDirectory
        else
          match d.top.at? (location ++ [last]) with
          | some (.directory _) => .error .isDirectory
          | _ => .ok ⟨d.top.put (location ++ [last]) (.file text)⟩

/-- The parts of the directory above a path, where dots behind the front do not count. -/
def parentParts (path : String) : List String :=
  (match Path.parts path with
    | [] => []
    | first :: rest => first :: rest.filter fun p => p != ".").dropLast

/-- Makes the directories above the file, then writes it. Directories stay even if the write
fails. -/
def write (d : Disk) (path text : String) : Except FileError Unit × Disk :=
  let parent := parentParts path
  let made := if d.exists? parent then (.ok (), d) else d.makeDirectories parent.reverse
  match made with
  | (.error fault, d) => (.error ⟨fault, none⟩, d)
  | (.ok _, d) =>
    match d.writeFile path text with
    | .error fault => (.error ⟨fault, none⟩, d)
    | .ok d => (.ok (), d)

instance : Output Disk := ⟨write⟩

/-- All files with their texts, and all directories. -/
def list (d : Disk) : List (String × Option String) :=
  d.top.list ""

end Disk
end ScreenTree
