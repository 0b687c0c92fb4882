import ScreenTree.Script.Reader
import ScreenTree.Script.Stem

/-! # Changes of a script

Renaming a component, importing one, and giving an attribute to every element of one. -/

namespace ScreenTree.Script

/-- How much a renaming changed. -/
structure Report where
  openingTags : Nat
  closingTags : Nat
  imports : Nat
  deriving DecidableEq

def Report.empty : Report :=
  ⟨0, 0, 0⟩

def Report.total (r : Report) : Nat :=
  r.openingTags + r.closingTags + r.imports

/-- The new name of a tag that is the plain old name. -/
def TagName.rename (old new : String) (n : TagName) : TagName :=
  if n = .plain old then .plain new else n

/-- An import is a default one if that is what it binds first. -/
def Import.isDefault (i : Import) : Bool :=
  match i.bindings with
  | some (.default _ :: _) => true
  | _ => false

/-- A default import binds the new name alone and takes it into its source, whatever it was bound
to before. -/
def Import.rename (new : String) (i : Import) : Import :=
  if i.isDefault then
    { i with bindings := some [.default new], source := Stem.replace i.source new }
  else i

/-- Renames a component in its tags, rebinds all default imports, and counts the changes. -/
def Revision.renaming (old new : String) : Revision Report where
  opening n := do
    if n = .plain old then modify fun r => { r with openingTags := r.openingTags + 1 }
    return (n.rename old new, [])
  closing n := do
    if n = .plain old then modify fun r => { r with closingTags := r.closingTags + 1 }
    return n.rename old new
  importing i := do
    if i.isDefault then modify fun r => { r with imports := r.imports + 1 }
    return i.rename new

/-- Appends an attribute to every opening tag that is the plain name of the component, and counts
them. -/
def Revision.adding (component name value : String) : Revision Nat where
  opening n := do
    if n = .plain component then
      modify (· + 1)
      return (n, [.attribute name (.quoted value)])
    else return (n, [])
  closing := pure
  importing := pure

namespace Module

/-- The script with a component renamed, and the count of what has changed. -/
def renameCounting (old new : String) (m : Module) : Module × Report :=
  (m.revise (.renaming old new)).run .empty

def rename (old new : String) (m : Module) : Module :=
  (m.renameCounting old new).1

def renameReport (old new : String) (m : Module) : Report :=
  (m.renameCounting old new).2

end Module

/-- Where an imported component lives. -/
inductive ImportKind
  | predefined
  | userDefined
  deriving DecidableEq

namespace ImportKind

def directory : ImportKind → String
  | .predefined => "./components"
  | .userDefined => "./user-comps"

def name : ImportKind → String
  | .predefined => "predefined"
  | .userDefined => "userDefined"

def ofName (name : String) : Except Error ImportKind :=
  if name = "predefined" then .ok .predefined
  else if name = "userDefined" then .ok .userDefined
  else .error (.unreadable (.importKind name))

end ImportKind

def isNameStart (c : Char) : Bool :=
  c.isAlpha || c == '_' || c == '$'

def isNamePart (c : Char) : Bool :=
  c.isAlphanum || c == '_' || c == '$'

/-- Names of ASCII letters, digits, `_` and `$` that do not begin with a digit. -/
def isSimpleName (name : String) : Bool :=
  match name.toList with
  | [] => false
  | c :: cs => isNameStart c && cs.all isNamePart

/-- Where the component of this name is imported from. -/
def ImportKind.path (kind : ImportKind) (name : String) : String :=
  kind.directory ++ "/" ++ name

/-- The import of a component from the directory of its kind. -/
def Import.ofComponent (name : String) (kind : ImportKind) : Import where
  bindings := some [.default name]
  source := .ofString (kind.path name)
  conditions := none

/-- The text of that import. -/
def importText (name : String) (kind : ImportKind) : String :=
  "import " ++ name ++ " from \"" ++ kind.path name ++ "\";"

namespace Module

/-- The outcome of putting the import of a component before all statements, with the script after
it. The name is checked before the text of the import is read. -/
def inject (read : String → Except Error Module) (name : String) (kind : ImportKind) (m : Module) :
    Except Error Unit × Module :=
  if isSimpleName name then
    match read (importText name kind) with
    | .ok snippet =>
      match snippet.statements.getLast? with
      | some t => (.ok (), { m with statements := t :: m.statements })
      | none => (.error (.refused (.importWithoutStatement name)), m)
    | .error e => (.error e, m)
  else (.error (.unreadable (.importName name)), m)

/-- Puts the import of a component before all statements. -/
def addImport (name : String) (kind : ImportKind) (m : Module) : Except Error Module :=
  let (answer, after) := m.inject read name kind
  answer.map fun _ => after

/-- The script with an attribute given to all elements of a component, and their number. -/
def addAttributeCounting (component name value : String) (m : Module) : Module × Nat :=
  (m.revise (.adding component name value)).run 0

def addAttribute (component name value : String) (m : Module) : Module :=
  (m.addAttributeCounting component name value).1

/-- How many elements get the attribute. -/
def attributeCount (component name value : String) (m : Module) : Nat :=
  (m.addAttributeCounting component name value).2

end Module
end ScreenTree.Script
